import VideoPoster.StandingBudget.Steps

/-!
# The standing limits
-/

namespace VideoPoster.StandingBudget
open Python Billing Tables Claim Table Ledger

/-- What any operation leaves alone in a claim: all but its state, its binding and its pin, and the
actual amount once it is set. -/
structure Claim.Evolves (old new : Claim) : Prop where
  requestId : new.requestId = old.requestId
  episodeId : new.episodeId = old.episodeId
  month : new.month = old.month
  cap : new.cap = old.cap
  experiment : new.experiment = old.experiment
  actual : new.actual = old.actual ∨ old.actual = none

variable {P : Policy} {allowed : Ledger → Op → Prop} {l l' : Ledger}

variable {context : Option ℕ} {old new : Claim}

theorem Claim.Update.evolves (update : Claim.Update context old new) : old.Evolves new := by
  cases update with
  | bound | marked | pinned => exact ⟨rfl, rfl, rfl, rfl, rfl, .inl rfl⟩
  | settled legacy unsettled => exact ⟨rfl, rfl, rfl, rfl, rfl, .inr unsettled⟩

theorem step_claims (step : Step P allowed l l') :
    l'.claims = l.claims ∨ (∃ new : Claim, l.claims.find? new.requestId = none ∧ l.frozen = false ∧ new.actual =
    none ∧ l.episodeTotal new.episodeId + new.cap ≤ P.episodeLimit ∧ l.monthTotal new.month + new.cap ≤ P.monthLimit ∧
    (new.experiment = true → l.experimentTotal new.month + new.cap ≤ P.experimentLimit) ∧ l'.claims = l.claims.put new)
    ∨ ∃ old new : Claim, l.claims.find? new.requestId = some old ∧ old.Evolves new ∧ l'.claims = l.claims.put new := by
  obtain ⟨op, -, change⟩ := step.change
  cases change with
  | unchanged => exact .inl rfl
  | inserted new absent thawed reserved unsettled episode monthly experiment =>
    exact .inr (.inl ⟨new, absent, thawed, unsettled, episode, monthly, experiment, rfl⟩)
  | updated old new found update =>
    exact .inr (.inr ⟨old, new, update.requestId ▸ found, update.evolves, rfl⟩)
  | receipted receipt actual row touchable parsed found fal binds fixture missing unsettled =>
    obtain ⟨-, same⟩ := find?_eq_some.mp found
    refine .inr (.inr ⟨row, _, ?_, ?_, rfl⟩)
    · exact same ▸ found
    · exact ⟨rfl, rfl, rfl, rfl, rfl, .inr unsettled⟩

def Ledger.Overrun (l : Ledger) : Prop := ∃ claim ∈ l.claims, claim.overrun = true

theorem frozen_iff : l.frozen = true ↔ l.Overrun := by
  simp [frozen, Ledger.Overrun, mem_rows]

theorem Claim.Evolves.overrun (evolves : old.Evolves new) (exceeds : old.overrun = true) : new.overrun = true := by
  rcases evolves.actual with same | unsettled
  · simpa [Claim.overrun, same, evolves.cap] using exceeds
  · simp [Claim.overrun, unsettled] at exceeds

theorem Ledger.Overrun.step (exceeds : l.Overrun) (step : Step P allowed l l') : l'.Overrun := by
  obtain ⟨claim, member, above⟩ := exceeds
  rcases step_claims step with same | ⟨new, -, thawed, -⟩ | ⟨old, new, found, evolves, put⟩
  · exact ⟨claim, same ▸ member, above⟩
  · rw [frozen_iff.2 ⟨claim, member, above⟩] at thawed
    cases thawed
  · by_cases same : claim.requestId = new.requestId
    · obtain ⟨oldMember, oldKey⟩ := find?_eq_some.mp found
      obtain rfl := eq_of_key member oldMember (same.trans oldKey.symm)
      exact ⟨new, put ▸ mem_put.mpr (.inl rfl), evolves.overrun above⟩
    · exact ⟨claim, put ▸ mem_put.mpr (.inr ⟨member, same⟩), above⟩

theorem Ledger.Overrun.reaches (exceeds : l.Overrun) (reaches : Reaches P allowed l l') : l'.Overrun := by
  induction reaches with
  | refl => exact exceeds
  | tail _ step ih => exact ih.step step

theorem reserve_refused (exceeds : l.Overrun) {month : Result String} {args : ReserveArgs} (fresh :
    l.claims.find? args.requestId = none) : ∃ error, (l.step P (.reserve context month args)).2 = .error error := by
  unfold step
  cases applied : (Op.reserve context month args).apply P l with
  | error e => exact ⟨e, rfl⟩
  | ok outcome =>
    rcases reserve_ok applied with ⟨found, -⟩ | ⟨-, thawed, -⟩
    · rw [fresh] at found
      cases found
    · rw [frozen_iff.2 exceeds] at thawed
      cases thawed

def Claim.episodeWeight (episodeId : String) (claim : Claim) : ℕ :=
  if claim.episodeId = episodeId then claim.exposure else 0

def Claim.monthWeight (month : String) (claim : Claim) : ℕ :=
  if claim.month = month then claim.exposure else 0

def Claim.openCap (claim : Claim) : ℕ := if claim.actual = none then claim.cap else 0

def Claim.experimentWeight (month : String) (claim : Claim) : ℕ :=
  if claim.month = month ∧ claim.experiment = true then claim.exposure else 0

structure Ledger.Within (P : Policy) (l : Ledger) : Prop where
  episode : ∀ episodeId, l.claims.sum (episodeWeight episodeId) ≤ P.episodeLimit
  month : ∀ month, l.claims.sum (monthWeight month) ≤ P.monthLimit
  unsettled : l.claims.sum openCap ≤ P.monthLimit
  experiment : ∀ month, l.claims.sum (experimentWeight month) ≤ P.experimentLimit

theorem Claim.exposure_of_unsettled {claim : Claim} (unsettled : claim.actual = none) : claim.exposure = claim.cap := by
  simp [exposure, unsettled]

theorem Claim.Evolves.exposure_le (evolves : old.Evolves new)
    (within : new.overrun = false) : new.exposure ≤ old.exposure := by
  rcases evolves.actual with same | unsettled
  · simp [exposure, same, evolves.cap]
  · rw [exposure_of_unsettled unsettled, ← evolves.cap]
    cases settled : new.actual with
    | none => simp [exposure, settled]
    | some actual => simpa [Claim.exposure, Claim.overrun, settled] using within

section
variable (within : l.Within P)
include within

theorem Ledger.Within.updated (found : l.claims.find? new.requestId = some old)
    (evolves : old.Evolves new) (notOver : new.overrun = false) (put : l'.claims = l.claims.put new) : l'.Within P := by
  have exposure := evolves.exposure_le notOver
  have shrinks (weight : Claim → ℕ) (le : weight new ≤ weight old) : l'.claims.sum weight ≤ l.claims.sum weight := by
    rw [put]
    exact sum_put_le weight found le
  constructor
  · intro episodeId
    refine (shrinks _ ?_).trans (within.episode episodeId)
    simp only [episodeWeight, evolves.episodeId]
    split_ifs <;> omega
  · intro month
    refine (shrinks _ ?_).trans (within.month month)
    simp only [monthWeight, evolves.month]
    split_ifs <;> omega
  · refine (shrinks _ ?_).trans within.unsettled
    simp only [openCap, evolves.cap]
    rcases evolves.actual with same | unsettled
    · rw [same]
    · rw [if_pos unsettled]
      split_ifs <;> omega
  · intro month
    refine (shrinks _ ?_).trans (within.experiment month)
    simp only [experimentWeight, evolves.month, evolves.experiment]
    split_ifs <;> omega

theorem Ledger.Within.inserted (absent : l.claims.find? new.requestId = none)
    (unsettled : new.actual = none) (episode : l.episodeTotal new.episodeId + new.cap ≤ P.episodeLimit)
    (monthly : l.monthTotal new.month + new.cap ≤ P.monthLimit) (experiment : new.experiment = true →
    l.experimentTotal new.month + new.cap ≤ P.experimentLimit) (put : l'.claims = l.claims.put new) : l'.Within P := by
  have exposure := exposure_of_unsettled unsettled
  have grows (weight : Claim → ℕ) : l'.claims.sum weight = weight new + l.claims.sum weight := by
    rw [put]
    exact sum_put_new weight absent
  constructor
  · intro episodeId
    rw [grows, episodeWeight]
    split_ifs with same
    · subst same
      have total : l.claims.sum (episodeWeight new.episodeId) = l.episodeTotal new.episodeId := rfl
      omega
    · simpa using within.episode episodeId
  · intro month
    rw [grows, monthWeight]
    split_ifs with same
    · subst same
      have le : l.claims.sum (monthWeight new.month) ≤ l.monthTotal new.month :=
        sum_le_sum fun claim _ => by
          simp only [monthWeight, carried]
          split_ifs <;> simp_all
      omega
    · simpa using within.month month
  · -- every open cap counts in the month's total, whatever month it was recorded in
    have le : l.claims.sum openCap ≤ l.monthTotal new.month :=
      sum_le_sum fun claim _ => by
        simp only [openCap, carried]
        split_ifs with unset
        · simp [Claim.exposure, unset]
        · simp_all
        · simp
        · simp
    rw [grows, openCap, if_pos unsettled]
    omega
  · intro month
    rw [grows, experimentWeight]
    split_ifs with both
    · obtain ⟨rfl, isExperiment⟩ := both
      have le : l.claims.sum (experimentWeight new.month) ≤ l.experimentTotal new.month :=
        sum_le_sum fun claim _ => by
          simp only [experimentWeight, carried]
          split_ifs <;> simp_all
      have := experiment isExperiment
      omega
    · simpa using within.experiment month

theorem within_step (notOver : ¬ l'.Overrun) (step : Step P allowed l l') : l'.Within P := by
  rcases step_claims step with same | ⟨new, absent, -, unsettled, episode, monthly, experiment, put⟩ |
    ⟨old, new, found, evolves, put⟩
  · exact ⟨same ▸ within.episode, same ▸ within.month, same ▸ within.unsettled,
      same ▸ within.experiment⟩
  · exact within.inserted absent unsettled episode monthly experiment put
  · refine within.updated found evolves ?_ put
    cases above : new.overrun with
    | false => rfl
    | true => exact absurd ⟨new, put ▸ mem_put.mpr (.inl rfl), above⟩ notOver

theorem within_reaches (notOver : ¬ l'.Overrun) (reaches : Reaches P allowed l l') : l'.Within P := by
  induction reaches with
  | refl => exact within
  | tail _ step ih => exact within_step (ih fun exceeds => notOver (exceeds.step step)) notOver step

end

theorem within_empty : empty.Within P := by
  constructor <;> simp [Ledger.empty]

/-- The standing limits and the overrun freeze, for every reachable ledger. -/
theorem exposure_within_limits_and_freeze (P : Policy) (l : Ledger) (reachable : Reaches P anyOp .empty l) :
    (¬ l.Overrun → l.Within P) ∧ (l.Overrun → ∀ l', Reaches P anyOp l l' → ∀ context month args,
    l'.claims.find? args.requestId = none → ∃ error, (l'.step P (.reserve context month args)).2 = .error error) :=
  ⟨fun notOver => within_reaches within_empty notOver reachable,
    fun exceeds _ later _ _ _ fresh => reserve_refused (exceeds.reaches later) fresh⟩

theorem sample_exposure_within_limits : ¬ (empty.after samplePolicy [sampleReserve]).Overrun ∧
      (empty.after samplePolicy [sampleReserve]).Within samplePolicy := by
  have notOver : ¬ (empty.after samplePolicy [sampleReserve]).Overrun := by
    rw [← frozen_iff]
    decide
  refine ⟨notOver, ?_⟩
  have bounded := exposure_within_limits_and_freeze samplePolicy _ (reaches_after [sampleReserve] fun _ _ _ => trivial)
  exact bounded.1 notOver

/-! ## The life of a claim -/

theorem Claim.Evolves.trans {last : Claim} (evolves : old.Evolves new) (later : new.Evolves last) : old.Evolves last where
  requestId := later.requestId.trans evolves.requestId
  episodeId := later.episodeId.trans evolves.episodeId
  month := later.month.trans evolves.month
  cap := later.cap.trans evolves.cap
  experiment := later.experiment.trans evolves.experiment
  actual := by
    rcases evolves.actual with same | unsettled
    · exact same ▸ later.actual
    · exact .inr unsettled

theorem Claim.Evolves.refl (claim : Claim) : claim.Evolves claim := ⟨rfl, rfl, rfl, rfl, rfl, .inl rfl⟩

theorem step_keeps (step : Step P allowed l l') (member : old ∈ l.claims) : ∃ new ∈ l'.claims, old.Evolves new := by
  have stays : old.Evolves old := .refl old
  rcases step_claims step with same | ⟨new, absent, -, -, -, -, -, put⟩ | ⟨before, new, found, evolves, put⟩
  · exact ⟨old, same ▸ member, stays⟩
  · exact ⟨old, put ▸ mem_put.mpr (.inr ⟨member, find?_eq_none.mp absent old member⟩), stays⟩
  · by_cases same : old.requestId = new.requestId
    · obtain ⟨there, key⟩ := find?_eq_some.mp found
      obtain rfl := eq_of_key member there (same.trans key.symm)
      exact ⟨new, put ▸ mem_put.mpr (.inl rfl), evolves⟩
    · exact ⟨old, put ▸ mem_put.mpr (.inr ⟨member, same⟩), stays⟩

/-- No history takes a claim away, or changes what it was reserved for or the amount that it was settled with; its
exposure grows only if it was settled above its cap. -/
theorem claims_last (P : Policy) (l l' : Ledger) (later : Reaches P anyOp l l') (old : Claim) (member : old ∈ l.claims) :
    ∃ new ∈ l'.claims, old.Evolves new ∧ (new.overrun = false → new.exposure ≤ old.exposure) := by
  have kept : ∃ new ∈ l'.claims, old.Evolves new := by
    induction later with
    | refl => exact ⟨old, member, .refl old⟩
    | tail _ step ih =>
      obtain ⟨new, there, evolves⟩ := ih
      obtain ⟨last, there', evolves'⟩ := step_keeps step there
      exact ⟨last, there', evolves.trans evolves'⟩
  obtain ⟨new, there, evolves⟩ := kept
  exact ⟨new, there, evolves, evolves.exposure_le⟩

theorem sample_claim_lasts : ∃ old ∈ (empty.after samplePolicy [sampleReserve]).claims, ∃ new ∈ (empty.after samplePolicy
    [sampleReserve, .bindProviderRequestId none "request-1" "fal-1" none]).claims, old.Evolves new := by
  have reserved : (empty.after samplePolicy [sampleReserve]).claims.rows.any (fun _ => true) = true := by
    decide
  obtain ⟨old, member, -⟩ := List.any_eq_true.mp reserved
  obtain ⟨new, there, evolves, -⟩ := claims_last samplePolicy _ _ (reaches_after _ fun _ _ _ => trivial) old member
  exact ⟨old, member, new, there, evolves⟩

end VideoPoster.StandingBudget
