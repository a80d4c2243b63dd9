import VideoPoster.Pods.Discipline
import VideoPoster.Pods.Orphans

/-!
# Pods are terminated once
-/

namespace VideoPoster.Pods
open Python Interleaving List Bool Config Act World Grows Dict Protocol.Safe

variable {owner : Owner} {tagOf : String → Json} {pid actor : ℕ} {podId : String}

/-! ## Ledgers -/

structure Standing where
  creating : Bool := false
  holding : Option String := none
  owed : Option String := none
  made : Option String := none

structure Ledger (owner : Owner) (pid : ℕ) (st : Standing) (s : Shared (orderlyMachine tagOf)) : Prop where
  created : countBy (opened .create owner.tag) pid s.trace =
    countBy createsPod pid s.trace + if st.creating then 1 else 0
  balanced : ∀ podId, countBy (opened .terminate podId) pid s.trace =
    countBy (terminates podId) pid s.trace + if st.holding = some podId then 1 else 0
  adopted : ∀ e ∈ s.trace, e.process = pid → ∀ podId, adopts podId e = true →
    s.world.Claimed podId ∨ st.owed = some podId
  saved : ∀ e ∈ s.trace, e.process = pid → ∀ podId, creates podId e = true →
    s.world.checkpoints podId ≠ none ∨ st.made = some podId
  known : ∀ podId, st.owed = some podId → s.world.checkpoints podId ≠ none

section Step
variable {st st' : Standing} {action : Act} {response : action.Res} {s s' : Shared (orderlyMachine tagOf)}

theorem Ledger.step (ledger : Ledger owner pid st s) (grows : Grows s s') (performs : Performs actor action response
    s s') (created : (if opened .create owner.tag ⟨actor, action, response⟩ && decide (actor = pid) then 1 else 0)
    + (if st.creating then 1 else 0) = (if createsPod ⟨actor, action, response⟩ && decide (actor = pid) then 1 else 0) +
    if st'.creating then 1 else 0) (balanced : ∀ podId, (if opened .terminate podId ⟨actor, action, response⟩ && decide
    (actor = pid) then 1 else 0) + (if st.holding = some podId then 1 else 0) = (if terminates podId ⟨actor, action,
    response⟩ && decide (actor = pid) then 1 else 0) + if st'.holding = some podId then 1 else 0) (adopted : actor =
    pid → ∀ podId, adopts podId ⟨actor, action, response⟩ = true → s'.world.Claimed podId ∨ st'.owed = some podId)
    (owed : ∀ podId, st.owed = some podId → s'.world.Claimed podId ∨ st'.owed = some podId) (saved : actor = pid →
    ∀ podId, creates podId ⟨actor, action, response⟩ = true → s'.world.checkpoints podId ≠ none ∨ st'.made = some podId)
    (made : ∀ podId, st.made = some podId → s'.world.checkpoints podId ≠ none ∨ st'.made = some podId)
    (known : ∀ podId, st'.owed = some podId → s'.world.checkpoints podId ≠ none) : Ledger owner pid st' s' := by
  have extended : s'.trace = ⟨actor, action, response⟩ :: s.trace := (effect_of_performs performs).1
  refine ⟨?_, fun podId => ?_, fun e member own podId is => ?_, fun e member own podId is => ?_, known⟩
  · rw [performs.countBy, performs.countBy]
    have := ledger.created
    omega
  · rw [performs.countBy, performs.countBy]
    have := ledger.balanced podId
    have := balanced podId
    omega
  · rw [extended] at member
    rcases mem_cons.mp member with rfl | earlier
    · exact adopted own podId is
    · rcases ledger.adopted e earlier own podId is with claimed | owes
      · exact .inl (grows.claims _ _ claimed)
      · exact owed podId owes
  · rw [extended] at member
    rcases mem_cons.mp member with rfl | earlier
    · exact saved own podId is
    · rcases ledger.saved e earlier own podId is with there | makes
      · exact .inl (grows.checkpoints _ there)
      · exact made podId makes

theorem Ledger.still (ledger : Ledger owner pid st s) (grows : Grows s s') (performs :
    Performs actor action response s s') (silent : actor = pid → (opened .create owner.tag ⟨actor, action, response⟩ =
    false ∧ createsPod ⟨actor, action, response⟩ = false) ∧ ∀ podId, opened .terminate podId ⟨actor, action, response⟩ =
    false ∧ terminates podId ⟨actor, action, response⟩ = false ∧ (adopts podId ⟨actor, action, response⟩ =
    true → s'.world.Claimed podId) ∧ creates podId ⟨actor, action, response⟩ = false) : Ledger owner pid st s' := by
  have none (kind : Event actions → Bool) (unseen : actor = pid → kind ⟨actor, action, response⟩ = false) :
      (kind ⟨actor, action, response⟩ && decide (actor = pid)) = false := by
    by_cases own : actor = pid
    · rw [unseen own, Bool.false_and]
    · rw [decide_eq_false own, Bool.and_false]
  refine ledger.step grows performs ?_ (fun podId => ?_) (fun own podId is => .inl (((silent own).2 podId).2.2.1 is))
    (fun podId owes => .inr owes) (fun own podId is => ?_) (fun podId makes => .inr makes)
    fun podId owes => grows.checkpoints _ (ledger.known podId owes)
  · rw [none _ fun own => (silent own).1.1, none _ fun own => (silent own).1.2]
  · rw [none _ fun own => ((silent own).2 podId).1, none _ fun own => ((silent own).2 podId).2.1]
  · rw [((silent own).2 podId).2.2.2] at is
    cases is

end Step

theorem stable_ledger {st : Standing} : (discipline owner tagOf).Stable pid (Ledger owner pid st) := by
  intro s s' _ step ledger
  cases step with
  | perform foreign granted performs =>
    exact ledger.still (.of_performs granted performs) performs fun own => absurd own foreign
  | crash foreign => exact ⟨ledger.created, ledger.balanced, ledger.adopted, ledger.saved, ledger.known⟩

variable {kind : ClaimKind} {identifier : String}

theorem stable_opened :
    (discipline owner tagOf).Stable pid fun s => (s.world.claims kind identifier).isSome = true := by
  intro s s' _ step there
  cases step with
  | perform _ granted performs => exact (of_performs granted performs).claims _ _ there
  | crash _ => exact there

theorem stable_claimed : (discipline owner tagOf).Stable pid fun s => s.world.Claimed podId := stable_opened

theorem stable_fact {fact : Prop} : (discipline owner tagOf).Stable pid fun _ => fact := fun _ _ _ _ => id

section Ledger
variable {s : Shared (orderlyMachine tagOf)}

theorem Ledger.owe (ledger : Ledger owner pid {} s) (there : s.world.checkpoints podId ≠ none) :
    Ledger owner pid { owed := some podId } s := by
  refine ⟨ledger.created, ledger.balanced, fun e member own podId is => ?_, ledger.saved, ?_⟩
  · exact .inl ((ledger.adopted e member own podId is).resolve_right nofun)
  · rintro _ ⟨⟩
    exact there

theorem Ledger.settle (ledger : Ledger owner pid { owed := some podId } s) (claimed : s.world.Claimed podId) :
    Ledger owner pid {} s := by
  refine ⟨ledger.created, ledger.balanced, fun e member own podId' is => ?_, ledger.saved, nofun⟩
  rcases ledger.adopted e member own podId' is with settled | owes
  · exact .inl settled
  · cases owes
    exact .inl claimed

theorem Ledger.register (ledger : Ledger owner pid { made := some podId } s)
    (there : s.world.checkpoints podId ≠ none) : Ledger owner pid {} s := by
  refine ⟨ledger.created, ledger.balanced, ledger.adopted, fun e member own podId' is => ?_, nofun⟩
  rcases ledger.saved e member own podId' is with saved | makes
  · exact .inl saved
  · cases makes
    exact .inl there

theorem Ledger.initial (fresh : ∀ e ∈ s.trace, e.process ≠ pid) : Ledger owner pid {} s := by
  have none (kind : Event actions → Bool) : countBy kind pid s.trace = 0 := by
    refine countP_eq_zero.mpr fun e member is => ?_
    obtain ⟨-, own⟩ := and_eq_true_iff.mp is
    exact fresh e member (of_decide_eq_true own)
  refine ⟨?_, fun podId => ?_, fun e member own => absurd own (fresh e member),
    fun e member own => absurd own (fresh e member), nofun⟩
  · rw [none, none]
    rfl
  · rw [none, none]
    rfl

theorem Ledger.claimed (inv : Inv owner tagOf s) (ledger : Ledger owner pid { holding := some podId } s) :
    s.world.Claimed podId := by
  have opens := inv.claims .terminate podId
  have mine := ledger.balanced podId
  rw [if_pos rfl] at mine
  have le : countBy (opened .terminate podId) pid s.trace ≤ s.trace.countP (opened .terminate podId) :=
    countP_mono_left fun e _ is => (and_eq_true_iff.mp is).1
  by_contra unclaimed
  rw [if_neg (show ¬ (s.world.claims .terminate podId).isSome = true from unclaimed)] at opens
  omega

end Ledger

/-! ## The parts of the calls -/

theorem stable_saved : (discipline owner tagOf).Stable pid fun s => s.world.checkpoints podId ≠ none := by
  intro s s' _ step there
  cases step with
  | perform _ granted performs => exact (of_performs granted performs).checkpoints _ there
  | crash _ => exact there

section Rules
variable {st : Standing} {α : Type} {Q : α → Assertion (orderlyMachine tagOf)}

structure Fits (owner : Owner) (tagOf : String → Json) (podId : String) (state : Checkpoint) : Prop where
  named : state.podId = podId
  owned : state.ownerTag = owner.tag
  tagged : tagOf podId = .str owner.tag

def Looked (tagOf : String → Json) (owner : Owner) (st : Standing) (caller : Caller) (podId : String) :
    Option Checkpoint → Assertion (orderlyMachine tagOf)
  | none => fun _ => st.owed ≠ some podId
  | some state => fun s => (Fits owner tagOf podId state ∧
      (caller = .cleanupOrphans → state.terminateClaimed = true → state.terminated = true)) ∧
      s.world.checkpoints podId ≠ none ∧ (state.terminateClaimed = true → s.world.Claimed podId)

variable {caller : Caller}

theorem stable_looked (found : Option Checkpoint) :
    (discipline owner tagOf).Stable pid (Looked tagOf owner st caller podId found) := by
  cases found with
  | none => exact stable_fact
  | some state =>
    refine stable_fact.and (stable_saved.and ?_)
    exact fun s s' inv step holds known => stable_claimed s s' inv step (holds known)

theorem safe_require {β : Type} {L : Assertion (orderlyMachine tagOf)} {E : Error → Assertion (orderlyMachine tagOf)}
    {R : β → Assertion (orderlyMachine tagOf)} {condition : Prop} [Decidable condition] {error : Error}
    {next : Unit → Program β} (met : condition → (discipline owner tagOf).Safe pid L (next ()) R E)
    (unmet : ¬ condition → ∀ s, Inv owner tagOf s → L s → E error s) :
    (discipline owner tagOf).Safe pid L ((Program.ofResult (require condition error)).bind next) R E := by
  unfold require
  split_ifs with holds
  · exact met holds
  · exact unmet holds

theorem safe_load {next : Option Checkpoint → Program α} (valid : st = {} ∨ validId podId = true)
    (absent : st.owed ≠ some podId → (discipline owner tagOf).Safe pid (Ledger owner pid st) (next none)
    Q fun _ => Ledger owner pid {}) (found : ∀ state, Fits owner tagOf podId state → (caller = .cleanupOrphans →
    state.terminateClaimed = true → state.terminated = true) → (discipline owner tagOf).Safe pid (fun s =>
    Ledger owner pid st s ∧ s.world.checkpoints podId ≠ none ∧ (state.terminateClaimed = true → s.world.Claimed podId))
    (next (some state)) Q fun _ => Ledger owner pid {}) : (discipline owner tagOf).Safe pid (Ledger owner pid st)
    ((load owner caller podId).bind next) Q fun _ => Ledger owner pid {} := by
  unfold load
  show (discipline owner tagOf).Safe pid _ (((Program.ofResult _).bind _).bind next) _ _
  rw [Prog.bind_assoc]
  refine safe_require (fun _ => ?_) fun invalid s _ ledger => ?_
  · refine .act (fun found s => Ledger owner pid st s ∧ Looked tagOf owner st caller podId found s)
      (fun _ _ _ => trivial) (fun found => stable_ledger.and (stable_looked found)) ?_ fun looked => ?_
    · rintro looked s s' inv ledger performs -
      obtain ⟨-, effect⟩ := effect_of_performs performs
      obtain ⟨-, -, -, undisturbed, -⟩ := world_of_performs performs
      refine ⟨ledger.still (.of_effect effect nofun) performs fun _ =>
        ⟨⟨rfl, rfl⟩, fun _ => ⟨rfl, rfl, nofun, rfl⟩⟩, ?_⟩
      obtain ⟨seen, same⟩ : looked = s.world.checkpoints podId ∧ s'.world = s.world := effect
      cases looked with
      | none => exact fun owes => ledger.known _ owes seen.symm
      | some state =>
        obtain ⟨named, owned, tagged, claimed, -⟩ := inv.checkpoint _ _ seen.symm
        refine ⟨⟨⟨named, owned, tagged⟩, ?_⟩, ?_, ?_⟩
        · rintro rfl
          exact undisturbed state rfl
        · rw [same, ← seen]
          nofun
        · rw [same]
          exact claimed
    · show (discipline owner tagOf).Safe pid _ (((Program.ofResult _).bind _).bind next) _ _
      rw [Prog.bind_assoc]
      cases looked with
      | none =>
        refine safe_require (fun _ => ?_) fun mismatch => absurd nofun mismatch
        refine .given (fun s _ holds => holds.2) fun free => ?_
        exact (absent free).strengthen fun s _ holds => holds.1
      | some state =>
        refine .given (fun s _ holds => holds.2.1) fun known => ?_
        refine safe_require (fun _ => ?_) fun mismatch => ?_
        · exact (found state known.1 known.2).strengthen fun s _ holds => ⟨holds.1, holds.2.2⟩
        · refine absurd ?_ mismatch
          rintro _ ⟨⟩
          exact ⟨known.1.named, known.1.owned⟩
  · rcases valid with rfl | valid
    · exact ledger
    · exact absurd valid invalid

theorem safe_save_claimed {checkpoint : Checkpoint}
    (fits : Fits owner tagOf podId checkpoint) (known : checkpoint.terminateClaimed = true) :
    (discipline owner tagOf).Safe pid (fun s => Ledger owner pid st s ∧ s.world.Claimed podId) (Program.save checkpoint)
    (fun _ s => Ledger owner pid st s ∧ s.world.Claimed podId) fun _ => Ledger owner pid {} := by
  obtain ⟨rfl, owned, tagged⟩ := fits
  have granted (s : Shared (orderlyMachine tagOf)) (_ : Inv owner tagOf s)
      (holds : Ledger owner pid st s ∧ s.world.Claimed checkpoint.podId) :
      grants owner tagOf pid s (.save checkpoint) := ⟨owned, tagged, fun _ => holds.2⟩
  refine .request granted (fun _ => stable_ledger.and stable_claimed) (fun _ => stable_ledger) ?_ ?_
  · rintro response - s s' - inv holds performs -
    have grows := of_performs (granted s inv holds) performs
    refine ⟨holds.1.still grows performs fun _ => ⟨⟨rfl, rfl⟩, fun podId => ⟨rfl, rfl, ?_, rfl⟩⟩, grows.claims _ _ holds.2⟩
    intro adopted
    exfalso
    cases response with
    | ok _ => simp [adopts, known] at adopted
    | error _ => cases adopted
  · rintro response error s s' failed - - performs -
    obtain ⟨-, -, working, -, -⟩ := world_of_performs performs
    cases (show response = .ok () from working)
    cases failed

variable {response : Result Unit} {s' s : Shared (orderlyMachine tagOf)}

theorem Ledger.save {adopted : Bool} (ledger : Ledger owner pid st s) (few : st = {} ∨ st = { made := some podId })
    (performs : Performs pid (save (newCheckpoint owner podId adopted)) response s s') :
    response = .ok () ∧ Ledger owner pid { owed := some podId } s' := by
  obtain ⟨-, effect⟩ := effect_of_performs performs
  obtain ⟨-, -, working, -, -⟩ := world_of_performs performs
  cases (show response = .ok () from working)
  have same : s'.world = s.world.setCheckpoint (newCheckpoint owner podId adopted) := effect
  have there : s'.world.checkpoints podId ≠ none := by
    rw [same]
    show Function.update s.world.checkpoints podId _ podId ≠ none
    simp
  refine ⟨rfl, ledger.step (.of_effect effect nofun) performs ?_ ?_ ?_ ?_ ?_ ?_ ?_⟩
  · rcases few with rfl | rfl <;> rfl
  · rcases few with rfl | rfl <;> exact fun _ => rfl
  · intro _ podId' is
    obtain ⟨same, -⟩ := and_eq_true_iff.mp is
    exact .inr (congrArg some (of_decide_eq_true same))
  · intro podId' owes
    rcases few with rfl | rfl <;> cases owes
  · rintro _ podId' ⟨⟩
  · intro podId' makes
    rcases few with rfl | rfl
    · cases makes
    · cases makes
      exact .inl there
  · rintro podId' ⟨⟩
    exact there

theorem isSome_of_opens {created : Bool} (performs : Performs pid (openClaim kind identifier) created s s') :
    (s'.world.claims kind identifier).isSome = true := by
  obtain ⟨-, effect⟩ := effect_of_performs performs
  cases created with
  | true =>
    obtain ⟨-, same⟩ : s.world.claims kind identifier = none ∧
      s'.world = s.world.setClaim kind identifier (some none) := effect
    rw [same, claims_setClaim, if_pos ⟨rfl, rfl⟩]
    rfl
  | false =>
    obtain ⟨there, same⟩ : s.world.claims kind identifier ≠ none ∧ s'.world = s.world := effect
    rw [same]
    exact Option.isSome_iff_ne_none.mpr there

theorem Ledger.refused (ledger : Ledger owner pid st s)
    (performs : Performs pid (openClaim kind identifier) false s s') : Ledger owner pid st s' :=
  ledger.still (.of_effect (effect_of_performs performs).2 nofun) performs fun _ =>
    ⟨⟨rfl, rfl⟩, fun _ => ⟨rfl, rfl, nofun, rfl⟩⟩

theorem Ledger.openCreate (ledger : Ledger owner pid {} s) (performs :
    Performs pid (openClaim .create owner.tag) true s s') : Ledger owner pid { creating := true } s' := by
  refine ledger.step (.of_effect (effect_of_performs performs).2 nofun) performs ?_ ?_ nofun nofun nofun nofun nofun
  · simp [opened, createsPod]
  · intro podId
    simp [opened, terminates]

theorem Ledger.openTerminate (ledger : Ledger owner pid st s) (few : st = {} ∨ st = { owed := some podId }) (performs :
    Performs pid (openClaim .terminate podId) true s s') : Ledger owner pid { holding := some podId } s' := by
  refine ledger.step (.of_effect (effect_of_performs performs).2 nofun) performs ?_ ?_ nofun ?_ nofun ?_ nofun
  · rcases few with rfl | rfl <;> simp [opened, createsPod]
  · intro podId'
    rcases few with rfl | rfl <;> simp [opened, terminates, eq_comm]
  · intro podId' owes
    rcases few with rfl | rfl
    · cases owes
    · cases owes
      exact .inl (isSome_of_opens performs)
  · intro podId' makes
    rcases few with rfl | rfl <;> cases makes

theorem safe_claimOnce {st₁ st₂ : Standing} (opens : ∀ s s' : Shared (orderlyMachine tagOf), Ledger owner pid st s →
    Performs pid (openClaim kind identifier) true s s' → Ledger owner pid st₁ s') (refused : ∀ s s' :
    Shared (orderlyMachine tagOf), Ledger owner pid st s → Performs pid (openClaim kind identifier) false s s' →
    Ledger owner pid st₂ s') : (discipline owner tagOf).Safe pid (Ledger owner pid st) (claimOnce owner kind identifier)
    (fun created => Ledger owner pid (if created then st₁ else st₂)) fun _ => Ledger owner pid {} := by
  unfold claimOnce
  refine .act (fun created s => Ledger owner pid (if created then st₁ else st₂) s ∧
    (s.world.claims kind identifier).isSome = true) (fun _ _ _ => trivial)
    (fun _ => stable_ledger.and stable_opened) ?_ fun created => ?_
  · intro created s s' _ ledger performs _
    refine ⟨?_, isSome_of_opens performs⟩
    cases created with
    | true => exact opens s s' ledger performs
    | false => exact refused s s' ledger performs
  · cases created with
    | false => exact fun _ _ holds => holds.1
    | true =>
      have granted (s : Shared (orderlyMachine tagOf)) (_ : Inv owner tagOf s)
          (holds : Ledger owner pid st₁ s ∧ (s.world.claims kind identifier).isSome = true) :
          grants owner tagOf pid s (.writeClaim ⟨owner.tag, kind, identifier⟩) := holds.2
      refine .act (fun wrote s => wrote = .ok () ∧ Ledger owner pid st₁ s) granted
        (fun _ => stable_fact.and stable_ledger) ?_ fun wrote => ?_
      · intro wrote s s' inv holds performs _
        obtain ⟨-, -, working, -, -⟩ := world_of_performs performs
        refine ⟨working, holds.1.still (.of_performs (granted s inv holds) performs) performs fun _ => ?_⟩
        exact ⟨⟨rfl, rfl⟩, fun _ => ⟨rfl, rfl, nofun, rfl⟩⟩
      · refine .given (fun s _ holds => holds.1) ?_
        rintro rfl
        exact fun _ _ holds => holds.2

theorem safe_claimCreate : (discipline owner tagOf).Safe pid (Ledger owner pid {}) (claimOnce owner .create owner.tag)
    (fun created => Ledger owner pid (if created then { creating := true } else {})) fun _ => Ledger owner pid {} :=
  safe_claimOnce (fun _ _ ledger performs => ledger.openCreate performs) fun _ _ ledger performs => ledger.refused performs

theorem safe_claimTerminate (few : st = {} ∨ st = { owed := some podId })
    : (discipline owner tagOf).Safe pid (Ledger owner pid st) (claimOnce owner .terminate podId) (fun
    created => Ledger owner pid (if created then { holding := some podId } else {})) fun _ => Ledger owner pid {} := by
  refine safe_claimOnce (fun _ _ ledger performs => ledger.openTerminate few performs) fun s s' ledger performs => ?_
  have still := ledger.refused performs
  rcases few with rfl | rfl
  · exact still
  · exact still.settle (isSome_of_opens performs)

/-! ## The calls -/

theorem Ledger.terminate (ledger : Ledger owner pid { holding := some podId } s)
    (performs : Performs pid (terminatePod podId) response s s') : Ledger owner pid {} s' := by
  refine ledger.step (.of_effect (effect_of_performs performs).2 nofun) performs ?_ ?_ nofun nofun nofun nofun nofun
  · simp [opened, createsPod]
  · intro podId'
    simp [opened, terminates, eq_comm]

theorem safe_terminatePod (tagged : tagOf podId = .str owner.tag) {next : Result Unit → Program α}
    (rest : (discipline owner tagOf).Safe pid (fun s => Ledger owner pid {} s ∧ s.world.Claimed podId) (next (.ok ()))
    Q fun _ => Ledger owner pid {}) : (discipline owner tagOf).Safe pid (Ledger owner pid { holding := some podId })
    ((Program.perform (.terminatePod podId)).bind next) Q fun _ => Ledger owner pid {} := by
  refine .act (fun response s => response = .ok () ∧ Ledger owner pid {} s ∧ s.world.Claimed podId)
    (fun s _ ledger => ⟨tagged, ?_⟩) (fun _ => stable_fact.and (stable_ledger.and stable_claimed)) ?_
    fun response => ?_
  · have balanced := ledger.balanced podId
    rw [if_pos rfl] at balanced
    omega
  · intro response s s' inv ledger performs _
    obtain ⟨-, -, working, -, -⟩ := world_of_performs performs
    have effect := (effect_of_performs performs).2
    exact ⟨working, ledger.terminate performs, (of_effect effect nofun).claims _ _ (ledger.claimed inv)⟩
  · refine .given (fun s _ holds => holds.1) ?_
    rintro rfl
    exact rest.strengthen fun _ _ holds => holds.2

theorem safe_terminateOnce (few : st = {} ∨ st = { owed := some podId }) (valid : st = {} ∨ validId podId = true) :
    (discipline owner tagOf).Safe pid (Ledger owner pid st) (terminateOnce owner podId)
      (fun _ => Ledger owner pid {}) fun _ => Ledger owner pid {} := by
  refine safe_load valid (fun unowed => ?_) fun state fits _ => ?_
  · rcases few with rfl | rfl
    · exact fun _ _ => id
    · exact absurd rfl unowed
  · have owe (s : Shared (orderlyMachine tagOf)) (ledger : Ledger owner pid st s)
        (there : s.world.checkpoints podId ≠ none) : Ledger owner pid { owed := some podId } s := by
      rcases few with rfl | rfl
      · exact ledger.owe there
      · exact ledger
    dsimp only
    split_ifs with known
    · exact fun s _ holds => (owe s holds.1 holds.2.1).settle (holds.2.2 known)
    · refine .bind ((safe_claimTerminate (.inr rfl)).strengthen fun s _ holds => owe s holds.1 holds.2.1)
        fun created => ?_
      cases created with
      | false => exact fun _ _ => id
      | true =>
        have saved (state' : Checkpoint) (named : state'.podId = state.podId) (owned : state'.ownerTag = state.ownerTag) :
            Fits owner tagOf podId state' := ⟨named.trans fits.named, owned.trans fits.owned, fits.tagged⟩
        have claimed := saved { state with terminateClaimed := true } rfl rfl
        have done := saved { state with terminateClaimed := true, terminated := true } rfl rfl
        refine .bind ((safe_save_claimed claimed rfl).strengthen fun s inv ledger =>
          ⟨ledger, ledger.claimed inv⟩) fun _ => ?_
        refine (safe_terminatePod fits.tagged ?_).strengthen fun _ _ holds => holds.1
        exact .bind (safe_save_claimed done rfl) fun _ _ _ holds => holds.1

theorem get_setItem (dict : Dict)
    (key : String) (value : Json) : get (setItem dict key value) key = some value := by
  unfold setItem Dict.get Dict.hasKey
  split_ifs with has
  · induction dict with
    | nil => cases has
    | cons entry rest ih =>
      by_cases is : entry.1 = key
      · simp [is]
      · have later : (rest.any fun entry => decide (entry.1 = key)) = true := by simpa [is] using has
        simpa [is] using ih later
  · have absent : dict.find? (fun entry => decide (entry.1 = key)) = none := by
      rw [find?_eq_none]
      intro entry member named
      exact has (any_eq_true.mpr ⟨entry, member, named⟩)
    rw [find?_append, absent]
    simp

variable {spec : Dict}

theorem podOwnershipTag_ownedSpec {podSpec : Json} (owned : ownedSpec owner podSpec = .ok spec) :
    podOwnershipTag spec = .str owner.tag := by
  unfold ownedSpec at owned
  split at owned
  · split at owned
    · obtain ⟨⟨⟩, -, made⟩ := bind_eq_ok.mp owned
      obtain rfl := pure_eq_ok.mp made
      unfold podOwnershipTag
      rw [get_setItem]
      dsimp only
      rw [get_setItem]
      rfl
    · cases owned
  · cases owned

theorem validId_of_createdId {created : Json} (named : createdId created = .ok podId) : validId podId = true := by
  unfold createdId at named
  split at named
  · split at named
    · split_ifs at named with valid
      cases named
      exact valid
    · cases named
  · cases named

theorem Ledger.create {response : Result Json} (ledger : Ledger owner pid { creating := true } s)
    (performs : Performs pid (createPod spec) response s s') (named : ∀ created, response = .ok created →
      createdId created = .ok podId) : Ledger owner pid { made := some podId } s' := by
  refine ledger.step (.of_effect (effect_of_performs performs).2 nofun) performs ?_ ?_ nofun nofun ?_ nofun nofun
  · simp [opened, createsPod]
  · intro podId'
    simp [opened, terminates]
  · intro _ podId' is
    cases response with
    | error error => cases is
    | ok created =>
      have is := of_decide_eq_true is
      rw [named created rfl] at is
      exact .inr is

theorem safe_createPod {next : Json → Program α} (tagged : podOwnershipTag spec = .str owner.tag)
    (rest : ∀ created podId, createdId created = .ok podId → tagOf podId =
    .str owner.tag → (discipline owner tagOf).Safe pid (Ledger owner pid { made := some podId }) (next created)
    Q fun _ => Ledger owner pid {}) : (discipline owner tagOf).Safe pid (Ledger owner pid { creating := true })
    ((Prog.request (I := actions) (.createPod spec) id).bind next) Q fun _ => Ledger owner pid {} := by
  refine .bind (Q := fun created s => ∃ podId, (createdId created = .ok podId ∧
    tagOf podId = .str owner.tag) ∧ Ledger owner pid { made := some podId } s) ?_ fun created => ?_
  · refine .request (fun s _ ledger => ⟨tagged, ?_⟩) (fun created => ?_) (fun _ => stable_ledger) ?_ ?_
    · have := ledger.created
      simp only [if_true] at this
      omega
    · rintro s s' inv step ⟨podId, named, ledger⟩
      exact ⟨podId, named, stable_ledger s s' inv step ledger⟩
    · rintro response created s s' rfl inv ledger performs -
      obtain ⟨-, -, ⟨made, podId, same, named, tags⟩, -, -⟩ := world_of_performs performs
      obtain rfl := Except.ok.inj same
      refine ⟨podId, ⟨named, tags.trans tagged⟩, ledger.create performs ?_⟩
      rintro _ ⟨⟩
      exact named
    · rintro response error s s' failed inv ledger performs -
      obtain ⟨-, -, ⟨made, podId, rfl, -⟩, -, -⟩ := world_of_performs performs
      cases failed
  · refine .given (fun s _ holds => (⟨_, holds.choose_spec.1⟩ : ∃ podId, createdId created = .ok podId ∧
      tagOf podId = .str owner.tag)) ?_
    rintro ⟨podId, named, tags⟩
    refine (rest created podId named tags).strengthen ?_
    rintro s - ⟨podId', ⟨named', -⟩, ledger⟩
    cases named.symm.trans named'
    exact ledger

theorem safe_run (podSpec : Json) : (discipline owner tagOf).Safe pid (Ledger owner pid {}) (run owner podSpec)
    (fun _ => Ledger owner pid {}) fun _ => Ledger owner pid {} := by
  refine .ofExcept_bind (fun spec owned => ?_) fun _ _ _ _ => id
  refine .bind safe_claimCreate fun created => ?_
  cases created with
  | false => exact fun _ _ => id
  | true =>
    refine safe_createPod (podOwnershipTag_ownedSpec owned) fun created podId named tags => ?_
    have valid := validId_of_createdId named
    rw [named]
    refine safe_load (.inr valid) (fun _ => ?_) fun _ _ _ _ _ holds => holds.1.register holds.2.1
    refine .act (fun wrote s => wrote = .ok () ∧ Ledger owner pid { owed := some podId } s)
      (fun _ _ _ => ⟨rfl, tags, nofun⟩) (fun _ => stable_fact.and stable_ledger)
      (fun _ _ _ _ ledger performs _ => ledger.save (.inr rfl) performs) fun wrote => ?_
    refine .given (fun s _ holds => holds.1) ?_
    rintro rfl
    have terminates : (discipline owner tagOf).Safe pid (Ledger owner pid { owed := some podId })
        (terminateOnce owner podId).discard (fun _ => Ledger owner pid {}) fun _ => Ledger owner pid {} :=
      bind (safe_terminateOnce (.inr rfl) (.inr valid)) fun _ _ _ => id
    refine .ensuring (A := fun _ => Ledger owner pid { owed := some podId })
      (B := fun _ => Ledger owner pid { owed := some podId }) ?_ (fun _ => terminates) fun _ => terminates
    have still {response : Result Json} (s s' : Shared (orderlyMachine tagOf))
        (ledger : Ledger owner pid { owed := some podId } s) (performs : Performs pid (operate podId) response s s') :
        Ledger owner pid { owed := some podId } s' :=
      ledger.still (.of_effect (effect_of_performs performs).2 nofun) performs fun _ =>
        ⟨⟨rfl, rfl⟩, fun _ => ⟨rfl, rfl, nofun, rfl⟩⟩
    refine (request (fun _ _ _ => trivial) (fun _ => stable_ledger) (fun _ => stable_ledger)
      (fun _ _ s s' _ _ ledger performs _ => still s s' ledger performs)
      fun _ _ s s' _ _ ledger performs _ => still s s' ledger performs).strengthen fun _ _ holds => holds.2

def Lists (tagOf : String → Json) (pods : List Json) : Prop :=
  ∀ pod podId, .obj pod ∈ pods → get pod "id" = some (.str podId) → tagOf podId = podOwnershipTag pod

theorem safe_reconcile (valid : validId podId = true) (tags : tagOf podId = .str owner.tag) :
    (discipline owner tagOf).Safe pid (Ledger owner pid {}) (reconcile owner podId)
      (fun _ => Ledger owner pid { owed := some podId }) fun _ => Ledger owner pid {} := by
  refine safe_load (.inr valid) (fun _ => ?_) fun state fits undisturbed => ?_
  · refine .request (fun _ _ _ => ⟨rfl, tags, nofun⟩) (fun _ => stable_ledger) (fun _ => stable_ledger) ?_ ?_
    · exact fun _ _ _ _ _ _ ledger performs _ => (ledger.save (.inl rfl) performs).2
    · rintro response error s s' failed - ledger performs -
      cases (ledger.save (.inl rfl) performs).1
      cases failed
  · dsimp only
    rw [if_neg fun both => both.2 (undisturbed rfl both.1)]
    exact fun s _ holds => holds.1.owe holds.2.1

theorem safe_cleanupPods {pods : List Json} (lists : Lists tagOf pods) (terminated : List String) :
    (discipline owner tagOf).Safe pid (Ledger owner pid {}) (cleanupPods owner terminated pods)
      (fun _ => Ledger owner pid {}) fun _ => Ledger owner pid {} := by
  induction pods generalizing terminated with
  | nil => exact fun _ _ => id
  | cons pod pods ih =>
    have ih := fun terminated => ih (fun pod podId member => lists pod podId (.tail _ member)) terminated
    refine .ofExcept_bind (fun found taken => ?_) fun _ _ _ _ => id
    cases found with
    | none => exact ih terminated
    | some podId =>
      obtain ⟨fields, rfl, owned, named, valid⟩ := orphan_some taken
      have tags := (lists fields podId (.head _) named).trans owned
      refine .bind (safe_reconcile valid tags) fun _ => ?_
      exact .bind (safe_terminateOnce (.inr rfl) (.inr valid)) fun done => ih _

theorem safe_cleanupOrphans : (discipline owner tagOf).Safe pid (Ledger owner pid {}) (cleanupOrphans owner)
    (fun _ => Ledger owner pid {}) fun _ => Ledger owner pid {} := by
  unfold cleanupOrphans
  refine .bind (Q := fun pods s => Lists tagOf pods ∧ Ledger owner pid {} s) ?_ fun pods => ?_
  · refine .request (fun _ _ _ => trivial) (fun _ => stable_fact.and stable_ledger) (fun _ => stable_ledger)
      ?_ ?_
    · rintro response pods s s' rfl - ledger performs -
      obtain ⟨-, -, ⟨listed, same, lists⟩, -, -⟩ := world_of_performs performs
      obtain rfl := Except.ok.inj same
      exact ⟨lists, ledger.still (.of_effect (effect_of_performs performs).2 nofun) performs fun _ =>
        ⟨⟨rfl, rfl⟩, fun _ => ⟨rfl, rfl, nofun, rfl⟩⟩⟩
    · rintro response error s s' failed - - performs -
      obtain ⟨-, -, ⟨listed, rfl, -⟩, -, -⟩ := world_of_performs performs
      cases failed
  · exact .given (fun s _ holds => holds.1) fun lists =>
      (safe_cleanupPods lists []).strengthen fun _ _ holds => holds.2

end Rules

/-! ## Runs -/

theorem concludes : (discipline owner tagOf).Concludes (fun pid => Ledger owner pid {}) (calls owner) := by
  refine ⟨fun _ _ fresh => .initial fresh, fun _ => stable_ledger, ?_⟩
  rintro call ((⟨podSpec, rfl⟩ | ⟨podId, rfl⟩) | rfl) pid
  · exact (safe_run podSpec).bind fun _ _ _ => id
  · exact (safe_terminateOnce (.inl rfl) (.inl rfl)).bind fun _ _ _ => id
  · exact safe_cleanupOrphans.bind fun _ _ _ => id

theorem Inv.initial : Inv owner tagOf ⟨empty, []⟩ :=
  ⟨fun _ _ => rfl, nofun, fun _ => le_rfl, fun _ _ => le_rfl, fun _ member => absurd member not_mem_nil⟩

variable {s : Shared (orderlyMachine tagOf)}

theorem terminated_of_claimed (inv : Inv owner tagOf s) (done : ∀ e ∈ s.trace, Ledger owner e.process {} s)
    (claimed : s.world.Claimed podId) : 0 < s.trace.countP (terminates podId) := by
  have opens := inv.claims .terminate podId
  rw [if_pos (show (s.world.claims .terminate podId).isSome = true from claimed)] at opens
  obtain ⟨e, member, is⟩ := countP_pos_iff.mp (opens ▸ Nat.one_pos)
  have mine := countBy_pos member is
  rw [(done e member).balanced podId, if_neg (by nofun)] at mine
  exact mine.trans_le (countP_mono_left fun _ _ is => (and_eq_true_iff.mp is).1)

theorem claimed_of_created (inv : Inv owner tagOf s) (done : ∀ e ∈ s.trace, Ledger owner e.process {} s)
    {e : Event actions} (member : e ∈ s.trace) (is : creates podId e = true) : s.world.Claimed podId := by
  have there := ((done e member).saved e member rfl podId is).resolve_right nofun
  obtain ⟨state, found⟩ := Option.ne_none_iff_exists'.mp there
  obtain ⟨-, -, -, -, claimed | ⟨adoption, early, adopted⟩⟩ := inv.checkpoint podId state found
  · exact claimed
  · exact ((done adoption early).adopted adoption early rfl podId adopted).resolve_right nofun

/-- However the calls fall between each other: as long as no cleanup loads the checkpoint of a pod whose
termination is claimed and not done, there is at most one creation, at most one termination of a pod, each of a
pod with the tag of its owner, and every created pod is terminated when all have returned. -/
theorem pods_once (owner : Owner) (tagOf : String → Json) : ∀ c : Config machine Error, Reaches (calls owner)
    (orderly tagOf) (initial empty) c → c.trace.countP createsPod ≤ 1 ∧ (∀ podId, c.trace.countP
    (terminates podId) ≤ 1) ∧ (∀ e ∈ c.trace, ∀ podId, terminates podId e = true → tagOf podId = .str owner.tag)
    ∧ (c.Returned → ∀ e ∈ c.trace, ∀ podId, creates podId e = true → c.trace.countP (terminates podId) = 1) := by
  intro c reaches
  have settled := (Protocol.Settled.initial Inv.initial).reaches concludes reaches.restrict
  have inv : Inv owner tagOf (c.under (orderly tagOf)).toShared := settled.inv
  have one (kind : ClaimKind) (identifier : String) : c.trace.countP (opened kind identifier) ≤ 1 := by
    rw [show c.trace.countP (opened kind identifier) = _ from inv.claims kind identifier]
    split_ifs <;> omega
  have once (podId : String) : c.trace.countP (terminates podId) ≤ 1 :=
    countP_le_one (fun pid => inv.terminated pid podId) (one .terminate podId)
  refine ⟨countP_le_one inv.created (one .create owner.tag), once, inv.owned, fun returned e member podId is => ?_⟩
  have done (e : Event actions) (member : e ∈ c.trace) : Ledger owner e.process {} (c.under (orderly tagOf)).toShared :=
    settled.done returned member
  exact Nat.le_antisymm (once podId) (terminated_of_claimed inv done (claimed_of_created inv done member is))

/-! ## Samples -/

def sampleWorking (_ : World) : Event actions → Bool
  | ⟨_, .save _, response⟩ => response = .ok ()
  | ⟨_, .writeClaim _, response⟩ => response = .ok ()
  | ⟨_, .createPod spec, response⟩ => response = .ok (.obj samplePod) && podOwnershipTag spec = .str sampleOwner.tag
  | ⟨_, .terminatePod _, response⟩ => response = .ok ()
  | ⟨_, .listPods, response⟩ => response = .ok [.obj samplePod]
  | _ => true

def sampleTag (_ : String) : Json := .str sampleOwner.tag

theorem working_of_sample (w : World) (e : Event actions) (is : sampleWorking w e = true) : Working sampleTag e := by
  unfold sampleWorking at is
  split at is
  · simpa only [Working, decide_eq_true_eq] using is
  · simpa only [Working, decide_eq_true_eq] using is
  · obtain ⟨same, tagged⟩ := and_eq_true_iff.mp is
    exact ⟨.obj samplePod, "pod_123", of_decide_eq_true same, by decide, (of_decide_eq_true tagged).symm⟩
  · simpa only [Working, decide_eq_true_eq] using is
  · refine ⟨_, of_decide_eq_true is, fun pod podId member named => ?_⟩
    obtain rfl := Json.obj.inj (mem_singleton.mp member)
    exact samplePod_listed.tag.symm
  · unfold Working
    split <;> simp_all

def sampleOrderly (w : World) (e : Event actions) : Bool :=
  sampleWorking w e && match e with
    | ⟨_, .load .cleanupOrphans _, _⟩ => false
    | _ => true

theorem orderly_of_sample (w : World) (e : Event actions) (is : sampleOrderly w e = true) : orderly sampleTag w e := by
  obtain ⟨working, calm⟩ := and_eq_true_iff.mp is
  refine ⟨working_of_sample w e working, ?_⟩
  unfold Undisturbed
  split
  · cases calm
  · trivial

def returned : Option (Program Unit) → Bool
  | some (.pure _) => true
  | some (.raise _) => true
  | _ => false

theorem returned_of_all {c : Config machine Error}
    (all : (range c.spawned).all (fun pid => returned (c.processes pid)) = true) : c.Returned := by
  intro pid started
  have is := all_eq_true.mp all pid (mem_range.mpr started)
  unfold returned at is
  split at is
  · rename_i alive
    exact ⟨_, alive, trivial⟩
  · rename_i alive
    exact ⟨_, alive, trivial⟩
  · cases is

def sampleRun : List (Move machine Error) :=
  .spawn (run sampleOwner (.obj [])).discard :: replicate 12 (.perform 0 sampleOracle)

def sampleRace : List (Move machine Error) :=
  .spawn (run sampleOwner (.obj [])).discard :: (replicate 10 (.perform 0 sampleOracle) ++
    .spawn (cleanupOrphans sampleOwner).discard :: (replicate 11 (.perform 1 sampleOracle) ++
      replicate 2 (.perform 0 sampleOracle)))

theorem run_calls (podSpec : Json) :
    Move.calls (M := machine) (.spawn (run sampleOwner podSpec).discard) ⊆ calls sampleOwner := by
  rintro _ rfl
  exact .inl (.inl ⟨podSpec, rfl⟩)

theorem cleanup_calls :
    Move.calls (M := machine) (.spawn (cleanupOrphans sampleOwner).discard) ⊆ calls sampleOwner := by
  rintro _ rfl
  exact .inr rfl

theorem performs_calls (n pid : ℕ) : ∀ m ∈ replicate n (Move.perform (M := machine) (ε := Error) pid sampleOracle),
    m.calls ⊆ calls sampleOwner := by
  intro m member
  obtain rfl := eq_of_mem_replicate member
  exact Set.empty_subset _

theorem pods_once_sample : ∃ c : Config machine Error,
    Reaches (calls sampleOwner) (orderly sampleTag) (initial empty) c ∧ c.Returned ∧
    c.trace.countP (terminates "pod_123") = 1 := by
  have passed : ((initial empty).simulate sampleOrderly sampleRun).any (fun c =>
      (range c.spawned).all (fun pid => returned (c.processes pid)) && c.trace.any (creates "pod_123")) = true := by
    decide
  have subset : ∀ m ∈ sampleRun, m.calls ⊆ calls sampleOwner :=
    forall_mem_cons.mpr ⟨run_calls _, performs_calls 12 0⟩
  obtain ⟨c, reached, holds⟩ := exists_reaches orderly_of_sample subset passed
  obtain ⟨all, created⟩ := and_eq_true_iff.mp holds
  obtain ⟨e, member, is⟩ := any_eq_true.mp created
  exact ⟨c, reached, returned_of_all all,
    (pods_once sampleOwner sampleTag c reached).2.2.2 (returned_of_all all) e member "pod_123" is⟩

theorem pod_terminated_twice : ∃ c : Config machine Error,
    Reaches (calls sampleOwner) (fun _ e => Working sampleTag e) (initial empty) c ∧ c.Returned ∧
    c.trace.countP (terminates "pod_123") = 2 := by
  have passed : ((initial empty).simulate sampleWorking sampleRace).any (fun c =>
      (range c.spawned).all (fun pid => returned (c.processes pid)) &&
        decide (c.trace.countP (terminates "pod_123") = 2)) = true := by
    decide
  have subset : ∀ m ∈ sampleRace, m.calls ⊆ calls sampleOwner :=
    forall_mem_cons.mpr ⟨run_calls _, forall_mem_append.mpr ⟨performs_calls 10 0,
      forall_mem_cons.mpr ⟨cleanup_calls, forall_mem_append.mpr ⟨performs_calls 11 1, performs_calls 2 0⟩⟩⟩⟩
  obtain ⟨c, reached, holds⟩ := exists_reaches working_of_sample subset passed
  obtain ⟨all, twice⟩ := and_eq_true_iff.mp holds
  exact ⟨c, reached, returned_of_all all, of_decide_eq_true twice⟩

end VideoPoster.Pods
