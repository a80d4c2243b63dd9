import VideoPoster.Autonomous.Verdict
import VideoPoster.StandingBudget.Exposure
import VideoPoster.StandingBudget.Settlement

/-!
# `autonomous`: the operational metrics ledger
-/

namespace VideoPoster.Autonomous.Telemetry
open Python Billing Tables StandingBudget Option List Table
open Executor (Row)
open Runner (judge)

/-! ## Observations -/

inductive BillingStatus where
  | authenticated | unauthenticated | unknown
  deriving DecidableEq

/-- What `reconcile` is given. The receipts of the executor measure nothing: their observations have no
counts and no times. -/
structure Observation where
  eventId : String
  requestId : String
  episodeId : String
  worker : String := "runner"
  experiment : Bool
  billing : BillingStatus
  money : Option ℚ := none
  exposure : Option ℚ := none

structure Payload where
  episodeId : String
  experiment : Bool
  billing : BillingStatus
  money : Option ℚ
  exposure : Option ℚ
  deriving DecidableEq

def Observation.payload (observation : Observation) : Payload :=
  ⟨observation.episodeId, observation.experiment, observation.billing, observation.money, observation.exposure⟩

/-- A row of `observations`; hashes are of any type. -/
structure Observed (Hash : Type) where
  requestId : String
  eventId : String
  billing : BillingStatus
  payloadSha256 : Hash

structure Conflict (Hash : Type) where
  kind : String
  value : String
  payloadSha256 : Hash
  conflictingPayloadSha256 : Hash
  deriving DecidableEq

structure Metrics (Hash : Type) where
  observations : Table (@Observed.requestId Hash)
  conflicts : List (Conflict Hash)

def boundedIdentifier (text : String) : Bool :=
  (text.toList.head?.any Char.isAlphanum) && text.length ≤ 128 &&
    text.toList.all fun c => c.isAlphanum || c == '.' || c == '_' || c == ':' || c == '-'

def checkText (value field : String) : Result Unit :=
  require (boundedIdentifier value = true) (.value (field ++ " must be a bounded opaque identifier"))

def Observation.check (observation : Observation) : Result Unit := do
  checkText observation.eventId "event_id"
  checkText observation.requestId "request_id"
  checkText observation.episodeId "episode_id"
  checkText observation.worker "worker"
  require (observation.billing ≠ .authenticated → observation.money = none)
    (.value "unauthenticated or unknown billing cannot be real money")
  require (observation.billing = .authenticated → observation.money ≠ none)
    (.value "authenticated billing requires reconciled money")

def conflictError : Error :=
  ⟨.other "OperationalMetricsConflict", "metrics identity collision has divergent canonical payload"⟩

section Reconcile
variable {Hash : Type} [DecidableEq Hash] (digest : Payload → Hash)

def matching (observation : Observation) (metrics : Metrics Hash) : List (Observed Hash) :=
  metrics.observations.rows.filter fun row =>
    row.requestId = observation.requestId ∨ row.eventId = observation.eventId

def addConflict (observation : Observation) (conflicts : List (Conflict Hash)) (row : Observed Hash) :
    List (Conflict Hash) :=
  let conflict : Conflict Hash :=
    if row.requestId = observation.requestId then
      ⟨"request_id", observation.requestId, row.payloadSha256, digest observation.payload⟩
    else ⟨"event_id", observation.eventId, row.payloadSha256, digest observation.payload⟩
  if conflict ∈ conflicts then conflicts else conflicts ++ [conflict]

def reconcile (observation : Observation) (metrics : Metrics Hash) : Metrics Hash × Result Bool :=
  match observation.check with
  | .error error => (metrics, .error error)
  | .ok () =>
    match matching observation metrics with
    | [] =>
      ({ metrics with
          observations := metrics.observations.put
            ⟨observation.requestId, observation.eventId, observation.billing, digest observation.payload⟩ },
        .ok true)
    | rows =>
      if ∀ row ∈ rows, row.payloadSha256 = digest observation.payload then (metrics, .ok false)
      else
        ({ metrics with conflicts := rows.foldl (addConflict digest observation) metrics.conflicts },
          .error conflictError)

def reconcileExecutorReceipt (row : Row) (episodeId : String) (metrics : Metrics Hash) :
    Metrics Hash × Result Bool :=
  if row.requestId = "" then (metrics, .error (.value "executor receipt request_id is required"))
  else
    reconcile digest
      { eventId := "executor:" ++ row.requestId ++ ":COMPLETE"
        requestId := row.requestId
        episodeId := episodeId
        experiment := false
        billing := .unauthenticated } metrics

def authenticated (claim : Claim) : Option ℚ :=
  if claim.state = .settled then claim.actual.map fun actual => mkRat actual 1000000 else none

def durableObservation (row : Row) (claim : Claim) : Observation where
  eventId := "durable:" ++ row.providerId
  requestId := row.requestId
  episodeId := claim.episodeId
  experiment := claim.experiment
  billing := if (authenticated claim).isSome then .authenticated else .unknown
  money := authenticated claim
  exposure := if (authenticated claim).isSome then none else some claim.reservedUsd

def checkDurable (row : Row) (claim : Claim) : Result Unit := do
  checkText row.requestId "request_id"
  require (claim.requestId = row.requestId) (.value "receipt and claim request scope mismatch")
  checkText claim.episodeId "episode_id"
  require (row.endpoint = claim.provider) (.value "receipt and claim provider scope mismatch")
  -- a provider id that was never checkpointed is "", and not missing
  checkText row.providerId "provider operation id"

def reconcileDurableReceipt (row : Row) (claim : Claim) (metrics : Metrics Hash) : Metrics Hash × Result Bool :=
  match checkDurable row claim with
  | .error error => (metrics, .error error)
  | .ok () => reconcile digest (durableObservation row claim) metrics

def recordReceiptMetrics (row : Row) (episodeId : String) (ledger : Ledger) (metrics : Metrics Hash) :
    Metrics Hash × Result Bool :=
  match claim row.requestId ledger with
  | .error _ => reconcileExecutorReceipt digest row episodeId metrics
  | .ok (_, claim) => reconcileDurableReceipt digest row claim metrics

end Reconcile

/-! ## A completed job in the loop -/

inductive Phase where
  | idle | begun | bound | marked | projected
  | answered (answer : Json)

structure Books (Hash : Type) where
  ledger : Ledger
  metrics : Metrics Hash
  verdict : Option Verdict
  phase : Phase

inductive Action where
  | start
  | bind (run : Result Unit)
  | mark (intact : Bool)
  | project
  | review (answer : Result Json)
  | save (decided : Result Unit)
  | interrupt
  /-- The same receipt is projected once more. -/
  | replay
  | ledger (op : Op)
  | observe (observation : Observation)

def Foreign (requestId : String) : Op → Prop
  | .reserve _ _ args => args.requestId ≠ requestId
  | .bindProviderRequestId _ other _ _ => other ≠ requestId
  | .markUnknown _ other _ => other ≠ requestId
  | .settle other _ => other ≠ requestId
  | .settleVerifiedReceipt _ _ _ => True
  | .setBillingSnapshotGeneration _ other _ => other ≠ requestId
  | .claim _ => True

instance (requestId : String) : DecidablePred (Foreign requestId) := fun op => by
  cases op <;> unfold Foreign <;> infer_instance

section Job
variable {Hash : Type} [DecidableEq Hash] (digest : Payload → Hash) (P : StandingBudget.Policy) (row : Row)
  (episodeId sha256 : String)

def raise (s : Books Hash) (error : Error) : Books Hash × Option Error :=
  ({ s with phase := .idle }, some error)

/-- `mark_unknown_if_reserved` and the exception again, unless the mark raises another. -/
def unwind (s : Books Hash) (error : Error) : Books Hash × Option Error :=
  match claim row.requestId s.ledger with
  | .error _ => raise s error
  | .ok _ =>
    match markUnknown none row.requestId none s.ledger with
    | .error error => raise s error
    | .ok (ledger, _) => raise { s with ledger } error

/-- The provider id of the receipt is bound to the claim, and the executor is asked for the row again. -/
def bindReceipt (run : Result Unit) (s : Books Hash) : Books Hash × Option Error :=
  if row.providerId = "" then ({ s with phase := .bound }, none)
  else
    match bindProviderRequestId none row.requestId row.providerId none s.ledger with
    | .error error => unwind row s error
    | .ok (ledger, _) =>
      match run with
      | .error error => unwind row { s with ledger } error
      | .ok () => ({ s with ledger, phase := .bound }, none)

def markReceipt (intact : Bool) (s : Books Hash) : Books Hash × Option Error :=
  match markUnknown none row.requestId none s.ledger with
  | .error error => raise s error
  | .ok (ledger, _) =>
    if intact then ({ s with ledger, phase := .marked }, none)
    else raise { s with ledger } (.value "completed receipt output hash mismatch")

def projectReceipt (done failed : Phase) (s : Books Hash) : Books Hash × Option Error :=
  match recordReceiptMetrics digest row episodeId s.ledger s.metrics with
  | (metrics, .error error) => ({ s with metrics, phase := failed }, some error)
  | (metrics, .ok _) => ({ s with metrics, phase := done }, none)

def saveVerdict (decided : Result Unit) (answer : Json) (s : Books Hash) : Books Hash × Option Error :=
  if answer = .null then ({ s with phase := .idle }, none)
  else
    let verdict := judge row.requestId sha256 (qaAnswer answer)
    match verdict.approved, decided with
    | true, .error error => raise s error
    | _, _ => ({ s with verdict := some verdict, phase := .idle }, none)

def perform (s : Books Hash) : Action → Books Hash × Option Error
  | .start =>
    match s.phase, s.verdict with
    | .idle, none => ({ s with phase := .begun }, none)
    | _, _ => (s, none)
  | .bind run =>
    match s.phase with
    | .begun => bindReceipt row run s
    | _ => (s, none)
  | .mark intact =>
    match s.phase with
    | .bound => markReceipt row intact s
    | _ => (s, none)
  | .project =>
    match s.phase with
    | .marked => projectReceipt digest row episodeId .projected .idle s
    | _ => (s, none)
  | .review answer =>
    match s.phase, answer with
    | .projected, .ok answer => ({ s with phase := .answered answer }, none)
    | .projected, .error error => raise s error
    | _, _ => (s, none)
  | .save decided =>
    match s.phase with
    | .answered answer => saveVerdict row sha256 decided answer s
    | _ => (s, none)
  | .interrupt => ({ s with phase := .idle }, none)
  | .replay => projectReceipt digest row episodeId s.phase s.phase s
  | .ledger op =>
    if Foreign row.requestId op then ({ s with ledger := (s.ledger.step P op.outside).1 }, none) else (s, none)
  | .observe observation =>
    if observation.requestId ≠ row.requestId ∧ observation.eventId ≠ "durable:" ++ row.providerId then
      ({ s with metrics := (reconcile digest observation s.metrics).1 }, none)
    else (s, none)

def after (s : Books Hash) (actions : List Action) : Books Hash :=
  actions.foldl (fun s action => (perform digest P row episodeId sha256 s action).1) s

def resumed (s : Books Hash) (answer : Json) : Books Hash :=
  after digest P row episodeId sha256 s
    [.start, .bind (.ok ()), .mark true, .project, .review (.ok answer), .save (.ok ())]

end Job

/-! ## When the job is reviewed -/

structure Fits (row : Row) (claim : Claim) : Prop where
  request : boundedIdentifier row.requestId = true
  episode : boundedIdentifier claim.episodeId = true
  provider : boundedIdentifier row.providerId = true
  event : boundedIdentifier ("durable:" ++ row.providerId) = true

structure Claimed (row : Row) (claim : Claim) : Prop where
  provider : claim.provider = row.endpoint
  fal : claim.settlementMode = .falReadbackV2
  unpinned : claim.generation = none
  bound : claim.providerRequestId = unassigned ∨ claim.providerRequestId = row.providerId
  settled : claim.state = .settled ↔ claim.actual ≠ none

def side (claim : Claim) : BillingStatus := if claim.actual = none then .unknown else .authenticated

variable {Hash : Type} [DecidableEq Hash] {digest : Payload → Hash} {P : StandingBudget.Policy} {row : Row}
  {episodeId sha256 : String} {s s' : Books Hash} {c : Claim} {metrics : Metrics Hash} {ledger ledger' : Ledger}

structure Books.Inv (digest : Payload → Hash) (row : Row) (s : Books Hash) (c : Claim) : Prop where
  named : row.requestId ≠ ""
  found : s.ledger.claims.find? row.requestId = some c
  claimed : Claimed row c
  /-- An earlier projection of the receipt was made on one side of the settlement. -/
  projected : ∀ observed ∈ s.metrics.observations, observed.requestId = row.requestId ∨
      observed.eventId = "durable:" ++ row.providerId →
    observed.requestId = row.requestId ∧
      ∃ earlier : Claim, observed.payloadSha256 = digest (durableObservation row earlier).payload ∧
        observed.billing = side earlier ∧ Claimed row earlier ∧ earlier.episodeId = c.episodeId ∧
        earlier.experiment = c.experiment ∧ earlier.cap = c.cap ∧
        (earlier.actual = c.actual ∨ earlier.actual = none)

def SameSide (row : Row) (s : Books Hash) (c : Claim) : Prop :=
  ∀ observed ∈ s.metrics.observations, observed.requestId = row.requestId → observed.billing = side c

/-! ## The metrics -/

omit [DecidableEq Hash] in
theorem mem_matching {observation : Observation} {observed : Observed Hash} :
    observed ∈ matching observation metrics ↔ observed ∈ metrics.observations ∧
      (observed.requestId = observation.requestId ∨ observed.eventId = observation.eventId) := by
  simp [matching, mem_rows]

theorem reconcile_observations (digest : Payload → Hash)
    (observation : Observation) (metrics : Metrics Hash) : (reconcile digest observation metrics).1.observations =
    metrics.observations ∨ (reconcile digest observation metrics).1.observations = metrics.observations.put
    ⟨observation.requestId, observation.eventId, observation.billing, digest observation.payload⟩ := by
  unfold reconcile
  split
  · exact .inl rfl
  · split
    · exact .inr rfl
    · split_ifs <;> exact .inl rfl

theorem reconcile_eq_ok {observation : Observation} :
    (∃ added, (reconcile digest observation metrics).2 = .ok added) ↔ observation.check =
    .ok () ∧ ∀ observed ∈ matching observation metrics, observed.payloadSha256 = digest observation.payload := by
  unfold reconcile
  cases checked : observation.check with
  | error error => simp
  | ok _ =>
    cases matches_ : matching observation metrics with
    | nil => simp
    | cons first rest =>
      by_cases same : ∀ observed ∈ first :: rest, observed.payloadSha256 = digest observation.payload
      · simp only [if_pos same]
        exact ⟨fun _ => ⟨trivial, same⟩, fun _ => ⟨false, rfl⟩⟩
      · simp only [if_neg same]
        exact ⟨fun ⟨_, is⟩ => (by cases is), fun holds => absurd holds.2 same⟩

theorem authenticated_eq (claimed : Claimed row c) :
    authenticated c = c.actual.map fun actual => mkRat actual 1000000 := by
  unfold authenticated
  split_ifs with settled
  · rfl
  · have unsettled : c.actual = none := by
      by_contra some_
      exact settled (claimed.settled.mpr some_)
    rw [unsettled]
    rfl

theorem durableObservation_billing (claimed : Claimed row c) : (durableObservation row c).billing = side c := by
  simp only [durableObservation, authenticated_eq claimed, side]
  cases c.actual <;> simp

theorem payload_eq_iff {earlier : Claim} (claimed : Claimed row c) (before : Claimed row earlier)
    (episode : earlier.episodeId = c.episodeId) (experiment : earlier.experiment = c.experiment)
    (cap : earlier.cap = c.cap) (actual : earlier.actual = c.actual ∨ earlier.actual = none) :
    (durableObservation row earlier).payload = (durableObservation row c).payload ↔ side earlier = side c := by
  constructor
  · intro same
    rw [← durableObservation_billing before, ← durableObservation_billing claimed]
    exact congrArg Payload.billing same
  · intro same
    have amounts : earlier.actual = c.actual := by
      obtain equal | unsettled := actual
      · exact equal
      · rw [unsettled]
        by_contra settled
        have other : side c = .authenticated := if_neg fun none => settled none.symm
        rw [other, side, if_pos unsettled] at same
        cases same
    simp only [Observation.payload, durableObservation, authenticated_eq before, authenticated_eq claimed, episode,
      experiment, amounts, Claim.reservedUsd, cap]

theorem boundedIdentifier_ne_empty {text : String} (bounded : boundedIdentifier text = true) : text ≠ "" := by
  rintro rfl
  cases bounded

theorem durableObservation_check (row : Row) (c : Claim) :
    (durableObservation row c).check = .ok () ↔ boundedIdentifier ("durable:" ++ row.providerId) = true ∧
      boundedIdentifier row.requestId = true ∧ boundedIdentifier c.episodeId = true := by
  have worker : boundedIdentifier "runner" = true := by decide
  simp only [Observation.check, checkText, bind_eq_ok, require_eq_ok, exists_const]
  constructor
  · rintro ⟨event, request, episode, -⟩
    exact ⟨event, request, episode⟩
  · rintro ⟨event, request, episode⟩
    refine ⟨event, request, episode, worker, ?_, ?_⟩
    · cases amount : authenticated c <;> simp [durableObservation, amount]
    · cases amount : authenticated c <;> simp [durableObservation, amount]

theorem checkDurable_eq_ok (key : c.requestId = row.requestId) (claimed : Claimed row c) :
    checkDurable row c = .ok () ↔ boundedIdentifier row.requestId = true ∧ boundedIdentifier c.episodeId = true ∧
      boundedIdentifier row.providerId = true := by
  simp only [checkDurable, checkText, bind_eq_ok, require_eq_ok, exists_const]
  constructor
  · rintro ⟨request, -, episode, -, provider⟩
    exact ⟨request, episode, provider⟩
  · rintro ⟨request, episode, provider⟩
    exact ⟨request, key, episode, claimed.provider.symm, provider⟩

theorem claim_eq (named : row.requestId ≠ "") (found : ledger.claims.find? row.requestId = some c) :
    claim row.requestId ledger = .ok (ledger, c) := by
  simp [claim, named, found, require, bind, Except.bind, pure, Except.pure]

theorem recordReceiptMetrics_eq_ok (collisionFree : Function.Injective digest) (inv : s.Inv digest row c) : (∃ added,
    (recordReceiptMetrics digest row episodeId s.ledger s.metrics).2 = .ok added) ↔ Fits row c ∧ SameSide row s c := by
  obtain ⟨named, found, claimed, projected⟩ := inv
  have key := (find?_eq_some.mp found).2
  unfold recordReceiptMetrics
  rw [claim_eq named found]
  dsimp only [reconcileDurableReceipt]
  have checks := checkDurable_eq_ok key claimed
  cases checked : checkDurable row c with
  | error error =>
    rw [checked] at checks
    refine ⟨fun ⟨_, is⟩ => (by cases is), fun ⟨fits, _⟩ => ?_⟩
    cases checks.mpr ⟨fits.request, fits.episode, fits.provider⟩
  | ok _ =>
    obtain ⟨request, episode, provider⟩ := checks.mp checked
    dsimp only
    rw [reconcile_eq_ok, durableObservation_check]
    have agrees : ∀ observed ∈ matching (durableObservation row c) s.metrics,
        (observed.payloadSha256 = digest (durableObservation row c).payload ↔ observed.billing = side c) := by
      intro observed member
      obtain ⟨listed, ours⟩ := mem_matching.1 member
      obtain ⟨-, earlier, hash, billing, before, same, experiment, cap, actual⟩ := projected observed listed ours
      rw [hash, billing, collisionFree.eq_iff]
      exact payload_eq_iff claimed before same experiment cap actual
    constructor
    · rintro ⟨⟨event, -, -⟩, same⟩
      refine ⟨⟨request, episode, provider, event⟩, fun observed listed ours => ?_⟩
      have member : observed ∈ matching (durableObservation row c) s.metrics :=
        mem_matching.2 ⟨listed, .inl ours⟩
      exact (agrees observed member).mp (same observed member)
    · rintro ⟨fits, sided⟩
      refine ⟨⟨fits.event, request, episode⟩, fun observed member => (agrees observed member).mpr ?_⟩
      obtain ⟨listed, ours⟩ := mem_matching.1 member
      exact sided observed listed (projected observed listed ours).1

/-! ## The claim -/

theorem evolves_refl (c : Claim) : c.Evolves c := ⟨rfl, rfl, rfl, rfl, rfl, .inl rfl⟩

theorem find?_put_other {l : Ledger} {other : Claim} (found : l.claims.find? row.requestId = some c)
    (distinct : other.requestId ≠ row.requestId) : (l.claims.put other).find? row.requestId = some c := by
  rw [find?_put_of_ne l.claims distinct.symm]
  exact found

theorem find?_put_own {l : Ledger} {new : Claim} (key : new.requestId = row.requestId) :
    (l.claims.put new).find? row.requestId = some new := by
  rw [← key]
  exact find?_put_self l.claims new

theorem foreign_step {op : Op} (foreign : Foreign row.requestId op)
    (found : ledger.claims.find? row.requestId = some c) (claimed : Claimed row c) :
    ∃ c', (ledger.step P op.outside).1.claims.find? row.requestId = some c' ∧ Claimed row c' ∧ c.Evolves c' := by
  have key := (find?_eq_some.mp found).2
  have same : ledger.claims.find? row.requestId = some c ∧ Claimed row c ∧ c.Evolves c :=
    ⟨found, claimed, evolves_refl c⟩
  have elsewhere {other : String} {row' new : Claim} (found' : ledger.claims.find? other = some row')
      (named : new.requestId = row'.requestId) (distinct : other ≠ row.requestId) :
      (ledger.claims.put new).find? row.requestId = some c ∧ Claimed row c ∧ c.Evolves c := by
    rw [← (find?_eq_some.mp found').2, ← named] at distinct
    exact ⟨find?_put_other found distinct, claimed, evolves_refl c⟩
  unfold Ledger.step
  cases applied : op.outside.apply P ledger with
  | error error => exact ⟨c, same⟩
  | ok outcome =>
    obtain ⟨ledger', result⟩ := outcome
    dsimp only
    cases op with
    | reserve context month args =>
      rcases reserve_ok applied with ⟨-, rfl⟩ | ⟨-, -, cap, recorded, -, -, -, rfl, rfl⟩
      · exact ⟨c, same⟩
      · exact ⟨c, find?_put_other found foreign, claimed, evolves_refl c⟩
    | bindProviderRequestId context other provider generation =>
      obtain ⟨row', found', -, -, -, ⟨-, -, rfl⟩ | ⟨-, -, rfl, rfl⟩⟩ := bindProviderRequestId_ok applied
      · exact ⟨c, same⟩
      · exact ⟨c, elsewhere found' rfl foreign⟩
    | markUnknown context other generation =>
      obtain ⟨row', found', -, -, rfl, rfl⟩ := markUnknown_ok applied
      exact ⟨c, elsewhere found' rfl foreign⟩
    | settle other amount =>
      obtain ⟨row', found', -, ⟨-, rfl⟩ | ⟨actual, -, rfl, rfl⟩⟩ := settle_ok applied
      · exact ⟨c, same⟩
      · exact ⟨c, elsewhere found' rfl foreign⟩
    | settleVerifiedReceipt context body generation =>
      have unpinned : generation = none := by
        simp only [Op.outside, Op.apply, StandingBudget.settleVerifiedReceipt, denyContext, bind_eq_ok, require_eq_ok,
          exists_const] at applied
        obtain ⟨-, -, writer, -⟩ := applied
        exact writer.elim id Eq.symm
      subst unpinned
      obtain ⟨receipt, actual, row', -, found', -, -, -, -, ⟨_, -, -, -, -, -, -, rfl⟩ | ⟨-, unsettled, rfl, rfl⟩⟩ :=
        settleVerifiedReceipt_ok applied
      · exact ⟨c, same⟩
      · by_cases ours : receipt.localRequestId = row.requestId
        · rw [ours, found] at found'
          cases found'
          refine ⟨_, find?_put_own key, ⟨claimed.provider, claimed.fal, ?_, claimed.bound, ?_⟩, ?_⟩
          · exact claimed.unpinned
          · exact ⟨fun _ => some_ne_none actual, fun _ => rfl⟩
          · exact ⟨rfl, rfl, rfl, rfl, rfl, .inr unsettled⟩
        · exact ⟨c, elsewhere found' rfl ours⟩
    | setBillingSnapshotGeneration context other generation =>
      obtain ⟨row', found', -, rfl, rfl⟩ := setBillingSnapshotGeneration_ok applied
      exact ⟨c, elsewhere found' rfl foreign⟩
    | claim other =>
      obtain ⟨-, rfl⟩ := claim_ok applied
      exact ⟨c, same⟩

theorem nothing_is_valid : ValidGeneration none := (some_ne_none 0).symm

section
variable (found : ledger.claims.find? row.requestId = some c)
include found

variable (claimed : Claimed row c)
include claimed

theorem markUnknown_eq_ok :
    (∃ outcome, markUnknown none row.requestId none ledger = .ok outcome) ↔ c.actual = none := by
  have unpinned := claimed.unpinned
  simp only [StandingBudget.markUnknown, requireGeneration, denyContext, requirePin, found, bind_eq_ok,
    require_eq_ok, exists_const]
  constructor
  · rintro ⟨outcome, -, -, -, unsettled, -⟩
    exact unsettled
  · exact fun unsettled => ⟨_, nothing_is_valid, .inl trivial, .inl unpinned, unsettled, rfl⟩

theorem marked_claim {result : Claim} (is : markUnknown none row.requestId none ledger = .ok (ledger', result)) :
    ∃ c', ledger'.claims.find? row.requestId = some c' ∧ Claimed row c' ∧ c.Evolves c' ∧ c'.actual = none := by
  have key := (find?_eq_some.mp found).2
  obtain ⟨row', found', -, unsettled, rfl, rfl⟩ := markUnknown_ok is
  cases found.symm.trans found'
  refine ⟨_, find?_put_own key, ⟨claimed.provider, claimed.fal, claimed.unpinned, claimed.bound, ?_⟩,
    ⟨rfl, rfl, rfl, rfl, rfl, .inl rfl⟩, unsettled⟩
  exact ⟨fun is => (by cases is), fun settled => absurd unsettled settled⟩

theorem bound_claim {result : Claim}
    (is : bindProviderRequestId none row.requestId row.providerId none ledger = .ok (ledger', result)) :
    ∃ c', ledger'.claims.find? row.requestId = some c' ∧ Claimed row c' ∧ c.Evolves c' ∧ c'.actual = c.actual := by
  have key := (find?_eq_some.mp found).2
  obtain ⟨row', found', -, -, -, ⟨-, -, rfl⟩ | ⟨-, -, rfl, rfl⟩⟩ := bindProviderRequestId_ok is
  · exact ⟨c, found, claimed, evolves_refl c, rfl⟩
  · cases found.symm.trans found'
    exact ⟨_, find?_put_own key, ⟨claimed.provider, claimed.fal, claimed.unpinned, .inr rfl, claimed.settled⟩,
      ⟨rfl, rfl, rfl, rfl, rfl, .inl rfl⟩, rfl⟩

end

theorem bindProviderRequestId_eq_ok (named : row.requestId ≠ "") (given : row.providerId ≠ "")
    (found : ledger.claims.find? row.requestId = some c) (claimed : Claimed row c) :
    (∃ outcome, bindProviderRequestId none row.requestId row.providerId none ledger = .ok outcome) ↔
      row.providerId ≠ unassigned ∧ row.providerId.length ≤ 512 := by
  have unpinned := claimed.unpinned
  have fal := claimed.fal
  simp only [bindProviderRequestId, requireGeneration, denyContext, requirePin, found, bind_eq_ok,
    require_eq_ok, exists_const]
  constructor
  · rintro ⟨outcome, ⟨-, -, assigned, short⟩, -⟩
    exact ⟨assigned, short⟩
  · rintro ⟨assigned, short⟩
    by_cases same : c.providerRequestId = row.providerId
    · simp only [if_pos same]
      exact ⟨_, ⟨named, given, assigned, short⟩, nothing_is_valid, .inl trivial, fal, .inl unpinned, rfl⟩
    · have free := claimed.bound.resolve_right same
      simp only [if_neg same, bind_eq_ok, require_eq_ok, exists_const]
      exact ⟨_, ⟨named, given, assigned, short⟩, nothing_is_valid, .inl trivial, fal, .inl unpinned, free, rfl⟩

/-! ## What every step keeps -/

omit [DecidableEq Hash] in
theorem Books.Inv.evolve {c' : Claim} (inv : s.Inv digest row c) (found : s'.ledger.claims.find? row.requestId = some
    c') (claimed : Claimed row c') (evolves : c.Evolves c') (same : s'.metrics = s.metrics) : s'.Inv digest row c' := by
  refine ⟨inv.named, found, claimed, ?_⟩
  rw [same]
  intro observed listed ours
  obtain ⟨key, earlier, hash, billing, before, episode, experiment, cap, actual⟩ := inv.projected observed listed ours
  refine ⟨key, earlier, hash, billing, before, episode.trans evolves.episodeId.symm,
    experiment.trans evolves.experiment.symm, cap.trans evolves.cap.symm, ?_⟩
  obtain equal | unsettled := actual
  · obtain kept | unsettled := evolves.actual
    · exact .inl (equal.trans kept.symm)
    · exact .inr (equal.trans unsettled)
  · exact .inr unsettled

omit [DecidableEq Hash] in
theorem Books.Inv.same (inv : s.Inv digest row c) (ledger : s'.ledger = s.ledger) (metrics : s'.metrics = s.metrics) :
    s'.Inv digest row c := by
  refine inv.evolve ?_ inv.claimed (evolves_refl c) metrics
  rw [ledger]
  exact inv.found

theorem Books.Inv.observed (inv : s.Inv digest row c) {observation : Observation}
    (ledger : s'.ledger = s.ledger) (metrics : s'.metrics = (reconcile digest observation s.metrics).1)
    (foreign : observation = durableObservation row c ∨
      observation.requestId ≠ row.requestId ∧ observation.eventId ≠ "durable:" ++ row.providerId) :
    s'.Inv digest row c := by
  refine ⟨inv.named, by rw [ledger]; exact inv.found, inv.claimed, fun observed listed ours => ?_⟩
  rw [metrics] at listed
  obtain same | put := reconcile_observations digest observation s.metrics
  · rw [same] at listed
    exact inv.projected observed listed ours
  · rw [put] at listed
    obtain rfl | ⟨listed, -⟩ := mem_put.mp listed
    · obtain rfl | ⟨request, event⟩ := foreign
      · exact ⟨rfl, c, rfl, durableObservation_billing inv.claimed, inv.claimed, rfl, rfl, rfl, .inl rfl⟩
      · exact (ours.elim request event).elim
    · exact inv.projected observed listed ours

theorem Books.Inv.project (inv : s.Inv digest row c) (ledger : s'.ledger = s.ledger) (metrics :
    s'.metrics = (recordReceiptMetrics digest row episodeId s.ledger s.metrics).1) : s'.Inv digest row c := by
  unfold recordReceiptMetrics at metrics
  rw [claim_eq inv.named inv.found] at metrics
  dsimp only [reconcileDurableReceipt] at metrics
  cases checked : checkDurable row c with
  | error error =>
    rw [checked] at metrics
    exact inv.same ledger metrics
  | ok _ =>
    rw [checked] at metrics
    exact inv.observed ledger metrics (.inl rfl)

theorem projectReceipt_fst {done failed : Phase} : (projectReceipt digest row episodeId done failed s).1.ledger =
    s.ledger ∧ (projectReceipt digest row episodeId done failed s).1.metrics =
    (recordReceiptMetrics digest row episodeId s.ledger s.metrics).1 := by
  unfold projectReceipt
  split
  · rename_i is
    rw [is]
    exact ⟨rfl, rfl⟩
  · rename_i is
    rw [is]
    exact ⟨rfl, rfl⟩

omit [DecidableEq Hash] in
theorem Books.Inv.unwind (inv : s.Inv digest row c) (error : Error) :
    ∃ c', (unwind row s error).1.Inv digest row c' := by
  unfold Telemetry.unwind
  rw [claim_eq inv.named inv.found]
  dsimp only
  split
  · exact ⟨c, inv.same rfl rfl⟩
  · rename_i ledger result marked
    obtain ⟨c', found, claimed, evolves, -⟩ := marked_claim inv.found inv.claimed marked
    exact ⟨c', inv.evolve found claimed evolves rfl⟩

theorem Books.Inv.perform (inv : s.Inv digest row c) (P : StandingBudget.Policy) (episodeId sha256 : String)
    (action : Action) : ∃ c', (perform digest P row episodeId sha256 s action).1.Inv digest row c' := by
  have kept : ∃ c', s.Inv digest row c' := ⟨c, inv⟩
  cases action with
  | start =>
    simp only [Telemetry.perform]
    split
    · exact ⟨c, inv.same rfl rfl⟩
    · exact kept
  | bind run =>
    simp only [Telemetry.perform]
    split
    · unfold bindReceipt
      split_ifs
      · exact ⟨c, inv.same rfl rfl⟩
      · split
        · exact inv.unwind _
        · rename_i ledger result bound
          obtain ⟨c', found, claimed, evolves, -⟩ := bound_claim inv.found inv.claimed bound
          split
          · have changed : ({ s with ledger } : Books Hash).Inv digest row c' := inv.evolve found claimed evolves rfl
            exact changed.unwind _
          · exact ⟨c', inv.evolve found claimed evolves rfl⟩
    · exact kept
  | mark intact =>
    simp only [Telemetry.perform]
    split
    · unfold markReceipt
      split
      · exact ⟨c, inv.same rfl rfl⟩
      · rename_i ledger result marked
        obtain ⟨c', found, claimed, evolves, -⟩ := marked_claim inv.found inv.claimed marked
        split_ifs
        · exact ⟨c', inv.evolve found claimed evolves rfl⟩
        · exact ⟨c', inv.evolve found claimed evolves rfl⟩
    · exact kept
  | project =>
    simp only [Telemetry.perform]
    split
    · exact ⟨c, inv.project projectReceipt_fst.1 projectReceipt_fst.2⟩
    · exact kept
  | review answer =>
    simp only [Telemetry.perform]
    split
    · exact ⟨c, inv.same rfl rfl⟩
    · exact ⟨c, inv.same rfl rfl⟩
    · exact kept
  | save decided =>
    simp only [Telemetry.perform]
    split
    · unfold saveVerdict
      split_ifs
      · exact ⟨c, inv.same rfl rfl⟩
      · dsimp only
        split <;> exact ⟨c, inv.same rfl rfl⟩
    · exact kept
  | interrupt => exact ⟨c, inv.same rfl rfl⟩
  | replay => exact ⟨c, inv.project projectReceipt_fst.1 projectReceipt_fst.2⟩
  | ledger op =>
    simp only [Telemetry.perform]
    split_ifs with foreign
    · obtain ⟨c', found, claimed, evolves⟩ := foreign_step (P := P) foreign inv.found inv.claimed
      exact ⟨c', inv.evolve found claimed evolves rfl⟩
    · exact kept
  | observe observation =>
    simp only [Telemetry.perform]
    split_ifs with foreign
    · exact ⟨c, inv.observed rfl rfl (.inr foreign)⟩
    · exact kept

theorem Books.Inv.after (inv : s.Inv digest row c) (P : StandingBudget.Policy) (episodeId sha256 : String)
    (actions : List Action) : ∃ c', (after digest P row episodeId sha256 s actions).Inv digest row c' := by
  induction actions generalizing s c with
  | nil => exact ⟨c, inv⟩
  | cons action rest ih =>
    obtain ⟨c', inv⟩ := inv.perform P episodeId sha256 action
    exact ih inv

/-! ## When a step raises -/

def Admissible (row : Row) (sha256 : String) (s : Books Hash) (c : Claim) : Action → Prop
  | .bind run => ∀ _ : s.phase = .begun, row.providerId = "" ∨
      run = .ok () ∧ row.providerId ≠ unassigned ∧ row.providerId.length ≤ 512
  | .mark intact => s.phase = .bound → intact = true ∧ c.actual = none
  | .project => s.phase = .marked → Fits row c ∧ SameSide row s c
  | .review answer => s.phase = .projected → ∃ verdict, answer = .ok verdict
  | .save decided => ∀ answer, s.phase = .answered answer → answer ≠ .null →
      (judge row.requestId sha256 (qaAnswer answer)).approved = true → decided = .ok ()
  | .replay => Fits row c ∧ SameSide row s c
  | _ => True

omit [DecidableEq Hash] in
theorem unwind_raises (error : Error) : (unwind row s error).2 ≠ none := by
  unfold unwind raise
  split
  · exact some_ne_none _
  · split <;> exact some_ne_none _

theorem projectReceipt_raises (collisionFree : Function.Injective digest) (inv : s.Inv digest row c) {done failed :
    Phase} : (projectReceipt digest row episodeId done failed s).2 = none ↔ Fits row c ∧ SameSide row s c := by
  rw [← @recordReceiptMetrics_eq_ok _ _ digest row episodeId s c collisionFree inv]
  unfold projectReceipt
  split
  · rename_i is
    simp [is]
  · rename_i is
    simp [is]

omit [DecidableEq Hash] in
theorem markReceipt_raises (inv : s.Inv digest row c) {intact : Bool} :
    (markReceipt row intact s).2 = none ↔ intact = true ∧ c.actual = none := by
  rw [← markUnknown_eq_ok inv.found inv.claimed]
  unfold markReceipt raise
  split
  · rename_i is
    simp [is]
  · rename_i is
    cases intact <;> simp [is]

omit [DecidableEq Hash] in
theorem bindReceipt_raises (inv : s.Inv digest row c) {run : Result Unit} :
    (bindReceipt row run s).2 = none ↔ row.providerId = "" ∨
      run = .ok () ∧ row.providerId ≠ unassigned ∧ row.providerId.length ≤ 512 := by
  unfold bindReceipt
  split_ifs with given
  · simp [given]
  · have binds := bindProviderRequestId_eq_ok inv.named given inv.found inv.claimed
    split
    · rename_i is
      simp only [is] at binds
      simp [unwind_raises, given, ← binds]
    · rename_i is
      simp only [is] at binds
      cases run with
      | error error => simp [unwind_raises, given]
      | ok _ => simp [given, ← binds]

theorem perform_raises (collisionFree : Function.Injective digest) (inv : s.Inv digest row c) (action : Action) :
    (perform digest P row episodeId sha256 s action).2 = none ↔ Admissible row sha256 s c action := by
  cases action with
  | start =>
    simp only [perform, Admissible, iff_true]
    split <;> rfl
  | bind run =>
    simp only [perform, Admissible]
    split
    · rename_i phase
      rw [bindReceipt_raises inv]
      exact ⟨fun is _ => is, fun is => is phase⟩
    · rename_i other
      exact ⟨fun _ phase => absurd phase other, fun _ => rfl⟩
  | mark intact =>
    simp only [perform, Admissible]
    split
    · rename_i phase
      rw [markReceipt_raises inv]
      exact ⟨fun is _ => is, fun is => is phase⟩
    · rename_i other
      exact ⟨fun _ phase => absurd phase other, fun _ => rfl⟩
  | project =>
    simp only [perform, Admissible]
    split
    · rename_i phase
      rw [projectReceipt_raises collisionFree inv]
      exact ⟨fun is _ => is, fun is => is phase⟩
    · rename_i other
      exact ⟨fun _ phase => absurd phase other, fun _ => rfl⟩
  | review answer =>
    obtain error | verdict := answer
    · simp only [perform, Admissible]
      split
      · rename_i is
        cases is
      · rename_i phase _
        simp [raise, phase]
      · rename_i other
        exact ⟨fun _ phase => (other error phase rfl).elim, fun _ => rfl⟩
    · simp only [perform, Admissible]
      refine ⟨fun _ _ => ⟨verdict, rfl⟩, fun _ => ?_⟩
      split
      · rfl
      · rename_i is
        cases is
      · rfl
  | save decided =>
    simp only [perform, Admissible]
    split
    · rename_i answer phase
      have only : (∀ other, s.phase = .answered other → other ≠ .null →
          (judge row.requestId sha256 (qaAnswer other)).approved = true → decided = .ok ()) ↔
          (answer ≠ .null → (judge row.requestId sha256 (qaAnswer answer)).approved = true → decided = .ok ()) := by
        constructor
        · exact fun all => all answer phase
        · intro is other phase'
          cases phase.symm.trans phase'
          exact is
      rw [only]
      unfold saveVerdict
      split_ifs with null
      · simp [null]
      · obtain error | _ := decided
        · cases approved : (judge row.requestId sha256 (qaAnswer answer)).approved <;> simp [raise, null, approved]
        · cases approved : (judge row.requestId sha256 (qaAnswer answer)).approved <;> simp [approved]
    · rename_i other
      exact ⟨fun _ answer phase => absurd phase (other answer), fun _ => rfl⟩
  | interrupt => simp [perform, Admissible]
  | replay => exact projectReceipt_raises collisionFree inv
  | ledger op =>
    simp only [perform, Admissible, iff_true]
    split_ifs <;> rfl
  | observe observation =>
    simp only [perform, Admissible, iff_true]
    split_ifs <;> rfl

/-! ## An undisturbed resume -/

def Ended (s s' : Books Hash) : Prop := s'.phase = .idle ∧ s'.verdict = s.verdict

structure At (digest : Payload → Hash) (row : Row) (phase : Phase) (s s' : Books Hash) (c : Claim) : Prop where
  phase : s'.phase = phase
  verdict : s'.verdict = s.verdict
  inv : s'.Inv digest row c

omit [DecidableEq Hash] in
theorem bindReceipt_at (inv : s.Inv digest row c) (run : Result Unit) :
    Ended s (bindReceipt row run s).1 ∧ (bindReceipt row run s).2 ≠ none ∨ (bindReceipt row run s).2 =
    none ∧ ∃ c', At digest row .bound s (bindReceipt row run s).1 c' ∧ c.Evolves c' ∧ c'.actual = c.actual := by
  have unwinds : ∀ (s' : Books Hash) (error : Error), s'.verdict = s.verdict →
      Ended s (unwind row s' error).1 ∧ (unwind row s' error).2 ≠ none := by
    intro s' error same
    refine ⟨?_, unwind_raises error⟩
    unfold unwind raise
    split
    · exact ⟨rfl, same⟩
    · split <;> exact ⟨rfl, same⟩
  unfold bindReceipt
  split_ifs
  · exact .inr ⟨rfl, c, ⟨rfl, rfl, inv.same rfl rfl⟩, evolves_refl c, rfl⟩
  · split
    · exact .inl (unwinds s _ rfl)
    · rename_i ledger result bound
      obtain ⟨c', found, claimed, evolves, actual⟩ := bound_claim inv.found inv.claimed bound
      split
      · exact .inl (unwinds _ _ rfl)
      · exact .inr ⟨rfl, c', ⟨rfl, rfl, inv.evolve found claimed evolves rfl⟩, evolves, actual⟩

omit [DecidableEq Hash] in
theorem markReceipt_at (inv : s.Inv digest row c) (intact : Bool) :
    Ended s (markReceipt row intact s).1 ∧ (markReceipt row intact s).2 ≠ none ∨ (markReceipt row intact s).2 =
    none ∧ ∃ c', At digest row .marked s (markReceipt row intact s).1 c' ∧ c.Evolves c' ∧ c'.actual = none := by
  unfold markReceipt raise
  split
  · exact .inl ⟨⟨rfl, rfl⟩, some_ne_none _⟩
  · rename_i ledger result marked
    obtain ⟨c', found, claimed, evolves, unsettled⟩ := marked_claim inv.found inv.claimed marked
    split_ifs
    · exact .inr ⟨rfl, c', ⟨rfl, rfl, inv.evolve found claimed evolves rfl⟩, evolves, unsettled⟩
    · exact .inl ⟨⟨rfl, rfl⟩, some_ne_none _⟩

theorem projectReceipt_at (inv : s.Inv digest row c)
    (episodeId : String) : Ended s (projectReceipt digest row episodeId .projected .idle s).1 ∧
    (projectReceipt digest row episodeId .projected .idle s).2 ≠ none ∨ (projectReceipt digest row episodeId .projected
    .idle s).2 = none ∧ At digest row .projected s (projectReceipt digest row episodeId .projected .idle s).1 c := by
  have inv' : (projectReceipt digest row episodeId .projected .idle s).1.Inv digest row c :=
    inv.project projectReceipt_fst.1 projectReceipt_fst.2
  unfold projectReceipt at inv' ⊢
  split
  · exact .inl ⟨⟨rfl, rfl⟩, some_ne_none _⟩
  · rename_i is
    rw [is] at inv'
    exact .inr ⟨rfl, rfl, rfl, inv'⟩

omit [DecidableEq Hash] in
theorem sameSide_of_unsettled (inv : s.Inv digest row c) (unsettled : c.actual = none) : SameSide row s c := by
  intro observed listed ours
  obtain ⟨-, earlier, -, billing, -, -, -, -, actual⟩ := inv.projected observed listed (.inl ours)
  have before : earlier.actual = none := actual.elim (fun same => same.trans unsettled) id
  rw [billing, side, side, if_pos before, if_pos unsettled]

theorem Fits.congr {c' : Claim} (episode : c'.episodeId = c.episodeId) : Fits row c' ↔ Fits row c :=
  ⟨fun fits => ⟨fits.request, episode ▸ fits.episode, fits.provider, fits.event⟩,
    fun fits => ⟨fits.request, episode ▸ fits.episode, fits.provider, fits.event⟩⟩

theorem boundedIdentifier_length {text : String} (bounded : boundedIdentifier text = true) : text.length ≤ 512 := by
  simp only [boundedIdentifier, Bool.and_eq_true, decide_eq_true_eq] at bounded
  omega

theorem resumed_iff (collisionFree : Function.Injective digest) (inv : s.Inv digest row c)
    (idle : s.phase = .idle) (unreviewed : s.verdict = none) {answer : Json} (known : answer ≠ .null) : (resumed digest
    P row episodeId sha256 s answer).verdict ≠ none ↔ c.actual = none ∧ Fits row c ∧ row.providerId ≠ unassigned := by
  let s₁ : Books Hash := { s with phase := .begun }
  have inv₁ : s₁.Inv digest row c := inv.same rfl rfl
  have started : perform digest P row episodeId sha256 s .start = (s₁, none) := by
    simp only [perform, idle, unreviewed, s₁]
  have bound : perform digest P row episodeId sha256 s₁ (.bind (.ok ())) = bindReceipt row (.ok ()) s₁ := rfl
  have binds := @bindReceipt_raises _ digest row s₁ c inv₁ (.ok ())
  have unfolded : resumed digest P row episodeId sha256 s answer =
      after digest P row episodeId sha256 (bindReceipt row (.ok ()) s₁).1
        [.mark true, .project, .review (.ok answer), .save (.ok ())] := by
    simp only [resumed, after, foldl_cons, foldl_nil, started, bound]
  have stops {s' : Books Hash} (ended : Ended s₁ s') (actions : List Action)
      (idles : ∀ t : Books Hash, t.phase = .idle → after digest P row episodeId sha256 t actions = t) :
      (after digest P row episodeId sha256 s' actions).verdict = none := by
    rw [idles s' ended.1]
    exact ended.2.trans unreviewed
  rw [unfolded]
  obtain ⟨ended, raised⟩ | ⟨quiet, c₂, at₂, evolves₂, actual₂⟩ := bindReceipt_at inv₁ (.ok ())
  · have none := stops ended [.mark true, .project, .review (.ok answer), .save (.ok ())] fun t idle => by
      simp only [after, foldl_cons, foldl_nil, perform, idle]
    refine ⟨fun some_ => absurd none some_, fun ⟨_, fits, assigned⟩ => absurd ?_ raised⟩
    exact binds.mpr (.inr ⟨rfl, assigned, boundedIdentifier_length fits.provider⟩)
  generalize (bindReceipt row (.ok ()) s₁).1 = s₂ at at₂
  have marked : after digest P row episodeId sha256 s₂ [.mark true, .project, .review (.ok answer), .save (.ok ())] =
      after digest P row episodeId sha256 (markReceipt row true s₂).1
        [.project, .review (.ok answer), .save (.ok ())] := by
    simp only [after, foldl_cons, perform, at₂.phase]
  have marks := @markReceipt_raises _ digest row s₂ c₂ at₂.inv true
  rw [marked]
  obtain ⟨ended, raised⟩ | ⟨quiet', c₃, at₃, evolves₃, actual₃⟩ := markReceipt_at at₂.inv true
  · have none := stops ⟨ended.1, ended.2.trans at₂.verdict⟩ [.project, .review (.ok answer), .save (.ok ())] fun t idle => by
      simp only [after, foldl_cons, foldl_nil, perform, idle]
    refine ⟨fun some_ => absurd none some_, fun ⟨unsettled, _⟩ => absurd ?_ raised⟩
    exact marks.mpr ⟨rfl, actual₂.trans unsettled⟩
  have unsettled : c.actual = none := actual₂.symm.trans (marks.mp quiet').2
  generalize (markReceipt row true s₂).1 = s₃ at at₃
  have projected : after digest P row episodeId sha256 s₃ [.project, .review (.ok answer), .save (.ok ())] =
      after digest P row episodeId sha256 (projectReceipt digest row episodeId .projected .idle s₃).1
        [.review (.ok answer), .save (.ok ())] := by
    simp only [after, foldl_cons, perform, at₃.phase]
  have projects := @projectReceipt_raises _ _ digest row episodeId s₃ c₃ collisionFree at₃.inv .projected .idle
  have episode : c₃.episodeId = c.episodeId := evolves₃.episodeId.trans evolves₂.episodeId
  rw [projected]
  obtain ⟨ended, raised⟩ | ⟨quiet'', at₄⟩ := projectReceipt_at at₃.inv episodeId
  · have none := stops ⟨ended.1, ended.2.trans (at₃.verdict.trans at₂.verdict)⟩ [.review (.ok answer), .save (.ok ())] fun t idle => by
      simp only [after, foldl_cons, foldl_nil, perform, idle]
    refine ⟨fun some_ => absurd none some_, fun ⟨_, fits, _⟩ => absurd ?_ raised⟩
    exact projects.mpr ⟨(Fits.congr episode).mpr fits, sameSide_of_unsettled at₃.inv actual₃⟩
  have fits : Fits row c := (Fits.congr episode).mp (projects.mp quiet'').1
  generalize (projectReceipt digest row episodeId .projected .idle s₃).1 = s₄ at at₄
  have saved : (after digest P row episodeId sha256 s₄ [.review (.ok answer), .save (.ok ())]).verdict ≠ none := by
    simp only [after, foldl_cons, foldl_nil, perform, at₄.phase, saveVerdict, if_neg known]
    split
    · rename_i is
      cases is
    · exact some_ne_none _
  refine ⟨fun _ => ⟨unsettled, fits, ?_⟩, fun _ => saved⟩
  obtain empty | ⟨-, assigned, -⟩ := binds.mp quiet
  · exact absurd empty (boundedIdentifier_ne_empty fits.provider)
  · exact assigned

/-- The books when the row of the job has become complete, before its first projection. -/
structure Opened (row : Row) (s : Books Hash) : Prop where
  complete : row.status = .complete
  named : row.requestId ≠ ""
  claimed : ∃ c, s.ledger.claims.find? row.requestId = some c ∧ Claimed row c ∧ c.actual = none
  unobserved : ∀ observed ∈ s.metrics.observations,
    observed.requestId ≠ row.requestId ∧ observed.eventId ≠ "durable:" ++ row.providerId
  idle : s.phase = .idle
  unreviewed : s.verdict = none

/-- After any steps of resumes, settlements and others: a step raises exactly if it is not admissible, and a
resume reviews the job exactly if its claim is not settled yet and its identifiers fit. -/
theorem settlement_and_review_iff (P : StandingBudget.Policy) (episodeId sha256 : String)
    (collisionFree : Function.Injective digest) (opened : Opened row s) (actions : List Action) :
    ∃ c, (after digest P row episodeId sha256 s actions).ledger.claims.find? row.requestId = some c ∧
    (∀ action, (perform digest P row episodeId sha256 (after digest P row episodeId sha256 s actions) action).2 = none ↔
    Admissible row sha256 (after digest P row episodeId sha256 s actions) c action) ∧ ((after digest P row episodeId
    sha256 s actions).phase = .idle → (after digest P row episodeId sha256 s actions).verdict = none → ∀ answer :
    Json, answer ≠ .null → ((resumed digest P row episodeId sha256 (after digest P row episodeId sha256 s actions)
    answer).verdict ≠ none ↔ c.actual = none ∧ Fits row c ∧ row.providerId ≠ unassigned)) := by
  obtain ⟨c, found, claimed, unsettled⟩ := opened.claimed
  have inv : s.Inv digest row c := by
    refine ⟨opened.named, found, claimed, fun observed listed ours => ?_⟩
    obtain ⟨request, event⟩ := opened.unobserved observed listed
    exact (ours.elim request event).elim
  obtain ⟨c', inv'⟩ := inv.after P episodeId sha256 actions
  exact ⟨c', inv'.found, perform_raises collisionFree inv', fun idle unreviewed answer known =>
    resumed_iff collisionFree inv' idle unreviewed known⟩

/-! ## A settlement before the review -/

def sampleReceiptRow (providerId : String) : Row :=
  { sampleRow with
    requestId := "request-1"
    request := { sampleRow.request with endpoint := "fal-ai/flux" }
    providerId := providerId }

def sampleBooks : Books Payload where
  ledger := Ledger.empty.after samplePolicy [sampleReserve]
  metrics := ⟨empty, []⟩
  verdict := none
  phase := .idle

def sampleClaim : Claim :=
  ⟨"request-1", "episode-1", "fal-ai/flux", "2026-07", 48000, false, .reserved, none, .falReadbackV2, "scope", unassigned,
    .test, none⟩

theorem sampleBooks_claim : sampleBooks.ledger.claims.find? "request-1" = some sampleClaim := by decide

theorem sampleBooks_opened (providerId : String) : Opened (sampleReceiptRow providerId) sampleBooks where
  complete := rfl
  named := show "request-1" ≠ "" by decide
  claimed := by
    refine ⟨sampleClaim, sampleBooks_claim, ⟨rfl, rfl, rfl, .inl rfl, ?_⟩, rfl⟩
    exact ⟨fun is => (by cases is), fun settled => absurd rfl settled⟩
  unobserved := fun observed listed => by cases listed
  idle := rfl
  unreviewed := rfl

theorem sample_reviewed :
    (resumed id samplePolicy (sampleReceiptRow "fal-1") "episode-1" "image" sampleBooks (.obj [])).verdict ≠ none := by
  obtain ⟨c, found, -, resumes⟩ := settlement_and_review_iff samplePolicy "episode-1" "image" Function.injective_id
    (sampleBooks_opened "fal-1") []
  obtain rfl : c = sampleClaim := some.inj (found.symm.trans sampleBooks_claim)
  refine (resumes rfl rfl (.obj []) (by simp)).mpr ⟨rfl, ⟨?_, ?_, ?_, ?_⟩, ?_⟩ <;> decide

def interruptedResume : List Action := [.start, .bind (.ok ()), .mark true, .project, .interrupt]

def settlement : Action := .ledger (.settleVerifiedReceipt none (sampleBody "fal-1") none)

theorem settlement_stops_review : (perform id samplePolicy (sampleReceiptRow "") "episode-1" "image"
        (after id samplePolicy (sampleReceiptRow "") "episode-1" "image" sampleBooks
          [.start, .bind (.ok ()), .mark true]) .project).2 =
      some (.value "provider operation id must be a bounded opaque identifier") ∧
    (perform id samplePolicy (sampleReceiptRow "fal-1") "episode-1" "image"
        (after id samplePolicy (sampleReceiptRow "fal-1") "episode-1" "image" sampleBooks
          (interruptedResume ++ [settlement, .start, .bind (.ok ())])) (.mark true)).2 =
      some (.denied "settled actual is immutable") ∧
    (perform id samplePolicy (sampleReceiptRow "fal-1") "episode-1" "image"
        (after id samplePolicy (sampleReceiptRow "fal-1") "episode-1" "image" sampleBooks
          (interruptedResume ++ [settlement])) .replay).2 = some conflictError := by
  decide +kernel

end VideoPoster.Autonomous.Telemetry
