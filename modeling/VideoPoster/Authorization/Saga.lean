import VideoPoster.Billing.Admission
import VideoPoster.Executor.Resumption
import VideoPoster.Interleaving.Interruption

/-!
# `AuthenticatedBudgetBridge.admit_executor_intent`
-/

namespace VideoPoster.Authorization
open Python Billing Tables Interleaving Executor StandingBudget.ReserveArgs BudgetPolicy Option World StandingBudget.Ledger Update Table

def authorizationError (message : String) : Error := ⟨.other "BudgetAuthorizationError", message⟩

structure AuthenticatedBudgetBridge where
  policy : BudgetPolicy
  executors : List ℕ

def AuthenticatedBudgetBridge.Binds (B : AuthenticatedBudgetBridge) (policy : BudgetPolicy) : Prop :=
  { policy with mode := B.policy.mode } = B.policy

instance (B : AuthenticatedBudgetBridge) (policy : BudgetPolicy) : Decidable (B.Binds policy) :=
  inferInstanceAs (Decidable (_ = _))

def AuthenticatedBudgetBridge.authScope (B : AuthenticatedBudgetBridge) : String :=
  "AUTHENTICATED_TEST_REQUEST:" ++ B.policy.requestId

section Call
variable (D : Deployment) (E : Instance) (B : AuthenticatedBudgetBridge) (job : Job)

def loadPolicy : Program BudgetPolicy := do
  let answer ← Program.ask .policy
  let policy ← Program.ofResult answer
  Program.require (B.Binds policy) (authorizationError "authenticated policy binding changed")
  pure policy

def matchesAuthenticatedBudgetBridge : Program Bool :=
  match D.composition with
  | some trustDigest =>
    if E.identity ∈ B.executors then do
      let answer ← Program.ask .bridgeComposition
      let configured ← Program.ofResult answer
      pure (decide (configured = trustDigest))
    else pure false
  | none => pure false

def existingClaim : Program (Option StandingBudget.Claim) := do
  let answer ← Prog.attempt (Program.ledger (.claim (D.requestId job)))
  match answer with
  | .ok claim => pure (some claim)
  | .error error => if error.kind = .budgetDenied then pure none else .raise error

def completedClaim (claim : Option StandingBudget.Claim) : Program StandingBudget.Claim :=
  match claim with
  | some claim => do
    Program.require (claim.provider = job.endpoint ∧ claim.reservedUsd = job.cost.toRat)
      (authorizationError "completed executor intent lacks canonical bridge claim")
    pure claim
  | none => .raise (authorizationError "completed executor intent lacks canonical bridge claim")

def BindsJob (row : Row) : Prop :=
  row.settlementBinding.localRequestId = D.requestId job ∧
    row.settlementBinding.endpointId = job.endpoint ∧ row.settlementBinding.authScope = B.authScope ∧
    row.settlementBinding.authorityMode = job.mode ∧ row.settlementBinding.providerRequestId = unassigned

instance (row : Row) : Decidable (BindsJob D B job row) := inferInstanceAs (Decidable (_ ∧ _))

def reserveArgs : StandingBudget.ReserveArgs where
  requestId := D.requestId job
  episodeId := B.policy.episodeId
  provider := job.endpoint
  quotedCapUsd := job.cost
  settlementMode := .falReadbackV2
  authScope := B.authScope
  providerRequestId := unassigned
  authorityMode := some job.mode

def ClaimBindsJob (claim : StandingBudget.Claim) : Prop :=
  claim.requestId = D.requestId job ∧ claim.provider = job.endpoint ∧
    claim.reservedUsd = job.cost.toRat ∧ claim.state = .reserved ∧ claim.authScope = B.authScope ∧
    claim.authorityMode = job.mode

instance (claim : StandingBudget.Claim) : Decidable (ClaimBindsJob D B job claim) :=
  inferInstanceAs (Decidable (_ ∧ _))

def prepareAndAdmit : Program StandingBudget.Claim := do
  let prepared ← prepareIntent D E none job none none none
  Program.require (BindsJob D B job prepared)
    (authorizationError "executor intent binding is not durable or exact")
  let month ← Program.ask .month
  let claim ← Program.ledger (.reserve none month (reserveArgs D B job))
  Program.require (ClaimBindsJob D B job claim)
    (authorizationError "bridge claim does not bind executor intent")
  let admitted ← bindPreparedStandingLedgerAdmission D E none job
  Program.require (admitted.any fun row => row.status = .prepared)
    (authorizationError "executor admission marker was not persisted")
  pure claim

def admitClaimed (existing : Option StandingBudget.Claim) : Program StandingBudget.Claim :=
  match existing.filter fun claim => claim.state = .unknown with
  | some claim => pure claim
  | none => do
    let intent ← Program.inspect (D.requestId job)
    if intent.any fun row => row.status = .complete then completedClaim job existing
    else prepareAndAdmit D E B job

def admitExecutorIntent : Program StandingBudget.Claim := do
  let policy ← loadPolicy B
  Program.require (job.mode = .test ∧ job.endpoint ∈ policy.allowedProviders)
    (authorizationError "executor job is outside authenticated TEST policy")
  let configured ← matchesAuthenticatedBudgetBridge D E B
  Program.require (configured = true)
    (authorizationError "configured authenticated budget bridge executor is required")
  let existing ← existingClaim D job
  admitClaimed D E B job existing

end Call
/-! ## What returns -/

section Returns
variable {D : Deployment} {E : Instance} {B : AuthenticatedBudgetBridge} {job : Job} {oracle : Oracle} {pid : ℕ}
  {w w' : World}

abbrev EndsIn {α : Type} (D : Deployment) (oracle : Oracle) (pid : ℕ) (program : Program α) (w : World)
    (outcome : Except Error α) (w' : World) : Prop :=
  program.Ends (M := machine D) oracle pid w outcome w'

@[simp]
theorem ends_ask_iff {query : Query} {answer : query.Res} :
    EndsIn D oracle pid (Program.ask query) w (.ok answer) w' ↔ oracle.answer query = answer ∧ w' = w := by
  unfold EndsIn Program.ask
  rw [Prog.ends_act_iff]
  simp [exec, eq_comm, and_comm]

variable {requestId : String}

@[simp]
theorem ends_inspect_iff {found : Option Row} : EndsIn D oracle pid (Program.inspect requestId) w (.ok found) w' ↔
      w.jobs.find? requestId = found ∧ w' = w := by
  unfold EndsIn Program.inspect
  rw [Prog.ends_act_iff]
  simp [exec, eq_comm, and_comm]

@[simp]
theorem ends_ofResult_iff {α : Type} {result : Result α} {value : α} :
    EndsIn D oracle pid (Program.ofResult result) w (.ok value) w' ↔ result = .ok value ∧ w' = w := by
  unfold EndsIn Program.ofResult
  rw [Prog.ends_ofExcept_iff, eq_comm]

variable {u : Unit}

@[simp]
theorem ends_require_iff {condition : Prop} [Decidable condition] {error : Error} :
    EndsIn D oracle pid (Program.require condition error) w (.ok u) w' ↔ condition ∧ w' = w := by
  unfold Program.require
  simp

theorem ends_require_bind {α : Type} {condition : Prop} [Decidable condition] {error : Error} {next : Unit → Program α}
    {outcome : Except Error α} (holds : condition) (rest : EndsIn D oracle pid (next ()) w outcome w') :
    EndsIn D oracle pid ((Program.require condition error).bind next) w outcome w' :=
  .ofExcept_bind ((require_eq_ok (u := ())).mpr holds) rest

@[simp]
theorem ends_ledger_iff {op : StandingBudget.Op} {claim : StandingBudget.Claim} :
    EndsIn D oracle pid (Program.ledger op) w (.ok claim) w' ↔
      op.apply D.policy w.ledger = .ok (w'.ledger, claim) ∧ w' = { w with ledger := w'.ledger } := by
  unfold EndsIn Program.ledger
  rw [Prog.ends_request_iff]
  simp only [exec, step, id]
  cases applied : op.apply D.policy w.ledger with
  | error error => simp
  | ok done =>
    obtain ⟨ledger, claimed⟩ := done
    simp only [some.injEq, Prod.mk.injEq, Except.ok.injEq]
    constructor
    · rintro ⟨_, ⟨rfl, rfl⟩, same⟩
      cases same
      exact ⟨⟨rfl, rfl⟩, rfl⟩
    · rintro ⟨⟨rfl, rfl⟩, same⟩
      exact ⟨_, ⟨same.symm, rfl⟩, rfl⟩

variable {policy : BudgetPolicy}

theorem ends_loadPolicy_iff : EndsIn D oracle pid (loadPolicy B) w (.ok policy) w' ↔
      oracle.answer .policy = .ok policy ∧ B.Binds policy ∧ w' = w := by
  unfold loadPolicy
  simp [@ends_ask_iff D oracle pid _ _ .policy]

theorem ends_matches_iff : EndsIn D oracle pid (matchesAuthenticatedBudgetBridge D E B) w (.ok true)
    w' ↔ (∃ trustDigest, D.composition = some trustDigest ∧ oracle.answer .bridgeComposition = .ok trustDigest)
    ∧ E.identity ∈ B.executors ∧ w' = w := by
  unfold matchesAuthenticatedBudgetBridge
  cases D.composition with
  | none => simp
  | some trustDigest =>
    by_cases created : E.identity ∈ B.executors
    · simp [created, @ends_ask_iff D oracle pid _ _ .bridgeComposition]
    · simp [created]

theorem claim_found {l : StandingBudget.Ledger} {claim : StandingBudget.Claim}
    (named : requestId ≠ "") (found : l.claims.find? requestId = some claim) :
    StandingBudget.claim requestId l = .ok (l, claim) := by
  unfold StandingBudget.claim
  rw [require, if_pos named, found]
  rfl

theorem claim_absent {l : StandingBudget.Ledger} (named : requestId ≠ "") (absent : l.claims.find? requestId = none) :
    StandingBudget.claim requestId l = .error (.denied "reservation does not exist") := by
  unfold StandingBudget.claim
  rw [require, if_pos named, absent]
  rfl

theorem ends_claim {claim : StandingBudget.Claim} (found : w.ledger.claims.find? (D.requestId job) = some claim) :
    EndsIn D oracle pid (Program.ledger (.claim (D.requestId job))) w (.ok claim) w :=
  ends_ledger_iff.2 ⟨claim_found (D.requestId_ne_empty job) found, rfl⟩

theorem ends_no_claim (absent : w.ledger.claims.find? (D.requestId job) = none) :
    EndsIn D oracle pid (Program.ledger (.claim (D.requestId job))) w
      (.error (.denied "reservation does not exist")) w := by
  refine .request ?_
  simp only [exec, step, StandingBudget.Op.apply, claim_absent (D.requestId_ne_empty job) absent]

theorem ends_existing (w : World) :
    EndsIn D oracle pid (existingClaim D job) w (.ok (w.ledger.claims.find? (D.requestId job))) w := by
  cases found : w.ledger.claims.find? (D.requestId job) with
  | none => exact (ends_no_claim found).attempt.bind (.pure _)
  | some claim => exact (ends_claim found).attempt.bind (.pure _)

theorem outside_asks : (machine D).Outside Act.Asks := by
  intro oracle pid action asks
  cases action with
  | ask query => exact ⟨oracle.answer query, fun w => rfl⟩
  | _ => exact asks.elim

/-! ## The three rows of an intent -/

variable (D B job) in
def budgetAdmission : BudgetAdmission where
  compositionTrustDigest := D.composition.getD ""
  requestId := B.policy.requestId
  episodeId := B.policy.episodeId
  policySha256 := B.policy.policySha256
  provider := job.endpoint
  operationId := D.requestId job

variable (B job) in
/-- The policy that the outside answers with is the bridge's, and covers the job. -/
structure Covers (oracle : Oracle) (policy : BudgetPolicy) : Prop where
  answered : oracle.answer .policy = .ok policy
  binds : B.Binds policy

theorem Covers.same (covers : Covers B oracle policy) :
    policy.requestId = B.policy.requestId ∧ policy.episodeId = B.policy.episodeId ∧
      policy.policySha256 = B.policy.policySha256 ∧ policy.allowedProviders = B.policy.allowedProviders := by
  have same := covers.binds
  unfold AuthenticatedBudgetBridge.Binds at same
  exact ⟨(congrArg BudgetPolicy.requestId same :), (congrArg BudgetPolicy.episodeId same :),
    (congrArg policySha256 same :), (congrArg allowedProviders same :)⟩

theorem ends_configured_iff {trustDigest : String} {admission : Option BudgetAdmission} (covers : Covers B oracle
    policy) (composed : D.composition = some trustDigest) : EndsIn D oracle pid (configuredAuthenticatedBudgetBinding
    D job) w (.ok admission) w' ↔ job.mode = .test ∧ oracle.answer .bridgeComposition = .ok trustDigest ∧ policy.mode =
    .test ∧ job.endpoint ∈ B.policy.allowedProviders ∧ admission = some (budgetAdmission D B job) ∧ w' = w := by
  obtain ⟨request, episode, sha, providers⟩ := covers.same
  unfold configuredAuthenticatedBudgetBinding budgetAdmission
  rw [composed, ← request, ← episode, ← sha, ← providers]
  simp [@ends_ask_iff D oracle pid _ _ .policy, @ends_ask_iff D oracle pid _ _ .bridgeComposition, covers.answered]
  tauto

variable {fresh : Bool}

theorem ends_reserve_iff {reservation : Reservation} :
    EndsIn D oracle pid (Program.reserve reservation) w (.ok fresh) w' ↔
      reserveRow D (fun path => oracle.answer (.fileSha path)) reservation w.jobs = .ok (w'.jobs, fresh) ∧
        w' = { w with jobs := w'.jobs } := by
  unfold EndsIn Program.reserve
  rw [Prog.ends_request_iff]
  simp only [exec, id]
  cases reserved : reserveRow D (fun path => oracle.answer (.fileSha path)) reservation w.jobs with
  | error error => simp [commitReserve]
  | ok done =>
    obtain ⟨jobs, inserted⟩ := done
    simp only [commitReserve, some.injEq, Prod.mk.injEq, Except.ok.injEq]
    constructor
    · rintro ⟨_, ⟨rfl, rfl⟩, same⟩
      cases same
      exact ⟨⟨rfl, rfl⟩, rfl⟩
    · rintro ⟨⟨rfl, rfl⟩, same⟩
      exact ⟨_, ⟨same.symm, rfl⟩, rfl⟩

theorem ends_change_iff {update : Update} :
    EndsIn D oracle pid (Program.change E none none requestId update) w (.ok u) w' ↔
      changeRow E none none requestId update w.jobs = .ok w'.jobs ∧ w' = { w with jobs := w'.jobs } := by
  unfold EndsIn Program.change
  rw [Prog.ends_request_iff]
  simp only [exec, id]
  cases changed : changeRow E none none requestId update w.jobs with
  | error error => simp [commit]
  | ok jobs =>
    simp only [commit, some.injEq, Prod.mk.injEq, Except.ok.injEq]
    constructor
    · rintro ⟨_, ⟨rfl, rfl⟩, -⟩
      exact ⟨rfl, rfl⟩
    · rintro ⟨rfl, same⟩
      exact ⟨_, ⟨same.symm, rfl⟩, rfl⟩

variable (B job) in
def reservation (D : Deployment) : Reservation :=
  ⟨job, job.cost.toRat, "", B.authScope, some (budgetAdmission D B job), none, none⟩

inductive Stage where
  | intent | prepared | admitted
  deriving DecidableEq

variable (D B job) in
def admissionMarker : LedgerAdmission :=
  ledgerAdmission D job ((reservation B job D).row D) (budgetAdmission D B job)

variable (D B job) in
def Stage.row : Stage → Row
  | .intent => (reservation B job D).row D
  | .prepared => { (reservation B job D).row D with status := .prepared }
  | .admitted =>
    { (reservation B job D).row D with
      status := .prepared, standingLedgerAdmission := some (admissionMarker D B job) }

section Rows
variable (stage : Stage)

@[simp] theorem Stage.row_requestId : (stage.row D B job).requestId = D.requestId job := by cases stage <;> rfl

@[simp] theorem Stage.row_generation : (stage.row D B job).generation = none := by cases stage <;> rfl

@[simp]
theorem Stage.row_binding : (stage.row D B job).settlementBinding =
    ⟨D.requestId job, unassigned, job.endpoint, B.authScope, job.mode⟩ := by
  cases stage <;> rfl

@[simp]
theorem Stage.row_contract : (stage.row D B job).inputContract = ⟨job.inputKind, D.intentInputSha256 job⟩ := by
  cases stage <;> rfl

@[simp] theorem Stage.row_marker : (stage.row D B job).finalAdmissionMarker = none := by cases stage <;> rfl

@[simp]
theorem Stage.row_admission : (stage.row D B job).authenticatedBudgetAdmission = some (budgetAdmission D B job) := by
  cases stage <;> rfl

end Rows

/-! ## The parts of the call -/

structure Authority (D : Deployment) (E : Instance) (B : AuthenticatedBudgetBridge) (job : Job) (oracle : Oracle)
    (pid : ℕ) : Prop where
  mode : job.mode = .test
  created : E.identity ∈ B.executors
  composed : ∃ trustDigest, D.composition = some trustDigest ∧
    oracle.answer .bridgeComposition = .ok trustDigest
  covers : ∃ policy, Covers B oracle policy ∧ policy.mode = .test
  allowed : job.endpoint ∈ B.policy.allowedProviders
  valid : validateJob job = .ok ()
  contract : ∀ w, EndsIn D oracle pid (validateInputContract job) w (.ok ()) w
  scope : settlementScope job (some B.authScope) = .ok B.authScope

theorem intentScope_eq (admission : BudgetAdmission) :
    intentScope E job none (some admission) = .ok ("AUTHENTICATED_TEST_REQUEST:" ++ admission.requestId) := rfl

theorem subscript_ok {α : Type} {found : Option α} {value : α} (ok : subscript found = .ok value) :
    found = some value := by
  cases found with
  | none => cases ok
  | some _ =>
    cases ok
    rfl

theorem settlementScope_ok {scope scope' : String} (ok : settlementScope job (some scope) = .ok scope') :
    scope' = scope := by
  unfold settlementScope at ok
  simp only [bind_eq_ok, require_eq_ok, exists_const, pure_eq_ok, getD_some] at ok
  exact ok.2.2.symm

theorem reserve_ok (ends : EndsIn D oracle pid (reserve none job job.cost.toRat "" (some B.authScope)
      (some (budgetAdmission D B job)) none none) w (.ok fresh) w') :
    (∀ w, EndsIn D oracle pid (validateInputContract job) w (.ok ()) w) ∧
      settlementScope job (some B.authScope) = .ok B.authScope ∧
      reserveRow D (fun path => oracle.answer (.fileSha path)) (reservation B job D) w.jobs = .ok (w'.jobs, fresh) ∧
      w' = { w with jobs := w'.jobs } := by
  unfold reserve at ends
  simp only [Prog.bind_eq, Prog.ends_bind_iff, ends_require_iff, ends_ofResult_iff, ends_reserve_iff] at ends
  obtain ⟨_, _, ⟨-, rfl⟩, _, _, ⟨-, rfl⟩, _, _, ⟨-, rfl⟩, _, _, ⟨-, rfl⟩, _, _, contract, scope', _, ⟨settled, rfl⟩,
    reserved, kept⟩ := ends
  obtain ⟨rfl, -⟩ := contract.anywhere outside_asks (asks_validateInputContract job) w'
  obtain rfl := settlementScope_ok settled
  exact ⟨fun w => (contract.anywhere outside_asks (asks_validateInputContract job) w).2, settled, reserved, kept⟩

theorem ends_markPrepared {stage : Stage} (found : w.jobs.find? (D.requestId job) = some (stage.row D B job)) :
    EndsIn D oracle pid (markPrepared D E none job) w
      (.ok (some (prepared.apply (stage.row D B job))))
      { w with jobs := w.jobs.put (prepared.apply (stage.row D B job)) } := by
  have changed := changeRow_eq .prepared found (@guardPinned_unpinned E none _ stage.row_generation)
  have put := find?_put_self w.jobs (prepared.apply (stage.row D B job))
  rw [apply_requestId, stage.row_requestId] at put
  unfold markPrepared
  exact .bind ((ends_change_iff (u := ())).mpr ⟨changed, rfl⟩) (ends_inspect_iff.2 ⟨put, rfl⟩)

variable {row : Row}

theorem prepareIntent_ok {trustDigest : String}
    (covers : Covers B oracle policy) (composed : D.composition = some trustDigest)
    (ends : EndsIn D oracle pid (prepareIntent D E none job none none none) w (.ok row) w') :
    (job.mode = .test ∧ oracle.answer .bridgeComposition = .ok trustDigest ∧ policy.mode = .test ∧
      job.endpoint ∈ B.policy.allowedProviders ∧ validateJob job = .ok () ∧
      (∀ w, EndsIn D oracle pid (validateInputContract job) w (.ok ()) w) ∧
      settlementScope job (some B.authScope) = .ok B.authScope) ∧
    (w.jobs.find? (D.requestId job) = some row ∧ w' = w ∨ w.jobs.find? (D.requestId job) = none ∧
        reserveRow D (fun path => oracle.answer (.fileSha path)) (reservation B job D) w.jobs =
          .ok (w.jobs.put (Stage.intent.row D B job), true) ∧
        row = Stage.prepared.row D B job ∧ w' = { w with jobs := w.jobs.put (Stage.prepared.row D B job) }) := by
  unfold prepareIntent at ends
  simp only [Prog.bind_eq, Prog.pure_eq, Prog.ends_bind_iff, ends_require_iff, ends_ofResult_iff,
    ends_configured_iff covers composed, ends_inspect_iff, Prog.ends_pure_iff] at ends
  obtain ⟨_, _, ⟨-, rfl⟩, _, w, ⟨valid, rfl⟩, _, _, contract, admission, _,
    ⟨test, configured, policyTest, allowed, rfl, rfl⟩, scope, _, ⟨bound, rfl⟩, fresh, _, reserved, existing, w₁,
    ⟨rfl, rfl⟩, found, _, back, row', _, ⟨there, rfl⟩, _, _, ⟨-, rfl⟩, same, rfl⟩ := ends
  cases same
  cases bound.symm.trans (intentScope_eq _)
  obtain ⟨anywhere, settled, stored, kept⟩ := reserve_ok (B := B) reserved
  obtain ⟨rfl, -⟩ := contract.anywhere outside_asks (asks_validateInputContract job) w'
  refine ⟨⟨test, configured, policyTest, allowed, valid, anywhere, settled⟩, ?_⟩
  rcases reserveRow_ok stored with ⟨rfl, unchanged, present⟩ | ⟨rfl, admitted, put⟩
  · obtain ⟨same, rfl⟩ := Prog.ends_pure_iff.mp back
    cases same
    rw [unchanged] at kept there
    rw [kept]
    exact .inl ⟨subscript_ok there, rfl⟩
  · have inserted : w₁.jobs.find? (D.requestId job) = some (Stage.intent.row D B job) := by
      rw [put]
      exact find?_put_self _ _
    obtain ⟨same, rfl⟩ := back.unique (@ends_markPrepared D E B job oracle pid w₁ .intent inserted)
    cases same
    cases there
    refine .inr ⟨admitted.absent, by rw [stored, put]; rfl, rfl, ?_⟩
    rw [kept, put, put_put]
    · rfl
    · rfl

section Authorized
variable (authority : Authority D E B job oracle pid)
include authority

theorem ends_reserve {jobs : Jobs}
    (stored : reserveRow D (fun path => oracle.answer (.fileSha path)) (reservation B job D) w.jobs =
      .ok (jobs, fresh)) :
    EndsIn D oracle pid (reserve none job job.cost.toRat "" (some B.authScope) (some (budgetAdmission D B job))
      none none) w (.ok fresh) { w with jobs := jobs } := by
  unfold reserve
  refine ends_require_bind (by simp [ValidGeneration]) (ends_require_bind (by simp)
    (ends_require_bind (fun _ => rfl) ?_))
  refine .ofExcept_bind ((requireCoordinatorWrite_eq_ok (u := ())).mpr (.inl rfl)) ?_
  refine (authority.contract w).bind (.ofExcept_bind authority.scope ?_)
  exact ends_reserve_iff.2 ⟨stored, rfl⟩

theorem ends_configured : EndsIn D oracle pid (configuredAuthenticatedBudgetBinding D job) w
    (.ok (some (budgetAdmission D B job))) w := by
  obtain ⟨policy, covers, test⟩ := authority.covers
  obtain ⟨trustDigest, composed, configured⟩ := authority.composed
  exact (ends_configured_iff covers composed).mpr ⟨authority.mode, configured, test, authority.allowed, rfl, rfl⟩

theorem ends_prepareIntent {jobs : Jobs}
    (stored : reserveRow D (fun path => oracle.answer (.fileSha path)) (reservation B job D) w.jobs = .ok (jobs, fresh))
    (read : EndsIn D oracle pid (readBack D E none job fresh (jobs.find? (D.requestId job))) { w with jobs := jobs }
      (.ok (some row)) w')
    (runnable : row.status ∈ [Status.prepared, .intent, .complete]) :
    EndsIn D oracle pid (prepareIntent D E none job none none none) w (.ok row) w' := by
  unfold prepareIntent
  refine ends_require_bind (.inl authority.mode) (.ofExcept_bind authority.valid ?_)
  refine (authority.contract w).bind ((ends_configured authority).bind ?_)
  refine .ofExcept_bind (intentScope_eq _) ((ends_reserve authority stored).bind ?_)
  refine .bind (ends_inspect_iff.2 ⟨rfl, rfl⟩) (read.bind ?_)
  exact .ofExcept_bind (rfl : subscript (some row) = .ok row) (ends_require_bind runnable (.pure row))

structure Claims (D : Deployment) (B : AuthenticatedBudgetBridge) (job : Job) (claim : StandingBudget.Claim) :
    Prop where
  made : ∃ cap month, claim = (reserveArgs D B job).toClaim cap month job.mode
  reserved : claim.reservedUsd = job.cost.toRat

structure Intends (D : Deployment) (B : AuthenticatedBudgetBridge) (job : Job) (row : Row) : Prop where
  binding : row.settlementBinding = ⟨D.requestId job, unassigned, job.endpoint, B.authScope, job.mode⟩
  contract : row.inputContract = ⟨job.inputKind, D.intentInputSha256 job⟩
  admission : row.authenticatedBudgetAdmission = some (budgetAdmission D B job)

omit authority in
theorem Stage.intends (stage : Stage) : Intends D B job (stage.row D B job) :=
  ⟨stage.row_binding, stage.row_contract, stage.row_admission⟩

omit authority in
theorem Intends.marker (intends : Intends D B job row) :
    ledgerAdmission D job row (budgetAdmission D B job) = admissionMarker D B job := by
  unfold admissionMarker ledgerAdmission
  rw [intends.binding]
  rfl

theorem ends_freshAdmission (intends : Intends D B job row) :
    EndsIn D oracle pid (freshAuthenticatedBudgetAdmission D job row) w (.ok (some (budgetAdmission D B job))) w := by
  unfold freshAuthenticatedBudgetAdmission
  rw [intends.admission]
  exact (ends_configured authority).bind (ends_require_bind rfl (.pure _))

theorem ends_verify {claim : StandingBudget.Claim} {requireMarker : Bool} (configured : E.standingLedger ≠ none)
    (plain : job.endpoint ≠ flux3Endpoint) (found : w.ledger.claims.find? (D.requestId job) = some claim)
    (claims : Claims D B job claim) (intends : Intends D B job row)
    (marked : requireMarker = true → row.standingLedgerAdmission = some (admissionMarker D B job)) :
    EndsIn D oracle pid (verifyPreparedFalAdmission D E job row requireMarker) w (.ok ()) w := by
  obtain ⟨⟨cap, month, rfl⟩, reserved⟩ := claims
  unfold verifyPreparedFalAdmission admittedClaim verifyFinalAdmission
  refine ends_require_bind configured (ends_require_bind ?_ (ends_require_bind intends.contract ?_))
  · simp [Row.BindsIntent, intends.binding]
  refine .bind ((ends_claim found).attempt.bind (.pure _)) (ends_require_bind ?_ (ends_require_bind reserved ?_))
  · simp [ClaimBindsIntent, toClaim, reserveArgs, intends.binding]
  rw [if_neg plain]
  refine .bind (.pure false) ((ends_freshAdmission authority intends).bind ?_)
  refine (ends_require_iff (u := ())).mpr ⟨fun required => ?_, rfl⟩
  rw [intends.marker]
  exact marked required

theorem ends_bindAdmission {stage : Stage} {claim : StandingBudget.Claim}
    (configured : E.standingLedger ≠ none) (plain : job.endpoint ≠ flux3Endpoint)
    (found : w.ledger.claims.find? (D.requestId job) = some claim) (claims : Claims D B job claim)
    (there : w.jobs.find? (D.requestId job) = some (stage.row D B job)) (past : stage ≠ .intent) :
    EndsIn D oracle pid (bindPreparedStandingLedgerAdmission D E none job) w
      (.ok (some (Stage.admitted.row D B job)))
      { w with jobs := w.jobs.put (Stage.admitted.row D B job) } := by
  have prepared : (stage.row D B job).status = .prepared := by
    cases stage with
    | intent => exact absurd rfl past
    | prepared => rfl
    | admitted => rfl
  have marked : Executor.bindAdmission (D.requestId job) (stage.row D B job).settlementBinding
      (admissionMarker D B job) w.jobs = .ok (w.jobs.put (Stage.admitted.row D B job)) := by
    unfold Executor.bindAdmission
    rw [there]
    cases stage with
    | intent => exact absurd rfl past
    | prepared => simp [require, Stage.row, Reservation.row]
    | admitted => simp [require, Stage.row]
  have written : EndsIn D oracle pid (Program.bindAdmission (D.requestId job)
      (stage.row D B job).settlementBinding (admissionMarker D B job)) w (.ok ())
      { w with jobs := w.jobs.put (Stage.admitted.row D B job) } :=
    .request (by simp only [exec, marked, commit])
  have put := find?_put_self w.jobs (Stage.admitted.row D B job)
  rw [Stage.row_requestId] at put
  unfold bindPreparedStandingLedgerAdmission
  refine .bind (ends_inspect_iff.2 ⟨rfl, rfl⟩) ?_
  rw [there]
  have owned := (@requireCoordinatorWrite_eq_ok none _ ()).mpr (.inl (@Stage.row_generation D B job stage))
  refine .ofExcept_bind rfl (ends_require_bind prepared (.ofExcept_bind owned ?_))
  refine (ends_verify authority configured plain found claims stage.intends (by simp)).bind
    ((ends_freshAdmission authority stage.intends).bind (.ofExcept_bind rfl ?_))
  rw [stage.intends.marker]
  exact written.bind (ends_inspect_iff.2 ⟨put, rfl⟩)

end Authorized

/-! ## What a returning call says -/

theorem admit_ok {claim : StandingBudget.Claim}
    (ends : EndsIn D oracle pid (admitExecutorIntent D E B job) w (.ok claim) w') :
    ∃ policy trustDigest, Covers B oracle policy ∧ D.composition = some trustDigest ∧ E.identity ∈ B.executors ∧
      EndsIn D oracle pid (admitClaimed D E B job (w.ledger.claims.find? (D.requestId job))) w (.ok claim) w' := by
  unfold admitExecutorIntent at ends
  simp only [Prog.bind_eq, Prog.ends_bind_iff, ends_loadPolicy_iff, ends_require_iff] at ends
  obtain ⟨policy, _, ⟨answered, binds, rfl⟩, _, _, ⟨-, rfl⟩, configured, _, checked, _, w, ⟨rfl, rfl⟩, existing, _,
    read, rest⟩ := ends
  obtain ⟨⟨trustDigest, composed, -⟩, created, rfl⟩ := ends_matches_iff.1 checked
  obtain ⟨same, rfl⟩ := read.unique (ends_existing _)
  cases same
  exact ⟨policy, trustDigest, ⟨answered, binds⟩, composed, created, rest⟩

theorem admitClaimed_ok {existing : Option StandingBudget.Claim} {claim : StandingBudget.Claim}
    (known : ∀ c ∈ existing, c.state ≠ .unknown) (unfinished : ∀ row ∈ w.jobs.find? (D.requestId job),
    row.status ≠ .complete) (ends : EndsIn D oracle pid (admitClaimed D E B job existing) w (.ok claim) w') :
    EndsIn D oracle pid (prepareAndAdmit D E B job) w (.ok claim) w' := by
  have none : existing.filter (fun claim => claim.state = .unknown) = none := by
    rw [filter_eq_none_iff]
    simpa using known
  unfold admitClaimed at ends
  rw [none] at ends
  simp only [Prog.bind_eq, Prog.ends_bind_iff, ends_inspect_iff] at ends
  obtain ⟨_, w, ⟨rfl, rfl⟩, rest⟩ := ends
  rw [if_neg] at rest
  · exact rest
  · cases found : w.jobs.find? (D.requestId job) with
    | none => simp
    | some row => simpa using unfinished row found

theorem prepareAndAdmit_ok {claim : StandingBudget.Claim}
    (ends : EndsIn D oracle pid (prepareAndAdmit D E B job) w (.ok claim) w') :
    ∃ row w₁ w₂, EndsIn D oracle pid (prepareIntent D E none job none none none) w (.ok row) w₁ ∧
      StandingBudget.reserve D.policy none (oracle.answer .month) (reserveArgs D B job) w₁.ledger =
        .ok (w₂.ledger, claim) ∧ w₂ = { w₁ with ledger := w₂.ledger } ∧ ClaimBindsJob D B job claim ∧
      ∃ admitted, EndsIn D oracle pid (bindPreparedStandingLedgerAdmission D E none job) w₂ (.ok admitted) w' := by
  unfold prepareAndAdmit at ends
  simp only [Prog.bind_eq, Prog.pure_eq, Prog.ends_bind_iff, ends_require_iff, ends_ledger_iff, Prog.ends_pure_iff,
    @ends_ask_iff D oracle pid _ _ .month] at ends
  obtain ⟨row, w₁, prepared, _, _, ⟨-, rfl⟩, _, _, ⟨rfl, rfl⟩, claimed, w₂, ⟨reserved, kept⟩, _, _, ⟨binds, rfl⟩,
    admitted, _, marked, _, _, ⟨-, rfl⟩, same, rfl⟩ := ends
  cases same
  exact ⟨row, _, _, prepared, reserved, kept, binds, admitted, marked⟩

theorem bindPrepared_ok {found : Option Row} (ends : EndsIn D oracle pid (bindPreparedStandingLedgerAdmission
    D E none job) w (.ok found) w') : ∃ row, w.jobs.find? (D.requestId job) = some row ∧ row.status =
    .prepared ∧ ∃ w₁, EndsIn D oracle pid (verifyPreparedFalAdmission D E job row false) w (.ok ()) w₁ := by
  unfold bindPreparedStandingLedgerAdmission at ends
  simp only [Prog.bind_eq, Prog.ends_bind_iff, ends_require_iff, ends_ofResult_iff, ends_inspect_iff] at ends
  obtain ⟨_, _, ⟨rfl, rfl⟩, row, _, ⟨there, rfl⟩, _, _, ⟨prepared, rfl⟩, _, w, ⟨-, rfl⟩, _, _, verified, -⟩ := ends
  refine ⟨row, ?_, prepared, _, verified⟩
  revert there
  cases w.jobs.find? (D.requestId job) with
  | none => simp
  | some _ => simp

theorem verify_ok {requireMarker : Bool} (unmarked : row.finalAdmissionMarker = none)
    (ends : EndsIn D oracle pid (verifyPreparedFalAdmission D E job row requireMarker) w (.ok u) w') :
    E.standingLedger ≠ none ∧ job.endpoint ≠ flux3Endpoint := by
  unfold verifyPreparedFalAdmission verifyFinalAdmission at ends
  simp only [Prog.bind_eq, Prog.ends_bind_iff, ends_require_iff] at ends
  obtain ⟨_, _, ⟨configured, rfl⟩, _, _, ⟨-, rfl⟩, _, _, ⟨-, rfl⟩, claim, _, -, _, _, ⟨-, rfl⟩, _, _, ⟨-, rfl⟩,
    jaco, _, final, -⟩ := ends
  refine ⟨configured, fun fixed => ?_⟩
  rw [if_pos fixed, unmarked] at final
  obtain ⟨_, _, refused, -⟩ := Prog.ends_bind_iff.mp final
  cases (ends_ofResult_iff.1 refused).1

/-! ## The ledger -/

section Ledger
variable {P : StandingBudget.Policy} {month : Result String} {l l' : StandingBudget.Ledger}
  {claim : StandingBudget.Claim}

def claimed (l : StandingBudget.Ledger) (claim : StandingBudget.Claim) : StandingBudget.Ledger :=
  { l with claims := l.claims.put claim }

variable (D B job) in
def Reserves (claim : StandingBudget.Claim) : Prop :=
  ∃ cap recorded, StandingBudget.units job.cost = .ok cap ∧
    claim = (reserveArgs D B job).toClaim cap recorded job.mode

theorem Reserves.named (reserves : Reserves D B job claim) : claim.requestId = D.requestId job := by
  obtain ⟨cap, recorded, -, rfl⟩ := reserves
  rfl

theorem ledgerReserve_new (absent : l.claims.find? (D.requestId job) = none) (applied : StandingBudget.reserve
    P none month (reserveArgs D B job) l = .ok (l', claim)) : Reserves D B job claim ∧ l' = claimed l claim := by
  simp only [StandingBudget.reserve, StandingBudget.requireGeneration, StandingBudget.denyContext, bind_eq_ok,
    require_eq_ok, exists_const] at applied
  obtain ⟨-, -, -, -, -, -, -, -, cap, counted, recorded, -, applied⟩ := applied
  rw [show (reserveArgs D B job).requestId = D.requestId job from rfl, absent] at applied
  simp only [bind_eq_ok, require_eq_ok, exists_const, pure_eq_ok, Prod.mk.injEq] at applied
  obtain ⟨-, -, -, -, rfl, rfl⟩ := applied
  exact ⟨⟨cap, recorded, counted, rfl⟩, rfl⟩

theorem ledgerReserve_again {before after : StandingBudget.Ledger} {first : StandingBudget.Claim}
    (accepted : StandingBudget.reserve P none month (reserveArgs D B job) before = .ok (after, first))
    (found : l.claims.find? (D.requestId job) = some claim) (reserves : Reserves D B job claim) :
    StandingBudget.reserve P none month (reserveArgs D B job) l = .ok (l, claim) := by
  obtain ⟨cap, recorded, counted, rfl⟩ := reserves
  simp only [StandingBudget.reserve, StandingBudget.requireGeneration, StandingBudget.denyContext, bind_eq_ok,
    require_eq_ok, exists_const] at accepted ⊢
  obtain ⟨named, generation, context, mode, scope, provider, authority, legacy, cap', counted', recorded', known, -⟩ :=
    accepted
  refine ⟨named, generation, context, mode, scope, provider, authority, legacy, cap', counted', recorded', known, ?_⟩
  cases counted.symm.trans counted'
  rw [show (reserveArgs D B job).requestId = D.requestId job from rfl, found]
  refine bind_eq_ok.mpr ⟨(), require_eq_ok.mpr ?_, rfl⟩
  simp [StandingBudget.ReserveArgs.matches, StandingBudget.ReserveArgs.toClaim, reserveArgs,
    resolvedMode]

end Ledger

end Returns
end VideoPoster.Authorization
