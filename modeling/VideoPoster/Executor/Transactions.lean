import VideoPoster.Executor.Data

/-!
# The transactions of the executor database

Each is one immediate SQLite transaction: a function from the table to the new table, or an exception and the old
table.
-/

namespace VideoPoster.Executor
open Python Billing Tables Category

abbrev Files := String → Result String

def verifyReceipt (files : Files) (row : Row) : Result Unit :=
  match row.result with
  | none => .error (.key "result")
  | some path => do
    let sha ← files path
    require (row.resultSha256 = some sha) (.value "receipt result hash mismatch")

structure Reservation where
  job : Job
  cost : ℚ
  cacheKey : String
  authScope : String
  authenticatedBudgetAdmission : Option BudgetAdmission
  generation : Option ℕ
  owner : Option OwnerBinding

def Category.capacity : Category → Result ℕ
  | .first => .ok 39
  | .alternative => .ok 39
  | .correction => .ok 10
  | .thumbnail => .ok 4
  | .hero => .ok 12
  | .heroRetry => .ok 3
  | .other _ => .error (.value "unknown capacity category")

def inMode (jobs : Jobs) (mode : Mode) : List Row := jobs.rows.filter fun row => row.mode = mode

theorem mem_inMode {jobs : Jobs} {mode : Mode} {row : Row} : row ∈ inMode jobs mode ↔ row ∈ jobs ∧ row.mode = mode := by
  simp [inMode, Table.mem_rows]

def predecessorOf (jobs : Jobs) (job : Job) : Option Row :=
  (inMode jobs job.mode).find? fun row => row.requestId = job.predecessor

def HeroPredecessor (job : Job) (previous : Row) : Prop :=
  previous.qa = some true ∧ previous.scene = job.scene ∧ previous.status = .complete ∧
    previous.category = .first

instance (job : Job) (previous : Row) : Decidable (HeroPredecessor job previous) :=
  inferInstanceAs (Decidable (_ ∧ _))

def admitHero (files : Files) (jobs : Jobs) (job : Job) : Result Unit :=
  match predecessorOf jobs job with
  | none => .error (.value "hero requires exact approved baseline predecessor")
  | some previous => do
    require (HeroPredecessor job previous)
      (.value "hero requires exact approved baseline predecessor")
    verifyReceipt files previous

def Category.retries : Category → List Category
  | .heroRetry => [.hero, .heroRetry]
  | _ => [.first, .alternative, .correction, .thumbnail]

def admitRetry (files : Files) (jobs : Jobs) (job : Job) : Result Unit :=
  match predecessorOf jobs job with
  | none => .error (.value "retry requires exact rejected QA predecessor")
  | some previous => do
    require (previous.qa = some false ∧ previous.scene = job.scene ∧ previous.status = .complete)
      (.value "retry requires exact rejected QA predecessor")
    verifyReceipt files previous
    require (previous.category ∈ job.category.retries ∧
        job.category ∈ [alternative, .correction, .heroRetry])
      (.value "QA retry category mismatch")
    require (∀ row ∈ inMode jobs job.mode, row.predecessor ≠ job.predecessor)
      (.value "QA predecessor already has a retry")

def admitLineage (files : Files) (jobs : Jobs) (job : Job) : Result Unit :=
  if job.category = .hero then admitHero files jobs job
  else if job.category ∈ [alternative, .correction, .heroRetry] ∨ job.predecessor ≠ "" then
    admitRetry files jobs job
  else pure ()

def spent (D : Deployment) (jobs : Jobs) (mode : Mode) : ℚ :=
  D.priorSpend + jobs.sum fun row => if row.mode = mode then row.charged else 0

def guardAction (D : Deployment) (spent cost : ℚ) : Budget.BudgetAction :=
  let F := D.floats
  Budget.approveJob { hardLimit := F.ofRat D.limit, warning := F.ofRat 5, spent := F.ofRat spent }
    (F.ofRat cost)

def Reservation.row (D : Deployment) (r : Reservation) : Row where
  requestId := D.requestId r.job
  request := r.job
  generation := r.generation
  owner := r.owner
  authenticatedBudgetAdmission := r.authenticatedBudgetAdmission
  inputContract := ⟨r.job.inputKind, D.intentInputSha256 r.job⟩
  settlementBinding := ⟨D.requestId r.job, unassigned, r.job.endpoint, r.authScope, r.job.mode⟩
  status := .intent
  charged := r.cost
  providerId := ""
  partialPath := ""
  cacheKey := r.cacheKey
  result := none
  resultSha256 := none
  actualCost := none
  cacheHit := none
  authorization := none
  livePrice := none
  review := none
  standingLedgerAdmission := none
  finalAdmissionMarker := none

def reserveRow (D : Deployment) (files : Files) (r : Reservation) (jobs : Jobs) :
    Result (Jobs × Bool) :=
  match jobs.find? (D.requestId r.job) with
  | some _ => pure (jobs, false)
  | none => do
    let rows := inMode jobs r.job.mode
    require (∀ row ∈ rows, row.status ≠ .overrun)
      (.runtime "budget overrun requires reconciliation")
    let capacity ← r.job.category.capacity
    require (r.job.category ∈ [first, .hero] →
        ∀ row ∈ rows, ¬ (row.scene = r.job.scene ∧ row.category = r.job.category))
      (.value "changed first pass requires rejected QA and retry reserve")
    admitLineage files jobs r.job
    require (rows.countP (fun row => row.category = r.job.category) < capacity)
      (.runtime "capacity reserve exhausted")
    require (spent D jobs r.job.mode + r.cost ≤ D.limit ∧
        guardAction D (spent D jobs r.job.mode) r.cost ≠ .waitingBudgetApproval)
      (.runtime "budget reservation blocked")
    pure (jobs.put (r.row D), true)

inductive Update where
  | prepared
  | submitting
  | cacheKey (key : String)
  | cacheHit (result sha key : String)
  | evidence (authorization : Option Authorization) (livePrice : Option Price)
  | partialPath (path : String)
  | overrun (result : String) (actual : ℚ)
  | complete (result sha : String) (actual : ℚ) (key : String)
  | finalAdmissionMarker (marker : FinalAdmissionMarker)
  deriving DecidableEq

def Update.apply : Update → Row → Row
  | .prepared, row => { row with status := .prepared }
  | .submitting, row => { row with status := .submitting }
  | .cacheKey key, row => { row with cacheKey := key }
  | .cacheHit result sha key, row =>
    { row with
      status := .complete, result := some result, resultSha256 := some sha, charged := 0
      actualCost := some 0, cacheKey := key, cacheHit := some true }
  | .evidence authorization livePrice, row =>
    { row with authorization := authorization, livePrice := livePrice }
  | .partialPath path, row => { row with partialPath := path }
  | .overrun result actual, row =>
    { row with
      status := .overrun, result := some result, charged := actual, actualCost := some actual }
  | .complete result sha actual key, row =>
    { row with
      status := .complete, result := some result, resultSha256 := some sha, charged := actual
      actualCost := some actual, cacheKey := key, cacheHit := some false }
  | .finalAdmissionMarker marker, row => { row with finalAdmissionMarker := some marker }

/-- Who may change a generation-pinned row: the coordinator's writer context, or the holder of the
coordinator's capability. -/
def guardPinned (E : Instance) (context : Option ℕ) (given : Option (Option Capability))
    (row : Row) : Result Unit :=
  match row.generation with
  | none => pure ()
  | some generation =>
    match given with
    | none => requireCoordinatorWrite context (some generation)
    | some capability => do
      require (E.ownerBinding = row.owner)
        (.permission "generation-pinned FAL owner does not match configured coordinator")
      requireCoordinatorCapability capability E.coordinator row.requestId E.identity
        E.standingLedger E.config row.owner

def changeRow (E : Instance) (context : Option ℕ) (given : Option (Option Capability))
    (requestId : String) (update : Update) (jobs : Jobs) : Result Jobs :=
  match jobs.find? requestId with
  | none => .error (.type "'NoneType' object is not subscriptable")
  | some row => do
    guardPinned E context given row
    pure (jobs.put (update.apply row))

def checkpointProviderBinding (D : Deployment) (context : Option ℕ)
    (requestId providerId partialPath : String) (generation : Option ℕ) (jobs : Jobs) :
    Result Jobs := do
  require (providerId ≠ "" ∧ providerId.length ≤ 512) (.value "provider request id is invalid")
  require (ValidGeneration generation)
    (.value "billing snapshot generation must be a positive integer")
  requireCoordinatorWrite context generation
  match jobs.find? requestId with
  | none => .error (.value "executor request does not exist")
  | some row => do
    require (row.generation = none ∨ generation ≠ none)
      (.permission "generation-pinned executor checkpoint requires coordinator capability")
    let binding := row.settlementBinding
    require (binding.localRequestId = requestId ∧ binding.endpointId = row.endpoint ∧
        binding.authorityMode = row.mode ∧ binding.authScope ≠ "")
      (.value "settlement binding intent is malformed")
    if binding.providerRequestId = providerId ∧ row.providerId = providerId then pure jobs
    else do
      require (binding.providerRequestId = unassigned ∧ row.providerId = "")
        (.value "provider request id is immutable")
      pure (jobs.put { row with
        settlementBinding := { binding with providerRequestId := providerId }
        providerId := providerId
        status := .submitted
        generation := generation.or row.generation
        partialPath := if partialPath = "" then row.partialPath else D.resolve partialPath })

def setBillingSnapshotGeneration (context : Option ℕ) (requestId : String) (generation : ℕ)
    (jobs : Jobs) : Result Jobs := do
  require (ValidGeneration (some generation))
    (.value "billing snapshot generation must be a positive integer")
  requireCoordinatorWrite context (some generation)
  match jobs.find? requestId with
  | none => .error (.value "executor request does not exist")
  | some row => pure (jobs.put { row with generation := some generation })

def bindAdmission (requestId : String) (binding : SettlementBinding) (admission : LedgerAdmission)
    (jobs : Jobs) : Result Jobs :=
  match jobs.find? requestId with
  | none => .error (.runtime "prepared executor intent changed during admission")
  | some row => do
    require (row.status = .prepared)
      (.runtime "prepared executor intent changed during admission")
    require (row.settlementBinding = binding)
      (.permission "prepared executor intent binding changed during admission")
    require (row.standingLedgerAdmission = none ∨ row.standingLedgerAdmission = some admission)
      (.permission "prepared executor admission marker is immutable")
    pure (jobs.put { row with standingLedgerAdmission := some admission })

structure QaArgs where
  requestId : String
  resultSha256 : String
  approved : Bool
  reviewer : String
  failureCode : Option String := none
  reviewerIdentity : Option ReviewerIdentity := none

def QaArgs.identity (args : QaArgs) : Option ReviewerIdentity :=
  if args.reviewerIdentity = none ∧ args.approved = false ∧ args.reviewer = "mock rejection" then
    some ⟨args.reviewer, "TEST"⟩
  else args.reviewerIdentity

def ReviewerIdentity.independent (identity : ReviewerIdentity) (reviewer : String) : Prop :=
  blank identity.subject = false ∧ blank identity.issuer = false ∧
    "generator" ∉ [casefold (strip reviewer), casefold (strip identity.subject),
      casefold (strip identity.issuer)]

instance (identity : ReviewerIdentity) (reviewer : String) :
    Decidable (identity.independent reviewer) := inferInstanceAs (Decidable (_ ∧ _))

def QaArgs.review (args : QaArgs) : Result Review :=
  match args.identity with
  | none => .error (.value "QA reviewer identity must bind an independent subject and issuer")
  | some identity => do
    require (identity.independent args.reviewer)
      (.value "QA reviewer identity must bind an independent subject and issuer")
    pure ⟨args.approved, args.reviewer, identity, args.failureCode⟩

def qaRow (files : Files) (context : Option ℕ) (args : QaArgs) (jobs : Jobs) : Result Jobs := do
  let review ← args.review
  match jobs.find? args.requestId with
  | none => .error (.value "QA must bind a completed receipt hash and reviewer")
  | some row => do
    requireCoordinatorWrite context row.generation
    require (row.status = .complete ∧ args.reviewer ≠ "" ∧
        row.resultSha256 = some args.resultSha256 ∧
        (args.approved = true → args.failureCode = none) ∧ args.failureCode ≠ some "")
      (.value "QA must bind a completed receipt hash and reviewer")
    verifyReceipt files row
    match row.review with
    | some recorded => do
      require (recorded = review)
        (.value "QA receipt is immutable; create a remediation successor")
      pure jobs
    | none => pure (jobs.put { row with review := some review })

end VideoPoster.Executor
