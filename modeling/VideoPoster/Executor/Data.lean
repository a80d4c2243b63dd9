import VideoPoster.Budget.Guard
import VideoPoster.StandingBudget.Model

/-!
# `execution`: jobs, receipts and the objects around an executor
-/

namespace VideoPoster.Executor
open Python Billing Tables

inductive Category where
  | first | alternative | correction | thumbnail | hero | heroRetry
  | other (name : String)
  deriving DecidableEq

inductive InputKind where
  | textToImage | imageEdit
  | other (name : String)
  deriving DecidableEq

structure FrozenAsset where
  path : String
  sha256 : String
  reviewer : String
  mode : Mode
  deriving DecidableEq

structure Manifest where
  assets : List FrozenAsset
  sheet : FrozenAsset
  reviewer : String
  mode : Mode
  deriving DecidableEq

structure Job where
  scene : String
  category : Category
  mode : Mode
  endpoint : String
  payload : Dict
  manifest : Option Manifest
  cost : Decimal
  predecessor : String := ""
  inputKind : InputKind := .imageEdit
  deriving DecidableEq

structure Price where
  endpoint : String
  requestId : String
  amount : Decimal
  validUntil : ℚ
  evidence : String
  deriving DecidableEq

structure Authorization where
  requestId : String
  reviewer : String
  validUntil : ℚ
  maximumCost : Decimal
  deriving DecidableEq

inductive Status where
  | intent | prepared | submitting | submitted | complete | overrun
  deriving DecidableEq

structure SettlementBinding where
  localRequestId : String
  providerRequestId : String
  endpointId : String
  authScope : String
  authorityMode : Mode
  deriving DecidableEq

structure InputContract where
  inputKind : InputKind
  payloadSha256 : String
  deriving DecidableEq

structure BudgetAdmission where
  compositionTrustDigest : String
  requestId : String
  episodeId : String
  policySha256 : String
  provider : String
  operationId : String
  deriving DecidableEq

structure LedgerAdmission where
  localRequestId : String
  endpointId : String
  authScope : String
  authorityMode : Mode
  reservedUsd : Decimal
  authenticatedBudgetAdmission : BudgetAdmission
  deriving DecidableEq

inductive MarkerKind where
  | styleRemediation (qualificationSha256 : String)
  | finalAdmission (receiptPath receiptSha256 : String)
  deriving DecidableEq

structure FinalAdmissionMarker where
  kind : MarkerKind
  requestId : String
  endpoint : String
  payloadSha256 : String
  inputKind : InputKind
  authScope : String
  reservedUsd : String
  trustIdentity : String
  deriving DecidableEq

structure ReviewerIdentity where
  subject : String
  issuer : String
  deriving DecidableEq

structure Review where
  approved : Bool
  reviewer : String
  reviewerIdentity : ReviewerIdentity
  failureCode : Option String
  deriving DecidableEq

structure Row where
  requestId : String
  request : Job
  generation : Option ℕ
  owner : Option OwnerBinding
  authenticatedBudgetAdmission : Option BudgetAdmission
  inputContract : InputContract
  settlementBinding : SettlementBinding
  status : Status
  charged : ℚ
  providerId : String
  partialPath : String
  cacheKey : String
  result : Option String
  resultSha256 : Option String
  actualCost : Option ℚ
  cacheHit : Option Bool
  authorization : Option Authorization
  livePrice : Option Price
  review : Option Review
  standingLedgerAdmission : Option LedgerAdmission
  finalAdmissionMarker : Option FinalAdmissionMarker
  deriving DecidableEq

namespace Row

def scene (row : Row) : String := row.request.scene
def mode (row : Row) : Mode := row.request.mode
def category (row : Row) : Category := row.request.category
def predecessor (row : Row) : String := row.request.predecessor
def endpoint (row : Row) : String := row.request.endpoint

def qa (row : Row) : Option Bool := row.review.map Review.approved

def Unbound (row : Row) : Prop :=
  row.settlementBinding.providerRequestId = unassigned ∧ row.providerId = ""

instance (row : Row) : Decidable row.Unbound := inferInstanceAs (Decidable (_ ∧ _))

end Row

abbrev Jobs := Table Row.requestId

/-- What one database is opened with: the settings that `_initialize` persists and compares, and the
functions of the standard library that identify jobs and read paths. -/
structure Deployment where
  requestId : Job → String
  requestId_ne_empty : ∀ job, requestId job ≠ ""
  intentInputSha256 : Job → String
  resolve : String → String
  limit : ℚ
  priorSpend : ℚ
  concurrency : ℕ
  composition : Option String
  floats : Budget.FloatArithmetic
  policy : StandingBudget.Policy

/-- An `Executor` object. Objects that are compared with `is` are given by their identity. -/
structure Instance where
  identity : ℕ
  config : ℕ
  cas : Bool := false
  standingLedger : Option ℕ := none
  coordinator : Option ℕ := none
  ownerBinding : Option OwnerBinding := none
  /-- `_jaco_final_admission_verifier` is installed. -/
  jacoVerifier : Bool := false
  /-- The scope of the fixed production composition. -/
  jacoProductionScope : Option String := none

inductive SettlementCheckpoint where
  | none
  | capability (held : Capability)
  | coordinator
  /-- A plain callable; the one in use binds the ledger claim. -/
  | hook (bindsLedger : Bool)
  | object

/-- The object as the argument `_coordinator_capability`: nothing, or something that may be a
capability. -/
def SettlementCheckpoint.asCapability : SettlementCheckpoint → Option (Option Capability)
  | .none => Option.none
  | .capability held => some (some held)
  | _ => some Option.none

/-- A provider call as the executor sees it: it may report progress, and ends with a result or an
exception. It learns whether its report was accepted. -/
inductive ProviderRun where
  | done (path : String) (actualCost : Decimal)
  | fail (error : Error)
  | checkpoint (providerId partialPath : String) (next : Result Unit → ProviderRun)

inductive SnapshotStatus where
  | writerInProgress
  | current (receipt : Row) (claim : StandingBudget.Claim)
      (settlementReceipt : Option Dict)
  deriving DecidableEq

structure Snapshot where
  status : SnapshotStatus
  generation : ℕ
  requestId : String
  generatedAt : ℤ

end VideoPoster.Executor
