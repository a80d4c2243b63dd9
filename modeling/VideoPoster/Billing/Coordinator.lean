import VideoPoster.Executor.Intent

/-!
# `billing_snapshot`: the coordinator's operations
-/

namespace VideoPoster.Billing
open Python Tables Interleaving Executor Program

def withGeneration {α : Type} (body : ℕ → Program α) : Program α :=
  withSlot [.billing] do
    let generation ← readGeneration
    body (generation + 1)

def generatedAt : Program ℤ := do
  let time ← ask .clock
  ofResult (time.elim
    (.error (.snapshot "snapshot clock must be integer UTC seconds")) .ok)

def marker (requestId : String) (generation : ℕ) : Program Unit := do
  let time ← generatedAt
  publish ⟨.writerInProgress, generation, requestId, time⟩

def Coherent (requestId : String) (generation : ℕ) (receipt : Row) (claim : StandingBudget.Claim) :
    Prop :=
  receipt.generation = some generation ∧ claim.generation = some generation ∧
    receipt.settlementBinding.localRequestId = requestId ∧
    receipt.settlementBinding.endpointId = receipt.endpoint ∧
    receipt.settlementBinding.authorityMode = receipt.mode ∧
    claim.requestId = requestId ∧ claim.provider = receipt.endpoint ∧
    claim.authScope = receipt.settlementBinding.authScope ∧
    claim.providerRequestId = receipt.settlementBinding.providerRequestId

instance (requestId : String) (generation : ℕ) (receipt : Row) (claim : StandingBudget.Claim) :
    Decidable (Coherent requestId generation receipt claim) := inferInstanceAs (Decidable (_ ∧ _))

def current (requestId : String) (generation : ℕ) (settlementReceipt : Option Dict) :
    Program Unit := do
  let found ← inspect requestId
  let claim ← ledger (.claim requestId)
  let receipt ← ofResult (found.elim
    (.error (.snapshot "durable records are missing")) .ok)
  require (Coherent requestId generation receipt claim)
    (.snapshot "durable records are not coherently pinned")
  let time ← generatedAt
  publish ⟨.current receipt claim settlementReceipt, generation, requestId, time⟩

def prepareAndReserve (D : Deployment) (C : Coordinator) (job : Job) (episodeId : String)
    (experiment : Bool) : Program StandingBudget.Claim :=
  withGeneration fun generation => do
    marker (D.requestId job) generation
    let prepared ← prepareIntent D C.executor (some generation) job none (some generation)
      (some C.ownerBinding)
    let month ← ask .month
    let claim ← ledger (.reserve (some generation) month
      { requestId := D.requestId job
        episodeId := episodeId
        provider := job.endpoint
        quotedCapUsd := job.cost
        experiment := experiment
        settlementMode := .falReadbackV2
        authScope := prepared.settlementBinding.authScope
        providerRequestId := unassigned
        authorityMode := some job.mode
        generation := some generation })
    current (D.requestId job) generation none
    pure claim

def checkpointProviderBinding (requestId providerId partialPath : String) :
    Program StandingBudget.Claim :=
  withGeneration fun generation => do
    marker requestId generation
    bindProvider (some generation) requestId providerId partialPath (some generation)
    let claim ← ledger
      (.bindProviderRequestId (some generation) requestId providerId (some generation))
    current requestId generation none
    pure claim

def markUnknown (requestId : String) : Program StandingBudget.Claim :=
  withGeneration fun generation => do
    marker requestId generation
    pinGeneration (some generation) requestId generation
    let claim ← ledger (.markUnknown (some generation) requestId (some generation))
    current requestId generation none
    pure claim

def receiptRequestId (settlementReceipt : Dict) : Result String :=
  match StandingBudget.textField settlementReceipt "local_request_id" with
  | some requestId => do
    require (requestId ≠ "")
      (.snapshot "canonical settlement receipt request id is required")
    pure requestId
  | none => .error (.snapshot "canonical settlement receipt request id is required")

def settleVerifiedReceipt (body : String) (settlementReceipt : Dict) :
    Program StandingBudget.Claim := do
  let requestId ← ofResult (receiptRequestId settlementReceipt)
  withGeneration fun generation => do
    marker requestId generation
    pinGeneration (some generation) requestId generation
    let _ ← ledger (.settleVerifiedReceipt (some generation) body (some generation))
    -- a replay does not touch the claim, so the pin is set explicitly
    let claim ← ledger (.setBillingSnapshotGeneration (some generation) requestId generation)
    current requestId generation (some settlementReceipt)
    pure claim

end VideoPoster.Billing
