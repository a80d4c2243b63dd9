import VideoPoster.Executor.System

/-!
# Intents: validation, reservation and admission
-/

namespace VideoPoster.Executor
open Python Billing Tables Interleaving Program

namespace Program

def fileSha (path : String) : Program String := do
  let answer ← ask (.fileSha path)
  ofResult answer

end Program

def FrozenAsset.verify (asset : FrozenAsset) (mode : Mode) : Program Unit := do
  require (asset.mode = mode ∧ mode.Explicit) (.value "asset mode mismatch")
  require (asset.reviewer ≠ "") (.value "approved asset hash mismatch")
  let sha ← fileSha asset.path
  require (sha = asset.sha256) (.value "approved asset hash mismatch")

def verifyAssets (mode : Mode) : List FrozenAsset → Program Unit
  | [] => pure ()
  | asset :: rest => do
    asset.verify mode
    verifyAssets mode rest

def Manifest.verify (manifest : Manifest) (mode : Mode) : Program Unit := do
  require (mode = manifest.mode ∧ manifest.reviewer ≠ "" ∧ manifest.assets ≠ [])
    (.value "manifest mode/reviewer/assets required")
  verifyAssets mode (manifest.assets ++ [manifest.sheet])
  let answer ← ask (.sheetBinding manifest.sheet.path)
  let binding ← ofResult answer
  require (binding = (manifest.assets.map FrozenAsset.sha256, manifest.sheet.sha256))
    (.value "contact sheet hash binding mismatch")

def referenceKeys : List String :=
  ["image_urls", "reference_image", "reference_images", "image_hash"]

def hasPrompt (payload : Dict) : Bool :=
  match payload.get "prompt" with
  | some (.str prompt) => !blank prompt
  | _ => false

def validateTextContract (job : Job) : Result Unit := do
  require (job.manifest = none) (.value "TEXT_TO_IMAGE must not carry reference inputs")
  require (hasPrompt job.payload = true)
    (.value "TEXT_TO_IMAGE requires an explicit prompt payload")
  require (∀ key ∈ referenceKeys, job.payload.hasKey key = false)
    (.value "TEXT_TO_IMAGE must not carry reference inputs")

def validateInputContract (job : Job) : Program Unit :=
  match job.inputKind, job.manifest with
  | .textToImage, _ => ofResult (validateTextContract job)
  | .imageEdit, some manifest => manifest.verify job.mode
  | .imageEdit, none => .raise (.value "IMAGE_EDIT requires a verified reference manifest")
  | .other _, _ => .raise (.value "closed input kind required")

def settlementScope (job : Job) (authScope : Option String) : Result String := do
  require (authScope ≠ none ∨ job.mode = .test)
    (.permission "LIVE settlement binding requires authorization scope")
  let scope := authScope.getD "TEST_LOCAL_ONLY"
  require (scope ≠ "" ∧ scope.length ≤ 512) (.value "settlement authorization scope is invalid")
  pure scope

def reserve (context : Option ℕ) (job : Job) (reservationCost : ℚ) (cacheKey : String)
    (authScope : Option String) (admission : Option BudgetAdmission) (generation : Option ℕ)
    (owner : Option OwnerBinding) : Program Bool := do
  require (ValidGeneration generation)
    (.value "billing snapshot generation must be a positive integer")
  require (generation ≠ none → owner.any fun o => o.configRoot ≠ "")
    (.value "generation-pinned intent requires durable coordinator owner binding")
  require (generation = none → owner = none)
    (.value "un-pinned intent cannot carry coordinator owner binding")
  ofResult (requireCoordinatorWrite context generation)
  validateInputContract job
  let scope ← ofResult (settlementScope job authScope)
  Program.reserve ⟨job, reservationCost, cacheKey, scope, admission, generation, owner⟩

def configuredAuthenticatedBudgetBinding (D : Deployment) (job : Job) :
    Program (Option BudgetAdmission) :=
  match D.composition with
  | none => pure none
  | some trustDigest => do
    require (job.mode = .test) (.permission "authenticated budget admission is TEST-only")
    let answer ← ask .bridgeComposition
    let configured ← ofResult answer
    require (configured = trustDigest)
      (.permission "configured authenticated budget trust source changed")
    let answer ← ask .policy
    let policy ← ofResult answer
    require (policy.mode = .test ∧ job.endpoint ∈ policy.allowedProviders)
      (.permission "configured authenticated budget receipt does not authorize executor job")
    pure (some
      { compositionTrustDigest := trustDigest
        requestId := policy.requestId
        episodeId := policy.episodeId
        policySha256 := policy.policySha256
        provider := job.endpoint
        operationId := D.requestId job })

def flux3Endpoint : String := "blackforestlabs/flux-3/text-to-image"

def intentScope (E : Instance) (job : Job) (authScope : Option String) :
    Option BudgetAdmission → Result String
  | some admission => do
    let required := "AUTHENTICATED_TEST_REQUEST:" ++ admission.requestId
    require (authScope = none ∨ authScope = some required)
      (.permission "authenticated intent scope is internally bound")
    pure required
  | none => do
    let production :=
      if job.mode = .live ∧ job.endpoint = flux3Endpoint then E.jacoProductionScope else none
    require (job.mode = .test ∨ production ≠ none)
      (.permission "raw prepared intent cannot authorize LIVE admission")
    let expected := production.getD "TEST_LOCAL_ONLY"
    require (authScope = none ∨ authScope = some expected)
      (.permission "raw prepared intent cannot forge composition authorization scope")
    pure expected

def validateJob (job : Job) : Result Unit := do
  let _ ← money job.cost
  require (job.scene ≠ "" ∧ job.endpoint ≠ "" ∧ 0 < job.cost.toRat)
    (.value "explicit scene, endpoint and positive maximum cost required")

def markPrepared (D : Deployment) (E : Instance) (context : Option ℕ) (job : Job) :
    Program (Option Row) := do
  change E context none (D.requestId job) .prepared
  inspect (D.requestId job)

def readBack (D : Deployment) (E : Instance) (context : Option ℕ) (job : Job) (fresh : Bool)
    (existing : Option Row) : Program (Option Row) :=
  if fresh then markPrepared D E context job else pure existing

def subscript {α : Type} : Option α → Result α
  | some value => .ok value
  | none => .error (.type "'NoneType' object is not subscriptable")

def prepareIntent (D : Deployment) (E : Instance) (context : Option ℕ) (job : Job)
    (authScope : Option String) (generation : Option ℕ) (owner : Option OwnerBinding) :
    Program Row := do
  require job.mode.Explicit (.permission "explicit TEST/LIVE job mode required")
  ofResult (validateJob job)
  validateInputContract job
  let admission ← configuredAuthenticatedBudgetBinding D job
  let scope ← ofResult (intentScope E job authScope admission)
  let fresh ← reserve context job job.cost.toRat "" (some scope) admission generation owner
  let existing ← inspect (D.requestId job)
  let found ← readBack D E context job fresh existing
  let row ← ofResult (subscript found)
  require (row.status ∈ [Status.prepared, .intent, .complete])
    (.runtime "prepared executor intent is not runnable")
  pure row

def freshAuthenticatedBudgetAdmission (D : Deployment) (job : Job) (row : Row) :
    Program (Option BudgetAdmission) :=
  match row.authenticatedBudgetAdmission with
  | none => pure none
  | some admission => do
    let configured ← configuredAuthenticatedBudgetBinding D job
    require (configured = some admission)
      (.permission "authenticated budget admission no longer authorizes executor job")
    pure configured

def Row.BindsIntent (D : Deployment) (job : Job) (row : Row) : Prop :=
  row.settlementBinding.localRequestId = D.requestId job ∧
    row.settlementBinding.endpointId = job.endpoint ∧
    row.settlementBinding.authorityMode = job.mode ∧
    row.settlementBinding.providerRequestId = unassigned

instance (D : Deployment) (job : Job) (row : Row) : Decidable (row.BindsIntent D job) :=
  inferInstanceAs (Decidable (_ ∧ _))

def ClaimBindsIntent (D : Deployment) (job : Job) (row : Row) (claim : StandingBudget.Claim) :
    Prop :=
  claim.requestId = D.requestId job ∧ claim.provider = job.endpoint ∧
    claim.settlementMode = .falReadbackV2 ∧ claim.authScope = row.settlementBinding.authScope ∧
    claim.providerRequestId = unassigned ∧ claim.authorityMode = job.mode ∧ claim.state = .reserved

instance (D : Deployment) (job : Job) (row : Row) (claim : StandingBudget.Claim) :
    Decidable (ClaimBindsIntent D job row claim) := inferInstanceAs (Decidable (_ ∧ _))

def FinalAdmissionMarker.repeats (D : Deployment) (job : Job) (marker : FinalAdmissionMarker) :
    Prop :=
  marker.requestId = D.requestId job ∧ marker.endpoint = job.endpoint ∧
    marker.reservedUsd = "0.048"

instance (D : Deployment) (job : Job) (marker : FinalAdmissionMarker) :
    Decidable (marker.repeats D job) := inferInstanceAs (Decidable (_ ∧ _))

def FinalAdmissionMarker.contract (D : Deployment) (E : Instance) (job : Job) (row : Row)
    (marker : FinalAdmissionMarker) : Prop :=
  marker.payloadSha256 = D.intentInputSha256 job ∧ marker.inputKind = .textToImage ∧
    marker.authScope = row.settlementBinding.authScope ∧ E.jacoVerifier = true

instance (D : Deployment) (E : Instance) (job : Job) (row : Row) (marker : FinalAdmissionMarker) :
    Decidable (marker.contract D E job row) := inferInstanceAs (Decidable (_ ∧ _))

def checkMarker (D : Deployment) (E : Instance) (job : Job) (row : Row) :
    Option FinalAdmissionMarker → Result FinalAdmissionMarker
  | none => .error
      (.permission "FLUX 3 canary submit requires configured durable final-admission marker")
  | some marker =>
    match marker.kind with
    | .styleRemediation qualificationSha256 => do
      require (job.scene = "JACO_GEN28_STYLE_REMEDIATION_001" ∧ marker.repeats D job ∧
          marker.trustIdentity = "PROTECTED_DEPLOYMENT_QUALIFICATION" ∧
          qualificationSha256.length = 64)
        (.permission "FLUX 3 canary submit requires configured durable final-admission marker")
      require (marker.contract D E job row)
        (.permission "style remediation qualification marker changed")
      pure marker
    | .finalAdmission _ receiptSha256 => do
      require (marker.repeats D job ∧ receiptSha256.length = 64 ∧
          marker.payloadSha256.length = 64 ∧ marker.contract D E job row)
        (.permission "FLUX 3 canary submit requires configured durable final-admission marker")
      pure marker

def verifyFinalAdmission (D : Deployment) (E : Instance) (job : Job) (row : Row)
    (claim : StandingBudget.Claim) : Program Bool :=
  if job.endpoint = flux3Endpoint then do
    let marker ← ofResult (checkMarker D E job row row.finalAdmissionMarker)
    let verdict ← ask (.jacoVerify job marker claim)
    ofResult verdict
    pure true
  else pure false

def ledgerAdmission (D : Deployment) (job : Job) (row : Row) (admission : BudgetAdmission) :
    LedgerAdmission where
  localRequestId := D.requestId job
  endpointId := job.endpoint
  authScope := row.settlementBinding.authScope
  authorityMode := job.mode
  reservedUsd := job.cost
  authenticatedBudgetAdmission := admission

def admittedClaim (D : Deployment) (job : Job) : Program StandingBudget.Claim := do
  let answer ← Prog.attempt (ledger (.claim (D.requestId job)))
  match answer with
  | .ok claim => pure claim
  | .error _ => .raise (.permission "prepared FAL submit requires standing-ledger admission")

def verifyPreparedFalAdmission (D : Deployment) (E : Instance) (job : Job) (row : Row)
    (requireAdmittedMarker : Bool) : Program Unit := do
  require (E.standingLedger ≠ none)
    (.permission "prepared FAL submit requires standing-ledger admission")
  require (row.BindsIntent D job)
    (.permission "prepared FAL submit has no durable intent binding")
  require (row.inputContract = ⟨job.inputKind, D.intentInputSha256 job⟩)
    (.permission "prepared FAL submit input contract changed")
  let claim ← admittedClaim D job
  require (ClaimBindsIntent D job row claim)
    (.permission "prepared FAL submit ledger reservation does not bind intent")
  require (claim.reservedUsd = job.cost.toRat)
    (.permission "prepared FAL submit ledger reservation value mismatch")
  let jacoFinalAdmission ← verifyFinalAdmission D E job row claim
  let authenticated ← freshAuthenticatedBudgetAdmission D job row
  match authenticated with
  | none =>
    require (jacoFinalAdmission = true ∨
        job.mode = .test ∧ row.settlementBinding.authScope = "TEST_LOCAL_ONLY")
      (.permission "prepared ledger admission requires authenticated TEST authority")
  | some admission =>
    require (requireAdmittedMarker = true →
        row.standingLedgerAdmission = some (ledgerAdmission D job row admission))
      (.permission "prepared FAL submit lacks durable admitted marker")

def bindPreparedStandingLedgerAdmission (D : Deployment) (E : Instance) (context : Option ℕ)
    (job : Job) : Program (Option Row) := do
  let found ← inspect (D.requestId job)
  let row ← ofResult (found.elim
    (.error (.runtime "only a prepared executor intent can be admitted")) .ok)
  require (row.status = .prepared)
    (.runtime "only a prepared executor intent can be admitted")
  ofResult (requireCoordinatorWrite context row.generation)
  verifyPreparedFalAdmission D E job row false
  let authenticated ← freshAuthenticatedBudgetAdmission D job row
  let admission ← ofResult (authenticated.elim
    (.error (.permission "only bridge-bound authenticated intent can persist admission marker")) .ok)
  Program.bindAdmission (D.requestId job) row.settlementBinding (ledgerAdmission D job row admission)
  inspect (D.requestId job)

end VideoPoster.Executor
