import VideoPoster.Billing.Guard
import VideoPoster.Python.Decimal
import VideoPoster.Python.Json
import VideoPoster.Tables.Table

/-!
# `standing_budget`: the shared admission ledger

Every public operation of `StandingBudgetLedger` is one immediate SQLite transaction, here a function from the old
tables to the new ones that exists only if the operation does not raise.
-/

namespace VideoPoster.StandingBudget
open Python Billing Tables

def units (value : Decimal) : Result ℕ := do
  require (value.isFinite ∧ 0 ≤ value.toRat ∧
      (value.mul (.ofNat 1000000)).toRat.den = 1)
    (.denied "nonnegative finite USD with at most six decimals required")
  let amount := (value.mul (.ofNat 1000000)).toRat.num.toNat
  require (amount ≤ 2 ^ 63 - 1) (.denied "USD amount exceeds ledger range")
  pure amount

inductive SettlementMode where
  | legacyTestUnbound | falReadbackV2
  | other (name : String)
  deriving DecidableEq

inductive ClaimState where
  | reserved | unknown | settled
  deriving DecidableEq

structure Claim where
  requestId : String
  episodeId : String
  provider : String
  month : String
  cap : ℕ
  experiment : Bool
  state : ClaimState
  actual : Option ℕ
  settlementMode : SettlementMode
  authScope : String
  providerRequestId : String
  authorityMode : Mode
  generation : Option ℕ
  deriving DecidableEq

namespace Claim

def exposure (claim : Claim) : ℕ := claim.actual.getD claim.cap

def overrun (claim : Claim) : Bool := claim.actual.any fun actual => claim.cap < actual

def reservedUsd (claim : Claim) : ℚ := mkRat claim.cap 1000000

end Claim

structure ReceiptRow where
  requestId : String
  receiptSha256 : String
  actual : ℕ
  body : String
  provenance : String

structure Ledger where
  claims : Table Claim.requestId
  receipts : Table ReceiptRow.requestId

def Ledger.empty : Ledger := ⟨.empty, .empty⟩

/-- The immutable policy binding, with the text functions of the standard library. -/
structure Policy where
  mode : Mode
  episodeLimit : ℕ
  monthLimit : ℕ
  experimentLimit : ℕ
  loads : String → Option Json
  dumps : Dict → String
  sha256 : String → String

structure ReserveArgs where
  requestId : String
  episodeId : String
  provider : String
  quotedCapUsd : Decimal
  experiment : Bool := false
  settlementMode : SettlementMode := .legacyTestUnbound
  authScope : String := "TEST_UNBOUND_LEGACY"
  providerRequestId : String := unassigned
  authorityMode : Option Mode := none
  generation : Option ℕ := none

def ReserveArgs.resolvedMode (args : ReserveArgs) (P : Policy) : Mode :=
  args.authorityMode.getD (if args.settlementMode = .legacyTestUnbound then .test else P.mode)

def ReserveArgs.matches (args : ReserveArgs) (cap : ℕ) (mode : Mode) (previous : Claim) : Prop :=
  previous.episodeId = args.episodeId ∧ previous.provider = args.provider ∧ previous.cap = cap ∧
    previous.experiment = args.experiment ∧ previous.settlementMode = args.settlementMode ∧
    previous.authScope = args.authScope ∧ previous.providerRequestId = args.providerRequestId ∧
    previous.authorityMode = mode

instance (args : ReserveArgs) (cap : ℕ) (mode : Mode) (previous : Claim) :
    Decidable (args.matches cap mode previous) := inferInstanceAs (Decidable (_ ∧ _))

def Ledger.frozen (l : Ledger) : Bool := l.claims.rows.any Claim.overrun

def Ledger.episodeTotal (l : Ledger) (episodeId : String) : ℕ :=
  l.claims.sum fun claim => if claim.episodeId = episodeId then claim.exposure else 0

def Claim.carried (claim : Claim) (month : String) : Prop :=
  claim.month = month ∨ claim.actual = none

instance (claim : Claim) (month : String) : Decidable (claim.carried month) :=
  inferInstanceAs (Decidable (_ ∨ _))

def Ledger.monthTotal (l : Ledger) (month : String) : ℕ :=
  l.claims.sum fun claim => if claim.carried month then claim.exposure else 0

def Ledger.experimentTotal (l : Ledger) (month : String) : ℕ :=
  l.claims.sum fun claim =>
    if claim.carried month ∧ claim.experiment = true then claim.exposure else 0

def ReserveArgs.toClaim (args : ReserveArgs) (cap : ℕ) (month : String) (mode : Mode) : Claim where
  requestId := args.requestId
  episodeId := args.episodeId
  provider := args.provider
  month := month
  cap := cap
  experiment := args.experiment
  state := .reserved
  actual := none
  settlementMode := args.settlementMode
  authScope := args.authScope
  providerRequestId := args.providerRequestId
  authorityMode := mode
  generation := args.generation

def denyContext (context generation : Option ℕ) : Result Unit :=
  require (generation = none ∨ context = generation)
    (.denied "billing snapshot generation requires coordinator writer context")

def requireGeneration (generation : Option ℕ) : Result Unit :=
  require (ValidGeneration generation)
    (.denied "billing snapshot generation must be a positive integer")

def reserve (P : Policy) (context : Option ℕ) (month : Result String) (args : ReserveArgs)
    (l : Ledger) : Result (Ledger × Claim) := do
  require (blank args.requestId = false ∧ blank args.episodeId = false ∧
      blank args.provider = false)
    (.denied "request, episode and provider required")
  requireGeneration args.generation
  denyContext context args.generation
  require (args.settlementMode = .legacyTestUnbound ∨ args.settlementMode = .falReadbackV2)
    (.denied "explicit settlement mode required")
  require (args.authScope ≠ "" ∧ args.authScope.length ≤ 512)
    (.denied "settlement auth scope required")
  require (args.providerRequestId ≠ "" ∧ args.providerRequestId.length ≤ 512)
    (.denied "provider request id required")
  let mode := args.resolvedMode P
  require (mode.Explicit ∧ mode = P.mode) (.denied "settlement authority mode mismatch")
  require (args.settlementMode = .legacyTestUnbound → mode = .test ∧
      args.authScope = "TEST_UNBOUND_LEGACY" ∧ args.providerRequestId = unassigned)
    (.denied "legacy claims are TEST-only and cannot bind FAL")
  let cap ← units args.quotedCapUsd
  let month ← month
  match l.claims.find? args.requestId with
  | some previous => do
    require (args.matches cap mode previous) (.denied "request identity collision")
    pure (l, previous)
  | none => do
    require (l.frozen = false)
      (.denied "provider overrun freeze requires explicit reconciliation")
    require (l.episodeTotal args.episodeId + cap ≤ P.episodeLimit)
      (.denied "episode budget exhausted")
    require (l.monthTotal month + cap ≤ P.monthLimit) (.denied "month budget exhausted")
    require (args.experiment = true → l.experimentTotal month + cap ≤ P.experimentLimit)
      (.denied "experiment budget exhausted")
    let claim := args.toClaim cap month mode
    pure ({ l with claims := l.claims.put claim }, claim)

def requirePin (claim : Claim) (generation : Option ℕ) : Result Unit :=
  require (claim.generation = none ∨ generation ≠ none)
    (.denied "generation-pinned FAL claim requires coordinator capability")

def Claim.repin (claim : Claim) (generation : Option ℕ) : Claim :=
  { claim with generation := generation.or claim.generation }

def bindProviderRequestId (context : Option ℕ) (requestId providerRequestId : String)
    (generation : Option ℕ) (l : Ledger) : Result (Ledger × Claim) := do
  require (requestId ≠ "" ∧ providerRequestId ≠ "" ∧ providerRequestId ≠ unassigned ∧
      providerRequestId.length ≤ 512)
    (.denied "durable provider request id required")
  requireGeneration generation
  denyContext context generation
  match l.claims.find? requestId with
  | none => .error (.denied "FAL-bound reservation required")
  | some row => do
    require (row.settlementMode = .falReadbackV2) (.denied "FAL-bound reservation required")
    requirePin row generation
    if row.providerRequestId = providerRequestId then pure (l, row)
    else do
      require (row.providerRequestId = unassigned)
        (.denied "provider request id is immutable")
      let bound := { row with providerRequestId := providerRequestId }.repin generation
      pure ({ l with claims := l.claims.put bound }, bound)

def markUnknown (context : Option ℕ) (requestId : String) (generation : Option ℕ) (l : Ledger) :
    Result (Ledger × Claim) := do
  requireGeneration generation
  denyContext context generation
  match l.claims.find? requestId with
  | none => .error (.denied "reservation does not exist")
  | some row => do
    requirePin row generation
    require (row.actual = none) (.denied "settled actual is immutable")
    let marked := { row with state := .unknown }.repin generation
    pure ({ l with claims := l.claims.put marked }, marked)

def settle (requestId : String) (actualUsd : Decimal) (l : Ledger) : Result (Ledger × Claim) := do
  let actual ← units actualUsd
  match l.claims.find? requestId with
  | none => .error (.denied "reservation does not exist")
  | some row => do
    require (row.settlementMode ≠ .falReadbackV2)
      (.denied "FAL-bound claim requires authenticated settlement")
    match row.actual with
    | some settled => do
      require (settled = actual) (.denied "settled actual is immutable")
      pure (l, row)
    | none =>
      let settled := { row with state := .settled, actual := some actual }
      pure ({ l with claims := l.claims.put settled }, settled)

structure SettlementReceipt where
  authority : String
  localRequestId : String
  providerRequestId : String
  endpointId : String
  authScope : String
  authorityMode : Mode
  costTotalMicroUsd : ℕ
  evidenceHash : String
  provenance : String
  deriving DecidableEq

def receiptKeys : List String :=
  ["schema", "authority", "local_request_id", "provider_request_id", "endpoint_id", "auth_scope",
    "authority_mode", "currency", "cost_total_micro_usd", "evidence_hash", "provenance"]

def textField (dict : Dict) (key : String) : Option String :=
  match dict.get key with
  | some (.str text) => some text
  | _ => none

def microAmount (text : String) : Option ℕ :=
  let digits := text.toList
  if digits ≠ [] ∧ digits.all Char.isDigit ∧ (digits.head? = some '0' → digits = ['0']) then
    some (digits.foldl (fun n c => 10 * n + (c.toNat - '0'.toNat)) 0)
  else none

def isSha256 (text : String) : Bool :=
  text.length == 64 && text.toList.all fun c => c.isDigit || ('a' ≤ c && c ≤ 'f')

def bindingField (dict : Dict) (key : String) : Result String :=
  match textField dict key with
  | some text => do
    require (text ≠ "" ∧ text.length ≤ 512) (.denied "settlement receipt binding is malformed")
    pure text
  | none => .error (.denied "settlement receipt binding is malformed")

def receiptDict (P : Policy) (body : String) : Result Dict :=
  match P.loads body with
  | some (.obj dict) => .ok dict
  | some _ => .error (.denied "closed settlement receipt schema-v2 required")
  | none => .error (.denied "canonical receipt JSON required")

def receiptCost (dict : Dict) : Result ℕ :=
  match (textField dict "cost_total_micro_usd").bind microAmount with
  | some cost => .ok cost
  | none => .error (.denied "canonical USD micro amount required")

/-- The body checks of `_settle_verified_receipt`: the receipt and its amount in micro-dollars. -/
def parseReceipt (P : Policy) (body : String) : Result (SettlementReceipt × ℕ) := do
  let dict ← receiptDict P body
  require ((∀ key ∈ receiptKeys, Dict.hasKey dict key = true) ∧
      (∀ entry ∈ dict, entry.1 ∈ receiptKeys) ∧ Dict.get dict "schema" = some (.num 2))
    (.denied "closed settlement receipt schema-v2 required")
  let authority := (textField dict "authority").getD ""
  let provenance := (textField dict "provenance").getD ""
  require ((authority = "TRANSPORT_AUTHENTICATED_FAL_READBACK" ∨
      authority = "TEST_NOT_AUTHORITY") ∧ provenance = "FAL_BILLING_READBACK")
    (.denied "authenticated FAL receipt provenance required")
  require (textField dict "currency" = some "USD") (.denied "canonical USD micro amount required")
  let cost ← receiptCost dict
  let actual ← units (.millionths cost)
  let localRequestId ← bindingField dict "local_request_id"
  let providerRequestId ← bindingField dict "provider_request_id"
  let endpointId ← bindingField dict "endpoint_id"
  let authScope ← bindingField dict "auth_scope"
  let mode ← bindingField dict "authority_mode"
  let evidenceHash := (textField dict "evidence_hash").getD ""
  require ((Mode.ofString mode).Explicit ∧ isSha256 evidenceHash = true)
    (.denied "settlement receipt evidence is malformed")
  require (body = P.dumps dict) (.denied "settlement receipt is not canonical")
  pure ({ authority, localRequestId, providerRequestId, endpointId, authScope,
          authorityMode := Mode.ofString mode, costTotalMicroUsd := cost, evidenceHash,
          provenance }, actual)

def SettlementReceipt.binds (receipt : SettlementReceipt) (claim : Claim) : Prop :=
  claim.provider = receipt.endpointId ∧ claim.providerRequestId = receipt.providerRequestId ∧
    claim.authScope = receipt.authScope ∧ claim.authorityMode = receipt.authorityMode

instance (receipt : SettlementReceipt) (claim : Claim) : Decidable (receipt.binds claim) :=
  inferInstanceAs (Decidable (_ ∧ _))

def settleVerifiedReceipt (P : Policy) (context : Option ℕ) (body : String)
    (generation : Option ℕ) (l : Ledger) : Result (Ledger × Claim) := do
  requireGeneration generation
  denyContext context generation
  let (receipt, actual) ← parseReceipt P body
  let sha := P.sha256 body
  match l.claims.find? receipt.localRequestId with
  | none => .error (.denied "reservation does not exist")
  | some row => do
    requirePin row generation
    require (row.settlementMode = .falReadbackV2) (.denied "claim is not FAL-bound")
    require (receipt.binds row) (.denied "receipt does not bind durable claim")
    require (receipt.authority = "TEST_NOT_AUTHORITY" → row.authorityMode = .test)
      (.denied "TEST billing fixture cannot settle a LIVE claim")
    match l.receipts.find? receipt.localRequestId with
    | some existing => do
      require (existing.receiptSha256 = sha ∧ existing.actual = actual ∧
          existing.body = body ∧ existing.provenance = receipt.provenance)
        (.denied "authenticated settlement receipt is immutable")
      require (row.actual = some actual ∧ row.state = .settled)
        (.denied "authenticated settlement state mismatch")
      pure (l, row)
    | none => do
      require (row.actual = none) (.denied "legacy settlement lacks authenticated receipt")
      -- `receipt_sha256` is UNIQUE
      require (∀ other ∈ l.receipts.rows, other.receiptSha256 ≠ sha)
        ⟨.other "IntegrityError", "UNIQUE constraint failed: settlement_receipts.receipt_sha256"⟩
      let settled := { row with state := .settled, actual := some actual }.repin generation
      pure ({ claims := l.claims.put settled
              receipts := l.receipts.put
                ⟨receipt.localRequestId, sha, actual, body, receipt.provenance⟩ }, settled)

def setBillingSnapshotGeneration (context : Option ℕ) (requestId : String) (generation : ℕ)
    (l : Ledger) : Result (Ledger × Claim) := do
  requireGeneration (some generation)
  denyContext context (some generation)
  match l.claims.find? requestId with
  | none => .error (.denied "reservation does not exist")
  | some row =>
    let pinned := { row with generation := some generation }
    pure ({ l with claims := l.claims.put pinned }, pinned)

def claim (requestId : String) (l : Ledger) : Result (Ledger × Claim) := do
  require (requestId ≠ "") (.denied "request id required")
  match l.claims.find? requestId with
  | none => .error (.denied "reservation does not exist")
  | some row => pure (l, row)

inductive Op where
  | reserve (context : Option ℕ) (month : Result String) (args : ReserveArgs)
  | bindProviderRequestId (context : Option ℕ) (requestId providerRequestId : String)
      (generation : Option ℕ)
  | markUnknown (context : Option ℕ) (requestId : String) (generation : Option ℕ)
  | settle (requestId : String) (actualUsd : Decimal)
  | settleVerifiedReceipt (context : Option ℕ) (body : String) (generation : Option ℕ)
  | setBillingSnapshotGeneration (context : Option ℕ) (requestId : String) (generation : ℕ)
  | claim (requestId : String)

def Op.apply (P : Policy) : Op → Ledger → Result (Ledger × Claim)
  | .reserve context month args => StandingBudget.reserve P context month args
  | .bindProviderRequestId context requestId providerRequestId generation =>
    StandingBudget.bindProviderRequestId context requestId providerRequestId generation
  | .markUnknown context requestId generation => StandingBudget.markUnknown context requestId generation
  | .settle requestId actualUsd => StandingBudget.settle requestId actualUsd
  | .settleVerifiedReceipt context body generation =>
    StandingBudget.settleVerifiedReceipt P context body generation
  | .setBillingSnapshotGeneration context requestId generation =>
    StandingBudget.setBillingSnapshotGeneration context requestId generation
  | .claim requestId => StandingBudget.claim requestId

def Op.context : Op → Option ℕ
  | .reserve context _ _ => context
  | .bindProviderRequestId context _ _ _ => context
  | .markUnknown context _ _ => context
  | .settleVerifiedReceipt context _ _ => context
  | .setBillingSnapshotGeneration context _ _ => context
  | .settle _ _ => none
  | .claim _ => none

def Op.outside : Op → Op
  | .reserve _ month args => .reserve none month args
  | .bindProviderRequestId _ requestId providerRequestId generation =>
    .bindProviderRequestId none requestId providerRequestId generation
  | .markUnknown _ requestId generation => .markUnknown none requestId generation
  | .settleVerifiedReceipt _ body generation => .settleVerifiedReceipt none body generation
  | .setBillingSnapshotGeneration _ requestId generation =>
    .setBillingSnapshotGeneration none requestId generation
  | .settle requestId actualUsd => .settle requestId actualUsd
  | .claim requestId => .claim requestId

@[simp] theorem Op.outside_context (op : Op) : op.outside.context = none := by cases op <;> rfl

def Ledger.step (P : Policy) (l : Ledger) (op : Op) : Ledger × Result Claim :=
  match op.apply P l with
  | .ok (l', claim) => (l', .ok claim)
  | .error error => (l, .error error)

/-! ## A sample policy

One kind of receipt with two possible provider request ids, their canonical texts and hashes. -/

def sampleReceipt (providerRequestId : String) : SettlementReceipt where
  authority := "TEST_NOT_AUTHORITY"
  localRequestId := "request-1"
  providerRequestId := providerRequestId
  endpointId := "fal-ai/flux"
  authScope := "scope"
  authorityMode := .test
  costTotalMicroUsd := 48000
  evidenceHash := "0000000000000000000000000000000000000000000000000000000000000000"
  provenance := "FAL_BILLING_READBACK"

def sampleFields (providerRequestId : String) : Dict :=
  [("auth_scope", .str "scope"), ("authority", .str "TEST_NOT_AUTHORITY"),
    ("authority_mode", .str "TEST"), ("cost_total_micro_usd", .str "48000"),
    ("currency", .str "USD"), ("endpoint_id", .str "fal-ai/flux"),
    ("evidence_hash", .str "0000000000000000000000000000000000000000000000000000000000000000"),
    ("local_request_id", .str "request-1"), ("provenance", .str "FAL_BILLING_READBACK"),
    ("provider_request_id", .str providerRequestId), ("schema", .num 2)]

def sampleBody (providerRequestId : String) : String :=
  "\x7b\"auth_scope\":\"scope\",\"authority\":\"TEST_NOT_AUTHORITY\",\"authority_mode\":\"TEST\"," ++
  "\"cost_total_micro_usd\":\"48000\",\"currency\":\"USD\",\"endpoint_id\":\"fal-ai/flux\"," ++
  "\"evidence_hash\":\"0000000000000000000000000000000000000000000000000000000000000000\"," ++
  "\"local_request_id\":\"request-1\",\"provenance\":\"FAL_BILLING_READBACK\"," ++
  "\"provider_request_id\":\"" ++ providerRequestId ++ "\",\"schema\":2\x7d"

def samplePolicy : Policy where
  mode := .test
  episodeLimit := 5000000
  monthLimit := 20000000
  experimentLimit := 1000000
  loads body :=
    if body = sampleBody unassigned then some (.obj (sampleFields unassigned))
    else if body = sampleBody "fal-1" then some (.obj (sampleFields "fal-1"))
    else none
  dumps dict := sampleBody ((textField dict "provider_request_id").getD "")
  sha256 body :=
    if body = sampleBody unassigned then
      "9e7ac713f083206b4cd0088a176ee569ed3c109f6b10cd85f9d0b4842605f004"
    else "71459bfbc1c45455ed9634b5abc6e68314b8051b349cd36a80c196ab307dd8a7"

def sampleReserve : Op := .reserve none (.ok "2026-07")
  { requestId := "request-1", episodeId := "episode-1", provider := "fal-ai/flux",
    quotedCapUsd := .finite false 48 (-3), settlementMode := .falReadbackV2, authScope := "scope" }

def Ledger.after (P : Policy) (l : Ledger) (ops : List Op) : Ledger :=
  ops.foldl (fun l op => (l.step P op).1) l

end VideoPoster.StandingBudget
