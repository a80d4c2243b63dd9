import Mathlib.Data.List.Dedup
import Mathlib.Data.List.Perm.Lattice
import VideoPoster.Autonomous.Metrics
import VideoPoster.Floating.Rounding

/-!
# `autonomous`: observations in full, and the report
-/

namespace VideoPoster.Autonomous.Observations
open Python Floating
open Telemetry (BillingStatus Conflict checkText conflictError)

inductive Timestamp where
  | aware (instant : ℤ)
  | naive
  deriving DecidableEq

abbrev Measured := Option ℚ

structure Counts where
  tokensInput : Option ℤ := none
  tokensCached : Option ℤ := none
  tokensOutput : Option ℤ := none
  tokensReasoning : Option ℤ := none
  quotaUnits : Option ℤ := none
  deriving DecidableEq

def Counts.all (counts : Counts) : List (Option ℤ) :=
  [counts.tokensInput, counts.tokensCached, counts.tokensOutput, counts.tokensReasoning, counts.quotaUnits]

structure Observation where
  eventId : String
  requestId : String
  episodeId : String
  worker : String
  experiment : Bool
  billing : BillingStatus
  observedAt : Option Timestamp := none
  counts : Counts := {}
  latencyS : Option Measured := none
  queueWaitS : Option Measured := none
  pendingExposureUsd : Option Decimal := none
  moneyUsd : Option Decimal := none
  missingMetrics : Bool := false
  model : Option String := none

structure Payload where
  episodeId : String
  experiment : Bool
  model : Option String
  counts : Counts
  latencyS : Option ℚ
  queueWaitS : Option ℚ
  pendingExposureUsd : Option Decimal
  billing : BillingStatus
  moneyUsd : Option Decimal
  deriving DecidableEq

structure Row (Hash : Type) where
  requestId : String
  eventId : String
  episodeId : String
  observedAtUtc : Option String
  monthUtc : Option String
  experiment : Bool
  worker : String
  model : Option String
  counts : Counts
  latencyS : Option ℚ
  queueWaitS : Option ℚ
  pendingExposureUsd : Option Decimal
  billing : BillingStatus
  moneyUsd : Option Decimal
  payloadSha256 : Hash
  deriving DecidableEq

structure Ledger (Hash : Type) where
  observations : List (Row Hash) := []
  conflicts : List (Conflict Hash) := []

structure Recorder (Hash : Type) where
  modelCatalog : String → Bool
  isoformat : ℤ → String
  month : ℤ → String
  digest : Payload → Hash

def decimal (field : String) (value : Decimal) : Result Unit :=
  require (value.isFinite ∧ 0 ≤ value.toRat)
    ⟨.other "PolicyError", field ++ " must be a non-negative finite decimal"⟩

def checkMeasured (field : String) (value : Option Measured) : Result Unit :=
  require (∀ measured ∈ value, ∃ seconds ∈ measured, 0 ≤ seconds) (.value (field ++ " must be nonnegative"))

def checkAmount (field : String) : Option Decimal → Result Unit
  | none => pure ()
  | some amount => decimal field amount

def Observation.check (observation : Observation) : Result Unit := do
  checkText observation.eventId "event_id"
  checkText observation.requestId "request_id"
  checkText observation.episodeId "episode_id"
  checkText observation.worker "worker"
  require (observation.observedAt ≠ some .naive) (.value "timezone-aware observed_at is required")
  require (∀ count ∈ observation.counts.all, ∀ n ∈ count, 0 ≤ n) (.value "count must be a nonnegative integer")
  checkMeasured "latency_s" observation.latencyS
  checkMeasured "queue_wait_s" observation.queueWaitS
  checkAmount "pending_exposure_usd" observation.pendingExposureUsd
  require (observation.billing ≠ .authenticated → observation.moneyUsd = none)
    (.value "unauthenticated or unknown billing cannot be real money")
  require (observation.billing = .authenticated → observation.moneyUsd ≠ none)
    (.value "authenticated billing requires reconciled money")
  require (observation.missingMetrics = true ∨ ¬ ((∀ count ∈ observation.counts.all, count = none) ∧
      observation.latencyS = none))
    (.value "missing metric measurements must be explicit")
  checkAmount "money_usd" observation.moneyUsd

def float (value : Option Measured) : Option ℚ := value.join.map binary64.nearest

section Recorder
variable {Hash : Type} (R : Recorder Hash)

def catalogued (model : Option String) : Option String := model.filter R.modelCatalog

def payload (observation : Observation) : Payload where
  episodeId := observation.episodeId
  experiment := observation.experiment
  model := catalogued R observation.model
  counts := observation.counts
  latencyS := float observation.latencyS
  queueWaitS := float observation.queueWaitS
  pendingExposureUsd := observation.pendingExposureUsd
  billing := observation.billing
  moneyUsd := observation.moneyUsd

def occurred (observation : Observation) : Option ℤ :=
  observation.observedAt.bind fun
    | .aware instant => some instant
    | .naive => none

def row (observation : Observation) : Row Hash where
  requestId := observation.requestId
  eventId := observation.eventId
  episodeId := observation.episodeId
  observedAtUtc := (occurred observation).map R.isoformat
  monthUtc := (occurred observation).map R.month
  experiment := observation.experiment
  worker := observation.worker
  model := catalogued R observation.model
  counts := observation.counts
  latencyS := float observation.latencyS
  queueWaitS := float observation.queueWaitS
  pendingExposureUsd := observation.pendingExposureUsd
  billing := observation.billing
  moneyUsd := observation.moneyUsd
  payloadSha256 := R.digest (payload R observation)

def Matches (observation : Observation) (stored : Row Hash) : Prop :=
  stored.requestId = observation.requestId ∨ stored.eventId = observation.eventId

instance (observation : Observation) (stored : Row Hash) : Decidable (Matches observation stored) :=
  inferInstanceAs (Decidable (_ ∨ _))

def Storable (observation : Observation) : Prop := ∀ count ∈ observation.counts.all, ∀ n ∈ count, n < 2 ^ 63

instance (observation : Observation) : Decidable (Storable observation) :=
  inferInstanceAs (Decidable (∀ count ∈ _, _))

variable [DecidableEq Hash]

def addConflict (observation : Observation) (conflicts : List (Conflict Hash)) (stored : Row Hash) :
    List (Conflict Hash) :=
  let conflict : Conflict Hash :=
    if stored.requestId = observation.requestId then
      ⟨"request_id", observation.requestId, stored.payloadSha256, R.digest (payload R observation)⟩
    else ⟨"event_id", observation.eventId, stored.payloadSha256, R.digest (payload R observation)⟩
  if ∃ known ∈ conflicts, known.kind = conflict.kind ∧ known.value = conflict.value ∧
      known.conflictingPayloadSha256 = conflict.conflictingPayloadSha256 then conflicts
  else conflicts ++ [conflict]

def reconcile (ledger : Ledger Hash) (observation : Observation) :
    Ledger Hash × Result Bool :=
  match observation.check with
  | .error error => (ledger, .error error)
  | .ok () =>
    match ledger.observations.filter fun stored => Matches observation stored with
    | [] =>
      if Storable observation then
        ({ ledger with observations := ledger.observations ++ [row R observation] }, .ok true)
      else (ledger, .error ⟨.other "OverflowError", "Python int too large to convert to SQLite INTEGER"⟩)
    | found =>
      if ∀ stored ∈ found, stored.payloadSha256 = R.digest (payload R observation) then (ledger, .ok false)
      else ({ ledger with conflicts := found.foldl (addConflict R observation) ledger.conflicts },
        .error conflictError)

def deliver (ledger : Ledger Hash) (observations : List Observation) : Ledger Hash :=
  observations.foldl (fun ledger observation => (reconcile R ledger observation).1) ledger

def Accepts (ledger : Ledger Hash) : List Observation → Prop
  | [] => True
  | observation :: rest => (∃ fresh, (reconcile R ledger observation).2 = .ok fresh) ∧
      Accepts (reconcile R ledger observation).1 rest

end Recorder

def total (amounts : List Decimal) : Option Decimal :=
  if amounts = [] then none else some (amounts.foldl Decimal.add (.ofNat 0))

def elapsed (times : List ℚ) : Option ℚ :=
  if times = [] then none else some (times.foldl (fun sum time => binary64.nearest (sum + time)) 0)

structure Bucket where
  requests : ℕ := 0
  moneyUsd : Option Decimal := none
  unknownBillingRequests : ℕ := 0
  unauthenticatedBillingRequests : ℕ := 0

abbrev Buckets := String → Option Bucket

structure Tokens where
  input : ℤ
  cached : ℤ
  output : ℤ
  reasoning : ℤ

structure Report where
  requests : ℕ
  moneyUsd : Option Decimal
  unknownBillingRequests : ℕ
  unauthenticatedBillingRequests : ℕ
  tokens : Tokens
  quotaUnits : ℤ
  latencyS : Option ℚ
  queueWaitS : Option ℚ
  pendingExposureUsd : Option Decimal
  unknownTimestampRequests : ℕ
  conflicts : ℕ
  models : List String
  byEpisode : Buckets
  byMonthUtc : Buckets
  byExperiment : Buckets
  byWorker : Buckets

section Report
variable {Hash : Type}

def Bucket.count (bucket : Bucket) (row : Row Hash) : Bucket where
  requests := bucket.requests + 1
  moneyUsd := match row.moneyUsd with
    | some money => some ((bucket.moneyUsd.getD (.ofNat 0)).add money)
    | none => bucket.moneyUsd
  unknownBillingRequests := bucket.unknownBillingRequests + if row.billing = .unknown then 1 else 0
  unauthenticatedBillingRequests :=
    bucket.unauthenticatedBillingRequests + if row.billing = .unauthenticated then 1 else 0

def Buckets.count (dimension : Row Hash → Option String) (buckets : Buckets) (row : Row Hash) : Buckets :=
  match dimension row with
  | some key => Function.update buckets key (some (((buckets key).getD {}).count row))
  | none => buckets

def buckets (dimension : Row Hash → Option String) (rows : List (Row Hash)) : Buckets :=
  rows.foldl (Buckets.count dimension) fun _ => none

def sumOf (column : Counts → Option ℤ) (rows : List (Row Hash)) : ℤ :=
  (rows.map fun row => (column row.counts).getD 0).sum

def models (rows : List (Row Hash)) : List String :=
  ((rows.filterMap fun row => row.model.filter (· ≠ "")).dedup).mergeSort fun a b => decide (a ≤ b)

def reportFromRows (rows : List (Row Hash)) (conflicts : ℕ) : Report where
  requests := rows.length
  moneyUsd := total (rows.filterMap Row.moneyUsd)
  unknownBillingRequests := rows.countP fun row => row.billing = .unknown
  unauthenticatedBillingRequests := rows.countP fun row => row.billing = .unauthenticated
  tokens := ⟨sumOf Counts.tokensInput rows, sumOf Counts.tokensCached rows, sumOf Counts.tokensOutput rows,
    sumOf Counts.tokensReasoning rows⟩
  quotaUnits := sumOf Counts.quotaUnits rows
  latencyS := elapsed (rows.filterMap Row.latencyS)
  queueWaitS := elapsed (rows.filterMap Row.queueWaitS)
  pendingExposureUsd := total (rows.filterMap Row.pendingExposureUsd)
  unknownTimestampRequests := rows.countP fun row => row.observedAtUtc = none
  conflicts := conflicts
  models := models rows
  byEpisode := buckets (fun row => some row.episodeId) rows
  byMonthUtc := buckets Row.monthUtc rows
  byExperiment := buckets (fun row => some (if row.experiment then "true" else "false")) rows
  byWorker := buckets (fun row => some row.worker) rows

def report (ledger : Ledger Hash) : Report :=
  reportFromRows ledger.observations ledger.conflicts.length

end Report
end VideoPoster.Autonomous.Observations
