import VideoPoster.Billing.Coordinator

/-!
# `Executor.run`
-/

namespace VideoPoster.Executor
open Python Billing Tables Interleaving Program List

variable (D : Deployment)

def RunArgs.requestId (args : RunArgs) : String := D.requestId args.job

def liveGate (args : RunArgs) : Program Unit :=
  if args.job.mode = .live then do
    let now ← ask .now
    match args.authorization, args.price with
    | some authorization, some price => do
      require (authorization.reviewer ≠ "" ∧ price.evidence ≠ "" ∧
          authorization.requestId = args.requestId D ∧ price.requestId = args.requestId D ∧
          price.endpoint = args.job.endpoint ∧ now < price.validUntil ∧
          now < authorization.validUntil)
        (.permission "LIVE requires exact authorization and fresh live price evidence")
      let amount ← ofResult (money price.amount)
      require (amount = args.job.cost.toRat)
        (.permission "LIVE requires exact authorization and fresh live price evidence")
      let maximum ← ofResult (money authorization.maximumCost)
      require (args.job.cost.toRat ≤ maximum)
        (.permission "LIVE requires exact authorization and fresh live price evidence")
    | _, _ => .raise (.permission "LIVE requires exact authorization and fresh live price evidence")
  else pure ()

def verifyStoredReceipt (row : Row) : Program Unit :=
  match row.result with
  | none => .raise (.key "result")
  | some path => do
    let sha ← fileSha path
    require (row.resultSha256 = some sha) (.value "receipt result hash mismatch")

def runScope (args : RunArgs) : String :=
  if args.job.mode = .test then "TEST_LOCAL_ONLY"
  else match args.authorization with
    | some authorization => "LIVE_AUTHORIZATION_REQUEST:" ++ authorization.requestId
    | none => "LIVE_CACHE_NO_PROVIDER_REQUEST"

structure Admission where
  cacheKey : String
  cached : Option String
  fresh : Bool

def contentKey (args : RunArgs) : Program String :=
  if args.executor.cas then do
    let answer ← ask (.contentKey args.job)
    ofResult answer
  else pure ""

def cacheLookup (args : RunArgs) (key : String) : Program (Option String) :=
  if args.executor.cas then do
    let answer ← ask (.casGet key)
    ofResult answer
  else pure none

def gateMiss (args : RunArgs) (cached : Option String) : Program Unit :=
  if cached = none then liveGate D args else pure ()

def admitNew (args : RunArgs) : Program Admission := do
  let key ← contentKey args
  let cached ← cacheLookup args key
  gateMiss D args cached
  let fresh ← reserve none args.job (if cached = none then args.job.cost.toRat else 0) key
    (some (runScope args)) none none none
  pure ⟨key, cached, fresh⟩

def admitExisting (args : RunArgs) (existing : Row) : Program Admission :=
  if existing.cacheKey ≠ "" then pure ⟨existing.cacheKey, none, false⟩
  else if args.executor.cas then do
    let key ← contentKey args
    change args.executor none none (args.requestId D) (.cacheKey key)
    pure ⟨key, none, false⟩
  else pure ⟨"", none, false⟩

def admitRow (args : RunArgs) : Option Row → Program Admission
  | none => admitNew D args
  | some existing => admitExisting D args existing

def routeFresh (args : RunArgs) (admission : Admission) (row : Option Row) :
    Program (Option Row × Bool) :=
  if admission.fresh = true ∧ admission.cached = none ∧
      startsWith args.job.endpoint "fal-ai/" = true then do
    let prepared ← markPrepared D args.executor none args.job
    pure (prepared, false)
  else pure (row, admission.fresh)

def requireOwner (args : RunArgs) (row : Row) : Result Unit :=
  match row.generation with
  | none => pure ()
  | some _ => do
    require (args.executor.ownerBinding = row.owner)
      (.permission "generation-pinned FAL owner does not match configured coordinator")
    requireCoordinatorCapability (args.settlementCheckpoint.asCapability.join)
      args.executor.coordinator (args.requestId D) args.executor.identity
      args.executor.standingLedger args.executor.config row.owner

/-- The checkpoint callback; `pinned` is whether the row it was made for is generation-pinned. -/
def checkpoint (args : RunArgs) (pinned : Bool) (providerId partialPath : String) :
    Program Unit :=
  if providerId ≠ "" then
    match args.settlementCheckpoint with
    | .capability held => do
      require (args.requestId D = held.requestId)
        (.permission "coordinator capability request mismatch")
      (Billing.checkpointProviderBinding (args.requestId D) providerId partialPath).discard
    | .coordinator =>
      (Billing.checkpointProviderBinding (args.requestId D) providerId partialPath).discard
    | .none => bindProvider none (args.requestId D) providerId partialPath none
    | .hook bindsLedger => do
      require (pinned = false)
        (.type "generation-pinned FAL checkpoint requires coordinator capability")
      bindProvider none (args.requestId D) providerId partialPath none
      if bindsLedger then
        (ledger (.bindProviderRequestId none (args.requestId D) providerId none)).discard
      else pure ()
    | .object => .raise (.type (if pinned then
          "generation-pinned FAL checkpoint requires coordinator capability"
        else "FAL checkpoint requires callable legacy hook or coordinator capability"))
  else if partialPath ≠ "" then
    change args.executor none none (args.requestId D) (.partialPath (D.resolve partialPath))
  else pure ()

def awaitProvider (report : String → String → Program Unit) :
    ProviderRun → Program (String × Decimal)
  | .done path actualCost => pure (path, actualCost)
  | .fail error => .raise error
  | .checkpoint providerId partialPath next => do
    let outcome ← Prog.attempt (report providerId partialPath)
    awaitProvider report (next outcome)

def markSubmitting (args : RunArgs) (row : Row) (fresh : Bool) : Program (Row × Bool) :=
  if row.status = .prepared ∧ args.submitPrepared = true then do
    verifyPreparedFalAdmission D args.executor args.job row true
    change args.executor none args.settlementCheckpoint.asCapability (args.requestId D)
      .submitting
    let marked ← inspect (args.requestId D)
    let row ← ofResult (subscript marked)
    pure (row, true)
  else if fresh then do
    change args.executor none none (args.requestId D) .submitting
    let marked ← inspect (args.requestId D)
    let row ← ofResult (subscript marked)
    pure (row, true)
  else pure (row, false)

def callProvider (args : RunArgs) (row : Row) (submitNow : Bool) : Program (String × Decimal) :=
  let report := checkpoint D args row.generation.isSome
  if submitNow then do
    change args.executor none args.settlementCheckpoint.asCapability (args.requestId D)
      (.evidence args.authorization args.price)
    let provider ← submit args.job
    awaitProvider report provider
  else if row.providerId ≠ "" ∨ row.partialPath ≠ "" then do
    let provider ← recover args.job row.providerId row.partialPath
    awaitProvider report provider
  else if args.recoversLocally then do
    let provider ← recoverLocal args.job
    awaitProvider report provider
  else .raise (.runtime "unknown submission requires reconciliation; no resubmit")

def storeResult (args : RunArgs) (key path : String) : Program Unit :=
  if args.executor.cas then do
    let answer ← ask (.casPut key path)
    ofResult answer
  else pure ()

def finish (args : RunArgs) (key path : String) (actual : ℚ) : Program (Option Row) :=
  if args.job.cost.toRat < actual then do
    change args.executor none args.settlementCheckpoint.asCapability (args.requestId D)
      (.overrun (D.resolve path) actual)
    .raise (.runtime "budget provider overrun recorded; execution blocked")
  else do
    storeResult args key (D.resolve path)
    let sha ← fileSha (D.resolve path)
    change args.executor none args.settlementCheckpoint.asCapability (args.requestId D)
      (.complete (D.resolve path) sha actual key)
    inspect (args.requestId D)

def completeFromCache (args : RunArgs) (admission : Admission) (cached : String) :
    Program (Option Row) := do
  let sha ← fileSha cached
  change args.executor none none (args.requestId D)
    (.cacheHit (D.resolve cached) sha admission.cacheKey)
  inspect (args.requestId D)

def submitOrRecover (args : RunArgs) (admission : Admission) (row : Row) (fresh : Bool) :
    Program (Option Row) := do
  require (¬ (row.status = .prepared ∧ args.submitPrepared = false ∧ row.providerId = "" ∧
      row.partialPath = ""))
    (.runtime "prepared intent requires admission or reconciliation; no submit")
  let (marked, submitNow) ← markSubmitting D args row fresh
  let (path, actualCost) ← callProvider D args marked submitNow
  let actual ← ofResult (money actualCost)
  finish D args admission.cacheKey path actual

def proceed (args : RunArgs) (admission : Admission) (row : Row) (fresh : Bool) :
    Program (Option Row) := do
  ofResult (requireOwner D args row)
  match fresh, admission.cached with
  | true, some cached => completeFromCache D args admission cached
  | _, _ => submitOrRecover D args admission row fresh

def work (args : RunArgs) : Program (Option Row) := do
  validateInputContract args.job
  let existing ← inspect (args.requestId D)
  let admission ← admitRow D args existing
  let found ← inspect (args.requestId D)
  let (routed, fresh) ← routeFresh D args admission found
  let row ← ofResult (subscript routed)
  match row.status with
  | .complete => do
    verifyStoredReceipt row
    pure (some row)
  | .overrun => .raise (.runtime "budget overrun requires reconciliation")
  | _ => proceed D args admission row fresh

def runLocked (args : RunArgs) : Program (Option Row) := do
  let existing ← inspect (args.requestId D)
  match existing with
  | some row =>
    if row.status = .complete then do
      verifyStoredReceipt row
      pure (some row)
    else withSlot ((range D.concurrency).map LockId.worker) (work D args)
  | none => withSlot ((range D.concurrency).map LockId.worker) (work D args)

def run (args : RunArgs) : Program (Option Row) := do
  require (args.job.mode.Explicit ∧ args.providerMode = args.job.mode)
    (.permission "TEST/LIVE provider mode mismatch")
  ofResult (validateJob args.job)
  withSlot [.request (args.requestId D)] (runLocked D args)

def Call.body : Call → Program Unit
  | .run args => (Executor.run D args).discard
  | .prepareIntent executor job authScope generation owner =>
    (Executor.prepareIntent D executor none job authScope generation owner).discard
  | .bindPreparedStandingLedgerAdmission executor job =>
    (Executor.bindPreparedStandingLedgerAdmission D executor none job).discard
  | .qa args => Program.qa none args
  | .callback args pinned providerId partialPath => checkpoint D args pinned providerId partialPath
  | .attachMarker executor requestId marker =>
    change executor none none requestId (.finalAdmissionMarker marker)
  | .prepareAndReserve coordinator job episodeId experiment =>
    (Billing.prepareAndReserve D coordinator job episodeId experiment).discard
  | .checkpointProviderBinding requestId providerId partialPath =>
    (Billing.checkpointProviderBinding requestId providerId partialPath).discard
  | .markUnknown requestId => (Billing.markUnknown requestId).discard
  | .settleVerifiedReceipt body settlementReceipt =>
    (Billing.settleVerifiedReceipt body settlementReceipt).discard
  | .ledger op => (Program.ledger op.outside).discard

def Call.program (call : Call) : Program Unit :=
  (called call).bind fun _ => call.body D

def callsIn (kinds : Set Call) : Set (Program Unit) := { p | ∃ call ∈ kinds, p = call.program D }

def Call.OnExecutor : Call → Prop
  | .run _ => True
  | .prepareIntent _ _ _ _ _ => True
  | _ => False

def executorCalls : Set Call := { call | call.OnExecutor }

def freshRoot : Config (machine D) Error := Config.initial World.empty

/-! ## A sample deployment

Three jobs with the hashes that the source computes for them, and schedules that let one process
after another run. -/

def sampleFirst : Job where
  scene := "scene-1"
  category := .first
  mode := .test
  endpoint := "flux"
  payload := [("prompt", .str "a boat")]
  manifest := none
  cost := .finite false 1 0
  inputKind := .textToImage

def sampleFal : Job := { sampleFirst with scene := "scene-2", endpoint := "fal-ai/flux" }

def sampleFirstId : String := "a3f0809c114964eebd6f2d6777ed9766f98a30fba70cc6a183c5973b0c063f37"

def sampleFalId : String := "a448175cdbbdffbc65246c3f33507f91caf977fbe90ea2e91ebe8009578224cf"

def sampleCorrection : Job := { sampleFirst with category := .correction, predecessor := sampleFirstId }

def sampleCorrectionId : String := "4f0f0d78e7e52bd53c8167e5897c571f09f590f12ee968274e4ffaed184f291d"

def sampleRequestId (job : Job) : String :=
  if job.scene = "scene-2" then sampleFalId
  else if job.category = .correction then sampleCorrectionId
  else sampleFirstId

def sampleDeployment (limit : ℚ) : Deployment where
  requestId := sampleRequestId
  requestId_ne_empty job := by
    unfold sampleRequestId
    split_ifs <;> decide
  intentInputSha256 _ := "ef1a101db84d09e18e10443431e0388ab972087eba6ab20e2ed825b7ebcc44ed"
  resolve path := path
  limit := limit
  priorSpend := 0
  concurrency := 3
  composition := none
  floats := .exact
  policy := StandingBudget.samplePolicy

def sampleExecutor : Instance := { identity := 0, config := 0 }

def sampleLedgerExecutor : Instance := { sampleExecutor with standingLedger := some 0 }

def sampleCoordinator : Coordinator := ⟨sampleLedgerExecutor, ⟨"/state"⟩⟩

def sampleRun : RunArgs where
  executor := sampleExecutor
  job := sampleFirst
  providerMode := .test

def sampleProvider (dollars : ℕ) : ProviderRun := .done "/out/a.png" (.finite false dollars 0)

def emptySha256 : String := "e3b0c44298fc1c149afbf4c8996fb92427ae41e4649b934ca495991b7852b855"

def sampleOracle (cached : Option String) (provider : ProviderRun) : Oracle where
  answer
    | .now => 0
    | .clock => some 1753000000
    | .month => .ok "2026-07"
    | .fileSha _ => .ok emptySha256
    | .sheetBinding _ => .ok ([emptySha256], emptySha256)
    | .contentKey _ => .ok "key-1"
    | .casGet _ => .ok cached
    | .casPut _ _ => .ok ()
    | .bridgeComposition => .ok ""
    | .policy => .error (.permission "budget policy is not configured")
    | .jacoVerify _ _ _ => .ok ()
  provider := provider

def sampleReview (requestId : String) (approved : Bool) : QaArgs where
  requestId := requestId
  resultSha256 := emptySha256
  approved := approved
  reviewer := "reviewer-1"
  failureCode := if approved then none else some "BLUR"
  reviewerIdentity := some ⟨"reviewer-1", "studio"⟩

structure Turn where
  call : Call
  oracle : Oracle
  steps : ℕ
  /-- The process dies after them. -/
  crashes : Bool := false

def schedule (first : ℕ) : List Turn → List (Move (machine D) Error)
  | [] => []
  | turn :: rest =>
    .spawn (turn.call.program D) :: replicate turn.steps (.perform first turn.oracle) ++
      (if turn.crashes then [.crash first] else []) ++ schedule (first + 1) rest

theorem schedule_calls (kinds : Set Call) {turns : List Turn} (within : ∀ turn ∈ turns, turn.call ∈ kinds)
    (first : ℕ) : ∀ m ∈ schedule D first turns, m.calls ⊆ callsIn D kinds := by
  induction turns generalizing first with
  | nil => simp [schedule]
  | cons turn rest ih =>
    intro m member
    simp only [schedule, cons_append, mem_cons, mem_append, mem_replicate] at member
    rcases member with rfl | (⟨-, rfl⟩ | crash) | later
    · rintro _ rfl
      exact ⟨turn.call, within turn (by simp), rfl⟩
    · exact Set.empty_subset _
    · split at crash
      · rw [mem_singleton.mp crash]
        exact Set.empty_subset _
      · cases crash
    · exact ih (fun turn member => within turn (by simp [member])) (first + 1) m later

section After
variable (allowed : Condition (machine D)) [∀ w e, Decidable (allowed w e)]

def after (c : Config (machine D) Error) (turns : List Turn) : Option (Config (machine D) Error) :=
  c.simulate (fun w e => decide (allowed w e)) (schedule D c.spawned turns)

theorem exists_reaches_of_after (kinds : Set Call) {c : Config (machine D) Error}
    {turns : List Turn} {test : Config (machine D) Error → Bool} (within : ∀ turn ∈ turns, turn.call ∈ kinds) (passed :
    (after D allowed c turns).any test = true) : ∃ c', Reaches (callsIn D kinds) allowed c c' ∧ test c' = true :=
  Config.exists_reaches (fun _ _ => of_decide_eq_true) (schedule_calls D kinds within _) passed

end After

end VideoPoster.Executor
