import VideoPoster.Authorization.Restart
import VideoPoster.Executor.Submission

/-!
# The saga of an admitted intent
-/

namespace VideoPoster.Authorization
open Python Billing Tables Interleaving Executor Program Update World List Table Stage LockId Option

variable {D : Deployment} {E : Instance} {B : AuthenticatedBudgetBridge} {job : Job} {oracle : Oracle} {pid : ℕ}
  {w w' : World}

/-! ## The run of an admitted intent -/

def Act.Unblocked : Act → Prop
  | .slot _ | .release _ | .submit _ => False
  | _ => True

theorem Act.Unblocked.step {action : Act} (unblocked : Act.Unblocked action) (D : Deployment) (oracle : Oracle)
    (pid : ℕ) (w : World) : (∃ w' response, exec D oracle pid w action = some (w', response) ∧ w'.locks = w.locks)
    ∧ action.submission D = none := by
  have commits (result : Result Jobs) : (w.commit result).1.locks = w.locks := by
    cases result <;> rfl
  cases action with
  | slot | release | submit => exact unblocked.elim
  | reserve reservation =>
    refine ⟨⟨_, _, rfl, ?_⟩, rfl⟩
    cases reserveRow D (fun path => oracle.answer (.fileSha path)) reservation w.jobs <;> rfl
  | change | bindProvider | pinGeneration | bindAdmission | qa => exact ⟨⟨_, _, rfl, commits _⟩, rfl⟩
  | _ => exact ⟨⟨_, _, rfl, rfl⟩, rfl⟩

abbrev recordSubmission (D : Deployment) (e : Event actions) : Option String := e.action.submission D

def Idle (w : World) : Prop := w.locks .billing = none

abbrev RecordsIn {α : Type} (D : Deployment) (oracle : Oracle) (pid : ℕ) (program : Program α) (w : World)
    (outcome : Except Error α) (w' : World) (recorded : List String) : Prop :=
  program.Records (M := machine D) (recordSubmission D) oracle pid w outcome w' recorded

theorem records_act {action : Act} {response : action.Res} (silent : action.submission D = none)
    (executed : exec D oracle pid w action = some (w', response)) :
    RecordsIn D oracle pid (Prog.act action .pure) w (.ok response) w' [] := by
  have recorded := Prog.Ends.perform (M := machine D) (ε := Error) executed
  exact @Prog.Ends.records _ (machine D) _ _ _ _ _ _ _ _ (fun other => other = action) _ _ ⟨rfl, fun _ => trivial⟩
    (fun _ _ same => same ▸ silent) recorded

theorem records_withSlot {α : Type} {paths : List LockId} {lock : LockId} {body : Program α} {outcome : Except Error α}
    {w₁ : World} {recorded : List String} (free : paths.find? (fun lock => w.locks lock = none) = some lock)
    (inside : RecordsIn D oracle pid body (w.lock lock (some pid)) outcome w₁ recorded) :
    RecordsIn D oracle pid (withSlot paths body) w outcome (w₁.lock lock none) recorded := by
  have taken : RecordsIn D oracle pid (slot paths) w (.ok lock) (w.lock lock (some pid)) [] :=
    records_act rfl (by simp only [exec, free, map_some])
  have released : RecordsIn D oracle pid (release lock) w₁ (.ok ()) (w₁.lock lock none) [] :=
    records_act rfl rfl
  rw [← append_nil recorded]
  unfold withSlot
  exact taken.bind (inside.ensuring released)

abbrev Quiet {α : Type} (D : Deployment) (oracle : Oracle) (pid : ℕ) (program : Program α) : Prop :=
  program.Silent (M := machine D) (recordSubmission D) oracle pid Idle

section Quiet
variable {α : Type} {program : Program α}

theorem quiet_of_only (only : program.Only Act.Unblocked) : Quiet D oracle pid program :=
  only.silent fun w _ unblocked idle => by
    obtain ⟨⟨w', response, executed, locks⟩, silent⟩ := unblocked.step D oracle pid w
    exact ⟨w', response, executed, (congrFun locks _).trans idle, silent⟩

theorem unblocked_of_still (only : program.Only Act.Still) : program.Only Act.Unblocked :=
  only.mono fun action still => by
    cases action with
    | slot | release | submit => exact still.elim
    | _ => trivial

theorem unblocked_ledger (op : StandingBudget.Op) : (ledger op).Only Act.Unblocked :=
  ⟨trivial, fun _ => .ofExcept _⟩

theorem unblocked_bindProvider (context : Option ℕ) (requestId providerId partialPath : String) (generation :
    Option ℕ) : (bindProvider context requestId providerId partialPath generation).Only Act.Unblocked :=
  ⟨trivial, fun _ => .ofExcept _⟩

theorem unblocked_change (E : Instance) (context : Option ℕ) (given : Option (Option Capability))
    (requestId : String) (update : Update) : (change E context given requestId update).Only Act.Unblocked :=
  ⟨trivial, fun _ => .ofExcept _⟩

theorem quiet_withGeneration {body : ℕ → Program α} (only : ∀ generation, (body generation).Only Act.Unblocked) :
    Quiet D oracle pid (withGeneration body) := by
  intro w idle
  have free : [billing].find? (fun lock => w.locks lock = none) = some .billing := by
    simpa [Idle] using idle
  have inside : (readGeneration.bind fun generation => body (generation + 1)).Only Act.Unblocked :=
    Prog.Only.bind ⟨trivial, fun _ => trivial⟩ fun generation => only (generation + 1)
  obtain ⟨outcome, w₁, ran, -⟩ := @Prog.Only.silent _ (machine D) _ _ oracle pid _ _ _ (recordSubmission D)
    (fun _ => True) inside (fun w action unblocked _ => by
      obtain ⟨⟨w', response, executed, -⟩, silent⟩ := unblocked.step D oracle pid w
      exact ⟨w', response, executed, trivial, silent⟩) (w.lock .billing (some pid)) trivial
  exact ⟨outcome, w₁.lock .billing none, records_withSlot free ran, by simp [Idle, lock]⟩

theorem unblocked_generatedAt : generatedAt.Only Act.Unblocked :=
  unblocked_of_still ((only_ask _).bind fun _ => only_ofResult _)

theorem unblocked_marker (requestId : String) (generation : ℕ) : (marker requestId generation).Only Act.Unblocked :=
  unblocked_generatedAt.bind fun _ => ⟨trivial, fun _ => trivial⟩

theorem unblocked_current (requestId : String) (generation : ℕ) (settlementReceipt : Option Dict) :
    (current requestId generation settlementReceipt).Only Act.Unblocked :=
  (unblocked_of_still (only_inspect _)).bind fun _ => (unblocked_ledger _).bind fun _ =>
    (only_ofResult _).bind fun _ => (only_require _ _).bind fun _ => unblocked_generatedAt.bind fun _ =>
    ⟨trivial, fun _ => trivial⟩

theorem quiet_checkpointProviderBinding (requestId providerId partialPath : String) :
    Quiet D oracle pid (Billing.checkpointProviderBinding requestId providerId partialPath) :=
  quiet_withGeneration fun _ => (unblocked_marker _ _).bind fun _ =>
    (unblocked_bindProvider _ _ _ _ _).bind fun _ => (unblocked_ledger _).bind fun _ =>
    (unblocked_current _ _ _).bind fun _ => trivial

theorem quiet_checkpoint (args : RunArgs) (pinned : Bool) (providerId partialPath : String) :
    Quiet D oracle pid (checkpoint D args pinned providerId partialPath) := by
  have bound {requestId : String} :
      Quiet D oracle pid (bindProvider none requestId providerId partialPath none) :=
    quiet_of_only (unblocked_bindProvider _ _ _ _ _)
  unfold checkpoint
  by_cases named : providerId ≠ ""
  · rw [if_pos named]
    split
    · exact (quiet_of_only (only_require _ _)).bind fun _ =>
        (quiet_checkpointProviderBinding _ _ _).bind fun _ => .pure ()
    · exact (quiet_checkpointProviderBinding _ _ _).bind fun _ => .pure ()
    · exact bound
    · refine (quiet_of_only (only_require _ _)).bind fun _ => bound.bind fun _ => ?_
      split_ifs
      · exact (quiet_of_only (unblocked_ledger _)).bind fun _ => .pure ()
      · exact .pure ()
    · exact .raise _
  · rw [if_neg named]
    split_ifs
    · exact quiet_of_only (unblocked_change _ _ _ _ _)
    · exact .pure ()

theorem quiet_awaitProvider {report : String → String → Program Unit}
    (reports : ∀ providerId partialPath, Quiet D oracle pid (report providerId partialPath))
    (provider : ProviderRun) : Quiet D oracle pid (awaitProvider report provider) := by
  induction provider with
  | done path actualCost => exact .pure _
  | fail error => exact .raise error
  | checkpoint providerId partialPath next ih =>
    exact (reports providerId partialPath).attempt.bind fun outcome => ih outcome

theorem quiet_finish (args : RunArgs) (key path : String) (actual : ℚ) :
    Quiet D oracle pid (finish D args key path actual) := by
  refine quiet_of_only ?_
  unfold finish storeResult
  split_ifs
  · exact (unblocked_change _ _ _ _ _).bind fun _ => trivial
  · refine .bind ?_ fun _ => (unblocked_of_still (only_fileSha _)).bind fun _ =>
      (unblocked_change _ _ _ _ _).bind fun _ => unblocked_of_still (only_inspect _)
    exact unblocked_of_still ((only_ask _).bind fun _ => only_ofResult _)
  · refine .bind ?_ fun _ => (unblocked_of_still (only_fileSha _)).bind fun _ =>
      (unblocked_change _ _ _ _ _).bind fun _ => unblocked_of_still (only_inspect _)
    trivial

end Quiet

/-! ### From the admission check to the submission -/

def SubmitsOnce {α : Type} (D : Deployment) (oracle : Oracle) (pid : ℕ) (requestId : String) (program : Program α)
    (w : World) : Prop :=
  ∃ outcome w', RecordsIn D oracle pid program w outcome w' [requestId] ∧ Idle w'

section Submission
variable {α β : Type} {program : Program α} {requestId : String} {w₁ : World}

theorem SubmitsOnce.after {next : α → Program β}
    {value : α} (first : RecordsIn D oracle pid program w (.ok value) w₁ []) (rest :
    SubmitsOnce D oracle pid requestId (next value) w₁) : SubmitsOnce D oracle pid requestId (program.bind next) w := by
  obtain ⟨outcome, w₂, ran, idle⟩ := rest
  exact ⟨outcome, w₂, first.after ran, idle⟩

theorem SubmitsOnce.before {next : α → Program β} (first : SubmitsOnce D oracle pid requestId program w)
    (rest : ∀ value, Quiet D oracle pid (next value)) : SubmitsOnce D oracle pid requestId (program.bind next) w := by
  obtain ⟨outcome, w₁, ran, idle⟩ := first
  cases outcome with
  | error error => exact ⟨_, w₁, .bind_error ran, idle⟩
  | ok value =>
    obtain ⟨result, w₂, continued, last⟩ := rest value w₁ idle
    exact ⟨result, w₂, ran.bind continued, last⟩

theorem SubmitsOnce.withSlot {paths : List LockId} {lock : LockId} (free : paths.find? (fun lock => w.locks lock = none)
    = some lock) (inside : SubmitsOnce D oracle pid requestId program (w.lock lock (some pid))) :
    SubmitsOnce D oracle pid requestId (withSlot paths program) w := by
  obtain ⟨outcome, w₁, ran, idle⟩ := inside
  refine ⟨outcome, _, records_withSlot free ran, ?_⟩
  show Function.update w₁.locks lock none .billing = none
  rw [Function.update_apply]
  split_ifs
  · rfl
  · exact idle

end Submission
structure Unlocked (D : Deployment) (requestId : String) (w : World) : Prop where
  request : w.locks (.request requestId) = none
  worker : ∃ index < D.concurrency, w.locks (.worker index) = none
  billing : w.locks .billing = none

section Run
variable {args : RunArgs} {row : Row} {key : String} {admission : Executor.Admission}

theorem records_still {α : Type} {program : Program α} {outcome : Except Error α} (only : program.Only Act.Still)
    (ends : EndsIn D oracle pid program w outcome w') : RecordsIn D oracle pid program w outcome w' [] :=
  ends.records only fun action _ still => by
    cases action with
    | submit => exact still.elim
    | _ => rfl

theorem records_change {given : Option (Option Capability)} {requestId : String} (update : Update)
    (found : w.jobs.find? requestId = some row) (unpinned : row.generation = none) : RecordsIn D oracle pid
    (change E none given requestId update) w (.ok ()) { w with jobs := w.jobs.put (update.apply row) } [] := by
  have changed := @changeRow_eq E none given requestId w.jobs row update found (guardPinned_unpinned unpinned)
  have ends : EndsIn D oracle pid (change E none given requestId update) w (.ok ())
      { w with jobs := w.jobs.put (update.apply row) } := .request (by simp only [exec, changed, commit])
  exact @Prog.Ends.records _ (machine D) _ _ _ _ _ _ _ _ (fun action : Act => action.submission D = none) _ _
    ⟨rfl, fun _ => .ofExcept _⟩ (fun _ _ => id) ends

theorem found_put {requestId : String} (update : Update) (found : w.jobs.find? requestId = some row) :
    (w.jobs.put (update.apply row)).find? requestId = some (update.apply row) := by
  obtain ⟨-, rfl⟩ := find?_eq_some.mp found
  have there := find?_put_self w.jobs (update.apply row)
  rwa [apply_requestId] at there

theorem submits_callProvider {reported : Row} (found : w.jobs.find? (args.requestId D) = some row)
    (unpinned : row.generation = none) (idle : Idle w) :
    SubmitsOnce D oracle pid (args.requestId D) (callProvider D args reported true) w := by
  have changed := @records_change D args.executor oracle pid w row args.settlementCheckpoint.asCapability
    (args.requestId D) (.evidence args.authorization args.price) found unpinned
  unfold callProvider
  refine SubmitsOnce.after changed ?_
  obtain ⟨outcome, w₂, awaited, last⟩ := @quiet_awaitProvider D oracle pid _
    (quiet_checkpoint args reported.generation.isSome) oracle.provider
    { w with jobs := w.jobs.put ((evidence args.authorization args.price).apply row) } idle
  have ran : RecordsIn D oracle pid ((submit args.job).bind
      (awaitProvider (checkpoint D args reported.generation.isSome)))
      { w with jobs := w.jobs.put ((evidence args.authorization args.price).apply row) } outcome w₂
      ([] ++ (recordSubmission D ⟨pid, .submit args.job, oracle.provider⟩).toList) := .act rfl awaited
  exact ⟨outcome, w₂, ran, last⟩

structure Submittable (D : Deployment) (B : AuthenticatedBudgetBridge) (args : RunArgs) (oracle : Oracle) (pid : ℕ)
    (row : Row) (w : World) : Prop where
  authority : Authority D args.executor B args.job oracle pid
  configured : args.executor.standingLedger ≠ none
  plain : args.job.endpoint ≠ flux3Endpoint
  claimed : ∃ claim, w.ledger.claims.find? (args.requestId D) = some claim ∧ Claims D B args.job claim
  found : w.jobs.find? (args.requestId D) = some row
  intends : Intends D B args.job row
  marked : row.standingLedgerAdmission = some (admissionMarker D B args.job)
  prepared : row.status = .prepared
  unpinned : row.generation = none
  requested : args.submitPrepared = true

section
variable (ready : Submittable D B args oracle pid row w)
include ready

theorem submits_submitOrRecover (idle : Idle w) :
    SubmitsOnce D oracle pid (args.requestId D) (submitOrRecover D args admission row false) w := by
  obtain ⟨claim, there, claims⟩ := ready.claimed
  have verified : RecordsIn D oracle pid (verifyPreparedFalAdmission D args.executor args.job row true) w (.ok ()) w
      [] := records_still (only_verifyPreparedFalAdmission _ _ _ _)
    (ends_verify ready.authority ready.configured ready.plain there claims ready.intends fun _ => ready.marked)
  have changed := @records_change D args.executor oracle pid w row args.settlementCheckpoint.asCapability
    (args.requestId D) .submitting ready.found ready.unpinned
  have found := found_put .submitting ready.found
  have marked : RecordsIn D oracle pid (markSubmitting D args row false) w
      (.ok (submitting.apply row, true)) { w with jobs := w.jobs.put (submitting.apply row) } [] := by
    unfold markSubmitting
    rw [if_pos ⟨ready.prepared, ready.requested⟩]
    have inspected := @records_still D oracle pid { w with jobs := w.jobs.put (submitting.apply row) } _ _ _ _
      (only_inspect (args.requestId D)) (ends_inspect_iff.mpr ⟨found, rfl⟩)
    have read : RecordsIn D oracle pid (ofResult (subscript (some (submitting.apply row))))
        { w with jobs := w.jobs.put (submitting.apply row) } (.ok (submitting.apply row))
        { w with jobs := w.jobs.put (submitting.apply row) } [] :=
      records_still (only_ofResult _) (.ofExcept _)
    exact verified.after (changed.after (inspected.after (read.after (.pure _))))
  have waiting : ¬ (row.status = .prepared ∧ args.submitPrepared = false ∧ row.providerId = "" ∧
      row.partialPath = "") := by simp [ready.requested]
  have checked : RecordsIn D oracle pid (require (¬ (row.status = .prepared ∧ args.submitPrepared = false ∧
      row.providerId = "" ∧ row.partialPath = ""))
      (.runtime "prepared intent requires admission or reconciliation; no submit")) w (.ok ()) w [] :=
    records_still (only_require _ _) (ends_require_iff.mpr ⟨waiting, rfl⟩)
  have called := @submits_callProvider D oracle pid { w with jobs := w.jobs.put (submitting.apply row) } args
    (submitting.apply row) (submitting.apply row) found ready.unpinned idle
  unfold submitOrRecover
  refine SubmitsOnce.after checked (SubmitsOnce.after marked (called.before fun value => ?_))
  exact (quiet_of_only (only_ofResult _)).bind fun _ => quiet_finish _ _ _ _

theorem Submittable.rekeyed {w₁ : World}
    (ledger : w₁.ledger = w.ledger) (found : w₁.jobs.find? (args.requestId D) = some { row with cacheKey := key }) :
    Submittable D B args oracle pid { row with cacheKey := key } w₁ where
  authority := ready.authority
  configured := ready.configured
  plain := ready.plain
  claimed := ledger ▸ ready.claimed
  found := found
  intends := ⟨ready.intends.binding, ready.intends.contract, ready.intends.admission⟩
  marked := ready.marked
  prepared := ready.prepared
  unpinned := ready.unpinned
  requested := ready.requested

theorem records_admitExisting (unstarted : row.cacheKey = "")
    (answered : args.executor.cas = true → oracle.answer (.contentKey args.job) = .ok key) :
    ∃ admission w₁, RecordsIn D oracle pid (admitExisting D args row) w (.ok admission) w₁ [] ∧
      admission.cached = none ∧ admission.fresh = false ∧ w₁.locks = w.locks ∧
      ∃ later, Submittable D B args oracle pid later w₁ := by
  unfold admitExisting
  rw [if_neg (by simp [unstarted])]
  split_ifs with cas
  · have asked : RecordsIn D oracle pid (contentKey args) w (.ok key) w [] := by
      refine records_still only_contentKey ?_
      unfold contentKey
      rw [if_pos cas]
      exact .bind (ends_ask_iff.mpr ⟨answered cas, rfl⟩) (.ofExcept _)
    have changed := @records_change D args.executor oracle pid w row none (args.requestId D) (.cacheKey key)
      ready.found ready.unpinned
    exact ⟨⟨key, none, false⟩, _, asked.after (changed.after (.pure _)), rfl, rfl, rfl, _,
      ready.rekeyed rfl (found_put (.cacheKey key) ready.found)⟩
  · refine ⟨⟨"", none, false⟩, w, .pure _, rfl, rfl, rfl, row, ready⟩

theorem submits_proceed (uncached : admission.cached = none)
    (idle : Idle w) : SubmitsOnce D oracle pid (args.requestId D) (proceed D args admission row false) w := by
  have owned : requireOwner D args row = .ok () := by
    unfold requireOwner
    rw [ready.unpinned]
    rfl
  have checked : RecordsIn D oracle pid (ofResult (requireOwner D args row)) w (.ok ()) w [] :=
    records_still (only_ofResult _) (ends_ofResult_iff.mpr ⟨owned, rfl⟩)
  unfold proceed
  refine SubmitsOnce.after checked ?_
  rw [uncached]
  exact submits_submitOrRecover ready idle

theorem submits_work (unstarted : row.cacheKey = "")
    (answered : args.executor.cas = true → oracle.answer (.contentKey args.job) = .ok key) (idle : Idle w) :
    SubmitsOnce D oracle pid (args.requestId D) (work D args) w := by
  have contract : RecordsIn D oracle pid (validateInputContract args.job) w (.ok ()) w [] :=
    records_still (only_validateInputContract _) (ready.authority.contract w)
  have inspected : RecordsIn D oracle pid (inspect (args.requestId D)) w (.ok (some row)) w [] :=
    records_still (only_inspect _) (ends_inspect_iff.mpr ⟨ready.found, rfl⟩)
  obtain ⟨admission, w₁, admitted, uncached, stale, locks, later, ready₁⟩ :=
    records_admitExisting ready unstarted answered
  have again : RecordsIn D oracle pid (inspect (args.requestId D)) w₁ (.ok (some later)) w₁ [] :=
    records_still (only_inspect _) (ends_inspect_iff.mpr ⟨ready₁.found, rfl⟩)
  have routed : RecordsIn D oracle pid (routeFresh D args admission (some later)) w₁
      (.ok (some later, false)) w₁ [] := by
    unfold routeFresh
    rw [if_neg (by simp [stale]), stale]
    exact .pure _
  have read : RecordsIn D oracle pid (ofResult (subscript (some later))) w₁
      (.ok later) w₁ [] := records_still (only_ofResult _) (.ofExcept _)
  unfold work
  refine SubmitsOnce.after contract (SubmitsOnce.after inspected (SubmitsOnce.after admitted
    (SubmitsOnce.after again (SubmitsOnce.after routed (SubmitsOnce.after read ?_)))))
  rw [ready₁.prepared]
  exact submits_proceed ready₁ uncached ((congrFun locks _).trans idle)

end

theorem find_worker {n : ℕ} (some_free : ∃ index < n, w.locks (.worker index) = none) :
    ∃ index, ((range n).map worker).find? (fun lock => w.locks lock = none) = some (.worker index) := by
  obtain ⟨index, below, free⟩ := some_free
  cases first : ((range n).map worker).find? fun lock => w.locks lock = none with
  | none =>
    rw [find?_eq_none] at first
    exact absurd free (by simpa using first (.worker index) (mem_map_of_mem (mem_range.mpr below)))
  | some lock =>
    obtain ⟨taken, -, rfl⟩ := mem_map.mp (mem_of_find?_eq_some first)
    exact ⟨taken, rfl⟩

theorem submits_run (ready : Submittable D B args oracle pid row w) (unstarted : row.cacheKey = "")
    (mode : args.providerMode = args.job.mode) (unlocked : Unlocked D (args.requestId D) w)
    (answered : args.executor.cas = true → oracle.answer (.contentKey args.job) = .ok key) :
    SubmitsOnce D oracle pid (args.requestId D) (Executor.run D args) w := by
  have explicit : args.job.mode.Explicit ∧ args.providerMode = args.job.mode :=
    ⟨.inl ready.authority.mode, mode⟩
  have checked : RecordsIn D oracle pid (require (args.job.mode.Explicit ∧ args.providerMode = args.job.mode)
      (.permission "TEST/LIVE provider mode mismatch")) w (.ok ()) w [] :=
    records_still (only_require _ _) (ends_require_iff.mpr ⟨explicit, rfl⟩)
  have valid : RecordsIn D oracle pid (ofResult (validateJob args.job)) w (.ok ()) w [] :=
    records_still (only_ofResult _) (ends_ofResult_iff.mpr ⟨ready.authority.valid, rfl⟩)
  have free : [request (args.requestId D)].find? (fun lock => w.locks lock = none) =
      some (.request (args.requestId D)) := by
    simpa using unlocked.request
  unfold Executor.run
  refine SubmitsOnce.after checked (SubmitsOnce.after valid (SubmitsOnce.withSlot free ?_))
  let held : World := w.lock (.request (args.requestId D)) (some pid)
  have inspected : RecordsIn D oracle pid (inspect (args.requestId D)) held (.ok (some row)) held [] :=
    records_still (only_inspect _) (ends_inspect_iff.mpr ⟨ready.found, rfl⟩)
  have worker : ∃ index < D.concurrency, held.locks (.worker index) = none := unlocked.worker
  obtain ⟨index, taken⟩ := find_worker worker
  unfold runLocked
  refine SubmitsOnce.after inspected ?_
  have unfinished : row.status ≠ .complete := by
    rw [ready.prepared]
    decide
  show SubmitsOnce _ _ _ _ (if row.status = .complete then _ else _) _
  rw [if_neg unfinished]
  refine SubmitsOnce.withSlot taken ?_
  have inside : Submittable D B args oracle pid row (held.lock (.worker index) (some pid)) :=
    ⟨ready.authority, ready.configured, ready.plain, ready.claimed, ready.found, ready.intends, ready.marked,
      ready.prepared, ready.unpinned, ready.requested⟩
  exact submits_work inside unstarted answered unlocked.billing

end Run

/-! ## The saga -/

def RunSubmits (D : Deployment) (E : Instance) (B : AuthenticatedBudgetBridge) (job : Job) (w : World) : Prop :=
  ∀ (args : RunArgs) (oracle : Oracle) (pid : ℕ) (key : String), args.executor = E → args.job = job →
    args.providerMode = job.mode → args.submitPrepared = true → Authority D E B job oracle pid →
    (args.executor.cas = true → oracle.answer (.contentKey job) = .ok key) → Unlocked D (D.requestId job) w →
    SubmitsOnce D oracle pid (D.requestId job) (Executor.run D args) w

/-- Called in `w`, the admission returns the claim that is there, or one like `first`; both stores are as a call
that was not cut off leaves them in `w₁`, and a run submits once. -/
def Restarts (D : Deployment) (E : Instance) (B : AuthenticatedBudgetBridge) (job : Job) (oracle : Oracle) (pid : ℕ)
    (first : StandingBudget.Claim) (w₁ w : World) : Prop :=
  ∃ claim w', EndsIn D oracle pid (admitExecutorIntent D E B job) w (.ok claim) w' ∧
    (∀ c, w.ledger.claims.find? (D.requestId job) = some c → claim = c) ∧
    { claim with month := first.month } = first ∧ w'.jobs = w₁.jobs ∧ w'.ledger = claimed w₁.ledger claim ∧
    RunSubmits D E B job w'

variable {w₀ w₁ : World}

theorem runSubmits_admitted {claim : StandingBudget.Claim} (configured : E.standingLedger ≠ none) (plain : job.endpoint
    ≠ flux3Endpoint) (claims : Claims D B job claim) (there : w.ledger.claims.find? (D.requestId job) = some claim)
    (found : w.jobs.find? (D.requestId job) = some (admitted.row D B job)) : RunSubmits D E B job w := by
  rintro args oracle pid key rfl rfl mode requested authority answered unlocked
  have ready : Submittable D B args oracle pid (admitted.row D B args.job) w :=
    ⟨authority, configured, plain, ⟨claim, there, claims⟩, found, admitted.intends, rfl, rfl, rfl, requested⟩
  exact submits_run ready rfl mode unlocked answered

/-- After any number of interrupted admissions a call completes the intent if, and only if, its row is not left
between its two commits. -/
theorem admission_restarts {first : StandingBudget.Claim} (fresh : Fresh D job w₀) (uninterrupted : EndsIn D
    oracle pid (admitExecutorIntent D E B job) w₀ (.ok first) w₁) (interrupted : Interrupted D E B job w₀ w) : Restarts
    D E B job oracle pid first w₁ w ↔ ∀ row, w.jobs.find? (D.requestId job) = some row → row.status ≠ .intent := by
  have progress := interrupted.progress fresh
  have granted := granted_of_returns fresh uninterrupted
  constructor
  · rintro ⟨claim, w', ends, -⟩ row found stuck
    exact intent_refused fresh progress found stuck ends
  intro past
  obtain ⟨claim, ends, reserves, same⟩ := returns_again granted fresh progress past
  obtain ⟨other, ends₀, reserves₀, -⟩ := returns_again granted fresh ⟨.inl rfl, .inl rfl⟩ (by simp [fresh.intent])
  obtain ⟨once, rfl⟩ := uninterrupted.unique ends₀
  cases once
  obtain ⟨usd, like⟩ := reserves.reservedUsd reserves₀
  have named : claim.requestId = D.requestId job := reserves.named
  have twice : claimed (claimed w₀.ledger first) claim = claimed w₀.ledger claim := by
    unfold claimed
    rw [put_put]
    exact reserves.named.trans reserves₀.named.symm
  refine ⟨claim, _, ends, same, like, rfl, twice.symm, ?_⟩
  obtain ⟨exact, othersReserve, value, -⟩ := granted.reserved
  have claims : Claims D B job claim := by
    obtain ⟨cap, recorded, -, made⟩ := reserves
    exact ⟨⟨cap, recorded, made⟩, usd.trans ((reserves₀.reservedUsd othersReserve).1.trans value)⟩
  refine runSubmits_admitted granted.configured granted.plain claims ?_ ?_
  · rw [← named]
    exact find?_put_self _ _
  · have put := find?_put_self w₀.jobs (admitted.row D B job)
    rwa [row_requestId] at put

/-! ### A call that dies -/

def sampleBridge : AuthenticatedBudgetBridge where
  policy := ⟨.test, ["fal-ai/flux"], "budget-1", "episode-1", emptySha256, "5.000000", "20.000000", "1.000000"⟩
  executors := [0]

def sampleAdmission : Program StandingBudget.Claim :=
  admitExecutorIntent sampleBridged sampleLedgerExecutor sampleBridge sampleFal

theorem sampleAdmission_returns : ∃ first w₁,
    EndsIn sampleBridged sampleBridgeOracle 0 sampleAdmission empty (.ok first) w₁ := by
  have returned : ((sampleAdmission.evaluate (M := machine sampleBridged) (fun _ => sampleBridgeOracle) 0
      ⟨empty, []⟩).any fun done => done.1.toBool) = true := by
    decide +kernel
  cases ran : sampleAdmission.evaluate (M := machine sampleBridged) (fun _ => sampleBridgeOracle) 0
      ⟨empty, []⟩ with
  | none => simp [ran] at returned
  | some done =>
    obtain ⟨outcome, w₁, trace⟩ := done
    cases outcome with
    | error error => simp [ran, Except.toBool] at returned
    | ok first => exact ⟨first, w₁, Prog.ends_of_evaluate ran⟩

def DiesIn (count : ℕ) (status : Status) : Prop :=
  ((sampleAdmission.cutAfter (M := machine sampleBridged) sampleBridgeOracle 0 count empty).any fun w =>
    (w.jobs.find? (sampleBridged.requestId sampleFal)).any fun row => row.status = status) = true

instance (count : ℕ) (status : Status) : Decidable (DiesIn count status) := inferInstanceAs (Decidable (_ = true))

theorem DiesIn.interrupted {count : ℕ} {status : Status} (dies : DiesIn count status) :
    ∃ w row, Interrupted sampleBridged sampleLedgerExecutor sampleBridge sampleFal empty w ∧
      w.jobs.find? (sampleBridged.requestId sampleFal) = some row ∧ row.status = status := by
  unfold DiesIn at dies
  cases died : sampleAdmission.cutAfter (M := machine sampleBridged) sampleBridgeOracle 0 count empty with
  | none => simp [died] at dies
  | some w =>
    rw [died, any_some] at dies
    cases found : w.jobs.find? (sampleBridged.requestId sampleFal) with
    | none => simp [found] at dies
    | some row =>
      rw [found, any_some] at dies
      exact ⟨_, row, .again .none (.of_cutAfter died), found, of_decide_eq_true dies⟩

theorem sample_fresh : Fresh sampleBridged sampleFal empty := ⟨rfl, rfl⟩

theorem prepared_restarts : ∃ first w₁ w row, Interrupted sampleBridged sampleLedgerExecutor
    sampleBridge sampleFal empty w ∧ w.jobs.find? (sampleBridged.requestId sampleFal) = some row ∧ row.status =
    .prepared ∧ Restarts sampleBridged sampleLedgerExecutor sampleBridge sampleFal sampleBridgeOracle 0 first w₁ w := by
  obtain ⟨first, w₁, uninterrupted⟩ := sampleAdmission_returns
  have dies : DiesIn 9 .prepared := by decide +kernel
  obtain ⟨w, row, interrupted, found, prepared⟩ := dies.interrupted
  refine ⟨first, w₁, w, row, interrupted, found, prepared,
    (admission_restarts sample_fresh uninterrupted interrupted).mpr fun other there => ?_⟩
  cases found.symm.trans there
  simp [prepared]

theorem intent_never_restarts : ∃ first w₁ w, EndsIn sampleBridged sampleBridgeOracle 0 sampleAdmission
    empty (.ok first) w₁ ∧ Interrupted sampleBridged sampleLedgerExecutor sampleBridge sampleFal empty w ∧
    ¬ Restarts sampleBridged sampleLedgerExecutor sampleBridge sampleFal sampleBridgeOracle 0 first w₁ w := by
  obtain ⟨first, w₁, uninterrupted⟩ := sampleAdmission_returns
  have dies : DiesIn 7 .intent := by decide +kernel
  obtain ⟨w, row, interrupted, found, stuck⟩ := dies.interrupted
  refine ⟨first, w₁, w, uninterrupted, interrupted, ?_⟩
  rintro ⟨claim, w', ends, -⟩
  exact intent_refused sample_fresh (interrupted.progress sample_fresh) found stuck ends

end VideoPoster.Authorization
