import VideoPoster.Throughput.Progress

/-!
# Which waves can be resumed
-/

namespace VideoPoster.Throughput
open Python Tables DurableQueue Wave QueueItem Durable Items WaveState List Option

/-- The tables that earlier waves leave behind, whether they end or the process does. -/
inductive Earlier (queue : DurableQueue) : Items → Prop
  | empty : Earlier queue .empty
  | wave {items : Items} {wave : Wave} {s : WaveState} (earlier : Earlier queue items)
      (same : wave.queue = queue) (reached : wave.Reaches items s) : Earlier queue s.items

/-! ## Stored results -/

section Durable
variable {wave : Wave} {s s' : WaveState}

variable {items : Items}

theorem Durable.requeued (durable : Durable items) : Durable (requeueRunning items) := by
  intro row member complete
  obtain ⟨old, there, rfl⟩ := mem_requeueRunning.mp member
  unfold interrupted at complete ⊢
  split_ifs at complete ⊢
  exact durable old there complete

theorem Durable.stop (durable : Durable s.items) (phase : Phase) : Durable (s.stop phase).items :=
  durable.requeued

theorem Durable.notify (durable : Durable s.items) (notifies : Bool) (itemId : String)
    (result : Json) : Durable ((s.record itemId result).notify notifies itemId result).items := by
  unfold WaveState.notify
  split <;> exact durable

variable {items' : Items} {itemId : String} {now : ℚ} {row : QueueItem}

theorem Durable.finish {status : Status} {result : Option Json} {error : Option String} (durable : Durable items)
    (ok : finish items itemId status result error now = .ok (items', row)) (own : ∀ old :
    QueueItem, status = .complete → (old.finished status result error now).handlerResult.isSome) : Durable items' := by
  obtain ⟨old, -, -, rfl⟩ := finish_eq_ok ok
  exact durable.put _ (own old)

theorem Durable.fail {error : String}
    (durable : Durable items) (ok : fail items itemId error now = .ok (items', row)) : Durable items' := by
  simp only [DurableQueue.fail, bind_eq_ok] at ok
  obtain ⟨_, -, ok⟩ := ok
  refine durable.finish ok fun old wrong => ?_
  cases wrong

section
variable (durable : Durable s.items)
include durable

theorem Durable.admitNotifications (now : ℚ) : Durable (wave.admitNotifications s now).items := by
  unfold Wave.admitNotifications Wave.resume
  split
  · exact durable
  split
  · split
    · split_ifs
      · split
        · rename_i items row ok
          obtain ⟨old, -, -, -, rfl⟩ := requeueFailed_eq_ok ok
          exact durable.put old.retried (by simp)
        · exact durable.stop _
      · exact durable.stop _
    · split
      · refine notify ?_ _ _ _
        exact durable
      · exact durable.stop _
    · exact durable
    · exact durable
  · rename_i absent
    split
    · rename_i items row ok
      obtain ⟨-, status, -, -, rfl⟩ := enqueue_absent absent ok
      exact durable.put row (by simp [status])
    · split_ifs
      · exact durable
      · exact durable.stop _

theorem Durable.conclude : Durable (wave.conclude s).items := by
  unfold Wave.conclude
  split_ifs
  · exact durable.stop _
  · exact durable.stop _
  · exact durable

theorem Durable.claim (now : ℚ) : Durable (wave.claim s now).items := by
  unfold Wave.claim
  split_ifs
  swap
  · exact durable.conclude
  split
  · rename_i items row ok
    rcases claim_eq_ok ok with ⟨-, wrong⟩ | ⟨old, -, -, rfl, is⟩
    · cases wrong
    have claimed := durable.put (old.claimed (workerName s) now) (by simp)
    split_ifs
    · exact claimed
    · split
      · rename_i failed
        exact (claimed.fail failed).requeued
      · exact claimed.requeued
  · exact durable.conclude
  · exact durable.stop _

theorem Durable.settle (task : Task) (rest : List Task)
    (ending : Ending) (bytes : Option ℕ) (now : ℚ) : Durable (wave.settle s task rest ending bytes now).items := by
  cases task with
  | callback itemId result =>
    cases ending with
    | returned value => exact durable
    | raised error => exact durable.requeued
    | aborted error => exact durable.requeued
  | handler itemId =>
    cases ending with
    | returned result =>
      simp only [Wave.settle, Wave.finish]
      split
      · exact durable.requeued
      rename_i stored summarized
      split
      · exact durable.requeued
      rename_i items row ok
      refine notify (s := { s with items := items, phase := _, active := _, handled := _ })
        (durable.finish ok fun old _ => ?_) _ _ _
      have own : (old.finished .complete (some (.obj stored)) none now).handlerResult = some result :=
        summary_handlerResult summarized
      rw [own]
      rfl
    | raised error =>
      simp only [Wave.settle, Wave.failed]
      split
      · rename_i failed
        exact (durable.fail failed).requeued
      · exact durable.requeued
    | aborted error => exact durable.requeued

theorem Durable.step {choice : Choice} (stepped : wave.step s choice = some s') : Durable s'.items := by
  unfold Wave.step at stepped
  split at stepped
  · cases stepped
    exact durable.admitNotifications _
  · cases stepped
    unfold announce
    split
    · exact durable
    · split_ifs <;> exact durable
  · cases stepped
    exact durable.claim _
  · split_ifs at stepped
    cases stepped
    exact durable
  · cases stepped
    exact durable.stop _
  · cases stepped
    unfold again
    split_ifs
    · exact durable
    · exact durable.stop _
  · cases stepped
    exact durable.settle _ _ _ _ _
  · cases stepped

end

theorem Durable.reaches (durable : Durable items) (reached : wave.Reaches items s) : Durable s.items := by
  induction reached with
  | start =>
    unfold start again
    split_ifs
    · exact durable.requeued
    · exact durable.requeued.requeued
    · exact durable.requeued
  | step _ stepped durable => exact durable.step stepped

theorem Durable.earlier {queue : DurableQueue} (earlier : Earlier queue items) : Durable items := by
  induction earlier with
  | empty =>
    intro row member
    cases member
  | wave _ _ reached durable => exact durable.reaches reached

end Durable

/-! ## Too many before a failed item -/

def Phase.slack : Phase → ℕ
  | .admitting | .settling [] => 0
  | _ => 1

structure Unfit (wave : Wave) (s : WaveState) : Prop where
  live : s.phase.live
  tight : ¬ wave.queue.fits s.items (s.items.count materialized - s.phase.slack)
    (wave.ordered.drop s.nextIndex)
  awaited : s.phase = .waiting → tasks s ≠ []
  single : ∀ task rest, s.phase = .settling (task :: rest) → rest = []

def Unfit.Or (wave : Wave) (s : WaveState) : Prop := (∃ error, s.phase = .raised error) ∨ Unfit wave s

section Unfit
variable {wave : Wave} {items₀ : Items} {s s' : WaveState}

theorem Unfit.or_raise (s : WaveState) (error : Error) : Unfit.Or wave (s.stop (.raised error)) :=
  .inl ⟨error, rfl⟩

theorem Unfit.unfinished (unfit : Unfit wave s) (exact : Exact wave items₀ s) :
    s.results.length < wave.ordered.length := by
  by_contra all
  have keys := exact.told.keys_perm (Nat.le_of_not_lt all)
  obtain ⟨item, member, failed⟩ := exists_failed unfit.tight
  have among : item.id ∈ wave.ids := mem_map_of_mem (mem_of_mem_drop member)
  obtain ⟨entry, known, id⟩ := mem_map.mp (keys.mem_iff.mpr among)
  obtain ⟨row, there, rowId, complete, -⟩ := (exact.told.rows entry known).2
  have found : s.items.inspect item.id = some row := Table.find?_eq_some.mpr ⟨there, rowId.trans id⟩
  rw [status_of_inspect found, complete] at failed
  cases failed

theorem Unfit.next (phase : s.phase = .admitting) (tight : ¬
    wave.queue.fits s.items (s.items.count materialized) (wave.ordered.drop s.nextIndex)) : Unfit wave s := by
  refine ⟨?_, ?_, ?_, ?_⟩
  · rw [phase]
    trivial
  · rw [phase]
    exact tight
  · simp [phase]
  · simp [phase]

variable {item : WaveItem}

variable {row : QueueItem}

theorem Unfit.pass (phase : s.phase = .admitting) (tight : ¬ wave.queue.fits s.items (s.items.count
    materialized) (wave.ordered.drop s.nextIndex)) (current : wave.ordered[s.nextIndex]? = some item)
    (found : s.items.inspect item.id = some row) (unfailed : row.status ≠ .failed) (items : s'.items = s.items)
    (index : s'.nextIndex = s.nextIndex + 1) (phase' : s'.phase = s.phase) : Unfit wave s' := by
  refine .next (phase'.trans phase) ?_
  rw [Ahead.drop_eq current] at tight
  rw [items, index]
  intro fits
  have status := status_of_inspect found
  refine tight ⟨fun failed => ?_, ?_⟩
  · rw [status] at failed
    exact absurd (some.inj failed) unfailed
  · simpa [enters, status, unfailed] using fits

theorem Unfit.enter (unique : wave.ids.Nodup) (phase : s.phase = .admitting)
    (tight : ¬ wave.queue.fits s.items (s.items.count materialized) (wave.ordered.drop s.nextIndex))
    (new : QueueItem) (current : wave.ordered[s.nextIndex]? = some item) (id : new.id = item.id) (enters :
    s.items.enters item) (room : ¬ wave.queue.full s.items) (count : (s.items.put new).count materialized =
    s.items.count materialized + 1) (items : s'.items.table = (s.items.put new).table)
    (index : s'.nextIndex = s.nextIndex + 1) (phase' : s'.phase = s.phase) : Unfit wave s' := by
  refine .next (phase'.trans phase) ?_
  rw [Ahead.drop_eq current] at tight
  rw [index, fits_enter unique new current id count items]
  intro fits
  refine tight ⟨fun _ => Nat.lt_of_not_le room, ?_⟩
  rwa [enters, if_pos rfl]

theorem Unfit.wait (tight : ¬ wave.queue.fits s.items (s.items.count materialized)
    (wave.ordered.drop s.nextIndex)) (current : wave.ordered[s.nextIndex]? = some item) (absent :
    s.items.inspect item.id = none) (full : wave.queue.full s.items) : Unfit wave { s with phase := .notifying } := by
  refine ⟨trivial, fun fits => tight ?_, nofun, nofun⟩
  rw [Ahead.drop_eq current] at fits ⊢
  have status := status_eq_none.2 absent
  have enters : s.items.enters item = true := by simp [enters, status]
  have later := fits.2
  have positive := wave.queue.positive
  have taken : s.items.count materialized - 1 + 1 = s.items.count materialized := by
    unfold DurableQueue.full DurableQueue.capacity at full
    exact Nat.sub_add_cancel (by omega)
  refine ⟨fun failed => by simp [status] at failed, ?_⟩
  rw [enters, if_pos rfl] at later ⊢
  change wave.queue.fits s.items (s.items.count materialized - 1 + 1) _ at later
  rw [taken] at later
  exact fits_of_full full later

theorem Unfit.resume (unfit : Unfit wave s) (unique : wave.ids.Nodup) (recover : wave.recoverFailed = true)
    (phase : s.phase = .admitting) (current : wave.ordered[s.nextIndex]? = some item)
    (found : s.items.inspect item.id = some row) : Unfit.Or wave (wave.resume s row) := by
  have tight := unfit.tight
  rw [phase] at tight
  have id := (Table.find?_eq_some.mp found).2
  unfold Wave.resume
  cases status : row.status with
  | queued => exact .inr (.pass phase tight current found (by simp [status]) rfl rfl rfl)
  | running => exact .inr (.pass phase tight current found (by simp [status]) rfl rfl rfl)
  | failed =>
    have found' := inspect_eq_some found
    simp only [recover, if_true]
    by_cases full : wave.queue.full s.items
    · rw [requeueFailed_of_full found' status full]
      exact Unfit.or_raise s _
    · rw [requeueFailed_of_room found' status full]
      refine .inr (.enter unique phase tight row.retried current id ?_ full ?_ rfl rfl rfl)
      · simp [enters, status_of_inspect found, status]
      · exact count_put_retried found' status
  | complete =>
    simp only
    split
    · refine .inr (.pass phase tight current found (by simp [status]) ?_ ?_ ?_)
      · unfold WaveState.notify
        split <;> rfl
      · unfold WaveState.notify
        split <;> rfl
      · exact phase_notify _ _ _
    · exact Unfit.or_raise s _

theorem Unfit.admitNotifications (unfit : Unfit wave s) (unique : wave.ids.Nodup)
    (recover : wave.recoverFailed = true) (named : ∀ item ∈ wave.ordered, item.id ≠ "")
    (phase : s.phase = .admitting) (now : ℚ) : Unfit.Or wave (wave.admitNotifications s now) := by
  have tight := unfit.tight
  rw [phase] at tight
  unfold Wave.admitNotifications
  cases current : wave.ordered[s.nextIndex]? with
  | none =>
    rw [drop_eq_nil_of_le (getElem?_eq_none_iff.mp current)] at tight
    exact absurd trivial tight
  | some item =>
    simp only
    cases found : s.items.inspect item.id with
    | some row => exact unfit.resume unique recover phase current found
    | none =>
      have named := named item (mem_of_getElem? current)
      simp only
      by_cases full : wave.queue.full s.items
      · rw [enqueue_of_full named found full]
        exact .inr (.wait tight current found full)
      · obtain ⟨⟨items, row⟩, entered⟩ := enqueue_of_room item.payload 0 now
          named found full
        rw [entered]
        obtain ⟨id, status, -, -, rfl⟩ := enqueue_absent found entered
        refine .inr (.enter unique phase tight row current id ?_ full ?_ rfl rfl rfl)
        · simp [enters, status_eq_none.2 found]
        · exact count_put_queued (id ▸ found) status

variable {items : Items}

theorem unfit_put {queue : DurableQueue} {ahead : List WaveItem} {used used' : ℕ}
    (tight : ¬ queue.fits items used ahead) (new : QueueItem) {old : QueueItem}
    (found : items.inspect old.id = some old) (id : new.id = old.id) (was : old.status ≠ .failed)
    (is : new.status ≠ .failed) (le : used ≤ used') : ¬ queue.fits (items.put new) used' ahead := by
  rw [fits_congr fun item _ => SameNeeds.put found id was is item.id]
  exact fun fits => tight (fits_mono le fits)

section
variable (unfit : Unfit wave s)
include unfit

theorem Unfit.announce (phase : s.phase = .notifying) : Unfit wave (wave.announce s) := by
  have tight := unfit.tight
  rw [phase] at tight
  have claims : Unfit wave { s with phase := .claiming } := ⟨trivial, tight, nofun, nofun⟩
  unfold Wave.announce
  split
  · exact claims
  · split_ifs
    · refine ⟨unfit.live, ?_, ?_, ?_⟩
      · exact unfit.tight
      · simp [phase]
      · simp [phase]
    · exact claims

theorem Unfit.conclude (exact : Exact wave items₀ s)
    (phase : s.phase = .claiming) : Unfit.Or wave (wave.conclude s) := by
  have tight := unfit.tight
  rw [phase] at tight
  unfold Wave.conclude
  split_ifs with idle done
  · exact absurd done.1 (unfit.unfinished exact).ne
  · exact Unfit.or_raise s _
  · refine .inr ⟨trivial, tight, fun _ none => idle ?_, nofun⟩
    simpa [tasks] using none

theorem Unfit.claim (exact : Exact wave items₀ s)
    (phase : s.phase = .claiming) (now : ℚ) : Unfit.Or wave (wave.claim s now) := by
  have tight := unfit.tight
  rw [phase] at tight
  unfold Wave.claim
  split_ifs
  swap
  · exact unfit.conclude exact phase
  split
  · rename_i items row ok
    rcases claim_eq_ok ok with ⟨-, wrong⟩ | ⟨old, selected, -, rfl, is⟩
    · cases wrong
    cases is
    split_ifs
    · have found := inspect_of_next selected
      have queued := (next_eq_some selected).2.1
      have found' : s.items.inspect (old.claimed (workerName s) now).id = some old := found
      have counted := count_put found' materialized
      simp only [materialized, queued, claimed_status] at counted
      refine .inr ⟨unfit.live, ?_, by simp [phase], by simp [phase]⟩
      refine unfit_put unfit.tight (old.claimed (workerName s) now) found rfl (by simp [queued]) (by simp) ?_
      exact Nat.sub_le_sub_right (Nat.le_of_add_le_add_right counted.ge) _
    · split
      · exact .inl ⟨_, rfl⟩
      · exact .inl ⟨_, rfl⟩
  · exact unfit.conclude exact phase
  · exact Unfit.or_raise s _

theorem Unfit.settle {task : Task} (phase : s.phase = .settling [task])
    (now : ℚ) : Unfit.Or wave (wave.settle s task [] (.returned .null) none now) := by
  have tight := unfit.tight
  rw [phase] at tight
  cases task with
  | callback itemId result =>
    refine .inr ⟨trivial, fun fits => tight ?_, nofun, nofun⟩
    exact fits_mono (Nat.sub_le _ _) fits
  | handler itemId =>
    simp only [Wave.settle, Wave.finish]
    split
    · exact .inl ⟨_, rfl⟩
    rename_i stored summarized
    split
    · exact .inl ⟨_, rfl⟩
    rename_i items row ok
    obtain ⟨old, found, running, rfl⟩ := finish_eq_ok ok
    obtain rfl := (Table.find?_eq_some.mp found).2
    have found' : s.items.inspect (old.finished .complete (some (.obj stored)) none now).id = some old := found
    have counted := count_put found' materialized
    simp [materialized, running] at counted
    have settled : ∀ {s' : WaveState}, s'.phase = .settling [] →
        s'.items = s.items.put (old.finished .complete (some (.obj stored)) none now) →
        s'.nextIndex = s.nextIndex → Unfit wave s' := by
      intro s' phase' items index
      refine ⟨by rw [phase']; trivial, ?_, by simp [phase'], by simp [phase']⟩
      rw [items, index, phase']
      refine unfit_put tight _ found rfl (by simp [running]) (by simp) ?_
      exact (Nat.sub_eq_of_eq_add counted.symm).le
    unfold WaveState.notify
    split <;> exact .inr (settled rfl rfl rfl)

theorem Unfit.step (exact : Exact wave items₀ s) (unique : wave.ids.Nodup)
    (recover : wave.recoverFailed = true) (named : ∀ item ∈ wave.ordered, item.id ≠ "") :
    ∃ choice : Choice, choice.Succeeds ∧ ∃ s', wave.step s choice = some s' ∧ Unfit.Or wave s' := by
  have live := unfit.live
  cases phase : s.phase with
  | admitting =>
    exact ⟨.go 0, trivial, _, by simp [Wave.step, phase], unfit.admitNotifications unique recover named phase 0⟩
  | notifying => exact ⟨.go 0, trivial, _, by simp [Wave.step, phase], .inr (unfit.announce phase)⟩
  | claiming => exact ⟨.go 0, trivial, _, by simp [Wave.step, phase], unfit.claim exact phase 0⟩
  | waiting =>
    obtain ⟨task, among⟩ := exists_mem_of_ne_nil _ (unfit.awaited phase)
    have tight := unfit.tight
    rw [phase] at tight
    refine ⟨.done [task], trivial, { s with phase := .settling [task] }, ?_, .inr ?_⟩
    · simp [Wave.step, phase, among]
    · refine ⟨trivial, tight, by simp, fun other rest same => ?_⟩
      cases same
      rfl
  | settling done =>
    cases done with
    | nil =>
      refine ⟨.go 0, trivial, wave.again s, by simp [Wave.step, phase], .inr ?_⟩
      have tight := unfit.tight
      rw [phase] at tight
      unfold again
      rw [if_pos (.inl (unfit.unfinished exact))]
      exact .next rfl tight
    | cons task rest =>
      obtain rfl := unfit.single task rest phase
      refine ⟨.ended (.returned .null) none 0, fun itemId => ⟨_, rfl⟩,
        wave.settle s task [] (.returned .null) none 0, ?_, unfit.settle phase 0⟩
      simp [Wave.step, phase]
  | returned =>
    rw [phase] at live
    cases live
  | raised error =>
    rw [phase] at live
    cases live

end

theorem Unfit.start (unique : wave.ids.Nodup) (tight :
    ¬ wave.queue.fits items (items.count materialized) wave.ordered) : Unfit wave (wave.start items) := by
  have some : wave.ordered ≠ [] := by
    intro none
    rw [none] at tight
    exact tight trivial
  unfold Wave.start Wave.again
  rw [if_pos unique, if_pos (.inl (length_pos_iff.mpr some))]
  refine .next rfl ?_
  rw [count_requeueRunning, count_congr fun row _ => materialized_interrupted row,
    fits_congr fun item _ => SameNeeds.requeued items item.id]
  exact tight

theorem Wave.run_concat {choices : List Choice} {choice : Choice} {next : WaveState} (ran : wave.run s choices =
    some s') (stepped : wave.step s' choice = some next) : wave.run s (choices ++ [choice]) = some next := by
  induction choices generalizing s with
  | nil =>
    cases ran
    simp [run, stepped]
  | cons first choices ih =>
    obtain ⟨middle, firstStep, ran⟩ := bind_eq_some_iff.mp ran
    exact bind_eq_some_iff.mpr ⟨middle, firstStep, ih ran⟩

theorem Unfit.run (resumes : wave.Resumes items) (unique : wave.ids.Nodup)
    (recover : wave.recoverFailed = true) (named : ∀ item ∈ wave.ordered, item.id ≠ "")
    (tight : ¬ wave.queue.fits items (items.count materialized) wave.ordered) (n : ℕ) :
    ∃ choices s, choices.length = n ∧ (∀ choice ∈ choices, choice.Succeeds) ∧
      wave.run (wave.start items) choices = some s ∧ Unfit wave s := by
  induction n with
  | zero => exact ⟨[], _, rfl, forall_mem_nil _, rfl, .start unique tight⟩
  | succ n ih =>
    obtain ⟨choices, s, length, succeed, ran, unfit⟩ := ih
    have exact := (Kept.reaches (reaches_of_run .start ran)).exact unfit.live
    obtain ⟨choice, succeeds, next, stepped, either⟩ := unfit.step exact unique recover named
    have ran' := run_concat ran stepped
    have succeed' : ∀ c ∈ choices ++ [choice], c.Succeeds := by
      intro c member
      rcases mem_append.mp member with member | own
      · exact succeed c member
      · exact mem_singleton.mp own ▸ succeeds
    rcases either with ⟨error, raised⟩ | unfit
    · have returned := (resumes.returns _ next succeed' ran' (by rw [raised]; exact id)).1
      rw [raised] at returned
      cases returned
    · exact ⟨choices ++ [choice], next, by simp [length], succeed', ran', unfit⟩

end Unfit

theorem resumes_iff {wave : Wave} {items : Items} (earlier : Earlier wave.queue items)
    (recover : wave.recoverFailed = true) (unique : wave.ids.Nodup)
    (named : ∀ item ∈ wave.ordered, item.id ≠ "")
    (covered : ∀ row ∈ items.table, row.status ≠ .complete → row.id ∈ wave.ids) :
    wave.Resumes items ↔
      wave.queue.fits items (items.count materialized) wave.ordered := by
  constructor
  · intro resumes
    by_contra tight
    obtain ⟨bound, terminates⟩ := resumes.terminates
    obtain ⟨choices, s, length, succeed, ran, -⟩ :=
      Unfit.run resumes unique recover named tight (bound + 1)
    have short := terminates choices s succeed ran
    omega
  · exact resumes_of_fits recover unique named (.earlier earlier) covered

def failingWave : Wave :=
  { queue := oneWorker, ordered := [⟨"a", []⟩], recoverFailed := false, notifies := false }

def failingChoices : List Choice :=
  [.go 0, .go 0, .go 0, .go 0, .go 0, .done [.handler "a"],
    .ended (.raised (.runtime "provider unavailable")) none 1]

def failedTable : Items :=
  ((failingWave.run (failingWave.start .empty) failingChoices).map items).getD .empty

def retryWave (itemIds : List String) : Wave :=
  { queue := oneWorker, ordered := itemIds.map (⟨·, []⟩), recoverFailed := true, notifies := false }

theorem failedTable_earlier : Earlier oneWorker failedTable := by
  have ran : (failingWave.run (failingWave.start .empty) failingChoices).isSome := by decide
  obtain ⟨s, ran⟩ := isSome_iff_exists.mp ran
  have same : failedTable = s.items := by rw [failedTable, ran, map_some, getD_some]
  rw [same]
  exact @Earlier.wave oneWorker .empty failingWave s .empty rfl (reaches_of_run .start ran)

theorem failed_first_resumes : (retryWave ["a", "b"]).Resumes failedTable := by
  refine (resumes_iff failedTable_earlier rfl (by decide) (by decide) ?_).mpr (by decide)
  change ∀ row ∈ failedTable.table.rows, _
  decide

theorem failed_behind_new_not_resumed : Earlier oneWorker failedTable ∧
    (∀ row ∈ failedTable.table, row.status ≠ .complete → row.id ∈ (retryWave ["b", "a"]).ids) ∧
    ¬ (retryWave ["b", "a"]).Resumes failedTable := by
  refine ⟨failedTable_earlier, ?_, fun resumes => ?_⟩
  · change ∀ row ∈ failedTable.table.rows, _
    decide
  · have ran : (((retryWave ["b", "a"]).run ((retryWave ["b", "a"]).start failedTable)
        [.go 0, .go 0]).map phase) = some (.raised exhausted) := by
      decide
    obtain ⟨s, ran, raised⟩ := map_eq_some_iff.mp ran
    have succeed : ∀ choice ∈ [Choice.go 0, .go 0], choice.Succeeds := by
      intro choice member
      simp at member
      subst member
      trivial
    have returned := (resumes.returns _ s succeed ran (by rw [raised]; exact id)).1
    rw [raised] at returned
    cases returned

end VideoPoster.Throughput
