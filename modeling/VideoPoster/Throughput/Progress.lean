import VideoPoster.Throughput.Exact

/-!
# Waves that go well
-/

namespace VideoPoster.Throughput
open Python Tables DurableQueue List Wave Items WaveState Table Nat Prod Option List.Subset Task

def Storable (result : Json) (bytes : Option ℕ) : Prop :=
  ∀ itemId, ∃ stored, summary itemId result bytes = .ok stored

def Choice.Succeeds : Choice → Prop
  | .ended (.returned result) bytes _ => Storable result bytes
  | .ended _ _ _ | .cancelled _ => False
  | .go _ | .done _ => True

structure Wave.Resumes (wave : Wave) (items : Items) : Prop where
  terminates : ∃ bound, ∀ choices s, (∀ choice ∈ choices, choice.Succeeds) →
    wave.run (wave.start items) choices = some s → choices.length ≤ bound
  continues : ∀ choices s, (∀ choice ∈ choices, choice.Succeeds) →
    wave.run (wave.start items) choices = some s → s.phase.live →
      ∃ choice : Choice, choice.Succeeds ∧ (wave.step s choice).isSome
  returns : ∀ choices s, (∀ choice ∈ choices, choice.Succeeds) →
    wave.run (wave.start items) choices = some s → ¬ s.phase.live →
      s.phase = .returned ∧ (s.results.map fst).Perm wave.ids

namespace Items
variable (items : Items)

def status (itemId : String) : Option Status := (items.inspect itemId).map QueueItem.status

def enters (item : WaveItem) : Bool :=
  items.status item.id = none ∨ items.status item.id = some .failed

end Items

def DurableQueue.fits (queue : DurableQueue) (items : Items) : ℕ → List WaveItem → Prop
  | _, [] => True
  | used, item :: rest =>
    (items.status item.id = some .failed → used < queue.capacity) ∧
      fits queue items (used + if items.enters item then 1 else 0) rest

instance instDecidableFits (queue : DurableQueue) (items : Items) :
    (used : ℕ) → (ahead : List WaveItem) → Decidable (queue.fits items used ahead)
  | _, [] => isTrue trivial
  | used, item :: rest =>
    have := instDecidableFits queue items (used + if items.enters item then 1 else 0) rest
    inferInstanceAs (Decidable (_ ∧ _))

/-! ## Places -/

section Places
variable {queue : DurableQueue} {items items' : Items} {row old new : QueueItem} {itemId : String}

theorem Items.status_of_inspect (found : items.inspect itemId = some row) : items.status itemId = some row.status := by
  rw [status, found, map_some]

theorem Items.status_eq_none : items.status itemId = none ↔ items.inspect itemId = none :=
  map_eq_none_iff

theorem Items.status_put : (items.put row).status itemId =
    if itemId = row.id then some row.status else items.status itemId := by
  unfold status inspect put
  rw [find?_put]
  split_ifs <;> rfl

theorem DurableQueue.requeueFailed_of_room (found : items.inspect row.id = some row) (failed : row.status = .failed)
    (room : ¬ queue.full items) : queue.requeueFailed items row.id = .ok (items.put row.retried, row.retried) := by
  simp [requeueFailed, found, require, failed, room]

theorem DurableQueue.requeueFailed_of_full (found : items.inspect row.id = some row) (failed : row.status = .failed)
    (full : queue.full items) : queue.requeueFailed items row.id = .error exhausted := by
  simp [requeueFailed, found, require, failed, full]
  rfl

theorem DurableQueue.enqueue_of_full {payload : Dict} {priority : ℤ} {now : ℚ} (named : itemId ≠ "")
    (absent : items.inspect itemId = none) (full : queue.full items) :
    queue.enqueue items itemId payload priority now = .error exhausted := by
  simp [enqueue, absent, require, named, full]
  rfl

theorem DurableQueue.enqueue_of_room (payload : Dict) (priority : ℤ) (now : ℚ) (named : itemId ≠ "")
    (absent : items.inspect itemId = none) (room : ¬ queue.full items) :
    ∃ pair, queue.enqueue items itemId payload priority now = .ok pair := by
  simp [enqueue, absent, require, named, room]

theorem Items.count_put_retried (found : items.inspect row.id = some row) (failed : row.status = .failed) :
    (items.put row.retried).count QueueItem.materialized = items.count QueueItem.materialized + 1 := by
  have found' : items.inspect row.retried.id = some row := found
  have counted := count_put found' QueueItem.materialized
  simpa [QueueItem.materialized, failed] using counted

theorem Items.count_put_queued (absent : items.inspect row.id = none) (queued : row.status = .queued) :
    (items.put row).count QueueItem.materialized = items.count QueueItem.materialized + 1 := by
  rw [count_put_new absent, add_comm]
  simp [QueueItem.materialized, queued]

def SameNeeds (items items' : Items) (itemId : String) : Prop :=
  (items'.status itemId = none ↔ items.status itemId = none) ∧
    (items'.status itemId = some .failed ↔ items.status itemId = some .failed)

theorem SameNeeds.put_other (other : itemId ≠ row.id) : SameNeeds items (items.put row) itemId := by
  unfold SameNeeds
  rw [status_put, if_neg other]
  exact ⟨Iff.rfl, Iff.rfl⟩

theorem SameNeeds.put (found : items.inspect old.id = some old) (id : new.id = old.id) (was : old.status ≠ .failed)
    (is : new.status ≠ .failed) (itemId : String) : SameNeeds items (items.put new) itemId := by
  by_cases own : itemId = new.id
  · have before : items.status itemId = some old.status := by
      rw [own, id]
      exact status_of_inspect found
    unfold SameNeeds
    rw [status_put, if_pos own, before]
    simp [was, is]
  · exact .put_other own

theorem SameNeeds.requeued (items : Items) (itemId : String) : SameNeeds items (requeueRunning items) itemId := by
  unfold SameNeeds status inspect requeueRunning
  rw [Table.find?_map, Option.map_map]
  cases items.table.find? itemId with
  | none => exact ⟨Iff.rfl, Iff.rfl⟩
  | some row =>
    simp only [map_some, Function.comp, QueueItem.interrupted]
    split_ifs with running
    · simp [running]
    · exact ⟨Iff.rfl, Iff.rfl⟩

theorem SameNeeds.enters {item : WaveItem} (same : SameNeeds items items' item.id) :
    items'.enters item = items.enters item := by
  unfold Items.enters
  exact decide_eq_decide.mpr (or_congr same.1 same.2)

variable {ahead : List WaveItem}

theorem DurableQueue.fits_congr (same : ∀ item ∈ ahead, SameNeeds items items' item.id) (used : ℕ) :
    queue.fits items' used ahead ↔ queue.fits items used ahead := by
  induction ahead generalizing used with
  | nil => exact Iff.rfl
  | cons item rest ih =>
    have first := same item (.head _)
    simp only [fits, first.2, first.enters, ih fun item member => same item (.tail _ member)]

variable {used : ℕ}

variable {used' : ℕ}

theorem DurableQueue.fits_mono (le : used' ≤ used)
    (fits : queue.fits items used ahead) : queue.fits items used' ahead := by
  induction ahead generalizing used used' with
  | nil => trivial
  | cons item rest ih =>
    refine ⟨fun failed => le.trans_lt (fits.1 failed), ih ?_ fits.2⟩
    exact Nat.add_le_add_right le _

theorem DurableQueue.fits_of_full (full : queue.capacity ≤ used) (fits : queue.fits items used ahead) :
    queue.fits items used' ahead := by
  induction ahead generalizing used used' with
  | nil => trivial
  | cons item rest ih =>
    refine ⟨fun failed => absurd (fits.1 failed) (not_lt.mpr full), ih ?_ fits.2⟩
    exact full.trans (le_add_right _ _)

theorem DurableQueue.exists_failed (unfit : ¬ queue.fits items used ahead) :
    ∃ item ∈ ahead, items.status item.id = some .failed := by
  induction ahead generalizing used with
  | nil => exact absurd trivial unfit
  | cons item rest ih =>
    by_cases failed : items.status item.id = some .failed
    · exact ⟨item, .head _, failed⟩
    · have later : ¬ queue.fits items _ rest := fun fits => unfit ⟨fun h => absurd h failed, fits⟩
      obtain ⟨item, member, failed⟩ := ih later
      exact ⟨item, .tail _ member, failed⟩

end Places

/-! ## What is ahead -/

def Durable (items : Items) : Prop :=
  ∀ row ∈ items.table, row.status = .complete → row.handlerResult.isSome

theorem Durable.put {items : Items} (durable : Durable items) (row : QueueItem)
    (own : row.status = .complete → row.handlerResult.isSome) : Durable (items.put row) := by
  intro other put complete
  rcases mem_put.mp put with rfl | ⟨there, -⟩
  · exact own complete
  · exact durable other there complete

def Passed (s : WaveState) (itemId : String) : Prop :=
  ∃ row ∈ s.items.table, row.id = itemId ∧ row.status ≠ .failed ∧
    (row.status = .complete → itemId ∈ s.results.map fst)

structure Ahead (wave : Wave) (s : WaveState) : Prop where
  durable : Durable s.items
  covered : ∀ row ∈ s.items.table, row.status ≠ .complete → row.id ∈ wave.ids
  passed : ∀ item ∈ wave.ordered.take s.nextIndex, Passed s item.id
  fits : wave.queue.fits s.items (s.items.count QueueItem.materialized)
    (wave.ordered.drop s.nextIndex)

section Ahead
variable {wave : Wave} {s s' : WaveState} {old new row : QueueItem} {item : WaveItem}

theorem Ahead.keep (ahead : Ahead wave s) (items : s'.items = s.items)
    (results : s'.results = s.results) (index : s'.nextIndex = s.nextIndex) : Ahead wave s' := by
  obtain ⟨durable, covered, passed, fits⟩ := ahead
  refine ⟨items ▸ durable, items ▸ covered, fun item member => ?_, ?_⟩
  · obtain ⟨row, there, facts⟩ := passed item (index ▸ member)
    refine ⟨row, items ▸ there, ?_⟩
    rwa [results]
  · rwa [items, index]

theorem Ahead.put (ahead : Ahead wave s) (new : QueueItem) (found : s.items.inspect old.id = some old)
    (id : new.id = old.id) (was : old.materialized) (is : new.status ≠ .failed) (own : new.status = .complete →
    new.handlerResult.isSome ∧ new.id ∈ s'.results.map fst) (more : s.results.map fst ⊆ s'.results.map
    fst) (items : s'.items = s.items.put new) (index : s'.nextIndex = s.nextIndex) : Ahead wave s' := by
  obtain ⟨durable, covered, passed, fits⟩ := ahead
  have member := (find?_eq_some.mp found).1
  have unfailed : old.status ≠ .failed := by
    intro failed
    simp [QueueItem.materialized, failed] at was
  refine ⟨?_, ?_, ?_, ?_⟩
  · rw [items]
    exact durable.put new fun complete => (own complete).1
  · rw [items]
    intro other put incomplete
    rcases mem_put.mp put with rfl | ⟨there, -⟩
    · rw [id]
      refine covered old member fun complete => ?_
      simp [QueueItem.materialized, complete] at was
    · exact covered other there incomplete
  · rw [index]
    intro item among
    obtain ⟨row, there, rowId, unfailed, known⟩ := passed item among
    by_cases own' : item.id = new.id
    · refine ⟨new, items ▸ mem_put.mpr (.inl rfl), own'.symm, is, fun complete => ?_⟩
      rw [own']
      exact (own complete).2
    · refine ⟨row, items ▸ mem_put.mpr (.inr ⟨there, rowId ▸ own'⟩), rowId, unfailed, ?_⟩
      exact fun complete => more (known complete)
  · rw [items, index, fits_congr fun item _ => SameNeeds.put found id unfailed is item.id]
    refine fits_mono ?_ fits
    have found' : s.items.inspect new.id = some old := id ▸ found
    have counted := count_put found' QueueItem.materialized
    rw [was, if_pos rfl] at counted
    split_ifs at counted <;> omega

theorem Ahead.drop_eq (current : wave.ordered[s.nextIndex]? = some item) :
    wave.ordered.drop s.nextIndex = item :: wave.ordered.drop (s.nextIndex + 1) := by
  obtain ⟨bound, rfl⟩ := List.getElem?_eq_some_iff.mp current
  exact drop_eq_getElem_cons bound

theorem Ahead.take_eq (current : wave.ordered[s.nextIndex]? = some item) :
    wave.ordered.take (s.nextIndex + 1) = wave.ordered.take s.nextIndex ++ [item] := by
  obtain ⟨bound, rfl⟩ := List.getElem?_eq_some_iff.mp current
  exact (take_append_getElem bound).symm

theorem Ahead.pass (ahead : Ahead wave s) (current : wave.ordered[s.nextIndex]? = some item)
    (found : s.items.inspect item.id = some row) (unfailed : row.status ≠ .failed) (known : row.status =
    .complete → item.id ∈ s'.results.map fst) (more : s.results.map fst ⊆ s'.results.map fst)
    (items : s'.items = s.items) (index : s'.nextIndex = s.nextIndex + 1) : Ahead wave s' := by
  obtain ⟨durable, covered, passed, fits⟩ := ahead
  refine ⟨items ▸ durable, items ▸ covered, ?_, ?_⟩
  · rw [index, Ahead.take_eq current]
    intro other among
    rcases mem_append.mp among with among | own
    · obtain ⟨row, there, id, unfailed, known⟩ := passed other among
      exact ⟨row, items ▸ there, id, unfailed, fun complete => more (known complete)⟩
    · obtain rfl := mem_singleton.mp own
      obtain ⟨there, id⟩ := find?_eq_some.mp found
      exact ⟨row, items ▸ there, id, unfailed, known⟩
  · rw [Ahead.drop_eq current] at fits
    have takes : s.items.enters item = false := by
      simp [enters, status_of_inspect found, unfailed]
    rw [items, index]
    simpa [fits, takes] using fits.2

theorem other_id_ne (unique : wave.ids.Nodup) (current : wave.ordered[s.nextIndex]? = some item)
    {other : WaveItem} (member : other ∈ wave.ordered.drop (s.nextIndex + 1)) : other.id ≠ item.id := by
  have sub : ((item :: wave.ordered.drop (s.nextIndex + 1)).map WaveItem.id).Nodup := by
    rw [← Ahead.drop_eq current]
    exact unique.sublist ((drop_sublist _ _).map _)
  intro same
  rw [map_cons, nodup_cons] at sub
  exact sub.1 (same ▸ mem_map_of_mem member)

theorem fits_enter (unique : wave.ids.Nodup) (new : QueueItem) (current : wave.ordered[s.nextIndex]? = some item)
    (id : new.id = item.id) (count : (s.items.put new).count QueueItem.materialized =
    s.items.count QueueItem.materialized + 1) (items : s'.items.table = (s.items.put new).table) :
    wave.queue.fits s'.items (s'.items.count QueueItem.materialized) (wave.ordered.drop (s.nextIndex + 1))
    ↔ wave.queue.fits s.items (s.items.count QueueItem.materialized + 1) (wave.ordered.drop (s.nextIndex + 1)) := by
  have counts : s'.items.count QueueItem.materialized = (s.items.put new).count QueueItem.materialized := by
    unfold Items.count
    rw [items]
  have needs : ∀ itemId, s'.items.status itemId = (s.items.put new).status itemId := by
    intro itemId
    unfold status inspect
    rw [items]
  rw [counts, count]
  refine fits_congr (fun other member => ?_) _
  unfold SameNeeds
  rw [needs]
  refine SameNeeds.put_other ?_
  rw [id]
  exact other_id_ne unique current member

theorem Ahead.enter (ahead : Ahead wave s) (unique : wave.ids.Nodup) (new : QueueItem)
    (current : wave.ordered[s.nextIndex]? = some item) (id : new.id = item.id) (enters : s.items.enters item)
    (status : new.status = .queued) (count : (s.items.put new).count QueueItem.materialized =
    s.items.count QueueItem.materialized + 1) (items : s'.items.table = (s.items.put new).table)
    (results : s'.results = s.results) (index : s'.nextIndex = s.nextIndex + 1) : Ahead wave s' := by
  obtain ⟨durable, covered, passed, fits⟩ := ahead
  have named : item.id ∈ wave.ids := mem_map_of_mem (mem_of_getElem? current)
  refine ⟨?_, ?_, ?_, ?_⟩
  · have durable := durable.put new (by simp [status])
    unfold Durable
    rwa [items]
  · rw [items]
    intro other put incomplete
    rcases mem_put.mp put with rfl | ⟨there, -⟩
    · exact id ▸ named
    · exact covered other there incomplete
  · rw [index, Ahead.take_eq current]
    intro other among
    by_cases own : other.id = new.id
    · refine ⟨new, items ▸ mem_put.mpr (.inl rfl), own.symm, by simp [status], by simp [status]⟩
    · rcases mem_append.mp among with among | last
      · obtain ⟨row, there, rowId, unfailed, known⟩ := passed other among
        refine ⟨row, items ▸ mem_put.mpr (.inr ⟨there, rowId ▸ own⟩), rowId, unfailed, ?_⟩
        rwa [results]
      · obtain rfl := mem_singleton.mp last
        exact absurd id.symm own
  · rw [Ahead.drop_eq current] at fits
    have later := fits.2
    rw [enters, if_pos rfl] at later
    rw [index]
    exact (fits_enter unique new current id count items).mpr later

end Ahead

/-! ## Steps -/

structure Steady (wave : Wave) (items₀ : Items) (s : WaveState) : Prop where
  live : s.phase.live
  exact : Exact wave items₀ s
  ahead : Ahead wave s
  stalled : s.phase = .notifying ∨ s.phase = .claiming →
    wave.ordered.length ≤ s.nextIndex ∨ wave.queue.full s.items
  heard : s.phase = .claiming → s.pending = [] ∨ wave.queue.workers ≤ s.busy
  awaited : s.phase = .waiting → tasks s ≠ []
  taken : ∀ done, s.phase = .settling done → done.Nodup ∧ done ⊆ tasks s

def Phase.rank : Phase → ℕ
  | .settling [] => 5
  | .admitting => 4
  | .notifying => 3
  | .claiming => 2
  | .waiting => 1
  | _ => 0

def Wave.work (wave : Wave) (s : WaveState) : ℕ :=
  (wave.ordered.length - s.nextIndex) + 2 * (wave.ordered.length - s.started.length) +
    2 * (wave.ordered.length - s.invoked.length) + s.busy

def Wave.distance (wave : Wave) (s : WaveState) : ℕ := 6 * wave.work s + s.phase.rank

structure Onward (wave : Wave) (items₀ : Items) (s s' : WaveState) : Prop where
  steady : s'.phase = .returned ∨ Steady wave items₀ s'
  closer : wave.distance s' < wave.distance s

theorem Phase.rank_le (phase : Phase) : phase.rank ≤ 5 := by
  unfold rank
  split <;> omega

section Onward
variable {wave : Wave} {items₀ : Items} {s s' : WaveState}

theorem Wave.distance_lt_of_work (less : wave.work s' < wave.work s) : wave.distance s' < wave.distance s := by
  have rank := s'.phase.rank_le
  unfold distance
  omega

theorem Wave.distance_lt_of_rank (same : wave.work s' ≤ wave.work s)
    (lower : s'.phase.rank < s.phase.rank) : wave.distance s' < wave.distance s := by
  unfold distance
  omega

theorem Exact.started_le (exact : Exact wave items₀ s) : s.started.length ≤ wave.ordered.length := by
  have bound := (subperm_of_subset exact.fresh exact.named).length_le
  simpa [ids] using bound

theorem Exact.invoked_le (exact : Exact wave items₀ s) : s.invoked.length ≤ wave.ordered.length := by
  cases notifies : wave.notifies with
  | false => simp [(exact.told.silent notifies).2]
  | true =>
    obtain ⟨nodup, known⟩ := exact.told.scheduled notifies
    have within : s.scheduled ⊆ wave.ids := by
      intro itemId among
      obtain ⟨entry, member, rfl⟩ := mem_map.mp ((known itemId).mp among)
      exact (exact.told.rows entry member).1
    have bound := (subperm_of_subset nodup within).length_le
    have once := (exact.told.once notifies).length_eq
    simp only [length_map, length_append, ids] at once bound
    omega

theorem Steady.of_admitting (phase : s.phase = .admitting) (kept : Kept wave items₀ s)
    (ahead : Ahead wave s) : Steady wave items₀ s := by
  have live : s.phase.live := by rw [phase]; trivial
  exact ⟨live, kept.exact live, ahead, by simp [phase], by simp [phase], by simp [phase],
    by simp [phase]⟩

variable {done : List Task}

theorem Steady.of_settling (phase : s.phase = .settling done) (kept : Kept wave items₀ s)
    (ahead : Ahead wave s) (nodup : done.Nodup) (among : done ⊆ tasks s) : Steady wave items₀ s := by
  have live : s.phase.live := by rw [phase]; trivial
  refine ⟨live, kept.exact live, ahead, by simp [phase], by simp [phase], by simp [phase], ?_⟩
  intro other same
  cases phase.symm.trans same
  exact ⟨nodup, among⟩

variable {item : WaveItem}

theorem Onward.next (phase : s.phase = .admitting) (current : wave.ordered[s.nextIndex]? = some item) (phase' : s'.phase
    = s.phase) (kept : Kept wave items₀ s') (ahead : Ahead wave s') (index : s'.nextIndex = s.nextIndex + 1) (started :
    s'.started = s.started) (invoked : s'.invoked = s.invoked) (busy : s'.busy = s.busy) : Onward wave items₀ s s' := by
  refine ⟨.inr (.of_admitting (phase'.trans phase) kept ahead), distance_lt_of_work ?_⟩
  obtain ⟨bound, -⟩ := List.getElem?_eq_some_iff.mp current
  unfold work
  rw [index, started, invoked, busy]
  omega

section
variable (steady : Steady wave items₀ s)
include steady

section
variable (phase : s.phase = .admitting)
include phase

theorem Onward.admitted
    (stalled : wave.ordered.length ≤ s.nextIndex ∨ wave.queue.full s.items) :
    Onward wave items₀ s { s with phase := .notifying } := by
  refine ⟨.inr ⟨trivial, steady.exact.moved s.nextIndex .notifying, steady.ahead.keep rfl rfl rfl,
    fun _ => stalled, nofun, nofun, nofun⟩, ?_⟩
  refine distance_lt_of_rank le_rfl ?_
  rw [phase]
  exact lt_succ_self 3

theorem Steady.resume (recover : wave.recoverFailed =
    true) (unique : wave.ids.Nodup) (current : wave.ordered[s.nextIndex]? = some item)
    {row : QueueItem} (found : s.items.inspect item.id = some row) : Onward wave items₀ s (wave.resume s row) := by
  obtain ⟨member, id⟩ := find?_eq_some.mp found
  have named : row.id ∈ wave.ids := id ▸ mem_map_of_mem (mem_of_getElem? current)
  have kept := steady.exact.resume steady.live (inspect_eq_some found) named
  unfold Wave.resume at kept ⊢
  cases status : row.status with
  | queued =>
    simp only [status] at kept ⊢
    exact .next phase current rfl kept (steady.ahead.pass current found (by simp [status])
      (by simp [status]) (refl _) rfl rfl) rfl rfl rfl rfl
  | running =>
    simp only [status] at kept ⊢
    exact .next phase current rfl kept (steady.ahead.pass current found (by simp [status])
      (by simp [status]) (refl _) rfl rfl) rfl rfl rfl rfl
  | failed =>
    have fits := steady.ahead.fits
    rw [Ahead.drop_eq current] at fits
    have wants : s.items.status item.id = some .failed := status ▸ status_of_inspect found
    have room : ¬ wave.queue.full s.items := not_le.mpr (fits.1 wants)
    simp only [status, recover, if_true,
      requeueFailed_of_room (inspect_eq_some found) status room] at kept ⊢
    refine .next phase current rfl kept (steady.ahead.enter unique row.retried current id
      (by simp [enters, wants]) rfl ?_ rfl rfl rfl) rfl rfl rfl rfl
    exact count_put_retried (inspect_eq_some found) status
  | complete =>
    obtain ⟨value, result⟩ := isSome_iff_exists.mp (steady.ahead.durable row member status)
    simp only [status, result] at kept ⊢
    unfold notify at kept ⊢
    split_ifs at kept ⊢
    · exact .next phase current rfl kept (steady.ahead.pass current found (by simp [status])
        (fun _ => id ▸ mem_keys_recorded rfl) (keys_subset_recorded rfl) rfl rfl) rfl rfl rfl rfl
    · exact .next phase current rfl kept (steady.ahead.pass current found (by simp [status])
        (fun _ => id ▸ mem_keys_recorded rfl) (keys_subset_recorded rfl) rfl rfl) rfl rfl rfl rfl

theorem Steady.admitNotifications
    (recover : wave.recoverFailed = true) (unique : wave.ids.Nodup)
    (named : ∀ item ∈ wave.ordered, item.id ≠ "") (now : ℚ) :
    Onward wave items₀ s (wave.admitNotifications s now) := by
  have kept := steady.exact.admitNotifications steady.live now
  unfold Wave.admitNotifications at kept ⊢
  cases current : wave.ordered[s.nextIndex]? with
  | none => exact .admitted steady phase (.inl (getElem?_eq_none_iff.mp current))
  | some item =>
    simp only [current] at kept ⊢
    cases found : s.items.inspect item.id with
    | some row => exact steady.resume phase recover unique current found
    | none =>
      have named := named item (mem_of_getElem? current)
      simp only [found] at kept ⊢
      by_cases full : wave.queue.full s.items
      · simp only [enqueue_of_full named found full] at kept ⊢
        exact .admitted steady phase (.inr full)
      · obtain ⟨⟨items, row⟩, entered⟩ := enqueue_of_room item.payload 0 now
          named found full
        simp only [entered] at kept ⊢
        obtain ⟨id, status, -, -, rfl⟩ := enqueue_absent found entered
        refine .next phase current rfl kept (steady.ahead.enter unique row current id ?_ status ?_ rfl
          rfl rfl) rfl rfl rfl rfl
        · simp [enters, status_eq_none.2 found]
        · exact count_put_queued (id ▸ found) status

end

theorem Steady.announce (phase : s.phase = .notifying) : Onward wave items₀ s (wave.announce s) := by
  have kept := steady.exact.announce steady.live
  have stalled := steady.stalled (.inl phase)
  have claims : (s.pending = [] ∨ wave.queue.workers ≤ s.busy) →
      Onward wave items₀ s { s with phase := .claiming } := by
    intro heard
    refine ⟨.inr ⟨trivial, steady.exact.moved s.nextIndex .claiming, steady.ahead.keep rfl rfl rfl,
      fun _ => stalled, fun _ => heard, nofun, nofun⟩, distance_lt_of_rank le_rfl ?_⟩
    rw [phase]
    exact lt_succ_self 2
  unfold Wave.announce at kept ⊢
  split at kept
  · rename_i none
    simp only [none]
    exact none ▸ claims (.inl none)
  · rename_i next pending first
    simp only [first]
    split_ifs at kept ⊢ with room
    · have exact := kept.exact steady.live
      refine ⟨.inr ⟨steady.live, exact, steady.ahead.keep rfl rfl rfl, fun _ => stalled, ?_, ?_, ?_⟩,
        distance_lt_of_work ?_⟩
      · simp [phase]
      · simp [phase]
      · simp [phase]
      · have bound := exact.invoked_le
        simp only [work, busy, length_append, length_cons, length_nil] at bound ⊢
        omega
    · exact first ▸ claims (.inr (Nat.le_of_not_lt room))

end

theorem Items.count_eq_length (items : Items) (kind : QueueItem → Bool) :
    items.count kind = (items.table.rows.filter kind).length := by
  unfold count Table.sum
  induction items.table.rows with
  | nil => rfl
  | cons row rows ih =>
    rw [map_cons, sum_cons, ih, filter_cons]
    split_ifs
    · rw [length_cons, add_comm]
    · exact zero_add _

variable {items : Items}

theorem Running.count_le {active : List String} (running : Running wave items active) :
    items.count (·.status = .running) ≤ active.length := by
  rw [count_eq_length, ← length_map QueueItem.id]
  refine (subperm_of_subset ?_ ?_).length_le
  · exact items.table.unique.sublist (filter_sublist.map _)
  · intro itemId among
    obtain ⟨row, member, rfl⟩ := mem_map.mp among
    obtain ⟨there, isRunning⟩ := mem_filter.mp member
    exact (running.iff row there).mp (of_decide_eq_true isRunning)

theorem Items.next_eq_none (none : items.next = none) : ∀ row ∈ items.table, row.status ≠ .queued := by
  intro row member queued
  have among : row ∈ (items.table.rows.filter fun row => row.status = .queued).insertionSort
      QueueItem.Before := by
    rw [mem_insertionSort]
    exact mem_filter.mpr ⟨member, decide_eq_true queued⟩
  rw [next, head?_eq_none_iff] at none
  rw [none] at among
  cases among

theorem Steady.finished (steady : Steady wave items₀ s)
    (unique : wave.ids.Nodup) (phase : s.phase = .claiming) (idle : s.active = [])
    (unqueued : ∀ row ∈ s.items.table, row.status ≠ .queued) : s.results.length = wave.ordered.length := by
  have stopped : ∀ row ∈ s.items.table, row.status ≠ .running := by
    intro row member running
    have among := (steady.exact.running.iff row member).mp running
    rw [idle] at among
    cases among
  have emptied : ¬ wave.queue.full s.items := by
    intro full
    have positive := wave.queue.positive
    unfold DurableQueue.full DurableQueue.capacity at full
    rw [count_eq_zero fun row member => by
      simp [QueueItem.materialized, unqueued row member, stopped row member]] at full
    omega
  have reached := (steady.stalled (.inr phase)).resolve_right emptied
  have known : wave.ids ⊆ s.results.map fst := by
    intro itemId among
    obtain ⟨item, member, rfl⟩ := mem_map.mp among
    rw [← take_of_length_le reached] at member
    obtain ⟨row, there, -, unfailed, recorded⟩ := steady.ahead.passed item member
    have complete : row.status = .complete := by
      have unqueued := unqueued row there
      have stopped := stopped row there
      cases status : row.status <;> simp_all
    exact recorded complete
  have atLeast := (subperm_of_subset unique known).length_le
  have perm := steady.exact.told.keys_perm (by simpa [ids] using atLeast)
  simpa [ids] using perm.length_eq

theorem Wave.work_stop (wave : Wave) (s : WaveState) (phase : Phase) : wave.work (s.stop phase) ≤ wave.work s := by
  simp [work, stop, busy]

theorem Steady.conclude (steady : Steady wave items₀ s) (unique : wave.ids.Nodup) (phase : s.phase = .claiming)
    (blocked : wave.queue.workers ≤ s.busy ∨ ∀ row ∈ s.items.table, row.status ≠ .queued) :
    Onward wave items₀ s (wave.conclude s) := by
  have positive := wave.queue.positive
  unfold Wave.conclude
  split_ifs with idle done
  · refine ⟨.inl rfl, distance_lt_of_rank (wave.work_stop s _) ?_⟩
    rw [phase]
    exact zero_lt_succ 1
  · have unbusy : s.busy = 0 := by simp [busy, idle.1, idle.2]
    have unqueued := blocked.resolve_left (by omega)
    have silent := (steady.heard phase).resolve_right (by omega)
    exact absurd ⟨steady.finished unique phase idle.1 unqueued, silent⟩ done
  · refine ⟨.inr ⟨trivial, steady.exact.moved s.nextIndex .waiting, steady.ahead.keep rfl rfl rfl,
      by simp, by simp, fun _ => ?_, by simp⟩, distance_lt_of_rank le_rfl ?_⟩
    · intro none
      refine idle ?_
      simpa [tasks] using none
    · rw [phase]
      exact lt_succ_self 1

variable {queue : DurableQueue} {worker : String} {now : ℚ}

theorem DurableQueue.claim_ne_error (named : worker ≠ "") (error : Error) : queue.claim items worker now ≠ .error error := by
  unfold claim
  simp only [require, if_pos named]
  intro wrong
  change (if _ then _ else _) = _ at wrong
  split at wrong
  · cases wrong
  · split at wrong <;> cases wrong

theorem DurableQueue.claim_none {items' : Items} (below : items.count (·.status = .running) < queue.workers)
    (none : queue.claim items worker now = .ok (items', none)) : ∀ row ∈ items.table, row.status ≠ .queued := by
  unfold claim at none
  simp only [bind_eq_ok, require_eq_ok, if_neg (not_le.mpr below)] at none
  obtain ⟨_, -, none⟩ := none
  split at none
  · rename_i next
    exact next_eq_none next
  · cases none

section
variable (steady : Steady wave items₀ s)
include steady

theorem Steady.claim (unique : wave.ids.Nodup)
    (phase : s.phase = .claiming) (now : ℚ) : Onward wave items₀ s (wave.claim s now) := by
  have kept := steady.exact.claim steady.live now
  unfold Wave.claim at kept ⊢
  split_ifs at kept ⊢ with room
  swap
  · exact steady.conclude unique phase (.inl (Nat.le_of_not_lt room))
  have below : s.items.count (·.status = .running) < wave.queue.workers := by
    refine steady.exact.running.count_le.trans_lt ?_
    unfold busy at room
    omega
  cases claimed : wave.queue.claim s.items (workerName s) now with
  | error error => exact absurd claimed (claim_ne_error (by simp [workerName]) error)
  | ok pair =>
    obtain ⟨items, row | row⟩ := pair
    · simp only
      exact steady.conclude unique phase (.inr (claim_none below claimed))
    · rcases claim_eq_ok claimed with ⟨-, wrong⟩ | ⟨old, selected, -, rfl, is⟩
      · cases wrong
      cases is
      obtain ⟨member, queued, -⟩ := next_eq_some selected
      have found := inspect_of_next selected
      have named : (old.claimed (workerName s) now).id ∈ wave.ids :=
        steady.ahead.covered old member (by simp [queued])
      simp only [claimed, if_pos named] at kept ⊢
      have exact := kept.exact steady.live
      refine ⟨.inr ⟨steady.live, exact, ?_, fun _ => ?_, fun _ => ?_, ?_, ?_⟩, distance_lt_of_work ?_⟩
      · exact steady.ahead.put (old.claimed (workerName s) now) found rfl (by simp [QueueItem.materialized, queued]) (by simp)
          (by simp) (refl _) rfl rfl
      · refine (steady.stalled (.inr phase)).imp_right fun full => ?_
        have found' : s.items.inspect (old.claimed (workerName s) now).id = some old := found
        have counted := count_put found' QueueItem.materialized
        simp only [QueueItem.materialized, queued, QueueItem.claimed_status] at counted
        unfold DurableQueue.full at full ⊢
        exact full.trans (le_of_add_le_add_right counted.ge)
      · refine (steady.heard phase).imp_right fun busy => busy.trans ?_
        simp only [WaveState.busy, length_append]
        omega
      · simp [phase]
      · simp [phase]
      · have bound := exact.started_le
        simp only [work, busy, length_append, length_cons, length_nil] at bound ⊢
        omega

theorem Steady.again (phase : s.phase = .settling []) : Onward wave items₀ s (wave.again s) := by
  have kept := steady.exact.again
  unfold Wave.again at kept ⊢
  split_ifs at kept ⊢
  · refine ⟨.inr (.of_admitting rfl kept (steady.ahead.keep rfl rfl rfl)),
      distance_lt_of_rank le_rfl ?_⟩
    rw [phase]
    exact lt_succ_self 4
  · refine ⟨.inl rfl, distance_lt_of_rank (wave.work_stop s _) ?_⟩
    rw [phase]
    exact zero_lt_succ 4

theorem Steady.wait (phase : s.phase = .waiting) (some : done ≠ []) (nodup : done.Nodup) (among : done ⊆ tasks s) :
    Onward wave items₀ s { s with phase := .settling done } := by
  refine ⟨.inr (.of_settling rfl (.of_exact (steady.exact.moved s.nextIndex _) trivial)
    (steady.ahead.keep rfl rfl rfl) nodup among), distance_lt_of_rank le_rfl ?_⟩
  rw [phase]
  cases done with
  | nil => exact absurd rfl some
  | cons task rest => exact zero_lt_one

end

variable {rest : List Task}

theorem Wave.tasks_erase_callback (entry : String × Json) (nodup : (callback entry.1 entry.2 :: rest).Nodup)
    (among : callback entry.1 entry.2 :: rest ⊆ tasks s) (active : s'.active = s.active)
    (notifications : s'.notifications = s.notifications.erase entry) : rest ⊆ tasks s' := by
  intro task member
  have other : task ≠ .callback entry.1 entry.2 := by
    rintro rfl
    exact (nodup_cons.mp nodup).1 member
  unfold tasks
  rw [active, notifications]
  rcases mem_append.mp (among (.tail _ member)) with handler | callback
  · exact mem_append_left _ handler
  · obtain ⟨own, there, rfl⟩ := mem_map.mp callback
    refine mem_append_right _ (mem_map_of_mem ?_)
    refine (mem_erase_of_ne ?_).mpr there
    rintro rfl
    exact other rfl

variable {itemId : String}

theorem Wave.tasks_erase_handler (nodup : (handler itemId :: rest).Nodup)
    (among : handler itemId :: rest ⊆ tasks s) (active : s'.active = s.active.erase itemId)
    (notifications : s'.notifications = s.notifications) : rest ⊆ tasks s' := by
  intro task member
  have other : task ≠ .handler itemId := by
    rintro rfl
    exact (nodup_cons.mp nodup).1 member
  unfold tasks
  rw [active, notifications]
  rcases mem_append.mp (among (.tail _ member)) with handler | callback
  · obtain ⟨own, there, rfl⟩ := mem_map.mp handler
    refine mem_append_left _ (mem_map_of_mem ?_)
    refine (mem_erase_of_ne ?_).mpr there
    rintro rfl
    exact other rfl
  · exact mem_append_right _ callback

variable {result : Json}

theorem Steady.settle_callback (steady : Steady wave items₀ s)
    (phase : s.phase = .settling (.callback itemId result :: rest)) (value : Json) (bytes : Option ℕ)
    (now : ℚ) : Onward wave items₀ s (wave.settle s (.callback itemId result) rest (.returned value) bytes now) := by
  have kept := steady.exact.settle (.callback itemId result) rest (.returned value) bytes now
  obtain ⟨nodup, among⟩ := steady.taken _ phase
  have there : (itemId, result) ∈ s.notifications := by
    rcases mem_append.mp (among (.head _)) with handler | callback
    · obtain ⟨own, -, wrong⟩ := mem_map.mp handler
      cases wrong
    · obtain ⟨⟨own, value⟩, there, same⟩ := mem_map.mp callback
      cases same
      exact there
  refine ⟨.inr (.of_settling rfl kept (steady.ahead.keep rfl rfl rfl) (nodup_cons.mp nodup).2 ?_),
    distance_lt_of_work ?_⟩
  · exact tasks_erase_callback (itemId, result) nodup among rfl rfl
  · have fewer := length_erase_of_mem there
    have positive := length_pos_of_mem there
    simp only [settle, work, busy]
    omega

theorem DurableQueue.complete_of_running {old : QueueItem} {result : Option Json}
    (found : items.inspect old.id = some old) (running : old.status = .running) : complete items old.id
    result now = .ok (items.put (old.finished .complete result none now), old.finished .complete result none now) := by
  simp [complete, finish, found, require, running]

section
variable (steady : Steady wave items₀ s)
include steady

theorem Steady.settle_handler (phase :
    s.phase = .settling (.handler itemId :: rest)) {bytes : Option ℕ} (storable : Storable result bytes)
    (now : ℚ) : Onward wave items₀ s (wave.settle s (.handler itemId) rest (.returned result) bytes now) := by
  have kept := steady.exact.settle (.handler itemId) rest (.returned result) bytes now
  obtain ⟨nodup, among⟩ := steady.taken _ phase
  have there : itemId ∈ s.active := by
    rcases mem_append.mp (among (.head _)) with handler | callback
    · obtain ⟨own, there, same⟩ := mem_map.mp handler
      cases same
      exact there
    · obtain ⟨own, -, wrong⟩ := mem_map.mp callback
      cases wrong
  obtain ⟨old, member, rfl⟩ := steady.exact.running.there itemId there
  have running := (steady.exact.running.iff old member).mpr there
  have found : s.items.inspect old.id = some old := find?_eq_some.mpr ⟨member, rfl⟩
  obtain ⟨stored, summarized⟩ := storable old.id
  have fewer := length_erase_of_mem there
  have positive := length_pos_of_mem there
  have own : (old.finished .complete (some (.obj stored)) none now).handlerResult = some result :=
    summary_handlerResult summarized
  simp only [Wave.settle, Wave.finish, summarized, complete_of_running found running] at kept ⊢
  unfold notify at kept ⊢
  split_ifs at kept ⊢
  all_goals
    refine ⟨.inr (.of_settling rfl kept ?_ (nodup_cons.mp nodup).2 ?_), ?_⟩
    · exact steady.ahead.put (old.finished .complete (some (.obj stored)) none now) found rfl
        (by simp [QueueItem.materialized, running]) (by simp) (fun _ => ⟨by simp [own], mem_keys_recorded rfl⟩)
        (keys_subset_recorded rfl) rfl rfl
    · exact tasks_erase_handler nodup among rfl rfl
    · refine distance_lt_of_work ?_
      simp only [record, work, busy]
      omega

theorem Steady.step (recover : wave.recoverFailed = true)
    (unique : wave.ids.Nodup) (named : ∀ item ∈ wave.ordered, item.id ≠ "") {choice : Choice}
    (succeeds : choice.Succeeds) (stepped : wave.step s choice = some s') :
    Onward wave items₀ s s' := by
  unfold Wave.step at stepped
  split at stepped
  · rename_i now phase
    cases stepped
    exact steady.admitNotifications phase recover unique named now
  · rename_i now phase
    cases stepped
    exact steady.announce phase
  · rename_i now phase
    cases stepped
    exact steady.claim unique phase now
  · rename_i done phase
    split_ifs at stepped with fits
    cases stepped
    exact steady.wait phase fits.1 fits.2.1 fits.2.2
  · cases succeeds
  · rename_i now phase
    cases stepped
    exact steady.again phase
  · rename_i task rest ending bytes now phase
    cases stepped
    cases ending with
    | returned result =>
      cases task with
      | callback itemId told => exact steady.settle_callback phase result bytes now
      | handler itemId => exact steady.settle_handler phase succeeds now
    | raised error => cases succeeds
    | aborted error => cases succeeds
  · cases stepped

theorem Steady.continues : ∃ choice : Choice, choice.Succeeds ∧ (wave.step s choice).isSome := by
  have live := steady.live
  cases phase : s.phase with
  | admitting => exact ⟨.go 0, trivial, by simp [Wave.step, phase]⟩
  | notifying => exact ⟨.go 0, trivial, by simp [Wave.step, phase]⟩
  | claiming => exact ⟨.go 0, trivial, by simp [Wave.step, phase]⟩
  | waiting =>
    obtain ⟨task, among⟩ := exists_mem_of_ne_nil _ (steady.awaited phase)
    exact ⟨.done [task], trivial, by simp [Wave.step, phase, among]⟩
  | settling done =>
    cases done with
    | nil => exact ⟨.go 0, trivial, by simp [Wave.step, phase]⟩
    | cons task rest =>
      refine ⟨.ended (.returned .null) none 0, fun itemId => ⟨_, rfl⟩, ?_⟩
      simp [Wave.step, phase]
  | returned =>
    rw [phase] at live
    cases live
  | raised error =>
    rw [phase] at live
    cases live

end

theorem Steady.run (recover : wave.recoverFailed = true) (unique : wave.ids.Nodup)
    (named : ∀ item ∈ wave.ordered, item.id ≠ "") {choices : List Choice}
    (steady : s.phase = .returned ∨ Steady wave items₀ s)
    (succeed : ∀ choice ∈ choices, choice.Succeeds) (ran : wave.run s choices = some s') :
    (s'.phase = .returned ∨ Steady wave items₀ s') ∧ choices.length + wave.distance s' ≤ wave.distance s := by
  induction choices generalizing s with
  | nil =>
    cases ran
    exact ⟨steady, (zero_add _).le⟩
  | cons choice choices ih =>
    obtain ⟨next, stepped, ran⟩ := bind_eq_some_iff.mp ran
    rcases steady with returned | steady
    · simp [Wave.step, returned] at stepped
    · have onward := steady.step recover unique named (succeed choice (.head _)) stepped
      obtain ⟨ends, paid⟩ := ih onward.steady (fun c member => succeed c (.tail _ member)) ran
      have closer := onward.closer
      rw [length_cons]
      exact ⟨ends, by omega⟩

theorem Ahead.start (durable : Durable items)
    (covered : ∀ row ∈ items.table, row.status ≠ .complete → row.id ∈ wave.ids)
    (fits : wave.queue.fits items (items.count QueueItem.materialized) wave.ordered) :
    Ahead wave { items := requeueRunning items, phase := .admitting } := by
  have completed : ∀ row : QueueItem, row.interrupted.status = .complete ↔ row.status = .complete := by
    intro row
    unfold QueueItem.interrupted
    split_ifs with running
    · simp [running]
    · rfl
  refine ⟨?_, ?_, by simp, ?_⟩
  · intro row member complete
    obtain ⟨old, there, rfl⟩ := mem_requeueRunning.mp member
    have complete := (completed old).mp complete
    simpa [QueueItem.interrupted, complete] using durable old there complete
  · intro row member incomplete
    obtain ⟨old, there, rfl⟩ := mem_requeueRunning.mp member
    rw [QueueItem.interrupted_id]
    exact covered old there fun complete => incomplete ((completed old).mpr complete)
  · rw [count_requeueRunning, count_congr fun row _ => materialized_interrupted row]
    exact (fits_congr (fun item _ => SameNeeds.requeued items item.id) _).mpr fits

theorem Steady.start (unique : wave.ids.Nodup)
    (ahead : Ahead wave { items := requeueRunning items, phase := .admitting }) :
    (wave.start items).phase = .returned ∨ Steady wave items (wave.start items) := by
  have kept := Kept.start wave items
  unfold Wave.start Wave.again at kept ⊢
  rw [if_pos unique] at kept ⊢
  split_ifs at kept ⊢
  · exact .inr (.of_admitting rfl kept (ahead.keep rfl rfl rfl))
  · exact .inl rfl

theorem resumes_of_fits (recover : wave.recoverFailed = true)
    (unique : wave.ids.Nodup) (named : ∀ item ∈ wave.ordered, item.id ≠ "") (durable : Durable items)
    (covered : ∀ row ∈ items.table, row.status ≠ .complete → row.id ∈ wave.ids)
    (fits : wave.queue.fits items (items.count QueueItem.materialized) wave.ordered) :
    wave.Resumes items := by
  have start := Steady.start unique (Ahead.start durable covered fits)
  refine ⟨⟨wave.distance (wave.start items), fun choices s succeed ran => ?_⟩,
    fun choices s succeed ran live => ?_, fun choices s succeed ran dead => ?_⟩
  · have paid := (Steady.run recover unique named start succeed ran).2
    omega
  · rcases (Steady.run recover unique named start succeed ran).1 with returned | steady
    · rw [returned] at live
      cases live
    · exact steady.continues
  · rcases (Steady.run recover unique named start succeed ran).1 with returned | steady
    · have kept := Kept.reaches (reaches_of_run .start ran)
      rw [Kept, returned] at kept
      exact ⟨returned, kept.keys⟩
    · exact absurd steady.live dead

end Onward

end VideoPoster.Throughput
