import VideoPoster.Throughput.Wave

/-!
# What a wave returns
-/

namespace VideoPoster.Throughput
open Python Tables List WaveState Prod Wave DurableQueue

structure Running (wave : Wave) (items : Items) (active : List String) : Prop where
  iff : ∀ row ∈ items.table, row.status = .running ↔ row.id ∈ active
  there : ∀ itemId ∈ active, ∃ row ∈ items.table, row.id = itemId
  nodup : active.Nodup
  within : active ⊆ wave.ids

def Completed (items : Items) (entry : String × Json) : Prop :=
  ∃ row ∈ items.table, row.id = entry.1 ∧ row.status = .complete ∧
    row.handlerResult = some entry.2

variable {itemId : String}

theorem Completed.unique {items : Items} {a b : Json}
    (first : Completed items (itemId, a)) (second : Completed items (itemId, b)) : a = b := by
  obtain ⟨row, member, id, -, result⟩ := first
  obtain ⟨other, otherMember, otherId, -, otherResult⟩ := second
  cases Table.eq_of_key member otherMember (id.trans otherId.symm)
  exact Option.some.inj (result.symm.trans otherResult)

structure Told (wave : Wave) (s : WaveState) : Prop where
  keys : (s.results.map fst).Nodup
  rows : ∀ entry ∈ s.results, entry.1 ∈ wave.ids ∧ Completed s.items entry
  silent : wave.notifies = false → s.pending = [] ∧ s.invoked = []
  scheduled : wave.notifies = true →
    s.scheduled.Nodup ∧ ∀ itemId, itemId ∈ s.scheduled ↔ itemId ∈ s.results.map fst
  once : wave.notifies = true → ((s.pending ++ s.invoked).map fst).Perm s.scheduled
  same : ∀ entry ∈ s.pending ++ s.invoked, entry ∈ s.results

structure Exact (wave : Wave) (items₀ : Items) (s : WaveState) : Prop where
  running : Running wave s.items s.active
  told : Told wave s
  completes : ∀ row ∈ s.items.table, row.status = .complete → row ∈ items₀.table ∨
    ∃ result, row.handlerResult = some result ∧ (row.id, result) ∈ s.handled
  fresh : s.started.Nodup
  named : s.started ⊆ wave.ids
  started : ∀ itemId ∈ s.started, itemId ∈ s.active ∨
    ∃ row ∈ s.items.table, row.id = itemId ∧ row.status = .complete
  bound : s.busy ≤ wave.queue.workers

/-! ## Tables -/

section Tables
variable {wave : Wave} {items : Items} {active : List String} {row old new : QueueItem}

section
variable (running : Running wave items active)
include running

theorem Running.put_same (found : items.inspect old.id = some old) (id : new.id =
    old.id) (was : old.status ≠ .running) (is : new.status ≠ .running) : Running wave (items.put new) active := by
  have member := (Table.find?_eq_some.mp found).1
  have inactive : old.id ∉ active := fun among => was ((running.iff old member).mpr among)
  refine ⟨fun row put => ?_, fun itemId among => ?_, running.nodup, running.within⟩
  · rcases Table.mem_put.mp put with rfl | ⟨there, -⟩
    · rw [id]
      exact ⟨fun now => absurd now is, fun among => absurd among inactive⟩
    · exact running.iff row there
  · obtain ⟨row, there, rfl⟩ := running.there itemId among
    refine ⟨row, Table.mem_put.mpr (.inr ⟨there, fun same => ?_⟩), rfl⟩
    exact inactive (id ▸ same ▸ among)

theorem Running.put_new (absent : items.inspect new.id = none)
    (is : new.status ≠ .running) (sequence : ℕ) :
    Running wave { items.put new with lastSequence := sequence } active := by
  have missing := Table.find?_eq_none.mp absent
  have inactive : new.id ∉ active := by
    intro among
    obtain ⟨row, there, same⟩ := running.there _ among
    exact missing row there same
  refine ⟨fun row put => ?_, fun itemId among => ?_, running.nodup, running.within⟩
  · rcases Table.mem_put.mp put with rfl | ⟨there, -⟩
    · exact ⟨fun now => absurd now is, fun among => absurd among inactive⟩
    · exact running.iff row there
  · obtain ⟨row, there, rfl⟩ := running.there itemId among
    exact ⟨row, Table.mem_put.mpr (.inr ⟨there, missing row there⟩), rfl⟩

theorem Running.put_claimed
    (found : items.inspect old.id = some old) (id : new.id = old.id) (was : old.status ≠ .running)
    (is : new.status = .running) (named : old.id ∈ wave.ids) : Running wave (items.put new) (active ++ [old.id]) := by
  have member := (Table.find?_eq_some.mp found).1
  have inactive : old.id ∉ active := fun among => was ((running.iff old member).mpr among)
  refine ⟨fun row put => ?_, fun itemId among => ?_, ?_, ?_⟩
  · rcases Table.mem_put.mp put with rfl | ⟨there, ne⟩
    · simp [is, id]
    · rw [running.iff row there]
      simp [← id, ne]
  · rcases mem_append.mp among with among | own
    · obtain ⟨row, there, rfl⟩ := running.there itemId among
      refine ⟨row, Table.mem_put.mpr (.inr ⟨there, fun same => ?_⟩), rfl⟩
      exact inactive (id ▸ same ▸ among)
    · refine ⟨new, Table.mem_put.mpr (.inl rfl), ?_⟩
      rw [id, mem_singleton.mp own]
  · exact nodup_append.mpr ⟨running.nodup, nodup_singleton _, by
      rintro a among b own rfl
      exact inactive (mem_singleton.mp own ▸ among)⟩
  · intro itemId among
    rcases mem_append.mp among with among | own
    · exact running.within among
    · exact mem_singleton.mp own ▸ named

theorem Running.put_finished (id : new.id = old.id) (is : new.status ≠ .running) :
    Running wave (items.put new) (active.erase old.id) := by
  refine ⟨fun row put => ?_, fun itemId among => ?_, running.nodup.erase _,
    fun itemId among => running.within (mem_of_mem_erase among)⟩
  · rcases Table.mem_put.mp put with rfl | ⟨there, ne⟩
    · rw [id]
      exact ⟨fun now => absurd now is, fun among => absurd among running.nodup.not_mem_erase⟩
    · rw [running.iff row there, mem_erase_of_ne (id ▸ ne)]
  · obtain ⟨row, there, rfl⟩ := running.there itemId (mem_of_mem_erase among)
    refine ⟨row, Table.mem_put.mpr (.inr ⟨there, fun same => ?_⟩), rfl⟩
    rw [id] at same
    rw [same] at among
    exact running.nodup.not_mem_erase among

end

theorem Running.requeued (wave : Wave) (items : Items) : Running wave (requeueRunning items) [] := by
  refine ⟨fun row member => ?_, nofun, nodup_nil, nil_subset _⟩
  obtain ⟨old, -, rfl⟩ := mem_requeueRunning.1 member
  exact ⟨fun running => absurd running (running_interrupted old), nofun⟩

end Tables

/-! ## Results and callbacks -/

section Told
variable {wave : Wave} {items items' items₀ : Items} {s s' : WaveState} {entry : String × Json}

theorem Completed.change {queue : DurableQueue} (change : Change queue items items')
    (completed : Completed items entry) : Completed items' entry := by
  obtain ⟨row, member, id, complete, result⟩ := completed
  exact ⟨row, change.complete member complete, id, complete, result⟩

theorem Told.keep (told : Told wave s) (completed : ∀ entry, Completed s.items entry → Completed s'.items entry)
    (results : s'.results = s.results) (scheduled : s'.scheduled = s.scheduled)
    (pending : s'.pending = s.pending) (invoked : s'.invoked = s.invoked) : Told wave s' := by
  obtain ⟨keys, rows, silent, known, once, same⟩ := told
  refine ⟨?_, fun entry member => ?_, ?_, ?_, ?_, ?_⟩
  · rwa [results]
  · rw [results] at member
    exact ⟨(rows entry member).1, completed entry (rows entry member).2⟩
  · rwa [pending, invoked]
  · rwa [scheduled, results]
  · rwa [pending, invoked, scheduled]
  · rwa [pending, invoked, results]

variable {result : Json}

theorem mem_record : entry ∈ (s.record itemId result).results ↔
      entry = (itemId, result) ∨ entry ∈ s.results ∧ entry.1 ≠ itemId := by
  simp [record]

theorem mem_keys_record {key : String} : key ∈ (s.record itemId result).results.map fst ↔
      key = itemId ∨ key ∈ s.results.map fst := by
  simp only [mem_map, mem_record]
  constructor
  · rintro ⟨entry, rfl | ⟨member, -⟩, rfl⟩
    · exact .inl rfl
    · exact .inr ⟨entry, member, rfl⟩
  · rintro (rfl | ⟨entry, member, rfl⟩)
    · exact ⟨_, .inl rfl, rfl⟩
    · by_cases own : entry.1 = itemId
      · exact ⟨_, .inl rfl, own.symm⟩
      · exact ⟨entry, .inr ⟨member, own⟩, rfl⟩

theorem mem_keys_recorded {s' : WaveState}
    (same : s'.results = (s.record itemId result).results) : itemId ∈ s'.results.map fst := by
  rw [same]
  exact mem_keys_record.2 (.inl rfl)

theorem keys_subset_recorded {s' : WaveState} (same : s'.results = (s.record itemId result).results) :
    s.results.map fst ⊆ s'.results.map fst := by
  intro key among
  rw [same]
  exact mem_keys_record.2 (.inr among)

theorem Told.recorded (told : Told wave s) (completed : Completed s.items (itemId, result))
    (member : entry ∈ s.results) : entry ∈ (s.record itemId result).results := by
  rw [mem_record]
  by_cases own : entry.1 = itemId
  · left
    obtain ⟨key, value⟩ := entry
    obtain rfl : key = itemId := own
    rw [(told.rows _ member).2.unique completed]
  · exact .inr ⟨member, own⟩

theorem Told.notify (told : Told wave s) (named : itemId ∈ wave.ids) (completed : Completed s.items (itemId, result)) :
    Told wave ((s.record itemId result).notify wave.notifies itemId result) := by
  have keys : ((s.record itemId result).results.map fst).Nodup := by
    rw [record, map_cons, nodup_cons]
    exact ⟨by simp, told.keys.sublist (filter_sublist.map _)⟩
  have rows : ∀ entry ∈ (s.record itemId result).results, entry.1 ∈ wave.ids ∧ Completed s.items entry := by
    intro entry member
    rcases mem_record.1 member with rfl | ⟨member, -⟩
    · exact ⟨named, completed⟩
    · exact told.rows entry member
  have same : ∀ entry ∈ s.pending ++ s.invoked, entry ∈ (s.record itemId result).results :=
    fun entry member => told.recorded completed (told.same entry member)
  unfold WaveState.notify
  split_ifs with quiet
  · refine ⟨keys, rows, told.silent, fun notifies => ⟨(told.scheduled notifies).1, fun key => ?_⟩,
      told.once, same⟩
    have among : itemId ∈ s.scheduled := quiet.resolve_left (by simp [notifies])
    rw [mem_keys_record, ← (told.scheduled notifies).2]
    exact ⟨.inr, fun either => either.elim (· ▸ among) id⟩
  · have notifies : wave.notifies = true := by simpa using fun h => quiet (.inl h)
    have unknown : itemId ∉ s.scheduled := fun among => quiet (.inr among)
    obtain ⟨nodup, known⟩ := told.scheduled notifies
    refine ⟨keys, rows, fun silent => ?_, fun _ => ⟨?_, fun key => ?_⟩, fun _ => ?_, ?_⟩
    · rw [notifies] at silent
      cases silent
    · exact nodup_cons.mpr ⟨unknown, nodup⟩
    · change key ∈ itemId :: s.scheduled ↔ _
      rw [mem_keys_record, mem_cons, known]
    · change (((s.pending ++ [(itemId, result)]) ++ s.invoked).map fst).Perm
        (itemId :: s.scheduled)
      rw [append_assoc, singleton_append]
      exact (perm_middle.map _).trans ((told.once notifies).cons _)
    · intro entry member
      change entry ∈ (s.pending ++ [(itemId, result)]) ++ s.invoked at member
      rw [append_assoc, singleton_append, perm_middle.mem_iff] at member
      rcases mem_cons.mp member with rfl | member
      · exact mem_record.2 (.inl rfl)
      · exact same entry member

theorem Told.announced (told : Told wave s) {next : String × Json} {pending : List (String × Json)}
    (first : s.pending = next :: pending) (waiting : List (String × Json)) :
    Told wave { s with
      pending := pending, notifications := waiting, invoked := next :: s.invoked } := by
  have moved : (pending ++ next :: s.invoked).Perm (s.pending ++ s.invoked) := by
    rw [first]
    exact perm_middle
  refine ⟨told.keys, told.rows, fun silent => ?_, told.scheduled, fun notifies => ?_, ?_⟩
  · have none := (told.silent silent).1
    rw [first] at none
    cases none
  · exact (moved.map _).trans (told.once notifies)
  · intro entry member
    exact told.same entry (moved.mem_iff.mp member)

end Told

/-! ## Steps -/

structure Over (s : WaveState) : Prop where
  idle : ∀ row ∈ s.items.table, row.status ≠ .running
  fresh : s.started.Nodup
  quiet : s.busy = 0

structure Returned (wave : Wave) (items₀ : Items) (s : WaveState) : Prop where
  ended : Over s
  keys : (s.results.map fst).Perm wave.ids
  values : ∀ entry ∈ s.results, entry ∈ s.handled ∨ Completed items₀ entry
  told : wave.notifies = true → s.invoked.Perm s.results

def Kept (wave : Wave) (items₀ : Items) (s : WaveState) : Prop :=
  match s.phase with
  | .returned => Returned wave items₀ s
  | .raised _ => Over s
  | _ => Exact wave items₀ s

section Steps
variable {wave : Wave} {items₀ : Items} {s : WaveState} {phase : Phase}

theorem Over.stop (fresh : s.started.Nodup) (phase : Phase) : Over (s.stop phase) := by
  refine ⟨fun row member => ?_, fresh, rfl⟩
  obtain ⟨old, -, rfl⟩ := mem_requeueRunning.1 member
  exact running_interrupted old

theorem Kept.raise (fresh : s.started.Nodup) (error : Error) :
    Kept wave items₀ (s.stop (.raised error)) := Over.stop fresh (.raised error)

section
variable (exact : Exact wave items₀ s)
include exact

theorem Exact.changed {items : Items} (index : ℕ) (phase : Phase)
    (change : Change wave.queue s.items items) (running : Running wave items s.active)
    (completes : ∀ row ∈ items.table, row.status = .complete → row ∈ s.items.table) :
    Exact wave items₀ { s with items := items, nextIndex := index, phase := phase } := by
  refine ⟨running, ?_, ?_, exact.fresh, exact.named, ?_, exact.bound⟩
  · exact exact.told.keep (fun _ completed => completed.change change) rfl rfl rfl rfl
  · intro row member complete
    exact exact.completes row (completes row member complete) complete
  · intro itemId among
    refine (exact.started itemId among).imp_right ?_
    rintro ⟨row, member, id, complete⟩
    exact ⟨row, change.complete member complete, id, complete⟩

theorem Exact.moved (index : ℕ) (phase : Phase) :
    Exact wave items₀ { s with nextIndex := index, phase := phase } :=
  exact.changed index phase .same exact.running fun _ member _ => member

theorem Kept.of_exact (live : s.phase.live) : Kept wave items₀ s := by
  unfold Kept
  split
  · simp_all [Phase.live]
  · simp_all [Phase.live]
  · exact exact

end

theorem Kept.exact (kept : Kept wave items₀ s) (live : s.phase.live) : Exact wave items₀ s := by
  unfold Kept at kept
  split at kept
  · simp_all [Phase.live]
  · simp_all [Phase.live]
  · exact kept

theorem Told.keys_perm (told : Told wave s) (all : wave.ordered.length ≤ s.results.length) :
    (s.results.map fst).Perm wave.ids := by
  have within : s.results.map fst ⊆ wave.ids := by
    intro key among
    obtain ⟨entry, member, rfl⟩ := mem_map.mp among
    exact (told.rows entry member).1
  refine (subperm_of_subset told.keys within).perm_of_length_le ?_
  simpa [ids] using all

theorem Told.invoked_perm (told : Told wave s) (notifies : wave.notifies = true)
    (none : s.pending = []) : s.invoked.Perm s.results := by
  obtain ⟨nodup, known⟩ := told.scheduled notifies
  have once := told.once notifies
  rw [none, nil_append] at once
  have within : s.invoked ⊆ s.results := fun entry member =>
    told.same entry (by rw [none, nil_append]; exact member)
  refine (subperm_of_subset (.of_map _ (once.nodup_iff.mpr nodup)) within).perm_of_length_le ?_
  have keys : (s.results.map fst).Perm s.scheduled :=
    (perm_ext_iff_of_nodup told.keys nodup).mpr fun key => (known key).symm
  have lengths := (once.trans keys.symm).length_eq
  rw [length_map, length_map] at lengths
  exact lengths.ge

theorem Exact.return (exact : Exact wave items₀ s) (all : wave.ordered.length ≤ s.results.length)
    (none : s.pending = []) : Kept wave items₀ (s.stop .returned) := by
  refine ⟨Over.stop exact.fresh .returned, exact.told.keys_perm all, ?_,
    fun notifies => exact.told.invoked_perm notifies none⟩
  intro entry member
  obtain ⟨row, there, id, complete, result⟩ := (exact.told.rows entry member).2
  rcases exact.completes row there complete with before | ⟨value, stored, handled⟩
  · exact .inr ⟨row, before, id, complete, result⟩
  · left
    obtain ⟨key, own⟩ := entry
    obtain rfl : own = value := Option.some.inj (result.symm.trans stored)
    obtain rfl : row.id = key := id
    exact handled

@[simp]
theorem phase_notify (notifies : Bool) (itemId : String) (result : Json) :
    (s.notify notifies itemId result).phase = s.phase := by
  unfold notify
  split <;> rfl

section
variable (exact : Exact wave items₀ s)
include exact

theorem Exact.recorded {result : Json} (named : itemId ∈ wave.ids) (completed : Completed
    s.items (itemId, result)) : Exact wave items₀ ((s.record itemId result).notify wave.notifies itemId result) := by
  have told := exact.told.notify named completed
  unfold notify at told ⊢
  split_ifs at told ⊢
  · exact ⟨exact.running, told, exact.completes, exact.fresh, exact.named, exact.started, exact.bound⟩
  · exact ⟨exact.running, told, exact.completes, exact.fresh, exact.named, exact.started, exact.bound⟩

theorem Exact.resume (live : s.phase.live) {row : QueueItem}
    (found : s.items.inspect row.id = some row) (named : row.id ∈ wave.ids) : Kept wave items₀ (wave.resume s row) := by
  have member := (Table.find?_eq_some.mp found).1
  have further : Kept wave items₀ { s with nextIndex := s.nextIndex + 1 } := by
    exact .of_exact (exact.moved _ s.phase) live
  unfold Wave.resume
  cases status : row.status with
  | queued => exact further
  | running => exact further
  | failed =>
    simp only
    split_ifs
    · cases requeued : wave.queue.requeueFailed s.items row.id with
      | error error => exact .raise exact.fresh error
      | ok pair =>
        obtain ⟨old, there, failed, room, is⟩ := requeueFailed_eq_ok requeued
        cases Option.some.inj (found.symm.trans there)
        have changed := exact.changed (s.nextIndex + 1) s.phase (.retried found failed room)
          (exact.running.put_same found rfl (by simp [failed]) (by simp)) (by
            intro other put complete
            rcases Table.mem_put.mp put with rfl | ⟨there, -⟩
            · cases complete
            · exact there)
        rw [← is] at changed
        exact .of_exact changed live
    · exact .raise exact.fresh _
  | complete =>
    simp only
    cases result : row.handlerResult with
    | none => exact .raise exact.fresh _
    | some value =>
      have known : Completed s.items (row.id, value) := ⟨row, member, rfl, status, result⟩
      have further := exact.moved (s.nextIndex + 1) s.phase
      exact .of_exact (further.recorded named known) (by rw [phase_notify]; exact live)

theorem Exact.admitNotifications (live : s.phase.live) (now : ℚ) :
    Kept wave items₀ (wave.admitNotifications s now) := by
  unfold Wave.admitNotifications
  cases item : wave.ordered[s.nextIndex]? with
  | none => exact .of_exact (exact.moved s.nextIndex .notifying) trivial
  | some item' =>
    have named : item'.id ∈ wave.ids :=
      mem_map_of_mem (mem_of_getElem? item)
    simp only
    cases found : s.items.inspect item'.id with
    | some row =>
      have id := (Table.find?_eq_some.mp found).2
      exact exact.resume live (inspect_eq_some found) (id ▸ named)
    | none =>
      simp only
      cases entered : wave.queue.enqueue s.items item'.id item'.payload 0 now with
      | error error =>
        simp only
        split_ifs
        · exact .of_exact (exact.moved s.nextIndex .notifying) trivial
        · exact .raise exact.fresh error
      | ok pair =>
        obtain ⟨items, row⟩ := pair
        obtain ⟨id, status, sequence, room, rfl⟩ := enqueue_absent found entered
        have absent : s.items.inspect row.id = none := id ▸ found
        refine .of_exact (exact.changed (s.nextIndex + 1) s.phase (.entered absent room sequence status)
          (exact.running.put_new absent (by simp [status]) _) ?_) live
        intro other put complete
        rcases Table.mem_put.mp put with rfl | ⟨there, -⟩
        · rw [status] at complete
          cases complete
        · exact there

theorem Exact.announce (live : s.phase.live) : Kept wave items₀ (wave.announce s) := by
  unfold Wave.announce
  split
  · exact .of_exact (exact.moved s.nextIndex .claiming) trivial
  · rename_i next pending first
    split_ifs with room
    · refine .of_exact ⟨exact.running, exact.told.announced first _, exact.completes, exact.fresh,
        exact.named, exact.started, ?_⟩ live
      simp only [busy, length_append, length_singleton] at room ⊢
      omega
    · exact .of_exact (exact.moved s.nextIndex .claiming) trivial

theorem Exact.conclude : Kept wave items₀ (wave.conclude s) := by
  unfold Wave.conclude
  split_ifs with idle done
  · exact exact.return done.1.ge done.2
  · exact .raise exact.fresh _
  · exact .of_exact (exact.moved s.nextIndex .waiting) trivial

theorem Exact.again : Kept wave items₀ (wave.again s) := by
  unfold Wave.again
  split_ifs with unfinished
  · exact .of_exact (exact.moved s.nextIndex .admitting) trivial
  · simp only [Wave.unfinished, not_or, not_lt, not_not] at unfinished
    exact exact.return unfinished.1 unfinished.2.1

theorem Exact.claimed {row : QueueItem} {worker : String}
    (selected : s.items.next = some row)
    (below : s.items.count (·.status = .running) < wave.queue.workers)
    (room : s.busy < wave.queue.workers) (named : row.id ∈ wave.ids) (now : ℚ) :
    Exact wave items₀ { s with
      items := s.items.put (row.claimed worker now), active := s.active ++ [row.id]
      started := row.id :: s.started } := by
  have found := inspect_of_next selected
  obtain ⟨member, queued, -⟩ := Items.next_eq_some selected
  have change : Change wave.queue s.items (s.items.put (row.claimed worker now)) :=
    .claimed worker now selected below
  refine ⟨?_, ?_, ?_, ?_, cons_subset.mpr ⟨named, exact.named⟩, ?_, ?_⟩
  · exact exact.running.put_claimed found rfl (by simp [queued]) rfl named
  · exact exact.told.keep (fun _ completed => completed.change change) rfl rfl rfl rfl
  · intro other put complete
    rcases Table.mem_put.mp put with rfl | ⟨there, -⟩
    · cases complete
    · exact exact.completes other there complete
  -- A queued row was not started before: what was started is running or complete.
  · refine nodup_cons.mpr ⟨fun among => ?_, exact.fresh⟩
    rcases exact.started row.id among with active | ⟨other, there, id, complete⟩
    · have running := (exact.running.iff row member).mpr active
      rw [queued] at running
      cases running
    · cases Table.eq_of_key there member id
      rw [queued] at complete
      cases complete
  · intro itemId among
    rcases mem_cons.mp among with rfl | among
    · exact .inl (mem_append_right _ (.head _))
    · refine (exact.started itemId among).imp (mem_append_left _) ?_
      rintro ⟨other, there, id, complete⟩
      exact ⟨other, change.complete there complete, id, complete⟩
  · simp only [busy, length_append, length_singleton] at room ⊢
    omega

theorem Exact.claim (live : s.phase.live) (now : ℚ) : Kept wave items₀ (wave.claim s now) := by
  unfold Wave.claim
  split_ifs with room
  swap
  · exact exact.conclude
  split
  · rename_i items row ok
    rcases claim_eq_ok ok with ⟨-, wrong⟩ | ⟨old, selected, below, rfl, is⟩
    · cases wrong
    cases is
    split_ifs with named
    · exact .of_exact (exact.claimed selected below room named now) live
    · split
      · refine .raise ?_ _
        exact exact.fresh
      · refine .raise ?_ _
        exact exact.fresh
  · exact exact.conclude
  · exact .raise exact.fresh _

end

theorem summary_handlerResult {result : Json} {bytes : Option ℕ} {stored : Dict}
    (ok : summary itemId result bytes = .ok stored) :
    Dict.get stored "handler_result" = some result := by
  unfold summary at ok
  split at ok
  · simp only [bind_eq_ok] at ok
    obtain ⟨size, -, ok⟩ := ok
    cases ok
    rfl
  · cases ok
    rfl

theorem Exact.finish (exact : Exact wave items₀ s) (itemId : String) (result : Json)
    (rest : List Task) (bytes : Option ℕ) (now : ℚ) :
    Kept wave items₀ (wave.finish { s with
      active := s.active.erase itemId, handled := (itemId, result) :: s.handled }
      itemId result rest bytes now) := by
  unfold Wave.finish
  split
  · refine .raise ?_ _
    exact exact.fresh
  rename_i stored summarized
  split
  · refine .raise ?_ _
    exact exact.fresh
  rename_i items row completed
  obtain ⟨old, found, running, rfl⟩ := finish_eq_ok completed
  obtain ⟨member, rfl⟩ := Table.find?_eq_some.mp found
  have active := (exact.running.iff old member).mp running
  have change : Change wave.queue s.items (s.items.put (old.finished .complete (some (.obj stored)) none now)) :=
    .finished _ _ now found running (.inl rfl)
  have stores : (old.finished .complete (some (.obj stored)) none now).handlerResult = some result :=
    summary_handlerResult summarized
  refine .of_exact (Exact.recorded ?_ (exact.running.within active) ?_) (by rw [phase_notify]; trivial)
  swap
  · exact ⟨_, Table.mem_put.mpr (.inl rfl), rfl, rfl, stores⟩
  refine ⟨?_, ?_, ?_, exact.fresh, exact.named, ?_, ?_⟩
  · exact exact.running.put_finished rfl (by simp)
  · exact exact.told.keep (fun _ completed => completed.change change) rfl rfl rfl rfl
  · intro other put complete
    rcases Table.mem_put.mp put with rfl | ⟨there, -⟩
    · exact .inr ⟨result, stores, .head _⟩
    · refine (exact.completes other there complete).imp_right ?_
      rintro ⟨value, stored, handled⟩
      exact ⟨value, stored, .tail _ handled⟩
  · intro itemId among
    by_cases own : itemId = old.id
    · exact .inr ⟨_, Table.mem_put.mpr (.inl rfl), own.symm, rfl⟩
    · refine (exact.started itemId among).imp (mem_erase_of_ne own).mpr ?_
      rintro ⟨other, there, id, complete⟩
      exact ⟨other, change.complete there complete, id, complete⟩
  · have fewer : (s.active.erase old.id).length ≤ s.active.length := length_erase_le
    have bound := exact.bound
    simp only [busy] at bound ⊢
    omega

theorem Exact.settle (exact : Exact wave items₀ s) (task : Task) (rest : List Task)
    (ending : Ending) (bytes : Option ℕ) (now : ℚ) : Kept wave items₀ (wave.settle s task rest ending bytes now) := by
  cases task with
  | callback itemId result =>
    cases ending with
    | returned value =>
      refine .of_exact ⟨exact.running, ?_, exact.completes, exact.fresh, exact.named, exact.started, ?_⟩ trivial
      · exact exact.told.keep (fun _ => id) rfl rfl rfl rfl
      · have fewer : (s.notifications.erase (itemId, result)).length ≤ s.notifications.length :=
          length_erase_le
        have bound := exact.bound
        simp only [Wave.settle, busy] at bound ⊢
        omega
    | raised error => exact Kept.raise (s := { s with notifications := _ }) exact.fresh error
    | aborted error => exact Kept.raise (s := { s with notifications := _ }) exact.fresh error
  | handler itemId =>
    cases ending with
    | returned result => exact exact.finish itemId result rest bytes now
    | raised error =>
      simp only [Wave.settle, Wave.failed]
      split
      · refine .raise ?_ _
        exact exact.fresh
      · refine .raise ?_ _
        exact exact.fresh
    | aborted error => exact Kept.raise (s := { s with active := _ }) exact.fresh error

theorem Kept.step (kept : Kept wave items₀ s) {s' : WaveState} {choice : Choice}
    (stepped : wave.step s choice = some s') : Kept wave items₀ s' := by
  unfold Wave.step at stepped
  split at stepped
  · rename_i now phase
    cases stepped
    have live : s.phase.live := by rw [phase]; trivial
    exact (kept.exact live).admitNotifications live now
  · rename_i now phase
    cases stepped
    have live : s.phase.live := by rw [phase]; trivial
    exact (kept.exact live).announce live
  · rename_i now phase
    cases stepped
    have live : s.phase.live := by rw [phase]; trivial
    exact (kept.exact live).claim live now
  · rename_i done phase
    split_ifs at stepped
    cases stepped
    have live : s.phase.live := by rw [phase]; trivial
    exact .of_exact ((kept.exact live).moved s.nextIndex (.settling done)) trivial
  · rename_i error phase
    cases stepped
    have live : s.phase.live := by rw [phase]; trivial
    exact .raise (kept.exact live).fresh error
  · rename_i now phase
    cases stepped
    have live : s.phase.live := by rw [phase]; trivial
    exact (kept.exact live).again
  · rename_i task rest ending bytes now phase
    cases stepped
    have live : s.phase.live := by rw [phase]; trivial
    exact (kept.exact live).settle task rest ending bytes now
  · cases stepped

theorem Kept.start (wave : Wave) (items₀ : Items) : Kept wave items₀ (wave.start items₀) := by
  unfold Wave.start
  split_ifs
  · refine Exact.again ⟨.requeued wave items₀, ?_, ?_, nodup_nil, nil_subset _, nofun,
      Nat.zero_le _⟩
    · refine ⟨nodup_nil, nofun, fun _ => ⟨rfl, rfl⟩, fun _ => ⟨nodup_nil, fun _ => ?_⟩,
        fun _ => .nil, nofun⟩
      exact ⟨nofun, nofun⟩
    · intro row member complete
      obtain ⟨old, there, rfl⟩ := mem_requeueRunning.1 member
      left
      unfold QueueItem.interrupted at complete ⊢
      split_ifs at complete ⊢
      exact there
  · refine .raise ?_ _
    exact nodup_nil

theorem Kept.reaches (reached : wave.Reaches items₀ s) : Kept wave items₀ s := by
  induction reached with
  | start => exact .start wave items₀
  | step _ stepped kept => exact kept.step stepped

end Steps

def sampleWave : Wave :=
  { queue := ⟨2, 0, by decide⟩, ordered := [⟨"a", []⟩, ⟨"b", []⟩], recoverFailed := false
    notifies := true }

def sampleChoices : List Choice :=
  [.go 0, .go 0, .go 0, .go 0, .go 0, .go 0, .go 0, .done [.handler "b"],
    .ended (.returned (.num 2)) none 1, .go 1, .go 1, .go 1, .go 1, .go 1,
    .done [.callback "b" (.num 2), .handler "a"], .ended (.returned .null) none 2,
    .ended (.returned (.num 1)) none 2, .go 2, .go 2, .go 2, .go 2, .go 2,
    .done [.callback "a" (.num 1)], .ended (.returned .null) none 3, .go 3]

end VideoPoster.Throughput
