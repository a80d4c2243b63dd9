import Mathlib.Logic.Relation
import VideoPoster.Throughput.Queue

/-!
# The bounds of the queue
-/

namespace VideoPoster.Throughput
open Python Tables QueueItem Items Table DurableQueue Prod

inductive Op where
  | enqueue (itemId : String) (payload : Dict) (priority : ℤ) (now : ℚ)
  | claim (worker : String) (now : ℚ)
  | complete (itemId : String) (result : Option Json) (now : ℚ)
  | fail (itemId error : String) (now : ℚ)
  | requeueRunning
  | requeueFailed (itemId : String)

inductive Change (queue : DurableQueue) (items : Items) : Items → Prop
  | same : Change queue items items
  | entered {row : QueueItem} (absent : items.inspect row.id = none) (room : ¬ queue.full items)
      (fresh : row.sequence = items.lastSequence + 1) (status : row.status = .queued) :
      Change queue items { items.put row with lastSequence := items.lastSequence + 1 }
  | claimed {row : QueueItem} (worker : String) (now : ℚ) (selected : items.next = some row)
      (room : items.count (·.status = .running) < queue.workers) :
      Change queue items (items.put (row.claimed worker now))
  | finished {row : QueueItem} {status : Status} (result : Option Json) (error : Option String)
      (now : ℚ) (found : items.inspect row.id = some row) (running : row.status = .running)
      (terminal : status = .complete ∨ status = .failed) :
      Change queue items (items.put (row.finished status result error now))
  | interrupted : Change queue items (requeueRunning items)
  | retried {row : QueueItem} (found : items.inspect row.id = some row)
      (failed : row.status = .failed) (room : ¬ queue.full items) :
      Change queue items (items.put row.retried)

namespace DurableQueue
variable {queue : DurableQueue} {items items' : Items}

variable {itemId : String}

variable {row : QueueItem}

theorem inspect_eq_some (found : items.inspect itemId = some row) : items.inspect row.id = some row := by
  obtain ⟨member, -⟩ := find?_eq_some.mp found
  exact find?_eq_some.mpr ⟨member, rfl⟩

variable {now : ℚ}

variable {payload : Dict} {priority : ℤ}

theorem enqueue_absent (absent : items.inspect itemId = none) (entered : queue.enqueue items itemId payload
    priority now = .ok (items', row)) : row.id = itemId ∧ row.status = .queued ∧ row.sequence = items.lastSequence + 1 ∧
    ¬ queue.full items ∧ items' = { items.put row with lastSequence := items.lastSequence + 1 } := by
  simp only [enqueue, absent, bind_eq_ok, require_eq_ok] at entered
  obtain ⟨_, -, _, room, entered⟩ := entered
  cases entered
  exact ⟨rfl, rfl, rfl, room, rfl⟩

theorem enqueue_eq_ok (entered : queue.enqueue items itemId payload priority now = .ok (items', row)) :
    Change queue items items' := by
  cases found : items.inspect itemId with
  | none =>
    obtain ⟨rfl, status, sequence, room, rfl⟩ := enqueue_absent found entered
    exact .entered found room sequence status
  | some existing =>
    simp only [enqueue, found, bind_eq_ok, require_eq_ok] at entered
    obtain ⟨_, -, entered⟩ := entered
    cases entered
    exact .same

theorem claim_eq_ok {worker : String} {claimed : Option QueueItem} (ok : queue.claim items worker now = .ok (items',
    claimed)) : (items' = items ∧ claimed = none) ∨ ∃ row, items.next = some row ∧ items.count (·.status = .running)
    < queue.workers ∧ items' = items.put (row.claimed worker now) ∧ claimed = some (row.claimed worker now) := by
  simp only [claim, bind_eq_ok, require_eq_ok] at ok
  obtain ⟨_, -, ok⟩ := ok
  split at ok
  · cases ok
    exact .inl ⟨rfl, rfl⟩
  · rename_i below
    split at ok
    · cases ok
      exact .inl ⟨rfl, rfl⟩
    · rename_i row selected
      cases ok
      exact .inr ⟨row, selected, Nat.lt_of_not_le below, rfl, rfl⟩

variable {status : Status} {result : Option Json} {error : Option String}

theorem finish_eq_ok (ok : finish items itemId status result error now = .ok (items', row)) : ∃ old, items.inspect
    itemId = some old ∧ old.status = .running ∧ items' = items.put (old.finished status result error now) := by
  unfold finish at ok
  split at ok
  · cases ok
  · rename_i old found
    simp only [bind_eq_ok, require_eq_ok] at ok
    obtain ⟨_, running, ok⟩ := ok
    cases ok
    exact ⟨old, found, running, rfl⟩

theorem requeueFailed_eq_ok (ok : queue.requeueFailed items itemId = .ok (items', row)) : ∃ old,
    items.inspect itemId = some old ∧ old.status = .failed ∧ ¬ queue.full items ∧ items' = items.put old.retried := by
  unfold requeueFailed at ok
  split at ok
  · cases ok
  · rename_i old found
    simp only [bind_eq_ok, require_eq_ok] at ok
    obtain ⟨_, failed, _, room, ok⟩ := ok
    cases ok
    exact ⟨old, found, failed, room, rfl⟩

def step (queue : DurableQueue) (items : Items) : Op → Items
  | .enqueue itemId payload priority now =>
    ((queue.enqueue items itemId payload priority now).map fst).toOption.getD items
  | .claim worker now => ((queue.claim items worker now).map fst).toOption.getD items
  | .complete itemId result now => ((complete items itemId result now).map fst).toOption.getD items
  | .fail itemId error now => ((fail items itemId error now).map fst).toOption.getD items
  | .requeueRunning => requeueRunning items
  | .requeueFailed itemId => ((queue.requeueFailed items itemId).map fst).toOption.getD items

theorem change_of_ok {α : Type} {result : Result (Items × α)} (ok : ∀ items' value, result = .ok (items', value)
    → Change queue items items') : Change queue items ((result.map fst).toOption.getD items) := by
  cases result with
  | error e => exact .same
  | ok pair => exact ok pair.1 pair.2 rfl

theorem change_of_finish (terminal : status = .complete ∨ status = .failed)
    (ok : finish items itemId status result error now = .ok (items', row)) : Change queue items items' := by
  obtain ⟨old, found, running, rfl⟩ := finish_eq_ok ok
  exact .finished result error now (inspect_eq_some found) running terminal

theorem step_change (queue : DurableQueue) (items : Items) (op : Op) : Change queue items (queue.step items op) := by
  cases op with
  | enqueue itemId payload priority now => exact change_of_ok fun _ _ => enqueue_eq_ok
  | claim worker now =>
    refine change_of_ok fun items' claimed ok => ?_
    rcases claim_eq_ok ok with ⟨rfl, -⟩ | ⟨row, selected, room, rfl, -⟩
    · exact .same
    · exact .claimed worker now selected room
  | complete itemId result now => exact change_of_ok fun _ _ => change_of_finish (.inl rfl)
  | fail itemId error now =>
    refine change_of_ok fun items' row ok => ?_
    simp only [fail, bind_eq_ok] at ok
    obtain ⟨_, -, ok⟩ := ok
    exact change_of_finish (.inr rfl) ok
  | requeueRunning => exact .interrupted
  | requeueFailed itemId =>
    refine change_of_ok fun items' row ok => ?_
    obtain ⟨old, found, failed, room, rfl⟩ := requeueFailed_eq_ok ok
    exact .retried (inspect_eq_some found) failed room

end DurableQueue

instance : Std.Total QueueItem.Before where
  total a b := by
    unfold QueueItem.Before
    omega

instance : IsTrans QueueItem QueueItem.Before where
  trans a b c := by
    unfold QueueItem.Before
    omega

variable {items : Items} {row : QueueItem}

theorem Items.next_eq_some (selected : items.next = some row) :
    row ∈ items.table ∧ row.status = .queued ∧ ∀ other ∈ items.table, other.status = .queued → row.Before other := by
  obtain ⟨rest, sorted⟩ := List.head?_eq_some_iff.mp selected
  have member : row ∈ items.table.rows.filter fun row => row.status = .queued := by
    rw [← List.mem_insertionSort (r := QueueItem.Before), sorted]
    exact .head _
  obtain ⟨there, queued⟩ := List.mem_filter.mp member
  refine ⟨there, of_decide_eq_true queued, fun other otherThere otherQueued => ?_⟩
  have ordered := List.pairwise_insertionSort QueueItem.Before (items.table.rows.filter fun row => row.status = .queued)
  have among : other ∈ row :: rest := by
    rw [← sorted, List.mem_insertionSort]
    exact List.mem_filter.mpr ⟨otherThere, decide_eq_true otherQueued⟩
  rw [sorted, List.pairwise_cons] at ordered
  rcases List.mem_cons.mp among with rfl | later
  · exact .inr ⟨rfl, le_rfl⟩
  · exact ordered.1 other later

namespace Items
variable {items : Items} {row old : QueueItem} {kind : QueueItem → Bool}

theorem count_put_new (absent : items.inspect row.id = none) (kind : QueueItem → Bool) :
    (items.put row).count kind = (if kind row then 1 else 0) + items.count kind :=
  sum_put_new _ absent

theorem count_put (found : items.inspect row.id = some old) (kind : QueueItem → Bool) :
    (items.put row).count kind + (if kind old then 1 else 0) = items.count kind + if kind row then 1 else 0 :=
  sum_put_replace _ found

theorem count_requeueRunning (kind : QueueItem → Bool) :
    (requeueRunning items).count kind = items.count fun row => kind row.interrupted :=
  sum_map interrupted_id _

theorem count_congr {other : QueueItem → Bool} (same : ∀ row ∈ items.table, kind row = other row) :
    items.count kind = items.count other :=
  sum_congr fun row member => by rw [same row member]

theorem count_eq_zero (none : ∀ row ∈ items.table, kind row = false) : items.count kind = 0 := by
  rw [count_congr none]
  simp [count, sum]

end Items

structure Bounded (queue : DurableQueue) (items : Items) : Prop where
  materialized : items.count materialized ≤ queue.capacity
  running : items.count (·.status = .running) ≤ queue.workers

theorem materialized_interrupted (row : QueueItem) : row.interrupted.materialized = row.materialized := by
  unfold interrupted
  split
  · rename_i running
    simp [materialized, running]
  · rfl

theorem running_interrupted (row : QueueItem) : row.interrupted.status ≠ .running := by
  unfold interrupted
  split
  · exact nofun
  · assumption

theorem inspect_of_next (selected : items.next = some row) : items.inspect row.id = some row :=
  find?_eq_some.mpr ⟨(next_eq_some selected).1, rfl⟩

variable {queue : DurableQueue} {items' : Items}

theorem Bounded.change (bounded : Bounded queue items) (change : Change queue items items') : Bounded queue items' := by
  obtain ⟨materialized, running⟩ := bounded
  cases change with
  | same => exact ⟨materialized, running⟩
  | @entered row absent room fresh status =>
    have enters := count_put_new absent QueueItem.materialized
    have runs := count_put_new absent (·.status = .running)
    simp [QueueItem.materialized, status] at enters runs
    rw [full, not_le] at room
    refine ⟨?_, ?_⟩
    · change (items.put row).count _ ≤ _
      omega
    · change (items.put row).count _ ≤ _
      omega
  | @claimed row worker now selected room =>
    have found : items.inspect (row.claimed worker now).id = some row := inspect_of_next selected
    have queued := (next_eq_some selected).2.1
    have enters := count_put found QueueItem.materialized
    have runs := count_put found (·.status = .running)
    simp [QueueItem.materialized, queued] at enters runs
    exact ⟨by omega, by omega⟩
  | @finished row status result error now found isRunning terminal =>
    have found' : items.inspect (row.finished status result error now).id = some row := found
    have enters := count_put found' QueueItem.materialized
    have runs := count_put found' (·.status = .running)
    rcases terminal with rfl | rfl
    all_goals
      simp [QueueItem.materialized, isRunning] at enters runs
      exact ⟨by omega, by omega⟩
  | interrupted =>
    refine ⟨?_, ?_⟩
    · rw [count_requeueRunning, count_congr fun row _ => materialized_interrupted row]
      exact materialized
    · rw [count_requeueRunning, count_eq_zero fun row _ =>
        decide_eq_false (running_interrupted row)]
      exact Nat.zero_le _
  | @retried row found failed room =>
    have found' : items.inspect row.retried.id = some row := found
    have enters := count_put found' QueueItem.materialized
    have runs := count_put found' (·.status = .running)
    simp [QueueItem.materialized, failed] at enters runs
    rw [full, not_le] at room
    exact ⟨by omega, by omega⟩

theorem mem_requeueRunning : row ∈ (requeueRunning items).table ↔ ∃ old ∈ items.table, old.interrupted = row :=
  mem_map interrupted_id

theorem mem_put_of_ne {old new : QueueItem} (member : row ∈ items.table) (found : items.inspect old.id = some old)
    (id : new.id = old.id) (other : row ≠ old) : row ∈ (items.put new).table := by
  refine mem_put.mpr (.inr ⟨member, fun same => other ?_⟩)
  exact eq_of_key member (find?_eq_some.mp found).1 (same.trans id)

theorem Change.complete (change : Change queue items items') (member : row ∈ items.table)
    (complete : row.status = .complete) : row ∈ items'.table := by
  have other : ∀ {old : QueueItem}, old.status ≠ .complete → row ≠ old := by
    rintro old status rfl
    exact status complete
  cases change with
  | same => exact member
  | @entered new absent _ _ _ =>
    exact mem_put.mpr (.inr ⟨member, find?_eq_none.mp absent row member⟩)
  | claimed worker now selected _ =>
    have queued := (next_eq_some selected).2.1
    exact mem_put_of_ne member (inspect_of_next selected) rfl (other (by rw [queued]; exact nofun))
  | finished result error now found running _ =>
    exact mem_put_of_ne member found rfl (other (by rw [running]; exact nofun))
  | interrupted =>
    refine mem_requeueRunning.2 ⟨row, member, ?_⟩
    simp [QueueItem.interrupted, complete]
  | retried found failed _ =>
    exact mem_put_of_ne member found rfl (other (by rw [failed]; exact nofun))

abbrev Transactions (queue : DurableQueue) : Items → Items → Prop :=
  Relation.ReflTransGen fun items items' => ∃ op, items' = queue.step items op

theorem Bounded.transactions (bounded : Bounded queue items) (ran : Transactions queue items items') :
    Bounded queue items' := by
  induction ran with
  | refl => exact bounded
  | tail _ last ih =>
    obtain ⟨op, rfl⟩ := last
    exact ih.change (queue.step_change _ op)

theorem complete_of_transactions (ran : Transactions queue items items') (member : row ∈ items.table)
    (complete : row.status = .complete) : row ∈ items'.table := by
  induction ran with
  | refl => exact member
  | tail _ last ih =>
    obtain ⟨op, rfl⟩ := last
    exact (queue.step_change _ op).complete ih complete

theorem queue_bounds {queue : DurableQueue} {items : Items} (reached : Transactions queue .empty items) : items.count
    materialized ≤ queue.workers + queue.prefetch ∧ items.count (·.status = .running) ≤ queue.workers ∧
    (∀ worker now items' claimed, queue.claim items worker now = .ok (items', some claimed) → ∃ row ∈ items.table,
    row.status = .queued ∧ claimed = row.claimed worker now ∧ ∀ other ∈ items.table, other.status = .queued → row.Before
    other) ∧ (∀ later, Transactions queue items later → ∀ row ∈ items.table, row.status = .complete → row ∈ later.table)
    ∧ (items.table.rows.map QueueItem.id).Nodup := by
  have empty : Bounded queue .empty := ⟨Nat.zero_le _, Nat.zero_le _⟩
  have bounded := empty.transactions reached
  refine ⟨bounded.materialized, bounded.running, ?_, ?_, items.table.unique⟩
  · intro worker now items' claimed ok
    rcases claim_eq_ok ok with ⟨-, wrong⟩ | ⟨row, selected, -, -, is⟩
    · cases wrong
    · obtain ⟨member, queued, first⟩ := next_eq_some selected
      exact ⟨row, member, queued, Option.some.inj is, first⟩
  · intro later ran row member complete
    exact complete_of_transactions ran member complete

def oneWorker : DurableQueue := ⟨1, 0, by decide⟩

theorem oneWorker_full : ∃ items, Transactions oneWorker .empty items ∧ items.count (·.status = .running) = 1 ∧
    items.count materialized ≤ oneWorker.workers + oneWorker.prefetch := by
  have reached : Transactions oneWorker .empty
      (oneWorker.step (oneWorker.step .empty (.enqueue "a" [] 0 0)) (.claim "worker-1" 0)) :=
    (Relation.ReflTransGen.single ⟨_, rfl⟩).tail ⟨_, rfl⟩
  exact ⟨_, reached, by decide, (queue_bounds reached).1⟩

end VideoPoster.Throughput
