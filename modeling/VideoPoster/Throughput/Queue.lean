import Mathlib.Data.List.Sort
import VideoPoster.Python.Basic
import VideoPoster.Python.Json
import VideoPoster.Tables.Table

/-!
# `throughput`: the durable queue
-/

namespace VideoPoster.Throughput
open Python Tables

inductive Status where
  | queued | running | complete | failed
  deriving DecidableEq

structure QueueItem where
  sequence : ℕ
  id : String
  priority : ℤ
  payload : Dict
  status : Status
  queuedAt : ℚ
  startedAt : Option ℚ := none
  endedAt : Option ℚ := none
  worker : Option String := none
  result : Option Json := none
  error : Option String := none

structure Items where
  table : Table QueueItem.id
  /-- `AUTOINCREMENT` remembers the largest number that was given out. -/
  lastSequence : ℕ

structure DurableQueue where
  workers : ℕ
  prefetch : ℕ
  positive : 0 < workers

namespace QueueItem

def materialized (row : QueueItem) : Bool := row.status = .queued ∨ row.status = .running

def claimed (row : QueueItem) (worker : String) (now : ℚ) : QueueItem :=
  { row with status := .running, worker := some worker, startedAt := some now }

def finished (row : QueueItem) (status : Status) (result : Option Json) (error : Option String)
    (now : ℚ) : QueueItem :=
  { row with status := status, result := result, error := error, endedAt := some now }

def interrupted (row : QueueItem) : QueueItem :=
  if row.status = .running then
    { row with status := .queued, worker := none, startedAt := none }
  else row

def retried (row : QueueItem) : QueueItem :=
  { row with status := .queued, worker := none, startedAt := none, endedAt := none, error := none }

def Before (a b : QueueItem) : Prop :=
  b.priority < a.priority ∨ a.priority = b.priority ∧ a.sequence ≤ b.sequence

instance (a b : QueueItem) : Decidable (Before a b) := inferInstanceAs (Decidable (_ ∨ _))

variable (row : QueueItem)
include row

@[simp]
theorem claimed_status (worker : String) (now : ℚ) : (row.claimed worker now).status = .running := rfl

@[simp]
theorem finished_status (status : Status) (result : Option Json)
    (error : Option String) (now : ℚ) : (row.finished status result error now).status = status := rfl

@[simp]
theorem retried_status : row.retried.status = .queued := rfl

@[simp]
theorem interrupted_id : row.interrupted.id = row.id := by
  unfold interrupted
  split <;> rfl

end QueueItem

namespace Items

def empty : Items := ⟨.empty, 0⟩

def count (items : Items) (kind : QueueItem → Bool) : ℕ :=
  items.table.sum fun row => if kind row then 1 else 0

def inspect (items : Items) (itemId : String) : Option QueueItem := items.table.find? itemId

def put (items : Items) (row : QueueItem) : Items := { items with table := items.table.put row }

def next (items : Items) : Option QueueItem :=
  ((items.table.rows.filter fun row => row.status = .queued).insertionSort QueueItem.Before).head?

end Items

namespace DurableQueue
variable (queue : DurableQueue) (items : Items)

def capacity : ℕ := queue.workers + queue.prefetch

def full : Prop := queue.capacity ≤ items.count QueueItem.materialized

instance : Decidable (queue.full items) := inferInstanceAs (Decidable (_ ≤ _))

def exhausted : Error := .runtime "queue worker + prefetch capacity exhausted"

def enqueue (itemId : String) (payload : Dict) (priority : ℤ) (now : ℚ) :
    Result (Items × QueueItem) := do
  require (itemId ≠ "") (.value "queue item requires id, integer priority, and object payload")
  match items.inspect itemId with
  | some existing => pure (items, existing)
  | none => do
    require (¬ queue.full items) exhausted
    let row : QueueItem :=
      { sequence := items.lastSequence + 1, id := itemId, priority, payload, status := .queued,
        queuedAt := now }
    pure ({ items.put row with lastSequence := items.lastSequence + 1 }, row)

def claim (worker : String) (now : ℚ) : Result (Items × Option QueueItem) := do
  require (worker ≠ "") (.value "worker identity required")
  if queue.workers ≤ items.count (·.status = .running) then pure (items, none)
  else
    match items.next with
    | none => pure (items, none)
    | some row => pure (items.put (row.claimed worker now), some (row.claimed worker now))

def finish (itemId : String) (status : Status) (result : Option Json) (error : Option String)
    (now : ℚ) : Result (Items × QueueItem) :=
  match items.inspect itemId with
  | none => .error (.value "only a RUNNING queue item can finish")
  | some row => do
    require (row.status = .running) (.value "only a RUNNING queue item can finish")
    pure (items.put (row.finished status result error now), row.finished status result error now)

def complete (itemId : String) (result : Option Json) (now : ℚ) : Result (Items × QueueItem) :=
  finish items itemId .complete result none now

def fail (itemId error : String) (now : ℚ) : Result (Items × QueueItem) := do
  require (error ≠ "") (.value "failed queue item requires an error")
  finish items itemId .failed none (some error) now

def requeueRunning : Items :=
  { items with table := items.table.map QueueItem.interrupted QueueItem.interrupted_id }

def requeueFailed (itemId : String) : Result (Items × QueueItem) :=
  match items.inspect itemId with
  | none => .error (.value "only a FAILED queue item can be requeued")
  | some row => do
    require (row.status = .failed) (.value "only a FAILED queue item can be requeued")
    require (¬ queue.full items) exhausted
    pure (items.put row.retried, row.retried)

end DurableQueue
end VideoPoster.Throughput
