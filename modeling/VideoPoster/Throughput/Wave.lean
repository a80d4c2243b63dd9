import VideoPoster.Throughput.Bounds

/-!
# `run_bounded_wave`: one wave over the queue

The coroutine is a machine whose steps are the statements between which something can be observed: one look at an
item, one callback started, one claim, one wait, one finished task.
-/

namespace VideoPoster.Throughput
open Python Tables DurableQueue Dict

structure WaveItem where
  id : String
  payload : Dict

structure Wave where
  queue : DurableQueue
  ordered : List WaveItem
  recoverFailed : Bool
  notifies : Bool

inductive Task where
  | handler (itemId : String)
  | callback (itemId : String) (result : Json)
  deriving DecidableEq

inductive Ending where
  | returned (result : Json)
  | raised (error : Error)
  /-- By a `CancelledError` or another exception that is no `Exception`, or with a result that cannot be
  stored. -/
  | aborted (error : Error)

inductive Phase where
  /-- `while next_index < len(ordered)`. -/
  | admitting
  /-- `admit_notifications`. -/
  | notifying
  /-- `while len(active) + len(notifications) < queue.workers`. -/
  | claiming
  | waiting
  /-- `for task in done`, with the tasks that are still to be taken. -/
  | settling (done : List Task)
  | returned
  | raised (error : Error)
  deriving DecidableEq

def Phase.live : Phase → Prop
  | .returned | .raised _ => False
  | _ => True

structure WaveState where
  items : Items
  nextIndex : ℕ := 0
  results : List (String × Json) := []
  scheduled : List String := []
  pending : List (String × Json) := []
  active : List String := []
  notifications : List (String × Json) := []
  phase : Phase
  /-- The items for which the handler was started, and what handlers have returned. -/
  started : List String := []
  handled : List (String × Json) := []
  /-- The calls of `on_completed`. -/
  invoked : List (String × Json) := []

inductive Choice where
  | go (now : ℚ)
  /-- `asyncio.wait` returns with these tasks done. -/
  | done (tasks : List Task)
  /-- The wave itself is cancelled while it waits. -/
  | cancelled (error : Error)
  /-- How the next task of `done` has ended, and the size of the result file if there is one. -/
  | ended (ending : Ending) (bytes : Option ℕ) (now : ℚ)

namespace WaveState

def record (s : WaveState) (itemId : String) (result : Json) : WaveState :=
  { s with results := (itemId, result) :: s.results.filter fun entry => entry.1 ≠ itemId }

def notify (s : WaveState) (notifies : Bool) (itemId : String) (result : Json) : WaveState :=
  if notifies = false ∨ itemId ∈ s.scheduled then s
  else
    { s with
      pending := s.pending ++ [(itemId, result)]
      scheduled := itemId :: s.scheduled }

def stop (s : WaveState) (phase : Phase) : WaveState :=
  { s with
    items := requeueRunning s.items, active := [], notifications := []
    phase := phase }

def busy (s : WaveState) : ℕ := s.active.length + s.notifications.length

end WaveState

def truthy : Json → Bool
  | .null => false
  | .bool value => value
  | .num value => value ≠ 0
  | .str text => text ≠ ""
  | .arr items => items ≠ []
  | .obj entries => entries ≠ []

/-- The size that goes into the summary; `Path` takes a text. -/
def resultBytes (bytes : Option ℕ) : Option Json → Result Dict
  | some (.str path) =>
    .ok (if path = "" then [] else (bytes.map fun size => ("bytes", Json.num size)).toList)
  | some value => if truthy value then .error (.type "result path") else .ok []
  | none => .ok []

def summary (itemId : String) (result : Json) (bytes : Option ℕ) : Result Dict := do
  let stored : Dict := [("request_id", .str itemId), ("handler_result", result)]
  match result with
  | .obj fields => do
    let size ← resultBytes bytes (get fields "result")
    pure (stored ++ [("result_sha256", (get fields "result_sha256").getD .null),
      ("cost", (get fields "actual_cost").getD .null),
      ("cache_hit", (get fields "cache_hit").getD .null)] ++ size)
  | _ => pure stored

def QueueItem.handlerResult (row : QueueItem) : Option Json :=
  match row.result with
  | some (.obj fields) => get fields "handler_result"
  | _ => none

namespace Wave
variable (wave : Wave)

def ids : List String := wave.ordered.map WaveItem.id

def unfinished (s : WaveState) : Prop :=
  s.results.length < wave.ordered.length ∨ s.pending ≠ [] ∨ s.notifications ≠ []

instance (s : WaveState) : Decidable (wave.unfinished s) := inferInstanceAs (Decidable (_ ∨ _))

def again (s : WaveState) : WaveState :=
  if wave.unfinished s then { s with phase := .admitting } else s.stop .returned

def start (items : Items) : WaveState :=
  if wave.ids.Nodup then
    wave.again { items := requeueRunning items, phase := .admitting }
  else WaveState.stop { items := items, phase := .admitting }
    (.raised (.value "wave item IDs must be unique"))

def resume (s : WaveState) (row : QueueItem) : WaveState :=
  match row.status with
  | .failed =>
    if wave.recoverFailed then
      match wave.queue.requeueFailed s.items row.id with
      | .ok (items, _) => { s with items := items, nextIndex := s.nextIndex + 1 }
      | .error error => s.stop (.raised error)
    else s.stop (.raised (.runtime ("queued wave item failed: " ++ row.id)))
  | .complete =>
    match row.handlerResult with
    | some result =>
      ({ s with nextIndex := s.nextIndex + 1 }.record row.id result).notify wave.notifies row.id result
    | none =>
      s.stop (.raised
        (.runtime ("completed queue item is missing durable result: " ++ row.id)))
  | .queued | .running => { s with nextIndex := s.nextIndex + 1 }

/-- One turn of `while next_index < len(ordered)`. A full queue ends the loop. -/
def admitNotifications (s : WaveState) (now : ℚ) : WaveState :=
  match wave.ordered[s.nextIndex]? with
  | none => { s with phase := .notifying }
  | some item =>
    match s.items.inspect item.id with
    | some row => wave.resume s row
    | none =>
      match wave.queue.enqueue s.items item.id item.payload 0 now with
      | .ok (items, _) => { s with items := items, nextIndex := s.nextIndex + 1 }
      | .error error =>
        if error.kind = .runtimeError then { s with phase := .notifying }
        else s.stop (.raised error)

def announce (s : WaveState) : WaveState :=
  match s.pending with
  | [] => { s with phase := .claiming }
  | next :: pending =>
    if s.busy < wave.queue.workers then
      { s with
        pending := pending, notifications := s.notifications ++ [next]
        invoked := next :: s.invoked }
    else { s with phase := .claiming }

def conclude (s : WaveState) : WaveState :=
  if s.active = [] ∧ s.notifications = [] then
    if s.results.length = wave.ordered.length ∧ s.pending = [] then s.stop .returned
    else s.stop (.raised (.runtime "bounded wave made no progress"))
  else { s with phase := .waiting }

def workerName (s : WaveState) : String := "worker-" ++ toString (s.active.length + 1)

def claim (s : WaveState) (now : ℚ) : WaveState :=
  if s.busy < wave.queue.workers then
    match wave.queue.claim s.items (workerName s) now with
    | .ok (items, some row) =>
      if row.id ∈ wave.ids then
        { s with
          items := items, active := s.active ++ [row.id], started := row.id :: s.started }
      else
        match fail items row.id "wave item unavailable after resume" now with
        | .ok (items, _) =>
          { s with items := items }.stop (.raised (.runtime "durable queue contains an unavailable wave item"))
        | .error error => { s with items := items }.stop (.raised error)
    | .ok (_, none) => wave.conclude s
    | .error error => s.stop (.raised error)
  else wave.conclude s

def finish (s : WaveState) (itemId : String) (result : Json) (rest : List Task)
    (bytes : Option ℕ) (now : ℚ) : WaveState :=
  match summary itemId result bytes with
  | .error error => s.stop (.raised error)
  | .ok stored =>
    match complete s.items itemId (some (.obj stored)) now with
    | .error error => s.stop (.raised error)
    | .ok (items, _) =>
      ({ s with items := items, phase := .settling rest }.record itemId result).notify wave.notifies itemId result

def failed (s : WaveState) (itemId : String) (error : Error) (now : ℚ) : WaveState :=
  match fail s.items itemId (error.kind.name ++ ": " ++ error.message) now with
  | .ok (items, _) => { s with items := items }.stop (.raised error)
  | .error other => s.stop (.raised other)

def settle (s : WaveState) (task : Task) (rest : List Task) (ending : Ending) (bytes : Option ℕ)
    (now : ℚ) : WaveState :=
  match task with
  | .callback itemId result =>
    let s := { s with notifications := s.notifications.erase (itemId, result) }
    match ending with
    | .returned _ => { s with phase := .settling rest }
    | .raised error | .aborted error => s.stop (.raised error)
  | .handler itemId =>
    let s := { s with active := s.active.erase itemId }
    match ending with
    | .returned result =>
      wave.finish { s with handled := (itemId, result) :: s.handled } itemId result rest bytes now
    | .raised error => failed s itemId error now
    | .aborted error => s.stop (.raised error)

def tasks (s : WaveState) : List Task :=
  s.active.map .handler ++ s.notifications.map fun entry => .callback entry.1 entry.2

def step (s : WaveState) (choice : Choice) : Option WaveState :=
  match s.phase, choice with
  | .admitting, .go now => some (wave.admitNotifications s now)
  | .notifying, .go _ => some (wave.announce s)
  | .claiming, .go now => some (wave.claim s now)
  | .waiting, .done done =>
    if done ≠ [] ∧ done.Nodup ∧ done ⊆ tasks s then some { s with phase := .settling done }
    else none
  | .waiting, .cancelled error => some (s.stop (.raised error))
  | .settling [], .go _ => some (wave.again s)
  | .settling (task :: rest), .ended ending bytes now =>
    some (wave.settle s task rest ending bytes now)
  | _, _ => none

inductive Reaches (items : Items) : WaveState → Prop
  | start : Reaches items (wave.start items)
  | step {s s' : WaveState} {choice : Choice} (reached : Reaches items s)
      (stepped : wave.step s choice = some s') : Reaches items s'

def run (s : WaveState) : List Choice → Option WaveState
  | [] => some s
  | choice :: choices => do run (← wave.step s choice) choices

variable {wave} in
theorem reaches_of_run {items : Items} {choices : List Choice} {s s' : WaveState}
    (reached : wave.Reaches items s) (ran : wave.run s choices = some s') : wave.Reaches items s' := by
  induction choices generalizing s with
  | nil => exact Option.some.inj ran ▸ reached
  | cons choice choices ih =>
    obtain ⟨next, stepped, ran⟩ := Option.bind_eq_some_iff.mp ran
    exact ih (reached.step stepped) ran

end Wave
end VideoPoster.Throughput
