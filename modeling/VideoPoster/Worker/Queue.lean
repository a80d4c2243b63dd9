import VideoPoster.Python.Json
import VideoPoster.Worker.Lease
import Mathlib.Data.List.Sort

/-!
# `worker`: the rows of the episode queue
-/

namespace VideoPoster.Worker
open Python Tables

inductive TaskKind where
  | fixture | compiled
  deriving DecidableEq

def TaskKind.ofText : String → Option TaskKind
  | "fixture" => some .fixture
  | "compiled" => some .compiled
  | _ => none

inductive TaskStatus where
  | pending | running | waiting | done | unknownRequiresReconciliation
  deriving DecidableEq

structure TaskRow where
  episodeId : String
  root : String
  kind : TaskKind
  status : TaskStatus
  nextAction : String
  fencingToken : Option ℤ
  workerId : Option String
  leaseEpoch : Option ℤ
  gateHash : Option String
  attempts : ℕ
  updatedAt : ℚ
  state : String

abbrev Tasks := Table TaskRow.episodeId

def human (action : String) : Bool := startsWith action "HUMAN_"

structure Completion where
  status : TaskStatus
  nextAction : String
  state : String
  gateHash : Option String
  gated : gateHash.isSome ↔ status = .waiting
  acts : status = .waiting → human nextAction = true
  left : status ≠ .running ∧ status ≠ .unknownRequiresReconciliation

def completion (outcome : Dict) : Result Completion :=
  match outcome.get "state", outcome.get "next_action" with
  | some (.str state), some (.str action) =>
    if waits : human action = true then
      match outcome.get "gate_hash" with
      | some (.str hash) =>
        if hash.length = 64 then
          .ok ⟨.waiting, action, state, some hash, by simp, fun _ => waits, by simp⟩
        else .error (.value "waiting human gate requires exact durable artifact hash")
      | _ => .error (.value "waiting human gate requires exact durable artifact hash")
    else if action = "TERMINAL" then .ok ⟨.done, action, state, none, by simp, nofun, by simp⟩
    else .ok ⟨.pending, action, state, none, by simp, nofun, by simp⟩
  | _, _ => .error (.type "worker outcome requires state and next_action")

def TaskRow.HeldBy (row : TaskRow) (workerId : String) (token : ℤ) : Prop :=
  row.status = .running ∧ row.workerId = some workerId ∧ row.leaseEpoch = some token

instance (row : TaskRow) (workerId : String) (token : ℤ) : Decidable (row.HeldBy workerId token) :=
  inferInstanceAs (Decidable (_ ∧ _ ∧ _))

namespace TaskRow

def new (episodeId root : String) (kind : TaskKind) (now : ℚ) : TaskRow where
  episodeId := episodeId
  root := root
  kind := kind
  status := .pending
  nextAction := "RESUME"
  fencingToken := none
  workerId := none
  leaseEpoch := none
  gateHash := none
  attempts := 0
  updatedAt := now
  state := "READY"

def claimed (row : TaskRow) (workerId : String) (token : ℤ) (now : ℚ) : TaskRow :=
  { row with
    status := .running, nextAction := "RESUME", fencingToken := some token
    workerId := some workerId, leaseEpoch := some token, attempts := row.attempts + 1
    updatedAt := now }

def completed (row : TaskRow) (completion : Completion) (now : ℚ) : TaskRow :=
  { row with
    status := completion.status, nextAction := completion.nextAction, state := completion.state
    gateHash := completion.gateHash, updatedAt := now }

def retried (row : TaskRow) (action : String) (now : ℚ) : TaskRow :=
  { row with status := .pending, nextAction := action, updatedAt := now }

def quarantined (row : TaskRow) (now : ℚ) : TaskRow :=
  { row with
    status := .unknownRequiresReconciliation, nextAction := "RECONCILE_REQUIRED", updatedAt := now }

def woken (row : TaskRow) (now : ℚ) : TaskRow :=
  { row with status := .pending, nextAction := "RESUME", gateHash := none, updatedAt := now }

end TaskRow

namespace Tasks
variable (tasks : Tasks) (episodeId : String)

def update (matching : TaskRow → Prop) [DecidablePred matching] (change : TaskRow → TaskRow) :
    Option Tasks :=
  match tasks.find? episodeId with
  | some row => if matching row then some (tasks.put (change row)) else none
  | none => none

def enqueue (root : String) (kind : TaskKind) (now : ℚ) : Result Tasks :=
  match tasks.find? episodeId with
  | some row =>
    if row.root = root ∧ row.kind = kind then .ok tasks
    else .error (.value "episode task conflicts with durable queue binding")
  | none => .ok (tasks.put (.new episodeId root kind now))

def Claimable (row : TaskRow) : Prop := row.status = .pending ∨ row.status = .running

instance (row : TaskRow) : Decidable (Claimable row) := inferInstanceAs (Decidable (_ ∨ _))

def claim (workerId : String) (token : ℤ) (now : ℚ) : Result Tasks :=
  match tasks.update episodeId Claimable (·.claimed workerId token now) with
  | some changed => .ok changed
  | none => .error (.runtime "task is not eligible for recovery")

def complete (workerId : String) (token : ℤ) (completion : Completion) (now : ℚ) : Result Tasks :=
  match tasks.update episodeId (·.HeldBy workerId token) (·.completed completion now) with
  | some changed => .ok changed
  | none => .error (.runtime "stale worker/epoch cannot mutate task")

def retry (workerId : String) (token : ℤ) (action : String) (now : ℚ) : Tasks :=
  (tasks.update episodeId (·.HeldBy workerId token) (·.retried action now)).getD tasks

def unknown (workerId : String) (token : ℤ) (now : ℚ) : Result Tasks :=
  match tasks.update episodeId (·.HeldBy workerId token) (·.quarantined now) with
  | some changed => .ok changed
  | none => .error (.runtime "stale worker/epoch cannot quarantine task")

def wake (expected hash : String) (now : ℚ) : Tasks × ℕ :=
  match tasks.update episodeId
      (fun row => row.status = .waiting ∧ row.nextAction = expected ∧ row.gateHash = some hash)
      (·.woken now) with
  | some changed => (changed, 1)
  | none => (tasks, 0)

def rowsByEpisode : List TaskRow := tasks.rows.insertionSort fun a b => a.episodeId ≤ b.episodeId

def rank (row : TaskRow) : ℕ := if row.status = .pending then 0 else 1

def Before (a b : TaskRow) : Prop :=
  rank a < rank b ∨ rank a = rank b ∧
    (a.updatedAt < b.updatedAt ∨ a.updatedAt = b.updatedAt ∧ a.episodeId ≤ b.episodeId)

instance (a b : TaskRow) : Decidable (Before a b) := inferInstanceAs (Decidable (_ ∨ _))

def nextPending : Option String :=
  (((tasks.rows.filter fun row => Claimable row).insertionSort Before).head?).map TaskRow.episodeId

end Tasks
end VideoPoster.Worker
