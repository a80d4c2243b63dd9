import VideoPoster.Interleaving.Execution
import VideoPoster.Worker.Queue

/-!
# Workers around one queue

Any number of processes share the lease database, the queue database, the published snapshot and the writer lock.
-/

namespace VideoPoster.Worker
open Python Tables Interleaving Config

inductive Snapshot where
  | writerInProgress (generatedAt : ℚ)
  | current (generatedAt : ℚ) (tasks : List TaskRow)

structure World where
  store : LeaseStore
  tasks : Tasks
  snapshot : Option Snapshot
  writer : Option ℕ
  uuids : List String

def World.new (now : ℚ) : World := ⟨.empty, .empty, some (.current now []), none, []⟩

structure GateReceipt where
  keys : List String
  artifactSha256 : Json
  approved : Json
  reviewer : Json
  insideRoot : Bool
  isFile : Bool
  fileSha256 : String

structure RunnerFiles where
  reparse : Option Error
  runnerAtRoot : Bool
  candidates : ℕ
  /-- No record if a file cannot be read or parsed, or is behind a reparse point. -/
  receipt : Option GateReceipt

def GateReceipt.wellFormed (receipt : GateReceipt) : Bool :=
  ["artifact_path", "artifact_sha256", "approved", "reviewer"].all (· ∈ receipt.keys) &&
    receipt.keys.all (· ∈ ["artifact_path", "artifact_sha256", "approved", "reviewer"])

def GateReceipt.approvedHash (receipt : GateReceipt) : Option String :=
  match receipt.artifactSha256, receipt.approved, receipt.reviewer with
  | .str hash, .bool true, .str reviewer =>
    if receipt.wellFormed ∧ receipt.insideRoot ∧ receipt.isFile ∧ receipt.fileSha256 = hash ∧
        blank reviewer = false then some hash
    else none
  | _, _, _ => none

def RunnerFiles.approvedHash (files : RunnerFiles) : Result String :=
  match files.reparse with
  | some error => .error error
  | none =>
    if files.runnerAtRoot = false ∧ files.candidates ≠ 1 then
      .error (.runtime "configured workspace has no unique durable runner receipt")
    else
      match files.receipt.bind GateReceipt.approvedHash with
      | some hash => .ok hash
      | none => .error (.runtime "persisted approved runner receipt is missing or invalid")

inductive Act where
  | time
  | uuid4
  | lockWriter
  | unlockWriter
  | acquire (episodeId runId : String) (now ttl : ℚ)
  | renew (lease : EpisodeLease) (now ttl : ℚ)
  | assertActive (lease : EpisodeLease) (now : ℚ)
  | delete (lease : EpisodeLease)
  | mark
  | publish
  | enqueue (episodeId root : String) (kind : TaskKind) (now : ℚ)
  | claim (episodeId workerId : String) (token : ℤ) (now : ℚ)
  | complete (episodeId workerId : String) (token : ℤ) (completion : Completion) (now : ℚ)
  | retry (episodeId workerId : String) (token : ℤ) (action : String) (now : ℚ)
  | unknown (episodeId workerId : String) (token : ℤ) (now : ℚ)
  | wake (episodeId expected hash : String) (now : ℚ)
  | nextPending
  | status (episodeId : String)
  | runnerFiles (episodeId root gate : String)

abbrev Act.Res : Act → Type
  | .time => ℚ
  | .uuid4 => String
  | .lockWriter => Unit
  | .unlockWriter => Unit
  | .acquire _ _ _ _ => Result EpisodeLease
  | .renew _ _ _ => Result EpisodeLease
  | .assertActive _ _ => Result Unit
  | .delete _ => Result Unit
  | .mark => Unit
  | .publish => Unit
  | .enqueue _ _ _ _ => Result Unit
  | .claim _ _ _ _ => Result Unit
  | .complete _ _ _ _ _ => Result Unit
  | .retry _ _ _ _ _ => Unit
  | .unknown _ _ _ _ => Result Unit
  | .wake _ _ _ _ => ℕ
  | .nextPending => Option String
  | .status _ => Option TaskRow
  | .runnerFiles _ _ _ => RunnerFiles

abbrev actions : Interface := ⟨Act, Act.Res⟩

structure Oracle where
  now : ℚ
  uuid : String
  files : RunnerFiles

def World.leased (w : World) : Result (EpisodeLease × LeaseStore) → World × Result EpisodeLease
  | .ok (lease, store) => ({ w with store := store }, .ok lease)
  | .error error => (w, .error error)

def World.released (w : World) : Result LeaseStore → World × Result Unit
  | .ok store => ({ w with store := store }, .ok ())
  | .error error => (w, .error error)

def World.commit (w : World) : Result Tasks → World × Result Unit
  | .ok tasks => ({ w with tasks := tasks }, .ok ())
  | .error error => (w, .error error)

def exec (plus : ℚ → ℚ → ℚ) (oracle : Oracle) (pid : ℕ) (w : World) :
    (action : Act) → Option (World × action.Res)
  | .time => some (w, oracle.now)
  | .uuid4 =>
    -- `uuid4().hex` has 32 characters and does not repeat.
    if oracle.uuid.length = 32 ∧ oracle.uuid ∉ w.uuids then
      some ({ w with uuids := oracle.uuid :: w.uuids }, oracle.uuid)
    else none
  | .lockWriter => if w.writer = none then some ({ w with writer := some pid }, ()) else none
  | .unlockWriter => some ({ w with writer := none }, ())
  | .acquire episodeId runId now ttl =>
    some (w.leased (w.store.acquire plus episodeId runId now ttl))
  | .renew lease now ttl => some (w.leased (w.store.renew plus lease now ttl))
  | .assertActive lease now => some (w, w.store.assertActive lease now)
  | .delete lease => some (w.released (w.store.delete lease))
  | .mark => some ({ w with snapshot := some (.writerInProgress oracle.now) }, ())
  | .publish =>
    some ({ w with snapshot := some (.current oracle.now w.tasks.rowsByEpisode) }, ())
  | .enqueue episodeId root kind now => some (w.commit (w.tasks.enqueue episodeId root kind now))
  | .claim episodeId workerId token now =>
    some (w.commit (w.tasks.claim episodeId workerId token now))
  | .complete episodeId workerId token completion now =>
    some (w.commit (w.tasks.complete episodeId workerId token completion now))
  | .retry episodeId workerId token action now =>
    some ({ w with tasks := w.tasks.retry episodeId workerId token action now }, ())
  | .unknown episodeId workerId token now =>
    some (w.commit (w.tasks.unknown episodeId workerId token now))
  | .wake episodeId expected hash now =>
    some ({ w with tasks := (w.tasks.wake episodeId expected hash now).1 },
      (w.tasks.wake episodeId expected hash now).2)
  | .nextPending => some (w, w.tasks.nextPending)
  | .status episodeId => some (w, w.tasks.find? episodeId)
  | .runnerFiles _ _ _ => some (w, oracle.files)

def World.crash (pid : ℕ) (w : World) : World :=
  { w with writer := if w.writer = some pid then none else w.writer }

abbrev machine (plus : ℚ → ℚ → ℚ) : Machine actions where
  World := World
  Oracle := Oracle
  exec := exec plus
  crash := World.crash

abbrev Program (α : Type) := Prog actions Error α

namespace Program

def require (condition : Prop) [Decidable condition] (error : Error) : Program Unit :=
  .ofExcept (Python.require condition error)

def time : Program ℚ := .act .time .pure

def uuid4 : Program String := .act .uuid4 .pure

/-- `with file_lock(self.writer_lock), self._db()`: the marker is the first thing written. -/
def writing {α : Type} (body : Program α) : Program α :=
  Prog.bind (.act .lockWriter .pure) fun _ =>
    Prog.ensuring (Prog.bind (.act .mark .pure) fun _ => body)
      (.act .unlockWriter .pure)

def publish : Program Unit := .act .publish .pure

def acquire (episodeId runId : String) (now ttl : ℚ) : Program EpisodeLease :=
  Prog.request (.acquire episodeId runId now ttl) id

def renew (lease : EpisodeLease) (now ttl : ℚ) : Program EpisodeLease :=
  Prog.request (.renew lease now ttl) id

def assertActive (lease : EpisodeLease) (now : ℚ) : Program Unit :=
  Prog.request (.assertActive lease now) id

def release (lease : EpisodeLease) (now : ℚ) : Program Unit := do
  assertActive lease now
  Prog.request (.delete lease) id

def status (episodeId : String) : Program TaskRow :=
  Prog.request (.status episodeId) fun
    | some row => .ok row
    | none => .error (.value "episode task is not queued")

def enqueue (episodeId root kind : String) : Program TaskRow := do
  require (episodeId ≠ "" ∧ root ≠ "" ∧ (TaskKind.ofText kind).isSome)
    (.value "episode ID, root, and known TEST task kind are required")
  writing do
    let now ← time
    Prog.request
      (.enqueue episodeId root ((TaskKind.ofText kind).getD .fixture) now) id
    publish
  status episodeId

def nextPending : Program (Option TaskRow) := do
  let selected : Option String ← .act .nextPending .pure
  match selected with
  | none => pure none
  | some episodeId => do
    let row ← status episodeId
    pure (some row)

def active (lease : EpisodeLease) (episodeId workerId : String) (now : ℚ) : Program Unit := do
  require (lease.episodeId = episodeId ∧ startsWith lease.runId (workerId ++ ":"))
    (.runtime "stale worker/lease cannot mutate task")
  assertActive lease now

def timeOr : Option ℚ → Program ℚ
  | some now => pure now
  | none => time

def claim (episodeId workerId : String) (lease : EpisodeLease) (now : Option ℚ) :
    Program TaskRow := do
  let now ← timeOr now
  writing do
    active lease episodeId workerId now
    Prog.request (.claim episodeId workerId lease.fencingToken now) id
    publish
  status episodeId

def complete (episodeId workerId : String) (lease : EpisodeLease) (outcome : Dict)
    (now : Option ℚ) : Program TaskRow := do
  let completion ← Prog.ofExcept (completion outcome)
  writing do
    let now ← timeOr now
    active lease episodeId workerId now
    Prog.request
      (.complete episodeId workerId lease.fencingToken completion now) id
    publish
  status episodeId

def retry (episodeId workerId : String) (lease : EpisodeLease) (action : String) :
    Program Unit :=
  writing do
    let now ← time
    active lease episodeId workerId now
    let now ← time
    .act (.retry episodeId workerId lease.fencingToken action now) .pure
    publish

def unknown (episodeId workerId : String) (lease : EpisodeLease) : Program Unit :=
  writing do
    let now ← time
    active lease episodeId workerId now
    let now ← time
    Prog.request (.unknown episodeId workerId lease.fencingToken now) id
    publish

def expectedAction : String → Option String
  | "thumbnail" => some "HUMAN_THUMBNAIL"
  | "video" => some "HUMAN_VIDEO"
  | _ => none

def wakeGate (episodeId gate : String) : Program TaskRow := do
  match expectedAction gate with
  | none => .raise (.value "durable gate kind is required")
  | some expected => do
    let task ← status episodeId
    let hash ← Prog.request (.runnerFiles episodeId task.root gate)
      RunnerFiles.approvedHash
    let changed ← writing do
      let now ← time
      let changed : ℕ ← .act (.wake episodeId expected hash now) .pure
      publish
      pure changed
    require (changed = 1) (.runtime "no matching durable human gate is waiting")
    status episodeId

end Program

structure EpisodeWorker where
  workerId : String
  leaseTtlSeconds : ℚ
  positive : 0 < leaseTtlSeconds

inductive Ending where
  | returned (outcome : Dict)
  | raised (error : Error)
  | cancelled (outcome : Except Error Dict)
  /-- The turn is cancelled and the deadline passes, or the handler ends with `TimeoutError`. -/
  | abandoned

structure Invocation where
  /-- The heartbeats that fall into its run time. -/
  beats : ℕ
  ending : Ending

namespace EpisodeWorker
open Program
variable (worker : EpisodeWorker)

def beat : ℕ → EpisodeLease → Program EpisodeLease
  | 0, current => pure current
  | beats + 1, current => do
    let now ← time
    let renewed ← (renew current now worker.leaseTtlSeconds).attempt
    match renewed with
    | .ok renewed => beat beats renewed
    | .error _ => pure current

def assertCurrent (current : EpisodeLease) : Program Unit := do
  let now ← time
  assertActive current now

def releaseCurrent (current : EpisodeLease) : Program Unit := do
  let now ← time
  release current now

def settle (episodeId : String) (current : EpisodeLease) (body : Program Unit) : Program Unit := do
  let outcome ← body.attempt
  match outcome with
  | .ok _ => releaseCurrent current
  | .error error => do
    let asserted ← (assertCurrent current).attempt
    match asserted with
    | .error _ => .raise error
    | .ok _ => do
      (retry episodeId worker.workerId current "RESUME").ensuring (releaseCurrent current)
      .raise error

/-- From the end of the handler on; `CancelledError` is no `Exception`. -/
def conclude (episodeId : String) (current : EpisodeLease) : Ending → Program Unit
  | .returned outcome | .cancelled (.ok outcome) =>
    worker.settle episodeId current do
      assertCurrent current
      let _ ← complete episodeId worker.workerId current outcome none
      pure ()
  | .raised error | .cancelled (.error error) =>
    worker.settle episodeId current (.raise error)
  | .abandoned => do
    let now ← time
    let renewed ← (renew current now worker.leaseTtlSeconds).attempt
    match renewed with
    | .error error => worker.settle episodeId current (.raise error)
    | .ok renewed => do
      let recorded ← (unknown episodeId worker.workerId renewed).attempt
      match recorded with
      | .error error => worker.settle episodeId renewed (.raise error)
      | .ok _ => pure ()

def turn (task : TaskRow) (lease : EpisodeLease) (invocation : Invocation) : Program Unit := do
  let claimed ← claim task.episodeId worker.workerId lease none
  let current ← worker.beat invocation.beats lease
  worker.conclude claimed.episodeId current invocation.ending

def runOnce (invocation : Invocation) : Program Unit := do
  let task ← nextPending
  match task with
  | none => pure ()
  | some task => do
    let uuid ← uuid4
    let now ← time
    let acquired ← (acquire task.episodeId (worker.workerId ++ ":" ++ uuid) now
      worker.leaseTtlSeconds).attempt
    match acquired with
    | .error error => if error.kind = .runtimeError then pure () else .raise error
    | .ok lease => worker.turn task lease invocation

end EpisodeWorker

inductive Call where
  | acquire (episodeId runId : String) (now ttl : ℚ)
  | renew (lease : EpisodeLease) (now ttl : ℚ)
  | assertActive (lease : EpisodeLease) (now : ℚ)
  | release (lease : EpisodeLease) (now : ℚ)
  | enqueue (episodeId root kind : String)
  | claim (episodeId workerId : String) (lease : EpisodeLease) (now : Option ℚ)
  | complete (episodeId workerId : String) (lease : EpisodeLease) (outcome : Dict) (now : Option ℚ)
  | retry (episodeId workerId : String) (lease : EpisodeLease) (action : String)
  | unknown (episodeId workerId : String) (lease : EpisodeLease)
  | wakeGate (episodeId gate : String)
  | runOnce (worker : EpisodeWorker) (invocation : Invocation)

def Call.program : Call → Program Unit
  | .acquire episodeId runId now ttl => (Program.acquire episodeId runId now ttl).discard
  | .renew lease now ttl => (Program.renew lease now ttl).discard
  | .assertActive lease now => Program.assertActive lease now
  | .release lease now => Program.release lease now
  | .enqueue episodeId root kind => (Program.enqueue episodeId root kind).discard
  | .claim episodeId workerId lease now => (Program.claim episodeId workerId lease now).discard
  | .complete episodeId workerId lease outcome now =>
    (Program.complete episodeId workerId lease outcome now).discard
  | .retry episodeId workerId lease action => Program.retry episodeId workerId lease action
  | .unknown episodeId workerId lease => Program.unknown episodeId workerId lease
  | .wakeGate episodeId gate => (Program.wakeGate episodeId gate).discard
  | .runOnce worker invocation => worker.runOnce invocation

def callsIn (kinds : Set Call) : Set (Program Unit) := Set.image Call.program kinds

section Schedules
variable {plus : ℚ → ℚ → ℚ}

def interleave (calls : List Call) (steps : List (ℕ × Oracle)) : List (Move (machine plus) Error) :=
  calls.map (fun call => .spawn call.program) ++ steps.map fun step => .perform step.1 step.2

theorem interleave_calls {kinds : Set Call} {calls : List Call} (within : ∀ call ∈ calls, call ∈ kinds) (steps : List
    (ℕ × Oracle)) : ∀ m ∈ (interleave calls steps : List (Move (machine plus) Error)), m.calls ⊆ callsIn kinds := by
  intro m member
  rcases List.mem_append.mp member with spawn | perform
  · obtain ⟨call, called, rfl⟩ := List.mem_map.mp spawn
    rintro _ rfl
    exact ⟨call, within call called, rfl⟩
  · obtain ⟨step, -, rfl⟩ := List.mem_map.mp perform
    exact Set.empty_subset _

def after (plus : ℚ → ℚ → ℚ) (allowed : Condition (machine plus)) [∀ w e, Decidable (allowed w e)]
    (calls : List Call) (steps : List (ℕ × Oracle)) : Option (Config (machine plus) Error) :=
  (initial (World.new 0)).simulate (fun w e => decide (allowed w e)) (interleave calls steps)

theorem exists_reaches_of_after {allowed : Condition (machine plus)} [∀ w e, Decidable (allowed w e)]
    {kinds : Set Call} {calls : List Call} {steps : List (ℕ × Oracle)} {test : Config (machine plus) Error → Bool}
    (within : ∀ call ∈ calls, call ∈ kinds) (passed : (after plus allowed calls steps).any test = true) :
    ∃ c, Reaches (callsIn kinds) allowed (initial (World.new 0)) c ∧ test c = true :=
  exists_reaches (fun _ _ => of_decide_eq_true) (interleave_calls within steps) passed

def clockAt (now : ℚ) : Oracle := ⟨now, "", ⟨none, true, 0, none⟩⟩

end Schedules
end VideoPoster.Worker
