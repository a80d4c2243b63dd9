import VideoPoster.Interleaving.Execution
import VideoPoster.Python.Decimal
import VideoPoster.Python.Json

/-!
# `RunPodHeroProvider`: one request on one event loop

Tasks of one loop take turns: between two awaits a task runs alone.
-/

namespace VideoPoster.Hero
open Python Interleaving Dict

/-! ## Jobs and checkpoints -/

inductive Status
  | submitting
  | inQueue
  | running
  | completed
  | failed
  | cancelled
  deriving DecidableEq

structure Checkpoint where
  providerId : String := ""
  status : Status := .submitting
  startedAt : ℚ
  deadlineAt : ℚ
  cancelClaimed : Bool := false
  terminalReason : String := ""
  resultPath : String := ""
  resultSha256 : String := ""
  actualCost : String := ""

structure PollPolicy where
  initialDelay : ℚ
  multiplier : ℚ
  maximumDelay : ℚ
  timeout : ℚ

/-- What `urlsplit` finds; the port is looked at later and may be no number. -/
structure SplitUrl where
  scheme : String
  hostname : Option String
  username : Option String
  password : Option String
  port : Result (Option ℕ)
  path : String
  query : String
  fragment : String

structure Provider where
  policy : PollPolicy
  resultHosts : List String
  target : String
  target_ne : target ≠ ""
  strip : String → String
  urlsplit : String → Result SplitUrl
  decimal : Json → Result Decimal
  text : Decimal → String
  decimal_text : ∀ d : Decimal, d.isFinite = true → decimal (.str (text d)) = .ok d

structure Job where
  cost : Decimal
  finite : cost.isFinite = true
  nonnegative : 0 ≤ cost.toRat
  validated : Result Unit

def validId (text : String) : Bool :=
  1 ≤ text.toList.length && text.toList.length ≤ 128 && text.toList.all fun c =>
    ('A' ≤ c && c ≤ 'Z') || ('a' ≤ c && c ≤ 'z') || ('0' ≤ c && c ≤ '9') || c == '_' || c == '-'

def validSha256 (text : String) : Bool :=
  text.toList.length == 64 && text.toList.all fun c => ('0' ≤ c && c ≤ '9') || ('a' ≤ c && c ≤ 'f')

def Status.parse : Json → Option Status
  | .str "SUBMITTING" => some .submitting
  | .str "IN_QUEUE" => some .inQueue
  | .str "IN_PROGRESS" | .str "RUNNING" => some .running
  | .str "COMPLETED" => some .completed
  | .str "FAILED" => some .failed
  | .str "CANCELLED" => some .cancelled
  | _ => none

def parseStatus (response : Json) (expectedId : String) : Result Status :=
  match response with
  | .obj fields => do
    require (get fields "id" = some (.str expectedId)) (.value "RunPod response job ID mismatch")
    match (get fields "status").bind Status.parse with
    | some status => pure status
    | none => .error (.value "unknown RunPod job status")
  | _ => .error (.value "RunPod response job ID mismatch")

def jobId (response : Json) : Option String :=
  match response with
  | .obj fields =>
    match get fields "id" with
    | some (.str id) => if validId id then some id else none
    | _ => none
  | _ => none

section Output
variable (P : Provider)

def unsafeOutput : Error := .value "unsafe or unverifiable RunPod output"

def checkUrl (url : String) : Result Unit := do
  let parsed ← P.urlsplit url
  require (url = P.strip url ∧ '\\' ∉ url.toList ∧ parsed.scheme = "https" ∧
    (∃ host ∈ P.resultHosts, parsed.hostname = some host) ∧ parsed.username.getD "" = "" ∧
    parsed.password.getD "" = "" ∧ parsed.fragment = "") unsafeOutput
  let port ← parsed.port
  require ((port = none ∨ port = some 443) ∧ parsed.path.length ≤ 2048 ∧ parsed.query.length ≤ 4096) unsafeOutput

def declared (response : Json) : Result (String × String) :=
  match response with
  | .obj fields =>
    match get fields "output" with
    | some (.obj output) => do
      require (keysAre output ["url", "sha256"] = true)
        (.value "completed RunPod response must contain URL and SHA-256")
      match get output "url", get output "sha256" with
      | some (.str url), some (.str expected) => do
        checkUrl P url
        require (validSha256 expected = true) unsafeOutput
        pure (url, expected)
      | _, _ => .error unsafeOutput
    | _ => .error (.value "completed RunPod response must contain URL and SHA-256")
  | _ => .error (.value "completed RunPod response must contain URL and SHA-256")

def money (value : Decimal) : Result Decimal := do
  require (value.isFinite = true ∧ 0 ≤ value.toRat) (.value "cost must be finite and nonnegative")
  pure value

def actualCost (job : Job) (response : Json) : Result Decimal :=
  match response with
  | .obj fields =>
    match get fields "actual_cost" with
    | some value => do money (← P.decimal value)
    | none => money job.cost
  | _ => money job.cost

end Output

/-! ## Actions -/

inductive Output
  | absent
  | regular (sha256 : String)
  | link
  | special
  deriving DecidableEq

structure World where
  checkpoint : Option Checkpoint
  output : Output
  turn : Option ℕ

inductive Reader
  | cancelOnce
  | other

inductive Act
  | begin
  | suspend
  | load (reader : Reader)
  | save (checkpoint : Checkpoint)
  | claim (checkpoint : Checkpoint)
  | time
  /-- Looks at the place of the clip, for one with this hash. -/
  | look (expected : String)
  | link (sha256 : String)
  | remember (providerId : String)
  | submit
  | status (providerId : String)
  | cancel (providerId : String)
  /-- The answer is the hash of the bytes, if the transport hands over bytes. -/
  | download (url expected : String)
  | sleep (seconds : ℚ)

abbrev Act.Res : Act → Type
  | .begin | .suspend => Unit
  | .load _ => Option Checkpoint
  | .save _ => Result Unit
  | .claim _ => Result Bool
  | .time => ℚ
  | .look _ => Output
  | .link _ => Result Bool
  | .remember _ => Result Unit
  | .submit | .status _ => Result Json
  | .cancel _ => Result Unit
  | .download _ _ => Result (Option String)
  | .sleep _ => Result Unit

abbrev actions : Interface := ⟨Act, Act.Res⟩

structure Oracle where
  failure : Option Error
  time : ℚ
  remembered : Result Unit
  submitted : Result Json
  status : Result Json
  cancelled : Result Unit
  downloaded : Result (Option String)
  slept : Result Unit

def exec (oracle : Oracle) (pid : ℕ) (w : World) : (action : Act) → Option (World × action.Res)
  | .begin => if w.turn = none then some ({ w with turn := some pid }, ()) else none
  | .submit => if w.turn = none then some ({ w with turn := some pid }, oracle.submitted) else none
  | .status _ => if w.turn = none then some ({ w with turn := some pid }, oracle.status) else none
  | .cancel _ => if w.turn = none then some ({ w with turn := some pid }, oracle.cancelled) else none
  | .download _ _ => if w.turn = none then some ({ w with turn := some pid }, oracle.downloaded) else none
  | .sleep _ => if w.turn = none then some ({ w with turn := some pid }, oracle.slept) else none
  | .suspend => if w.turn = some pid then some ({ w with turn := none }, ()) else none
  | .load _ => if w.turn = some pid then some (w, w.checkpoint) else none
  | .save checkpoint =>
    if w.turn = some pid then some (written oracle.failure w { w with checkpoint := some checkpoint }) else none
  | .claim checkpoint =>
    if w.turn = some pid then
      match w.checkpoint with
      | some _ => some (w, .ok false)
      | none =>
        match oracle.failure with
        | none => some ({ w with checkpoint := some checkpoint }, .ok true)
        | some error => some (w, .error error)
    else none
  | .time => if w.turn = some pid then some (w, oracle.time) else none
  | .look _ => if w.turn = some pid then some (w, w.output) else none
  | .link sha256 =>
    if w.turn = some pid then
      match oracle.failure, w.output with
      | some error, _ => some (w, .error error)
      | none, .absent => some ({ w with output := .regular sha256 }, .ok true)
      | none, _ => some (w, .ok false)
    else none
  | .remember _ => if w.turn = some pid then some (w, oracle.remembered) else none

def World.crash (pid : ℕ) (w : World) : World := { w with turn := if w.turn = some pid then none else w.turn }

abbrev machine : Machine actions where
  World := World
  Oracle := Oracle
  exec := exec
  crash := World.crash

abbrev Program (α : Type) := Prog actions Error α

namespace Program

def ofResult {α : Type} (result : Result α) : Program α := Prog.ofExcept result

def perform (action : Act) : Program action.Res := .act (I := actions) action .pure

def save (checkpoint : Checkpoint) : Program Unit := Prog.request (I := actions) (.save checkpoint) id

def awaiting (action : Act) : Program action.Res := do
  let _ ← perform .suspend
  perform action

end Program

/-! ## Cancellation -/

section Tasks
variable (P : Provider)
open Program

def cancelled : ErrorKind := .other "CancelledError"

def timedOut : ErrorKind := .other "TimeoutError"

def runPodTimeout (reason : String) : Error := ⟨.other "RunPodTimeout", reason⟩

def runPodCancelled (reason : String) : Error := ⟨.other "RunPodCancelled", reason⟩

def runPodFailed (reason : String) : Error := ⟨.other "RunPodFailed", reason⟩

def orElse (text otherwise : String) : String := if text = "" then otherwise else text

def cancelOnce (state : Checkpoint) (reason : String) : Program Unit := do
  let latest ← perform (.load .cancelOnce)
  let state := latest.getD state
  if state.status = .cancelled then pure ()
  else do
    let claimed := if state.cancelClaimed then state else { state with cancelClaimed := true, terminalReason := reason }
    let _ ← if state.cancelClaimed then pure () else save claimed
    match ← awaiting (.cancel claimed.providerId) with
    | .error error => do
      save claimed
      .raise error
    | .ok () => save { claimed with status := .cancelled }

/-- `except asyncio.CancelledError` of `_drive`: the cancellation of the job is a task of its own. -/
def guarded {α : Type} (state : Checkpoint) (body : Program α) : Program α := do
  match ← body.attempt with
  | .ok value => pure value
  | .error error =>
    if error.kind = cancelled then do
      awaiting .begin
      cancelOnce state "CALLER_CANCELLED"
      .raise error
    else .raise error

def timeOut {α : Type} (state : Checkpoint) : Program α := do
  cancelOnce state "TIMEOUT"
  .raise (runPodTimeout "TIMEOUT")

def cancellation (reason : String) : Error :=
  if orElse reason "RunPod job cancelled" = "TIMEOUT" then runPodTimeout "TIMEOUT"
  else runPodCancelled (orElse reason "RunPod job cancelled")

/-! ## Completion -/

def safeFinalOutput : Output → Result (Option String)
  | .absent => .ok none
  | .regular sha256 => .ok (some sha256)
  | .link => .error (.value "unsafe final output link or reparse point")
  | .special => .error (.value "unsafe final output is not a regular file")

structure Delivered where
  path : String
  sha256 : String
  cost : Decimal

def materialize (url expected : String) : Program Unit := do
  match ← awaiting (.download url expected) with
  | .error error => .raise error
  | .ok content => do
    ofResult (require (content = some expected) (.value "downloaded hero output hash mismatch"))
    match ← perform (.link expected) with
    | .error error => .raise error
    | .ok true => pure ()
    | .ok false => do
      let found ← ofResult (safeFinalOutput (← perform (.look expected)))
      ofResult (require (found = some expected) (.value "final hero output already exists with different bytes"))

def complete (job : Job) (state : Checkpoint) (response : Json) : Program Delivered := do
  let (url, expected) ← ofResult (declared P response)
  match ← ofResult (safeFinalOutput (← perform (.look expected))) with
  | some found => ofResult (require (found = expected) (.value "existing hero output hash mismatch"))
  | none => materialize url expected
  let cost ← ofResult (actualCost P job response)
  save { state with
    status := .completed, resultPath := P.target, resultSha256 := expected, actualCost := P.text cost }
  pure ⟨P.target, expected, cost⟩

def completeOrFail (job : Job) (state : Checkpoint) (response : Json) : Program Delivered := do
  match ← (complete P job state response).attempt with
  | .ok delivered => pure delivered
  | .error error =>
    if error.kind = .valueError then do
      save { state with status := .failed, terminalReason := "RESULT_VERIFICATION_FAILED" }
      .raise error
    else .raise error

/-! ## Polling -/

def recorded (state : Checkpoint) (status : Status) : Checkpoint :=
  { state with
    status
    terminalReason := if status = .failed ∨ status = .cancelled then "PROVIDER_ERROR" else state.terminalReason }

/-- One round of the loop of `_drive` for a job that still runs: the checkpoint, the response and the delay of the
next round. -/
def poll (state : Checkpoint) (response : Json) (delay : ℚ) : Program (Checkpoint × Json × ℚ) := do
  let remaining := state.deadlineAt - (← perform .time)
  if remaining ≤ 0 then guarded state (timeOut state)
  else do
    guarded state (do ofResult (← awaiting (.sleep (min delay remaining))))
    match ← perform (.load .other) with
    | some latest =>
      if latest.cancelClaimed then pure (latest, response, delay) else query remaining
    | none => query remaining
where
  query (remaining : ℚ) : Program (Checkpoint × Json × ℚ) := do
    if state.deadlineAt ≤ (← perform .time) then guarded state (timeOut state)
    else
      match ← guarded state (do
        match ← awaiting (.status state.providerId) with
        | .ok response => pure response
        | .error error => if error.kind = timedOut then timeOut state else .raise error) with
      | response => do
        match ← perform (.load .other) with
        | some latest =>
          if latest.cancelClaimed then pure (latest, response, delay) else note response
        | none => note response
  note (response : Json) : Program (Checkpoint × Json × ℚ) := do
    if state.deadlineAt ≤ (← perform .time) then guarded state (timeOut state)
    else do
      let status ← ofResult (parseStatus response state.providerId)
      save (recorded state status)
      pure (recorded state status, response, min (delay * P.policy.multiplier) P.policy.maximumDelay)

def drive (job : Job) : ℕ → Checkpoint → Json → ℚ → Program Delivered
  | 0, _, _, _ => .raise (.runtime "still polling")
  | rounds + 1, state, response, delay => do
    let state := (← perform (.load .other)).getD state
    match state.status with
    | .completed => guarded state (completeOrFail P job state response)
    | .failed => .raise (runPodFailed (orElse state.terminalReason "RunPod job failed"))
    | .cancelled => .raise (cancellation state.terminalReason)
    | _ => do
      let (state, response, delay) ← poll P state response delay
      drive job rounds state response delay

/-! ## The calls -/

def freshCheckpoint (startedAt : ℚ) : Checkpoint := { startedAt, deadlineAt := startedAt + P.policy.timeout }

def submit (rounds : ℕ) (job : Job) : Program Delivered := do
  ofResult job.validated
  let state := freshCheckpoint P (← perform .time)
  match ← perform (.claim state) with
  | .error error => .raise error
  | .ok false => .raise (.runtime "submission already checkpointed; recover instead")
  | .ok true => do
    match ← awaiting .submit with
    | .error error => do
      save { state with terminalReason := "SUBMISSION_OUTCOME_UNKNOWN" }
      .raise error
    | .ok response => do
      match jobId response with
      | none => do
        save { state with terminalReason := "SUBMISSION_RESPONSE_INVALID" }
        .raise (.value "invalid RunPod job ID")
      | some providerId => do
        save { state with providerId }
        ofResult (← perform (.remember providerId))
        let status ← ofResult (parseStatus response providerId)
        save { state with providerId, status }
        drive P job rounds { state with providerId, status } response P.policy.initialDelay

def cancel : Program Unit := do
  match ← perform (.load .other) with
  | none => .raise (.value "cannot cancel an uncheckpointed RunPod job")
  | some state => do
    ofResult (require (state.providerId ≠ "") (.value "cannot cancel a submission without a durable RunPod job ID"))
    match state.status with
    | .cancelled => pure ()
    | .completed | .failed => .raise (.value "cannot cancel a terminal RunPod job")
    | _ => cancelOnce state "CALLER_CANCELLED"

def persistedResult (state : Checkpoint) : Program Delivered := do
  ofResult (require (validSha256 state.resultSha256 = true)
    (.value "completed RunPod checkpoint is missing verified output"))
  let found ← perform (.look state.resultSha256)
  ofResult (require (state.resultPath = P.target ∧ found = .regular state.resultSha256)
    (.value "completed RunPod output no longer verifies"))
  let cost ← ofResult (do money (← P.decimal (.str state.actualCost)))
  pure ⟨P.target, state.resultSha256, cost⟩

def recoverState (rounds : ℕ) (job : Job) (providerId : String) (state : Checkpoint) : Program Delivered := do
  if state.status = .completed ∧ state.resultPath ≠ "" then persistedResult P state
  else
    match state.status with
    | .failed => .raise (runPodFailed (orElse state.terminalReason "RunPod job failed"))
    | .cancelled => .raise (cancellation state.terminalReason)
    | _ => do
      let knownComplete := state.status = .completed
      if ¬ knownComplete ∧ state.deadlineAt ≤ (← perform .time) then timeOut state
      else do
        let _ ← perform .time
        match ← awaiting (.status providerId) with
        | .error error => if error.kind = timedOut ∧ ¬ knownComplete then timeOut state else .raise error
        | .ok response => do
          match ← perform (.load .other) with
          | some latest =>
            if latest.cancelClaimed then .raise (cancellation latest.terminalReason)
            else note knownComplete response
          | none => note knownComplete response
where
  note (knownComplete : Bool) (response : Json) : Program Delivered := do
    if ¬ knownComplete ∧ state.deadlineAt ≤ (← perform .time) then timeOut state
    else do
      let status ← ofResult (parseStatus response providerId)
      save (recorded state status)
      drive P job rounds (recorded state status) response P.policy.initialDelay

def recover (rounds : ℕ) (job : Job) (providerId pending : String) : Program Delivered := do
  ofResult job.validated
  ofResult (require (validId providerId = true) (.value "recovery identity mismatch"))
  ofResult (require (pending = "") (.value "RunPod recovery does not accept unverified partial paths"))
  match ← perform (.load .other) with
  | none => .raise (.value "RunPod recovery checkpoint mismatch")
  | some state => do
    ofResult (require (state.providerId = providerId) (.value "RunPod recovery checkpoint mismatch"))
    if state.cancelClaimed ∧ state.status ≠ .cancelled then do
      cancelOnce state (orElse state.terminalReason "CALLER_CANCELLED")
      let state := (← perform (.load .other)).getD state
      recoverState P rounds job providerId state
    else recoverState P rounds job providerId state

def recoverLocal (rounds : ℕ) (job : Job) : Program Delivered := do
  match ← perform (.load .other) with
  | none => .raise (.value "no durable local RunPod job ID to reconcile")
  | some state => do
    ofResult (require (validId state.providerId = true) (.value "no durable local RunPod job ID to reconcile"))
    ofResult (← perform (.remember state.providerId))
    recover P rounds job state.providerId ""

def task {α : Type} (body : Program α) : Program Unit := do
  perform .begin
  (body.ensuring (perform .suspend)).discard

def calls : Set (Program Unit) :=
  {task cancel} ∪ Set.range (fun call : ℕ × Job => task (submit P call.1 call.2)) ∪
    Set.range (fun call : ℕ × Job => task (recoverLocal P call.1 call.2)) ∪
    Set.range (fun call : ℕ × Job × String × String => task (recover P call.1 call.2.1 call.2.2.1 call.2.2.2))

end Tasks

end VideoPoster.Hero
