import Mathlib.Data.Rat.Defs
import Mathlib.Algebra.Order.Ring.Rat
import Mathlib.Order.WithBot
import VideoPoster.Interleaving.Stops
import VideoPoster.Python.Basic

/-!
# Advancing a preproduction request
-/

namespace VideoPoster.Preproduction.Advance
open Python Interleaving

abbrev Bytes := List UInt8

/-! ## Numbers -/

abbrev Number := Option (WithBot (WithTop ℚ))

namespace Number

def lt : Number → Number → Bool
  | some a, some b => a < b
  | _, _ => false

def le : Number → Number → Bool
  | some a, some b => a ≤ b
  | _, _ => false

def eq : Number → Number → Bool
  | some a, some b => a = b
  | _, _ => false

def zero : Number := some ((0 : ℚ) : WithTop ℚ)

end Number

/-! ## Evidence -/

inductive Mode where
  | test | preproduction
  deriving DecidableEq

structure Script where
  raw : Bytes
  narration : List String

inductive Verdict where
  | pass | fail | pending
  deriving DecidableEq

structure Timestamp where
  text : String
  start : Number
  stop : Number
  duration : Number

structure Timeline where
  audioSha256 : String
  scriptSha256 : String
  sourceSha256 : String
  duration : Number
  timestamps : List Timestamp

structure Audio where
  bytes : Bytes
  suffix : String

def Audio.name (audio : Audio) : String := "audio" ++ if audio.suffix = "" then ".bin" else audio.suffix

structure Scene where
  number : ℕ
  narration : String
  start : Number
  stop : Number
  prompt : String
  action : String

structure ReportDocument where
  sceneCount : ℕ
  duration : Number
  segments : List String

inductive Content where
  | raw (bytes : Bytes)
  | scenes (scenes : List Scene)
  | report (report : ReportDocument)

structure StoryboardInput where
  timelineSha256 : String
  audioSha256 : String
  scriptSha256 : String
  sourceSha256 : String

/-! ## Records -/

structure Stage where
  status : String
  sha256 : String

structure EditorialStages where
  research : Stage
  plan : Stage
  script : Stage
  scriptQa : Stage

structure Recording extends StoryboardInput where
  attempts : ℕ
  inputSha256 : String
  sha256 : String
  qaSha256 : String

inductive StoryboardStage where
  | ttsRequired
  | pass (recording : Recording)

structure Stages where
  editorial : Option EditorialStages := none
  storyboard : Option StoryboardStage := none

def Stages.recording (stages : Stages) : Option Recording :=
  match stages.storyboard with
  | some (.pass recording) => some recording
  | _ => none

inductive Status where
  | blocked | ttsRequired | validated
  deriving DecidableEq

structure Execution where
  mode : Mode
  sourceSha256 : String
  activeRevision : Bytes
  paidExecution : String

structure DocumentBody where
  status : Status
  dependencies : List String
  execution : Option Execution

structure Document extends DocumentBody where
  packageSha256 : String

structure CompilationBody extends StoryboardInput where
  mode : Mode
  storyboardSha256 : String

structure CompilationInput extends CompilationBody where
  inputSha256 : String

structure Editorial where
  research : Bytes
  script : Result (Bytes × Script)
  plan : Result Bytes
  scriptQa : Bytes
  verdict : Verdict
  approved : Bool

structure Platform where
  sha256 : Content → String
  digestInput : StoryboardInput → String
  digestDocument : DocumentBody → String
  digestCompilation : CompilationBody → String
  source : Mode → Bytes → Result Unit
  editorial : Bytes → Editorial
  verdict : Bytes → Result Verdict
  timelineEvidence : Mode → Bytes → Result Unit
  timeline : Bytes → Result Timeline
  measure : Audio → Result Number
  prompt : List String → String → String
  /-- `abs(a - b)`. -/
  distance : Number → Number → Number
  minus : Number → Number → Number
  /-- `0.000001` and `0.02`. -/
  fine : Number
  coarse : Number

/-! ## The request -/

structure Revision where
  source : Option Bytes := none
  research : Option Bytes := none
  narration : Option Bytes := none
  script : Option Script := none
  plan : Option Bytes := none
  scriptQa : Option Bytes := none
  timeline : Option Bytes := none
  audio : List (String × Bytes) := []
  scenes : Option (List Scene) := none
  storyboardQa : Option ReportDocument := none
  stages : Option Stages := none
  compilationInput : Option CompilationInput := none

inductive Write where
  | source (bytes : Bytes)
  | research (bytes : Bytes)
  | narration (bytes : Bytes)
  | script (script : Script)
  | plan (bytes : Bytes)
  | scriptQa (bytes : Bytes)
  | timeline (bytes : Bytes)
  | audio (name : String) (bytes : Bytes)
  | scenes (scenes : List Scene)
  | storyboardQa (report : ReportDocument)
  | stages (stages : Stages)
  | compilationInput (input : CompilationInput)

def Revision.apply (revision : Revision) : Write → Revision
  | .source bytes => { revision with source := some bytes }
  | .research bytes => { revision with research := some bytes }
  | .narration bytes => { revision with narration := some bytes }
  | .script script => { revision with script := some script }
  | .plan bytes => { revision with plan := some bytes }
  | .scriptQa bytes => { revision with scriptQa := some bytes }
  | .timeline bytes => { revision with timeline := some bytes }
  | .audio name bytes =>
    { revision with audio := revision.audio.filter (fun file => file.1 ≠ name) ++ [(name, bytes)] }
  | .scenes scenes => { revision with scenes := some scenes }
  | .storyboardQa report => { revision with storyboardQa := some report }
  | .stages stages => { revision with stages := some stages }
  | .compilationInput input => { revision with compilationInput := some input }

/-- The request, and its revisions by their sources: the first digits of the hash of a source name its directory. -/
structure World where
  document : Document
  revisions : Bytes → Revision

def World.write (w : World) (source : Bytes) (write : Write) : World :=
  { w with revisions := Function.update w.revisions source ((w.revisions source).apply write) }

inductive Act where
  | request
  | revision (source : Bytes)
  | write (source : Bytes) (write : Write)
  | writeRequest (document : Document)

abbrev Act.Res : Act → Type
  | .request => Document
  | .revision _ => Revision
  | _ => Unit

abbrev actions : Interface := ⟨Act, Act.Res⟩

abbrev Program := Prog actions Error

def serve (w : World) : (action : Act) → World × action.Res
  | .request => (w, w.document)
  | .revision source => (w, w.revisions source)
  | .write source write => (w.write source write, ())
  | .writeRequest document => ({ w with document := document }, ())

abbrev machine : Machine actions where
  World := World
  Oracle := Unit
  exec _ _ w action := some (serve w action)
  crash _ w := w

def perform (action : Act) : Program action.Res := Prog.request action .ok

def check (condition : Prop) [Decidable condition] (message : String) : Program Unit :=
  Prog.ofExcept (require condition (.value message))

/-! ## Checks -/

section Checks
variable (P : Platform)

def dependencies : List String :=
  ["SOURCE_REQUIRED", "PLANNING_REQUIRED", "ASSETS_REQUIRED", "AUTHORIZATION_REQUIRED"]

def validate (document : Document) : Result Unit := do
  require (∀ item ∈ document.dependencies, item ∈ "TTS_REQUIRED" :: dependencies)
    (.value "preproduction dependencies were altered")
  match document.execution with
  | none =>
    require (document.dependencies = dependencies)
      (.value "unevidenced preproduction plan or budget is not allowed")
  | some execution =>
    require (execution.paidExecution = "BLOCKED") (.value "preproduction execution must keep paid work blocked")
  require (document.packageSha256 = P.digestDocument document.toDocumentBody)
    (.value "preproduction package hash mismatch")

def kept (recorded : Option String) (file : Option Content) : Bool :=
  match recorded, file with
  | none, _ => true
  | some _, none => false
  | some hash, some content => P.sha256 content = hash

def verifyCompletedStages (revision : Revision) (stages : Stages) (source : Bytes) : Result Unit := do
  require (∀ bytes ∈ revision.source, P.sha256 (.raw bytes) = P.sha256 (.raw source))
    (.value "stored source bytes differ from active source revision")
  require (kept P (stages.editorial.map (·.research.sha256)) (revision.research.map .raw) = true)
    (.value "research artifact was altered; immutable revision is blocked")
  require (kept P (stages.editorial.map (·.plan.sha256)) (revision.plan.map .raw) = true)
    (.value "plan artifact was altered; immutable revision is blocked")
  require (kept P (stages.editorial.map (·.script.sha256)) (revision.script.map (.raw ·.raw)) = true)
    (.value "script artifact was altered; immutable revision is blocked")
  require (kept P (stages.editorial.map (·.scriptQa.sha256)) (revision.scriptQa.map .raw) = true)
    (.value "script_qa artifact was altered; immutable revision is blocked")
  require (kept P (stages.recording.map (·.sha256)) (revision.scenes.map .scenes) = true)
    (.value "storyboard artifact was altered; immutable revision is blocked")
  require (kept P (stages.recording.map (·.qaSha256)) (revision.storyboardQa.map .report) = true)
    (.value "storyboard_qa artifact was altered; immutable revision is blocked")

def verifiedCompletedStoryboard (revision : Revision) (stages : Stages) : Bool :=
  match stages.recording, revision.audio with
  | some recording, [(_, bytes)] =>
    kept P (some recording.timelineSha256) (revision.timeline.map .raw) &&
      kept P (some recording.qaSha256) (revision.storyboardQa.map .report) &&
      kept P (some recording.sha256) (revision.scenes.map .scenes) &&
      kept P (some recording.audioSha256) (some (.raw bytes))
  | _, _ => false

def checkTimestamps : Number → List Timestamp → List String → Result Number
  | previous, timestamp :: timestamps, segment :: segments => do
    require (timestamp.text = segment) (.value "timeline narration differs from QA-passed script")
    require (¬ (Number.lt P.fine (P.distance timestamp.start previous) ∨ Number.le timestamp.stop timestamp.start ∨
        Number.lt P.fine (P.distance timestamp.duration (P.minus timestamp.stop timestamp.start))))
      (.value "timeline timestamps must be contiguous measured intervals")
    checkTimestamps timestamp.stop timestamps segments
  | previous, _, _ => .ok previous

/-! ## The storyboard -/

def timelineEnd (duration : Number) (timestamp : Timestamp) (later : List Timestamp) : Number :=
  if Number.lt Number.zero duration then (later.head?.map Timestamp.start).getD duration else timestamp.stop

def scenesFrom (duration : Number) : List String → List Timestamp → List Scene
  | _, [] => []
  | earlier, timestamp :: later =>
    { number := earlier.length + 1
      narration := timestamp.text
      start := if earlier = [] ∧ Number.lt Number.zero duration then Number.zero else timestamp.start
      stop := timelineEnd duration timestamp later
      prompt := P.prompt earlier timestamp.text
      action := String.ofList (timestamp.text.toList.take 80) } ::
    scenesFrom duration (earlier ++ [timestamp.text]) later

def checkScenes : Number → List Scene → List String → Result Number
  | previous, scene :: scenes, segment :: segments => do
    require (scene.narration = segment) (.value "storyboard narration differs from QA-passed script")
    require (Number.eq scene.start previous = true ∧ ¬ Number.le scene.stop scene.start)
      (.value "storyboard timeline must be contiguous")
    checkScenes scene.stop scenes segments
  | previous, _, _ => .ok previous

def storyboardReport (scenes : List Scene) (segments : List String) (duration : Number) : Result ReportDocument := do
  require (scenes.length = segments.length ∧ scenes ≠ [])
    (.value "timeline storyboard must cover every script segment")
  let last ← checkScenes Number.zero scenes segments
  require (Number.eq last duration = true) (.value "storyboard must end at evidenced audio duration")
  return ⟨scenes.length, duration, segments⟩

end Checks

/-! ## A call -/

structure Call where
  source : Bytes
  mode : Mode
  timeline : Option Bytes
  audio : Option Audio

structure Prepared where
  timelineRaw : Bytes
  timeline : Timeline
  audio : Audio
  segments : List String
  input : StoryboardInput

section Call
variable (P : Platform)

def prepare (call : Call) (timelineRaw : Bytes) (revision : Revision) (stages : Stages) : Result Prepared := do
  let qaRaw ← (revision.scriptQa.elim (.error (.os "No such file or directory")) .ok : Result Bytes)
  require (some (P.sha256 (.raw qaRaw)) = stages.editorial.map (·.scriptQa.sha256))
    (.value "script QA evidence hash does not match recorded stage")
  let verdict ← P.verdict qaRaw
  require (verdict ≠ .pending)
    (.value "independent editorial review is pending; audio and storyboard remain blocked")
  require (stages.editorial.map (·.scriptQa.status) = some "PASS")
    (.value "independent editorial evidence has not been revalidated")
  let audio ← (call.audio.elim (.error (.value "timeline evidence requires a local measured audio file")) .ok :
    Result Audio)
  P.timelineEvidence call.mode timelineRaw
  let timeline ← P.timeline timelineRaw
  let measured ← P.measure audio
  let script ← (revision.script.elim (.error (.os "No such file or directory")) .ok : Result Script)
  let input : StoryboardInput :=
    ⟨P.sha256 (.raw timelineRaw), P.sha256 (.raw audio.bytes), P.sha256 (.raw script.raw), P.sha256 (.raw call.source)⟩
  require (timeline.audioSha256 = input.audioSha256) (.value "timeline audio hash does not bind supplied audio")
  require (timeline.scriptSha256 = input.scriptSha256) (.value "timeline script hash does not bind QA-passed script")
  require (timeline.sourceSha256 = input.sourceSha256) (.value "timeline source hash does not bind supplied source")
  require (¬ Number.lt P.coarse (P.distance timeline.duration measured))
    (.value "timeline duration does not match measured audio")
  require (timeline.timestamps.length = script.narration.length)
    (.value "timeline evidence must cover every script segment")
  let last ← checkTimestamps P Number.zero timeline.timestamps script.narration
  require (¬ Number.lt P.coarse (P.distance last measured))
    (.value "timeline timestamps do not end at measured audio duration")
  return ⟨timelineRaw, timeline, audio, script.narration, input⟩

def Prepared.scenes (prepared : Prepared) : List Scene :=
  scenesFrom P prepared.timeline.duration [] prepared.timeline.timestamps

def Prepared.report (prepared : Prepared) : Result ReportDocument :=
  storyboardReport (prepared.scenes P) prepared.segments prepared.timeline.duration

def editorialStages (source : Bytes) (script : Script) (plan : Bytes) : EditorialStages where
  research := ⟨"COMPLETE", P.sha256 (.raw (P.editorial source).research)⟩
  plan := ⟨"COMPLETE", P.sha256 (.raw plan)⟩
  script := ⟨"COMPLETE", P.sha256 (.raw script.raw)⟩
  scriptQa :=
    ⟨if (P.editorial source).verdict = .pending then "PENDING_INDEPENDENT_EDITORIAL_REVIEW" else "PASS",
      P.sha256 (.raw (P.editorial source).scriptQa)⟩

def makeScript (source : Bytes) : Program EditorialStages := do
  perform (.write source (.research (P.editorial source).research))
  let (narration, script) ← Prog.ofExcept (P.editorial source).script
  perform (.write source (.narration narration))
  perform (.write source (.script script))
  let plan ← Prog.ofExcept (P.editorial source).plan
  perform (.write source (.plan plan))
  perform (.write source (.scriptQa (P.editorial source).scriptQa))
  check ((P.editorial source).approved = true) "ScriptQA rejected source-bound script"
  return editorialStages P source script plan

/-- The files of a new recording, in the order in which the old ones are overwritten, and their stage. -/
def makeStoryboard (source : Bytes) (prepared : Prepared) (attempts : ℕ) : Program Recording := do
  check (prepared.timeline.timestamps ≠ []) "StoryboardAgent rejected timeline evidence: No timestamps provided"
  perform (.write source (.scenes (prepared.scenes P)))
  let report ← Prog.ofExcept (prepared.report P)
  perform (.write source (.storyboardQa report))
  perform (.write source (.timeline prepared.timelineRaw))
  perform (.write source (.audio prepared.audio.name prepared.audio.bytes))
  return {
    prepared.input with
    attempts := attempts + 1
    inputSha256 := P.digestInput prepared.input
    sha256 := P.sha256 (.scenes (prepared.scenes P))
    qaSha256 := P.sha256 (.report report) }

def Stages.attempts (stages : Stages) : ℕ := (stages.recording.map Recording.attempts).getD 0

def storyboardStage (call : Call) (stages : Stages) : Program (Stages × Status) := do
  let revision ← perform (.revision call.source)
  match call.timeline with
  | none =>
    check (call.audio = none) "audio requires hash-bound timeline evidence"
    if verifiedCompletedStoryboard P revision stages then
      return (stages, .validated)
    else
      return ({ stages with storyboard := stages.storyboard.or (some .ttsRequired) }, .ttsRequired)
  | some timelineRaw =>
    let prepared ← Prog.ofExcept (prepare P call timelineRaw revision stages)
    if stages.recording.map Recording.inputSha256 = some (P.digestInput prepared.input) then
      return (stages, .validated)
    else
      let recording ← makeStoryboard P call.source prepared stages.attempts
      return ({ stages with storyboard := some (.pass recording) }, .validated)

def compilationInput (mode : Mode) (recording : Recording) : CompilationInput :=
  let body : CompilationBody :=
    { recording.toStoryboardInput with mode := mode, storyboardSha256 := recording.sha256 }
  { body with inputSha256 := P.digestCompilation body }

def requestDocument (call : Call) (status : Status) : Document :=
  let body : DocumentBody :=
    { status := status
      dependencies := if status = .validated then ["ASSETS_REQUIRED", "AUTHORIZATION_REQUIRED"]
        else ["TTS_REQUIRED", "ASSETS_REQUIRED", "AUTHORIZATION_REQUIRED"]
      execution := some ⟨call.mode, P.sha256 (.raw call.source), call.source, "BLOCKED"⟩ }
  { body with packageSha256 := P.digestDocument body }

def record (call : Call) (stages : Stages) (status : Status) : Program Status := do
  perform (.write call.source (.stages stages))
  if status = .validated then
    match stages.recording with
    | some recording => perform (.write call.source (.compilationInput (compilationInput P call.mode recording)))
    | none => Prog.raise (.key "script_sha256")
  perform (.writeRequest (requestDocument P call status))
  return status

def copySource (source : Bytes) (revision : Revision) : Program Unit :=
  if revision.source.isNone then perform (.write source (.source source)) else pure ()

def scriptStages (source : Bytes) (stages : Stages) : Program Stages :=
  match stages.editorial with
  | some _ => pure stages
  | none => do
    let made ← makeScript P source
    return { stages with editorial := some made }

def advance (call : Call) : Program Status := do
  let document ← perform .request
  Prog.ofExcept (validate P document)
  Prog.ofExcept (P.source call.mode call.source)
  let revision ← perform (.revision call.source)
  let stages := revision.stages.getD {}
  Prog.ofExcept (verifyCompletedStages P revision stages call.source)
  copySource call.source revision
  let stages ← scriptStages P call.source stages
  let (stages, status) ← storyboardStage P call stages
  record P call stages status

def started : World where
  document :=
    let body : DocumentBody := ⟨.blocked, dependencies, none⟩
    { body with packageSha256 := P.digestDocument body }
  revisions _ := {}

end Call

end VideoPoster.Preproduction.Advance
