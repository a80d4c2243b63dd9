import VideoPoster.Preproduction.Advance

/-!
# Compiling a validated request
-/

namespace VideoPoster.Preproduction.Advance
open Python Number

structure Asset where
  sha256 : String
  reviewer : String
  mode : String
  current : String

structure Manifest where
  assets : List Asset
  sheet : Asset
  reviewer : String
  mode : String

structure FrameSpec where
  sceneId : ℕ
  start : Number
  stop : Number
  prompt : String
  semanticAction : String

structure SourceBinding extends StoryboardInput where
  scriptQaSha256 : String
  storyboardSha256 : String
  compilationInputSha256 : String

structure CompiledEpisode where
  audio : Asset
  frames : List FrameSpec
  sourceBinding : SourceBinding

structure ReceiptBody extends SourceBinding where
  manifestInputSha256 : String
  compiledSha256 : String
  manifestSha256 : String
  policySha256 : String

structure Receipt extends ReceiptBody where
  receiptSha256 : String

structure Packet where
  episode : CompiledEpisode
  manifest : Manifest
  policySha256 : String
  receipt : Receipt

structure Compiler where
  checksumEpisode : CompiledEpisode → String
  checksumManifest : Manifest → String
  digestReceipt : ReceiptBody → String
  /-- `_digest_json(compiled_policy_document())`. -/
  policySha256 : String
  /-- `not text.strip()`. -/
  blank : String → Bool
  labelled : String → Bool
  labelled_test : ∀ text, labelled ("TEST" ++ text) = true
  labelled_not_blank : ∀ text, labelled text = true → blank text = false ∧ text ≠ ""

section Compile
variable (C : Compiler) (P : Platform)

def frameSpec (scene : Scene) : Result FrameSpec := do
  require (¬ (lt scene.start zero ∨ le scene.stop scene.start))
    (.value "positive ordered timestamps required")
  require (¬ (C.blank scene.prompt ∨ C.blank scene.action))
    (.value "semantic action and compiled prompt required")
  return ⟨scene.number, scene.start, scene.stop, scene.prompt, scene.action⟩

def FrameSpec.le (frame later : FrameSpec) : Bool :=
  ! (lt later.start frame.start || (eq later.start frame.start && later.sceneId < frame.sceneId))

def checkOverlap : List FrameSpec → Result Unit
  | previous :: current :: frames => do
    require (¬ lt current.start previous.stop) (.value "semantic timestamps overlap")
    checkOverlap (current :: frames)
  | _ => .ok ()

def orderFrames (frames : List FrameSpec) : Result (List FrameSpec) := do
  require (frames ≠ []) (.value "at least one semantic frame required")
  require ((frames.map FrameSpec.sceneId).Nodup) (.value "duplicate scene_id")
  let ordered := frames.mergeSort FrameSpec.le
  checkOverlap ordered
  return ordered

def compileStoryboard (scenes : List Scene) : Result (List FrameSpec) := do
  let frames ← scenes.mapM (frameSpec C)
  orderFrames frames

def copyAsset (asset : Asset) : Result Asset := do
  require (C.blank asset.reviewer = false) (.value "explicit reviewer and mode required")
  return ⟨asset.current, asset.reviewer, "TEST", asset.current⟩

def checkAsset (asset : Asset) : Result Unit := do
  require (asset.mode = "TEST") (.value "asset mode mismatch")
  require (asset.reviewer ≠ "" ∧ asset.current = asset.sha256) (.value "approved asset hash mismatch")
  require (C.labelled asset.reviewer = true) (.value "manifest assets must be explicitly labelled TEST")

def checkManifest (manifest : Manifest) : Result Unit := do
  require (manifest.mode = "TEST" ∧ C.labelled manifest.reviewer = true)
    (.value "manifest must be explicitly labelled local TEST evidence")
  (manifest.assets ++ [manifest.sheet]).forM (checkAsset C)

def checkBytes (label expected : String) (file : Option Content) : Result Unit :=
  require (kept P (some expected) file = true) (.value (label ++ " bytes do not match validated hash"))

def CompilationInput.Binds (input : CompilationInput) (sourceSha256 : String) (recording : Recording) : Prop :=
  input.sourceSha256 = sourceSha256 ∧ input.scriptSha256 = recording.scriptSha256 ∧
    input.timelineSha256 = recording.timelineSha256 ∧ input.audioSha256 = recording.audioSha256 ∧
      input.storyboardSha256 = recording.sha256

instance (input : CompilationInput) (sourceSha256 : String) (recording : Recording) :
    Decidable (input.Binds sourceSha256 recording) := by
  unfold CompilationInput.Binds
  infer_instance

structure Evidence where
  input : CompilationInput
  sourceSha256 : String
  editorial : EditorialStages
  recording : Recording
  audio : Bytes
  scenes : List Scene

def compilationEvidence (w : World) : Result Evidence := do
  validate P w.document
  require (w.document.status = .validated) (.value "compile requires PREPRODUCTION_VALIDATED request")
  let execution ← (w.document.execution.elim
    (.error (.value "compile requires explicit TEST preproduction execution")) .ok : Result Execution)
  require (execution.mode = .test) (.value "compile requires explicit TEST preproduction execution")
  require (execution.sourceSha256 = P.sha256 (.raw execution.activeRevision))
    (.value "active revision pointer is not hash-bound")
  let revision := w.revisions execution.activeRevision
  let stages ← (revision.stages.elim (.error (.os "No such file or directory")) .ok : Result Stages)
  verifyCompletedStages P revision stages execution.activeRevision
  require (verifiedCompletedStoryboard P revision stages = true) (.value "validated storyboard inputs were altered")
  let input ← (revision.compilationInput.elim (.error (.os "No such file or directory")) .ok : Result CompilationInput)
  require (input.inputSha256 = P.digestCompilation input.toCompilationBody ∧ input.mode = .test)
    (.value "compilation input hash or mode mismatch")
  let recording ← (stages.recording.elim (.error (.key "script_sha256")) .ok : Result Recording)
  require (input.Binds execution.sourceSha256 recording) (.value "compilation input does not bind validated evidence")
  let editorial ← (stages.editorial.elim (.error (.key "script")) .ok : Result EditorialStages)
  let audio ← (match revision.audio with
    | [(_, bytes)] => .ok bytes
    | _ => .error (.value "validated revision must contain one local audio input") : Result Bytes)
  checkBytes P "source" execution.sourceSha256 (revision.source.map .raw)
  checkBytes P "script" editorial.script.sha256 (revision.script.map (.raw ·.raw))
  checkBytes P "script QA" editorial.scriptQa.sha256 (revision.scriptQa.map .raw)
  checkBytes P "storyboard" recording.sha256 (revision.scenes.map .scenes)
  checkBytes P "timeline" recording.timelineSha256 (revision.timeline.map .raw)
  checkBytes P "audio" recording.audioSha256 (some (.raw audio))
  let scenes ← (revision.scenes.elim (.error (.os "No such file or directory")) .ok : Result (List Scene))
  return ⟨input, execution.sourceSha256, editorial, recording, audio, scenes⟩

def existingPacket (packet : Packet) (inputSha256 manifestInputSha256 : String) : Result Packet := do
  require (packet.receipt.receiptSha256 = C.digestReceipt packet.receipt.toReceiptBody)
    (.value "compiled receipt hash mismatch")
  require (packet.receipt.compilationInputSha256 = inputSha256 ∧
      packet.receipt.manifestInputSha256 = manifestInputSha256)
    (.value "compiled lineage conflicts with changed inputs; never overwrite")
  require (C.checksumEpisode packet.episode = packet.receipt.compiledSha256 ∧
      C.checksumManifest packet.manifest = packet.receipt.manifestSha256 ∧
        packet.policySha256 = packet.receipt.policySha256)
    (.value "compiled lineage receipt does not bind packet bytes")
  return packet

def sourceBinding (evidence : Evidence) : SourceBinding where
  timelineSha256 := evidence.recording.timelineSha256
  audioSha256 := evidence.recording.audioSha256
  scriptSha256 := evidence.editorial.script.sha256
  sourceSha256 := evidence.sourceSha256
  scriptQaSha256 := evidence.editorial.scriptQa.sha256
  storyboardSha256 := evidence.recording.sha256
  compilationInputSha256 := evidence.input.inputSha256

def newPacket (evidence : Evidence) (manifest : Manifest) (manifestInputSha256 : String) : Result Packet := do
  let assets ← manifest.assets.mapM (copyAsset C)
  let sheet ← copyAsset C manifest.sheet
  let localManifest : Manifest := ⟨assets, sheet, manifest.reviewer, "TEST"⟩
  let audioSha256 := P.sha256 (.raw evidence.audio)
  let audio ← copyAsset C ⟨audioSha256, "TEST local preproduction audio", "TEST", audioSha256⟩
  let frames ← compileStoryboard C evidence.scenes
  let episode : CompiledEpisode := ⟨audio, frames, sourceBinding evidence⟩
  let body : ReceiptBody :=
    { sourceBinding evidence with
      manifestInputSha256 := manifestInputSha256
      compiledSha256 := C.checksumEpisode episode
      manifestSha256 := C.checksumManifest localManifest
      policySha256 := C.policySha256 }
  return ⟨episode, localManifest, C.policySha256, { body with receiptSha256 := C.digestReceipt body }⟩

def compilePreproduction (w : World) (packet : Option Packet) (manifest : Manifest) (manifestInputSha256 : String) :
    Result Packet := do
  let evidence ← compilationEvidence P w
  checkManifest C manifest
  match packet with
  | some packet => existingPacket C packet evidence.input.inputSha256 manifestInputSha256
  | none => newPacket C P evidence manifest manifestInputSha256

end Compile

end VideoPoster.Preproduction.Advance
