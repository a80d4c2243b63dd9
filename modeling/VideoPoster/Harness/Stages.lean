import VideoPoster.Harness.Publication

/-!
# `RevisionHarness.run`
-/

namespace VideoPoster.Harness
open Python Billing Interleaving Tables

namespace Control
variable (control : Control)

def scriptFile : Path := control.file ["script", "script.json"]
def narrationFile : Path := control.file ["audio", "narration.wav"]
def connectedFile : Path := control.file ["storyboard", "connected.json"]
def compiledFile : Path := control.file ["compiled", "compiled_episode.json"]
def manifestFile : Path := control.file ["compiled", "manifest.json"]
def heroFile : Path := control.file ["animation", "hero-manifest.json"]
def finalVideo : Path := control.file ["renders", "final.mp4"]
def thumbnailFile : Path := control.file ["thumbnails", "thumbnail.png"]
def telegramFile (kind : Kind) : Path := control.file ["qa", "telegram-" ++ kind.text ++ ".json"]

def below (files : Files) (directory : List String) : List Path :=
  files.below control.plan.revision ("EP8" :: directory)

end Control

def endsWith (text ending : String) : Bool := ending.toList.isSuffixOf text.toList

def revisionLive : String := "src.hybrid.revision_live:factory"

def Plan.biblical (plan : Plan) : Bool := plan.mode = .live && plan.adapter = some revisionLive

section Calls
variable (L : Libraries)

namespace Program

def produce (control : Control) (stage : StageName) (parts : List String) : Program Unit := do
  let answer ← ask (.made stage parts)
  let document ← ofResult answer
  write (control.file parts) document

def produceBelow (control : Control) (stage : StageName) (directory : List String) : Program Unit := do
  let names ← ask (.names stage directory)
  each names fun name => produce control stage (directory ++ name)

def provide (control : Control) (stage : StageName) : Program Unit := do
  let files ← ask (.provided stage)
  each files fun file => write (.revision control.plan.revision ("providers" :: file.1)) file.2

def finish (stage : StageName) : Program Unit := do
  let answer ← ask (.finished stage)
  ofResult answer

def list (control : Control) (directory : List String) (wanted : Path → Bool) : Program (List Path) := do
  let w ← look
  pure ((control.below w.files directory).filter wanted)

def checkFreshness (control : Control) (paths : List Path) : Program Unit :=
  each paths fun path => Prog.discard (fresh L control path)

def scriptStage (control : Control) : Program (List Path) := do
  produceBelow control .script ["research"]
  provide control .script
  produce control .script ["script", "script.json"]
  checkFreshness L control [control.scriptFile]
  produce control .script ["qa", "script.json"]
  produce control .script ["qa", "editorial_reports.json"]
  let biblical := if control.plan.biblical then [["qa", "biblical-accuracy.json"]] else []
  each biblical (produce control .script)
  let research ← list control ["research"] fun path => endsWith path.name ".json"
  pure ([control.scriptFile, control.file ["qa", "script.json"], control.file ["qa", "editorial_reports.json"]] ++
    research ++ biblical.map control.file)

def audioStage (control : Control) : Program (List Path) := do
  provide control .audioStoryboard
  let files := [["audio", "narration.wav"], ["audio", "timeline.json"], ["storyboard", "scenes.json"]]
  each files (produce control .audioStoryboard)
  checkFreshness L control [control.narrationFile]
  pure (files.map control.file)

def postAudioContractsStage (control : Control) : Program (List Path) := do
  let files := [["characters", "character-bible.json"], ["storyboard", "connected.json"],
    ["qa", "storyboard.json"], ["audio", "transcript-bound.txt"], ["qa", "audio.json"]]
  each files (produce control .postAudioContracts)
  pure (files.map control.file)

def imagesStage (control : Control) : Program (List Path) := do
  provide control .images
  produceBelow control .images ["compiled"]
  let files := [["animation", "hero-manifest.json"], ["costs.json"]]
  each files (produce control .images)
  let compiled ← list control ["compiled"] fun path =>
    endsWith path.name ".json" || endsWith path.name ".png"
  pure (compiled ++ files.map control.file)

/-- `execute_heroes`, as far as the hero manifest and the clips of the provider are concerned. -/
def heroesStage (control : Control) : Program (List Path) := do
  let w ← look
  let missing := (w.files.read? control.heroFile).isNone
  each (if missing then [["animation", "hero-manifest.json"]] else []) (produce control .heroes)
  let manifests ← ask .heroManifests
  each (if control.plan.heroes then manifests else []) (write control.heroFile)
  each (if control.plan.heroes then [StageName.heroes] else []) (provide control)
  finish .heroes
  pure [control.heroFile]

def motionPlanStage (control : Control) : Program (List Path) := do
  produce control .motionPlan ["animation", "motion-plan.json"]
  pure [control.file ["animation", "motion-plan.json"]]

def encodeOnce (control : Control) (encodeStarted : Bool) : Program Unit :=
  if encodeStarted then do
    let durable ← ask .durable
    require (durable = true) (.value "ambiguous encode; reject or explicitly reconcile")
  else do
    produce control .encode ["renders", "final.mp4"]
    checkFreshness L control [control.finalVideo]
    produce control .encode ["qa", "encode.json"]

def renderStage (control : Control) (encodeStarted : Bool) : Program (List Path) := do
  encodeOnce L control encodeStarted
  pure [control.finalVideo, control.file ["qa", "encode.json"]]

def sidecarsStage (control : Control) : Program (List Path) := do
  let subtitles := [["subtitles", "transcript.txt"], ["subtitles", "captions.srt"], ["subtitles", "captions.vtt"]]
  each subtitles (produce control .sidecars)
  produce control .sidecars ["thumbnails", "thumbnail.png"]
  checkFreshness L control (control.thumbnailFile :: subtitles.map control.file ++ [control.thumbnailFile])
  produce control .sidecars ["metadata", "youtube.json"]
  let subtitles ← list control ["subtitles"] fun _ => true
  let metadata ← list control ["metadata"] fun _ => true
  let thumbnails ← list control ["thumbnails"] fun _ => true
  pure (subtitles ++ metadata ++ thumbnails)

def finalStage (control : Control) : Program (List Path) := do
  produce control .finalQa ["qa", "final.json"]
  finish .finalQa
  pure [control.file ["qa", "final.json"]]

end Program

open Program

def hashAll (files : Files) : List Path → Result (List Bound)
  | [] => .ok []
  | path :: rest => do
    let sha ← fileSha L files path
    let others ← hashAll files rest
    pure ((path, sha) :: others)

def stage (control : Control) (name : StageName) (recoverable : Bool) (operation : Program (List Path)) :
    Program Control :=
  match (control.stage? name).filter StageReceipt.complete with
  | some _ => pure control
  | none => do
    require ((control.stage? name).isNone = true ∨ recoverable = true)
      (.value ("ambiguous " ++ name.text ++ "; explicit reconciliation or rejection required"))
    save (control.withStage name { complete := false })
    let paths ← operation
    let control ← load L
    let w ← look
    let outputs ← ofResult (hashAll L w.files paths)
    let control := control.withStage name { complete := true, outputs := outputs }
    save control
    pure control

def asDelivered : Document → Result Delivered
  | .delivered value => .ok value
  | _ => .error (.value "invalid Telegram delivery")

def validateDelivery (value : Delivered) (intent : DeliveryIntent) : Result Unit :=
  Python.require (value.toDeliveryIntent = intent ∧ 0 < value.messageId) (.value "invalid Telegram delivery")

def StageReceipt.delivery (receipt : StageReceipt) : Result Delivered :=
  match receipt.result with
  | .delivered value => .ok value
  | _ => .error (.key "result")

def thumbnailApproved (control : Control) : Kind → Result Unit
  | .video => do
    let thumbnail ← control.artifact .thumbnail
    Python.require (∃ approval ∈ control.approvals.thumbnail,
        approval.sha256 = thumbnail.sha256 ∧ approval.planHash = control.planHash)
      (.value "exact thumbnail approval required before video delivery")
  | _ => .ok ()

def deliveryIntent (control : Control) (kind : Kind) (artifact : Identity) : DeliveryIntent :=
  ⟨kind, artifact.sha256, control.plan.mode, control.plan.chatId, control.planHash⟩

namespace Program

def earlierDelivery (files : Files) (control : Control) (intent : DeliveryIntent) (previous : StageReceipt) :
    Program Delivered := do
  require (previous.intent = some intent) (.value "Telegram intent mismatch")
  if previous.complete then ofResult previous.delivery
  else match files.read? (control.telegramFile intent.kind) with
    | some document => ofResult (asDelivered document)
    | none => .raise (.value ("ambiguous " ++ (StageName.telegram intent.kind).text ++
        "; reconciliation or rejection required"))

def sendDelivery (files : Files) (control : Control) (intent : DeliveryIntent) (artifact : Identity) :
    Program Delivered := do
  require ((files.read? (control.telegramFile intent.kind)).isNone = true) (.value "unbound Telegram receipt")
  let answer ← ask .dependencies
  ofResult answer
  save (control.withStage (.telegram intent.kind) { complete := false, intent := some intent })
  let answer ← send control.plan.revision intent.kind artifact.path
  let messageId ← ofResult answer
  let value : Delivered := { toDeliveryIntent := intent, messageId := messageId }
  ofResult (validateDelivery value intent)
  write (control.telegramFile intent.kind) (.delivered value)
  pure value

end Program

def deliver (control : Control) (kind : Kind) : Program Status := do
  let artifact ← ofResult (control.artifact kind)
  let w ← look
  let sha ← ofResult (fileSha L w.files artifact.path)
  require (sha = artifact.sha256) (.value "frozen delivery hash mismatch")
  ofResult (thumbnailApproved control kind)
  let intent := deliveryIntent control kind artifact
  let value ← match control.stage? (.telegram kind) with
    | some previous => earlierDelivery w.files control intent previous
    | none => sendDelivery w.files control intent artifact
  ofResult (validateDelivery value intent)
  let control ← load L
  let w ← look
  let outputs ← ofResult (hashAll L w.files [control.telegramFile kind])
  let control := control.withStage (.telegram kind)
    { complete := true, result := .delivered value, outputs := outputs, intent := some intent }
  save { control with status := kind.gate }
  status L

def Path.bindingFile : Path → Path
  | .revision number parts =>
    .revision number (parts.dropLast ++ [.ofList
      ((((parts.getLastD "").toList.reverse.dropWhile (· ≠ '.')).drop 1).reverse) ++ ".binding.json"])
  | .other name => .other (.ofList (((name.toList.reverse.dropWhile (· ≠ '.')).drop 1).reverse) ++ ".binding.json")

def readManifest (files : Files) (path : Path) : Result Manifest :=
  match files.read? path with
  | some (.manifest manifest) => do
    Python.require (manifest.assets ≠ []) (.value "manifest mode/reviewer/assets required")
    Python.require (intact L files (manifest.assets ++ [manifest.sheet])) (.value "approved asset hash mismatch")
    Python.require (files.read? manifest.sheet.1.bindingFile =
        some (.binding ⟨manifest.assets.map Prod.snd, manifest.sheet.2⟩))
      (.value "contact sheet hash binding mismatch")
    pure manifest
  | some _ => .error (.key "manifest")
  | none => .error (.os ("No such file: " ++ path.text))

def activate (control : Control) : Program Unit := do
  let answer ← ask .references
  let assets ← ofResult answer
  checkFreshness L control (assets.map .other)
  produce control .images ["state.json"]
  let w ← look
  let narration ← ofResult (fileSha L w.files control.narrationFile)
  let storyboard ← ofResult (readDocument w.files control.connectedFile (.os "connected.json"))
  let compiled ← ofResult (L.compile narration storyboard)
  write control.compiledFile compiled

def finishMedia (control : Control) : Program Status := do
  let control ← stage L control .heroes true (heroesStage control)
  let control ← stage L control .motionPlan true (motionPlanStage control)
  let encodeStarted := (control.stage? .encode).isSome
  let control ← stage L control .encode true (renderStage L control encodeStarted)
  let control ← stage L control .sidecars true (sidecarsStage L control)
  let control ← stage L control .finalQa true (finalStage control)
  let thumbnail ← fresh L control control.thumbnailFile
  let video ← fresh L control control.finalVideo
  let control : Control :=
    { control with artifacts := (control.artifacts.set .thumbnail thumbnail).set .video video }
  save control
  deliver L control .thumbnail

def produceMedia (control : Control) : Program Status := do
  let answer ← ask .dependencies
  ofResult answer
  let recoverable : Bool := control.plan.mode = .test
  let control ← stage L control .script recoverable (scriptStage L control)
  let control ← stage L control .audioStoryboard recoverable (audioStage L control)
  let control ← stage L control .postAudioContracts true (postAudioContractsStage control)
  activate L control
  let control ← stage L control .images true (imagesStage control)
  let w ← look
  let manifest ← ofResult (readManifest L w.files control.manifestFile)
  checkFreshness L control (manifest.assets.map Prod.fst)
  let freeze ← fresh L control manifest.sheet.1
  if control.approvals.visualFreeze.map Approval.sha256 = some freeze.sha256 then finishMedia L control
  else do
    let control : Control := { control with artifacts := control.artifacts.set .visualFreeze freeze }
    save control
    deliver L control .visualFreeze

def run : Program Status := do
  let control ← load L
  require (∃ approval ∈ control.planApproval, approval.planHash = control.planHash ∧ approval.reviewer ≠ "")
    (.value "persisted plan approval required; silence never approves")
  if control.status.waits then status L
  else if control.status = .readyVideoDelivery then deliver L control .video
  else produceMedia L control

inductive Call where
  | createPlan (request : PlanRequest)
  | approvePlan (planHash reviewer : String)
  | run
  | approve (kind : Kind) (artifactHash reviewer : String)
  | authorizePublication (command reviewer : String)
  | publish (command : String)
  | reject (reason reviewer : String) (directives : List String)

def Call.program : Call → Program Status
  | createPlan request => Harness.createPlan L request
  | approvePlan planHash reviewer => Harness.approvePlan L planHash reviewer
  | run => Harness.run L
  | approve kind artifactHash reviewer => Harness.approve L kind artifactHash reviewer
  | authorizePublication command reviewer => Harness.authorizePublication L command reviewer
  | publish command => Harness.publish L command
  | reject reason reviewer directives => Harness.reject L reason reviewer directives

end Calls

end VideoPoster.Harness
