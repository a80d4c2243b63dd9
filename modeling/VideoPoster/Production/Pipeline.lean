import VideoPoster.Production.Compiled

/-!
# `compiled`: the operational pipeline
-/

namespace VideoPoster.Production
open Python Billing Tables Executor Function

structure QaReport where
  requestId : String
  resultSha256 : String
  compilation : String
  approved : Bool
  reviewer : String
  deriving DecidableEq

structure ClipPacket where
  technicalPass : Bool
  resultSha256 : String
  predecessor : String
  duration : Option ℚ

structure ImagePacket where
  technicalPass : Bool
  resultSha256 : String

structure Media where
  files : Files
  image : String → Bool
  clip : String → String → MotionItem → String → ClipPacket
  copied : String → String → String → Result String
  contactSheet : List FrozenAsset → Result FrozenAsset
  checksum : Manifest → String
  /-- `abs(duration - duration_s) <= 1 / clip_fps + 0.02`, in floats. -/
  lasts : ℚ → MotionItem → Bool
  /-- `end - start`, in floats. -/
  seconds : FrameSpec → ℚ

structure Pipeline where
  run : ProductionRun
  imported : String → Option FrozenAsset
  approvedHeroes : String → Option FrozenAsset
  qa : String → Option QaReport
  clipPackets : String → Option ClipPacket

variable (D : Deployment) (media : Media) (jobs : Jobs)

def approvedRow (row : Row) : Bool :=
  row.review.any fun review => review.approved && review.reviewerIdentity.subject ≠ "generator"

def approvedJob (job : Job) : Bool := (jobs.find? (D.requestId job)).any approvedRow

namespace Plan
variable (P : Plan)

def wantsHero (frame : FrameSpec) : Bool := frame.hero || (P.articulated frame.sceneId).isSome

def motionPasses : Bool := P.motionInventory.all fun inventory => inventory.status = "PASS"

end Plan

def ProductionRun.renderReady (R : ProductionRun) : Bool :=
  R.plan.episode.mode ≠ .live && R.plan.motionPasses &&
    (R.plan.episode.frames.all fun frame => (R.activeImages frame.sceneId).all (approvedJob D jobs)) &&
    (R.plan.episode.frames.all fun frame => !R.plan.wantsHero frame || (R.heroes frame.sceneId).isSome) &&
    R.plan.episode.frames.all fun frame => (R.heroes frame.sceneId).all (approvedJob D jobs)

namespace Pipeline
variable (P : Pipeline)

def items : List MotionItem := (P.run.plan.motionInventory.map MotionInventory.items).getD []

def clipPasses (item : MotionItem) : Bool :=
  (P.run.heroes item.sceneId).any fun job =>
    (jobs.find? (D.requestId job)).any fun row =>
      (P.clipPackets (D.requestId job)).any fun packet =>
        packet.technicalPass && row.resultSha256 = some packet.resultSha256 &&
          packet.predecessor = job.predecessor && packet.duration.any fun duration => media.lasts duration item

def renderReady : Bool :=
  P.run.renderReady D jobs &&
    P.items.all fun item => item.motionRequirement ≠ "ARTICULATED" || P.clipPasses D media jobs item

def completedJobForResult (sceneId sha256 : String) : Result Job :=
  let matching := fun job : Job => (jobs.find? (D.requestId job)).any fun row => row.resultSha256 = some sha256
  match (P.run.activeImages sceneId).filter matching, (P.run.heroes sceneId).filter matching with
  | some job, _ => .ok job
  | none, some job => .ok job
  | none, none => .error (.value "result hash is not an eligible compiled receipt")

def promoteCandidate (sceneId sha256 reviewer : String) : Result FrozenAsset := do
  let job ← P.completedJobForResult D jobs sceneId sha256
  match (jobs.find? (D.requestId job)).bind Row.result with
  | none => .error (.key "result")
  | some source => do
    let found ← media.files source
    require (found = sha256) (.value "candidate bytes changed after receipt")
    let path ← media.copied sceneId sha256 source
    require (blank reviewer = false) (.value "explicit reviewer and mode required")
    pure ⟨path, sha256, reviewer, P.run.plan.episode.mode⟩

def prepareQaPacket (sceneId : String) : Result (Option ImagePacket) :=
  match (P.run.activeImages sceneId).bind fun job => jobs.find? (D.requestId job) with
  | none => .ok none
  | some row =>
    if row.status = .complete then
      match row.result with
      | none => .error (.key "result")
      | some source =>
        match media.files source with
        | .error _ => .error (.value "candidate bytes changed after receipt")
        | .ok found => do
          require (row.resultSha256 = some found) (.value "candidate bytes changed after receipt")
          pure (some ⟨media.image source, found⟩)
    else .ok none

structure VisualQa where
  sceneId : String
  resultSha256 : String
  approved : Bool
  reviewer : String
  failureCode : Option String := none
  /-- Not given, or a dict; `executor.qa` accepts no dict but two texts. -/
  reviewerIdentity : Option (Option ReviewerIdentity)

def VisualQa.identity (call : VisualQa) (mode : Mode) : Option (Option ReviewerIdentity) :=
  if call.reviewerIdentity = none ∧ mode = .test ∧
      (call.reviewer = "TEST independent visual fixture" ∨ call.reviewer = "mock rejection" ∧ call.approved = false) then
    some (some ⟨call.reviewer, "TEST"⟩)
  else call.reviewerIdentity

def reviewCandidate (call : VisualQa) : Result Jobs := do
  require (P.run.plan.episode.mode ≠ .live)
    (.value "LIVE visual QA requires trusted reviewer evidence; self-asserted identity is non-promotable")
  let job ← P.completedJobForResult D jobs call.sceneId call.resultSha256
  match call.identity P.run.plan.episode.mode with
  | some none => .error (.value "QA reviewer identity must bind an independent subject and issuer")
  | identity =>
    qaRow media.files none
      { requestId := D.requestId job
        resultSha256 := call.resultSha256
        approved := call.approved
        reviewer := call.reviewer
        failureCode := call.failureCode
        reviewerIdentity := identity.join } jobs

def technicalQa (call : VisualQa) (job : Job) : Result (Option ClipPacket) :=
  if job.category = .hero ∨ job.category = .heroRetry then
    match P.items.find? fun item => item.sceneId = call.sceneId with
    | some item =>
      if item.motionRequirement = "ARTICULATED" then
        match (jobs.find? (D.requestId job)).bind Row.result with
        | none => .error (.key "result")
        | some source => .ok (some (media.clip source call.resultSha256 item job.predecessor))
      else .ok none
    | none => .ok none
  else do
    let packet ← P.prepareQaPacket D media jobs call.sceneId
    require (packet.any fun packet => packet.resultSha256 = call.resultSha256 ∧ packet.technicalPass)
      (.value "technical QA must pass before semantic reviewer")
    pure none

def VisualQa.checkFailureCode (call : VisualQa) : Result Unit := do
  require (call.approved = false ∨ call.failureCode = none)
    (.value "approved visual QA cannot carry a failure code")
  match call.failureCode with
  | some code => (semanticRemediation [("code", .str code)]).map fun _ => ()
  | none => pure ()

def admitVisualQa (call : VisualQa) : Result (Job × Option ClipPacket) := do
  call.checkFailureCode
  let job ← P.completedJobForResult D jobs call.sceneId call.resultSha256
  let packet ← P.technicalQa D media jobs call job
  pure (job, packet)

def writePacket (job : Job) : Option ClipPacket → Pipeline
  | some packet => { P with clipPackets := update P.clipPackets (D.requestId job) (some packet) }
  | none => P

def writeReport (job : Job) (call : VisualQa) : Pipeline :=
  { P with
    qa := update P.qa (D.requestId job)
      (some ⟨D.requestId job, call.resultSha256, P.run.plan.episode.checksum, call.approved, call.reviewer⟩) }

def promote (job : Job) (call : VisualQa) : Pipeline × Result (Option FrozenAsset) :=
  if call.approved then
    match P.promoteCandidate D media jobs call.sceneId call.resultSha256 call.reviewer with
    | .error error => (P, .error error)
    | .ok asset =>
      if job.category = .hero then
        ({ P with approvedHeroes := update P.approvedHeroes call.sceneId (some asset) }, .ok (some asset))
      else (P, .ok (some asset))
  else (P, .ok none)

def recordVisualQa (call : VisualQa) : Pipeline × Jobs × Result (Option FrozenAsset) :=
  match P.admitVisualQa D media jobs call with
  | .error error => (P, jobs, .error error)
  | .ok (job, packet) =>
    let checked := P.writePacket D job packet
    if packet.any fun packet => !packet.technicalPass then
      (checked, jobs, .error (.value "clip technical QA must pass before semantic reviewer"))
    else
      match checked.reviewCandidate D media jobs call with
      | .error error => (checked, jobs, .error error)
      | .ok jobs =>
        let (P, answer) := (checked.writeReport D job call).promote D media jobs job call
        (P, jobs, answer)

def approvedImage (frame : FrameSpec) : Result FrozenAsset :=
  match P.imported frame.sceneId with
  | some asset => .ok asset
  | none =>
    match P.run.activeImages frame.sceneId with
    | none => .error (.key frame.sceneId)
    | some job =>
      match jobs.find? (D.requestId job) with
      | none => .error (.value "all active images require approved QA")
      | some row => do
        require (row.qa = some true) (.value "all active images require approved QA")
        match P.qa (D.requestId job), row.resultSha256 with
        | none, _ => .error (.value "approved QA report missing")
        | some _, none => .error (.key "result_sha256")
        | some report, some sha256 => do
          require (report.requestId = D.requestId job ∧ report.resultSha256 = sha256 ∧
              report.compilation = P.run.plan.episode.checksum ∧ report.approved)
            (.value "approved QA report does not bind active receipt")
          P.promoteCandidate D media jobs frame.sceneId sha256 report.reviewer

def approvedManifest : Result Manifest := do
  let assets ← P.run.plan.episode.frames.mapM (P.approvedImage D media jobs)
  let sheet ← media.contactSheet assets
  pure ⟨assets, sheet, "compiled-qa", P.run.plan.episode.mode⟩

structure Scene where
  image : FrozenAsset
  seconds : ℚ
  clip : Option FrozenAsset

def Scene.make (image : FrozenAsset) (seconds : ℚ) (clip : Option FrozenAsset) : Result Scene := do
  require (1 / 4 < seconds) (.value "scene duration must exceed transition")
  require (clip = none ∨ seconds = 5) (.value "hero slot must be exactly five seconds")
  pure ⟨image, seconds, clip⟩

def expectedMotion (item : MotionItem) : Json :=
  .obj [("route_id", item.routeId), ("endpoint", .str item.endpoint), ("model", item.model),
    ("geometry", item.geometry), ("clip_fps", item.clipFps), ("duration_s", item.durationS),
    ("audio_policy", item.audioPolicy), ("route_evidence_hash", item.routeEvidenceHash),
    ("evidence_mode", .str "TEST")]

def sceneOf (frame : FrameSpec) (image : FrozenAsset) : Result Scene := do
  let selected := P.items.find? fun item => item.sceneId = frame.sceneId
  let articulated := selected.filter fun item => item.motionRequirement = "ARTICULATED"
  require (¬((frame.hero ∨ articulated.isSome) ∧ P.approvedHeroes frame.sceneId = none))
    (.value "approved hero asset missing from operational pipeline")
  require (∀ item ∈ articulated, (P.run.heroes frame.sceneId).any fun job =>
      job.endpoint = item.endpoint ∧ job.payload.get "quality_first_motion" = some (expectedMotion item))
    (.value "approved articulated clip does not match selected I2V route")
  Scene.make image (media.seconds frame) (P.approvedHeroes frame.sceneId)

def renderScenes (manifest : Manifest) : Result (List Scene) := do
  require P.run.plan.motionPasses
    (.value "quality-first motion inventory is REQUIRED; render scenes blocked")
  require (P.renderReady D media jobs) (.value "compiled QA receipts are incomplete; render scenes blocked")
  let approved ← P.approvedManifest D media jobs
  require (media.checksum manifest = media.checksum approved)
    (.value "render manifest is not the compiled approved manifest")
  require (manifest.assets.length = P.run.plan.episode.frames.length)
    (.value "manifest does not cover every compiled frame")
  (P.run.plan.episode.frames.zip manifest.assets).mapM fun pair => P.sceneOf media pair.1 pair.2

end Pipeline

end VideoPoster.Production
