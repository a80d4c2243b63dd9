import VideoPoster.Executor.Run

/-!
# `compiled`: the release policy of a production run
-/

namespace VideoPoster.Production
open Python Billing Tables Executor Function

structure FrameSpec where
  sceneId : String
  start : ℚ
  stop : ℚ
  prompt : String
  semanticAction : String
  hero : Bool := false

structure CompiledEpisode where
  episodeId : String
  mode : Mode
  frames : List FrameSpec
  checksum : String
  distinct : (frames.map FrameSpec.sceneId).Nodup

structure MotionItem where
  sceneId : String
  motionRequirement : String
  endpoint : String
  routeId : Json
  model : Json
  geometry : Json
  clipFps : Json
  durationS : Json
  audioPolicy : Json
  routeEvidenceHash : Json
  evidenceMode : Json

structure MotionInventory where
  status : String
  items : List MotionItem

structure Plan where
  episode : CompiledEpisode
  sourceManifest : Manifest
  endpoint : String
  imageCost : Decimal
  blockedScenes : List String := []
  motionInventory : Option MotionInventory := none

namespace Plan
variable (P : Plan)

def wirePayload : Dict :=
  if P.endpoint = "fal-ai/flux-2/klein/9b/edit" then
    [("image_urls", .arr (P.sourceManifest.assets.map fun asset => .str asset.path)),
      ("image_size", .obj [("width", .num 1280), ("height", .num 720)]), ("num_images", .num 1),
      ("output_format", .str "png"), ("enable_safety_checker", .bool true)]
  else []

def jobFor (frame : FrameSpec) (category : Category) (cost : Decimal) (predecessor : String := "")
    (prompt : String := "") : Job where
  scene := frame.sceneId
  category := category
  mode := P.episode.mode
  endpoint := P.endpoint
  payload :=
    [("episode", .str P.episode.episodeId), ("compilation", .str P.episode.checksum),
      ("prompt", .str (if prompt = "" then frame.prompt else prompt)),
      ("semantic_action", .str frame.semanticAction), ("start", .num frame.start),
      ("end", .num frame.stop)] ++ P.wirePayload
  manifest := some P.sourceManifest
  cost := cost
  predecessor := predecessor

def frame? (sceneId : String) : Option FrameSpec :=
  P.episode.frames.find? fun frame => frame.sceneId = sceneId

def baseline (sceneId : String) : Option Job :=
  if sceneId ∈ P.blockedScenes then none
  else (P.frame? sceneId).map fun frame => P.jobFor frame .first P.imageCost

def requireExecutableMotionInventory : Result Unit :=
  require (∀ inventory ∈ P.motionInventory, inventory.status = "PASS")
    (.value "quality-first motion inventory is REQUIRED; dispatch blocked")

/-- `selected_motion.get(scene_id)`; of two items for one scene, the later one stays. -/
def selectedMotion (sceneId : String) : Option MotionItem :=
  P.motionInventory.bind fun inventory =>
    inventory.items.reverse.find? fun item => item.sceneId = sceneId

def articulated (sceneId : String) : Option MotionItem :=
  (P.selectedMotion sceneId).filter fun item => item.motionRequirement = "ARTICULATED"

end Plan

structure ProductionRun where
  plan : Plan
  activeImages : String → Option Job
  corrections : String → Option Job
  heroes : String → Option Job

def Plan.start (P : Plan) : ProductionRun where
  plan := P
  activeImages := P.baseline
  corrections _ := none
  heroes _ := none

def remediationConstraint : String → Option String
  | "CAST" => some
      "Correct the cast while preserving the approved identity, garments, semantic action, source references, and timing."
  | "GARMENT" => some
      "Correct the garments while preserving the approved cast, identity, semantic action, source references, and timing."
  | "ACTION" => some
      "Correct the declared semantic action while preserving the approved cast, identity, garments, source references, and timing."
  | "IDENTITY" => some
      "Correct the character identity while preserving the approved cast, garments, semantic action, source references, and timing."
  | "SOURCE" => some
      "Correct the source-bound visual detail while preserving the approved cast, identity, garments, semantic action, and timing."
  | "TIMING" => some
      "Correct the visual timing while preserving the approved cast, identity, garments, semantic action, and source references."
  | _ => none

structure Remediation where
  code : String
  constraint : String

def Remediation.json (remediation : Remediation) : Json :=
  .obj [("code", .str remediation.code), ("constraint", .str remediation.constraint)]

def semanticRemediation (finding : Dict) : Result Remediation :=
  match finding with
  | [("code", value)] =>
    match value with
    | .str code =>
      match remediationConstraint code with
      | some constraint => .ok ⟨code, constraint⟩
      | none => .error (.value "closed semantic finding code is invalid")
    | _ => .error (.value "closed semantic finding code is invalid")
  | _ => .error (.value "closed semantic finding requires exactly one code")

def Plan.correction (P : Plan) (frame : FrameSpec) (predecessor : String)
    (remediation : Remediation) : Job :=
  let job := P.jobFor frame .correction P.imageCost predecessor
    (frame.prompt ++ "\n\nCorrection requirement: " ++ remediation.constraint)
  { job with payload := job.payload ++ [("semantic_remediation", remediation.json)] }

variable (D : Deployment)

def remediationJob (jobs : Jobs) (R : ProductionRun) (sceneId : String) (finding : Dict) :
    ProductionRun × Result Job :=
  match R.plan.requireExecutableMotionInventory with
  | .error error => (R, .error error)
  | .ok _ =>
    match semanticRemediation finding with
    | .error error => (R, .error error)
    | .ok remediation =>
      match R.corrections sceneId with
      | some existing =>
        if existing.payload.get "semantic_remediation" = some remediation.json then (R, .ok existing)
        else (R, .error (.value "correction successor is immutable"))
      | none =>
        match R.activeImages sceneId with
        | none => (R, .error (.value "remediation requires rejected hash-bound baseline QA"))
        | some baseline =>
          if (jobs.find? (D.requestId baseline)).bind Row.qa = some false then
            match R.plan.frame? sceneId with
            | none => (R, .error ⟨.other "StopIteration", ""⟩)
            | some frame =>
              let correction := R.plan.correction frame (D.requestId baseline) remediation
              ({ R with
                  corrections := update R.corrections sceneId (some correction)
                  activeImages := update R.activeImages sceneId (some correction) },
                .ok correction)
          else (R, .error (.value "remediation requires rejected hash-bound baseline QA"))

def heroPayload (P : Plan) (frame : FrameSpec) : Option MotionItem → Dict
  | none =>
    [("episode", .str P.episode.episodeId), ("compilation", .str P.episode.checksum),
      ("prompt", .str frame.prompt), ("semantic_action", .str frame.semanticAction)]
  | some selected =>
    [("episode", .str P.episode.episodeId), ("compilation", .str P.episode.checksum),
      ("prompt", .str frame.prompt), ("semantic_action", .str frame.semanticAction),
      ("quality_first_motion", .obj [("route_id", selected.routeId), ("endpoint", .str selected.endpoint),
          ("model", selected.model), ("geometry", selected.geometry),
          ("clip_fps", selected.clipFps), ("duration_s", selected.durationS),
          ("audio_policy", selected.audioPolicy),
          ("route_evidence_hash", selected.routeEvidenceHash),
          ("evidence_mode", selected.evidenceMode)])]

def heroJob (P : Plan) (frame : FrameSpec) (image : Job) (cost : Decimal) (endpoint : String) : Job where
  scene := frame.sceneId
  category := .hero
  mode := P.episode.mode
  endpoint := ((P.articulated frame.sceneId).map MotionItem.endpoint).getD endpoint
  payload := heroPayload P frame (P.articulated frame.sceneId)
  manifest := some P.sourceManifest
  cost := cost
  predecessor := D.requestId image

def releaseHeroes (jobs : Jobs) (cost : Decimal) (endpoint : String) :
    List FrameSpec → ProductionRun → ProductionRun × Result (List Job)
  | [], R => (R, .ok [])
  | frame :: rest, R =>
    let selected := R.plan.articulated frame.sceneId
    if (frame.hero = false ∧ selected = none) ∨ R.heroes frame.sceneId ≠ none then
      releaseHeroes jobs cost endpoint rest R
    else if ∃ item ∈ selected, endpoint ≠ item.endpoint then
      (R, .error (.value "selected I2V endpoint cannot be overridden"))
    else
      match R.activeImages frame.sceneId with
      | none => (R, .error (.key frame.sceneId))
      | some image =>
        if (jobs.find? (D.requestId image)).bind Row.qa = some true then
          let hero := heroJob D R.plan frame image cost endpoint
          let released := { R with heroes := update R.heroes frame.sceneId (some hero) }
          let (after, result) := releaseHeroes jobs cost endpoint rest released
          (after, result.map fun eligible =>
            if jobs.find? (D.requestId hero) = none then hero :: eligible else eligible)
        else releaseHeroes jobs cost endpoint rest R

/-- `cost <= 0`; a comparison with NaN raises `InvalidOperation`. -/
def positiveCost : Decimal → Result Bool
  | .nan => .error ⟨.other "InvalidOperation", "comparison involving NaN"⟩
  | .infinite negative => .ok (!negative)
  | cost => .ok (0 < cost.toRat)

def eligibleHeroJobs (jobs : Jobs) (R : ProductionRun) (cost : Decimal) (endpoint : String) :
    ProductionRun × Result (List Job) :=
  match positiveCost cost with
  | .error error => (R, .error error)
  | .ok positive =>
    if positive = false ∨ blank endpoint = true then
      (R, .error (.value "explicit hero endpoint and positive cost required"))
    else
      match R.plan.requireExecutableMotionInventory with
      | .error error => (R, .error error)
      | .ok _ => releaseHeroes D jobs cost endpoint R.plan.episode.frames R

end VideoPoster.Production
