import VideoPoster.Harness.Stages
import VideoPoster.Interleaving.Stops

/-!
# What the harness writes, and when
-/

namespace VideoPoster.Harness
open Python Billing Interleaving Tables Control

def owner : List String → Option StageName
  | "research" :: _ => some .script
  | ["script", "script.json"] => some .script
  | ["qa", "script.json"] => some .script
  | ["qa", "editorial_reports.json"] => some .script
  | ["qa", "biblical-accuracy.json"] => some .script
  | ["audio", "narration.wav"] => some .audioStoryboard
  | ["audio", "timeline.json"] => some .audioStoryboard
  | ["storyboard", "scenes.json"] => some .audioStoryboard
  | ["characters", "character-bible.json"] => some .postAudioContracts
  | ["storyboard", "connected.json"] => some .postAudioContracts
  | ["qa", "storyboard.json"] => some .postAudioContracts
  | ["audio", "transcript-bound.txt"] => some .postAudioContracts
  | ["qa", "audio.json"] => some .postAudioContracts
  | "compiled" :: _ => some .images
  | ["animation", "hero-manifest.json"] => some .images
  | ["costs.json"] => some .images
  | ["animation", "motion-plan.json"] => some .motionPlan
  | ["renders", "final.mp4"] => some .encode
  | ["qa", "encode.json"] => some .encode
  | "subtitles" :: _ => some .sidecars
  | "thumbnails" :: _ => some .sidecars
  | "metadata" :: _ => some .sidecars
  | ["qa", "final.json"] => some .finalQa
  | ["qa", "telegram-visual-freeze.json"] => some (.telegram .visualFreeze)
  | ["qa", "telegram-thumbnail.json"] => some (.telegram .thumbnail)
  | ["qa", "telegram-video.json"] => some (.telegram .video)
  | _ => none

def heroParts : List String := ["animation", "hero-manifest.json"]

def StageName.Places (stage : StageName) (parts : List String) : Prop :=
  owner parts = some stage ∨ stage = .heroes ∧ parts = heroParts

instance (stage : StageName) (parts : List String) : Decidable (stage.Places parts) :=
  inferInstanceAs (Decidable (_ ∨ _))

def productionStages : List StageName :=
  [.script, .audioStoryboard, .postAudioContracts, .images, .heroes, .motionPlan, .encode, .sidecars, .finalQa]

namespace Control

def Completed (control : Control) (name : StageName) : Prop :=
  ∃ receipt, control.stage? name = some receipt ∧ receipt.complete = true

def Running (control : Control) (name : StageName) : Prop :=
  ∃ receipt, control.stage? name = some receipt ∧ receipt.complete = false

structure Active (control : Control) : Prop where
  going : control.status.waits = false
  approved : ∃ approval ∈ control.planApproval, approval.planHash = control.planHash ∧ approval.reviewer ≠ ""

def Ready (control : Control) (artifact : Identity) : Kind → Prop
  | .visualFreeze => control.status ≠ .readyVideoDelivery ∧
      control.approvals.visualFreeze.map Approval.sha256 ≠ some artifact.sha256
  | .thumbnail => control.status ≠ .readyVideoDelivery ∧ (∀ name ∈ productionStages, control.Completed name) ∧
      control.approvals.visualFreeze.isSome = true
  | .video => control.status = .readyVideoDelivery ∧ thumbnailApproved control .video = .ok ()

end Control

section Moves
variable (L : Libraries)

inductive RunMove : World → World → Prop
  | provided {w : World} {control : Control} {parts : List String} {document : Document}
      (held : w.control = some control) :
      RunMove w (w.write (.revision control.plan.revision ("providers" :: parts)) document)
  | state {w : World} {control : Control} {document : Document} (held : w.control = some control) :
      RunMove w (w.write (control.file ["state.json"]) document)
  | compiled {w : World} {control : Control} {narration storyboard document : Document}
      (held : w.control = some control) (audio : control.Completed .audioStoryboard)
      (contracts : control.Completed .postAudioContracts)
      (heard : w.files.read? control.narrationFile = some narration)
      (told : w.files.read? control.connectedFile = some storyboard)
      (made : L.compile (L.sha256 narration) storyboard = .ok document) :
      RunMove w (w.write control.compiledFile document)
  | started {w : World} {control : Control} {name : StageName} (held : w.control = some control)
      (idle : ¬ control.Completed name) (production : name ∈ productionStages) :
      RunMove w (w.save (control.withStage name { complete := false }))
  | made {w : World} {control : Control} {name : StageName} {parts : List String} {document : Document}
      (held : w.control = some control) (running : control.Running name) (placed : name.Places parts)
      (heroes : name = .heroes → control.plan.heroes = true ∨ w.files.read? control.heroFile = none) :
      RunMove w (w.write (control.file parts) document)
  | completed {w : World} {control : Control} {name : StageName} {paths : List Path} {outputs : List Bound}
      (held : w.control = some control) (running : control.Running name) (production : name ∈ productionStages)
      (valid : loaded L w = .ok control) (hashed : hashAll L w.files paths = .ok outputs)
      (placed : ∀ path ∈ paths, ∃ parts, path = control.file parts ∧ name.Places parts) :
      RunMove w (w.save (control.withStage name { complete := true, outputs := outputs }))
  | frozenSheet {w : World} {control : Control} {path : Path} {freeze : Identity}
      (held : w.control = some control) (active : control.Active)
      (fresh : freshIdentity L w.files control.plan.predecessors path = .ok freeze)
      (ready : control.Ready freeze .visualFreeze) :
      RunMove w (w.save { control with artifacts := control.artifacts.set .visualFreeze freeze })
  | frozenMedia {w : World} {control : Control} {thumbnail video : Identity}
      (held : w.control = some control) (active : control.Active) (ready : control.Ready thumbnail .thumbnail)
      (freshThumbnail : freshIdentity L w.files control.plan.predecessors control.thumbnailFile = .ok thumbnail)
      (freshVideo : freshIdentity L w.files control.plan.predecessors control.finalVideo = .ok video) :
      RunMove w (w.save
        { control with artifacts := (control.artifacts.set .thumbnail thumbnail).set .video video })
  | intended {w : World} {control : Control} {kind : Kind} {artifact : Identity}
      (held : w.control = some control) (frozen : control.artifacts.get kind = some artifact)
      (unsent : control.stage? (.telegram kind) = none) :
      RunMove w (w.save (control.withStage (.telegram kind)
        { complete := false, intent := some (deliveryIntent control kind artifact) }))
  | sent {w : World} {control : Control} {kind : Kind} {artifact : Identity}
      (held : w.control = some control) (frozen : control.artifacts.get kind = some artifact)
      (same : (w.files.read? artifact.path).map L.sha256 = some artifact.sha256) :
      RunMove w { w with sent := ⟨control.plan.revision, kind, some artifact.sha256⟩ :: w.sent }
  | delivered {w : World} {control : Control} {kind : Kind} {value : Delivered}
      (held : w.control = some control) (running : control.Running (.telegram kind)) :
      RunMove w (w.write (control.telegramFile kind) (.delivered value))
  | gated {w : World} {control : Control} {kind : Kind} {artifact : Identity} {value : Delivered}
      {outputs : List Bound} {receipt : StageReceipt} (held : w.control = some control) (active : control.Active)
      (frozen : control.artifacts.get kind = some artifact) (ready : control.Ready artifact kind)
      (found : control.stage? (.telegram kind) = some receipt)
      (intent : receipt.intent = some (deliveryIntent control kind artifact))
      (hashed : hashAll L w.files [control.telegramFile kind] = .ok outputs) :
      RunMove w (w.save { control.withStage (.telegram kind)
        { complete := true, result := .delivered value, outputs := outputs
          intent := some (deliveryIntent control kind artifact) } with status := kind.gate })

def Control.decide (control : Control) (kind : Kind) (artifactHash reviewer : String) : Control :=
  { control with approvals := control.approvals.set kind ⟨reviewer, artifactHash, control.planHash⟩
                 status := kind.approved }

def Control.AllApproved (control : Control) : Prop :=
  ∀ kind, ∃ artifact approval, control.artifacts.get kind = some artifact ∧
    control.approvals.get kind = some approval ∧ approval.sha256 = artifact.sha256 ∧
    approval.planHash = control.planHash

inductive Move : Call → World → World → Prop
  | fixture {w : World} {request : PlanRequest} {name : String} {document : Document} (none : w.control = none) :
      Move (.createPlan request) w (w.write (.other name) document)
  | planned {w : World} {request : PlanRequest} {plan : Plan} (none : w.control = none)
      (first : plan.supersedes = .none) (counted : 0 < plan.revision) :
      Move (.createPlan request) w (w.save (waiting plan (L.planDigest plan) []))
  | planApproved {w : World} {control : Control} {reviewer : String} (held : w.control = some control)
      (gate : control.status = .waitingPlanApproval) (named : blank reviewer = false) :
      Move (.approvePlan control.planHash reviewer) w
        (w.save { control with planApproval := some ⟨control.planHash, reviewer⟩, status := .ready })
  | run {w w' : World} (move : RunMove L w w') : Move .run w w'
  | sheetReceipt {w : World} {control : Control} {sha reviewer : String} {document : Document}
      (held : w.control = some control) (gate : control.status = .waitingVisualFreezeApproval) :
      Move (.approve .visualFreeze sha reviewer) w (w.write (control.approvalFile .visualFreeze) document)
  | receipt {w : World} {control : Control} {kind : Kind} {sha reviewer : String} {document : Document}
      (held : w.control = some control) (gate : control.status = kind.gate) (timed : kind ≠ .visualFreeze)
      (absent : w.files.read? (control.approvalFile kind) = none) :
      Move (.approve kind sha reviewer) w (w.write (control.approvalFile kind) document)
  | package {w : World} {control : Control} {sha reviewer : String} {package : Package}
      (held : w.control = some control) (gate : control.status = .waitingVideoApproval)
      (same : ∀ found ∈ w.files.read? control.packageFile, found = .package package) :
      Move (.approve .video sha reviewer) w (w.write control.packageFile (.package package))
  | approved {w : World} {control : Control} {kind : Kind} {artifact : Identity} {reviewer : String}
      (held : w.control = some control) (gate : control.status = kind.gate) (plain : kind ≠ .video)
      (frozen : control.artifacts.get kind = some artifact) :
      Move (.approve kind artifact.sha256 reviewer) w
        (w.save (control.decide kind artifact.sha256 reviewer))
  | approvedVideo {w : World} {control : Control} {artifact : Identity} {reviewer : String} {files : Files}
      {package : Package} (held : w.control = some control) (gate : control.status = .waitingVideoApproval)
      (frozen : control.artifacts.get .video = some artifact)
      (bound : freezePackage L (control.decide .video artifact.sha256 reviewer) files = .ok package)
      (written : w.files = files.write control.packageFile (.package package)) :
      Move (.approve .video artifact.sha256 reviewer) w
        (w.save ((control.decide .video artifact.sha256 reviewer).withStage .publicationPackage
          (packageStage (control.decide .video artifact.sha256 reviewer) package (L.sha256 (.package package)))))
  | authorization {w : World} {control : Control} {command reviewer : String} {receipt : AuthorizationReceipt}
      (held : w.control = some control) (gate : control.status = .waitingPublicationAuthorization) :
      Move (.authorizePublication command reviewer) w
        (w.write control.authorizationFile (.authorization receipt))
  | authorized {w : World} {control : Control} {command reviewer : String} (held : w.control = some control)
      (gate : control.status = .waitingPublicationAuthorization) (approved : control.AllApproved) :
      Move (.authorizePublication command reviewer) w
        (w.save { control with publicationAuthorized := true, status := .readyForPublication })
  | intent {w : World} {control : Control} {command : String} {intent : PublicationIntent}
      (held : w.control = some control) (gate : control.status = .readyForPublication) :
      Move (.publish command) w (w.write control.intentFile (.intent intent))
  | uploaded {w : World} {control : Control} {command : String} (held : w.control = some control)
      (gate : control.status = .readyForPublication) :
      Move (.publish command) w { w with uploads := w.uploads + 1 }
  | published {w : World} {control : Control} {command : String} {receipt : PublicationReceipt}
      (held : w.control = some control) (gate : control.status = .readyForPublication) :
      Move (.publish command) w (w.write control.receiptFile (.published receipt))
  | recorded {w : World} {control : Control} {command : String} {package : Package}
      (held : w.control = some control) (gate : control.status = .readyForPublication) :
      Move (.publish command) w ((w.write control.packageFile (.package package)).save
        (publishedControl control (L.sha256 (.package package))))
  | rejected {w : World} {control : Control} {reason reviewer : String} {directives feedback : List String}
      {retired : List Predecessor} (held : w.control = some control)
      (collects : retireAll L w.files (rejectedFiles w.files control.plan.revision) = .ok retired) {plan : Plan}
      (successor : plan = successorOf control (control.plan.predecessors ++ retired) reason reviewer feedback) :
      Move (.reject reason reviewer directives) w (w.save (waiting plan (L.planDigest plan)
        (control.history ++ [⟨control.toCurrent, reason, reviewer, feedback⟩])))

abbrev Moves (call : Call) : World → World → Prop := Relation.ReflTransGen (Move L call)

def Torn (call : Call) (w w' : World) (pending : Option Act) : Prop :=
  ∃ w₁ control package, w₁.control = some control ∧ control.status = .readyForPublication ∧
    Moves L call w w₁ ∧ w' = w₁.write control.packageFile (.package package) ∧
    pending = some (.save (publishedControl control (L.sha256 (.package package))))

end Moves

end VideoPoster.Harness
