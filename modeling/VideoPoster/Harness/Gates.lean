import VideoPoster.Approval.Receipts
import VideoPoster.Harness.Workspace

/-!
# `RevisionHarness`: plans, human decisions and rejections
-/

namespace VideoPoster.Harness
open Python Billing Interleaving Tables Control

def validatePredecessors : List Predecessor → Result Unit
  | [] => .ok ()
  | item :: rest => do
    require (hash64 item.sha256) (.value "predecessor SHA256 required")
    require (∀ samples ∈ item.videoPerceptual, samples.length = 3)
      (.value "invalid video perceptual fingerprint")
    validatePredecessors rest

def briefRevision (rejected : List Predecessor) : Option SuccessorBrief → Result ℕ
  | none => .ok 1
  | some brief => do
    let expected := rejected.map fun item => (item.kind, item.sha256)
    require ((∀ pair ∈ expected, pair ∈ brief.predecessorIdentities) ∧
        (∀ pair ∈ brief.predecessorIdentities, pair ∈ expected) ∧ 2 ≤ brief.revision ∧
        brief.publicationAuthorized = false)
      (.value "successor brief does not bind the rejected predecessors")
    pure brief.revision.toNat

def workerBound (count : ℤ) : Prop := 1 ≤ count ∧ count ≤ 8

instance (count : ℤ) : Decidable (workerBound count) := inferInstanceAs (Decidable (_ ∧ _))

section Calls
variable (L : Libraries)

namespace Program

def readPredecessors : Option String → Program (List Predecessor × Option SuccessorBrief)
  | none => pure ([], none)
  | some name => do
    let answer ← ask (.predecessors name)
    let rejected ← ofResult answer
    ofResult (validatePredecessors rejected)
    let found ← ask (.brief name)
    let brief ← ofResult found
    pure (rejected, brief)

end Program

open Program

def createPlan (request : PlanRequest) : Program Status := do
  let w ← look
  require (w.control.isNone = true) (.value "plan exists; reject to create a new revision")
  require (blank request.request = false) (.value "explicit mode and request required")
  require (workerBound request.imageWorkers ∧ workerBound request.qaWorkers ∧ workerBound request.ffmpegThreads)
    (.value "worker bounds must be integers from 1 to 8")
  require (request.ffmpegThreads = 1) (.value "this single-encode route requires one FFmpeg thread")
  let (rejected, brief) ← readPredecessors request.predecessors
  let revision ← ofResult (briefRevision rejected brief)
  let answer ← ask (.prepare request)
  let prepared ← ofResult answer
  each prepared.fixtures fun fixture => write (.other fixture.1) fixture.2
  let plan : Plan :=
    { revision := revision, mode := request.mode, request := request.request, predecessors := rejected
      bindings := prepared.bindings, chatId := request.chatId, adapter := prepared.adapter, heroes := request.heroes
      successorBrief := brief, supersedes := none }
  let control := waiting plan (L.planDigest plan) []
  each prepared.assets fun asset => Prog.discard (fresh L control (.other asset))
  save control
  status L

def approvePlan (planHash reviewer : String) : Program Status := do
  let control ← load L
  require (blank reviewer = false ∧ planHash = control.planHash) (.value "exact plan hash and reviewer required")
  require (control.status = .waitingPlanApproval) (.value "plan approval is out of order")
  save { control with planApproval := some ⟨planHash, reviewer⟩, status := .ready }
  status L

def Kind.gate : Kind → Status
  | visualFreeze => .waitingVisualFreezeApproval
  | thumbnail => .waitingThumbnailApproval
  | video => .waitingVideoApproval

def Kind.approved : Kind → Status
  | visualFreeze => .readyRender
  | thumbnail => .readyVideoDelivery
  | video => .waitingPublicationAuthorization

def Control.approvalFile (control : Control) (kind : Kind) : Path :=
  control.file ["approval", "approval-" ++ kind.text ++ ".json"]

def Control.artifact (control : Control) (kind : Kind) : Result Identity :=
  match control.artifacts.get kind with
  | some artifact => .ok artifact
  | none => .error (.key kind.text)

def asApproval : Document → Result ApprovalReceipt
  | .approval receipt => .ok receipt
  | _ => .error (Approval.unauthorized "approval receipt schema mismatch")

def readApproval (files : Files) (path : Path) : Result ApprovalReceipt :=
  match files.read? path with
  | some document => asApproval document
  | none => .error (.os ("No such file: " ++ path.text))

def ApprovalReceipt.verify (receipt : ApprovalReceipt) (files : Files) : Result Unit :=
  require ((files.read? receipt.artifactPath).map L.sha256 = some receipt.artifactSha256)
    (Approval.unauthorized ("Approved " ++ receipt.artifactKind.text ++ " bytes no longer match receipt"))

namespace Program

def makeReceipt (kind : Kind) (path : Path) (approver : String) : Program ApprovalReceipt := do
  let w ← look
  require (kind ≠ .visualFreeze ∧ (w.files.read? path).isSome = true ∧ blank approver = false)
    (.value "A real video/thumbnail file and approver are required")
  let sha ← ofResult (fileSha L w.files path)
  let now ← ask .now
  pure ⟨kind, path, sha, approver, now⟩

def saveApprovalReceipt (path : Path) (receipt : ApprovalReceipt) : Program Unit := do
  let w ← look
  ofResult (receipt.verify L w.files)
  match w.files.read? path with
  | some document => do
    let found ← ofResult (asApproval document)
    require (found = receipt) (Approval.unauthorized "approval receipt path is immutable")
  | none => do
    write path (.approval receipt)
    let w ← look
    let found ← ofResult (readApproval w.files path)
    require (found = receipt) (Approval.unauthorized "persisted approval receipt readback mismatch")

def recordApproval (control : Control) (kind : Kind) (artifact : Identity) (reviewer : String) : Program Unit :=
  match kind with
  | .visualFreeze =>
    write (control.approvalFile .visualFreeze)
      (.visualFreeze ⟨artifact.path, artifact.sha256, reviewer, control.planHash⟩)
  | kind => do
    let receipt ← makeReceipt L kind artifact.path reviewer
    require (receipt.artifactSha256 = artifact.sha256)
      (.value "approval receipt differs from frozen artifact")
    saveApprovalReceipt L (control.approvalFile kind) receipt

end Program

namespace Control
variable (control : Control)

def packageFile : Path := control.file ["publication-package.json"]
def metadataFile : Path := control.file ["metadata", "youtube.json"]
def authorizationFile : Path := control.file ["approval", "publication-authorization.json"]
def intentFile : Path := control.file ["approval", "publication-intent.json"]
def receiptFile : Path := control.file ["approval", "publication-receipt.json"]

def namedPaths (video thumbnail : Path) : List (ArtifactName × Path) :=
  [(.video, video), (.thumbnail, thumbnail), (.metadata, control.metadataFile),
    (.captionsSrt, control.file ["subtitles", "captions.srt"]),
    (.captionsVtt, control.file ["subtitles", "captions.vtt"]),
    (.transcript, control.file ["subtitles", "transcript.txt"])]

end Control

def kinds : List Kind := [.visualFreeze, .thumbnail, .video]

def bindAll {α : Type} (files : Files) (missing : Error) : List (α × Path) → Result (List (α × Bound))
  | [] => .ok []
  | (name, path) :: rest => do
    require ((files.read? path).isSome = true) missing
    let sha ← fileSha L files path
    let others ← bindAll files missing rest
    pure ((name, path, sha) :: others)

def freezePackage (control : Control) (files : Files) : Result Package := do
  let video ← control.artifact .video
  let thumbnail ← control.artifact .thumbnail
  let approvals ← bindAll L files (.value "all approval receipts required for publication package")
    (kinds.map fun kind => (kind, control.approvalFile kind))
  let artifacts ← bindAll L files (.value "all delivery artifacts required for publication package")
    (control.namedPaths video.path thumbnail.path)
  let body : PackageBody :=
    { planHash := control.planHash, revision := control.plan.revision, mode := control.plan.mode
      artifacts := artifacts, approvalReceipts := approvals, publicationAuthorized := false
      uploadPerformed := false }
  pure { toPackageBody := body, packageHash := L.packageDigest body }

def packageStage (control : Control) (package : Package) (sha : Hash) : StageReceipt where
  complete := true
  result := .package control.packageFile package.packageHash
  outputs := (control.packageFile, sha) :: (package.artifacts.map Prod.snd ++ package.approvalReceipts.map Prod.snd)

namespace Program

def freezePublicationPackage (control : Control) : Program Control := do
  let w ← look
  let package ← ofResult (freezePackage L control w.files)
  require (∀ found ∈ w.files.read? control.packageFile, found = .package package)
    (.value "publication package is immutable")
  write control.packageFile (.package package)
  let w ← look
  require (w.files.read? control.packageFile = some (.package package))
    (.value "publication package readback mismatch")
  let sha ← ofResult (fileSha L w.files control.packageFile)
  let receipt := packageStage control package sha
  require (∀ previous ∈ control.stage? .publicationPackage, previous = receipt)
    (.value "publication package stage is immutable")
  pure (control.withStage .publicationPackage receipt)

def afterApproval (control : Control) : Kind → Program Control
  | .video => freezePublicationPackage L control
  | _ => pure control

end Program

def approve (kind : Kind) (artifactHash reviewer : String) : Program Status := do
  let control ← load L
  require (control.status = kind.gate) (.value "separate approval gate is out of order")
  let artifact ← ofResult (control.artifact kind)
  let exact := Error.value "exact artifact hash and reviewer required"
  require (blank reviewer = false ∧ artifactHash = artifact.sha256) exact
  let w ← look
  let sha ← ofResult (fileSha L w.files artifact.path)
  require (sha = artifactHash) exact
  let control : Control :=
    { control with approvals := control.approvals.set kind ⟨reviewer, artifactHash, control.planHash⟩ }
  recordApproval L control kind artifact reviewer
  let control ← afterApproval L { control with status := kind.approved } kind
  save control
  status L

def authorizeCommand : String := "AUTORIZAR PUBLICAÇÃO EP8"

def mediaApproved (control : Control) (files : Files) (kind : Kind) : Result Unit := do
  let artifact ← control.artifact kind
  let error := Error.value "all independent media approvals must remain valid"
  match control.approvals.get kind with
  | none => .error error
  | some approval => do
    require (approval.sha256 = artifact.sha256 ∧ approval.planHash = control.planHash) error
    let sha ← fileSha L files artifact.path
    require (sha = artifact.sha256) error

def allMediaApproved (control : Control) (files : Files) : List Kind → Result Unit
  | [] => .ok ()
  | kind :: rest => do
    mediaApproved L control files kind
    allMediaApproved control files rest

def authorizable (files : Files) (command : String) (video thumbnail : ApprovalReceipt) (metadataSha256 : Hash) :
    Result Unit := do
  require (command = authorizeCommand ∧ blank command = false)
    (Approval.unauthorized "A separate exact publication command is required")
  require (video.artifactKind = .video ∧ thumbnail.artifactKind = .thumbnail)
    (Approval.unauthorized "Independent video and thumbnail approvals are required")
  require (hash64 (casefold metadataSha256)) (Approval.unauthorized "Metadata hash is required")
  video.verify L files
  thumbnail.verify L files

def authorizePublication (command reviewer : String) : Program Status := do
  let control ← load L
  require (control.status = .waitingPublicationAuthorization ∧ blank reviewer = false)
    (.value "publication authorization is out of order")
  require (command = authorizeCommand) (.value "exact separate publication command required")
  let w ← look
  ofResult (allMediaApproved L control w.files kinds)
  let thumbnail ← ofResult (readApproval w.files (control.approvalFile .thumbnail))
  let video ← ofResult (readApproval w.files (control.approvalFile .video))
  let metadataSha256 ← ofResult (fileSha L w.files control.metadataFile)
  ofResult (authorizable L w.files command video thumbnail metadataSha256)
  let now ← ask .now
  let receipt : AuthorizationReceipt :=
    { command := command, videoSha256 := video.artifactSha256, thumbnailSha256 := thumbnail.artifactSha256
      metadataSha256 := metadataSha256, authorizedAt := now, reviewer := reviewer, planHash := control.planHash
      uploadPerformed := false }
  require (∀ found ∈ w.files.read? control.authorizationFile, found = .authorization receipt)
    (.value "publication authorization receipt is immutable")
  write control.authorizationFile (.authorization receipt)
  let w ← look
  require (w.files.read? control.authorizationFile = some (.authorization receipt))
    (.value "publication authorization readback mismatch")
  save { control with publicationAuthorized := true, status := .readyForPublication }
  status L

def collected (path : Path) : Bool :=
  suffix path.name ∈ [".png", ".jpg", ".wav", ".mp3", ".mp4"] || path.name = "script.json"

def caught : List ErrorKind := [.osError, .valueError, .runtimeError, .other "SubprocessError"]

def retire (files : Files) (path : Path) : Result Predecessor :=
  match identity L files path with
  | .ok found => .ok { toTraits := found.toTraits }
  | .error error =>
    if error.kind ∈ caught then do
      let sha ← fileSha L files path
      pure { sha256 := sha }
    else .error error

def retireAll (files : Files) : List Path → Result (List Predecessor)
  | [] => .ok []
  | path :: rest => do
    let first ← retire L files path
    let others ← retireAll files rest
    pure (first :: others)

def rejectedFiles (files : Files) (revision : ℕ) : List Path := (files.below revision []).filter collected

def successorOf (control : Control) (rejected : List Predecessor) (reason reviewer : String)
    (directives : List String) : Plan :=
  let identities : List (Option String × Hash) :=
    match control.artifacts.video, control.artifacts.thumbnail with
    | some video, some thumbnail => [(some "video", video.sha256), (some "thumbnail", thumbnail.sha256)]
    | _, _ => []
  { control.plan with
    revision := control.plan.revision + 1
    predecessors := rejected
    supersedes := some control.planHash
    successorBrief := some
      { revision := control.plan.revision + 1, predecessorIdentities := identities, reason := reason
        reviewer := reviewer, directives := directives, publicationAuthorized := false } }

def reject (reason reviewer : String) (directives : List String) : Program Status := do
  let control ← load L
  require (blank reason = false) (.value "rejection reason required")
  let given := (if directives = [] then [reason] else directives).map strip
  let feedback := given.filter fun item => blank item = false
  require (blank reviewer = false ∧ feedback ≠ []) (.value "complete rejection feedback required")
  let w ← look
  let retired ← ofResult (retireAll L w.files (rejectedFiles w.files control.plan.revision))
  let plan := successorOf control (control.plan.predecessors ++ retired) reason reviewer feedback
  save (waiting plan (L.planDigest plan)
    (control.history ++ [⟨control.toCurrent, reason, reviewer, feedback⟩]))
  status L

end Calls

end VideoPoster.Harness
