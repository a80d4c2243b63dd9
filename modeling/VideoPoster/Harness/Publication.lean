import VideoPoster.Harness.Gates

/-!
# `RevisionHarness.publish`
-/

namespace VideoPoster.Harness
open Python Billing Interleaving Tables

def publishCommand : String := "PUBLICAR EP8"

def requiredArtifacts : List ArtifactName :=
  [.video, .thumbnail, .metadata, .captionsSrt, .captionsVtt, .transcript]

def Package.approvalOf (package : Package) (kind : Kind) : Option Bound :=
  package.approvalReceipts.reverse.lookup kind

def Package.artifactOf (package : Package) (name : ArtifactName) : Option Bound := package.artifacts.lookup name

section Checks
variable (L : Libraries)

def asPackage : Document → Result Package
  | .package package => .ok package
  | _ => .error (.value "publication package hash mismatch")

def asAuthorization : Document → Result AuthorizationReceipt
  | .authorization receipt => .ok receipt
  | _ => .error (.value "publication authorization receipt does not bind package")

def readDocument (files : Files) (path : Path) (missing : Error) : Result Document :=
  match files.read? path with
  | some document => .ok document
  | none => .error missing

def intact (files : Files) (entries : List Bound) : Prop :=
  ∀ entry ∈ entries, (files.read? entry.1).map L.sha256 = some entry.2

instance (files : Files) (entries : List Bound) : Decidable (intact L files entries) :=
  inferInstanceAs (Decidable (∀ entry ∈ entries, _))

def entry {α : Type} (found : Option α) (error : Error) : Result α :=
  match found with
  | some value => .ok value
  | none => .error error

structure PublicationInputs where
  package : Package
  video : ApprovalReceipt
  thumbnail : ApprovalReceipt
  metadataSha256 : Hash

def publicationInputs (control : Control) (files : Files) : Result PublicationInputs := do
  Python.require (control.status = .readyForPublication) (.value "publication requires READY_FOR_PUBLICATION")
  let missing := Error.value "publication package and authorization receipt required"
  let packageDocument ← readDocument files control.packageFile missing
  let authorizationDocument ← readDocument files control.authorizationFile missing
  let package ← asPackage packageDocument
  let authorization ← asAuthorization authorizationDocument
  Python.require (L.packageDigest package.toPackageBody = package.packageHash)
    (.value "publication package hash mismatch")
  Python.require (package.planHash = control.planHash ∧ package.mode = control.plan.mode ∧
      package.publicationAuthorized = false ∧ package.uploadPerformed = false)
    (.value "publication package is not an authorized unuploaded package")
  Python.require (∀ name ∈ requiredArtifacts, (package.artifactOf name).isSome = true)
    (.value "publication package delivery artifacts incomplete")
  Python.require (intact L files (package.artifacts.map Prod.snd)) (.value "package artifact hash mismatch")
  let incomplete := Error.value "publication package approvals incomplete"
  let _ ← entry (package.approvalOf .visualFreeze) incomplete
  let thumbnailEntry ← entry (package.approvalOf .thumbnail) incomplete
  let videoEntry ← entry (package.approvalOf .video) incomplete
  Python.require (∀ kind ∈ kinds, ∀ found ∈ package.approvalOf kind, intact L files [found])
    (.value "publication approval receipt hash mismatch")
  let video ← readApproval files videoEntry.1
  let thumbnail ← readApproval files thumbnailEntry.1
  let metadata ← entry (package.artifactOf .metadata) (.key "metadata")
  authorizable L files authorization.command video thumbnail metadata.2
  Python.require (authorization.videoSha256 = video.artifactSha256 ∧
      authorization.thumbnailSha256 = thumbnail.artifactSha256 ∧ authorization.metadataSha256 = metadata.2 ∧
      authorization.planHash = control.planHash ∧ authorization.uploadPerformed = false)
    (.value "publication authorization receipt does not bind package")
  pure ⟨package, video, thumbnail, metadata.2⟩

end Checks

section Calls
variable (L : Libraries)
open Program

structure Published where
  videoId : String
  videoUrl : String
  readback : String

def controllerError (message : String) : Error := ⟨.other "PublicationControllerError", message⟩

def intentOf (command : String) (inputs : PublicationInputs) : PublicationIntent where
  command := command
  packageHash := inputs.package.packageHash
  videoSha256 := inputs.video.artifactSha256
  thumbnailSha256 := inputs.thumbnail.artifactSha256
  metadataSha256 := inputs.metadataSha256
  status := .pending

namespace Program

def requireReadback (videoId : String) : Program Readback := do
  let answer ← ask (.readback videoId)
  let readback ← ofResult answer
  require (readback.videoId = some videoId)
    (controllerError "publisher readback does not bind the uploaded video")
  pure readback

def unresolved : Error := .value "publication requires readback/recovery; never resubmit"

def recoverUpload (intent : PublicationIntent) : Document → Program Published
  | .intent existing => do
    require (existing.packageHash = intent.packageHash) (.value "publication intent does not bind package")
    match existing.videoId.filter fun videoId => videoId ≠ "" with
    | none => .raise unresolved
    | some videoId => do
      let readback ← requireReadback videoId
      pure ⟨videoId, existing.videoUrl.getD "", readback.text⟩
  | _ => .raise (.value "publication intent does not bind package")

def accepted (uploaded : Uploaded) : Option (String × String) :=
  match uploaded.videoId.filter fun text => text ≠ "", uploaded.videoUrl.filter fun text => text ≠ "" with
  | some videoId, some videoUrl => if uploaded.success then some (videoId, videoUrl) else none
  | _, _ => none

def settleUpload (file : Path) (intent : PublicationIntent) : Result Uploaded → Program Published
  | .error error => do
    write file (.intent { intent with status := .ambiguous, error := some error.message })
    .raise unresolved
  | .ok uploaded =>
    match accepted uploaded with
    | none => do
      write file (.intent { intent with status := .failed, error := some uploaded.error })
      .raise (.value uploaded.error)
    | some (videoId, videoUrl) => do
      write file (.intent
        { intent with status := .remoteAccepted, videoId := some videoId, videoUrl := some videoUrl })
      let readback ← requireReadback videoId
      pure ⟨videoId, videoUrl, readback.text⟩

def firstUpload (file : Path) (intent : PublicationIntent) : Program Published := do
  write file (.intent intent)
  let answer ← upload
  settleUpload file intent answer

end Program

def receiptOf (intent : PublicationIntent) (video : Published) : PublicationReceipt where
  command := intent.command
  packageHash := intent.packageHash
  videoSha256 := intent.videoSha256
  thumbnailSha256 := intent.thumbnailSha256
  metadataSha256 := intent.metadataSha256
  videoId := video.videoId
  videoUrl := video.videoUrl
  readback := video.readback

def uploadedPackage (package : Package) (receipt : Path) : Package :=
  let body : PackageBody :=
    { package.toPackageBody with
      publicationAuthorized := true, uploadPerformed := true, publicationReceipt := some receipt }
  { toPackageBody := body, packageHash := L.packageDigest body }

def rebind (outputs : List Bound) (path : Path) (sha : Hash) : List Bound :=
  outputs.map fun output => if output.1 = path then (path, sha) else output

def publishedControl (control : Control) (sha : Hash) : Control :=
  let published : Control :=
    { control with status := .published, publicationReceipt := some control.receiptFile }
  match control.stage? .publicationPackage with
  | some receipt =>
    published.withStage .publicationPackage
      { receipt with outputs := rebind receipt.outputs control.packageFile sha }
  | none => published

def recordPublication (control : Control) (inputs : PublicationInputs) (intent : PublicationIntent)
    (video : Published) : Program Status := do
  write control.receiptFile (.published (receiptOf intent video))
  let document := Document.package (uploadedPackage L inputs.package control.receiptFile)
  write control.packageFile document
  -- `sha256(package_path)` of what was just written
  save (publishedControl control (L.sha256 document))
  pure .published

def publish (command : String) : Program Status := do
  let control ← load L
  require (command = publishCommand ∧ blank command = false)
    (controllerError "A separate exact publication command is required")
  let w ← look
  let inputs ← ofResult (publicationInputs L control w.files)
  let provider ← ask .publicationProvider
  ofResult provider
  require ((w.files.read? control.receiptFile).isSome = false)
    (.value "publication receipt exists; readback/recovery required")
  let intent := intentOf command inputs
  let video ← match w.files.read? control.intentFile with
    | some existing => recoverUpload intent existing
    | none => firstUpload control.intentFile intent
  recordPublication L control inputs intent video

end Calls

end VideoPoster.Harness
