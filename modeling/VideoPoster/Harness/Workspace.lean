import VideoPoster.Billing.Guard
import VideoPoster.Interleaving.Interruption
import VideoPoster.Tables.Table

/-!
# `RevisionHarness`: the workspace
-/

namespace VideoPoster.Harness
open Python Billing Interleaving Tables Prod

abbrev Hash := String

inductive Kind where
  | visualFreeze | thumbnail | video
  deriving DecidableEq

def Kind.text : Kind → String
  | visualFreeze => "visual-freeze"
  | thumbnail => "thumbnail"
  | video => "video"

inductive Status where
  | waitingPlanApproval | ready | waitingVisualFreezeApproval | readyRender | waitingThumbnailApproval
  | readyVideoDelivery | waitingVideoApproval | waitingPublicationAuthorization | readyForPublication
  | published
  deriving DecidableEq

def Status.waits : Status → Bool
  | waitingPlanApproval | waitingVisualFreezeApproval | waitingThumbnailApproval | waitingVideoApproval
  | waitingPublicationAuthorization => true
  | _ => false

/-! ## Files -/

inductive Path where
  | revision (number : ℕ) (parts : List String)
  | other (name : String)
  deriving DecidableEq

def Path.text : Path → String
  | revision number parts =>
    let digits := toString number
    "/".intercalate (("r" ++ "".pushn '0' (3 - digits.length) ++ digits) :: parts)
  | other name => name

def Path.name : Path → String
  | revision _ parts => parts.getLastD ""
  | other name => name

def suffix (name : String) : String :=
  let back := name.toList.reverse
  let ending := back.takeWhile (· ≠ '.')
  let stem := back.drop (ending.length + 1)
  if ending = [] ∨ stem = [] then "" else casefold (.ofList ('.' :: ending.reverse))

abbrev Bound := Path × Hash

structure ApprovalReceipt where
  artifactKind : Kind
  artifactPath : Path
  artifactSha256 : Hash
  approver : String
  approvedAt : String
  deriving DecidableEq

structure FreezeReceipt where
  artifactPath : Path
  artifactSha256 : Hash
  approver : String
  planHash : Hash
  deriving DecidableEq

structure AuthorizationReceipt where
  command : String
  videoSha256 : Hash
  thumbnailSha256 : Hash
  metadataSha256 : Hash
  authorizedAt : String
  reviewer : String
  planHash : Hash
  uploadPerformed : Bool
  deriving DecidableEq

inductive ArtifactName where
  | video | thumbnail | metadata | captionsSrt | captionsVtt | transcript
  deriving DecidableEq

/-- The publication package without its hash; schema and route are constant. -/
structure PackageBody where
  planHash : Hash
  revision : ℕ
  mode : Mode
  artifacts : List (ArtifactName × Bound)
  approvalReceipts : List (Kind × Bound)
  publicationAuthorized : Bool
  uploadPerformed : Bool
  publicationReceipt : Option Path := none
  deriving DecidableEq

structure Package extends PackageBody where
  packageHash : Hash
  deriving DecidableEq

inductive IntentStatus where
  | pending | ambiguous | failed | remoteAccepted
  deriving DecidableEq

structure PublicationIntent where
  command : String
  packageHash : Hash
  videoSha256 : Hash
  thumbnailSha256 : Hash
  metadataSha256 : Hash
  status : IntentStatus
  error : Option String := none
  videoId : Option String := none
  videoUrl : Option String := none
  deriving DecidableEq

/-- The receipt has the fields of the intent and the video; its status is `PUBLISHED`. -/
structure PublicationReceipt where
  command : String
  packageHash : Hash
  videoSha256 : Hash
  thumbnailSha256 : Hash
  metadataSha256 : Hash
  videoId : String
  videoUrl : String
  readback : String
  deriving DecidableEq

structure DeliveryIntent where
  kind : Kind
  sha256 : Hash
  mode : Mode
  chatId : String
  planHash : Hash
  deriving DecidableEq

structure Delivered extends DeliveryIntent where
  messageId : ℤ
  deriving DecidableEq

structure Manifest where
  assets : List Bound
  sheet : Bound
  deriving DecidableEq

structure SheetBinding where
  assets : List Hash
  sheet : Hash
  deriving DecidableEq

/-- What a file holds; `bytes` is anything that no function below reads field by field. -/
inductive Document where
  | bytes (data : String)
  | approval (receipt : ApprovalReceipt)
  | visualFreeze (receipt : FreezeReceipt)
  | authorization (receipt : AuthorizationReceipt)
  | package (package : Package)
  | intent (intent : PublicationIntent)
  | published (receipt : PublicationReceipt)
  | delivered (value : Delivered)
  | manifest (manifest : Manifest)
  | binding (binding : SheetBinding)
  deriving DecidableEq

abbrev Files := Table (fst : Path × Document → Path)

namespace Files

def read? (files : Files) (path : Path) : Option Document := (files.find? path).map snd

def write (files : Files) (path : Path) (document : Document) : Files := files.put (path, document)

def below (files : Files) (number : ℕ) (directory : List String) : List Path :=
  (files.rows.map fst).filter fun path =>
    match path with
    | .revision n parts => n = number && directory.isPrefixOf parts
    | .other _ => false

@[simp]
theorem read?_write_self (files : Files) (path : Path) (document : Document) :
    (files.write path document).read? path = some document := by
  simp only [read?, write, Table.find?_put, if_true, Option.map_some]

end Files

/-! ## The control document -/

structure Traits where
  sha256 : Hash
  perceptual : Option (BitVec 64) := none
  videoPerceptual : Option (List (BitVec 64)) := none

structure Identity extends Traits where
  path : Path

structure Predecessor extends Traits where
  kind : Option String := none

structure SuccessorBrief where
  revision : ℤ
  predecessorIdentities : List (Option String × Hash)
  reason : String
  reviewer : String
  directives : List String
  publicationAuthorized : Bool

structure Plan where
  revision : ℕ
  mode : Mode
  request : String
  predecessors : List Predecessor
  bindings : List (String × Hash)
  chatId : String
  /-- `module:factory` of a deployment. -/
  adapter : Option String
  heroes : Bool
  successorBrief : Option SuccessorBrief
  supersedes : Option Hash

structure Approval where
  reviewer : String
  sha256 : Hash
  planHash : Hash

structure PlanApproval where
  planHash : Hash
  reviewer : String

structure PerKind (α : Type) where
  visualFreeze : Option α := none
  thumbnail : Option α := none
  video : Option α := none

namespace PerKind
variable {α : Type}

def get (entries : PerKind α) : Kind → Option α
  | .visualFreeze => entries.visualFreeze
  | .thumbnail => entries.thumbnail
  | .video => entries.video

def set (entries : PerKind α) (kind : Kind) (value : α) : PerKind α :=
  match kind with
  | .visualFreeze => { entries with visualFreeze := some value }
  | .thumbnail => { entries with thumbnail := some value }
  | .video => { entries with video := some value }

@[simp]
theorem get_set (entries : PerKind α) (kind other : Kind) (value : α) :
    (entries.set kind value).get other = if other = kind then some value else entries.get other := by
  cases kind <;> cases other <;> rfl

@[simp]
theorem get_empty (kind : Kind) : ({} : PerKind α).get kind = none := by cases kind <;> rfl

end PerKind

inductive StageName where
  | script | audioStoryboard | postAudioContracts | images | heroes | motionPlan | encode | sidecars | finalQa
  | telegram (kind : Kind)
  | publicationPackage
  deriving DecidableEq

def StageName.text : StageName → String
  | script => "script"
  | audioStoryboard => "audio_storyboard"
  | postAudioContracts => "post_audio_contracts"
  | images => "images"
  | heroes => "heroes"
  | motionPlan => "motion_plan"
  | encode => "encode"
  | sidecars => "sidecars"
  | finalQa => "final_qa"
  | telegram .visualFreeze => "telegram_visual_freeze"
  | telegram .thumbnail => "telegram_thumbnail"
  | telegram .video => "telegram_video"
  | publicationPackage => "publication_package"

inductive StageResult where
  | other
  | delivered (value : Delivered)
  | package (path : Path) (packageHash : Hash)
  deriving DecidableEq

structure StageReceipt where
  complete : Bool
  result : StageResult := .other
  outputs : List Bound := []
  intent : Option DeliveryIntent := none
  deriving DecidableEq

abbrev Stages := Table (fst : StageName × StageReceipt → StageName)

structure Current where
  plan : Plan
  planHash : Hash
  status : Status
  stages : Stages
  approvals : PerKind Approval
  artifacts : PerKind Identity
  planApproval : Option PlanApproval
  publicationAuthorized : Bool
  publicationReceipt : Option Path

structure Superseded where
  last : Current
  reason : String
  reviewer : String
  directives : List String

structure Control extends Current where
  history : List Superseded

namespace Control

def stage? (control : Control) (name : StageName) : Option StageReceipt :=
  (control.stages.find? name).map snd

def withStage (control : Control) (name : StageName) (receipt : StageReceipt) : Control :=
  { control with stages := control.stages.put (name, receipt) }

@[simp]
theorem stage?_withStage (control : Control) (name other : StageName) (receipt : StageReceipt) :
    (control.withStage name receipt).stage? other = if other = name then some receipt else control.stage? other := by
  simp only [stage?, withStage, Table.find?_put]
  split_ifs <;> rfl

def waiting (plan : Plan) (planHash : Hash) (history : List Superseded) : Control where
  plan := plan
  planHash := planHash
  status := .waitingPlanApproval
  stages := .empty
  approvals := {}
  artifacts := {}
  planApproval := none
  publicationAuthorized := false
  publicationReceipt := none
  history := history

def file (control : Control) (parts : List String) : Path := .revision control.plan.revision ("EP8" :: parts)

end Control

/-! ## The world -/

structure Sent where
  revision : ℕ
  kind : Kind
  sha256 : Option Hash

structure World where
  control : Option Control
  files : Files
  sent : List Sent
  uploads : ℕ
  writes : List (Path × Document)

def World.write (w : World) (path : Path) (document : Document) : World :=
  { w with files := w.files.write path document, writes := (path, document) :: w.writes }

def World.save (w : World) (control : Control) : World := { w with control := some control }

def hash64 (text : String) : Bool :=
  text.length = 64 && text.toList.all fun c => c.isDigit || ('a' ≤ c && c ≤ 'f')

structure Libraries where
  sha256 : Document → Hash
  sha256_hex : ∀ document, hash64 (sha256 document) = true
  planDigest : Plan → Hash
  packageDigest : PackageBody → Hash
  /-- `fingerprint` of a still. -/
  fingerprint : Document → Result (BitVec 64)
  /-- The samples of a video. -/
  samples : Document → Result (List (BitVec 64))
  /-- `compiled_episode.json` for a narration with this hash and a storyboard. -/
  compile : Hash → Document → Result Document
  implementation : Mode → List String

/-! ## Actions -/

structure PlanRequest where
  mode : Mode
  request : String
  predecessors : Option String
  imageWorkers : ℤ
  qaWorkers : ℤ
  ffmpegThreads : ℤ
  chatId : String
  heroes : Bool

structure Prepared where
  adapter : Option String
  fixtures : List (String × Document)
  bindings : List (String × Hash)
  assets : List String

structure Uploaded where
  success : Bool
  videoId : Option String
  videoUrl : Option String
  error : String

structure Readback where
  videoId : Option String
  text : String

inductive Query where
  | now
  | predecessors (name : String)
  /-- `successor-brief.json` next to a predecessor list, if there is one. -/
  | brief (name : String)
  | prepare (request : PlanRequest)
  | dependencies
  /-- The assets of the references that the plan names. -/
  | references
  | made (stage : StageName) (parts : List String)
  | names (stage : StageName) (directory : List String)
  /-- Files of the providers that a stage calls. -/
  | provided (stage : StageName)
  | finished (stage : StageName)
  /-- What hero clips make of the hero manifest. -/
  | heroManifests
  /-- `encode.json` binds the encode on disk. -/
  | durable
  | publicationProvider
  | readback (videoId : String)

abbrev Query.Res : Query → Type
  | .now => String
  | .predecessors _ => Result (List Predecessor)
  | .brief _ => Result (Option SuccessorBrief)
  | .prepare _ => Result Prepared
  | .dependencies => Result Unit
  | .references => Result (List String)
  | .made _ _ => Result Document
  | .names _ _ => List (List String)
  | .provided _ => List (List String × Document)
  | .finished _ => Result Unit
  | .heroManifests => List Document
  | .durable => Bool
  | .publicationProvider => Result Unit
  | .readback _ => Result Readback

inductive Act where
  | look
  | ask (query : Query)
  | save (control : Control)
  | write (path : Path) (document : Document)
  | send (revision : ℕ) (kind : Kind) (path : Path)
  | upload

abbrev Act.Res : Act → Type
  | .look => World
  | .ask query => query.Res
  | .save _ => Unit
  | .write _ _ => Unit
  | .send _ _ _ => Result ℤ
  | .upload => Result Uploaded

abbrev actions : Interface := ⟨Act, Act.Res⟩

structure Oracle where
  answer : (query : Query) → query.Res
  /-- The id of the message, or why the messenger failed. -/
  sent : Kind → Result ℤ
  uploaded : Result Uploaded

section
variable (L : Libraries)

def exec (oracle : Oracle) (_ : ℕ) (w : World) : (action : Act) → Option (World × action.Res)
  | .look => some (w, w)
  | .ask query => some (w, oracle.answer query)
  | .save control => some (w.save control, ())
  | .write path document => some (w.write path document, ())
  | .send revision kind path =>
    some ({ w with sent := ⟨revision, kind, (w.files.read? path).map L.sha256⟩ :: w.sent }, oracle.sent kind)
  | .upload => some ({ w with uploads := w.uploads + 1 }, oracle.uploaded)

abbrev machine : Machine actions where
  World := World
  Oracle := Oracle
  exec := exec L
  crash := fun _ => id

end

abbrev Program (α : Type) := Prog actions Error α

namespace Program

def require (condition : Prop) [Decidable condition] (error : Error) : Program Unit :=
  .ofExcept (Python.require condition error)

def ofResult {α : Type} (result : Result α) : Program α := .ofExcept result

def look : Program World := .act (I := actions) .look .pure

def ask (query : Query) : Program query.Res := .act (I := actions) (.ask query) .pure

def save (control : Control) : Program Unit := .act (I := actions) (.save control) .pure

def write (path : Path) (document : Document) : Program Unit := .act (I := actions) (.write path document) .pure

def send (revision : ℕ) (kind : Kind) (path : Path) : Program (Result ℤ) :=
  .act (I := actions) (.send revision kind path) .pure

def upload : Program (Result Uploaded) := .act (I := actions) .upload .pure

def each {α : Type} : List α → (α → Program Unit) → Program Unit
  | [], _ => pure ()
  | item :: items, body => do
    body item
    each items body

end Program

/-! ## Checks on a workspace -/

section Checks
variable (L : Libraries)

def fileSha (files : Files) (path : Path) : Result Hash :=
  match files.read? path with
  | some document => .ok (L.sha256 document)
  | none => .error (.os ("No such file: " ++ path.text))

def checkBound (files : Files) (error : Path → Error) : List Bound → Result Unit
  | [] => .ok ()
  | (path, expected) :: rest => do
    let found ← fileSha L files path
    Python.require (found = expected) (error path)
    checkBound files error rest

def stageMismatch (path : Path) : Error := .value ("completed stage hash mismatch: " ++ path.text)

def checkStages (files : Files) (control : Control) : Result Unit :=
  checkBound L files stageMismatch
    ((control.stages.rows.filter fun row => row.2.complete).flatMap fun row => row.2.outputs)

def loaded (w : World) : Result Control := do
  match w.control with
  | none => .error (.os "No such file: revision.json")
  | some control => do
    Python.require (L.planDigest control.plan = control.planHash) (.value "plan hash mismatch")
    Python.require (∀ name ∈ L.implementation control.plan.mode, name ∈ control.plan.bindings.map fst)
      (.value "implementation bindings missing; new plan required")
    checkBound L w.files (fun _ => .value "input binding changed")
      (control.plan.bindings.map fun binding => (.other binding.1, binding.2))
    checkStages L w.files control
    pure control

def stills : List String := [".png", ".jpg", ".jpeg", ".webp"]

def identity (files : Files) (path : Path) : Result Identity :=
  match files.read? path with
  | none => .error (.os ("No such file: " ++ path.text))
  | some document =>
    let plain : Identity := { path := path, sha256 := L.sha256 document }
    if suffix path.name ∈ stills then do
      let perceptual ← L.fingerprint document
      pure { plain with perceptual := some perceptual }
    else if suffix path.name = ".mp4" then do
      let samples ← L.samples document
      pure { plain with videoPerceptual := some samples }
    else .ok plain

def bitCount (value : BitVec 64) : ℕ := (List.range 64).countP value.getLsbD

def near (left right : BitVec 64) : Bool := bitCount (left ^^^ right) ≤ 4

def reusesStill (candidate old : Traits) : Bool :=
  match candidate.perceptual, old.perceptual with
  | some left, some right => near left right
  | _, _ => false

def reusesVideo (candidate old : Traits) : Bool :=
  match candidate.videoPerceptual, old.videoPerceptual with
  | some left, some right => (left.zip right).all fun pair => near pair.1 pair.2
  | _, _ => false

def checkFresh (candidate : Traits) : List Predecessor → Result Unit
  | [] => .ok ()
  | old :: rest => do
    Python.require (candidate.sha256 ≠ old.sha256) (.value "rejected artifact byte reuse")
    Python.require (reusesStill candidate old.toTraits = false) (.value "rejected artifact perceptual reuse")
    Python.require (reusesVideo candidate old.toTraits = false) (.value "rejected video perceptual reuse")
    checkFresh candidate rest

def freshIdentity (files : Files) (predecessors : List Predecessor) (path : Path) : Result Identity := do
  let candidate ← identity L files path
  checkFresh candidate.toTraits predecessors
  pure candidate

namespace Program

def load : Program Control := do
  let w ← look
  ofResult (loaded L w)

def status : Program Status := do
  let control ← load L
  pure control.status

def fresh (control : Control) (path : Path) : Program Identity := do
  let w ← look
  ofResult (freshIdentity L w.files control.plan.predecessors path)

end Program
end Checks

end VideoPoster.Harness
