import VideoPoster.Interleaving.Execution
import VideoPoster.Approval.Receipts
import VideoPoster.State.Machine

/-!
# `controller`: publishing an episode

Any number of calls of `publish` work on one state file and one publication receipt.
-/

namespace VideoPoster.Publishing
open Python Approval Interleaving State Dict

inductive Node where
  | file (contents : Result Json)
  | other

structure World where
  state : Option Node
  receipt : Option Node

def Node.read : Option Node → Result Json
  | some (.file contents) => contents
  | some .other => .error (.os "Is a directory")
  | none => .error (.os "No such file or directory")

def load (file : Option Node) (now : String) : Result EpisodeStateStore := do
  match ← Node.read file with
  | .obj data => EpisodeStateStore.fromDict data now
  | _ => .error (.type "state file")

structure PublishResult where
  success : Bool
  videoId : String
  videoUrl : String

structure PublicationAuthorization where
  command : String
  videoSha256 : String
  thumbnailSha256 : String
  metadataSha256 : String
  authorizedAt : String

def PublicationAuthorization.asdict (authorization : PublicationAuthorization) : Json :=
  .obj [("command", .str authorization.command), ("video_sha256", .str authorization.videoSha256),
    ("thumbnail_sha256", .str authorization.thumbnailSha256),
    ("metadata_sha256", .str authorization.metadataSha256),
    ("authorized_at", .str authorization.authorizedAt)]

inductive Act where
  | load
  | save (store : EpisodeStateStore)
  | receiptIsFile
  | receiptExists
  | readReceipt
  | writeReceipt (receipt : Json)
  | clock
  | look (path : String)
  | sha256 (path : String)
  | isFile (path : String)
  | readMetadata (path : String)
  | resolve (path : String)
  | upload (video : String) (metadata : Json) (thumbnail captions : String)
  | readback (videoId : String)

abbrev Act.Res : Act → Type
  | .load => Result EpisodeStateStore
  | .save _ => Result Unit
  | .receiptIsFile => Bool
  | .receiptExists => Bool
  | .readReceipt => Result Json
  | .writeReceipt _ => Result Unit
  | .clock => String
  | .look _ => Look
  | .sha256 _ => Result String
  | .isFile _ => Bool
  | .readMetadata _ => Result Json
  | .resolve _ => String
  | .upload _ _ _ _ => Result PublishResult
  | .readback _ => Result Json

abbrev actions : Interface := ⟨Act, Act.Res⟩

structure Oracle where
  now : String
  look : Look
  digest : Result String
  isFile : Bool
  metadata : Result Json
  resolved : String
  failure : Option Error
  uploaded : Result PublishResult
  readback : Result Json

def exec (oracle : Oracle) (_ : ℕ) (w : World) : (action : Act) → Option (World × action.Res)
  | .load => some (w, load w.state oracle.now)
  | .save store =>
    some (written oracle.failure w { w with state := some (.file (.ok (.obj store.toDict))) })
  | .receiptIsFile =>
    some (w, match w.receipt with
      | some (.file _) => true
      | _ => false)
  | .receiptExists => some (w, w.receipt.isSome)
  | .readReceipt => some (w, Node.read w.receipt)
  | .writeReceipt receipt =>
    some (written oracle.failure w { w with receipt := some (.file (.ok receipt)) })
  | .clock => some (w, oracle.now)
  | .look _ => some (w, oracle.look)
  | .sha256 _ => some (w, oracle.digest)
  | .isFile _ => some (w, oracle.isFile)
  | .readMetadata _ => some (w, oracle.metadata)
  | .resolve _ => some (w, oracle.resolved)
  | .upload _ _ _ _ => some (w, oracle.uploaded)
  | .readback _ => some (w, oracle.readback)

abbrev machine : Machine actions where
  World := World
  Oracle := Oracle
  exec := exec
  crash := fun _ => id

abbrev Program (α : Type) := Prog actions Error α

def controllerError (message : String) : Error := ⟨.other "PublicationControllerError", message⟩

def entries : Json → Option Dict
  | .obj dict => some dict
  | _ => none

def nonEmptyText : Option Json → Option String
  | some (.str text) => if text ≠ "" then some text else none
  | _ => none

def hexDigest (text : String) : Bool :=
  decide (text.length = 64) &&
    text.toList.all fun c => c.toLower ∈ ['0', '1', '2', '3', '4', '5', '6', '7', '8', '9', 'a', 'b',
      'c', 'd', 'e', 'f']

namespace Program

def require (condition : Prop) [Decidable condition] (error : Error) : Program Unit :=
  .ofExcept (Python.require condition error)

def clock : Program String := .act .clock .pure

def verify (approval : ApprovalReceipt) : Program Unit :=
  Prog.request (.look approval.artifactPath) approval.verify

def sha256 (path : String) : Program String := Prog.request (.sha256 path) id

def requirePublicationAuthorization (command expectedCommand : String)
    (video thumbnail : ApprovalReceipt) (metadataSha256 : String) :
    Program PublicationAuthorization := do
  require (command = expectedCommand ∧ blank command = false)
    (unauthorized "A separate exact publication command is required")
  require (video.artifactKind = "video" ∧ thumbnail.artifactKind = "thumbnail")
    (unauthorized "Independent video and thumbnail approvals are required")
  require (hexDigest metadataSha256) (unauthorized "Metadata hash is required")
  verify video
  verify thumbnail
  let now ← clock
  pure ⟨command, video.artifactSha256, thumbnail.artifactSha256, metadataSha256, now⟩

/-- `state.transition_to(…)` and `state.save(…)`; the clock is read twice. -/
def transition (state : EpisodeStateStore) (toState : EpisodeState) (note : String) :
    Program EpisodeStateStore := do
  let timestamp ← clock
  let updatedAt ← clock
  let next ← Prog.ofExcept
    (state.transitionTo ⟨toState, "PublicationController", note, timestamp, updatedAt⟩)
  Prog.request (.save next) id
  pure next

def readback (supported : Bool) (videoId : String) : Program Json := do
  require supported (controllerError "publisher readback is required before publication")
  Prog.request (.readback videoId) id

end Program

structure Call where
  expectedCommand : String
  command : String
  video : ApprovalReceipt
  thumbnail : ApprovalReceipt
  metadataPath : String
  captionsPath : Option String
  hasReadback : Bool

namespace Call
open Program
variable (call : Call)

def boundVideo (receipt : Json) : Program String := do
  let refused := controllerError "publication recovery receipt does not bind current approved media"
  match entries receipt with
  | none => .raise refused
  | some receipt => do
    require (get receipt "video_path" = some (.str call.video.artifactPath) ∧
      get receipt "thumbnail_path" = some (.str call.thumbnail.artifactPath)) refused
    let metadataSha256 ← sha256 call.metadataPath
    require (get receipt "metadata_sha256" = some (.str metadataSha256)) refused
    match nonEmptyText (get receipt "video_id") with
    | none => .raise refused
    | some videoId => pure videoId

def recover (state : EpisodeStateStore) : Program Json := do
  let receipt ← Prog.request .readReceipt
    (rewrap [.osError, .other "JSONDecodeError"] fun _ =>
      controllerError "publication recovery receipt is unreadable")
  verify call.video
  verify call.thumbnail
  let videoId ← call.boundVideo receipt
  let remote ← readback call.hasReadback videoId
  require (remote.equals (((entries receipt).bind (get · "readback")).getD .null))
    (controllerError "publication recovery readback mismatch")
  let _ ← transition state .published "remote readback recovered"
  pure receipt

def captions : Program String :=
  match call.captionsPath with
  | none => pure ""
  | some path => do
    let there : Bool ← .act (.isFile path) .pure
    require there (controllerError "caption upload artifact is missing")
    .act (.resolve path) .pure

/-- Everything that is checked before the state is changed: the metadata, its hash and the
authorization. -/
def authorize (state : EpisodeStateStore) :
    Program (Json × String × PublicationAuthorization) := do
  require (state.currentState = .waitingFinalApproval)
    (controllerError "publication requires WAITING_FINAL_APPROVAL")
  let there : Bool ← .act (.isFile call.metadataPath) .pure
  require there (controllerError "metadata file is required")
  let metadata ← Prog.request (.readMetadata call.metadataPath)
    (rewrap [.other "JSONDecodeError"] fun _ => controllerError "metadata must be valid JSON")
  require ((entries metadata).isSome = true) (controllerError "metadata must be a JSON object")
  let recorded : Bool ← .act .receiptExists .pure
  require (recorded = false)
    (controllerError "publication receipt already exists; read recovery instead")
  let metadataSha256 ← sha256 call.metadataPath
  let authorized ← (requirePublicationAuthorization call.command call.expectedCommand call.video
    call.thumbnail metadataSha256).attempt
  let authorization ← Prog.ofExcept
    (rewrap [.other "PublicationAuthorizationError"] (controllerError ·.message) authorized)
  pure (metadata, metadataSha256, authorization)

def upload (state : EpisodeStateStore) (metadata : Json) (metadataSha256 captions : String)
    (authorization : PublicationAuthorization) : Program Json := do
  let result ← Prog.request
    (.upload call.video.artifactPath metadata call.thumbnail.artifactPath captions) id
  require (result.success = true ∧ result.videoId ≠ "" ∧ result.videoUrl ≠ "")
    (controllerError "publisher did not return a durable video identifier and URL")
  let remote ← readback call.hasReadback result.videoId
  require ((entries remote).bind (get · "video_id") = some (.str result.videoId))
    (controllerError "publisher readback does not bind the uploaded video")
  let metadataPath : String ← .act (.resolve call.metadataPath) .pure
  let receipt := Json.obj
    [("authorization", authorization.asdict), ("video_path", .str call.video.artifactPath),
      ("thumbnail_path", .str call.thumbnail.artifactPath), ("metadata_path", .str metadataPath),
      ("metadata_sha256", .str metadataSha256), ("video_id", .str result.videoId),
      ("video_url", .str result.videoUrl), ("readback", remote)]
  Prog.request (.writeReceipt receipt) id
  let persisted ← Prog.request .readReceipt id
  require (persisted.equals receipt) (controllerError "publication receipt readback mismatch")
  let _ ← transition state .published "remote readback verified"
  pure receipt

def recorded (state : EpisodeStateStore) : Program Bool :=
  if state.currentState = .uploading then .act .receiptIsFile .pure
  else pure false

def publish : Program Json := do
  let state ← Prog.request .load id
  let recorded ← recorded state
  if recorded then call.recover state
  else do
    let (metadata, metadataSha256, authorization) ← call.authorize state
    let captions ← call.captions
    let state ← transition state .uploading "authorized upload"
    call.upload state metadata metadataSha256 captions authorization

end Call

def publications : Set (Program Unit) := Set.range fun call : Call => call.publish.discard

end VideoPoster.Publishing
