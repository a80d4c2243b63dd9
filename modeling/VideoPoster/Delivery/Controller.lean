import VideoPoster.Interleaving.Execution
import VideoPoster.Approval.Receipts

/-!
# `controller`: sending media for approval
-/

namespace VideoPoster.Delivery
open Python Approval Interleaving Function

inductive Gate where
  | thumbnail
  | video
  deriving DecidableEq

structure Slot where
  root : String
  gate : Gate
  deriving DecidableEq

/-- A parsed file. Numbers do not tell an `int` from a `float`, so that is kept beside the value. -/
structure Document where
  value : Json
  intMessageId : Bool

structure World where
  receipt : Slot → Option (Result Document)
  attempt : Slot → Option (Result Document)
  lock : Slot → Option ℕ

abbrev Reply := Result (Option ℤ)

inductive Act where
  | lock (slot : Slot)
  | unlock (slot : Slot)
  | look (path : String)
  | receiptExists (slot : Slot)
  | readReceipt (slot : Slot)
  | attemptExists (slot : Slot)
  | readAttempt (slot : Slot)
  | writeAttempt (slot : Slot) (intent : Json)
  | send (slot : Slot) (chatId path caption : String)
  | writeReceipt (slot : Slot) (receipt : Document)
  | afterPersist (slot : Slot)

abbrev Act.Res : Act → Type
  | .lock _ => Result Bool
  | .unlock _ => Bool
  | .look _ => Look
  | .receiptExists _ => Bool
  | .readReceipt _ => Result Document
  | .attemptExists _ => Bool
  | .readAttempt _ => Result Document
  | .writeAttempt _ _ => Result Unit
  | .send _ _ _ _ => Reply
  | .writeReceipt _ _ => Result Unit
  | .afterPersist _ => Result Unit

abbrev actions : Interface := ⟨Act, Act.Res⟩

structure Oracle where
  look : Look
  cancelled : Bool
  failure : Option Error
  reply : Reply
  callback : Result Unit

def contents (file : Option (Result Document)) : Result Document :=
  file.getD (.error (.os "No such file or directory"))

def exec (oracle : Oracle) (pid : ℕ) (w : World) : (action : Act) → Option (World × action.Res)
  | .lock slot =>
    match oracle.failure with
    | some error => some (w, .error error)
    | none =>
      if w.lock slot = none then
        some ({ w with lock := update w.lock slot (some pid) }, .ok oracle.cancelled)
      else none
  | .unlock slot => some ({ w with lock := update w.lock slot none }, oracle.cancelled)
  | .look _ => some (w, oracle.look)
  | .receiptExists slot => some (w, (w.receipt slot).isSome)
  | .readReceipt slot => some (w, contents (w.receipt slot))
  | .attemptExists slot => some (w, (w.attempt slot).isSome)
  | .readAttempt slot => some (w, contents (w.attempt slot))
  | .writeAttempt slot intent =>
    some (written oracle.failure w
      { w with attempt := update w.attempt slot (some (.ok ⟨intent, false⟩)) })
  | .send _ _ _ _ => some (w, oracle.reply)
  | .writeReceipt slot receipt =>
    some (written oracle.failure w
      { w with receipt := update w.receipt slot (some (.ok receipt)) })
  | .afterPersist _ => some (w, oracle.callback)

def World.crash (pid : ℕ) (w : World) : World :=
  { w with lock := fun slot => if w.lock slot = some pid then none else w.lock slot }

abbrev machine : Machine actions where
  World := World
  Oracle := Oracle
  exec := exec
  crash := World.crash

abbrev Program (α : Type) := Prog actions Error α

def deliveryError (message : String) : Error := ⟨.other "DeliveryError", message⟩

def cancelledError : Error := ⟨.other "CancelledError", ""⟩

def unreadable : List ErrorKind := [.osError, .other "JSONDecodeError"]

def intent (chatId episodeId : String) (approval : ApprovalReceipt) : Dict :=
  [("episode_id", .str episodeId), ("artifact_kind", .str approval.artifactKind),
    ("approval", approval.asdict), ("chat_id", .str chatId)]

def receiptOf (chatId episodeId : String) (approval : ApprovalReceipt) (messageId : ℤ) : Document :=
  ⟨.obj (intent chatId episodeId approval ++ [("message_id", .num messageId)]), true⟩

def positive (isInt : Bool) : Option Json → Bool
  | some (.num messageId) => isInt && decide (0 < messageId)
  | _ => false

def binding (receipt : Dict) (isInt : Bool) (chatId episodeId : String) (approval : ApprovalReceipt) :
    Bool :=
  receipt.keysAre ["episode_id", "artifact_kind", "approval", "chat_id", "message_id"] &&
    decide (receipt.get "episode_id" = some (.str episodeId)) &&
    decide (receipt.get "artifact_kind" = some (.str approval.artifactKind)) &&
    (receipt.get "approval").any (fun value => value.equals approval.asdict) &&
    decide (receipt.get "chat_id" = some (.str chatId)) &&
    positive isInt (receipt.get "message_id")

def Document.binds (document : Document) (chatId episodeId : String) (approval : ApprovalReceipt) :
    Bool :=
  match document.value with
  | .obj receipt => binding receipt document.intMessageId chatId episodeId approval
  | _ => false

/-- The end of the provider's call. `CancelledError` is no `Exception`. -/
def acknowledged (kind : String) : Reply → Result ℤ
  | .error error =>
    if error = cancelledError then .error error
    else .error (deliveryError
      (kind ++ " delivery outcome is ambiguous; explicit recovery required"))
  | .ok (some id) =>
    if 0 < id then .ok id
    else .error (deliveryError "notification provider did not return a media message identifier")
  | .ok none =>
    .error (deliveryError "notification provider did not return a media message identifier")

namespace Program

def require (condition : Prop) [Decidable condition] (message : String) : Program Unit :=
  .ofExcept (Python.require condition (deliveryError message))

def verify (approval : ApprovalReceipt) : Program Unit :=
  Prog.request (.look approval.artifactPath) approval.verify

/-- `_recover_receipt`. A receipt that binds the approval holds its fields, so it is the approval
that is verified. -/
def recoverReceipt (slot : Slot) (chatId episodeId : String) (approval : ApprovalReceipt) :
    Program Document := do
  let receipt ← Prog.request (.readReceipt slot)
    (rewrap unreadable fun _ => deliveryError "delivery recovery receipt is unreadable")
  require (receipt.binds chatId episodeId approval)
    "delivery recovery receipt does not bind current approved media"
  Prog.request (.look approval.artifactPath) fun look =>
    rewrap [.typeError, .other "PublicationAuthorizationError"]
      (fun _ => deliveryError "delivery recovery receipt media no longer matches")
      (approval.verify look)
  pure receipt

def requireApprovedDeliveredThumbnail (root chatId episodeId : String) (thumbnail : ApprovalReceipt)
    (thumbnailApproval : Option ApprovalReceipt) : Program Unit :=
  match thumbnailApproval with
  | none => .raise (deliveryError "video delivery requires an approved thumbnail")
  | some approved => do
    require (approved.artifactKind = "thumbnail") "video delivery requires an approved thumbnail"
    Prog.request (.look approved.artifactPath) fun look =>
      rewrap [.other "PublicationAuthorizationError"]
        (fun _ => deliveryError "video delivery requires an approved thumbnail")
        (approved.verify look)
    require (approved.artifactPath = thumbnail.artifactPath ∧
        approved.artifactSha256 = thumbnail.artifactSha256)
      "video delivery requires approval of the delivered thumbnail"
    let _ ← recoverReceipt ⟨root, .thumbnail⟩ chatId episodeId thumbnail
    pure ()

def gateLock {α : Type} (slot : Slot) (body : Program α) : Program α := do
  let cancelled ← Prog.request (.lock slot) id
  if cancelled then do
    let _ : Bool ← .act (.unlock slot) .pure
    .raise cancelledError
  else do
    let result ← body.attempt
    let cancelled : Bool ← .act (.unlock slot) .pure
    if cancelled then .raise cancelledError else .ofExcept result

def sendOnce (slot : Slot) (chatId episodeId : String) (approval : ApprovalReceipt)
    (callback : Bool) : Program Document := do
  Prog.request (.writeAttempt slot (.obj (intent chatId episodeId approval))) id
  let messageId ← Prog.request
    (.send slot chatId approval.artifactPath (episodeId ++ " — revisão"))
    (acknowledged approval.artifactKind)
  Prog.request
    (.writeReceipt slot (receiptOf chatId episodeId approval messageId)) id
  let persisted ← recoverReceipt slot chatId episodeId approval
  if callback then do
    Prog.request (.afterPersist slot) id
    pure persisted
  else pure persisted

def refuse (slot : Slot) (chatId episodeId : String) (approval : ApprovalReceipt) :
    Program Document := do
  let attempt ← Prog.request (.readAttempt slot)
    (rewrap unreadable fun _ => deliveryError "delivery intent is unreadable")
  require (attempt.value.equals (.obj (intent chatId episodeId approval)))
    "delivery intent does not bind the current destination"
  .raise (deliveryError
    "delivery outcome is ambiguous; recover provider evidence before any retry")

def send (slot : Slot) (chatId episodeId : String) (approval : ApprovalReceipt)
    (supported callback : Bool) : Program Document :=
  gateLock slot do
    let delivered : Bool ← .act (.receiptExists slot) .pure
    if delivered then recoverReceipt slot chatId episodeId approval
    else do
      require supported "notification provider does not support required media"
      let attempted : Bool ← .act (.attemptExists slot) .pure
      if attempted then refuse slot chatId episodeId approval
      else sendOnce slot chatId episodeId approval callback

end Program

structure Call where
  chatId : String
  episodeId : String
  thumbnail : ApprovalReceipt
  receiptDir : String
  video : Option ApprovalReceipt
  thumbnailApproval : Option ApprovalReceipt
  callback : Bool
  supports : Gate → Bool

open Program in
def Call.deliverForApproval (call : Call) : Program Document := do
  require (blank call.episodeId = false ∧ blank call.chatId = false)
    "episode and delivery destination are required"
  require (call.thumbnail.artifactKind = "thumbnail") "a thumbnail approval artifact is required"
  verify call.thumbnail
  match call.video with
  | none =>
    send ⟨call.receiptDir, .thumbnail⟩ call.chatId call.episodeId call.thumbnail
      (call.supports .thumbnail) call.callback
  | some video => do
    require (video.artifactKind = "video") "a video approval artifact is required"
    verify video
    requireApprovedDeliveredThumbnail call.receiptDir call.chatId call.episodeId call.thumbnail
      call.thumbnailApproval
    send ⟨call.receiptDir, .video⟩ call.chatId call.episodeId video (call.supports .video)
      call.callback

def deliveries : Set (Program Unit) := Set.range fun call : Call => call.deliverForApproval.discard

end VideoPoster.Delivery
