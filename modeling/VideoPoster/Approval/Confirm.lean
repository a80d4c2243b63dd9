import VideoPoster.Approval.Journal

/-!
# `controller`: the approval of a delivered artifact
-/

namespace VideoPoster.Approval
open Python Tables Encoding TelegramInboundAdapter

def controllerError (message : String) : Error := ⟨.other "ApprovalControllerError", message⟩

def artifactKinds : List String := ["thumbnail", "video"]

def approvalCommand (episodeId artifactKind : String) : Result String := do
  require (artifactKind ∈ artifactKinds ∧ ¬blank episodeId)
    (controllerError "approval artifact kind is invalid")
  pure ("APROVAR " ++ (if artifactKind = "thumbnail" then "THUMBNAIL" else "VÍDEO") ++ " " ++ episodeId)

structure Files where
  look : String → Look
  resolve : String → String
  resolved : ∀ path, look (resolve path) = look path

structure Delivery where
  episodeId : String
  artifactKind : String
  artifactPath : String
  receipt : Result JsonText.Value

structure Persisted where
  receipt : ApprovalReceipt
  inbound : Option Entries

structure Gate where
  journal : Journal
  approval : Option (Result Persisted)

def deliveryKeys : List String := ["episode_id", "artifact_kind", "approval", "chat_id", "message_id"]

def receiptKeys : List String :=
  ["artifact_kind", "artifact_path", "artifact_sha256", "approver", "approved_at"]

/-- `ApprovalReceipt(**document)`, as far as its fields are used: a path and a hash are texts. -/
def deliveredReceipt : Option JsonText.Value → Option (JsonText.Value × String × String)
  | some (.obj document) =>
    if hasKeys document receiptKeys ∨ hasKeys document (receiptKeys ++ ["inbound_receipt"]) then
      match document.lookup "artifact_kind", document.lookup "artifact_path",
        document.lookup "artifact_sha256" with
      | some kind, some (.str path), some (.str sha256) => some (kind, path, sha256)
      | _, _, _ => none
    else none
  | _ => none

def approve (files : Files) (kind path approver now : String) (inbound : Option Dict) :
    Result ApprovalReceipt := do
  let found ← files.look path
  match found with
  | some sha256 =>
    require (kind ∈ artifactKinds ∧ ¬blank approver)
      (.value "A real video/thumbnail file and approver are required")
    pure ⟨kind, files.resolve path, sha256, approver, now, inbound⟩
  | none => .error (.value "A real video/thumbnail file and approver are required")

section Confirm
variable (hash : Dict → Result String) (hmac : String → Dict → Result String)
  (adapter : TelegramInboundAdapter) (files : Files) (delivery : Delivery)

/-- The checks before the inbound source is asked: the message that was delivered, and the artifact. -/
def boundDelivery (now : String) : Result (ℤ × ApprovalReceipt) := do
  require (delivery.artifactKind ∈ artifactKinds) (controllerError "approval artifact kind is invalid")
  require (¬blank adapter.expectedChatId ∧ adapter.trustedSenderIds ≠ [])
    (controllerError "trusted approval chat and sender configuration are required")
  let document ← rewrap [.osError, .other "JSONDecodeError"]
    (fun _ => controllerError "delivery receipt is unreadable") delivery.receipt
  match document with
  | .obj document =>
    require (hasKeys document deliveryKeys ∧
        (document.lookup "episode_id").any (equalsStr delivery.episodeId))
      (controllerError "delivery receipt does not bind the episode")
    match document.lookup "message_id" with
    | some (.int messageId) =>
      require ((document.lookup "artifact_kind").any (equalsStr delivery.artifactKind) ∧ 0 < messageId)
        (controllerError "delivery receipt does not bind the required media")
      require ((document.lookup "chat_id").any (equalsStr adapter.expectedChatId))
        (controllerError "delivery receipt does not bind the configured destination")
      match deliveredReceipt (document.lookup "approval") with
      | some (kind, path, sha256) =>
        require (files.look path = .ok (some sha256))
          (controllerError "delivery receipt no longer binds delivered bytes")
        let current ← approve files delivery.artifactKind delivery.artifactPath "delivery-check" now none
        require (equalsStr current.artifactKind kind ∧
            files.resolve path = files.resolve current.artifactPath ∧ sha256 = current.artifactSha256)
          (controllerError "approval artifact differs from delivered bytes")
        pure (messageId, current)
      | none => .error (controllerError "delivery receipt no longer binds delivered bytes")
    | _ => .error (controllerError "delivery receipt does not bind the required media")
  | _ => .error (.type "delivery receipt is not an object")

def requireAuthority (messageId : ℤ) (reply : Option AuthenticatedApprovalReply) :
    Result AuthenticatedApprovalReply := do
  match reply with
  | none => .error (controllerError "authenticated inbound approval reply is required")
  | some reply =>
    require (reply.chatId = adapter.expectedChatId ∧ reply.senderId ∈ adapter.trustedSenderIds ∧
        reply.replyToMessageId = messageId)
      (controllerError "authenticated reply does not bind trusted sender/chat/message")
    let command ← approvalCommand delivery.episodeId delivery.artifactKind
    require (reply.text = command)
      (controllerError "an exact internally-derived approval command is required")
    pure reply

def confirmPersisted (journal : Journal) (failure : Bool) (messageId : ℤ) (current : ApprovalReceipt)
    (persisted : Result Persisted) : Result ApprovalReceipt := do
  match persisted with
  | .error _ => .error (controllerError "persisted approval receipt is unreadable")
  | .ok persisted =>
    require (files.look persisted.receipt.artifactPath = .ok (some persisted.receipt.artifactSha256))
      (controllerError "persisted approval receipt is unreadable")
    match persisted.inbound with
    | none =>
      .error (controllerError "persisted approval does not bind authenticated current artifact")
    | some document =>
      require (persisted.receipt.artifactKind = current.artifactKind ∧
          files.resolve persisted.receipt.artifactPath = files.resolve current.artifactPath ∧
          persisted.receipt.artifactSha256 = current.artifactSha256)
        (controllerError "persisted approval does not bind authenticated current artifact")
      let reply ← adapter.revalidateReply hash hmac journal failure (.obj document)
      let reply ← requireAuthority adapter delivery messageId reply
      require (reply.equals document)
        (controllerError "persisted approval reply differs from authenticated journal")
      pure persisted.receipt

def AuthenticatedApprovalReply.entries (reply : AuthenticatedApprovalReply) : Entries :=
  [("transport", .str reply.transport), ("chat_id", .str reply.chatId),
    ("sender_id", .str reply.senderId), ("message_id", .int reply.messageId),
    ("reply_to_message_id", .int reply.replyToMessageId), ("text", .str reply.text)]

structure Conditions where
  now : String
  claimFails : Bool
  readFails : Bool
  saveFails : Option Error

def askReply (journal : Journal) (conditions : Conditions) (messageId : ℤ) :
    Journal × Result (Option AuthenticatedApprovalReply) :=
  match adapter.claimVerifiedReply hash hmac journal conditions.claimFails adapter.expectedChatId
    messageId conditions.now with
  | (journal, .ok none) => (journal, adapter.recoverVerifiedReply hash hmac journal conditions.readFails
      adapter.expectedChatId messageId)
  | (journal, answer) => (journal, answer)

def approveReply (now : String) (messageId : ℤ) (reply : Option AuthenticatedApprovalReply) :
    Result Persisted := do
  let reply ← requireAuthority adapter delivery messageId reply
  let receipt ← approve files delivery.artifactKind delivery.artifactPath
    (reply.transport ++ ":" ++ reply.senderId) now (some reply.document)
  receipt.verify (files.look receipt.artifactPath)
  pure ⟨receipt, some reply.entries⟩

def confirmDelivery (gate : Gate) (conditions : Conditions) : Gate × Result ApprovalReceipt :=
  match boundDelivery adapter files delivery conditions.now with
  | .error error => (gate, .error error)
  | .ok (messageId, current) =>
    match gate.approval with
    | some persisted => (gate, confirmPersisted hash hmac adapter files delivery gate.journal
        conditions.readFails messageId current persisted)
    | none =>
      let (journal, answer) := askReply hash hmac adapter gate.journal conditions messageId
      match answer >>= approveReply adapter files delivery conditions.now messageId with
      | .error error => ({ gate with journal }, .error error)
      | .ok persisted =>
        match conditions.saveFails with
        | some error => ({ gate with journal }, .error error)
        | none => (⟨journal, some (.ok persisted)⟩, .ok persisted.receipt)

end Confirm
end VideoPoster.Approval
