import VideoPoster.Approval.Receipts
import VideoPoster.Encoding.JsonText
import VideoPoster.Tables.Table

/-!
# `telegram_inbound`: the journal of authenticated replies
-/

namespace VideoPoster.Approval
open Python Tables Encoding List

structure ReplyClaims where
  updateId : ℤ
  messageId : ℤ
  chatId : String
  senderId : String
  replyToMessageId : ℤ
  text : String
  deriving DecidableEq

namespace ReplyClaims

def messageDocument (claims : ReplyClaims) : Dict :=
  [("chat_id", .str claims.chatId), ("message_id", .num claims.messageId),
    ("reply_to_message_id", .num claims.replyToMessageId), ("sender_id", .str claims.senderId),
    ("text", .str claims.text)]

def canonicalDocument (claims : ReplyClaims) : Dict :=
  claims.messageDocument ++ [("update_id", .num claims.updateId)]

end ReplyClaims

structure AuthenticatedApprovalReply where
  transport : String
  chatId : String
  senderId : String
  messageId : ℤ
  replyToMessageId : ℤ
  text : String
  valid : ¬blank transport ∧ ¬blank chatId ∧ ¬blank senderId ∧ 0 < messageId ∧ 0 < replyToMessageId ∧
    ¬blank text
  deriving DecidableEq

abbrev Entries := List (String × JsonText.Value)

def equalsInt (n : ℤ) : JsonText.Value → Bool
  | .int m => m = n
  | .bool b => n = if b then 1 else 0
  | .float mantissa scale =>
    if 0 ≤ scale then mantissa * 10 ^ scale.toNat = n else mantissa = n * 10 ^ (-scale).toNat
  | _ => false

def equalsStr (text : String) : JsonText.Value → Bool
  | .str other => other = text
  | _ => false

def hasKeys (document : Entries) (keys : List String) : Bool :=
  (document.map Prod.fst).all (· ∈ keys) && keys.all (· ∈ document.map Prod.fst)

namespace AuthenticatedApprovalReply

def keys : List String :=
  ["transport", "chat_id", "sender_id", "message_id", "reply_to_message_id", "text"]

def document (reply : AuthenticatedApprovalReply) : Dict :=
  [("transport", .str reply.transport), ("chat_id", .str reply.chatId),
    ("sender_id", .str reply.senderId), ("message_id", .num reply.messageId),
    ("reply_to_message_id", .num reply.replyToMessageId), ("text", .str reply.text)]

def equals (reply : AuthenticatedApprovalReply) (document : Entries) : Bool :=
  (document.lookup "transport").any (equalsStr reply.transport) &&
  (document.lookup "chat_id").any (equalsStr reply.chatId) &&
  (document.lookup "sender_id").any (equalsStr reply.senderId) &&
  (document.lookup "message_id").any (equalsInt reply.messageId) &&
  (document.lookup "reply_to_message_id").any (equalsInt reply.replyToMessageId) &&
  (document.lookup "text").any (equalsStr reply.text)

end AuthenticatedApprovalReply

structure Row where
  claims : ReplyClaims
  updateHash : String
  messageHash : String
  mac : String
  consumedAt : Option String

def Row.delivered (row : Row) : String × ℤ := (row.claims.chatId, row.claims.replyToMessageId)

structure Journal where
  replies : Table fun row : Row => row.claims.updateId
  messages : (replies.rows.map fun row => row.claims.messageId).Nodup
  deliveries : (replies.rows.map Row.delivered).Nodup

namespace Journal

def empty : Journal := ⟨.empty, nodup_nil, nodup_nil⟩

def reply (journal : Journal) (delivered : String × ℤ) : Option Row :=
  journal.replies.rows.find? fun row => row.delivered = delivered

def collides (journal : Journal) (claims : ReplyClaims) : Bool :=
  journal.replies.rows.any fun row => row.claims.messageId = claims.messageId ∨
    row.delivered = (claims.chatId, claims.replyToMessageId)

def Fresh (journal : Journal) (row : Row) : Prop :=
  ∀ other ∈ journal.replies.rows, other.claims.updateId ≠ row.claims.updateId ∧
    other.claims.messageId ≠ row.claims.messageId ∧ other.delivered ≠ row.delivered

instance (journal : Journal) (row : Row) : Decidable (journal.Fresh row) :=
  inferInstanceAs (Decidable (∀ _ ∈ _, _))

def insert (journal : Journal) (row : Row) (fresh : journal.Fresh row) : Journal where
  replies := ⟨row :: journal.replies.rows, nodup_cons.mpr
    ⟨by simpa using fun other member => (fresh other member).1, journal.replies.unique⟩⟩
  messages := nodup_cons.mpr
    ⟨by simpa using fun other member => (fresh other member).2.1, journal.messages⟩
  deliveries := nodup_cons.mpr
    ⟨by simpa using fun other member => (fresh other member).2.2, journal.deliveries⟩

def selects (updateId : ℤ) (mac : String) (row : Row) : Bool :=
  row.claims.updateId = updateId ∧ row.consumedAt = none ∧ row.mac = mac

def consume (journal : Journal) (updateId : ℤ) (mac consumedAt consumedMac : String) : Journal where
  replies := journal.replies.map
    (fun row => if selects updateId mac row then
      { row with consumedAt := some consumedAt, mac := consumedMac } else row)
    fun row => by split_ifs <;> rfl
  messages := by
    change ((journal.replies.rows.map _).map _).Nodup
    rw [map_map]
    refine (map_congr_left fun row _ => ?_) ▸ journal.messages
    dsimp only [Function.comp_apply]
    split_ifs <;> rfl
  deliveries := by
    change ((journal.replies.rows.map _).map _).Nodup
    rw [map_map]
    refine (map_congr_left fun row _ => ?_) ▸ journal.deliveries
    dsimp only [Function.comp_apply]
    split_ifs <;> rfl

end Journal

def canonicalId (value : String) : Prop := ∃ n : ℕ, 0 < n ∧ value = toString n

structure TelegramInboundAdapter where
  expectedChatId : String
  trustedSenderIds : List String
  webhookSecret : Option String
  chat : canonicalId expectedChatId
  senders : trustedSenderIds ≠ [] ∧ ∀ senderId ∈ trustedSenderIds, canonicalId senderId

def maxBodyBytes : ℕ := 65536

def maxTextChars : ℕ := 4096

def positiveInt : Option JsonText.Value → Option ℤ
  | some (.int n) => if 0 < n then some n else none
  | _ => none

def dict : Option JsonText.Value → Option Entries
  | some (.obj entries) => some entries
  | _ => none

def chatType : Option JsonText.Value → Result Bool
  | some (.str kind) => .ok (kind ∈ ["private", "group", "supergroup"])
  | some (.arr _) => .error (.type "unhashable type: 'list'")
  | some (.obj _) => .error (.type "unhashable type: 'dict'")
  | _ => .ok false

def storable (n : ℤ) : Result Unit :=
  require (n < 2 ^ 63) ⟨.other "OverflowError", "Python int too large to convert to SQLite INTEGER"⟩

namespace TelegramInboundAdapter
variable (loadJson : ByteArray → Result (Option Entries)) (hash : Dict → Result String)
  (hmac : String → Dict → Result String) (adapter : TelegramInboundAdapter)

def claimsFromMessage (updateId : ℤ) (message : Entries) : Result (Option ReplyClaims) :=
  match positiveInt (message.lookup "message_id"), dict (message.lookup "from"),
    dict (message.lookup "chat"), dict (message.lookup "reply_to_message"), message.lookup "text" with
  | some messageId, some sender, some chat, some replyTo, some (.str text) =>
    if blank text ∨ maxTextChars < text.length then .ok none
    else
      match positiveInt (sender.lookup "id"), positiveInt (chat.lookup "id"),
        positiveInt (replyTo.lookup "message_id"), sender.lookup "is_bot" with
      | some senderId, some chatId, some replyToMessageId, some (.bool false) => do
        let known ← chatType (chat.lookup "type")
        if known ∧ toString senderId ∈ adapter.trustedSenderIds ∧
            toString chatId = adapter.expectedChatId then
          pure (some ⟨updateId, messageId, toString chatId, toString senderId, replyToMessageId,
            text⟩)
        else pure none
      | _, _, _, _ => .ok none
  | _, _, _, _, _ => .ok none

def claimsFromBody (body : ByteArray) : Result (Option ReplyClaims) := do
  match ← loadJson body with
  | none => pure none
  | some document =>
    if hasKeys document ["update_id", "message"] then
      match positiveInt (document.lookup "update_id"), dict (document.lookup "message") with
      | some updateId, some message => adapter.claimsFromMessage updateId message
      | _, _ => pure none
    else pure none

def compareDigest (a b : String) : Result Bool := do
  require ((a.toList ++ b.toList).all fun c => decide (c.toNat < 0x80))
    (.type "comparing strings with non-ASCII characters is not supported")
  pure (a = b)

def authentic (secretHeader : Option String) : Result Bool :=
  match adapter.webhookSecret, secretHeader with
  | some secret, some header => if secret = "" then .ok false else compareDigest secret header
  | _, _ => .ok false

def secretKey : String :=
  match adapter.webhookSecret with
  | some secret => if secret = "" then "missing-webhook-secret" else secret
  | none => "missing-webhook-secret"

def rowMac (claims : ReplyClaims) (consumedAt : Option String) : Result String :=
  hmac adapter.secretKey
    (claims.canonicalDocument ++ [("consumed_at", (consumedAt.map Json.str).getD .null)])

def newRow (claims : ReplyClaims) : Result Row := do
  let updateHash ← hash claims.canonicalDocument
  let messageHash ← hash claims.messageDocument
  let mac ← adapter.rowMac hmac claims none
  pure ⟨claims, updateHash, messageHash, mac, none⟩

def journalRow (journal : Journal) (row : Row) : Result (Journal × Bool) := do
  storable row.claims.updateId
  match journal.replies.find? row.claims.updateId with
  | some other => pure (journal, other.updateHash = row.updateHash)
  | none =>
    storable row.claims.messageId
    storable row.claims.replyToMessageId
    if journal.collides row.claims then pure (journal, false)
    else if fresh : journal.Fresh row then pure (journal.insert row fresh, true)
    else pure (journal, false)

def transaction {α : Type} (journal : Journal) (failure : Bool) (refused : α)
    (body : Result (Journal × α)) : Journal × Result α :=
  if failure then (journal, .ok refused)
  else
    match body with
    | .ok (journal, answer) => (journal, .ok answer)
    | .error error => (journal, .error error)

def received (body : ByteArray) (secretHeader : Option String) : Result (Option Row) := do
  if ← adapter.authentic secretHeader then
    if body.size = 0 ∨ maxBodyBytes < body.size then pure none
    else
      match ← adapter.claimsFromBody loadJson body with
      | none => pure none
      | some claims => some <$> adapter.newRow hash hmac claims
  else pure none

def ingestWebhook (journal : Journal) (failure : Bool) (body : ByteArray)
    (secretHeader : Option String) : Journal × Result Bool :=
  match adapter.received loadJson hash hmac body secretHeader with
  | .error error => (journal, .error error)
  | .ok none => (journal, .ok false)
  | .ok (some row) => transaction journal failure false (journalRow journal row)

def validatedClaims (row : Row) : Result (Option ReplyClaims) := do
  if 0 < row.claims.updateId ∧ 0 < row.claims.messageId ∧ 0 < row.claims.replyToMessageId then
    if row.updateHash = (← hash row.claims.canonicalDocument) ∧
        row.messageHash = (← hash row.claims.messageDocument) ∧
        row.mac = (← adapter.rowMac hmac row.claims row.consumedAt) then
      pure (some row.claims)
    else pure none
  else pure none

def replyOf (claims : ReplyClaims) : Result AuthenticatedApprovalReply :=
  if valid : ¬blank "TELEGRAM" ∧ ¬blank claims.chatId ∧ ¬blank claims.senderId ∧ 0 < claims.messageId ∧
      0 < claims.replyToMessageId ∧ ¬blank claims.text then
    .ok ⟨"TELEGRAM", claims.chatId, claims.senderId, claims.messageId, claims.replyToMessageId,
      claims.text, valid⟩
  else .error (.value "authenticated reply has invalid transport bindings")

def orNone {α : Type} : Result (Option α) → Result (Option α)
  | .ok answer => .ok answer
  | .error error => if error.kind = .valueError then .ok none else .error error

def asks (chatId : String) (messageId : ℤ) : Bool :=
  adapter.webhookSecret.any (· ≠ "") ∧ chatId = adapter.expectedChatId ∧ 0 < messageId

def claimRow (journal : Journal) (chatId : String) (messageId : ℤ) (consumedAt : String) :
    Result (Journal × Option AuthenticatedApprovalReply) := do
  storable messageId
  match (journal.reply (chatId, messageId)).filter (·.consumedAt = none) with
  | none => pure (journal, none)
  | some row =>
    match ← adapter.validatedClaims hash hmac row with
    | none => pure (journal, none)
    | some claims =>
      let consumedMac ← adapter.rowMac hmac claims (some consumedAt)
      if journal.replies.rows.countP (Journal.selects claims.updateId row.mac) = 1 then
        pure (journal.consume claims.updateId row.mac consumedAt consumedMac,
          some (← replyOf claims))
      else pure (journal, none)

def claimVerifiedReply (journal : Journal) (failure : Bool) (chatId : String) (messageId : ℤ)
    (consumedAt : String) : Journal × Result (Option AuthenticatedApprovalReply) :=
  if adapter.asks chatId messageId then
    let (journal, answer) := transaction journal failure none
      (adapter.claimRow hash hmac journal chatId messageId consumedAt)
    (journal, orNone answer)
  else (journal, .ok none)

def consumedReply (journal : Journal) (chatId : String) (messageId : ℤ) :
    Result (Option AuthenticatedApprovalReply) := do
  storable messageId
  match (journal.reply (chatId, messageId)).filter (·.consumedAt ≠ none) with
  | none => pure none
  | some row =>
    match ← adapter.validatedClaims hash hmac row with
    | none => pure none
    | some claims => some <$> replyOf claims

def recoverVerifiedReply (journal : Journal) (failure : Bool) (chatId : String) (messageId : ℤ) :
    Result (Option AuthenticatedApprovalReply) :=
  if adapter.asks chatId messageId ∧ ¬failure then
    orNone (adapter.consumedReply hash hmac journal chatId messageId)
  else .ok none

def revalidateReply (journal : Journal) (failure : Bool) :
    JsonText.Value → Result (Option AuthenticatedApprovalReply)
  | .obj document =>
    if hasKeys document AuthenticatedApprovalReply.keys ∧
        (document.lookup "transport").any (equalsStr "TELEGRAM") then
      match document.lookup "chat_id", document.lookup "reply_to_message_id" with
      | some (.str chatId), some (.int replyTo) => do
        let reply ← adapter.recoverVerifiedReply hash hmac journal failure chatId replyTo
        pure (reply.filter (·.equals document))
      | _, _ => .ok none
    else .ok none
  | _ => .ok none

end TelegramInboundAdapter
end VideoPoster.Approval
