import VideoPoster.Authorization.Requests

/-!
# `BudgetAuthorizationService`
-/

namespace VideoPoster.Authorization
open Python Encoding Approval Interleaving Function

structure Digest where
  sha256 : Document → String
  injective : Function.Injective sha256

structure Intent where
  requestId : String
  requestSha256 : String
  chatId : String
  bodySha256 : String
  deriving DecidableEq

structure Outbound where
  transport : String
  chatId : String
  messageId : ℤ
  bodySha256 : String
  deriving DecidableEq

structure Delivery where
  requestId : String
  requestSha256 : String
  outbound : Outbound
  deriving DecidableEq

structure Receipt where
  request : Document
  requestSha256 : String
  policySha256 : String
  delivery : Delivery
  inboundReceipt : AuthenticatedApprovalReply
  deriving DecidableEq

inductive Kind where
  | request | intent | delivery | receipt
  deriving DecidableEq

abbrev Kind.Contents : Kind → Type
  | .request => Document
  | .intent => Intent
  | .delivery => Delivery
  | .receipt => Receipt

def Document.same (document other : Document) : Bool := { document with schema := other.schema } = other

def Kind.same : (kind : Kind) → kind.Contents → kind.Contents → Bool
  | .request, document, other => document.same other
  | .intent, (contents : Intent), other => decide (contents = other)
  | .delivery, (contents : Delivery), other => decide (contents = other)
  | .receipt, (contents : Receipt), (other : Receipt) => contents.request.same other.request &&
      decide ({ contents with request := other.request } = other)

def Kind.label : Kind → String
  | .request => "budget authorization request"
  | .intent => "budget authorization intent"
  | .delivery => "budget authorization delivery"
  | .receipt => "budget authorization receipt"

inductive LockId where
  | delivery (sha256 : String)
  | writeOnce (kind : Kind) (requestId : String)
  deriving DecidableEq

structure World where
  files : (kind : Kind) → String → Option kind.Contents
  locks : LockId → Option ℕ
  messages : List (Outbound × Document)
  replies : List AuthenticatedApprovalReply

def World.empty : World := ⟨fun _ _ => none, fun _ => none, [], []⟩

inductive Act where
  | lock (lock : LockId)
  | unlock (lock : LockId)
  | present (kind : Kind) (requestId : String)
  | read (kind : Kind) (requestId : String)
  | link (kind : Kind) (requestId : String) (contents : kind.Contents)
  | now
  | deliver (chatId : String) (body : Document)
  | revalidateDelivery (outbound : Outbound)
  | claimVerifiedReply (chatId : String) (messageId : ℤ)
  | recoverVerifiedReply (chatId : String) (messageId : ℤ)
  | revalidateReply (reply : AuthenticatedApprovalReply)
  | answered (reply : AuthenticatedApprovalReply)

abbrev Act.Res : Act → Type
  | .lock _ | .unlock _ => Unit
  | .present _ _ => Bool
  | .read kind _ => Option kind.Contents
  | .link _ _ _ => Bool
  | .now => ℤ
  | .deliver _ _ => Result (Option Outbound)
  | .revalidateDelivery _ => Option Outbound
  | .claimVerifiedReply _ _ | .recoverVerifiedReply _ _ => Option AuthenticatedApprovalReply
  | .revalidateReply _ => Option AuthenticatedApprovalReply
  | .answered _ => Unit

abbrev actions : Interface := ⟨Act, Act.Res⟩

inductive Posting where
  | refused
  /-- It was posted, and then it raises. -/
  | lost (transport : String) (messageId : ℤ)
  /-- It was posted, and the answer has another form. -/
  | malformed (transport : String) (messageId : ℤ)
  | posted (transport : String) (messageId : ℤ)

structure Oracle where
  now : ℤ
  posting : Posting
  pick : Option ℕ

section
variable (digest : Digest)

def Posting.outcome (chatId : String) (body : Document) : Posting → Option Outbound × Result (Option Outbound)
  | .refused => (none, .error (.os "message was refused"))
  | .lost transport messageId =>
    (some ⟨transport, chatId, messageId, digest.sha256 body⟩, .error (.os "answer was lost"))
  | .malformed transport messageId => (some ⟨transport, chatId, messageId, digest.sha256 body⟩, .ok none)
  | .posted transport messageId =>
    (some ⟨transport, chatId, messageId, digest.sha256 body⟩,
      .ok (some ⟨transport, chatId, messageId, digest.sha256 body⟩))

def World.link (w : World) (kind : Kind) (requestId : String) (contents : kind.Contents) : World :=
  { w with files := update w.files kind (update (w.files kind) requestId (some contents)) }

def exec (oracle : Oracle) (pid : ℕ) (w : World) : (action : Act) → Option (World × action.Res)
  | .lock lock =>
    if w.locks lock = none then some ({ w with locks := update w.locks lock (some pid) }, ()) else none
  | .unlock lock => some ({ w with locks := update w.locks lock none }, ())
  | .present kind requestId => some (w, (w.files kind requestId).isSome)
  | .read kind requestId => some (w, w.files kind requestId)
  | .link kind requestId contents =>
    if (w.files kind requestId).isSome then some (w, false) else some (w.link kind requestId contents, true)
  | .now => some (w, oracle.now)
  | .deliver chatId body =>
    some ({ w with
      messages := ((oracle.posting.outcome digest chatId body).1.map fun sent => (sent, body)).toList ++ w.messages },
      (oracle.posting.outcome digest chatId body).2)
  | .revalidateDelivery outbound =>
    some (w, if outbound ∈ w.messages.map Prod.fst then some outbound else none)
  | .claimVerifiedReply _ _ => some (w, oracle.pick.bind fun n => w.replies[n]?)
  | .recoverVerifiedReply _ _ => some (w, oracle.pick.bind fun n => w.replies[n]?)
  | .revalidateReply reply => some (w, if reply ∈ w.replies then some reply else none)
  | .answered reply => some ({ w with replies := reply :: w.replies }, ())

def World.crash (pid : ℕ) (w : World) : World :=
  { w with locks := fun lock => if w.locks lock = some pid then none else w.locks lock }

abbrev machine : Machine actions where
  World := World
  Oracle := Oracle
  exec := exec digest
  crash := World.crash

end

abbrev Service (α : Type) := Prog actions Error α

namespace Service

def act (action : Act) : Service action.Res := Prog.act (I := actions) action .pure

def ofResult {α : Type} (result : Result α) : Service α := Prog.ofExcept result

def require (condition : Prop) [Decidable condition] (message : String) : Service Unit :=
  ofResult (Python.require condition (authorizationError message))

def withLock {α : Type} (lock : LockId) (body : Service α) : Service α :=
  (act (.lock lock)).bind fun _ => body.ensuring (act (.unlock lock))

def load (kind : Kind) (requestId : String) : Service kind.Contents := do
  let found ← act (.read kind requestId)
  match found with
  | some contents => pure contents
  | none => .raise (authorizationError (kind.label ++ " is unreadable"))

def compare (kind : Kind) (requestId : String) (contents : kind.Contents) (complaint : String) : Service Unit := do
  let there ← load kind requestId
  require (kind.same there contents = true) (kind.label ++ complaint)

def writeOnce (kind : Kind) (requestId : String) (contents : kind.Contents) : Service Unit :=
  withLock (.writeOnce kind requestId) do
    let found ← act (.present kind requestId)
    if found then compare kind requestId contents " is write-once"
    else do
      let created ← act (.link kind requestId contents)
      if created then compare kind requestId contents " readback mismatch"
      else compare kind requestId contents " is write-once"

end Service

structure BudgetAuthorizationSettings where
  chatId : String
  financialSenderIds : List String

section
variable (T : Texts) (digest : Digest) (S : BudgetAuthorizationSettings)

def createRequest (raw : JsonText.Value) : Service Document := do
  let now ← Service.act .now
  let document ← Service.ofResult (requestDocument T now raw)
  Service.writeOnce .request document.requestId document
  pure document

def intentFor (document : Document) : Intent where
  requestId := document.requestId
  requestSha256 := digest.sha256 document
  chatId := S.chatId
  bodySha256 := digest.sha256 document

def revalidated (outbound : Outbound) (message : String) : Service Unit := do
  let answer ← Service.act (.revalidateDelivery outbound)
  Service.require (answer = some outbound) message

def BindsBody (document : Document) (outbound : Outbound) : Prop :=
  outbound.transport ≠ "" ∧ outbound.chatId = S.chatId ∧ 0 < outbound.messageId ∧
    outbound.bodySha256 = digest.sha256 document

instance (document : Document) (outbound : Outbound) : Decidable (BindsBody digest S document outbound) :=
  inferInstanceAs (Decidable (_ ∧ _))

def post (document : Document) : Service Delivery := do
  let answer ← Service.act (.deliver S.chatId document)
  match answer with
  | .error _ => .raise (authorizationError "outbound intent is unknown; never POST again")
  | .ok none =>
    .raise (authorizationError "trusted outbound body readback does not bind exact canonical request")
  | .ok (some outbound) => do
    Service.require (BindsBody digest S document outbound)
      "trusted outbound body readback does not bind exact canonical request"
    let delivery : Delivery := ⟨document.requestId, digest.sha256 document, outbound⟩
    Service.writeOnce .delivery document.requestId delivery
    revalidated outbound "trusted outbound delivery readback is invalid"
    pure delivery

def deliverLocked (document : Document) : Service Delivery := do
  let delivered ← Service.act (.present .delivery document.requestId)
  if delivered then do
    let delivery ← Service.load .delivery document.requestId
    revalidated delivery.outbound "trusted outbound delivery readback is invalid"
    pure delivery
  else do
    let intended ← Service.act (.present .intent document.requestId)
    Service.require (intended = false) "outbound intent is unknown; never POST again"
    Service.writeOnce .intent document.requestId (intentFor digest S document)
    post digest S document

def deliverRequest (document : Document) : Service Delivery := do
  let persisted ← Service.load .request document.requestId
  Service.require (persisted.same document = true ∧ digest.sha256 persisted = digest.sha256 document)
    "budget authorization request readback differs"
  Service.withLock (.delivery (digest.sha256 document)) (deliverLocked digest S document)

def command (requestId : String) : String := "AUTORIZAR ORÇAMENTO " ++ requestId

def FromFinancialSender (messageId : ℤ) (reply : AuthenticatedApprovalReply) : Prop :=
  reply.chatId = S.chatId ∧ reply.senderId ∈ S.financialSenderIds ∧ reply.replyToMessageId = messageId

instance (messageId : ℤ) (reply : AuthenticatedApprovalReply) :
    Decidable (FromFinancialSender S messageId reply) := inferInstanceAs (Decidable (_ ∧ _))

def checkReceipt (receipt : Receipt) (request : Document) : Service Receipt := do
  Service.require (receipt.delivery.outbound.chatId = S.chatId ∧
      receipt.delivery.outbound.bodySha256 = receipt.requestSha256)
    "budget authorization receipt delivery is invalid"
  revalidated receipt.delivery.outbound "budget authorization receipt delivery is invalid"
  Service.require (receipt.requestSha256 = digest.sha256 request ∧ receipt.policySha256 = request.policySha256)
    "budget authorization receipt policy binding is invalid"
  Service.require (receipt.delivery.requestId = request.requestId ∧
      receipt.delivery.requestSha256 = digest.sha256 request ∧ 0 < receipt.delivery.outbound.messageId)
    "budget authorization receipt request binding is invalid"
  let reply ← Service.act (.revalidateReply receipt.inboundReceipt)
  Service.require (reply = some receipt.inboundReceipt ∧
      FromFinancialSender S receipt.delivery.outbound.messageId receipt.inboundReceipt ∧
      receipt.inboundReceipt.text = command request.requestId)
    "budget authorization receipt lacks revalidated financial authority"
  pure receipt

def verifyReceipt (requestId : String) : Service Receipt := do
  let receipt ← Service.load .receipt requestId
  let now ← Service.act .now
  let request ← Service.ofResult (requestDocument T now receipt.request.value)
  checkReceipt digest S receipt request

def verifiedReply (messageId : ℤ) : Service (Option AuthenticatedApprovalReply) := do
  let claimed ← Service.act (.claimVerifiedReply S.chatId messageId)
  if claimed = none then Service.act (.recoverVerifiedReply S.chatId messageId) else pure claimed

def issue (request : Document) (delivery : Delivery) : Service Receipt := do
  let answer ← verifiedReply S delivery.outbound.messageId
  match answer with
  | none => .raise (authorizationError "authenticated financial sender/chat/message reply is required")
  | some reply => do
    Service.require (FromFinancialSender S delivery.outbound.messageId reply)
      "authenticated financial sender/chat/message reply is required"
    Service.require (reply.text = command request.requestId)
      "exact internally-derived financial authorization command is required"
    let receipt : Receipt := ⟨request, digest.sha256 request, request.policySha256, delivery, reply⟩
    Service.writeOnce .receipt request.requestId receipt
    pure receipt

def confirm (delivery : Delivery) : Service Receipt := do
  let current ← Service.load .delivery delivery.requestId
  Service.require (current = delivery ∧ current.outbound.chatId = S.chatId ∧
    current.outbound.bodySha256 = current.requestSha256) "budget authorization delivery is invalid"
  revalidated current.outbound "budget authorization delivery is invalid"
  let stored ← Service.load .request current.requestId
  let now ← Service.act .now
  let request ← Service.ofResult (requestDocument T now stored.value)
  Service.require (current.requestSha256 = digest.sha256 request)
    "budget authorization delivery does not bind request"
  let receipted ← Service.act (.present .receipt request.requestId)
  if receipted then verifyReceipt T digest S request.requestId
  else issue digest S request current

def Document.policy (document : Document) : Executor.BudgetPolicy where
  mode := .test
  allowedProviders := document.allowedProviders
  requestId := document.requestId
  episodeId := document.episodeId
  policySha256 := document.policySha256
  episodeCapUsd := document.episodeCapUsd
  monthCapUsd := document.monthCapUsd
  experimentCapUsd := document.experimentCapUsd

def loadPolicyOf (requestId : String) : Service Executor.BudgetPolicy := do
  let receipt ← verifyReceipt T digest S requestId
  pure receipt.request.policy

inductive Call where
  | createRequest (raw : JsonText.Value)
  | deliverRequest (document : Document)
  | confirm (delivery : Delivery)
  | load (requestId : String)
  | answer (reply : AuthenticatedApprovalReply)

def Call.program : Call → Service Unit
  | .createRequest raw => (Authorization.createRequest T raw).discard
  | .deliverRequest document => (Authorization.deliverRequest digest S document).discard
  | .confirm delivery => (Authorization.confirm T digest S delivery).discard
  | .load requestId => (loadPolicyOf T digest S requestId).discard
  | .answer reply => Service.act (.answered reply)

def calls : Set (Service Unit) := Set.range (Call.program T digest S)

end
end VideoPoster.Authorization
