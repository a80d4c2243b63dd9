import VideoPoster.Approval.Inbound

/-!
# Replies are consumed once
-/

namespace VideoPoster.Approval
open Python Tables Encoding TelegramInboundAdapter List Option Prod Journal JsonText.Value

variable {loadJson : ByteArray → Result (Option Entries)} {hash : Dict → Result String}
  {hmac : String → Dict → Result String} {adapter : TelegramInboundAdapter}
  {journal journal' : Journal} {row : Row} {claims : ReplyClaims} {reply : AuthenticatedApprovalReply}
  {body : ByteArray} {header : Option String} {failure : Bool} {chatId : String} {messageId : ℤ}

/-! ## Updates -/

structure ReplyClaims.Trusted (adapter : TelegramInboundAdapter) (claims : ReplyClaims) : Prop where
  positive : 0 < claims.updateId ∧ 0 < claims.messageId ∧ 0 < claims.replyToMessageId
  sender : claims.senderId ∈ adapter.trustedSenderIds
  chat : claims.chatId = adapter.expectedChatId
  text : ¬blank claims.text

theorem positiveInt_eq_some {value : Option JsonText.Value} {n : ℤ} (is : positiveInt value = some n) : 0 < n := by
  unfold positiveInt at is
  split at is
  · split_ifs at is with positive
    cases is
    exact positive
  · cases is

theorem claimsFromMessage_trusted {updateId : ℤ} {message : Entries} (positive : 0 < updateId)
    (is : adapter.claimsFromMessage updateId message = .ok (some claims)) : claims.Trusted adapter := by
  unfold claimsFromMessage at is
  split at is
  · rename_i messageId sender chat replyTo text isMessage _ _ _ _
    split_ifs at is with refused
    · cases is
    · split at is
      · rename_i senderId chatId replyToMessageId _ _ isReply _
        obtain ⟨known, -, is⟩ := bind_eq_ok.mp is
        split_ifs at is with trusted
        · cases is
          exact ⟨⟨positive, positiveInt_eq_some isMessage, positiveInt_eq_some isReply⟩, trusted.2.1,
            trusted.2.2, fun empty => refused (.inl empty)⟩
        · cases is
      · cases is
  · cases is

theorem claimsFromBody_trusted (is : adapter.claimsFromBody loadJson body = .ok (some claims)) :
    claims.Trusted adapter := by
  obtain ⟨document, -, is⟩ := bind_eq_ok.mp is
  split at is
  · cases is
  · split_ifs at is
    · split at is
      · rename_i isUpdate _
        exact claimsFromMessage_trusted (positiveInt_eq_some isUpdate) is
      · cases is
    · cases is

def Secret (adapter : TelegramInboundAdapter) (header : Option String) : Prop :=
  header = adapter.webhookSecret ∧ adapter.webhookSecret.any (· ≠ "")

theorem authentic_eq_true (is : adapter.authentic header = .ok true) : Secret adapter header := by
  unfold authentic at is
  split at is
  · rename_i secret given isSecret
    split_ifs at is with empty
    · cases is
    · obtain ⟨_, -, same⟩ := bind_eq_ok.mp is
      have same : secret = given := of_decide_eq_true (pure_eq_ok.mp same)
      rw [Secret, isSecret, same]
      simp [← same, empty]
  · cases is

structure Received (loadJson : ByteArray → Result (Option Entries)) (hash : Dict → Result String)
    (hmac : String → Dict → Result String) (adapter : TelegramInboundAdapter) (body : ByteArray)
    (header : Option String) (row : Row) : Prop where
  secret : Secret adapter header
  reads : adapter.claimsFromBody loadJson body = .ok (some row.claims)
  updateHash : hash row.claims.canonicalDocument = .ok row.updateHash
  messageHash : hash row.claims.messageDocument = .ok row.messageHash
  mac : adapter.rowMac hmac row.claims none = .ok row.mac
  unconsumed : row.consumedAt = none

theorem received_eq_some (is : adapter.received loadJson hash hmac body header = .ok (some row)) :
    Received loadJson hash hmac adapter body header row := by
  obtain ⟨known, authentic, is⟩ := bind_eq_ok.mp is
  split_ifs at is with secret
  · cases is
  · subst secret
    obtain ⟨claims?, reads, is⟩ := bind_eq_ok.mp is
    split at is
    · cases is
    · rename_i claims
      obtain ⟨fresh, new, is⟩ := map_eq_ok.mp is
      simp only [newRow, bind_eq_ok, pure_eq_ok] at new
      obtain ⟨updateHash, isUpdate, messageHash, isMessage, mac, isMac, rfl⟩ := new
      cases is
      exact ⟨authentic_eq_true authentic, reads, isUpdate, isMessage, isMac, rfl⟩
  · cases is

theorem received_of_claims (authentic : adapter.authentic header = .ok true) (size : ¬(body.size =
    0 ∨ maxBodyBytes < body.size)) (reads : adapter.claimsFromBody loadJson body = .ok (some claims)) (new :
    adapter.newRow hash hmac claims = .ok row) : adapter.received loadJson hash hmac body header = .ok (some row) := by
  simp only [received, authentic, bind, Except.bind, if_true, if_neg size, reads, new]
  rfl

/-! ## What a call does -/

def Row.Storable (row : Row) : Prop :=
  storable row.claims.updateId = .ok () ∧ storable row.claims.replyToMessageId = .ok ()

def Known (journal : Journal) (row : Row) : Prop :=
  storable row.claims.updateId = .ok () ∧ ∃ other ∈ journal.replies.rows,
    other.claims.updateId = row.claims.updateId ∧ other.updateHash = row.updateHash

theorem journalRow_eq_ok {answer : Bool} (is : journalRow journal row = .ok (journal', answer)) :
    journal' = journal ∧ (answer = true → Known journal row) ∨
      ∃ fresh, row.Storable ∧ journal' = journal.insert row fresh ∧ answer = true := by
  obtain ⟨_, small, is⟩ := bind_eq_ok.mp is
  split at is
  · rename_i other found
    obtain ⟨member, same⟩ := Table.find?_eq_some.mp found
    cases pure_eq_ok.mp is
    exact .inl ⟨rfl, fun equal => ⟨small, other, member, same, of_decide_eq_true equal⟩⟩
  · obtain ⟨_, -, is⟩ := bind_eq_ok.mp is
    obtain ⟨_, reply, is⟩ := bind_eq_ok.mp is
    split_ifs at is with collides fresh
    · cases pure_eq_ok.mp is
      exact .inl ⟨rfl, nofun⟩
    · cases pure_eq_ok.mp is
      exact .inr ⟨fresh, ⟨small, reply⟩, rfl, rfl⟩
    · cases pure_eq_ok.mp is
      exact .inl ⟨rfl, nofun⟩

theorem ingestWebhook_received (is : adapter.received loadJson hash hmac body header = .ok (some row)) :
    adapter.ingestWebhook loadJson hash hmac journal failure body header =
      transaction journal failure false (journalRow journal row) := by
  rw [ingestWebhook, is]

theorem transaction_cases {α : Type} {refused : α} (body : Result (Journal × α)) :
    (transaction journal failure refused body).1 = journal ∧ ((transaction journal failure refused body).2 = .ok
    refused ∨ ∃ error, (transaction journal failure refused body).2 = .error error) ∨ ∃ answer, body = .ok ((transaction
    journal failure refused body).1, answer) ∧ (transaction journal failure refused body).2 = .ok answer := by
  unfold transaction
  split_ifs
  · exact .inl ⟨rfl, .inl rfl⟩
  · split
    · exact .inr ⟨_, rfl, rfl⟩
    · exact .inl ⟨rfl, .inr ⟨_, rfl⟩⟩

theorem ingestWebhook_cases : (adapter.ingestWebhook loadJson hash hmac journal failure body header).1 =
    journal ∧ ((adapter.ingestWebhook loadJson hash hmac journal failure body header).2 =
    .ok true → ∃ row, Received loadJson hash hmac adapter body header row ∧ Known journal row)
    ∨ ∃ row fresh, Received loadJson hash hmac adapter body header row ∧ row.Storable ∧
    adapter.ingestWebhook loadJson hash hmac journal failure body header = (journal.insert row fresh, .ok true) := by
  unfold ingestWebhook
  split
  · exact .inl ⟨rfl, nofun⟩
  · exact .inl ⟨rfl, nofun⟩
  · rename_i row is
    have received := received_eq_some is
    rcases @transaction_cases journal failure _ false (journalRow journal row) with
      ⟨same, answers⟩ | ⟨answer, ran, answers⟩
    · refine .inl ⟨same, fun accepted => ?_⟩
      rcases answers with answers | ⟨error, answers⟩ <;> rw [answers] at accepted <;> cases accepted
    · rcases journalRow_eq_ok ran with ⟨same, known⟩ | ⟨fresh, small, inserts, rfl⟩
      · refine .inl ⟨same, fun accepted => ⟨row, received, known ?_⟩⟩
        rw [answers] at accepted
        cases accepted
        rfl
      · exact .inr ⟨row, fresh, received, small, Prod.ext inserts answers⟩

theorem validatedClaims_eq_some (is : adapter.validatedClaims hash hmac row = .ok (some claims)) :
    claims = row.claims := by
  unfold validatedClaims at is
  split_ifs at is
  · obtain ⟨_, -, is⟩ := bind_eq_ok.mp is
    obtain ⟨_, -, is⟩ := bind_eq_ok.mp is
    obtain ⟨_, -, is⟩ := bind_eq_ok.mp is
    split_ifs at is
    · cases is
      rfl
    · cases is
  · cases is

theorem orNone_eq_some {α : Type} {result : Result (Option α)} {a : α} :
    orNone result = .ok (some a) ↔ result = .ok (some a) := by
  unfold orNone
  split
  · rfl
  · split_ifs <;> simp

theorem replyOf_eq_ok (is : replyOf claims = .ok reply) : reply.transport = "TELEGRAM" ∧
    reply.chatId = claims.chatId ∧ reply.senderId = claims.senderId ∧
    reply.messageId = claims.messageId ∧ reply.replyToMessageId = claims.replyToMessageId ∧
    reply.text = claims.text := by
  unfold replyOf at is
  split_ifs at is
  cases is
  exact ⟨rfl, rfl, rfl, rfl, rfl, rfl⟩

variable {delivered : String × ℤ}

theorem reply_eq_some :
    journal.reply delivered = some row ↔ row ∈ journal.replies.rows ∧ row.delivered = delivered := by
  constructor
  · intro found
    exact ⟨mem_of_find?_eq_some found, by simpa using find?_some found⟩
  · rintro ⟨member, rfl⟩
    cases found : journal.reply row.delivered with
    | none =>
      have absent := find?_eq_none.mp found row member
      simp at absent
    | some other =>
      have same : other.delivered = row.delivered := by simpa using find?_some found
      rw [inj_on_of_nodup_map journal.deliveries (mem_of_find?_eq_some found) member same]

structure Claimed (hmac : String → Dict → Result String) (adapter : TelegramInboundAdapter)
    (journal : Journal) (delivered : String × ℤ) (consumedAt : String) (row : Row)
    (consumedMac : String) (reply : AuthenticatedApprovalReply) : Prop where
  found : row ∈ journal.replies.rows ∧ row.delivered = delivered
  unconsumed : row.consumedAt = none
  mac : adapter.rowMac hmac row.claims (some consumedAt) = .ok consumedMac
  reply : replyOf row.claims = .ok reply

variable {consumedAt : String}

theorem claimRow_eq_ok {answer : Option AuthenticatedApprovalReply}
    (is : adapter.claimRow hash hmac journal chatId messageId consumedAt = .ok (journal', answer)) :
    journal' = journal ∧ answer = none ∨ ∃ row mac reply, Claimed hmac adapter journal (chatId, messageId) consumedAt
    row mac reply ∧ journal' = journal.consume row.claims.updateId row.mac consumedAt mac ∧ answer = some reply := by
  obtain ⟨_, -, is⟩ := bind_eq_ok.mp is
  split at is
  · cases pure_eq_ok.mp is
    exact .inl ⟨rfl, rfl⟩
  · rename_i row found
    obtain ⟨found, unconsumed⟩ := filter_eq_some_iff.mp found
    obtain ⟨claims?, valid, is⟩ := bind_eq_ok.mp is
    split at is
    · cases pure_eq_ok.mp is
      exact .inl ⟨rfl, rfl⟩
    · cases validatedClaims_eq_some valid
      obtain ⟨mac, isMac, is⟩ := bind_eq_ok.mp is
      split_ifs at is
      · obtain ⟨reply, isReply, is⟩ := bind_eq_ok.mp is
        cases pure_eq_ok.mp is
        exact .inr ⟨row, mac, reply, ⟨reply_eq_some.1 found, of_decide_eq_true unconsumed, isMac, isReply⟩, rfl, rfl⟩
      · cases pure_eq_ok.mp is
        exact .inl ⟨rfl, rfl⟩

theorem claimVerifiedReply_cases {consumedAt : String} : (adapter.claimVerifiedReply hash hmac journal failure
    chatId messageId consumedAt).1 = journal ∧ (∀ reply, (adapter.claimVerifiedReply hash hmac journal failure chatId
    messageId consumedAt).2 ≠ .ok (some reply)) ∨ ∃ row mac reply, Claimed hmac adapter journal (chatId, messageId)
    consumedAt row mac reply ∧ adapter.claimVerifiedReply hash hmac journal failure chatId messageId consumedAt =
    (journal.consume row.claims.updateId row.mac consumedAt mac, .ok (some reply)) := by
  unfold claimVerifiedReply
  split_ifs
  · rcases @transaction_cases journal failure _ none
        (adapter.claimRow hash hmac journal chatId messageId consumedAt) with
      ⟨same, answers⟩ | ⟨answer, ran, answers⟩
    · refine .inl ⟨same, fun reply claimed => ?_⟩
      rcases answers with answers | ⟨error, answers⟩ <;> rw [orNone_eq_some, answers] at claimed <;>
        cases claimed
    · rcases claimRow_eq_ok ran with ⟨same, rfl⟩ | ⟨row, mac, reply, claimed, consumes, rfl⟩
      · refine .inl ⟨same, fun reply claimed => ?_⟩
        rw [orNone_eq_some, answers] at claimed
        cases claimed
      · exact .inr ⟨row, mac, reply, claimed, Prod.ext consumes (orNone_eq_some.2 answers)⟩
  · exact .inl ⟨rfl, nofun⟩

theorem recoverVerifiedReply_eq_some (is : adapter.recoverVerifiedReply hash hmac journal failure chatId messageId =
    .ok (some reply)) : ∃ row ∈ journal.replies.rows,
    row.delivered = (chatId, messageId) ∧ row.consumedAt ≠ none ∧ replyOf row.claims = .ok reply := by
  unfold recoverVerifiedReply at is
  split_ifs at is
  · rw [orNone_eq_some] at is
    obtain ⟨_, -, is⟩ := bind_eq_ok.mp is
    split at is
    · cases is
    · rename_i row found
      obtain ⟨found, consumed⟩ := filter_eq_some_iff.mp found
      obtain ⟨claims?, valid, is⟩ := bind_eq_ok.mp is
      split at is
      · cases is
      · cases validatedClaims_eq_some valid
        obtain ⟨_, isReply, same⟩ := map_eq_ok.mp is
        cases same
        obtain ⟨member, same⟩ := reply_eq_some.1 found
        exact ⟨row, member, same, of_decide_eq_true consumed, isReply⟩
  · cases is

theorem revalidateReply_eq_some {document : JsonText.Value}
    (is : adapter.revalidateReply hash hmac journal failure document = .ok (some reply)) :
    ∃ entries chatId replyTo, document = .obj entries ∧ entries.lookup "chat_id" = some (.str chatId) ∧
      entries.lookup "reply_to_message_id" = some (.int replyTo) ∧
      adapter.recoverVerifiedReply hash hmac journal failure chatId replyTo = .ok (some reply) := by
  unfold revalidateReply at is
  split at is
  · rename_i entries
    split_ifs at is
    · split at is
      · rename_i chatId replyTo isChat isReply
        obtain ⟨found, recovered, is⟩ := bind_eq_ok.mp is
        obtain ⟨rfl, -⟩ := filter_eq_some_iff.mp (pure_eq_ok.mp is)
        exact ⟨entries, chatId, replyTo, rfl, isChat, isReply, recovered⟩
      · cases is
    · cases is
  · cases is

variable {mac : String} {other : Row}

theorem mem_consume {updateId : ℤ} {consumedMac : String} :
    other ∈ (journal.consume updateId mac consumedAt consumedMac).replies.rows ↔
      ∃ old ∈ journal.replies.rows, (if selects updateId mac old then
        { old with consumedAt := some consumedAt, mac := consumedMac } else old) = other :=
  mem_map

theorem Claimed.mem_consume (claimed : Claimed hmac adapter journal delivered consumedAt row mac reply) :
    other ∈ (journal.consume row.claims.updateId row.mac consumedAt mac).replies.rows ↔
      other = { row with consumedAt := some consumedAt, mac := mac } ∨
        other ∈ journal.replies.rows ∧ other.delivered ≠ delivered := by
  have selected : selects row.claims.updateId row.mac row = true := by
    simp [selects, claimed.unconsumed]
  have only : ∀ old ∈ journal.replies.rows, selects row.claims.updateId row.mac old = true → old = row := by
    intro old member selects
    simp only [Journal.selects, decide_eq_true_eq] at selects
    exact Table.eq_of_key (t := journal.replies) member claimed.found.1 selects.1
  rw [Approval.mem_consume]
  constructor
  · rintro ⟨old, member, rfl⟩
    split_ifs with selects
    · rw [only old member selects]
      exact .inl rfl
    · refine .inr ⟨member, fun same => selects ?_⟩
      have equal := inj_on_of_nodup_map journal.deliveries member claimed.found.1 (same.trans claimed.found.2.symm)
      rw [equal]
      exact selected
  · rintro (rfl | ⟨member, different⟩)
    · exact ⟨row, claimed.found.1, if_pos selected⟩
    · refine ⟨other, member, if_neg fun selects => different ?_⟩
      rw [only other member selects]
      exact claimed.found.2

/-! ## Histories -/

inductive Call where
  | ingest (body : ByteArray) (secretHeader : Option String)
  | claim (chatId : String) (messageId : ℤ) (consumedAt : String)
  | recover (chatId : String) (messageId : ℤ)
  | revalidate (document : JsonText.Value)

inductive Answer where
  | accepted (answer : Result Bool)
  | replied (answer : Result (Option AuthenticatedApprovalReply))
  deriving DecidableEq

structure Event where
  call : Call
  failure : Bool
  answer : Answer

section Histories
variable (loadJson : ByteArray → Result (Option Entries)) (hash : Dict → Result String)
  (hmac : String → Dict → Result String) (adapter : TelegramInboundAdapter)

def perform (journal : Journal) (failure : Bool) : Call → Journal × Answer
  | .ingest body header =>
    (adapter.ingestWebhook loadJson hash hmac journal failure body header).map id .accepted
  | .claim chatId messageId consumedAt =>
    (adapter.claimVerifiedReply hash hmac journal failure chatId messageId consumedAt).map id .replied
  | .recover chatId messageId =>
    (journal, .replied (adapter.recoverVerifiedReply hash hmac journal failure chatId messageId))
  | .revalidate document =>
    (journal, .replied (adapter.revalidateReply hash hmac journal failure document))

/-- The calls of all processes on one journal, the last one first. Every call is one transaction; a call
that is interrupted after it is a call whose answer is not heard. -/
inductive History : List Event → Journal → Prop
  | start : History [] .empty
  | call {events : List Event} {journal : Journal} (past : History events journal) (call : Call)
      (failure : Bool) : History
        (⟨call, failure, (perform loadJson hash hmac adapter journal failure call).2⟩ :: events)
        (perform loadJson hash hmac adapter journal failure call).1

end Histories

def Call.names : Call → String × ℤ → Prop
  | .ingest .., _ => False
  | .claim chatId messageId _, delivered => delivered = (chatId, messageId)
  | .recover chatId messageId, delivered => delivered = (chatId, messageId)
  | .revalidate document, delivered => ∃ entries, document = .obj entries ∧
      entries.lookup "chat_id" = some (.str delivered.1) ∧
      entries.lookup "reply_to_message_id" = some (.int delivered.2)

def Event.returns (event : Event) (reply : AuthenticatedApprovalReply) : Prop :=
  event.answer = .replied (.ok (some reply))

def Event.takes (delivered : String × ℤ) : Event → Bool
  | ⟨.claim chatId messageId _, _, .replied (.ok (some _))⟩ => (chatId, messageId) = delivered
  | _ => false

def Event.ingests (loadJson : ByteArray → Result (Option Entries)) (hash : Dict → Result String)
    (hmac : String → Dict → Result String) (adapter : TelegramInboundAdapter) (event : Event)
    (row : Row) : Prop :=
  ∃ body header, event.call = .ingest body header ∧ event.answer = .accepted (.ok true) ∧
    Received loadJson hash hmac adapter body header row

theorem Received.unique (received : Received loadJson hash hmac adapter body header row)
    (again : Received loadJson hash hmac adapter body header other) : other = row := by
  obtain ⟨-, reads, update, message, mac, none⟩ := received
  obtain ⟨-, reads', update', message', mac', none'⟩ := again
  obtain ⟨claims, updateHash, messageHash, rowMac, consumedAt⟩ := row
  obtain ⟨claims', updateHash', messageHash', rowMac', consumedAt'⟩ := other
  cases reads.symm.trans reads'
  cases update.symm.trans update'
  cases message.symm.trans message'
  cases mac.symm.trans mac'
  cases none
  cases none'
  rfl

theorem takes_eq_true {event : Event} : event.takes delivered = true ↔ ∃ consumedAt reply,
      event.call = .claim delivered.1 delivered.2 consumedAt ∧ event.returns reply := by
  obtain ⟨call, failure, answer⟩ := event
  constructor
  · intro takes
    unfold Event.takes at takes
    split at takes
    · rename_i is
      cases is
      cases of_decide_eq_true takes
      exact ⟨_, _, rfl, rfl⟩
    · cases takes
  · rintro ⟨consumedAt, reply, rfl, is⟩
    cases is
    exact decide_eq_true rfl

/-- A call that leaves the journal, one that adds a row, and one that consumes a row. -/
inductive Change (loadJson : ByteArray → Result (Option Entries)) (hash : Dict → Result String)
    (hmac : String → Dict → Result String) (adapter : TelegramInboundAdapter) (journal : Journal) :
    Event → Journal → Prop
  | leaves {event : Event} (takes : ∀ delivered, event.takes delivered = false)
      (ingests : ∀ row, event.ingests loadJson hash hmac adapter row → Known journal row) :
      Change loadJson hash hmac adapter journal event journal
  | adds {body : ByteArray} {header : Option String} {failure : Bool} {row : Row}
      (received : Received loadJson hash hmac adapter body header row)
      (small : row.Storable) (fresh : journal.Fresh row) :
      Change loadJson hash hmac adapter journal ⟨.ingest body header, failure, .accepted (.ok true)⟩
        (journal.insert row fresh)
  | consumes {delivered : String × ℤ} {consumedAt mac : String} {failure : Bool} {row : Row}
      {reply : AuthenticatedApprovalReply}
      (claimed : Claimed hmac adapter journal delivered consumedAt row mac reply) :
      Change loadJson hash hmac adapter journal
        ⟨.claim delivered.1 delivered.2 consumedAt, failure, .replied (.ok (some reply))⟩
        (journal.consume row.claims.updateId row.mac consumedAt mac)

theorem perform_change (call : Call) : Change loadJson hash hmac adapter journal ⟨call, failure, (perform loadJson
    hash hmac adapter journal failure call).2⟩ (perform loadJson hash hmac adapter journal failure call).1 := by
  cases call with
  | ingest body header =>
    rcases @ingestWebhook_cases loadJson hash hmac adapter journal body header failure with
      ⟨same, known⟩ | ⟨row, fresh, received, small, is⟩
    · simp only [perform, map_fst, map_snd, same, id]
      refine .leaves (fun _ => rfl) ?_
      rintro row ⟨_, _, call, answer, received⟩
      cases call
      obtain ⟨other, again, is⟩ := known (Answer.accepted.inj answer)
      cases received.unique again
      exact is
    · simp only [perform, is, Prod.map_apply, id]
      exact .adds received small fresh
  | claim chatId messageId consumedAt =>
    rcases @claimVerifiedReply_cases hash hmac adapter journal failure chatId messageId consumedAt with
      ⟨same, none⟩ | ⟨row, mac, reply, claimed, is⟩
    · simp only [perform, map_fst, map_snd, same, id]
      refine .leaves (fun delivered => ?_) ?_
      · rw [Bool.eq_false_iff]
        intro takes
        obtain ⟨_, reply, -, returns⟩ := takes_eq_true.1 takes
        exact none reply (Answer.replied.inj returns)
      · rintro row ⟨_, _, call, -⟩
        cases call
    · simp only [perform, is, Prod.map_apply, id]
      exact .consumes claimed
  | recover chatId messageId =>
    refine .leaves (fun _ => rfl) ?_
    rintro row ⟨_, _, call, -⟩
    cases call
  | revalidate document =>
    refine .leaves (fun _ => rfl) ?_
    rintro row ⟨_, _, call, -⟩
    cases call

/-! ## The invariant -/

def Event.TakesFrom (event : Event) (row : Row) : Prop :=
  event.takes row.delivered = true ∧ ∃ reply, event.returns reply ∧ replyOf row.claims = .ok reply

structure Sound (loadJson : ByteArray → Result (Option Entries)) (hash : Dict → Result String)
    (hmac : String → Dict → Result String) (adapter : TelegramInboundAdapter) (events : List Event)
    (journal : Journal) : Prop where
  origin : ∀ row ∈ journal.replies.rows, ∃ event ∈ events, ∃ fresh,
    event.ingests loadJson hash hmac adapter fresh ∧ fresh.claims = row.claims ∧
      fresh.updateHash = row.updateHash ∧ fresh.messageHash = row.messageHash
  mac : ∀ row ∈ journal.replies.rows, adapter.rowMac hmac row.claims row.consumedAt = .ok row.mac
  small : ∀ row ∈ journal.replies.rows, row.Storable
  kept : ∀ event ∈ events, ∀ row, event.ingests loadJson hash hmac adapter row → Known journal row
  unclaimed : ∀ row ∈ journal.replies.rows, row.consumedAt = none →
    ∀ event ∈ events, event.takes row.delivered = false
  claimed : ∀ row ∈ journal.replies.rows, row.consumedAt ≠ none → ∃ event ∈ events, event.TakesFrom row
  taken : ∀ event ∈ events, ∀ delivered, event.takes delivered = true → ∃ row ∈ journal.replies.rows,
    row.delivered = delivered ∧ row.consumedAt ≠ none ∧ event.TakesFrom row
  once : ∀ delivered, events.countP (Event.takes delivered) ≤ 1

section Steps
variable {events : List Event} {event : Event}

theorem Sound.empty : Sound loadJson hash hmac adapter [] .empty where
  origin := forall_mem_nil _
  mac := forall_mem_nil _
  small := forall_mem_nil _
  kept := forall_mem_nil _
  unclaimed := forall_mem_nil _
  claimed := forall_mem_nil _
  taken := forall_mem_nil _
  once _ := Nat.zero_le 1

section
variable (sound : Sound loadJson hash hmac adapter events journal)
include sound

theorem Sound.leaves
    (takes : ∀ delivered, event.takes delivered = false)
    (ingests : ∀ row, event.ingests loadJson hash hmac adapter row → Known journal row) :
    Sound loadJson hash hmac adapter (event :: events) journal where
  origin row member := by
    obtain ⟨origin, earlier, is⟩ := sound.origin row member
    exact ⟨origin, .tail _ earlier, is⟩
  mac := sound.mac
  small := sound.small
  kept := forall_mem_cons.mpr ⟨ingests, sound.kept⟩
  unclaimed row member none := forall_mem_cons.mpr ⟨takes _, sound.unclaimed row member none⟩
  claimed row member consumed := by
    obtain ⟨claim, earlier, is⟩ := sound.claimed row member consumed
    exact ⟨claim, .tail _ earlier, is⟩
  taken := by
    refine forall_mem_cons.mpr ⟨fun delivered took => ?_, sound.taken⟩
    rw [takes] at took
    cases took
  once delivered := by
    rw [countP_cons_of_neg (by simp [takes])]
    exact sound.once delivered

theorem Sound.adds
    (received : Received loadJson hash hmac adapter body header row)
    (small : row.Storable) (fresh : journal.Fresh row) :
    Sound loadJson hash hmac adapter
      (⟨.ingest body header, failure, .accepted (.ok true)⟩ :: events) (journal.insert row fresh) where
  origin := by
    refine forall_mem_cons.mpr ⟨?_, fun other member => ?_⟩
    · exact ⟨_, .head _, row, ⟨body, header, rfl, rfl, received⟩, rfl, rfl, rfl⟩
    · obtain ⟨origin, earlier, is⟩ := sound.origin other member
      exact ⟨origin, .tail _ earlier, is⟩
  mac := by
    refine forall_mem_cons.mpr ⟨?_, sound.mac⟩
    rw [received.unconsumed]
    exact received.mac
  small := forall_mem_cons.mpr ⟨small, sound.small⟩
  kept := by
    refine forall_mem_cons.mpr ⟨?_, fun event member other ingests => ?_⟩
    · rintro other ⟨_, _, call, -, again⟩
      cases call
      cases received.unique again
      exact ⟨small.1, row, .head _, rfl, rfl⟩
    · obtain ⟨small, old, member, same⟩ := sound.kept event member other ingests
      exact ⟨small, old, .tail _ member, same⟩
  unclaimed := by
    refine forall_mem_cons.mpr ⟨fun _ => forall_mem_cons.mpr ⟨rfl, fun event member => ?_⟩,
      fun other member none => forall_mem_cons.mpr ⟨rfl, sound.unclaimed other member none⟩⟩
    rw [Bool.eq_false_iff]
    intro takes
    obtain ⟨other, found, same, -⟩ := sound.taken event member _ takes
    exact (fresh other found).2.2 same
  claimed := by
    refine forall_mem_cons.mpr ⟨fun consumed => absurd received.unconsumed consumed,
      fun other member consumed => ?_⟩
    obtain ⟨claim, earlier, is⟩ := sound.claimed other member consumed
    exact ⟨claim, .tail _ earlier, is⟩
  taken := by
    refine forall_mem_cons.mpr ⟨nofun, fun event member delivered takes => ?_⟩
    obtain ⟨other, found, is⟩ := sound.taken event member delivered takes
    exact ⟨other, .tail _ found, is⟩
  once delivered := by
    rw [countP_cons_of_neg (by simp [Event.takes])]
    exact sound.once delivered

theorem Sound.consumes (claimed : Claimed hmac adapter journal
    delivered consumedAt row mac reply) : Sound loadJson hash hmac adapter (⟨.claim delivered.1 delivered.2 consumedAt,
    failure, .replied (.ok (some reply))⟩ :: events) (journal.consume row.claims.updateId row.mac consumedAt mac) := by
  have same := claimed.found.2
  -- no earlier call took the reply, since its row was not consumed
  have first : ∀ event ∈ events, event.takes delivered = false :=
    same ▸ sound.unclaimed row claimed.found.1 claimed.unconsumed
  have takes : (⟨.claim delivered.1 delivered.2 consumedAt, failure, .replied (.ok (some reply))⟩ :
      Event).takes delivered = true := decide_eq_true rfl
  have other : ∀ delivered', delivered' ≠ delivered →
      (⟨.claim delivered.1 delivered.2 consumedAt, failure, .replied (.ok (some reply))⟩ :
        Event).takes delivered' = false := fun _ different => decide_eq_false different.symm
  refine ⟨?_, ?_, ?_, ?_, ?_, ?_, ?_, ?_⟩
  · intro changed member
    rcases claimed.mem_consume.1 member with rfl | ⟨old, -⟩
    · obtain ⟨origin, earlier, is⟩ := sound.origin row claimed.found.1
      exact ⟨origin, .tail _ earlier, is⟩
    · obtain ⟨origin, earlier, is⟩ := sound.origin changed old
      exact ⟨origin, .tail _ earlier, is⟩
  · intro changed member
    rcases claimed.mem_consume.1 member with rfl | ⟨old, -⟩
    · exact claimed.mac
    · exact sound.mac changed old
  · intro changed member
    rcases claimed.mem_consume.1 member with rfl | ⟨old, -⟩
    · exact sound.small row claimed.found.1
    · exact sound.small changed old
  · refine forall_mem_cons.mpr ⟨?_, fun event member update ingests => ?_⟩
    · rintro update ⟨_, _, call, -⟩
      cases call
    · obtain ⟨small, old, found, is⟩ := sound.kept event member update ingests
      refine ⟨small, ?_⟩
      by_cases at_delivered : old.delivered = delivered
      · have equal := inj_on_of_nodup_map journal.deliveries found claimed.found.1
          (at_delivered.trans same.symm)
        rw [equal] at is
        exact ⟨_, claimed.mem_consume.2 (.inl rfl), is⟩
      · exact ⟨old, claimed.mem_consume.2 (.inr ⟨found, at_delivered⟩), is⟩
  · intro changed member none
    rcases claimed.mem_consume.1 member with rfl | ⟨old, different⟩
    · cases none
    · exact forall_mem_cons.mpr ⟨other _ different, sound.unclaimed changed old none⟩
  · intro changed member consumed
    rcases claimed.mem_consume.1 member with rfl | ⟨old, -⟩
    · refine ⟨_, .head _, ?_, reply, rfl, claimed.reply⟩
      change Event.takes row.delivered _ = true
      rw [same]
      exact takes
    · obtain ⟨claim, earlier, is⟩ := sound.claimed changed old consumed
      exact ⟨claim, .tail _ earlier, is⟩
  · refine forall_mem_cons.mpr ⟨fun delivered' took => ?_, fun event member delivered' took => ?_⟩
    · obtain rfl : delivered' = delivered := by
        by_contra different
        rw [other _ different] at took
        cases took
      refine ⟨_, claimed.mem_consume.2 (.inl rfl), same, nofun, ?_, reply, rfl, claimed.reply⟩
      change Event.takes row.delivered _ = true
      rw [same]
      exact takes
    · obtain ⟨old, found, rfl, is⟩ := sound.taken event member delivered' took
      refine ⟨old, claimed.mem_consume.2 (.inr ⟨found, fun at_delivered => ?_⟩), rfl, is⟩
      rw [at_delivered, first event member] at took
      cases took
  · intro delivered'
    by_cases at_delivered : delivered' = delivered
    · have none : events.countP (Event.takes delivered) = 0 :=
        countP_eq_zero.mpr fun event member => by simp [first event member]
      rw [at_delivered, countP_cons_of_pos takes, none]
    · rw [countP_cons_of_neg (by simp [other _ at_delivered])]
      exact sound.once delivered'

theorem Sound.change (change : Change loadJson
    hash hmac adapter journal event journal') : Sound loadJson hash hmac adapter (event :: events) journal' := by
  cases change with
  | leaves takes ingests => exact sound.leaves takes ingests
  | adds received small fresh => exact sound.adds received small fresh
  | consumes claimed => exact sound.consumes claimed

end

theorem Sound.history (history : History loadJson hash hmac adapter events journal) :
    Sound loadJson hash hmac adapter events journal := by
  induction history with
  | start => exact .empty
  | call past call failure sound => exact sound.change (perform_change call)

theorem Sound.valid (sound : Sound loadJson hash hmac adapter events journal) (member : row ∈ journal.replies.rows) :
    adapter.validatedClaims hash hmac row = .ok (some row.claims) := by
  obtain ⟨event, -, fresh, ⟨body, header, -, -, received⟩, same, update, message⟩ :=
    sound.origin row member
  have positive := (claimsFromBody_trusted received.reads).positive
  have isUpdate := received.updateHash
  have isMessage := received.messageHash
  rw [same] at positive isUpdate isMessage
  unfold validatedClaims
  rw [if_pos positive, isUpdate, isMessage, sound.mac row member, update, message]
  simp [bind, Except.bind, pure, Except.pure]

theorem Sound.recovers (sound : Sound loadJson hash hmac adapter events journal) (member : row ∈ journal.replies.rows)
    (consumed : row.consumedAt ≠ none) (is : replyOf row.claims = .ok reply) : adapter.recoverVerifiedReply
    hash hmac journal false row.claims.chatId row.claims.replyToMessageId = .ok (some reply) := by
  obtain ⟨event, -, fresh, ⟨body, header, -, -, received⟩, same, -⟩ := sound.origin row member
  have trusted := claimsFromBody_trusted received.reads
  rw [same] at trusted
  have asks : adapter.asks row.claims.chatId row.claims.replyToMessageId = true :=
    decide_eq_true ⟨received.secret.2, trusted.chat, trusted.positive.2.2⟩
  have found : (journal.reply (row.claims.chatId, row.claims.replyToMessageId)).filter
      (fun row => row.consumedAt ≠ none) = some row :=
    filter_eq_some_iff.mpr ⟨reply_eq_some.2 ⟨member, rfl⟩, decide_eq_true consumed⟩
  rw [recoverVerifiedReply, if_pos ⟨asks, nofun⟩, orNone_eq_some, consumedReply, (sound.small row member).2]
  simp only [bind, Except.bind, found, sound.valid member, is]
  rfl

theorem history_suffix {earlier : List Event} (history : History loadJson hash hmac adapter events journal)
    (before : event :: earlier <:+ events) : ∃ journal, History loadJson hash hmac adapter earlier journal ∧
    event.answer = (perform loadJson hash hmac adapter journal event.failure event.call).2 := by
  induction history with
  | start => cases suffix_nil.mp before
  | call past call failure ih =>
    rcases suffix_cons_iff.mp before with same | before
    · cases same
      exact ⟨_, past, rfl⟩
    · exact ih before

theorem returns_row (answer : event.answer = (perform loadJson hash hmac adapter journal event.failure event.call).2)
    (returns : event.returns reply) : ∃ row ∈ journal.replies.rows, event.call.names row.delivered ∧
      replyOf row.claims = .ok reply ∧ (event.takes row.delivered = true ∨ row.consumedAt ≠ none) := by
  obtain ⟨call, failure, given⟩ := event
  cases returns
  cases call with
  | ingest body header => cases answer
  | claim chatId messageId consumedAt =>
    have is : (adapter.claimVerifiedReply hash hmac journal failure chatId messageId consumedAt).2 =
        .ok (some reply) := (Answer.replied.inj answer).symm
    rcases @claimVerifiedReply_cases hash hmac adapter journal failure chatId messageId consumedAt with
      ⟨-, none⟩ | ⟨row, mac, taken, claimed, same⟩
    · exact absurd is (none reply)
    · rw [same] at is
      cases is
      exact ⟨row, claimed.found.1, claimed.found.2, claimed.reply, .inl (decide_eq_true claimed.found.2.symm)⟩
  | recover chatId messageId =>
    have is := (Answer.replied.inj answer).symm
    obtain ⟨row, member, same, consumed, is⟩ := recoverVerifiedReply_eq_some is
    exact ⟨row, member, same, is, .inr consumed⟩
  | revalidate document =>
    have is := (Answer.replied.inj answer).symm
    obtain ⟨entries, chatId, replyTo, rfl, isChat, isReply, is⟩ := revalidateReply_eq_some is
    obtain ⟨row, member, same, consumed, is⟩ := recoverVerifiedReply_eq_some is
    refine ⟨row, member, ⟨entries, rfl, ?_⟩, is, .inr consumed⟩
    rw [same]
    exact ⟨isChat, isReply⟩

end Steps

/-! ## Consumed once -/

structure ReplyClaims.Shows (claims : ReplyClaims) (reply : AuthenticatedApprovalReply) : Prop where
  transport : reply.transport = "TELEGRAM"
  chat : reply.chatId = claims.chatId
  sender : reply.senderId = claims.senderId
  message : reply.messageId = claims.messageId
  replyTo : reply.replyToMessageId = claims.replyToMessageId
  text : reply.text = claims.text

structure ConsumedOnce (loadJson : ByteArray → Result (Option Entries)) (hash : Dict → Result String)
    (hmac : String → Dict → Result String) (adapter : TelegramInboundAdapter) (events : List Event)
    (journal : Journal) : Prop where
  once : ∀ delivered, events.countP (Event.takes delivered) ≤ 1
  authentic : ∀ event earlier reply, event :: earlier <:+ events → event.returns reply →
    ∃ ingestion ∈ earlier, ∃ body header claims, ingestion.call = .ingest body header ∧
      ingestion.answer = .accepted (.ok true) ∧ Secret adapter header ∧
      adapter.claimsFromBody loadJson body = .ok (some claims) ∧
      claims.senderId ∈ adapter.trustedSenderIds ∧ claims.chatId = adapter.expectedChatId ∧
      event.call.names (claims.chatId, claims.replyToMessageId) ∧ claims.Shows reply
  claimed : ∀ event earlier reply, event :: earlier <:+ events → event.returns reply →
    (∀ chatId messageId consumedAt, event.call ≠ .claim chatId messageId consumedAt) →
    ∃ claim ∈ earlier, ∃ delivered, event.call.names delivered ∧ claim.takes delivered = true ∧
      claim.returns reply
  same : ∀ a ∈ events, ∀ b ∈ events, ∀ delivered x y, a.call.names delivered → b.call.names delivered →
    a.returns x → b.returns y → x = y
  recovers : ∀ claim ∈ events, ∀ delivered reply, claim.takes delivered = true → claim.returns reply →
    adapter.recoverVerifiedReply hash hmac journal false delivered.1 delivered.2 = .ok (some reply)
  revalidates : ∀ claim ∈ events, ∀ delivered reply document, claim.takes delivered = true →
    claim.returns reply → hasKeys document AuthenticatedApprovalReply.keys = true →
    document.lookup "reply_to_message_id" = some (.int delivered.2) → reply.equals document = true →
    adapter.revalidateReply hash hmac journal false (.obj document) = .ok (some reply)
  replay : ∀ ingestion ∈ events, ∀ row, ingestion.ingests loadJson hash hmac adapter row →
    ∀ body header again, adapter.received loadJson hash hmac body header = .ok (some again) →
    again.claims = row.claims →
    adapter.ingestWebhook loadJson hash hmac journal false body header = (journal, .ok true)

theorem names_unique {call : Call} {other : String × ℤ} (names : call.names delivered)
    (again : call.names other) : other = delivered := by
  cases call with
  | ingest => cases names
  | claim => exact again.trans names.symm
  | recover => exact again.trans names.symm
  | revalidate document =>
    obtain ⟨entries, rfl, chat, replyTo⟩ := names
    obtain ⟨_, same, chat', replyTo'⟩ := again
    cases same
    have chats := chat.symm.trans chat'
    have replies := replyTo.symm.trans replyTo'
    simp only [some.injEq, str.injEq, int.injEq] at chats replies
    exact Prod.ext chats.symm replies.symm

theorem equalsStr_eq_true {text : String} {value : Option JsonText.Value}
    (equals : value.any (equalsStr text) = true) : value = some (.str text) := by
  obtain ⟨found, rfl, equals⟩ := (any_eq_true _ _).mp equals
  cases found with
  | str other =>
    rw [of_decide_eq_true equals]
  | _ => cases equals

theorem consumed_once {events : List Event} (history : History loadJson hash hmac adapter events journal) :
    ConsumedOnce loadJson hash hmac adapter events journal := by
  have sound := Sound.history history
  -- every reply that is returned is that of a claim, the event itself or an earlier one
  have claimedBy : ∀ event earlier reply, event :: earlier <:+ events → event.returns reply →
      ∃ delivered, event.call.names delivered ∧ (event.takes delivered = true ∨
        ∃ claim ∈ earlier, claim.takes delivered = true ∧ claim.returns reply) := by
    intro event earlier reply before returns
    obtain ⟨journal, past, answer⟩ := history_suffix history before
    obtain ⟨row, member, names, is, takes | consumed⟩ := returns_row answer returns
    · exact ⟨row.delivered, names, .inl takes⟩
    · obtain ⟨claim, earlier, takes, taken, returned, same⟩ := (Sound.history past).claimed row member consumed
      cases is.symm.trans same
      exact ⟨row.delivered, names, .inr ⟨claim, earlier, takes, returned⟩⟩
  refine ⟨sound.once, ?_, ?_, ?_, ?_, ?_, ?_⟩
  · intro event earlier reply before returns
    obtain ⟨journal, past, answer⟩ := history_suffix history before
    obtain ⟨row, member, names, is, -⟩ := returns_row answer returns
    obtain ⟨ingestion, ingested, fresh, ⟨body, header, call, accepted, received⟩, same, -⟩ :=
      (Sound.history past).origin row member
    have trusted := claimsFromBody_trusted received.reads
    rw [same] at trusted
    obtain ⟨transport, chat, sender, message, replyTo, text⟩ := replyOf_eq_ok is
    exact ⟨ingestion, ingested, body, header, row.claims, call, accepted, received.secret,
      same ▸ received.reads, trusted.sender, trusted.chat, names,
      ⟨transport, chat, sender, message, replyTo, text⟩⟩
  · intro event earlier reply before returns reads
    obtain ⟨delivered, names, takes | ⟨claim, member, is⟩⟩ := claimedBy event earlier reply before returns
    · obtain ⟨consumedAt, _, call, -⟩ := takes_eq_true.1 takes
      exact absurd call (reads _ _ _)
    · exact ⟨claim, member, delivered, names, is⟩
  · intro a memberA b memberB delivered x y namesA namesB returnsA returnsB
    have row : ∀ event ∈ events, ∀ reply, event.call.names delivered → event.returns reply →
        ∃ row ∈ journal.replies.rows, row.delivered = delivered ∧ replyOf row.claims = .ok reply := by
      intro event member reply names returns
      obtain ⟨later, earlier, rfl⟩ := append_of_mem member
      obtain ⟨delivered', names', is⟩ :=
        claimedBy event earlier reply (suffix_append later _) returns
      cases names_unique names names'
      have claim : ∃ claim ∈ later ++ event :: earlier, claim.takes delivered = true ∧ claim.returns reply := by
        rcases is with takes | ⟨claim, earlier, is⟩
        · exact ⟨event, member, takes, returns⟩
        · exact ⟨claim, mem_append_right _ (.tail _ earlier), is⟩
      obtain ⟨claim, member, takes, returns⟩ := claim
      obtain ⟨row, found, same, -, -, _, returned, is⟩ := sound.taken claim member delivered takes
      cases returns.symm.trans returned
      exact ⟨row, found, same, is⟩
    obtain ⟨rowA, foundA, sameA, isA⟩ := row a memberA x namesA returnsA
    obtain ⟨rowB, foundB, sameB, isB⟩ := row b memberB y namesB returnsB
    cases inj_on_of_nodup_map journal.deliveries foundA foundB (sameA.trans sameB.symm)
    exact Except.ok.inj (isA.symm.trans isB)
  · intro claim member delivered reply takes returns
    obtain ⟨row, found, rfl, consumed, -, returned, again, is⟩ := sound.taken claim member delivered takes
    cases returns.symm.trans again
    exact sound.recovers found consumed is
  · intro claim member delivered reply document takes returns keys replyTo equals
    obtain ⟨row, found, rfl, consumed, -, returned, again, is⟩ := sound.taken claim member delivered takes
    cases returns.symm.trans again
    have recovers := sound.recovers found consumed is
    have parts := equals
    simp only [AuthenticatedApprovalReply.equals, Bool.and_eq_true] at parts
    obtain ⟨⟨⟨⟨⟨transport, chat⟩, -⟩, -⟩, -⟩, -⟩ := parts
    rw [(replyOf_eq_ok is).1] at transport
    rw [(replyOf_eq_ok is).2.1] at chat
    rw [revalidateReply, if_pos ⟨keys, transport⟩]
    simp only [equalsStr_eq_true chat, replyTo]
    change (adapter.recoverVerifiedReply hash hmac journal false row.claims.chatId
      row.claims.replyToMessageId >>= _) = _
    rw [recovers]
    simp [bind, Except.bind, pure, Except.pure, filter, equals]
  · rintro ingestion member row ingests body header again is same
    obtain ⟨small, old, found, update, equal⟩ := sound.kept ingestion member row ingests
    obtain ⟨_, _, -, -, received⟩ := ingests
    have hashes : again.updateHash = row.updateHash := by
      have hash := (received_eq_some is).updateHash
      rw [same, received.updateHash] at hash
      exact (Except.ok.inj hash).symm
    have known : journal.replies.find? again.claims.updateId = some old := by
      rw [same]
      exact Table.find?_eq_some.mpr ⟨found, update⟩
    have small : storable again.claims.updateId = .ok () := by rwa [same]
    simp [ingestWebhook, is, transaction, journalRow, small, known, equal, hashes, bind, Except.bind, pure, Except.pure]

def sampleText : String :=
  "\x7b\"update_id\":1,\"message\":\x7b\"message_id\":99,\"from\":\x7b\"id\":20002,\"is_bot\":false\x7d," ++
  "\"chat\":\x7b\"id\":10001,\"type\":\"private\"\x7d,\"reply_to_message\":\x7b\"message_id\":42\x7d," ++
  "\"text\":\"APROVAR THUMBNAIL EP8\"\x7d\x7d"

def sampleDocument : Entries :=
  [("update_id", .int 1), ("message", .obj [("message_id", .int 99),
    ("from", .obj [("id", .int 20002), ("is_bot", .bool false)]),
    ("chat", .obj [("id", .int 10001), ("type", .str "private")]),
    ("reply_to_message", .obj [("message_id", .int 42)]), ("text", .str "APROVAR THUMBNAIL EP8")])]

def sampleJson (body : ByteArray) : Result (Option Entries) :=
  .ok (if String.fromUTF8? body = some sampleText then some sampleDocument else none)

def sampleDigest (_ : Dict) : Result String := .ok "5f"

def sampleAdapter : TelegramInboundAdapter where
  expectedChatId := "10001"
  trustedSenderIds := ["20002"]
  webhookSecret := some "external-secret"
  chat := ⟨10001, by decide, by decide⟩
  senders := ⟨by decide, by simpa using ⟨20002, by decide, by decide⟩⟩

def sampleClaims : ReplyClaims := ⟨1, 99, "10001", "20002", 42, "APROVAR THUMBNAIL EP8"⟩

def sampleReply : AuthenticatedApprovalReply :=
  ⟨"TELEGRAM", "10001", "20002", 99, 42, "APROVAR THUMBNAIL EP8", by decide⟩

theorem sampleText_claims : sampleAdapter.claimsFromBody sampleJson sampleText.toUTF8 = .ok (some sampleClaims) := by
  have reads : sampleJson sampleText.toUTF8 = .ok (some sampleDocument) :=
    congrArg Except.ok (if_pos (JsonText.fromUTF8_toUTF8 sampleText))
  rw [claimsFromBody, reads]
  decide

def sampleRow : Row := ⟨sampleClaims, "5f", "5f", "5f", none⟩

theorem sampleText_received : sampleAdapter.received sampleJson sampleDigest (fun _ => sampleDigest)
    sampleText.toUTF8 (some "external-secret") = .ok (some sampleRow) :=
  received_of_claims (by decide) (by decide +kernel) sampleText_claims rfl

def sampleJournal : Journal := .insert .empty sampleRow (forall_mem_nil _)

theorem sampleText_ingested : sampleAdapter.ingestWebhook sampleJson sampleDigest (fun _ => sampleDigest) .empty false
      sampleText.toUTF8 (some "external-secret") = (sampleJournal, .ok true) := by
  rw [ingestWebhook_received sampleText_received]
  rfl

theorem sample_consumed : ∃ events journal, History sampleJson sampleDigest (fun _ => sampleDigest)
    sampleAdapter events journal ∧ ConsumedOnce sampleJson sampleDigest (fun _ => sampleDigest)
    sampleAdapter events journal ∧ events.map Event.answer = [.replied (.ok (some sampleReply)),
    .replied (.ok none), .replied (.ok (some sampleReply)), .accepted (.ok true)] := by
  have ingested := (@History.start sampleJson sampleDigest (fun _ => sampleDigest) sampleAdapter).call
    (.ingest sampleText.toUTF8 (some "external-secret")) false
  rw [perform, sampleText_ingested] at ingested
  have claimed := ingested.call (.claim "10001" 42 "now") false
  have refused := claimed.call (.claim "10001" 42 "later") false
  have history := refused.call (.recover "10001" 42) false
  exact ⟨_, _, history, consumed_once history, by decide⟩

end VideoPoster.Approval
