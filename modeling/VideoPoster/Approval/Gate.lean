import VideoPoster.Approval.Confirm

/-!
# One reply opens or closes a gate
-/

namespace VideoPoster.Approval
open Python Tables Encoding TelegramInboundAdapter List Journal Gate String Row Nat

variable {loadJson : ByteArray → Result (Option Entries)} {hash : Dict → Result String}
  {hmac : String → Dict → Result String} {adapter : TelegramInboundAdapter} {files : Files}
  {delivery : Delivery} {gate : Gate} {journal journal' : Journal} {row : Row}
  {reply : AuthenticatedApprovalReply} {conditions : Conditions} {messageId : ℤ} {command : String}

inductive Step where
  | ingest (body : ByteArray) (secretHeader : Option String) (failure : Bool)
  | confirm (conditions : Conditions)

section Runs
variable (loadJson : ByteArray → Result (Option Entries)) (hash : Dict → Result String)
  (hmac : String → Dict → Result String) (adapter : TelegramInboundAdapter) (files : Files)
  (delivery : Delivery)

def Gate.step (gate : Gate) : Step → Gate
  | .ingest body header failure =>
    { gate with journal := (adapter.ingestWebhook loadJson hash hmac gate.journal failure body header).1 }
  | .confirm conditions => (confirmDelivery hash hmac adapter files delivery gate conditions).1

def Refuses (gate : Gate) : List Step → Prop
  | [] => True
  | .ingest body header failure :: steps =>
    (adapter.ingestWebhook loadJson hash hmac gate.journal failure body header).1 = gate.journal ∧ Refuses gate steps
  | .confirm conditions :: steps =>
    Refuses (confirmDelivery hash hmac adapter files delivery gate conditions).1 steps

end Runs

def Registered (adapter : TelegramInboundAdapter) (files : Files) (delivery : Delivery) (messageId : ℤ) :
    Prop :=
  ∀ now, ∃ current, boundDelivery adapter files delivery now = .ok (messageId, current)

def Wrong (loadJson : ByteArray → Result (Option Entries)) (adapter : TelegramInboundAdapter)
    (messageId : ℤ) (command : String) : Step → Prop
  | .ingest body _ _ => ∀ claims, adapter.claimsFromBody loadJson body = .ok (some claims) →
      claims.replyToMessageId = messageId ∧ claims.text ≠ command
  | .confirm _ => True

structure Unapproved (gate : Gate) (delivered : String × ℤ) (command : String) : Prop where
  approval : gate.approval = none
  text : ∀ row ∈ gate.journal.replies.rows, row.delivered = delivered → row.claims.text ≠ command

/-! ## Asking for a reply -/

def SameClaims (journal journal' : Journal) : Prop :=
  ∀ claims, (∃ row ∈ journal.replies.rows, row.claims = claims) ↔
    ∃ row ∈ journal'.replies.rows, row.claims = claims

variable {delivered : String × ℤ} {mac : String}

theorem SameClaims.consume {consumedAt : String} (claimed : Claimed hmac adapter journal delivered
    consumedAt row mac reply) : SameClaims journal (journal.consume row.claims.updateId row.mac consumedAt mac) := by
  intro claims
  constructor
  · rintro ⟨old, member, rfl⟩
    by_cases same : old.delivered = delivered
    · have equal := inj_on_of_nodup_map journal.deliveries member claimed.found.1
        (same.trans claimed.found.2.symm)
      exact ⟨_, claimed.mem_consume.2 (.inl rfl), by rw [equal]⟩
    · exact ⟨old, claimed.mem_consume.2 (.inr ⟨member, same⟩), rfl⟩
  · rintro ⟨changed, member, rfl⟩
    rcases claimed.mem_consume.1 member with rfl | ⟨old, -⟩
    · exact ⟨row, claimed.found.1, rfl⟩
    · exact ⟨changed, old, rfl⟩

theorem reply_eq_none : journal.reply delivered = none ↔ ∀ row ∈ journal.replies.rows, row.delivered ≠ delivered := by
  simp [reply, find?_eq_none]

theorem SameClaims.reply_none (same : SameClaims journal journal') (delivered : String × ℤ) :
    journal'.reply delivered = none ↔ journal.reply delivered = none := by
  simp only [reply_eq_none]
  constructor
  · intro none row member equal
    obtain ⟨row', member', claims⟩ := (same row.claims).mp ⟨row, member, rfl⟩
    exact none row' member' (by rw [Row.delivered, claims]; exact equal)
  · intro none row' member' equal
    obtain ⟨row, member, claims⟩ := (same row'.claims).mpr ⟨row', member', rfl⟩
    exact none row member (by rw [Row.delivered, claims]; exact equal)

theorem askReply_spec : SameClaims journal (askReply hash hmac adapter journal conditions messageId).1 ∧ ∀ reply,
    (askReply hash hmac adapter journal conditions messageId).2 = .ok (some reply) → ∃ row ∈ journal.replies.rows,
    row.delivered = (adapter.expectedChatId, messageId) ∧ replyOf row.claims = .ok reply := by
  rcases @claimVerifiedReply_cases hash hmac adapter journal conditions.claimFails adapter.expectedChatId
      messageId conditions.now with ⟨same, refused⟩ | ⟨row, mac, claim, claimed, is⟩
  · unfold askReply
    split
    · rename_i after ran
      rw [ran] at same
      obtain rfl : after = journal := same
      refine ⟨fun claims => .rfl, fun reply recovered => ?_⟩
      obtain ⟨row, member, delivered, -, is⟩ := recoverVerifiedReply_eq_some recovered
      exact ⟨row, member, delivered, is⟩
    · rename_i after answer _ ran
      rw [ran] at same refused
      obtain rfl : after = journal := same
      exact ⟨fun claims => .rfl, fun reply claimed => absurd claimed (refused reply)⟩
  · rw [askReply, is]
    refine ⟨.consume claimed, fun reply same => ?_⟩
    cases same
    exact ⟨row, claimed.found.1, claimed.found.2, claimed.reply⟩

/-! ## Confirming without the command -/

theorem requireAuthority_eq_ok {asked : Option AuthenticatedApprovalReply}
    (is : requireAuthority adapter delivery messageId asked = .ok reply) (exact : approvalCommand
    delivery.episodeId delivery.artifactKind = .ok command) : asked = some reply ∧ reply.text = command := by
  unfold requireAuthority at is
  split at is
  · cases is
  · obtain ⟨_, -, is⟩ := bind_eq_ok.mp is
    obtain ⟨word, same, is⟩ := bind_eq_ok.mp is
    obtain rfl : command = word := Except.ok.inj (exact.symm.trans same)
    obtain ⟨_, text, last⟩ := bind_eq_ok.mp is
    cases pure_eq_ok.mp last
    exact ⟨rfl, require_eq_ok.mp text⟩

theorem Unapproved.confirm (registered : Registered adapter files delivery messageId)
    (exact : approvalCommand delivery.episodeId delivery.artifactKind = .ok command)
    (unapproved : Unapproved gate (adapter.expectedChatId, messageId) command) (conditions : Conditions) :
    Unapproved (confirmDelivery hash hmac adapter files delivery gate conditions).1 (adapter.expectedChatId, messageId)
    command ∧ SameClaims gate.journal (confirmDelivery hash hmac adapter files delivery gate conditions).1.journal ∧
    ∃ error, (confirmDelivery hash hmac adapter files delivery gate conditions).2 = .error error := by
  obtain ⟨current, bound⟩ := registered conditions.now
  obtain ⟨same, asked⟩ := @askReply_spec hash hmac adapter gate.journal conditions messageId
  have refused : ∃ error, ((askReply hash hmac adapter gate.journal conditions messageId).2 >>=
      approveReply adapter files delivery conditions.now messageId) = .error error := by
    cases approved : (askReply hash hmac adapter gate.journal conditions messageId).2 >>=
        approveReply adapter files delivery conditions.now messageId with
    | error error => exact ⟨error, rfl⟩
    | ok persisted =>
      obtain ⟨answer, is, approved⟩ := bind_eq_ok.mp approved
      obtain ⟨reply, authority, -⟩ := bind_eq_ok.mp approved
      obtain ⟨rfl, text⟩ := requireAuthority_eq_ok authority exact
      obtain ⟨row, member, delivered, shown⟩ := asked reply is
      obtain ⟨-, -, -, -, -, shown⟩ := replyOf_eq_ok shown
      exact absurd (shown.symm.trans text) (unapproved.text row member delivered)
  obtain ⟨error, refused⟩ := refused
  have is : confirmDelivery hash hmac adapter files delivery gate conditions =
      ({ gate with journal := (askReply hash hmac adapter gate.journal conditions messageId).1 }, .error error) := by
    simp only [confirmDelivery, bound, unapproved.approval, refused]
  rw [is]
  refine ⟨⟨unapproved.approval, fun row' member' delivered => ?_⟩, same, error, rfl⟩
  obtain ⟨row, member, claims⟩ := (same row'.claims).mpr ⟨row', member', rfl⟩
  rw [← claims]
  refine unapproved.text row member ?_
  rw [Row.delivered, claims]
  exact delivered

/-! ## Updates without the command -/

section Sequences
variable {steps : List Step}

theorem insert_ne (fresh : journal.Fresh row) : journal.insert row fresh ≠ journal := by
  intro same
  have rows := congrArg (fun journal : Journal => journal.replies.rows.length) same
  simp [Journal.insert] at rows

theorem Unapproved.run (registered : Registered adapter files delivery messageId)
    (exact : approvalCommand delivery.episodeId delivery.artifactKind = .ok command) (unapproved :
    Unapproved gate (adapter.expectedChatId, messageId) command) (wrong : ∀ step ∈ steps, Wrong loadJson adapter
    messageId command step) : Unapproved (steps.foldl (step loadJson hash hmac adapter files delivery) gate)
    (adapter.expectedChatId, messageId) command ∧ ((steps.foldl (step loadJson hash hmac adapter files delivery)
    gate).journal.reply (adapter.expectedChatId, messageId) = none ↔ gate.journal.reply
    (adapter.expectedChatId, messageId) = none ∧ Refuses loadJson hash hmac adapter files delivery gate steps) := by
  induction steps generalizing gate with
  | nil => exact ⟨unapproved, (and_iff_left trivial).symm⟩
  | cons step steps ih =>
    obtain ⟨first, rest⟩ := forall_mem_cons.mp wrong
    cases step with
    | confirm conditions =>
      obtain ⟨next, same, -⟩ := unapproved.confirm registered exact conditions
      obtain ⟨last, closed⟩ := ih next rest
      refine ⟨last, closed.trans (and_congr_left fun _ => same.reply_none _)⟩
    | ingest body header failure =>
      rcases @ingestWebhook_cases loadJson hash hmac adapter gate.journal body header failure with
        ⟨same, -⟩ | ⟨row, fresh, received, -, is⟩
      · have stays : gate.step loadJson hash hmac adapter files delivery (.ingest body header failure) =
            gate := by rw [step, same]
        rw [foldl_cons, stays]
        obtain ⟨last, closed⟩ := ih unapproved rest
        exact ⟨last, closed.trans (and_congr_right fun _ => (and_iff_right same).symm)⟩
      · obtain ⟨replyTo, text⟩ := first row.claims received.reads
        have chat := (claimsFromBody_trusted received.reads).chat
        have delivered : row.delivered = (adapter.expectedChatId, messageId) := by
          rw [delivered, replyTo, chat]
        have next : Unapproved (gate.step loadJson hash hmac adapter files delivery (.ingest body header failure))
            (adapter.expectedChatId, messageId) command := by
          rw [step, is]
          exact ⟨unapproved.approval, forall_mem_cons.mpr ⟨fun _ => text, unapproved.text⟩⟩
        obtain ⟨last, closed⟩ := ih next rest
        refine ⟨last, closed.trans ⟨fun open_ => ?_, fun refuses => ?_⟩⟩
        · have none := reply_eq_none.1 open_.1 row
          rw [step, is] at none
          exact absurd delivered (none (.head _))
        · have stays := refuses.2.1
          rw [is] at stays
          exact absurd stays (insert_ne fresh)

end Sequences

/-! ## The command -/

theorem not_blank_of_canonicalId {value : String} (canonical : canonicalId value) : ¬blank value := by
  obtain ⟨n, -, rfl⟩ := canonical
  have chars : (toString n).toList = toDigits 10 n := by
    rw [Nat.toString_eq_repr, Nat.repr, toList_ofList]
  rw [blank, chars, all_eq_true]
  intro spaces
  obtain ⟨c, member⟩ := exists_mem_of_ne_nil _ (toDigits_ne_nil (b := 10) (n := n))
  have digit := isDigit_of_mem_toDigits (by decide) (by decide) member
  have space := spaces c member
  simp only [Char.isDigit, Bool.and_eq_true, decide_eq_true_eq, UInt32.le_iff_toNat_le] at digit
  have least : 48 ≤ c.toNat := digit.1
  have greatest : c.toNat ≤ 57 := digit.2
  simp only [isSpace, Bool.or_eq_true, Bool.and_eq_true, decide_eq_true_eq, beq_iff_eq] at space
  omega

variable {claims : ReplyClaims}

theorem replyOf_trusted (trusted : claims.Trusted adapter) : ∃ reply, replyOf claims = .ok reply := by
  have valid : ¬blank "TELEGRAM" ∧ ¬blank claims.chatId ∧ ¬blank claims.senderId ∧ 0 < claims.messageId ∧
      0 < claims.replyToMessageId ∧ ¬blank claims.text :=
    ⟨by decide, trusted.chat ▸ not_blank_of_canonicalId adapter.chat,
      not_blank_of_canonicalId (adapter.senders.2 _ trusted.sender), trusted.positive.2.1,
      trusted.positive.2.2, trusted.text⟩
  exact ⟨_, dif_pos valid⟩

variable {now : String} {current : ApprovalReceipt}

theorem boundDelivery_eq_ok (is : boundDelivery adapter files delivery now = .ok (messageId, current)) :
    delivery.artifactKind ∈ artifactKinds ∧ ∃ sha256, files.look delivery.artifactPath = .ok (some sha256) := by
  obtain ⟨_, kind, is⟩ := bind_eq_ok.mp is
  refine ⟨require_eq_ok.mp kind, ?_⟩
  obtain ⟨_, -, is⟩ := bind_eq_ok.mp is
  obtain ⟨document, -, is⟩ := bind_eq_ok.mp is
  split at is
  · obtain ⟨_, -, is⟩ := bind_eq_ok.mp is
    split at is
    · obtain ⟨_, -, is⟩ := bind_eq_ok.mp is
      obtain ⟨_, -, is⟩ := bind_eq_ok.mp is
      split at is
      · obtain ⟨_, -, is⟩ := bind_eq_ok.mp is
        obtain ⟨_, approved, -⟩ := bind_eq_ok.mp is
        obtain ⟨found, look, approved⟩ := bind_eq_ok.mp approved
        split at approved
        · exact ⟨_, look⟩
        · cases approved
      · cases is
    · cases is
  · cases is

theorem claim_inserted {body : ByteArray} {header : Option String}
    (received : Received loadJson hash hmac adapter body header row) (fresh : journal.Fresh row)
    (small : storable row.claims.replyToMessageId = .ok ()) (encodes : adapter.rowMac hmac row.claims (some now) =
    .ok mac) (shows : replyOf row.claims = .ok reply) : (adapter.claimVerifiedReply hash hmac (journal.insert row fresh)
    false adapter.expectedChatId row.claims.replyToMessageId now).2 = .ok (some reply) := by
  have trusted := claimsFromBody_trusted received.reads
  have asks : adapter.asks adapter.expectedChatId row.claims.replyToMessageId = true :=
    decide_eq_true ⟨received.secret.2, rfl, trusted.positive.2.2⟩
  have found : ((journal.insert row fresh).reply
      (adapter.expectedChatId, row.claims.replyToMessageId)).filter (fun row => row.consumedAt = none) =
      some row := by
    refine Option.filter_eq_some_iff.mpr ⟨reply_eq_some.2 ⟨.head _, ?_⟩, decide_eq_true received.unconsumed⟩
    rw [delivered, trusted.chat]
  have valid : adapter.validatedClaims hash hmac row = .ok (some row.claims) := by
    rw [validatedClaims, if_pos trusted.positive, received.updateHash, received.messageHash,
      received.unconsumed, received.mac]
    simp [bind, Except.bind, pure, Except.pure]
  have one : (journal.insert row fresh).replies.rows.countP (selects row.claims.updateId row.mac) = 1 := by
    have others : journal.replies.rows.countP (selects row.claims.updateId row.mac) = 0 :=
      countP_eq_zero.mpr fun other member selects =>
        (fresh other member).1 (of_decide_eq_true selects).1
    have own : selects row.claims.updateId row.mac row = true :=
      decide_eq_true ⟨rfl, received.unconsumed, rfl⟩
    rw [Journal.insert, countP_cons_of_pos own, others]
  rw [claimVerifiedReply, if_pos asks]
  simp only [transaction, claimRow, small, found, valid, encodes, one, shows, bind, Except.bind, pure,
    Except.pure, Bool.false_eq_true, if_false, if_true, orNone]

theorem askReply_of_claim (claimed : (adapter.claimVerifiedReply hash hmac journal conditions.claimFails
    adapter.expectedChatId messageId conditions.now).2 = .ok (some reply)) :
    (askReply hash hmac adapter journal conditions messageId).2 = .ok (some reply) := by
  unfold askReply
  split
  · rename_i is
    rw [is] at claimed
    cases claimed
  · rename_i is
    rw [is] at claimed
    exact claimed

theorem confirm_of_reply {persisted : Persisted} (bound : boundDelivery adapter files delivery conditions.now =
    .ok (messageId, current)) (unapproved : gate.approval = none) (saves : conditions.saveFails = none)
    (asked : (askReply hash hmac adapter gate.journal conditions messageId).2 = .ok (some reply))
    (approved : approveReply adapter files delivery conditions.now messageId (some reply) = .ok persisted) :
    (confirmDelivery hash hmac adapter files delivery gate conditions).2 = .ok persisted.receipt := by
  have answer : ((askReply hash hmac adapter gate.journal conditions messageId).2 >>=
      approveReply adapter files delivery conditions.now messageId) = .ok persisted :=
    bind_eq_ok.mpr ⟨some reply, asked, approved⟩
  simp only [confirmDelivery, bound, unapproved, answer, saves]

theorem requireAuthority_of_reply (trusted : claims.Trusted adapter) (shows : replyOf claims = .ok reply)
    (exact : approvalCommand delivery.episodeId delivery.artifactKind = .ok claims.text) :
    requireAuthority adapter delivery claims.replyToMessageId (some reply) = .ok reply := by
  obtain ⟨-, chat, sender, -, replyTo, text⟩ := replyOf_eq_ok shows
  have binds : reply.chatId = adapter.expectedChatId ∧ reply.senderId ∈ adapter.trustedSenderIds ∧
      reply.replyToMessageId = claims.replyToMessageId :=
    ⟨chat.trans trusted.chat, sender ▸ trusted.sender, replyTo⟩
  simp only [requireAuthority, require, binds, and_self, if_true, exact, text, bind, Except.bind, pure, Except.pure]

theorem approveReply_of_reply {sha256 : String} (trusted : claims.Trusted adapter) (shows : replyOf claims = .ok reply)
    (exact : approvalCommand delivery.episodeId delivery.artifactKind = .ok claims.text)
    (kind : delivery.artifactKind ∈ artifactKinds) (look : files.look delivery.artifactPath = .ok (some sha256)) :
    ∃ persisted, approveReply adapter files delivery now claims.replyToMessageId (some reply) = .ok persisted := by
  have named : ¬blank (reply.transport ++ ":" ++ reply.senderId) := by
    intro empty
    rw [blank, toList_append, toList_append, all_append, all_append] at empty
    simp [isSpace] at empty
  have approved : approve files delivery.artifactKind delivery.artifactPath
      (reply.transport ++ ":" ++ reply.senderId) now (some reply.document) = .ok ⟨delivery.artifactKind,
        files.resolve delivery.artifactPath, sha256, reply.transport ++ ":" ++ reply.senderId, now,
        some reply.document⟩ := by
    simp [approve, look, require, kind, named, bind, Except.bind, pure, Except.pure]
  refine ⟨_, bind_eq_ok.mpr ⟨reply, requireAuthority_of_reply trusted shows exact,
    bind_eq_ok.mpr ⟨_, approved, bind_eq_ok.mpr ⟨(), ?_, rfl⟩⟩⟩⟩
  rw [ApprovalReceipt.verify_eq_ok, files.resolved, look]

section Journaling
variable {body : ByteArray} {header : Option String}
  (received : adapter.received loadJson hash hmac body header = .ok (some row))
  (small : storable row.claims.updateId = .ok () ∧ storable row.claims.messageId = .ok () ∧
    storable row.claims.replyToMessageId = .ok ())
  (fresh : ∀ other ∈ journal.replies.rows,
    other.claims.updateId ≠ row.claims.updateId ∧ other.claims.messageId ≠ row.claims.messageId)
include received small fresh

theorem ingest_unanswered (unanswered : journal.reply row.delivered = none) : ∃ fresh,
    adapter.ingestWebhook loadJson hash hmac journal false body header = (journal.insert row fresh, .ok true) := by
  have absent : journal.replies.find? row.claims.updateId = none :=
    Table.find?_eq_none.mpr fun other member => (fresh other member).1
  have others := reply_eq_none.1 unanswered
  have alone : journal.collides row.claims = false := by
    rw [collides, any_eq_false]
    intro other member collides
    rcases of_decide_eq_true collides with message | delivered
    · exact (fresh other member).2 message
    · exact others other member delivered
  have new : journal.Fresh row := fun other member =>
    ⟨(fresh other member).1, (fresh other member).2, others other member⟩
  refine ⟨new, ?_⟩
  rw [ingestWebhook_received received]
  simp only [transaction, journalRow, small.1, small.2.1, small.2.2, absent, alone, new, bind, Except.bind,
    pure, Except.pure, Bool.false_eq_true, if_false, dite_true]

theorem ingest_answered (answered : journal.reply row.delivered ≠ none) :
    adapter.ingestWebhook loadJson hash hmac journal false body header = (journal, .ok false) := by
  have absent : journal.replies.find? row.claims.updateId = none :=
    Table.find?_eq_none.mpr fun other member => (fresh other member).1
  obtain ⟨other, found⟩ := Option.ne_none_iff_exists'.mp answered
  obtain ⟨member, same⟩ := reply_eq_some.1 found
  have collides : journal.collides row.claims = true :=
    any_eq_true.mpr ⟨other, member, decide_eq_true (.inr same)⟩
  rw [ingestWebhook_received received]
  simp only [transaction, journalRow, small.1, small.2.1, small.2.2, absent, collides, bind, Except.bind,
    pure, Except.pure, Bool.false_eq_true, if_false, if_true]

end Journaling

theorem command_confirms {steps : List Step} {body : ByteArray} {header : Option String}
    (encodes : ∀ claims consumedAt mac, adapter.rowMac hmac claims none = .ok mac →
      ∃ mac, adapter.rowMac hmac claims (some consumedAt) = .ok mac)
    (registered : Registered adapter files delivery messageId)
    (exact : approvalCommand delivery.episodeId delivery.artifactKind = .ok command)
    (unapproved : gate.approval = none)
    (unanswered : gate.journal.reply (adapter.expectedChatId, messageId) = none)
    (wrong : ∀ step ∈ steps, Wrong loadJson adapter messageId command step)
    (received : adapter.received loadJson hash hmac body header = .ok (some row))
    (replies : row.claims.replyToMessageId = messageId) (states : row.claims.text = command)
    (small : storable row.claims.updateId = .ok () ∧ storable row.claims.messageId = .ok () ∧
      storable row.claims.replyToMessageId = .ok ())
    (fresh : ∀ other ∈ (steps.foldl (step loadJson hash hmac adapter files delivery) gate).journal.replies.rows,
      other.claims.updateId ≠ row.claims.updateId ∧ other.claims.messageId ≠ row.claims.messageId) :
    let closed := steps.foldl (step loadJson hash hmac adapter files delivery) gate
    let answered := adapter.ingestWebhook loadJson hash hmac closed.journal false body header
    (Refuses loadJson hash hmac adapter files delivery gate steps → answered.2 = .ok true ∧
      ∀ now readFails, ∃ receipt, (confirmDelivery hash hmac adapter files delivery
        ⟨answered.1, closed.approval⟩ ⟨now, false, readFails, none⟩).2 = .ok receipt) ∧
    (¬Refuses loadJson hash hmac adapter files delivery gate steps → answered.2 = .ok false ∧
      ∀ conditions, ∃ error, (confirmDelivery hash hmac adapter files delivery
        ⟨answered.1, closed.approval⟩ conditions).2 = .error error) := by
  intro closed answered
  have none : Unapproved gate (adapter.expectedChatId, messageId) command :=
    ⟨unapproved, fun other member same => absurd same (reply_eq_none.1 unanswered other member)⟩
  obtain ⟨last, still⟩ := none.run registered exact wrong
  have trusted := claimsFromBody_trusted (received_eq_some received).reads
  have delivered : row.delivered = (adapter.expectedChatId, messageId) := by
    rw [delivered, trusted.chat, replies]
  rw [← delivered] at still
  constructor
  · intro refuses
    have unanswered := still.mpr ⟨delivered ▸ unanswered, refuses⟩
    obtain ⟨new, ingested⟩ := ingest_unanswered received small fresh unanswered
    refine ⟨congrArg Prod.snd ingested, fun now readFails => ?_⟩
    obtain ⟨mac, isMac⟩ := encodes row.claims now row.mac (received_eq_some received).mac
    obtain ⟨reply, shows⟩ := replyOf_trusted trusted
    have claimed := claim_inserted (received_eq_some received) new small.2.2 isMac shows
    obtain ⟨current, bound⟩ := registered now
    obtain ⟨kind, sha256, look⟩ := boundDelivery_eq_ok bound
    subst states replies
    obtain ⟨persisted, approved⟩ := @approveReply_of_reply _ _ _ _ _ now _ trusted shows exact kind look
    refine ⟨persisted.receipt, confirm_of_reply bound last.approval rfl (askReply_of_claim ?_) approved⟩
    have after : answered.1 = closed.journal.insert row new := congrArg Prod.fst ingested
    dsimp only
    rw [after]
    exact claimed
  · intro journaled
    have answered := mt still.mp fun open_ => journaled open_.2
    have refused := ingest_answered received small fresh answered
    refine ⟨congrArg Prod.snd refused, fun conditions => ?_⟩
    have same : (⟨(adapter.ingestWebhook loadJson hash hmac closed.journal false body header).1,
        closed.approval⟩ : Gate) = closed := by rw [refused]
    rw [same]
    exact (last.confirm registered exact conditions).2.2

def sampleFiles : Files where
  look path := .ok (if path = "thumb.png" then some "hash" else none)
  resolve := id
  resolved _ := rfl

def sampleDelivery : Delivery where
  episodeId := "EP8"
  artifactKind := "thumbnail"
  artifactPath := "thumb.png"
  receipt := .ok (.obj [("episode_id", .str "EP8"), ("artifact_kind", .str "thumbnail"),
    ("approval", .obj [("artifact_kind", .str "thumbnail"), ("artifact_path", .str "thumb.png"),
      ("artifact_sha256", .str "hash"), ("approver", .str "delivery-audit"), ("approved_at", .str "before")]),
    ("chat_id", .str "10001"), ("message_id", .int 42)])

theorem sampleDelivery_registered : Registered sampleAdapter sampleFiles sampleDelivery 42 :=
  fun now => ⟨⟨"thumbnail", "thumb.png", "hash", "delivery-check", now, none⟩, by rfl⟩

theorem sampleDelivery_command :
    approvalCommand sampleDelivery.episodeId sampleDelivery.artifactKind = .ok "APROVAR THUMBNAIL EP8" := by
  decide

theorem sampleRow_small : storable sampleRow.claims.updateId = .ok () ∧
    storable sampleRow.claims.messageId = .ok () ∧ storable sampleRow.claims.replyToMessageId = .ok () := by
  decide

theorem first_command_confirms : ∃ receipt, (confirmDelivery sampleDigest (fun _ => sampleDigest)
    sampleAdapter sampleFiles sampleDelivery ⟨(sampleAdapter.ingestWebhook sampleJson sampleDigest
      (fun _ => sampleDigest) .empty false sampleText.toUTF8 (some "external-secret")).1, none⟩
    ⟨"now", false, false, none⟩).2 = .ok receipt := by
  have confirms := @command_confirms sampleJson sampleDigest (fun _ => sampleDigest) sampleAdapter
    sampleFiles sampleDelivery ⟨.empty, none⟩ sampleRow 42 "APROVAR THUMBNAIL EP8" [] sampleText.toUTF8
    (some "external-secret") (fun _ _ _ _ => ⟨"5f", rfl⟩) sampleDelivery_registered
    sampleDelivery_command rfl rfl (forall_mem_nil _) sampleText_received rfl rfl sampleRow_small
    (forall_mem_nil _)
  exact (confirms.1 trivial).2 "now" false

def otherText : String :=
  "\x7b\"update_id\":2,\"message\":\x7b\"message_id\":100,\"from\":\x7b\"id\":20002,\"is_bot\":false\x7d," ++
  "\"chat\":\x7b\"id\":10001,\"type\":\"private\"\x7d,\"reply_to_message\":\x7b\"message_id\":42\x7d," ++
  "\"text\":\"SIM\"\x7d\x7d"

def otherDocument : Entries :=
  [("update_id", .int 2), ("message", .obj [("message_id", .int 100),
    ("from", .obj [("id", .int 20002), ("is_bot", .bool false)]),
    ("chat", .obj [("id", .int 10001), ("type", .str "private")]),
    ("reply_to_message", .obj [("message_id", .int 42)]), ("text", .str "SIM")])]

def repliesJson (body : ByteArray) : Result (Option Entries) :=
  if fromUTF8? body = some otherText then .ok (some otherDocument) else sampleJson body

def otherRow : Row := ⟨⟨2, 100, "10001", "20002", 42, "SIM"⟩, "5f", "5f", "5f", none⟩

theorem otherText_received : sampleAdapter.received repliesJson sampleDigest (fun _ => sampleDigest)
    otherText.toUTF8 (some "external-secret") = .ok (some otherRow) := by
  have reads : repliesJson otherText.toUTF8 = .ok (some otherDocument) :=
    if_pos (JsonText.fromUTF8_toUTF8 otherText)
  have claims : sampleAdapter.claimsFromBody repliesJson otherText.toUTF8 = .ok (some otherRow.claims) := by
    rw [claimsFromBody, reads]
    decide
  exact received_of_claims (by decide) (by decide +kernel) claims rfl

theorem sampleText_received_after :
    sampleAdapter.received repliesJson sampleDigest (fun _ => sampleDigest) sampleText.toUTF8
      (some "external-secret") = .ok (some sampleRow) := by
  have different : fromUTF8? sampleText.toUTF8 ≠ some otherText := by
    rw [JsonText.fromUTF8_toUTF8]
    decide
  have reads : repliesJson sampleText.toUTF8 = sampleJson sampleText.toUTF8 := if_neg different
  refine received_of_claims (by decide) (by decide +kernel) ?_ rfl
  rw [claimsFromBody, reads]
  exact sampleText_claims

theorem command_after_reply_refused :
    let journal := (sampleAdapter.ingestWebhook repliesJson sampleDigest (fun _ => sampleDigest) .empty false
      otherText.toUTF8 (some "external-secret")).1
    let answered := sampleAdapter.ingestWebhook repliesJson sampleDigest (fun _ => sampleDigest) journal
      false sampleText.toUTF8 (some "external-secret")
    answered.2 = .ok false ∧ ∃ error, (confirmDelivery sampleDigest (fun _ => sampleDigest) sampleAdapter
      sampleFiles sampleDelivery ⟨answered.1, none⟩ ⟨"now", false, false, none⟩).2 = .error error := by
  have journaled : sampleAdapter.ingestWebhook repliesJson sampleDigest (fun _ => sampleDigest) .empty false
      otherText.toUTF8 (some "external-secret") =
        (empty.insert otherRow (forall_mem_nil _), .ok true) := by
    rw [ingestWebhook_received otherText_received]
    rfl
  have refused : sampleAdapter.ingestWebhook repliesJson sampleDigest (fun _ => sampleDigest)
      (empty.insert otherRow (forall_mem_nil _)) false sampleText.toUTF8
      (some "external-secret") = (empty.insert otherRow (forall_mem_nil _), .ok false) :=
    ingest_answered sampleText_received_after sampleRow_small (by decide) (by decide)
  simp only [journaled, refused, true_and]
  have unapproved : Unapproved ⟨empty.insert otherRow (forall_mem_nil _), none⟩
      (sampleAdapter.expectedChatId, 42) "APROVAR THUMBNAIL EP8" :=
    ⟨rfl, forall_mem_cons.mpr ⟨fun _ => by decide, forall_mem_nil _⟩⟩
  exact (unapproved.confirm sampleDelivery_registered sampleDelivery_command _).2.2

end VideoPoster.Approval
