import VideoPoster.Authorization.Authority

/-!
# Loading a policy, and the chain as a whole
-/

namespace VideoPoster.Authorization
open Python Encoding Approval Interleaving List Service Document Option Config

variable {T : Texts} {digest : Digest} {S : BudgetAuthorizationSettings}

def Responds (digest : Digest) (w : World) (now : ℤ) (action : Act) (response : action.Res) : Prop :=
  ∃ later oracle pid w', w.Extends later ∧ oracle.now = now ∧ exec digest oracle pid later action = some (w', response)

section Load
variable {w : World} {now : ℤ} {s : Shared (machine digest)} {requestId : String} {receipt : Receipt}

theorem responds_now {response : ℤ} (responds : Responds digest w now .now response) : response = now := by
  obtain ⟨later, oracle, pid, w', -, rfl, executed⟩ := responds
  simp only [exec, some.injEq, Prod.mk.injEq] at executed
  exact executed.2.symm

variable {kind : Kind} {contents : kind.Contents}

theorem responds_read {response : Option kind.Contents} (found : w.files kind requestId = some contents)
    (responds : Responds digest w now (.read kind requestId) response) : response = some contents := by
  obtain ⟨later, oracle, pid, w', extends_, -, executed⟩ := responds
  simp only [exec, some.injEq, Prod.mk.injEq] at executed
  rw [← executed.2]
  exact extends_.files found

variable {outbound : Outbound}

theorem responds_revalidateDelivery {response : Option Outbound} (sent : outbound ∈ w.messages.map Prod.fst)
    (responds : Responds digest w now (.revalidateDelivery outbound) response) : response = some outbound := by
  obtain ⟨later, oracle, pid, w', extends_, -, executed⟩ := responds
  simp only [exec, some.injEq, Prod.mk.injEq] at executed
  rw [← executed.2, if_pos (map_subset _ extends_.messages sent)]

theorem responds_revalidateReply {reply : AuthenticatedApprovalReply} {response : Option AuthenticatedApprovalReply}
    (made : reply ∈ w.replies) (responds : Responds digest w now (.revalidateReply reply) response) :
    response = some reply := by
  obtain ⟨later, oracle, pid, w', extends_, -, executed⟩ := responds
  simp only [exec, some.injEq, Prod.mk.injEq] at executed
  rw [← executed.2, if_pos (extends_.replies made)]

theorem responds_reads (now : ℤ) (w : World) (action : Act) (reads : action.Reads) :
    ∃ response, Responds digest w now action response := by
  cases action with
  | lock | unlock | link | deliver | answered => exact reads.elim
  | _ => exact ⟨_, w, ⟨now, .refused, none⟩, 0, _, .refl w, rfl, rfl⟩

variable {message : String}

theorem require_answered {condition : Prop} [Decidable condition] {outcome : Result Unit}
    {R : (action : Act) → action.Res → Prop} (holds : condition)
    (answered : (require condition message).Answered R outcome) : outcome = .ok () := by
  rw [answered.ofExcept_eq, Python.require, if_pos holds]

theorem load_answered {outcome : Result kind.Contents} (found : w.files kind requestId = some contents)
    (answered : (load kind requestId).Answered (Responds digest w now) outcome) : outcome = .ok contents := by
  rcases answered.of_bind with ⟨response, first, rest⟩ | ⟨error, first, -⟩
  · obtain ⟨_, responds, same⟩ := first.act_pure
    cases same
    rw [responds_read found responds] at rest
    cases rest
    rfl
  · obtain ⟨_, -, same⟩ := first.act_pure
    cases same

theorem bind_answered {α β : Type} {first : Service α} {next : α → Service β} {value : α} {outcome : Result β}
    {R : (action : Act) → action.Res → Prop} (answered : (first.bind next).Answered R outcome)
    (only : ∀ end_, first.Answered R end_ → end_ = .ok value) : (next value).Answered R outcome := by
  rcases answered.of_bind with ⟨x, begins, rest⟩ | ⟨error, begins, -⟩
  · cases only _ begins
    exact rest
  · cases only _ begins

theorem revalidated_answered {outcome : Result Unit} (sent : outbound ∈ w.messages.map Prod.fst)
    (answered : (revalidated outbound message).Answered (Responds digest w now) outcome) : outcome = .ok () := by
  have asked : (require (some outbound = some outbound) message).Answered (Responds digest w now) outcome :=
    @bind_answered _ _ (act (.revalidateDelivery outbound))
      (fun answer => require (answer = some outbound) message) (some outbound) _ _ answered fun end_ begins => by
        obtain ⟨response, responds, rfl⟩ := begins.act_pure
        rw [responds_revalidateDelivery sent responds]
  exact require_answered rfl asked

variable {outcome : Result Receipt}

theorem verify_request (found : w.files .receipt requestId = some receipt) (answered :
    (verifyReceipt T digest S requestId).Answered (Responds digest w now) outcome) : ((ofResult (requestDocument
    T now receipt.request.value)).bind (checkReceipt digest S receipt)).Answered (Responds digest w now) outcome := by
  have read := bind_answered answered fun end_ begins => load_answered found begins
  exact @bind_answered _ _ (act .now) (fun time =>
      (ofResult (requestDocument T time receipt.request.value)).bind (checkReceipt digest S receipt)) now _ _ read
    fun end_ begins => by
      obtain ⟨response, responds, rfl⟩ := begins.act_pure
      rw [responds_now responds]

theorem verify_returns (authorized : Authorized T digest S s requestId receipt) (found : s.world.files .receipt
    requestId = some receipt) (accepted : requestDocument T now receipt.request.value = .ok receipt.request) (answered :
    (verifyReceipt T digest S requestId).Answered (Responds digest s.world now) outcome) : outcome = .ok receipt := by
  have binds := authorized.delivery
  have body := binds.body
  have normalised := bind_answered (verify_request found answered) fun end_ begins => by
    rw [begins.ofExcept_eq, accepted]
  have chat := bind_answered normalised fun end_ begins =>
    require_answered ⟨body.2.1, body.2.2.2.trans authorized.hashed.symm⟩ begins
  have sent := bind_answered chat fun end_ begins => revalidated_answered binds.message begins
  have policy := bind_answered sent fun end_ begins => require_answered ⟨authorized.hashed, authorized.policy⟩ begins
  have request := bind_answered policy fun end_ begins => require_answered
    ⟨binds.named.trans authorized.named.symm, binds.hashed, body.2.2.1⟩ begins
  have replied := bind_answered request fun end_ begins => by
    obtain ⟨response, responds, rfl⟩ := begins.act_pure
    rw [responds_revalidateReply authorized.reply responds]
  have checked := bind_answered replied fun end_ begins =>
    require_answered ⟨rfl, authorized.sender, authorized.text⟩ begins
  cases checked
  rfl

theorem verify_fails (found : w.files .receipt requestId = some receipt)
    (refused : ∀ request, requestDocument T now receipt.request.value ≠ .ok request) (answered : (verifyReceipt
    T digest S requestId).Answered (Responds digest w now) outcome) : ∃ error, outcome = .error error := by
  rcases (verify_request found answered).of_bind with ⟨request, begins, -⟩ | ⟨error, -, same⟩
  · exact absurd begins.ofExcept_eq.symm (refused request)
  · exact ⟨error, same⟩

theorem load_policy {t : ℤ} {outcome : Result Executor.BudgetPolicy} (authorized : Authorized T digest S s requestId
    receipt) (found : s.world.files .receipt requestId = some receipt) (expires : receipt.request.expires T = some t)
    (answered : (loadPolicyOf T digest S requestId).Answered (Responds digest s.world now) outcome) :
    (now < t → outcome = .ok receipt.request.policy) ∧ (t ≤ now → ∃ error, outcome = .error error) := by
  obtain ⟨before, accepted⟩ := authorized.normal
  have normal := (requestDocument_ok accepted).1
  have keeps := ((requestDocument_value normal).mp accepted).1
  constructor
  · intro early
    have again := (@requestDocument_value T now _ normal).mpr ⟨keeps, t, expires, early⟩
    have returned := bind_answered answered fun end_ begins => verify_returns authorized found again begins
    cases returned
    rfl
  · intro late
    rcases answered.of_bind with ⟨verified, begins, -⟩ | ⟨error, -, same⟩
    · obtain ⟨error, failed⟩ := verify_fails found (fun request => requestDocument_expired expires late) begins
      cases failed
    · exact ⟨error, same⟩

end Load
/-- The receipt's request was created, posted to the configured chat as it was normalised, and confirmed there by a
financial sender's reply to that message, with the exact command. -/
structure Grounded (T : Texts) (digest : Digest) (S : BudgetAuthorizationSettings) (s : Shared (machine digest))
    (requestId : String) (receipt : Receipt) : Prop where
  named : receipt.request.requestId = requestId
  created : ∃ raw now, requestDocument T now raw = .ok receipt.request
  stored : s.world.files .request requestId = some receipt.request
  delivered : Delivered S s.trace receipt.request receipt.delivery.outbound
  binds : BindsBody digest S receipt.request receipt.delivery.outbound
  replied : receipt.inboundReceipt ∈ s.world.replies
  sender : FromFinancialSender S receipt.delivery.outbound.messageId receipt.inboundReceipt
  text : receipt.inboundReceipt.text = command requestId

/-- Every load of the receipt comes to an end: with the policy of its request before the expiry, with an exception
from then on. -/
def LoadsUntilExpiry (T : Texts) (digest : Digest) (S : BudgetAuthorizationSettings) (w : World) (requestId : String)
    (receipt : Receipt) : Prop :=
  ∃ t, receipt.request.expires T = some t ∧ ∀ now,
    (∃ outcome, (loadPolicyOf T digest S requestId).Answered (Responds digest w now) outcome) ∧
      ∀ outcome, (loadPolicyOf T digest S requestId).Answered (Responds digest w now) outcome →
        (now < t → outcome = .ok receipt.request.policy) ∧ (t ≤ now → ∃ error, outcome = .error error)

def Document.Renormalises (T : Texts) (document : Document) : Prop :=
  ∀ t later, document.expires T = some t → later < t → requestDocument T later document.value = .ok document

/-- A request is posted at most once; a receipt stands on a request that was posted and confirmed, and loads until
that expires. An accepted request can be normalised again unless one of its caps vanishes. -/
theorem authority_chain {c : Config (machine digest) Error}
    (reached : Reaches (calls T digest S) anyStep (initial World.empty) c) : (∀ requestId,
    c.trace.countP (isDelivery requestId) ≤ 1) ∧ (∀ requestId receipt, c.world.files .receipt requestId = some receipt →
    Grounded T digest S c.toShared requestId receipt ∧ LoadsUntilExpiry T digest S c.world requestId receipt) ∧
    ∀ raw now document, requestDocument T now raw = .ok document → (document.Renormalises T ↔ ¬ CapVanishes T raw) := by
  have inv := inv_of_reaches reached
  refine ⟨inv.once, fun requestId receipt found => ?_, fun raw now document accepted => requestDocument_again accepted⟩
  have authorized := inv.receipts requestId receipt found
  have stored := authorized.delivery.request
  obtain ⟨before, accepted⟩ := authorized.normal
  obtain ⟨t, expires, -⟩ := (requestDocument_ok accepted).2.1
  refine ⟨⟨authorized.named, (inv.requests _ _ stored).2, stored, authorized.delivery.delivered,
    authorized.delivery.body, authorized.reply, authorized.sender, ?_⟩, t, expires, fun now => ⟨?_, ?_⟩⟩
  · rw [authorized.text, authorized.named]
  · have reads : (loadPolicyOf T digest S requestId).Only Act.Reads :=
      (reads_verifyReceipt requestId).bind fun _ => trivial
    exact reads.answered fun action reading => responds_reads now c.world action reading
  · exact fun outcome answered => load_policy authorized found expires answered

def marked : List Char → List Char
  | [] => ['.']
  | c :: rest => '-' :: c :: marked rest

theorem marked_append {text other rest rest' : List Char} (same : marked text ++ rest = marked other ++ rest') :
    text = other ∧ rest = rest' := by
  induction text generalizing other with
  | nil =>
    cases other with
    | nil => simpa [marked] using same
    | cons c more => simp [marked] at same
  | cons c text ih =>
    cases other with
    | nil => simp [marked] at same
    | cons d more =>
      simp only [marked, cons_append, cons.injEq, true_and] at same
      obtain ⟨rfl, same⟩ := same
      obtain ⟨rfl, last⟩ := ih same
      exact ⟨rfl, last⟩

theorem marked_ne_nil (text : List Char) : marked text ≠ [] := by
  cases text <;> exact cons_ne_nil _ _

def markedAll (texts : List String) : List Char := texts.flatMap fun text => marked text.toList

theorem markedAll_injective : Function.Injective markedAll := by
  intro texts
  induction texts with
  | nil =>
    intro others same
    cases others with
    | nil => rfl
    | cons text rest => exact absurd (append_eq_nil_iff.mp same.symm).1 (marked_ne_nil _)
  | cons text texts ih =>
    intro others same
    cases others with
    | nil => exact absurd (append_eq_nil_iff.mp same).1 (marked_ne_nil _)
    | cons other others =>
      obtain ⟨here, there⟩ := marked_append (same : marked text.toList ++ markedAll texts =
        marked other.toList ++ markedAll others)
      rw [String.toList_injective here, ih there]

def One.text : One → String
  | .int => "1"
  | .bool => "true"
  | .float => "1.0"

def Document.fields (document : Document) : List String :=
  [document.schema.text, document.requestId, document.episodeId, document.policySha256, document.expiresAt,
    document.episodeCapUsd, document.monthCapUsd, document.experimentCapUsd] ++ document.allowedProviders

theorem Document.fields_injective : Function.Injective fields := by
  rintro ⟨schema, _, _, _, _, _, _, _, _⟩ ⟨schema', _, _, _, _, _, _, _, _⟩ same
  simp only [fields, cons_append, nil_append, cons.injEq] at same
  obtain ⟨heading, rfl, rfl, rfl, rfl, rfl, rfl, rfl, rfl⟩ := same
  have : schema = schema' := by
    cases schema <;> cases schema' <;> first | rfl | exact absurd heading (by decide)
  rw [this]

def sampleDigest : Digest where
  sha256 document := .ofList (markedAll document.fields)
  injective _ _ same := fields_injective (markedAll_injective (String.ofList_injective same))

def sampleExpiry : String := "2026-08-01T00:00:00+00:00"

def sampleTexts : Texts where
  decimal := readDecimal
  decimal_sixPlaces := readDecimal_sixPlaces
  fromisoformat text := if text = sampleExpiry then some (.aware 1785542400000000) else none
  isoformat microseconds := if microseconds = 1785542400000000 then sampleExpiry else ""
  fromisoformat_isoformat {text microseconds} read := by
    split_ifs at read
    cases read
    rfl

def sampleSettings : BudgetAuthorizationSettings := ⟨"100", ["200"]⟩

def sampleRaw (episodeCap : String) : JsonText.Value :=
  .obj [("schema", .int 1), ("kind", .str "BUDGET_AUTHORIZATION"), ("mode", .str "TEST"),
    ("request_id", .str "budget-1"), ("episode_id", .str "episode-1"),
    ("policy_sha256", .str "e3b0c44298fc1c149afbf4c8996fb92427ae41e4649b934ca495991b7852b855"),
    ("expires_at", .str sampleExpiry), ("allowed_providers", .arr [.str "provider-1"]), ("currency", .str "USD"),
    ("caps_usd", .obj [("episode", .str episodeCap), ("month", .int 20), ("experiment", .float 15 (-1))])]

def sampleDocument : Document :=
  ⟨.int, "budget-1", "episode-1", "e3b0c44298fc1c149afbf4c8996fb92427ae41e4649b934ca495991b7852b855", sampleExpiry,
    ["provider-1"], "5.000000", "20.000000", "1.500000"⟩

def sampleAnswer : AuthenticatedApprovalReply :=
  ⟨"telegram", "100", "200", 8, 7, "AUTORIZAR ORÇAMENTO budget-1", by decide⟩

def turn (digest : Digest) (pid : ℕ) (call : Call) (count : ℕ) : List (Move (machine digest) Error) :=
  .spawn (call.program sampleTexts digest sampleSettings) ::
    replicate count (.perform pid ⟨0, .posted "telegram" 7, some 0⟩)

def sampleMoves (digest : Digest) : List (Move (machine digest) Error) :=
  let sha256 := digest.sha256 sampleDocument
  turn digest 0 (.createRequest (sampleRaw "5")) 6 ++ turn digest 1 (.deliverRequest sampleDocument) 17 ++
    turn digest 2 (.answer sampleAnswer) 1 ++
    turn digest 3 (.confirm ⟨"budget-1", sha256, "telegram", "100", 7, sha256⟩) 11

theorem sampleMoves_calls : ∀ m ∈ sampleMoves digest, m.calls ⊆ calls sampleTexts digest sampleSettings := by
  have each (pid : ℕ) (call : Call) (count : ℕ) : ∀ m ∈ turn digest pid call count,
      m.calls ⊆ calls sampleTexts digest sampleSettings := by
    intro m member
    rcases mem_cons.mp member with rfl | performed
    · rintro - rfl
      exact ⟨call, rfl⟩
    · rw [eq_of_mem_replicate performed]
      rintro _ ⟨⟩
  intro m member
  simp only [sampleMoves, mem_append] at member
  rcases member with ((created | delivered) | answered) | confirmed
  · exact each _ _ _ m created
  · exact each _ _ _ m delivered
  · exact each _ _ _ m answered
  · exact each _ _ _ m confirmed

theorem utf8Encode_eq (chars : List Char) : chars.utf8Encode = ⟨⟨chars.flatMap String.utf8EncodeChar⟩⟩ :=
  congrArg ByteArray.mk List.data_toByteArray

/-- `sampleDigest`, with the bytes of a digest as one list: `String.ofList` pushes them one by one. -/
def flatDigest : Digest where
  sha256 document := ⟨⟨⟨(markedAll document.fields).flatMap String.utf8EncodeChar⟩⟩, .intro _ (utf8Encode_eq _).symm⟩
  injective _ _ same := sampleDigest.injective <| by
    simpa only [sampleDigest, String.ofList, utf8Encode_eq] using same

theorem flatDigest_eq : flatDigest = sampleDigest := by
  simp only [flatDigest, sampleDigest, String.ofList, utf8Encode_eq]

theorem sampleMoves_receipt : ((initial (ε := Error) World.empty : Config (machine sampleDigest) Error).simulate
    (fun _ _ => true) (sampleMoves sampleDigest)).any (fun c => (c.world.files .receipt "budget-1").isSome) = true := by
  have every (digest : Digest) (flat : flatDigest = digest) :
      ((initial (ε := Error) World.empty : Config (machine digest) Error).simulate
        (fun _ _ => true) (sampleMoves digest)).any (fun c => (c.world.files .receipt "budget-1").isSome) = true := by
    subst flat
    decide +kernel
  exact every sampleDigest flatDigest_eq

theorem sample_chain : ∃ (c : Config (machine sampleDigest) Error) (receipt : Receipt),
    c.world.files .receipt "budget-1" = some receipt ∧
      Grounded sampleTexts sampleDigest sampleSettings c.toShared "budget-1" receipt ∧
      LoadsUntilExpiry sampleTexts sampleDigest sampleSettings c.world "budget-1" receipt := by
  obtain ⟨c, reached, there⟩ := exists_reaches (fun _ _ _ => trivial) sampleMoves_calls sampleMoves_receipt
  obtain ⟨receipt, found⟩ := isSome_iff_exists.mp there
  obtain ⟨grounded, loads⟩ := (authority_chain reached).2.1 "budget-1" receipt found
  exact ⟨c, receipt, found, grounded, loads⟩

theorem vanishing_cap_not_again : ∃ document,
    requestDocument sampleTexts 0 (sampleRaw "1E-2000000") = .ok document ∧ ¬ document.Renormalises sampleTexts := by
  have accepted : (requestDocument sampleTexts 0 (sampleRaw "1E-2000000")).toBool = true := by
    decide +kernel
  cases read : requestDocument sampleTexts 0 (sampleRaw "1E-2000000") with
  | error error => simp [read, Except.toBool] at accepted
  | ok document =>
    refine ⟨document, rfl, fun again => (requestDocument_again read).mp again ⟨"episode", by decide, 0, -2000000, ?_, ?_⟩⟩
    · decide
    · have large : (10 : ℕ) ^ 7 ≤ 10 ^ (etiny - -2000000).toNat :=
        Nat.pow_le_pow_right (by norm_num) (by norm_num [etiny])
      unfold Underflows
      omega

end VideoPoster.Authorization
