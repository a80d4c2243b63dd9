import VideoPoster.Authorization.Service

/-!
# The chain of a budget authority
-/

namespace VideoPoster.Authorization
open Python Encoding Approval Interleaving Option List.Subset Prod Service Function List

variable {T : Texts} {digest : Digest} {S : BudgetAuthorizationSettings}

/-! ## What stays -/

structure World.Extends (w w' : World) : Prop where
  files : ∀ {kind requestId contents}, w.files kind requestId = some contents →
    w'.files kind requestId = some contents
  messages : w.messages ⊆ w'.messages
  replies : w.replies ⊆ w'.replies

theorem World.Extends.refl (w : World) : w.Extends w := ⟨id, List.Subset.refl _, List.Subset.refl _⟩

variable {w : World} {kind : Kind} {requestId : String}

theorem World.link_found {other : Kind} {requestId' : String} {contents : kind.Contents} {found : other.Contents}
    (is : (w.link kind requestId contents).files other requestId' = some found) : w.files other requestId' = some
    found ∨ (⟨other, requestId', found⟩ : (kind : Kind) × String × kind.Contents) = ⟨kind, requestId, contents⟩ := by
  unfold World.link at is
  by_cases same : other = kind
  · subst same
    simp only [update_self] at is
    by_cases named : requestId' = requestId
    · subst named
      simp only [update_self, some.injEq] at is
      exact .inr (by rw [is])
    · rw [update_of_ne named] at is
      exact .inl is
  · simp only [update_of_ne same] at is
    exact .inl is

theorem World.link_extends (contents : kind.Contents)
    (absent : w.files kind requestId = none) : w.Extends (w.link kind requestId contents) := by
  refine ⟨fun {other requestId' found} there => ?_, refl _, refl _⟩
  unfold World.link
  by_cases same : other = kind
  · subst same
    simp only [update_self]
    by_cases named : requestId' = requestId
    · subst named
      cases absent.symm.trans there
    · rw [update_of_ne named]
      exact there
  · simp only [update_of_ne same]
    exact there

section Steps
variable {pid : ℕ} {action : Act} {response : action.Res} {s s' : Shared (machine digest)}

theorem performs_extends (performs : Performs pid action response s s') : s.world.Extends s'.world := by
  obtain ⟨oracle, executed, -⟩ := performs
  cases action with
  | lock lock =>
    simp only [exec] at executed
    split_ifs at executed
    simp only [some.injEq, mk.injEq] at executed
    obtain ⟨same, -⟩ := executed
    rw [← same]
    exact ⟨id, refl _, refl _⟩
  | link kind requestId contents =>
    simp only [exec] at executed
    split_ifs at executed with there
    · simp only [some.injEq, mk.injEq] at executed
      rw [← executed.1]
      exact .refl _
    · simp only [some.injEq, mk.injEq] at executed
      rw [← executed.1]
      exact World.link_extends contents (by simpa using there)
  | unlock | deliver | answered =>
    simp only [exec, some.injEq, mk.injEq] at executed
    rw [← executed.1]
    exact ⟨id, by simp, by simp⟩
  | _ =>
    simp only [exec, some.injEq, mk.injEq] at executed
    rw [← executed.1]
    exact .refl _

theorem crash_extends (pid : ℕ) (w : World) : w.Extends (w.crash pid) :=
  ⟨id, refl _, refl _⟩

end Steps

/-! ## What files say -/

def isDelivery (requestId : String) (e : Event actions) : Bool :=
  match e.action with
  | .deliver _ body => body.requestId = requestId
  | _ => false

def Delivered (S : BudgetAuthorizationSettings) (trace : List (Event actions)) (document : Document)
    (outbound : Outbound) : Prop :=
  ∃ pid, (⟨pid, .deliver S.chatId document, .ok (some outbound)⟩ : Event actions) ∈ trace

structure BindsRequest (digest : Digest) (S : BudgetAuthorizationSettings) (s : Shared (machine digest))
    (requestId : String) (delivery : Delivery) (document : Document) : Prop where
  named : delivery.requestId = requestId
  request : s.world.files .request requestId = some document
  hashed : delivery.requestSha256 = digest.sha256 document
  body : BindsBody digest S document delivery.outbound
  delivered : Delivered S s.trace document delivery.outbound
  message : delivery.outbound ∈ s.world.messages.map fst

structure Authorized (T : Texts) (digest : Digest) (S : BudgetAuthorizationSettings) (s : Shared (machine digest))
    (requestId : String) (receipt : Receipt) : Prop where
  named : receipt.request.requestId = requestId
  normal : ∃ now, requestDocument T now receipt.request.value = .ok receipt.request
  hashed : receipt.requestSha256 = digest.sha256 receipt.request
  policy : receipt.policySha256 = receipt.request.policySha256
  delivery : BindsRequest digest S s requestId receipt.delivery receipt.request
  reply : receipt.inboundReceipt ∈ s.world.replies
  sender : FromFinancialSender S receipt.delivery.outbound.messageId receipt.inboundReceipt
  text : receipt.inboundReceipt.text = command receipt.request.requestId

structure Inv (T : Texts) (digest : Digest) (S : BudgetAuthorizationSettings) (s : Shared (machine digest)) :
    Prop where
  requests : ∀ requestId document, s.world.files .request requestId = some document →
    document.requestId = requestId ∧ ∃ raw now, requestDocument T now raw = .ok document
  unsent : ∀ requestId, s.world.files .intent requestId = none → s.trace.countP (isDelivery requestId) = 0
  once : ∀ requestId, s.trace.countP (isDelivery requestId) ≤ 1
  deliveries : ∀ requestId delivery, s.world.files .delivery requestId = some delivery →
    ∃ document, BindsRequest digest S s requestId delivery document
  receipts : ∀ requestId receipt, s.world.files .receipt requestId = some receipt →
    Authorized T digest S s requestId receipt

structure Entitled (digest : Digest) (pid : ℕ) (document : Document) (s : Shared (machine digest)) : Prop where
  request : s.world.files .request document.requestId = some document
  holds : s.world.locks (.delivery (digest.sha256 document)) = some pid
  unsent : s.trace.countP (isDelivery document.requestId) = 0

def grants (T : Texts) (digest : Digest) (S : BudgetAuthorizationSettings) (pid : ℕ) (s : Shared (machine digest)) :
    Act → Prop
  | .unlock lock => s.world.locks lock = some pid
  | .link .request requestId document =>
    document.requestId = requestId ∧ ∃ raw now, requestDocument T now raw = .ok document
  | .link .delivery requestId delivery => ∃ document, BindsRequest digest S s requestId delivery document
  | .link .receipt requestId receipt => Authorized T digest S s requestId receipt
  | .deliver chatId body => chatId = S.chatId ∧ Entitled digest pid body s ∧
      (s.world.files .intent body.requestId).isSome = true
  | _ => True

section Steps
variable {pid : ℕ} {action : Act} {response : action.Res} {s s' : Shared (machine digest)}

structure Later (s s' : Shared (machine digest)) : Prop where
  world : s.world.Extends s'.world
  trace : s.trace ⊆ s'.trace

theorem performs_later (performs : Performs pid action response s s') : Later s s' := by
  refine ⟨performs_extends performs, ?_⟩
  obtain ⟨-, -, extended⟩ := performs
  rw [extended]
  exact subset_cons_self _ _

variable {requestId : String}

theorem BindsRequest.later {delivery : Delivery} {document : Document}
    (binds : BindsRequest digest S s requestId delivery document) (later : Later s s') :
    BindsRequest digest S s' requestId delivery document where
  named := binds.named
  request := later.world.files binds.request
  hashed := binds.hashed
  body := binds.body
  delivered := binds.delivered.imp fun _ event => later.trace event
  message := map_subset _ later.world.messages binds.message

theorem Authorized.later {receipt : Receipt}
    (authorized : Authorized T digest S s requestId receipt) (later : Later s s') :
    Authorized T digest S s' requestId receipt where
  named := authorized.named
  normal := authorized.normal
  hashed := authorized.hashed
  policy := authorized.policy
  delivery := authorized.delivery.later later
  reply := later.world.replies authorized.reply
  sender := authorized.sender
  text := authorized.text

theorem performs_file (performs : Performs pid action response s s')
    {kind : Kind} {contents : kind.Contents} (found : s'.world.files kind requestId = some contents) :
    s.world.files kind requestId = some contents ∨ action = .link kind requestId contents := by
  obtain ⟨oracle, executed, -⟩ := performs
  cases action with
  | lock lock =>
    simp only [exec] at executed
    split_ifs at executed
    simp only [some.injEq, mk.injEq] at executed
    rw [← executed.1] at found
    exact .inl found
  | link other requestId' linked =>
    simp only [exec] at executed
    split_ifs at executed with there
    · simp only [some.injEq, mk.injEq] at executed
      rw [← executed.1] at found
      exact .inl found
    · simp only [some.injEq, mk.injEq] at executed
      rw [← executed.1] at found
      rcases World.link_found found with old | new
      · exact .inl old
      · cases new
        exact .inr rfl
  | _ =>
    simp only [exec, some.injEq, mk.injEq] at executed
    rw [← executed.1] at found
    exact .inl found

theorem performs_count (performs : Performs pid action response s s') (requestId : String) :
    s'.trace.countP (isDelivery requestId) = s.trace.countP (isDelivery requestId) +
      if isDelivery requestId ⟨pid, action, response⟩ = true then 1 else 0 := by
  obtain ⟨-, -, extended⟩ := performs
  rw [extended, countP_cons]

theorem isDelivery_eq_true {e : Event actions} (is : isDelivery requestId e = true) :
    ∃ chatId body, e.action = .deliver chatId body ∧ body.requestId = requestId := by
  obtain ⟨process, action, response⟩ := e
  cases action with
  | deliver chatId body => exact ⟨chatId, body, rfl, of_decide_eq_true is⟩
  | _ => cases is

theorem Inv.step (inv : Inv T digest S s) (granted : grants T digest S pid s action)
    (performs : Performs pid action response s s') : Inv T digest S s' where
  requests requestId document found := by
    rcases performs_file performs found with old | rfl
    · exact inv.requests requestId document old
    · exact granted
  unsent requestId absent := by
    have before : s.world.files .intent requestId = none := by
      cases there : s.world.files .intent requestId with
      | none => rfl
      | some intent => cases ((performs_extends performs).files there).symm.trans absent
    rw [performs_count performs, inv.unsent requestId before, if_neg]
    intro is
    obtain ⟨chatId, body, rfl, rfl⟩ := isDelivery_eq_true is
    obtain ⟨-, -, intended⟩ := granted
    simp [before] at intended
  once requestId := by
    rw [performs_count performs]
    split_ifs with is
    · obtain ⟨chatId, body, rfl, rfl⟩ := isDelivery_eq_true is
      obtain ⟨-, entitled, -⟩ := granted
      rw [entitled.unsent]
    · exact inv.once requestId
  deliveries requestId delivery found := by
    rcases performs_file performs found with old | rfl
    · exact (inv.deliveries requestId delivery old).imp fun _ binds => binds.later (performs_later performs)
    · exact granted.imp fun _ binds => binds.later (performs_later performs)
  receipts requestId receipt found := by
    rcases performs_file performs found with old | rfl
    · exact (inv.receipts requestId receipt old).later (performs_later performs)
    · exact Authorized.later granted (performs_later performs)

theorem Inv.crash (inv : Inv T digest S s) (dead : ℕ) : Inv T digest S (s.crash dead) := by
  have later : Later s (s.crash dead) := ⟨crash_extends dead _, refl _⟩
  exact ⟨inv.requests, inv.unsent, inv.once,
    fun requestId delivery found => (inv.deliveries requestId delivery found).imp fun _ binds => binds.later later,
    fun requestId receipt found => (inv.receipts requestId receipt found).later later⟩

end Steps

def authority (T : Texts) (digest : Digest) (S : BudgetAuthorizationSettings) : Protocol (machine digest) where
  inv := Inv T digest S
  grants := grants T digest S
  preserves := Inv.step
  survives dead inv := inv.crash dead

/-! ## What a process knows -/

section Knowledge
variable {pid : ℕ} {α : Type}

variable {L : Assertion (machine digest)}

theorem stable_of_later (kept : ∀ {s s'}, Later s s' → L s → L s') : (authority T digest S).Stable pid L := by
  intro s s' inv step holds
  cases step with
  | perform _ _ performs => exact kept (performs_later performs) holds
  | crash => exact kept ⟨crash_extends _ _, refl _⟩ holds

theorem framed_of_later {kind : Act → Prop}
    (kept : ∀ {s s'}, Later s s' → L s → L s') : (authority T digest S).Framed pid kind L :=
  ⟨stable_of_later kept, fun _ performs _ _ holds => kept (performs_later performs) holds⟩

def Held (pid : ℕ) (lock : LockId) : Assertion (machine digest) := fun s => s.world.locks lock = some pid

def Act.Keeps (lock : LockId) : Act → Prop
  | .unlock other => other ≠ lock
  | _ => True

variable {action : Act} {s : Shared (machine digest)} {lock : LockId}

theorem performs_held {actor : ℕ} {response : action.Res} {s' : Shared (machine digest)}
    (granted : grants T digest S actor s action) (performs : Performs actor action response s s')
    (keeps : actor = pid → action.Keeps lock) (held : Held pid lock s) : Held pid lock s' := by
  obtain ⟨oracle, executed, -⟩ := performs
  unfold Held at held ⊢
  cases action with
  | lock other =>
    simp only [exec] at executed
    split_ifs at executed with free
    simp only [some.injEq, mk.injEq] at executed
    rw [← executed.1]
    by_cases same : lock = other
    · subst same
      cases free.symm.trans held
    · simpa [update_of_ne same] using held
  | unlock other =>
    simp only [exec, some.injEq, mk.injEq] at executed
    rw [← executed.1]
    by_cases same : lock = other
    · subst same
      cases some.inj (held.symm.trans granted)
      exact absurd rfl (keeps rfl)
    · simpa [update_of_ne same] using held
  | link kind requestId contents =>
    simp only [exec] at executed
    split_ifs at executed <;> simp only [some.injEq, mk.injEq] at executed <;>
      rw [← executed.1] <;> exact held
  | _ =>
    simp only [exec, some.injEq, mk.injEq] at executed
    rw [← executed.1]
    exact held

theorem Held.crash {dead : ℕ} (held : Held pid lock s) (other : dead ≠ pid) : Held pid lock (s.crash dead) := by
  show (if s.world.locks lock = some dead then none else s.world.locks lock) = some pid
  rw [if_neg]
  · exact held
  · intro same
    exact other (some.inj (same.symm.trans held))

theorem framed_held (lock : LockId) : (authority T digest S).Framed pid (Act.Keeps lock) (Held pid lock) :=
  .of_keep (fun _ granted performs keeps held => performs_held granted performs keeps held)
    fun other held => held.crash other

def Act.Spares (digest : Digest) (document : Document) : Act → Prop
  | .unlock other => other ≠ .delivery (digest.sha256 document)
  | .deliver _ body => body.requestId ≠ document.requestId
  | _ => True

theorem framed_entitled (document : Document) :
    (authority T digest S).Framed pid (Act.Spares digest document) (Entitled digest pid document) := by
  refine .of_keep (fun {actor action response s s'} inv granted performs spares entitled => ?_)
    fun {dead s} other entitled => ?_
  · refine ⟨(performs_extends performs).files entitled.request, ?_, ?_⟩
    · refine performs_held granted performs (fun same => ?_) entitled.holds
      have kept := spares same
      cases action with
      | unlock => exact kept
      | _ => trivial
    · rw [performs_count performs, entitled.unsent, if_neg]
      intro is
      obtain ⟨chatId, body, rfl, named⟩ := isDelivery_eq_true is
      obtain ⟨-, theirs, -⟩ := granted
      have request := theirs.request
      rw [named] at request
      cases entitled.request.symm.trans request
      cases some.inj (entitled.holds.symm.trans theirs.holds)
      exact spares rfl rfl
  · exact ⟨entitled.request, Held.crash entitled.holds other, entitled.unsent⟩

def Act.Files : Act → Prop
  | .lock _ | .present _ _ | .read _ _ | .link _ _ _ => True
  | .unlock other => ∃ kind requestId, other = .writeOnce kind requestId
  | _ => False

theorem Act.Files.spares (files : action.Files) (document : Document) : action.Spares digest document := by
  cases action with
  | unlock lock =>
    obtain ⟨kind, requestId, rfl⟩ := files
    simp [Act.Spares]
  | deliver => exact files.elim
  | _ => trivial

section Files
variable {kind : Kind} {requestId : String} {contents : kind.Contents} {harmless : Act → Prop}
  {F : Assertion (machine digest)}

def Found (kind : Kind) (requestId : String) (contents : kind.Contents) : Assertion (machine digest) :=
  fun s => s.world.files kind requestId = some contents

theorem stable_found : (authority T digest S).Stable pid (Found kind requestId contents) :=
  stable_of_later fun later found => later.world.files found

variable (framed : (authority T digest S).Framed pid harmless F)
include framed

theorem safe_load (reads : harmless (.read kind requestId)) : (authority T digest S).Safe pid F (load kind requestId)
    (fun contents s => F s ∧ Found kind requestId contents s) fun _ => F := by
  refine .act (fun response s => F s ∧ ∀ contents, response = some contents →
    Found kind requestId contents s) (fun _ _ _ => trivial) (fun response => ?_) ?_ fun response => ?_
  · refine framed.stable.and fun s s' inv step known contents same => ?_
    exact stable_found s s' inv step (known contents same)
  · intro response s s' inv holds performs _
    refine ⟨framed.kept inv performs trivial reads holds, ?_⟩
    obtain ⟨oracle, executed, -⟩ := performs
    simp only [exec, some.injEq, mk.injEq] at executed
    rintro contents rfl
    rw [Found, ← executed.1, executed.2]
  · cases response with
    | none => exact fun s _ known => known.1
    | some contents => exact fun s _ known => ⟨known.1, known.2 contents rfl⟩

theorem safe_compare (reads : harmless (.read kind requestId))
    (complaint : String) : (authority T digest S).Safe pid F (compare kind requestId contents complaint)
    (fun _ s => F s ∧ ∃ there, Found kind requestId there s) fun _ => F := by
  refine (safe_load framed reads).bind fun there => ?_
  unfold Service.require Service.ofResult
  cases Python.require (kind.same there contents = true) (authorizationError (kind.label ++ complaint)) with
  | ok => exact fun s _ known => ⟨known.1, there, known.2⟩
  | error => exact fun s _ known => known.1

theorem safe_writeOnce (files : ∀ action : Act, action.Files → harmless action) (granted :
    ∀ s, Inv T digest S s → F s → grants T digest S pid s (.link kind requestId contents)) : (authority T digest S).Safe
    pid F (writeOnce kind requestId contents) (fun _ s => F s ∧ ∃ there, Found kind requestId there s) fun _ => F := by
  set lock := LockId.writeOnce kind requestId
  have held := @framed_held T digest S pid lock
  have both : (authority T digest S).Framed pid (fun action => action.Files ∧ action.Keeps lock)
      (fun s => F s ∧ Held pid lock s) :=
    (framed.mono fun action known => files action known.1).and (held.mono fun action known => known.2)
  have compared (complaint : String) := @safe_compare T digest S pid kind requestId contents _ _ both
    ⟨trivial, trivial⟩ complaint
  unfold writeOnce withLock
  refine .bind (Q := fun _ s => F s ∧ Held pid lock s) ?_ fun _ => ?_
  · refine .perform (fun _ _ _ => trivial) (fun _ => both.stable) fun _ s s' inv holds performs _ => ?_
    refine ⟨framed.kept inv performs trivial (files _ trivial) holds, ?_⟩
    obtain ⟨oracle, executed, -⟩ := performs
    simp only [exec] at executed
    split_ifs at executed
    simp only [some.injEq, mk.injEq] at executed
    rw [Held, ← executed.1]
    exact update_self _ _ _
  have unlocked {R : Assertion (machine digest)} (stable : (authority T digest S).Framed pid harmless R) :
      (authority T digest S).Safe pid (fun s => R s ∧ Held pid lock s) (act (.unlock lock)) (fun _ => R)
        fun _ => R := by
    refine .perform (fun _ _ known => known.2) (fun _ => stable.stable) fun _ s s' inv known performs _ => ?_
    exact stable.kept inv performs known.2 (files _ ⟨_, _, rfl⟩) known.1
  have present : (authority T digest S).Framed pid harmless fun s => F s ∧ ∃ there, Found kind requestId there s :=
    framed.and (framed_of_later fun later found => found.imp fun _ there => later.world.files there)
  refine .ensuring (A := fun _ s => (F s ∧ ∃ there, Found kind requestId there s) ∧ Held pid lock s)
    (B := fun _ s => F s ∧ Held pid lock s) ?_ (fun _ => (unlocked present).raising fun _ _ known => known.1) fun _ => unlocked framed
  refine .bind (both.perform ⟨trivial, trivial⟩ fun _ _ _ => trivial) fun found => ?_
  have settled (complaint : String) := (compared complaint).weaken (fun _ s known => (⟨⟨known.1.1, known.2⟩, known.1.2⟩ :
      (F s ∧ ∃ there, Found kind requestId there s) ∧ Held pid lock s)) fun _ _ => id
  split_ifs
  · exact settled _
  refine .bind (both.perform ⟨trivial, trivial⟩ fun s inv known => granted s inv known.1) fun created => ?_
  split_ifs
  · exact settled _
  · exact settled _

end Files

/-! ## What a call does -/

def Act.Reads : Act → Prop
  | .lock _ | .unlock _ | .link _ _ _ | .deliver _ _ | .answered _ => False
  | _ => True

theorem Act.Reads.keeps (reads : action.Reads) (lock : LockId) : action.Keeps lock := by
  cases action with
  | unlock => exact reads.elim
  | _ => trivial

theorem Act.Files.keeps (files : action.Files) (sha256 : String) : action.Keeps (.delivery sha256) := by
  cases action with
  | unlock other =>
    obtain ⟨kind, requestId, rfl⟩ := files
    show LockId.writeOnce kind requestId ≠ .delivery sha256
    simp
  | _ => trivial

section Reading
variable {program : Service α} {F : Assertion (machine digest)}

theorem granted_of_reads (pid : ℕ) (action : Act) (reads : action.Reads) (s : Shared (machine digest))
    (_ : Inv T digest S s) : grants T digest S pid s action := by
  cases action with
  | lock | unlock | link | deliver | answered => exact reads.elim
  | _ => trivial

theorem reads_require (condition : Prop) [Decidable condition] (message : String) :
    (require condition message).Only Act.Reads := .ofExcept _

theorem reads_load (kind : Kind) (requestId : String) : (load kind requestId).Only Act.Reads :=
  .bind ⟨trivial, fun _ => trivial⟩ fun found => by
    cases found <;> trivial

theorem reads_revalidated (outbound : Outbound) (message : String) : (revalidated outbound message).Only Act.Reads :=
  .bind ⟨trivial, fun _ => trivial⟩ fun _ => reads_require _ _

theorem reads_verifyReceipt (requestId : String) : (verifyReceipt T digest S requestId).Only Act.Reads := by
  unfold verifyReceipt checkReceipt
  exact .bind (reads_load _ _) fun _ => .bind ⟨trivial, fun _ => trivial⟩ fun _ => .bind (.ofExcept _) fun _ =>
    .bind (reads_require _ _) fun _ => .bind (reads_revalidated _ _) fun _ => .bind (reads_require _ _) fun _ =>
      .bind (reads_require _ _) fun _ => .bind ⟨trivial, fun _ => trivial⟩ fun _ => .bind (reads_require _ _) fun _ =>
        trivial

theorem safe_reads (only : program.Only Act.Reads) {harmless : Act → Prop}
    (framed : (authority T digest S).Framed pid harmless F) (reads : ∀ action : Act, action.Reads → harmless action) :
    (authority T digest S).Safe pid F program (fun _ => F) fun _ => F :=
  .of_only (fun action known s inv => granted_of_reads pid action known s inv) only (framed.mono reads)

theorem safe_ask {action : Act} (framed : (authority T digest S).Framed pid (fun _ => True) F) (reads : action.Reads) :
    (authority T digest S).Safe pid F (act action) (fun _ => F) fun _ _ => True :=
  framed.perform trivial fun s inv _ => granted_of_reads pid action reads s inv

end Reading

section Calls
variable {document : Document}

def Delivering (digest : Digest) (pid : ℕ) (document : Document) : Assertion (machine digest) := fun s =>
  Found .request document.requestId document s ∧ Held pid (.delivery (digest.sha256 document)) s

theorem framed_delivering : (authority T digest S).Framed pid (Act.Keeps (.delivery (digest.sha256 document)))
    (Delivering digest pid document) :=
  (framed_of_later fun later found => later.world.files found).and (framed_held _)

theorem safe_createRequest (raw : JsonText.Value) : (authority T digest S).Obeys pid (fun _ => True)
    (createRequest T raw) := by
  have anything : (authority T digest S).Framed pid (fun _ => True) fun _ => True := framed_of_later fun _ _ => trivial
  unfold createRequest
  refine .bind (anything.perform trivial fun _ _ _ => trivial) fun now => ?_
  refine .ofExcept_bind (fun document accepted => ?_) fun _ _ _ _ _ => trivial
  have written := @safe_writeOnce T digest S pid .request document.requestId document _ _ anything
    (fun _ _ => trivial) fun _ _ _ => ⟨rfl, raw, now, accepted⟩
  exact .bind (written.obeys)
    fun _ => fun _ _ _ => trivial

def Answered (S : BudgetAuthorizationSettings) (document : Document) (answer : Result (Option Outbound)) :
    Assertion (machine digest) := fun s =>
  ∀ outbound, answer = .ok (some outbound) →
    Delivered S s.trace document outbound ∧ outbound ∈ s.world.messages.map fst

theorem safe_post : (authority T digest S).Safe pid
    (fun s => Entitled digest pid document s ∧ ∃ intent, Found .intent document.requestId intent s)
    (post digest S document) (fun _ => Delivering digest pid document) fun _ => Delivering digest pid document := by
  have framed := @framed_delivering T digest S pid document
  have answered (answer : Result (Option Outbound)) : (authority T digest S).Framed pid (fun _ => True)
      (Answered S document answer) := framed_of_later fun later known outbound same =>
    ⟨(known outbound same).1.imp fun _ event => later.trace event,
      map_subset _ later.world.messages (known outbound same).2⟩
  have both (answer : Result (Option Outbound)) := framed.and ((answered answer).mono fun _ _ => trivial)
  unfold post
  refine .bind (Q := fun answer s => Delivering digest pid document s ∧ Answered S document answer s) ?_ fun answer => ?_
  · have entitles (s : Shared (machine digest)) (known : Entitled digest pid document s ∧
        ∃ intent, Found .intent document.requestId intent s) :
        grants T digest S pid s (.deliver S.chatId document) := by
      obtain ⟨entitled, intent, found⟩ := known
      refine ⟨rfl, entitled, ?_⟩
      rw [show s.world.files .intent document.requestId = some intent from found]
      rfl
    refine .perform (fun s _ known => entitles s known) (fun answer => (both answer).stable)
      fun answer s s' inv known performs _ => ?_
    refine ⟨framed.kept inv performs (entitles s known) trivial ⟨known.1.request, known.1.holds⟩, ?_⟩
    rintro outbound rfl
    obtain ⟨oracle, executed, extended⟩ := performs
    refine ⟨⟨pid, by rw [extended]; exact mem_cons_self⟩, ?_⟩
    simp only [exec, some.injEq, mk.injEq] at executed
    rw [← executed.1]
    cases posting : oracle.posting <;> simp [posting, Posting.outcome] at executed ⊢
    exact .inl executed.2.symm
  have refused (message : String) : (authority T digest S).Safe pid
      (fun s => Delivering digest pid document s ∧ Answered S document answer s)
      (.raise (authorizationError message) : Service Delivery) (fun _ => Delivering digest pid document)
      fun _ => Delivering digest pid document := fun _ _ known => known.1
  rcases answer with error | outbound
  · exact refused _
  cases outbound with
  | none => exact refused _
  | some outbound =>
    refine .ofExcept_bind (fun _ checked => ?_) fun _ _ _ _ known => known.1
    have body : BindsBody digest S document outbound := require_eq_ok.mp checked
    set delivery : Delivery := ⟨document.requestId, digest.sha256 document, outbound⟩
    have binds : (authority T digest S).Framed pid (fun _ => True)
        (fun s => BindsRequest digest S s document.requestId delivery document) :=
      framed_of_later fun later known => known.later later
    have written := @safe_writeOnce T digest S pid .delivery document.requestId delivery _ _
      (framed.and (binds.mono fun _ _ => trivial)) (fun _ files => files.keeps _) fun _ _ known => ⟨document, known.2⟩
    refine .bind ((written.consequence (fun s _ known => ⟨known.1, rfl, known.1.1, rfl, body,
      (known.2 outbound rfl).1, (known.2 outbound rfl).2⟩) (fun _ _ known => known.1.1) fun _ _ known => known.1))
      fun _ => ?_
    exact .bind (safe_reads (reads_revalidated _ _) framed fun _ reads => reads.keeps _) fun _ => fun _ _ => id

theorem safe_deliverLocked : (authority T digest S).Safe pid (Delivering digest pid document) (deliverLocked
    digest S document) (fun _ => Delivering digest pid document) fun _ => Delivering digest pid document := by
  have framed := @framed_delivering T digest S pid document
  unfold deliverLocked
  refine .bind (framed.perform trivial fun _ _ _ => trivial) fun delivered => ?_
  split_ifs
  · refine .bind (safe_reads (reads_load _ _) framed fun _ reads => reads.keeps _) fun _ => ?_
    exact .bind (safe_reads (reads_revalidated _ _) framed fun _ reads => reads.keeps _) fun _ => fun _ _ => id
  refine .bind (Q := fun intended s => Delivering digest pid document s ∧
    (intended = false → Entitled digest pid document s)) ?_ fun intended => ?_
  · refine .perform (fun _ _ _ => trivial) (fun intended => framed.stable.and
      fun s s' inv step known absent => (framed_entitled document).stable s s' inv step (known absent))
      fun intended s s' inv known performs _ => ?_
    refine ⟨framed.kept inv performs trivial trivial known, fun absent => ?_⟩
    obtain ⟨oracle, executed, extended⟩ := performs
    simp only [exec, some.injEq, mk.injEq] at executed
    have none : s.world.files .intent document.requestId = none := by simpa [absent] using executed.2
    refine ⟨by rw [← executed.1]; exact known.1, by rw [← executed.1]; exact known.2, ?_⟩
    rw [extended, countP_cons, inv.unsent _ none]
    rfl
  refine .ofExcept_bind (fun _ checked => ?_) fun _ _ _ _ known => known.1
  have absent : intended = false := require_eq_ok.mp checked
  have entitled := @framed_entitled T digest S pid document
  have written := @safe_writeOnce T digest S pid .intent document.requestId (intentFor digest S document) _ _
    entitled (fun _ files => files.spares document) fun _ _ _ => trivial
  exact .bind (written.consequence (fun _ _ known => known.2 absent) (fun _ _ => id)
    fun _ _ known => ⟨known.request, known.holds⟩) fun _ => safe_post

theorem safe_deliverRequest (document : Document) : (authority T digest S).Obeys pid (fun _ => True)
    (deliverRequest digest S document) := by
  have anything : (authority T digest S).Framed pid (fun _ => True) fun _ => True := framed_of_later fun _ _ => trivial
  unfold deliverRequest
  refine .bind (safe_load anything trivial) fun persisted => ?_
  refine .ofExcept_bind (fun _ checked => ?_) fun _ _ _ _ _ => trivial
  obtain rfl := digest.injective (require_eq_ok.mp checked).2
  unfold withLock
  have found : (authority T digest S).Framed pid (fun _ => True)
      (Found .request persisted.requestId persisted) := framed_of_later fun later known => later.world.files known
  refine .bind (Q := fun _ => Delivering digest pid persisted) ?_ fun _ => ?_
  · refine .perform (fun _ _ _ => trivial) (fun _ => framed_delivering.stable)
      fun _ s s' inv known performs _ => ?_
    refine ⟨found.kept inv performs trivial trivial known.2, ?_⟩
    obtain ⟨oracle, executed, -⟩ := performs
    simp only [exec] at executed
    split_ifs at executed
    simp only [some.injEq, mk.injEq] at executed
    rw [Held, ← executed.1]
    exact update_self _ _ _
  have unlocked : (authority T digest S).Obeys pid (Delivering digest pid persisted)
      (act (.unlock (.delivery (digest.sha256 persisted)))) :=
    Protocol.Safe.perform (fun _ _ known => known.2) (fun _ => anything.stable) fun _ _ _ _ _ _ _ => trivial
  exact .ensuring safe_deliverLocked (fun _ => unlocked) fun _ => unlocked

theorem safe_verifiedReply {F : Assertion (machine digest)} (framed : (authority T digest S).Framed pid (fun _ => True)
    F) (messageId : ℤ) : (authority T digest S).Safe pid F (verifiedReply S messageId)
    (fun answer s => F s ∧ ∀ reply, answer = some reply → reply ∈ s.world.replies) fun _ => F := by
  have both (answer : Option AuthenticatedApprovalReply) : (authority T digest S).Framed pid (fun _ => True)
      fun s => F s ∧ ∀ reply, answer = some reply → reply ∈ s.world.replies :=
    framed.and (framed_of_later fun later known reply same => later.world.replies (known reply same))
  have picked {s s' : Shared (machine digest)} {answer : Option AuthenticatedApprovalReply} {oracle : Oracle}
      (executed : some (s.world, oracle.pick.bind fun n => s.world.replies[n]?) = some (s'.world, answer)) :
      ∀ reply, answer = some reply → reply ∈ s'.world.replies := by
    simp only [some.injEq, mk.injEq] at executed
    rintro reply rfl
    obtain ⟨n, -, at_n⟩ := bind_eq_some_iff.mp executed.2
    rw [← executed.1]
    exact mem_of_getElem? at_n
  unfold verifiedReply
  refine .bind (Q := fun answer s => F s ∧ ∀ reply, answer = some reply → reply ∈ s.world.replies) ?_ fun claimed => ?_
  · refine .perform (fun _ _ _ => trivial) (fun answer => (both answer).stable)
      fun answer s s' inv known performs _ => ?_
    refine ⟨framed.kept inv performs trivial trivial known, ?_⟩
    obtain ⟨oracle, executed, -⟩ := performs
    exact picked executed
  split_ifs
  · refine .perform (fun _ _ _ => trivial) (fun answer => (both answer).stable)
      fun answer s s' inv known performs _ => ?_
    refine ⟨framed.kept inv performs trivial trivial known.1, ?_⟩
    obtain ⟨oracle, executed, -⟩ := performs
    exact picked executed
  · exact fun _ _ => id

theorem safe_issue {requestId : String} {request : Document} {delivery : Delivery} (named : request.requestId =
    requestId) (normal : ∃ now, requestDocument T now request.value = .ok request) : (authority T digest S).Obeys
    pid (fun s => BindsRequest digest S s requestId delivery request) (issue digest S request delivery) := by
  have binds : (authority T digest S).Framed pid (fun _ => True)
      (fun s => BindsRequest digest S s requestId delivery request) :=
    framed_of_later fun later known => known.later later
  unfold issue
  refine .bind ((safe_verifiedReply binds _).raising fun _ _ _ => trivial) fun answer => ?_
  cases answer with
  | none => exact fun _ _ _ => trivial
  | some reply =>
    refine .ofExcept_bind (fun _ sent => ?_) fun _ _ _ _ _ => trivial
    refine .ofExcept_bind (fun _ written => ?_) fun _ _ _ _ _ => trivial
    have made : (authority T digest S).Framed pid (fun _ => True) (fun s =>
        BindsRequest digest S s requestId delivery request ∧ reply ∈ s.world.replies) :=
      binds.and (framed_of_later fun later known => later.world.replies known)
    set receipt : Receipt := ⟨request, digest.sha256 request, request.policySha256, delivery, reply⟩
    have linked := @safe_writeOnce T digest S pid .receipt request.requestId receipt _ _ made (fun _ _ => trivial)
      fun s _ known => ⟨rfl, normal, rfl, rfl, named ▸ known.1, known.2, require_eq_ok.mp sent, require_eq_ok.mp written⟩
    exact .bind (linked.consequence (fun _ _ known => ⟨known.1, known.2 reply rfl⟩) (fun _ _ _ => trivial)
      fun _ _ _ => trivial) fun _ => fun _ _ _ => trivial

theorem safe_confirm (delivery : Delivery) : (authority T digest S).Obeys pid (fun _ => True)
    (confirm T digest S delivery) := by
  have anything : (authority T digest S).Framed pid (fun _ => True) fun _ => True := framed_of_later fun _ _ => trivial
  have found {kind : Kind} {requestId : String} {contents : kind.Contents} :
      (authority T digest S).Framed pid (fun _ => True) (Found kind requestId contents) :=
    framed_of_later fun later known => later.world.files known
  unfold confirm
  refine .bind (Q := fun current => Found .delivery delivery.requestId current) ((safe_load anything trivial).weaken (fun _ _ known => known.2) fun _ _ _ => trivial) fun current => ?_
  refine .ofExcept_bind (fun _ checked => ?_) fun _ _ _ _ _ => trivial
  obtain ⟨rfl, -⟩ := require_eq_ok.mp checked
  refine .bind ((safe_reads (reads_revalidated _ _) found fun _ _ => trivial).raising fun _ _ _ => trivial) fun _ => ?_
  refine .bind ((safe_load found trivial).raising fun _ _ _ => trivial) fun stored => ?_
  have both : (authority T digest S).Framed pid (fun _ => True) fun s =>
      Found .delivery current.requestId current s ∧ Found .request current.requestId stored s := found.and found
  refine .bind (safe_ask both trivial) fun now => ?_
  refine .ofExcept_bind (fun request accepted => ?_) fun _ _ _ _ _ => trivial
  refine .ofExcept_bind (fun _ bound => ?_) fun _ _ _ _ _ => trivial
  have hashed : current.requestSha256 = digest.sha256 request := require_eq_ok.mp bound
  -- the stored request is the normalised one
  have binding (s : Shared (machine digest)) (inv : Inv T digest S s)
      (known : Found .delivery current.requestId current s ∧ Found .request current.requestId stored s) :
      stored = request ∧ BindsRequest digest S s current.requestId current stored := by
    obtain ⟨document, binds⟩ := inv.deliveries _ _ known.1
    obtain rfl : document = stored := some.inj (binds.request.symm.trans known.2)
    exact ⟨digest.injective (binds.hashed.symm.trans hashed), binds⟩
  refine .bind (safe_ask both trivial) fun receipted => ?_
  split_ifs
  · exact (safe_reads (reads_verifyReceipt _) anything fun _ _ => trivial).strengthen fun _ _ _ => trivial
  refine .given (fun s inv known => (binding s inv known).1) fun same => ?_
  subst same
  refine .given (fun s inv known => (inv.requests _ _ known.2).1) fun named => ?_
  exact (safe_issue named ⟨now, accepted⟩).strengthen fun s inv known => (binding s inv known).2

theorem admits_calls : (authority T digest S).Admits (calls T digest S) := by
  have anything {pid : ℕ} : (authority T digest S).Framed pid (fun _ => True) fun _ => True :=
    framed_of_later fun _ _ => trivial
  rintro - ⟨call, rfl⟩ pid
  cases call with
  | createRequest raw => exact (safe_createRequest raw).bind fun _ => fun _ _ _ => trivial
  | deliverRequest document => exact (safe_deliverRequest document).bind fun _ => fun _ _ _ => trivial
  | confirm delivery => exact (safe_confirm delivery).bind fun _ => fun _ _ _ => trivial
  | load requestId =>
    refine .bind (Q := fun _ _ => True) ?_ fun _ => fun _ _ _ => trivial
    exact .bind (safe_reads (reads_verifyReceipt _) anything fun _ _ => trivial) fun _ => fun _ _ _ => trivial
  | answer reply => exact Protocol.Framed.perform anything trivial fun _ _ _ => trivial

end Calls

end Knowledge

/-! ## The chain -/

theorem initial_inv : Inv T digest S ⟨World.empty, []⟩ where
  requests _ _ found := by cases found
  unsent _ _ := rfl
  once _ := Nat.zero_le _
  deliveries _ _ found := by cases found
  receipts _ _ found := by cases found

theorem inv_of_reaches {c : Config (machine digest) Error}
    (reached : Reaches (calls T digest S) anyStep (Config.initial World.empty) c) : Inv T digest S c.toShared :=
  ((Protocol.Sound.initial (P := authority T digest S) initial_inv).reaches admits_calls reached).inv

end VideoPoster.Authorization
