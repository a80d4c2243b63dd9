import VideoPoster.Interleaving.RelyGuarantee
import VideoPoster.Delivery.Controller

/-!
# Each gate is delivered at most once, and the thumbnail first
-/

namespace VideoPoster.Delivery
open Python Approval Interleaving Option Function Program List Config Prod Protocol.Safe

def isSend (slot : Slot) (e : Event actions) : Bool :=
  match e.action with
  | .send sent _ _ _ => sent = slot
  | _ => false

def sends (slot : Slot) (trace : List (Event actions)) : ℕ := trace.countP (isSend slot)

def Act.quiet : Act → Prop
  | .look _ | .receiptExists _ | .readReceipt _ | .attemptExists _ | .readAttempt _
  | .writeAttempt _ _ | .afterPersist _ => True
  | _ => False

/-- A receipt of the thumbnail is there, for the destination and the episode of the caption, and the
process has read it and seen the bytes that it names. -/
def Delivered (w : World) (trace : List (Event actions)) (pid : ℕ) (root chatId caption : String) :
    Prop :=
  ∃ episodeId thumbnail receipt, caption = episodeId ++ " — revisão" ∧
    thumbnail.artifactKind = "thumbnail" ∧
    w.receipt ⟨root, .thumbnail⟩ = some (.ok receipt) ∧
    receipt.binds chatId episodeId thumbnail = true ∧
    (⟨pid, .readReceipt ⟨root, .thumbnail⟩, (.ok receipt : Result Document)⟩ : Event actions) ∈ trace ∧
    (⟨pid, .look thumbnail.artifactPath, (.ok (some thumbnail.artifactSha256) : Look)⟩ : Event actions) ∈ trace

structure Inv (s : Shared machine) : Prop where
  once : ∀ slot, sends slot s.trace ≤ 1
  intended : ∀ slot, s.world.attempt slot = none → sends slot s.trace = 0
  ordered : ∀ later earlier pid root chatId path caption, ∀ reply : Reply,
    s.trace = later ++ ⟨pid, .send ⟨root, .video⟩ chatId path caption, reply⟩ :: earlier →
    Delivered s.world earlier pid root chatId caption

def grants (pid : ℕ) (s : Shared machine) : Act → Prop
  | .unlock slot => s.world.lock slot = some pid
  | .send slot chatId _ caption =>
    s.world.lock slot = some pid ∧ sends slot s.trace = 0 ∧
      (s.world.attempt slot).isSome = true ∧
      (slot.gate = .video → Delivered s.world s.trace pid slot.root chatId caption)
  | .writeReceipt slot _ => s.world.lock slot = some pid ∧ s.world.receipt slot = none
  | _ => True

/-! ## Steps -/

inductive Change (pid : ℕ) (w : World) : Act → World → Prop
  | same (action : Act) : Change pid w action w
  | locked (slot : Slot) (free : w.lock slot = none) :
      Change pid w (.lock slot) { w with lock := update w.lock slot (some pid) }
  | unlocked (slot : Slot) :
      Change pid w (.unlock slot) { w with lock := update w.lock slot none }
  | intended (slot : Slot) (intent : Json) :
      Change pid w (.writeAttempt slot intent)
        { w with attempt := update w.attempt slot (some (.ok ⟨intent, false⟩)) }
  | receipted (slot : Slot) (receipt : Document) :
      Change pid w (.writeReceipt slot receipt)
        { w with receipt := update w.receipt slot (some (.ok receipt)) }

variable {pid : ℕ} {w w' : World} {action : Act}

theorem change_of_written {changed : World} {failure : Option Error} {r : Result Unit} (change :
    Change pid w action changed) (is : some (written failure w changed) = some (w', r)) : Change pid w action w' := by
  rcases written_eq (some.inj is) with ⟨rfl, -⟩ | ⟨rfl, -⟩
  · exact .same action
  · exact change

theorem change_of_exec {oracle : Oracle}
    {response : action.Res} (executed : exec oracle pid w action = some (w', response)) : Change pid w action w' := by
  cases action with
  | lock slot =>
    simp only [exec] at executed
    split at executed
    · cases executed
      exact .same _
    · split at executed
      · rename_i free
        cases executed
        exact .locked slot free
      · cases executed
  | unlock slot =>
    cases executed
    exact .unlocked slot
  | writeAttempt slot intent => exact change_of_written (.intended slot intent) executed
  | writeReceipt slot receipt => exact change_of_written (.receipted slot receipt) executed
  | _ =>
    cases executed
    exact .same _

namespace Change
variable {pid : ℕ} {action : Act} {w w' : World} {slot : Slot}

variable (change : Change pid w action w')
include change

theorem receipt (other : ∀ receipt, action ≠ .writeReceipt slot receipt) : w'.receipt slot = w.receipt slot := by
  cases change with
  | receipted written receipt =>
    have ne : slot ≠ written := fun same => other receipt (same ▸ rfl)
    exact update_of_ne ne _ _
  | _ => rfl

theorem attempt (there : (w.attempt slot).isSome = true) : (w'.attempt slot).isSome = true := by
  cases change with
  | intended written intent =>
    by_cases own : slot = written
    · simp [own]
    · simpa [update_of_ne own] using there
  | _ => exact there

theorem lock {holder : ℕ} (held : w.lock slot = some holder)
    (other : action ≠ .unlock slot) : w'.lock slot = some holder := by
  cases change with
  | locked taken free =>
    have ne : slot ≠ taken := by
      rintro rfl
      rw [held] at free
      cases free
    simpa [update_of_ne ne] using held
  | unlocked dropped =>
    have ne : slot ≠ dropped := fun same => other (same ▸ rfl)
    simpa [update_of_ne ne] using held
  | _ => exact held

end Change

variable {root : String}

section Steps
variable {pid : ℕ} {action : Act} {response : action.Res} {s s' : Shared machine}

section
variable (performs : Performs pid action response s s')
include performs

theorem change_of_performs : Change pid s.world action s'.world :=
  change_of_exec performs.choose_spec.1

theorem trace_of_performs : s'.trace = ⟨pid, action, response⟩ :: s.trace :=
  performs.choose_spec.2

theorem sends_of_performs (slot : Slot) :
    sends slot s'.trace = sends slot s.trace + if isSend slot ⟨pid, action, response⟩ then 1 else 0 := by
  rw [trace_of_performs performs, sends, countP_cons]
  rfl

variable {slot : Slot}

theorem sends_eq (other : isSend slot ⟨pid, action, response⟩ = false) : sends slot s'.trace = sends slot s.trace := by
  rw [sends_of_performs performs, other]
  rfl

end

theorem receipt_kept (granted : grants pid s action) (performs : Performs pid action response s s') {receipt :
    Result Document} (there : s.world.receipt slot = some receipt) : s'.world.receipt slot = some receipt := by
  rw [(change_of_performs performs).receipt, there]
  rintro written rfl
  rw [granted.2] at there
  cases there

variable {reader : ℕ} {chatId caption : String} {trace : List (Event actions)}

theorem Delivered.kept (granted : grants pid s action) (performs : Performs pid action response s s') (delivered :
    Delivered s.world trace reader root chatId caption) : Delivered s'.world trace reader root chatId caption := by
  obtain ⟨episodeId, thumbnail, receipt, is, kind, there, rest⟩ := delivered
  exact ⟨episodeId, thumbnail, receipt, is, kind, receipt_kept granted performs there, rest⟩

variable {e : Event actions}

theorem Delivered.later {w : World} (delivered : Delivered w trace reader root chatId caption) :
    Delivered w (e :: trace) reader root chatId caption := by
  obtain ⟨episodeId, thumbnail, receipt, is, kind, there, binds, read, looked⟩ := delivered
  exact ⟨episodeId, thumbnail, receipt, is, kind, there, binds, .tail _ read, .tail _ looked⟩

theorem isSend_eq_true (sent : isSend slot e = true) :
    ∃ chatId path caption, e.action = .send slot chatId path caption := by
  obtain ⟨process, action, response⟩ := e
  cases action with
  | send sentSlot chatId path caption =>
    obtain rfl : sentSlot = slot := of_decide_eq_true sent
    exact ⟨chatId, path, caption, rfl⟩
  | _ => cases sent

theorem Inv.step (inv : Inv s) (granted : grants pid s action)
    (performs : Performs pid action response s s') : Inv s' := by
  constructor
  · intro slot
    rw [sends_of_performs performs]
    split
    · rename_i sent
      obtain ⟨_, _, _, rfl⟩ := isSend_eq_true sent
      rw [granted.2.1]
    · exact inv.once slot
  · intro slot missing
    have before : s.world.attempt slot = none := by
      by_contra there
      have later := (change_of_performs performs).attempt (isSome_iff_ne_none.mpr there)
      rw [missing] at later
      cases later
    rw [sends_of_performs performs, inv.intended slot before]
    split
    · rename_i sent
      obtain ⟨_, _, _, rfl⟩ := isSend_eq_true sent
      have there := granted.2.2.1
      rw [before] at there
      cases there
    · rfl
  · intro later earlier sender root chatId path caption reply is
    rw [trace_of_performs performs] at is
    cases later with
    | nil =>
      obtain ⟨same, rfl⟩ := cons.inj is
      cases same
      exact (granted.2.2.2 rfl).kept granted performs
    | cons e later =>
      obtain ⟨-, split⟩ := cons.inj is
      exact (inv.ordered later earlier sender root chatId path caption reply split).kept granted performs

end Steps

def discipline : Protocol machine where
  inv := Inv
  grants := grants
  preserves := Inv.step
  survives := fun _ inv => ⟨inv.once, inv.intended, inv.ordered⟩

/-! ## What a process knows -/

def Holding (pid : ℕ) (slot : Slot) (K : Option (Result Document) → ℕ → Prop) : Assertion machine :=
  fun s => s.world.lock slot = some pid ∧ K (s.world.receipt slot) (sends slot s.trace)

def Intended (slot : Slot) : Assertion machine := fun s => (s.world.attempt slot).isSome = true

def Evident (pid : ℕ) (slot : Slot) (chatId caption : String) : Assertion machine :=
  fun s => slot.gate = .video → Delivered s.world s.trace pid slot.root chatId caption

section Conduct
variable {pid : ℕ} {slot : Slot} {K : Option (Result Document) → ℕ → Prop}
  {chatId episodeId caption : String} {approval : ApprovalReceipt}

variable {action : Act}

theorem granted_of_quiet (quiet : action.quiet) (s : Shared machine) : grants pid s action := by
  cases action with
  | unlock | send | writeReceipt => cases quiet
  | _ => trivial

variable {s s' : Shared machine}

theorem holding_keep {actor : ℕ} {response : action.Res}
    (granted : grants actor s action) (performs : Performs actor action response s s')
    (own : actor = pid → action.quiet) (holding : Holding pid slot K s) : Holding pid slot K s' := by
  have foreign : s.world.lock slot = some actor → action.quiet := by
    intro held
    rw [holding.1] at held
    cases held
    exact own rfl
  have change := change_of_performs performs
  refine ⟨change.lock holding.1 ?_, ?_⟩
  · rintro rfl
    exact foreign granted
  · have receipt : s'.world.receipt slot = s.world.receipt slot := by
      apply change.receipt
      rintro written rfl
      exact foreign granted.1
    have count : sends slot s'.trace = sends slot s.trace := by
      apply sends_eq performs
      by_contra sent
      obtain ⟨_, _, _, rfl⟩ := isSend_eq_true (Bool.of_not_eq_false sent)
      exact foreign granted.1
    rw [receipt, count]
    exact holding.2

theorem framed_holding : discipline.Framed pid Act.quiet (Holding pid slot K) := by
  refine .of_keep (fun _ granted performs own => holding_keep granted performs own) ?_
  intro dead s foreign holding
  refine ⟨?_, holding.2⟩
  have held : some pid ≠ some dead := fun same => foreign (some.inj same).symm
  change (if s.world.lock slot = some dead then none else s.world.lock slot) = some pid
  rw [holding.1, if_neg held]

theorem framed_intended : discipline.Framed pid (fun _ => True) (Intended slot) :=
  Protocol.Framed.of_keep (fun _ _ performs _ => (change_of_performs performs).attempt)
    fun _ => id

theorem framed_delivered : discipline.Framed pid (fun _ => True) fun s =>
    Delivered s.world s.trace pid root chatId caption := by
  refine .of_keep ?_ fun _ => id
  intro actor action response s s' _ granted performs _ delivered
  rw [trace_of_performs performs]
  exact (delivered.kept granted performs).later

theorem framed_evident : discipline.Framed pid (fun _ => True) (Evident pid slot chatId caption) :=
  framed_delivered.imp

variable {F : Assertion machine}

variable {α : Type}

theorem safe_quiet {program : Program α} (only : program.Only Act.quiet)
    (framed : discipline.Framed pid Act.quiet F) : discipline.Safe pid F program (fun _ => F) fun _ => F :=
  of_only (fun _ quiet s _ => granted_of_quiet quiet s) only framed

theorem only_recoverReceipt (slot : Slot) : (recoverReceipt slot chatId episodeId approval).Only Act.quiet :=
  .request trivial fun _ => .bind (.ofExcept _) fun _ =>
    .request trivial fun _ => trivial

theorem only_refuse : (refuse slot chatId episodeId approval).Only Act.quiet :=
  .request trivial fun _ => .bind (.ofExcept _) fun _ => trivial

abbrev Locked (pid : ℕ) (slot : Slot) : Assertion machine := Holding pid slot fun _ _ => True

theorem safe_unlock (held : ∀ s, F s → s.world.lock slot = some pid) : discipline.Obeys
    pid F (Prog.act (I := actions) (.unlock slot) .pure : Program Bool) :=
  perform (fun s _ known => held s known) (fun _ => .true) fun _ _ _ _ _ _ _ => trivial

theorem safe_gateLock {body : Program α} (framed : discipline.Framed pid (fun _ => True) F) (safe :
    discipline.Safe pid (fun s => Locked pid slot s ∧ F s) body (fun _ => Locked pid slot) fun _ => Locked pid slot) :
    discipline.Obeys pid F (gateLock slot body) := by
  refine .bind (Q := fun _ s => Locked pid slot s ∧ F s) ?_ fun cancelled => ?_
  · refine .request (fun _ _ _ => trivial)
      (fun _ => framed_holding.stable.and framed.stable) (fun _ => .true) ?_ fun _ _ _ _ _ _ _ _ _ =>
        trivial
    rintro r cancelled s s' rfl inv known performs -
    refine ⟨⟨?_, trivial⟩, framed.kept inv performs trivial trivial known⟩
    obtain ⟨oracle, executed, -⟩ := performs
    change exec oracle pid s.world (.lock slot) = some (s'.world, .ok cancelled) at executed
    simp only [exec] at executed
    split at executed
    · cases (mk.inj (some.inj executed)).2
    · split at executed
      · rw [← (mk.inj (some.inj executed)).1]
        exact update_self _ _ _
      · cases executed
  · cases cancelled with
    | true =>
      refine .bind (safe_unlock fun _ known => known.1.1) fun _ => ?_
      exact .raise_of fun _ _ _ => trivial
    | false =>
      refine safe.attempt_bind (fun value => ?_) fun e => ?_
      all_goals
        refine .bind (safe_unlock fun _ known => known.1) fun cancelled => ?_
        cases cancelled <;> exact fun _ _ _ => trivial

theorem intended_of_writeAttempt {intent : Json} (performs :
    Performs (M := machine) pid (.writeAttempt slot intent) (.ok () : Result Unit) s s') : Intended slot s' := by
  obtain ⟨oracle, executed, -⟩ := performs
  rcases written_eq (some.inj executed) with ⟨-, refused⟩ | ⟨same, -⟩
  · exact absurd rfl refused
  · rw [Intended, same]
    simp

variable {callback : Bool}

theorem safe_sendOnce : discipline.Safe pid
      (fun s => Holding pid slot (fun receipt count => receipt = none ∧ count = 0) s ∧
        Evident pid slot chatId (episodeId ++ " — revisão") s)
      (sendOnce slot chatId episodeId approval callback) (fun _ => Locked pid slot)
      fun _ => Locked pid slot := by
  have framed : discipline.Framed pid Act.quiet fun s =>
      Holding pid slot (fun receipt count => receipt = none ∧ count = 0) s ∧
        Evident pid slot chatId (episodeId ++ " — revisão") s :=
    framed_holding.and (framed_evident.mono fun _ _ => trivial)
  refine .bind (Q := fun _ s => (Holding pid slot (fun receipt count => receipt = none ∧ count = 0) s ∧
      Evident pid slot chatId (episodeId ++ " — revisão") s) ∧ Intended slot s) ?_ fun _ => ?_
  · refine .request (fun _ _ _ => trivial)
      (fun _ => framed.stable.and framed_intended.stable) (fun _ => framed_holding.stable) ?_ ?_
    · rintro r value s s' rfl inv known performs -
      exact ⟨framed.kept inv performs trivial trivial known, intended_of_writeAttempt performs⟩
    · rintro r e s s' - inv known performs -
      exact ⟨(framed.kept inv performs trivial trivial known).1.1, trivial⟩
  refine .bind (Q := fun _ => Holding pid slot fun receipt _ => receipt = none) ?_ fun messageId => ?_
  · have after : ∀ (reply : Reply) (s s' : Shared machine), (s.world.lock slot = some pid ∧
        s.world.receipt slot = none) →
        Performs (M := machine) pid (.send slot chatId approval.artifactPath
          (episodeId ++ " — revisão")) reply s s' →
        Holding pid slot (fun receipt _ => receipt = none) s' := by
      intro reply s s' known performs
      have change := change_of_performs performs
      refine ⟨change.lock known.1 nofun, ?_⟩
      rw [change.receipt nofun]
      exact known.2
    refine .request ?_ (fun _ => framed_holding.stable) (fun _ => framed_holding.stable) ?_ ?_
    · intro s _ known
      exact ⟨known.1.1.1, known.1.1.2.2, known.2, known.1.2⟩
    · intro reply id s s' _ _ known performs _
      exact after reply s s' ⟨known.1.1.1, known.1.1.2.1⟩ performs
    · intro reply e s s' _ _ known performs _
      exact ⟨(after reply s s' ⟨known.1.1.1, known.1.1.2.1⟩ performs).1, trivial⟩
  refine .bind (Q := fun _ => Locked pid slot) ?_ fun _ => ?_
  · have after : ∀ (r : Result Unit) (s s' : Shared machine), s.world.lock slot = some pid →
        Performs (M := machine) pid (.writeReceipt slot
          (receiptOf chatId episodeId approval messageId)) r s s' → Locked pid slot s' :=
      fun r s s' held performs => ⟨(change_of_performs performs).lock held nofun, trivial⟩
    refine .request (fun _ _ => id) (fun _ => framed_holding.stable)
      (fun _ => framed_holding.stable) ?_ ?_
    · intro r _ s s' _ _ known performs _
      exact after r s s' known.1 performs
    · intro r _ s s' _ _ known performs _
      exact after r s s' known.1 performs
  refine .bind (safe_quiet (only_recoverReceipt slot) framed_holding) fun _ => ?_
  cases callback with
  | true => exact safe_quiet (.request trivial fun _ => trivial) framed_holding
  | false => exact fun _ _ => id

theorem safe_send {supported : Bool} :
    discipline.Obeys pid (Evident pid slot chatId (episodeId ++ " — revisão"))
      (send slot chatId episodeId approval supported callback) := by
  refine safe_gateLock framed_evident ?_
  have looks : ∀ {program : Program Document}, program.Only Act.quiet → ∀ K : Option (Result Document) → ℕ → Prop,
      discipline.Safe pid (fun s => Holding pid slot K s ∧
        Evident pid slot chatId (episodeId ++ " — revisão") s) program (fun _ => Locked pid slot)
        fun _ => Locked pid slot :=
    fun only K => (safe_quiet only framed_holding).consequence (fun _ _ known => known.1)
      (fun _ _ known => ⟨known.1, trivial⟩) fun _ _ known => ⟨known.1, trivial⟩
  refine .bind (Q := fun delivered s =>
    Holding pid slot (fun receipt _ => delivered = false → receipt = none) s ∧
      Evident pid slot chatId (episodeId ++ " — revisão") s) ?_ fun delivered => ?_
  · refine .perform (fun _ _ _ => trivial)
      (fun _ => framed_holding.stable.and framed_evident.stable) ?_
    intro delivered s s' inv known performs _
    have kept := framed_evident.kept inv performs trivial trivial known.2
    obtain ⟨_, executed, -⟩ := performs
    obtain ⟨same, rfl⟩ := mk.inj (some.inj executed)
    refine ⟨⟨same ▸ known.1.1, fun missing => ?_⟩, kept⟩
    rw [← same]
    exact isSome_eq_false_iff.mp missing |> isNone_iff_eq_none.mp
  cases delivered with
  | true => exact looks (only_recoverReceipt slot) _
  | false =>
    refine .ofExcept_bind (fun _ _ => ?_) fun _ _ _ _ known => ⟨known.1.1, trivial⟩
    refine .bind (Q := fun attempted s =>
      Holding pid slot (fun receipt count => receipt = none ∧ (attempted = false → count = 0)) s ∧
        Evident pid slot chatId (episodeId ++ " — revisão") s) ?_ fun attempted => ?_
    · refine .perform (fun _ _ _ => trivial)
        (fun _ => framed_holding.stable.and framed_evident.stable) ?_
      intro attempted s s' inv known performs inv'
      have kept := framed_evident.kept inv performs trivial trivial known.2
      obtain ⟨_, executed, -⟩ := performs
      obtain ⟨same, rfl⟩ := mk.inj (some.inj executed)
      refine ⟨⟨same ▸ known.1.1, same ▸ known.1.2 rfl, fun missing => ?_⟩, kept⟩
      apply inv'.intended
      rw [← same]
      exact isSome_eq_false_iff.mp missing |> isNone_iff_eq_none.mp
    cases attempted with
    | true => exact looks only_refuse _
    | false =>
      refine safe_sendOnce.strengthen fun s _ known => ⟨⟨known.1.1, known.1.2.1, ?_⟩, known.2⟩
      exact known.1.2.2 rfl

def Seen (pid : ℕ) (slot : Slot) (receipt : Document) : Assertion machine := fun s =>
  s.world.receipt slot = some (.ok receipt) ∧
    (⟨pid, .readReceipt slot, (.ok receipt : Result Document)⟩ : Event actions) ∈ s.trace

theorem framed_seen {receipt : Document} : discipline.Framed pid (fun _ => True) (Seen pid slot receipt) := by
  refine .of_keep ?_ fun _ => id
  intro actor action response s s' _ granted performs _ seen
  refine ⟨receipt_kept granted performs seen.1, ?_⟩
  rw [trace_of_performs performs]
  exact .tail _ seen.2

theorem seen_of_readReceipt {receipt : Document} (performs : Performs (M := machine)
    pid (.readReceipt slot) (.ok receipt : Result Document) s s') : Seen pid slot receipt s' := by
  refine ⟨?_, ?_⟩
  · obtain ⟨_, executed, -⟩ := performs
    obtain ⟨same, read⟩ := mk.inj (some.inj executed)
    rw [← same]
    cases there : s.world.receipt slot with
    | none =>
      rw [there] at read
      cases read
    | some file =>
      rw [there] at read
      exact congrArg some read
  · rw [trace_of_performs performs]
    exact .head _

theorem safe_recoverReceipt (kind : approval.artifactKind = "thumbnail") :
    discipline.Safe pid (fun _ => True)
      (recoverReceipt ⟨root, .thumbnail⟩ chatId episodeId approval)
      (fun _ s => Delivered s.world s.trace pid root chatId (episodeId ++ " — revisão"))
      fun _ _ => True := by
  refine .bind (Q := fun receipt => Seen pid ⟨root, .thumbnail⟩ receipt) ?_ fun receipt => ?_
  · refine .request (fun _ _ _ => trivial) (fun _ => framed_seen.stable)
      (fun _ => .true) ?_ fun _ _ _ _ _ _ _ _ _ => trivial
    intro r receipt s s' read _ _ performs _
    cases rewrap_eq_ok.mp read
    exact seen_of_readReceipt performs
  refine .ofExcept_bind (fun _ bound => ?_) fun _ _ _ _ _ => trivial
  have binds : receipt.binds chatId episodeId approval = true := require_eq_ok.mp bound
  refine .bind (Q := fun _ s =>
    Delivered s.world s.trace pid root chatId (episodeId ++ " — revisão")) ?_ fun _ => ?_
  · refine .request (fun _ _ _ => trivial) (fun _ => framed_delivered.stable)
      (fun _ => .true) ?_ fun _ _ _ _ _ _ _ _ _ => trivial
    intro look _ s s' verified inv seen performs _
    cases ApprovalReceipt.verify_eq_ok.1 (rewrap_eq_ok.mp verified)
    obtain ⟨there, read⟩ := framed_seen.kept inv performs trivial trivial seen
    refine ⟨episodeId, approval, receipt, rfl, kind, there, binds, read, ?_⟩
    rw [trace_of_performs performs]
    exact .head _
  · exact fun _ _ => id

theorem safe_requireApprovedDeliveredThumbnail
    {thumbnailApproval : Option ApprovalReceipt} (kind : approval.artifactKind = "thumbnail") :
    discipline.Safe pid (fun _ => True)
      (requireApprovedDeliveredThumbnail root chatId episodeId approval thumbnailApproval)
      (fun _ s => Delivered s.world s.trace pid root chatId (episodeId ++ " — revisão"))
      fun _ _ => True := by
  cases thumbnailApproval with
  | none => exact fun _ _ _ => trivial
  | some approved =>
    refine .check fun _ => ?_
    refine .bind (Q := fun _ _ => True) ?_ fun _ => ?_
    · exact safe_quiet (only_request trivial) ⟨.true, fun _ _ _ _ _ => trivial⟩
    refine .check fun _ => ?_
    exact .bind (safe_recoverReceipt kind) fun _ _ _ => id

theorem safe_deliverForApproval (call : Call) : discipline.Obeys pid (fun _ => True) call.deliverForApproval := by
  have always : discipline.Framed pid Act.quiet fun _ => True := ⟨.true, fun _ _ _ _ _ => trivial⟩
  refine .check fun _ => ?_
  refine .ofExcept_bind (fun _ named => ?_) fun _ _ _ _ _ => trivial
  have kind : call.thumbnail.artifactKind = "thumbnail" := require_eq_ok.mp named
  refine .bind (safe_quiet (only_request trivial) always) fun _ => ?_
  cases call.video with
  | none => exact safe_send.strengthen fun _ _ _ => nofun
  | some video =>
    refine .check fun _ => ?_
    refine .bind (safe_quiet (only_request trivial) always) fun _ => ?_
    refine .bind (safe_requireApprovedDeliveredThumbnail kind) fun _ => ?_
    exact safe_send.strengthen fun _ _ delivered _ => delivered

end Conduct

theorem discipline_admits : discipline.Admits deliveries := by
  rintro _ ⟨call, rfl⟩ pid
  exact .bind (safe_deliverForApproval call) fun _ => fun _ _ _ => trivial

/-- Whatever the directories hold at the start, each gate is sent at most once, and a video only
after its sender has read a receipt of the thumbnail, for the same destination and episode, and has
seen the bytes that the receipt names; that receipt is still there. -/
theorem delivered_at_most_once {w : World} {c : Config machine Error}
    (reaches : Reaches deliveries anyStep (initial w) c) : (∀ slot, sends slot c.trace ≤ 1) ∧ ∀ later earlier pid
    root chatId path caption, ∀ reply : Reply, c.trace = later ++ ⟨pid, .send ⟨root, .video⟩ chatId path caption, reply⟩
    :: earlier → Delivered c.world earlier pid root chatId caption := by
  have start : Inv ⟨w, []⟩ := by
    refine ⟨fun _ => Nat.zero_le _, fun _ _ => rfl, ?_⟩
    intro later earlier pid root chatId path caption reply is
    cases later <;> cases is
  have inv := ((Protocol.Sound.initial start).reaches discipline_admits reaches).inv
  exact ⟨inv.once, inv.ordered⟩

/-! ## Samples -/

def sampleApproval (kind : String) : ApprovalReceipt := ⟨kind, kind, "hash", "human", "now", none⟩

def sampleCall (video : Option ApprovalReceipt) : Call where
  chatId := "chat"
  episodeId := "EP000001"
  thumbnail := sampleApproval "thumbnail"
  receiptDir := "out"
  video := video
  thumbnailApproval := some (sampleApproval "thumbnail")
  callback := false
  supports := fun _ => true

def emptyDirectories : World := ⟨fun _ => none, fun _ => none, fun _ => none⟩

def sampleOracle : Oracle := ⟨.ok (some "hash"), false, none, .ok (some 7), .ok ()⟩

def sampleDeliveries : List (Move machine Error) :=
  [.spawn (sampleCall none).deliverForApproval.discard,
    .spawn (sampleCall none).deliverForApproval.discard,
    .spawn (sampleCall (some (sampleApproval "video"))).deliverForApproval.discard] ++
    replicate 10 (.perform 0 sampleOracle) ++ replicate 6 (.perform 1 sampleOracle) ++
    replicate 14 (.perform 2 sampleOracle)

theorem sampleDeliveries_calls : ∀ m ∈ sampleDeliveries, m.calls ⊆ deliveries := by
  intro m member
  simp only [sampleDeliveries, mem_append, mem_cons, not_mem_nil, or_false, mem_replicate] at member
  rcases member with (((rfl | rfl | rfl) | ⟨-, rfl⟩) | ⟨-, rfl⟩) | ⟨-, rfl⟩
  all_goals first
    | exact Set.empty_subset _
    | rintro _ rfl
      exact ⟨_, rfl⟩

theorem sampleDeliveries_sent_once : ∃ c : Config machine Error,
      Reaches deliveries anyStep (initial emptyDirectories) c ∧
      sends ⟨"out", .thumbnail⟩ c.trace = 1 ∧ sends ⟨"out", .video⟩ c.trace = 1 ∧
      ∀ slot, sends slot c.trace ≤ 1 := by
  have passed : (simulate (fun _ _ => true) (initial emptyDirectories)
      sampleDeliveries).any (fun c => decide (sends ⟨"out", .thumbnail⟩ c.trace = 1) &&
        decide (sends ⟨"out", .video⟩ c.trace = 1)) = true := by
    decide
  obtain ⟨c, reached, holds⟩ :=
    exists_reaches (fun _ _ _ => trivial) sampleDeliveries_calls passed
  simp only [Bool.and_eq_true, decide_eq_true_eq] at holds
  exact ⟨c, reached, holds.1, holds.2, (delivered_at_most_once reached).1⟩

end VideoPoster.Delivery
