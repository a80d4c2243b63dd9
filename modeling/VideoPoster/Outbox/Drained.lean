import Mathlib.Data.List.Perm.Subperm
import VideoPoster.Outbox.Discipline

/-!
# What a drain does
-/

namespace VideoPoster.Outbox
open Python Interleaving List Program Act Config Option World Protocol.Conforms Database Row Prog Protocol.Safe

variable {pid : ℕ} {α : Type}

def Act.free : Act → Prop
  | .acquire | .release | .update _ _ _ | .deliver _ _ | .answer _ => False
  | _ => True

theorem granted_of_free (pid : ℕ) (action : Act) (free : action.free) (s : Shared undisturbedMachine)
    (_ : Inv s) : grants pid s action := by
  cases action with
  | release | update | deliver | answer => cases free
  | _ => trivial

variable {action : Act}

theorem only_statements (todo : List Statement) : (statements todo).Only free := by
  induction todo with
  | nil => trivial
  | cons statement rest ih => exact .request trivial fun _ => ih

theorem only_ensureSchema : ensureSchema.Only free :=
  .request trivial fun todo => only_statements todo

theorem only_enqueueVideo (episodeId thumbnailPath thumbnailSha256 : String) :
    (enqueueVideo episodeId thumbnailPath thumbnailSha256).Only free := by
  refine .bind (.ofExcept _) fun _ => .bind only_ensureSchema fun _ =>
    .request trivial fun existing => .bind ⟨by trivial, fun _ => trivial⟩ fun resolved => ?_
  cases existing with
  | none => exact only_request trivial
  | some row => exact .ofExcept _

/-! ## Knowledge -/

def Holds (pid : ℕ) : Assertion undisturbedMachine := fun s => s.world.holder = some pid

structure Assigned (pid : ℕ) (row : Row) (s : Shared undisturbedMachine) : Prop where
  holds : s.world.holder = some pid
  fresh : row.episodeId ∉ s.trace.filterMap answeredRow
  there : ∃ later ∈ s.world.db.rows, row.Moved later

def Act.between : Act → Prop
  | .release | .answer _ => False
  | _ => True

theorem Act.free.between (free : action.free) : action.between := by
  cases action <;> first | exact free.elim | trivial

section Steps
variable {actor : ℕ} {action : Act} {response : action.Res} {s s' : Shared undisturbedMachine}

variable (performs : Performs actor action response s s')
include performs

theorem holds_of_performs (granted : grants actor s action)
    (harmless : actor = pid → action.between) (held : Holds pid s) : Holds pid s' := by
  refine holder_of_performs performs held ?_
  rintro rfl
  have same : actor = pid := some.inj ((granted : _ = some actor).symm.trans held)
  exact harmless same

theorem assigned_of_performs {row : Row} (granted : grants
    actor s action) (harmless : actor = pid → action.between) (known : Assigned pid row s) : Assigned pid row s' := by
  refine ⟨holds_of_performs performs granted harmless known.holds, ?_, ?_⟩
  · rcases answered_of_performs performs granted with same | ⟨_, _, rfl, -, -, held, -⟩
    · rw [same]
      exact known.fresh
    · have same : actor = pid := some.inj (held.symm.trans known.holds)
      exact (harmless same).elim
  · obtain ⟨later, member, moved⟩ := known.there
    obtain ⟨last, member', again⟩ := (rows_of_performs performs).1 later member
    exact ⟨last, member', moved.trans again⟩

end Steps

theorem framed_holds : discipline.Framed pid between (Holds pid) :=
  .of_keep (fun _ granted performs harmless held => holds_of_performs performs granted harmless held)
    fun foreign held => holder_of_crash foreign held

theorem framed_assigned (row : Row) : discipline.Framed pid between (Assigned pid row) := by
  refine .of_keep (fun _ granted performs harmless known =>
    assigned_of_performs performs granted harmless known) fun {dead s} foreign known => ?_
  refine ⟨holder_of_crash foreign known.holds, known.fresh, ?_⟩
  rw [db_of_crash]
  exact known.there

theorem framed_pending (row : Row) : discipline.Framed pid between fun _ => row.status = .pending :=
  .fact

theorem framed_settled (episodeId : Option String) :
    discipline.Framed pid between fun s => Settled episodeId s.world.db := by
  refine .of_keep (fun _ _ performs _ known => known.mono (rows_of_performs performs).1) ?_
  intro dead s _ known
  rw [db_of_crash]
  exact known

theorem framed_delivered (episodeId : Option String) :
    discipline.Framed pid between fun s => ∃ e ∈ s.trace, Delivers episodeId e := by
  refine .of_keep (fun _ _ performs _ known => ?_) fun _ => id
  obtain ⟨e, member, delivers⟩ := known
  exact ⟨e, trace_of_performs performs ▸ .tail _ member, delivers⟩

theorem stable_justDid (events : List (Event actions)) : discipline.Stable pid (JustDid pid events) := by
  intro s s' _ step known
  cases step with
  | perform foreign _ performs =>
    rw [JustDid, trace_of_performs performs, own, filter_cons_of_neg (by simpa using foreign)]
    exact known
  | crash => exact known

variable {s' s : Shared undisturbedMachine}

theorem justDid_cons {events : List (Event actions)} {response : action.Res} (performs : Performs
    pid action response s s') (known : JustDid pid events s) : JustDid pid (⟨pid, action, response⟩ :: events) s' := by
  obtain ⟨rest, is⟩ := known
  refine ⟨rest, ?_⟩
  rw [trace_of_performs performs, own, filter_cons_of_pos (by simp), ← own, is]
  rfl

/-! ## Marking a row -/

section Marks
variable {row : Row} {episodeId : Option String} {status : Status} {reason : Option String}
  {s s' : Shared undisturbedMachine}

theorem settled_of_update (inv : Inv s) (there : ∃ later ∈ s.world.db.rows, row.Moved later)
    (performs : Performs (I := actions) pid (.update row.episodeId status reason) (.ok () : Result Unit) s s')
    (left : status ≠ .pending) : Settled row.episodeId s'.world.db := by
  obtain ⟨w, trace⟩ := s
  obtain ⟨w', trace'⟩ := s'
  obtain ⟨oracle, executed, meets, -⟩ := performs_restrict.mp performs
  have settled : ¬ w.db.Moving := fun moving => by
    rcases meets moving with ⟨_, is⟩ | is <;> cases is
  obtain ⟨-, ⟨-, wrong⟩ | ⟨updated, -⟩⟩ := executed_eq (some.inj executed)
  · exact absurd rfl wrong
  obtain ⟨later, member, moved⟩ := there
  have named : row.episodeId ≠ none := by
    rw [← moved.episodeId]
    exact inv.named later (has_of_mem_rows member)
  refine ⟨later.marked row.episodeId status reason, ?_, ?_, ?_⟩
  · show _ ∈ w'.db.rows
    rw [(moves_of_update updated settled).1]
    exact mem_map_of_mem member
  · rw [marked_episodeId]
    exact moved.episodeId
  · unfold marked
    split
    · exact left
    · rename_i other
      exact fun pending => other ⟨moved.episodeId, named, pending⟩

theorem safe_mark (left : status ≠ .pending) : discipline.Safe pid (fun s => Assigned pid row s ∧
    (status = .delivered → ∃ e ∈ s.trace, Delivers row.episodeId e)) (mark row.episodeId status reason)
    (fun _ s => Assigned pid row s ∧ Settled row.episodeId s.world.db) fun _ => Assigned pid row := by
  have framed : discipline.Framed pid between fun s =>
      Assigned pid row s ∧ (status = .delivered → ∃ e ∈ s.trace, Delivers row.episodeId e) :=
    (framed_assigned row).and (framed_delivered row.episodeId).imp
  refine .bind (Q := fun _ s =>
    Assigned pid row s ∧ (status = .delivered → ∃ e ∈ s.trace, Delivers row.episodeId e)) ?_ fun _ => ?_
  · refine (of_only (granted_of_free pid) only_ensureSchema
      (framed.mono fun _ => free.between)).raising fun _ _ known => known.1
  · refine .request (fun s _ known => ⟨left, known.2⟩)
      (fun _ => (framed_assigned row).stable.and (framed_settled row.episodeId).stable)
      (fun _ => (framed_assigned row).stable) ?_ ?_
    · rintro r ⟨⟩ s s' rfl inv known performs -
      exact ⟨assigned_of_performs performs ⟨left, known.2⟩ (fun _ => trivial) known.1,
        settled_of_update inv known.1.there performs left⟩
    · rintro r e s s' - inv known performs -
      exact assigned_of_performs performs ⟨left, known.2⟩ (fun _ => trivial) known.1

theorem conforms_mark (left : status ≠ .pending) (other : status ≠ .delivered) :
    discipline.Conforms (mark episodeId status reason) := by
  refine .bind (.of_only granted_of_free only_ensureSchema) fun _ pid => ?_
  exact .request (fun _ _ _ => ⟨left, fun is => absurd is other⟩) (fun _ => .true) (fun _ => .true)
    (fun _ _ _ _ _ _ _ _ _ => trivial) fun _ _ _ _ _ _ _ _ _ => trivial

end Marks

/-! ## Draining a row -/

section Drains
variable {row : Row} {runner : ℕ}

structure Returned (pid : ℕ) (outcome : Outcome) (s : Shared undisturbedMachine) : Prop where
  holds : s.world.holder = some pid
  row : ∀ episodeId ∈ outcome.row, Settled episodeId s.world.db ∧ episodeId ∉ s.trace.filterMap answeredRow

theorem Assigned.returned {outcome : Outcome} {s : Shared undisturbedMachine} (known : Assigned pid row s)
    (settled : Settled row.episodeId s.world.db) (is : outcome.row = some row.episodeId) : Returned pid outcome s := by
  refine ⟨known.holds, fun episodeId member => ?_⟩
  obtain rfl : row.episodeId = episodeId := some.inj (is.symm.trans member)
  exact ⟨settled, known.fresh⟩

theorem safe_markUnknown (reason : String) : discipline.Safe pid (Assigned pid row) (markUnknown
    row.episodeId reason) (fun outcome s => Assigned pid row s ∧ Returned pid outcome s) fun _ => Assigned pid row := by
  refine .bind ((safe_mark (by decide)).strengthen fun s _ known => ⟨known, nofun⟩) fun _ => ?_
  exact fun s _ known => ⟨known.1, known.1.returned known.2 rfl⟩

theorem safe_markBlocked (reason : String) : discipline.Safe pid (Assigned pid row) (markBlocked
    row.episodeId reason) (fun outcome s => Assigned pid row s ∧ Returned pid outcome s) fun _ => Assigned pid row := by
  refine .bind ((safe_mark (by decide)).strengthen fun s _ known => ⟨known, nofun⟩) fun _ => ?_
  exact fun s _ known => ⟨known.1, known.1.returned known.2 rfl⟩

theorem framed_returned (outcome : Outcome) : discipline.Framed pid between (Returned pid outcome) := by
  refine .of_keep ?_ ?_
  · intro actor action response s s' _ granted performs harmless known
    refine ⟨holds_of_performs performs granted harmless known.holds, fun episodeId member => ?_⟩
    obtain ⟨settled, fresh⟩ := known.row episodeId member
    refine ⟨settled.mono (rows_of_performs performs).1, ?_⟩
    rcases answered_of_performs performs granted with same | ⟨_, _, rfl, -, -, held, -⟩
    · rw [same]
      exact fresh
    · exact (harmless (some.inj (held.symm.trans known.holds))).elim
  · intro dead s foreign known
    refine ⟨holder_of_crash foreign known.holds, fun episodeId member => ?_⟩
    rw [db_of_crash]
    exact known.row episodeId member

def Delivered (pid : ℕ) (row : Row) : Outcome ⊕ Receipt → Assertion undisturbedMachine
  | .inl outcome => Returned pid outcome
  | .inr receipt => fun s => Assigned pid row s ∧
      (receipt.Acknowledges → ∃ e ∈ s.trace, Delivers row.episodeId e)

theorem framed_done (result : Outcome ⊕ Receipt) : discipline.Framed pid between (Delivered pid row result) := by
  cases result with
  | inl outcome => exact framed_returned outcome
  | inr receipt => exact (framed_assigned row).and (framed_delivered row.episodeId).imp

theorem safe_setActive {F : Assertion undisturbedMachine} (framed : discipline.Framed pid between F)
    (episodeId : Option String) {E : Error → Assertion undisturbedMachine} :
    discipline.Safe pid F (act (.setActive runner episodeId) .pure) (fun _ => F) E := by
  have free : between (.setActive runner episodeId) := trivial
  exact framed.perform free fun _ _ _ => trivial

theorem safe_delivery : discipline.Safe pid (fun s => Assigned pid row s ∧ Prepared pid
    row.episodeId row.thumbnailPath s.trace) (delivery runner row) (Delivered pid row) fun _ => Holds pid := by
  refine .ensuring (A := Delivered pid row) (B := fun _ => Holds pid) ?_
    (fun result => safe_setActive (framed_done result) none) fun _ => safe_setActive framed_holds none
  refine .attempt_bind (A := fun receipt s => Assigned pid row s ∧
      (receipt.Acknowledges → ∃ e ∈ s.trace, Delivers row.episodeId e))
    (B := fun _ => Assigned pid row) ?_ ?_ ?_
  · refine .request (fun s _ known => known.2)
      (fun _ => (framed_assigned row).stable.and (framed_delivered row.episodeId).imp.stable)
      (fun _ => (framed_assigned row).stable) ?_ ?_
    · rintro r receipt s s' rfl inv known performs -
      refine ⟨assigned_of_performs performs known.2 (fun _ => trivial) known.1, fun valid => ?_⟩
      exact ⟨_, trace_of_performs performs ▸ mem_cons_self .., pid, _, receipt, rfl, valid⟩
    · rintro r e s s' - inv known performs -
      exact assigned_of_performs performs known.2 (fun _ => trivial) known.1
  · exact fun receipt _ _ known => known
  · intro error
    by_cases cancel : error.kind = .other "CancelledError"
    · simp only [if_pos cancel]
      refine .bind (Q := fun _ => Holds pid) ?_ fun _ => ?_
      · have left : Status.unknown ≠ .pending := nofun
        exact (safe_mark left).consequence (fun _ _ known => ⟨known, nofun⟩)
          (fun _ _ known => known.1.holds) fun _ _ known => known.holds
      · exact fun _ _ => id
    · simp only [if_neg cancel]
      split
      · exact fun _ _ known => known.holds
      · refine .bind (Q := fun outcome => Returned pid outcome) ?_ fun _ => ?_
        · exact (safe_markUnknown _).weaken (fun _ _ known => known.2)
            fun _ _ known => known.holds
        · exact fun _ _ => id

theorem safe_acknowledged (receipt : Receipt) : discipline.Safe pid (Delivered pid row (.inr receipt))
    (acknowledged row receipt) (Returned pid) fun _ => Holds pid := by
  have unknown (reason : String) : discipline.Safe pid (Assigned pid row)
      (markUnknown row.episodeId reason) (Returned pid) fun _ => Holds pid :=
    (safe_markUnknown reason).weaken (fun _ _ known => known.2)
      fun _ _ known => known.holds
  unfold acknowledged
  split
  · rename_i valid
    refine .attempt_bind
      ((safe_mark (by decide)).strengthen fun s _ known => ⟨known.1, fun _ => known.2 valid⟩) ?_ ?_
    · exact fun _ s _ known => known.1.returned known.2 rfl
    · intro error
      dsimp only
      split
      · exact fun _ _ known => known.holds
      · exact unknown _
  · exact (unknown _).strengthen fun _ _ known => known.1

theorem safe_dispatch : discipline.Safe pid (fun s => (Assigned pid row s ∧ row.status = .pending)
    ∧ JustDid pid [⟨pid, .revalidate row, (.ok () : Result Unit)⟩, ⟨pid, .hash row.thumbnailPath,
    (.ok row.thumbnailSha256 : Result String)⟩, ⟨pid, .pendingRow, (.ok (some row) : Result (Option Row))⟩] s)
    (dispatch runner row) (Returned pid) fun _ => Holds pid := by
  refine .bind (Q := fun _ s => Assigned pid row s ∧ (row.status = .pending ∧ JustDid pid
      [⟨pid, .setActive runner row.episodeId, ()⟩, ⟨pid, .revalidate row, (.ok () : Result Unit)⟩,
        ⟨pid, .hash row.thumbnailPath, (.ok row.thumbnailSha256 : Result String)⟩,
        ⟨pid, .pendingRow, (.ok (some row) : Result (Option Row))⟩] s)) ?_ fun _ => ?_
  · refine .perform (fun _ _ _ => trivial)
      (fun _ => (framed_assigned row).stable.and ((framed_pending row).stable.and (stable_justDid _))) ?_
    intro r s s' inv known performs _
    exact ⟨assigned_of_performs performs trivial (fun _ => trivial) known.1.1, known.1.2, justDid_cons performs known.2⟩
  refine .bind (Q := Delivered pid row) ?_ fun result => ?_
  · refine safe_delivery.strengthen fun s _ known => ⟨known.1, ?_⟩
    obtain ⟨rest, is⟩ := known.2.2
    exact ⟨runner, row, rest, is, known.2.1, rfl, rfl⟩
  · cases result with
    | inl outcome => exact fun _ _ => id
    | inr receipt => exact safe_acknowledged receipt

theorem safe_drainRow : discipline.Safe pid (fun s => (Assigned pid row s ∧ row.status = .pending)
    ∧ JustDid pid [⟨pid, .pendingRow, (.ok (some row) : Result (Option Row))⟩] s)
    (drainRow runner row) (Returned pid) fun _ => Holds pid := by
  have pending : discipline.Stable pid fun s => Assigned pid row s ∧ row.status = .pending :=
    (framed_assigned row).stable.and (framed_pending row).stable
  have blocked (reason : String) : discipline.Safe pid (Assigned pid row)
      (markBlocked row.episodeId reason) (Returned pid) fun _ => Holds pid :=
    (safe_markBlocked reason).weaken (fun _ _ known => known.2)
      fun _ _ known => known.holds
  refine .attempt_bind (A := fun actual s => (Assigned pid row s ∧ row.status = .pending) ∧ JustDid pid
      [⟨pid, .hash row.thumbnailPath, (.ok actual : Result String)⟩,
        ⟨pid, .pendingRow, (.ok (some row) : Result (Option Row))⟩] s)
    (B := fun _ => Assigned pid row) ?_ ?_ ?_
  · refine .request (fun _ _ _ => trivial) (fun _ => pending.and (stable_justDid _))
      (fun _ => (framed_assigned row).stable) ?_ ?_
    · rintro r actual s s' rfl inv known performs -
      exact ⟨⟨assigned_of_performs performs trivial (fun _ => trivial) known.1.1, known.1.2⟩,
        justDid_cons performs known.2⟩
    · rintro r e s s' - inv known performs -
      exact assigned_of_performs performs trivial (fun _ => trivial) known.1.1
  · intro actual
    dsimp only
    split
    · rename_i same
      subst same
      refine .attempt_bind (A := fun _ s => (Assigned pid row s ∧ row.status = .pending) ∧ JustDid pid
          [⟨pid, .revalidate row, (.ok () : Result Unit)⟩,
            ⟨pid, .hash row.thumbnailPath, (.ok row.thumbnailSha256 : Result String)⟩,
            ⟨pid, .pendingRow, (.ok (some row) : Result (Option Row))⟩] s)
        (B := fun _ => Assigned pid row) ?_ (fun _ => safe_dispatch) ?_
      · refine .request (fun _ _ _ => trivial) (fun _ => pending.and (stable_justDid _))
          (fun _ => (framed_assigned row).stable) ?_ ?_
        · rintro r ⟨⟩ s s' rfl inv known performs -
          exact ⟨⟨assigned_of_performs performs trivial (fun _ => trivial) known.1.1, known.1.2⟩,
            justDid_cons performs known.2⟩
        · rintro r e s s' - inv known performs -
          exact assigned_of_performs performs trivial (fun _ => trivial) known.1.1
      · intro error
        dsimp only
        split
        · exact blocked _
        · exact fun _ _ known => known.holds
    · exact (blocked _).strengthen fun _ _ known => known.1.1
  · intro error
    dsimp only
    split
    · exact blocked _
    · exact fun _ _ known => known.holds

end Drains

/-! ## Finding a row -/

variable {row : Row}

theorem mem_of_foldr_eq_some {pick : Row → Option Row → Option Row}
    (picks : ∀ row first, pick row first = some row ∨ pick row first = first)
    {candidates : List Row} (is : candidates.foldr pick none = some row) : row ∈ candidates := by
  induction candidates with
  | nil => cases is
  | cons first rest ih =>
    rw [foldr_cons] at is
    rcases picks first (rest.foldr pick none) with picked | kept
    · exact some.inj (picked.symm.trans is) ▸ .head _
    · exact .tail _ (ih (kept.symm.trans is))

variable {rows : List Row}

theorem pendingRow_eq_some (found : pendingRow rows = some row) : row ∈ rows ∧ row.status = .pending := by
  have member := mem_of_foldr_eq_some (fun row first => by cases first <;> grind) found
  rw [mem_filter, decide_eq_true_eq] at member
  exact member

theorem eq_of_episodeId (unique : (rows.filterMap episodeId).Nodup) {other : Row} (member : row ∈ rows)
    (member' : other ∈ rows) (same : row.episodeId = other.episodeId) (named : row.episodeId ≠ none) : row = other := by
  induction rows with
  | nil => cases member
  | cons first rest ih =>
    obtain ⟨id, is⟩ := ne_none_iff_exists'.mp named
    have later {row : Row} (member : row ∈ rest) (is : row.episodeId = some id) :
        id ∈ rest.filterMap episodeId := mem_filterMap.mpr ⟨row, member, is⟩
    cases head : first.episodeId with
    | none =>
      rw [filterMap_cons_none head] at unique
      rcases mem_cons.mp member with rfl | left
      · exact absurd head named
      rcases mem_cons.mp member' with rfl | right
      · exact absurd (same.trans head) named
      exact ih unique left right
    | some headId =>
      rw [filterMap_cons_some head, nodup_cons] at unique
      rcases mem_cons.mp member with rfl | left
      · rcases mem_cons.mp member' with rfl | right
        · rfl
        · exact absurd (later right (same.symm.trans is)) (some.inj (head.symm.trans is) ▸ unique.1)
      rcases mem_cons.mp member' with rfl | right
      · exact absurd (later left is) (some.inj (head.symm.trans (same.symm.trans is)) ▸ unique.1)
      exact ih unique.2 left right

theorem unique_rows (db : Database) : (db.rows.filterMap episodeId).Nodup := by
  obtain ⟨outbox, legacy⟩ := db
  unfold rows
  split
  · cases legacy with
    | none => exact nodup_nil
    | some table => exact table.unique
  · cases outbox with
    | none => exact nodup_nil
    | some table => exact table.unique

theorem Settled.not_pending {db : Database} (settled : Settled row.episodeId db)
    (member : row ∈ db.rows) (named : row.episodeId ≠ none) : row.status ≠ .pending := by
  obtain ⟨other, member', same, left⟩ := settled
  rw [eq_of_episodeId (unique_rows db) member member' same.symm named]
  exact left

def Found (pid : ℕ) : Option Row → Assertion undisturbedMachine
  | none => Holds pid
  | some row => fun s => (Assigned pid row s ∧ row.status = .pending) ∧
      JustDid pid [⟨pid, .pendingRow, (.ok (some row) : Result (Option Row))⟩] s

theorem stable_found (row : Option Row) : discipline.Stable pid (Found pid row) := by
  cases row with
  | none => exact framed_holds.stable
  | some row =>
    exact ((framed_assigned row).stable.and (framed_pending row).stable).and (stable_justDid _)

theorem found_of_performs {row : Option Row} (inv : Inv s) (held : Holds pid s)
    (performs : Performs (I := actions) pid .pendingRow (.ok row : Result (Option Row)) s s') : Found pid row s' := by
  have holds := holds_of_performs performs trivial (fun _ => trivial) held
  cases row with
  | none => exact holds
  | some row =>
    have did : JustDid pid [⟨pid, .pendingRow, (.ok (some row) : Result (Option Row))⟩] s' :=
      justDid_cons performs ⟨own pid s.trace, rfl⟩
    have extended := trace_of_performs performs
    obtain ⟨w, trace⟩ := s
    obtain ⟨w', trace'⟩ := s'
    obtain ⟨oracle, executed, -, -⟩ := performs_restrict.mp performs
    have is := some.inj executed
    have same := congrArg Prod.fst is
    rw [queried_world] at same
    obtain rfl : w = w' := same
    have answer := congrArg Prod.snd is
    simp only [queried] at answer
    split at answer
    · cases answer
    · rename_i table there
      obtain ⟨member, pending⟩ := pendingRow_eq_some (Except.ok.inj answer)
      have inOutbox : row ∈ w.db.outboxRows := by
        simpa [outboxRows, there] using member
      have inRows : row ∈ w.db.rows := by
        rw [rows, if_neg (ne_nil_of_mem inOutbox)]
        exact inOutbox
      have named := inv.named row (.inl inOutbox)
      refine ⟨⟨⟨holds, ?_, row, inRows, .refl row⟩, pending⟩, did⟩
      rw [extended]
      exact fun answered => (inv.settled _ answered).not_pending inRows named pending
    · cases answer

/-! ## The calls -/

section Calls
variable {runner : ℕ}

theorem safe_drainLocked :
    discipline.Safe pid (Holds pid) (drainLocked runner) (fun _ => Holds pid) fun _ => Holds pid := by
  refine .bind (.of_only (granted_of_free pid) only_ensureSchema
    (framed_holds.mono fun _ => free.between)) fun _ => ?_
  refine .bind (Q := Found pid) ?_ fun row => ?_
  · refine .request (fun _ _ _ => trivial) stable_found (fun _ => framed_holds.stable) ?_ ?_
    · rintro r row s s' rfl inv held performs -
      exact found_of_performs inv held performs
    · rintro r e s s' - inv held performs -
      exact holds_of_performs performs trivial (fun _ => trivial) held
  refine .bind (Q := Returned pid) ?_ fun outcome => ?_
  · cases row with
    | none => exact fun _ _ held => ⟨held, nofun⟩
    | some row => exact safe_drainRow
  refine .bind (Q := fun _ => Holds pid) ?_ fun _ => fun _ _ => id
  refine .perform (fun s _ known episodeId member => ⟨known.holds, known.row episodeId member⟩)
    (fun _ => framed_holds.stable) fun _ s s' _ known performs _ => ?_
  exact holder_of_performs performs known.holds nofun

theorem conforms_drainOnce : discipline.Conforms (drainOnce runner) := by
  intro pid
  refine .bind (Q := fun _ => Holds pid) ?_ fun _ => ?_
  · refine .request (fun _ _ _ => trivial) (fun _ => framed_holds.stable) (fun _ => .true) ?_
      fun _ _ _ _ _ _ _ _ _ => trivial
    rintro r ⟨⟩ s ⟨w', trace'⟩ rfl _ _ performs -
    obtain ⟨oracle, executed, -, -⟩ := performs_restrict.mp performs
    change exec oracle pid s.world .acquire = some (w', .ok ()) at executed
    simp only [exec] at executed
    split at executed <;> cases executed
    rfl
  · have release : discipline.Obeys pid (Holds pid) (request .release id) :=
      request (fun _ _ => id) (fun _ => .true) (fun _ => .true)
        (fun _ _ _ _ _ _ _ _ _ => trivial) fun _ _ _ _ _ _ _ _ _ => trivial
    exact safe_drainLocked.ensuring (fun _ => release) fun _ => release

theorem conforms_drainAll (rounds : ℕ) : discipline.Conforms (drainAll runner rounds) := by
  induction rounds with
  | zero => exact .pure ()
  | succ rounds ih =>
    refine .bind conforms_drainOnce.attempt fun drained => ?_
    cases drained with
    | error error =>
      dsimp only
      split
      · exact .pure ()
      · exact .raise error
    | ok outcome =>
      dsimp only
      split
      · exact .pure ()
      · exact ih

theorem conforms_markActiveUnknown : discipline.Conforms (markActiveUnknown runner) := by
  have active : free (.active runner) := trivial
  have look : (act (I := actions) (ε := Error) (.active runner) .pure).Only free :=
    ⟨active, fun _ => trivial⟩
  refine .bind (.of_only granted_of_free look) fun episodeId => ?_
  cases episodeId with
  | none => exact .pure ()
  | some episodeId => exact conforms_mark nofun nofun

theorem discipline_admits : discipline.Admits calls := by
  rintro _ called
  cases called with
  | enqueueVideo episodeId thumbnailPath thumbnailSha256 =>
    exact of_only granted_of_free (only_enqueueVideo ..)
  | drainOnce runner => exact conforms_drainOnce.discard
  | drainAll runner rounds => exact conforms_drainAll rounds
  | markActiveUnknown runner => exact conforms_markActiveUnknown
  | initializeRegistry => exact of_only granted_of_free (only_statements _)
  | enqueueInTransaction episodeId thumbnailPath thumbnailSha256 =>
    have free : free (.enqueueInTransaction episodeId thumbnailPath thumbnailSha256) := trivial
    exact of_only granted_of_free (only_request free)

end Calls

/-! ## Whole runs -/

section Runs
variable {c c' : Config machine Error}

theorem sound_of_reaches (reaches : Reaches calls undisturbed (initial start) c) :
    discipline.Sound (c.under undisturbed) := by
  have start : Inv ⟨start, []⟩ := by
    refine ⟨fun row has => ?_, fun row has => ?_, fun _ _ _ _ _ suffix => ?_, nofun, nodup_nil⟩
    · rcases has with member | member <;> cases member
    · rcases has with member | member <;> cases member
    · cases suffix_nil.mp suffix
  exact .reaches discipline_admits (.initial start) reaches.restrict

theorem moves_of_reaches (reaches : Reaches calls undisturbed c c') : Moves c.world.db.rows c'.world.db.rows := by
  refine Reaches.invariant (K := fun s : Shared undisturbedMachine => Moves c.world.db.rows s.world.db.rows)
    (fun moves performs => moves.trans (rows_of_performs performs).1) ?_ (.refl _) reaches.restrict
  intro s dead moves
  rw [db_of_crash]
  exact moves

theorem length_answered_le {s : Shared undisturbedMachine} (inv : Inv s) :
    (s.trace.filterMap answeredRow).length ≤ (s.world.db.rows.filter fun row => row.status ≠ .pending).length := by
  have within : s.trace.filterMap answeredRow ⊆
      (s.world.db.rows.filter fun row => row.status ≠ .pending).map episodeId := by
    intro episodeId member
    obtain ⟨row, there, rfl, left⟩ := inv.settled episodeId member
    exact mem_map_of_mem (mem_filter.mpr ⟨there, decide_eq_true left⟩)
  simpa using (subperm_of_subset inv.distinct within).length_le

end Runs

/-! ## Samples -/

def approvedDigest : String := "979b2e440c9d1f53796ae42a8b524ad346af13ad1399a0f5c61bbd941b9ae2e6"

def otherDigest : String := "33a78bd14891b4eb5773a90a63cf0ecd2c2f7c86370eda75c962d8d9bace2e66"

def sampleOracle : Oracle where
  failure := none
  resolved := "thumbnail.png"
  digest := .ok approvedDigest
  revalidated := .ok ()
  delivered := .ok ⟨true, some "video", some 701⟩

def schedule (programs : List (Program Unit)) (steps : List (Move machine Error)) : List (Move machine Error) :=
  programs.map .spawn ++ steps

def acts (pid count : ℕ) : List (Move machine Error) := replicate count (.perform pid sampleOracle)

theorem schedule_calls {programs : List (Program Unit)} {steps : List (Move machine Error)} (called : ∀ program ∈
    programs, program ∈ calls) (quiet : ∀ m ∈ steps, m.calls = ∅) : ∀ m ∈ schedule programs steps, m.calls ⊆ calls := by
  intro m member
  rcases mem_append.mp member with spawned | performed
  · obtain ⟨program, there, rfl⟩ := mem_map.mp spawned
    rintro _ rfl
    exact called _ there
  · rw [quiet m performed]
    exact Set.empty_subset _

theorem acts_quiet {pid count : ℕ} {m : Move machine Error} (member : m ∈ acts pid count) : m.calls = ∅ := by
  rw [eq_of_mem_replicate member]
  rfl

def checkUndisturbed (w : World) (e : Event actions) : Bool :=
  !decide w.db.Moving ||
    match e.action with
    | .statement (.create _) | .statement .copy => true
    | _ => false

theorem undisturbed_of_check (w : World) (e : Event actions) (checked : checkUndisturbed w e = true) :
    undisturbed w e := by
  intro moving
  obtain ⟨pid, action, response⟩ := e
  simp only [checkUndisturbed, moving, decide_true, Bool.not_true, Bool.false_or] at checked
  cases action with
  | statement statement =>
    cases statement with
    | create sql => exact .inl ⟨sql, rfl⟩
    | copy => exact .inr rfl
    | _ => cases checked
  | _ => cases checked

/-- `outdated`, which finds the two texts of the table by name. -/
def outdatedText (sql : String) : Bool :=
  if sql = currentSql then false else if sql = twoStateSql then true else outdated sql

theorem outdatedText_eq : outdatedText = outdated := by
  funext sql
  unfold outdatedText
  split_ifs with current twoState
  · rw [current, currentSql_current]
  · rw [twoState, twoStateSql_outdated]
  · rfl

end VideoPoster.Outbox
