import VideoPoster.Outbox.Drain

/-!
# What may happen to a row of the outbox
-/

namespace VideoPoster.Outbox
open Python Interleaving Database List Option Row Prod

/-! ## Rows -/

def Database.Moving (db : Database) : Prop := db.outboxRows = [] ∧ db.legacyRows ≠ []

instance (db : Database) : Decidable db.Moving := inferInstanceAs (Decidable (_ ∧ _))

def Database.rows (db : Database) : List Row :=
  if db.outboxRows = [] then db.legacyRows else db.outboxRows

def Database.Has (db : Database) (row : Row) : Prop := row ∈ db.outboxRows ∨ row ∈ db.legacyRows

structure Row.Moved (row later : Row) : Prop where
  episodeId : later.episodeId = row.episodeId
  thumbnailPath : later.thumbnailPath = row.thumbnailPath
  thumbnailSha256 : later.thumbnailSha256 = row.thumbnailSha256
  status : later.status = row.status ∨ row.status = .pending

theorem Row.Moved.refl (row : Row) : row.Moved row := ⟨rfl, rfl, rfl, .inl rfl⟩

theorem Row.Moved.trans {row middle later : Row} (first : row.Moved middle) (second : middle.Moved later) :
    row.Moved later where
  episodeId := second.episodeId.trans first.episodeId
  thumbnailPath := second.thumbnailPath.trans first.thumbnailPath
  thumbnailSha256 := second.thumbnailSha256.trans first.thumbnailSha256
  status := by
    rcases first.status with same | pending
    · rcases second.status with also | pending
      · exact .inl (also.trans same)
      · exact .inr (same ▸ pending)
    · exact .inr pending

theorem Row.moved_marked (row : Row) (episodeId : Option String) (status : Status) (reason : Option String) :
    row.Moved (row.marked episodeId status reason) := by
  unfold marked
  split
  · rename_i is
    exact ⟨rfl, rfl, rfl, .inr is.2.2⟩
  · exact .refl row

theorem Row.moved_reason (row : Row) : row.Moved { row with reason := none } := ⟨rfl, rfl, rfl, .inl rfl⟩

def Moves (rows later : List Row) : Prop := ∀ row ∈ rows, ∃ row' ∈ later, row.Moved row'

theorem Moves.of_subset {rows later : List Row} (subset : ∀ row ∈ rows, row ∈ later) : Moves rows later :=
  fun row member => ⟨row, subset row member, .refl row⟩

theorem Moves.refl (rows : List Row) : Moves rows rows := .of_subset fun _ => id

theorem Moves.trans {rows middle later : List Row} (first : Moves rows middle) (second : Moves middle later) :
    Moves rows later := by
  intro row member
  obtain ⟨row', member', moved⟩ := first row member
  obtain ⟨row'', member'', again⟩ := second row' member'
  exact ⟨row'', member'', moved.trans again⟩

section Databases
variable {db db' : Database} {statement : Statement}

theorem Database.rows_eq (settled : ¬ db.Moving) : db.rows = db.outboxRows := by
  unfold rows
  split
  · rename_i empty
    rw [empty]
    by_contra some
    exact settled ⟨empty, some⟩
  · rfl

theorem Database.has_of_mem_rows {row : Row} (member : row ∈ db.rows) : db.Has row := by
  unfold rows at member
  split at member
  · exact .inr member
  · exact .inl member

structure Comes (db db' : Database) : Prop where
  moves : Moves db.rows db'.rows
  old : ∀ row, db'.Has row → ∃ source, db.Has source ∧ row.columns = source.columns

theorem Comes.refl (db : Database) : Comes db db := ⟨.refl _, fun row has => ⟨row, has, rfl⟩⟩

theorem comes_of_execute (executed : db.execute statement = .ok db')
    (undisturbed : db.Moving → (∃ sql, statement = .create sql) ∨ statement = .copy) : Comes db db' := by
  obtain ⟨outbox, legacy⟩ := db
  cases statement with
  | rename =>
    cases outbox with
    | none => cases executed
    | some table =>
      cases legacy with
      | some old => cases executed
      | none =>
        cases executed
        refine ⟨?_, fun row has => ⟨row, ?_, rfl⟩⟩
        · by_cases empty : table.rows = []
          · simp [rows, outboxRows, legacyRows, empty, Moves]
          · simpa [rows, outboxRows, legacyRows, empty] using Moves.refl _
        · simpa [Database.Has, outboxRows, legacyRows] using has
  | create sql =>
    cases outbox with
    | some table => cases executed
    | none =>
      cases executed
      exact ⟨.refl _, fun row has => ⟨row, has, rfl⟩⟩
  | createIfNotExists sql =>
    cases outbox with
    | some table =>
      cases executed
      exact .refl _
    | none =>
      cases executed
      exact ⟨.refl _, fun row has => ⟨row, has, rfl⟩⟩
  | copy =>
    cases outbox with
    | none => cases executed
    | some target =>
      cases legacy with
      | none => cases executed
      | some source =>
        simp only [execute] at executed
        split at executed
        · cases executed
          refine ⟨?_, ?_⟩
          · by_cases empty : target.rows = []
            · intro row member
              simp only [rows, outboxRows, map_some, getD_some, empty,
                if_true, legacyRows] at member
              refine ⟨{ row with reason := none }, ?_, row.moved_reason⟩
              have copied : { row with reason := none } ∈ target.copied source :=
                mem_append_right _ (mem_map_of_mem member)
              have some : target.copied source ≠ [] := ne_nil_of_mem copied
              simpa [rows, outboxRows, some] using copied
            · have some : target.copied source ≠ [] := by simp [OutboxTable.copied, empty]
              refine .of_subset fun row member => ?_
              simp only [rows, outboxRows, map_some, getD_some, empty,
                if_false, some] at member ⊢
              exact mem_append_left _ member
          · rintro row (member | member)
            · rcases mem_append.mp member with old | copied
              · exact ⟨row, .inl old, rfl⟩
              · obtain ⟨source, there, rfl⟩ := mem_map.mp copied
                exact ⟨source, .inr there, rfl⟩
            · exact ⟨row, .inr member, rfl⟩
        · cases executed
  | drop =>
    cases legacy with
    | none => cases executed
    | some old =>
      cases executed
      refine ⟨?_, fun row has => ⟨row, ?_, rfl⟩⟩
      · have settled : ¬ Database.Moving ⟨outbox, some old⟩ := fun moving => by
          rcases undisturbed moving with ⟨_, wrong⟩ | wrong <;> cases wrong
        rw [rows_eq settled, rows_eq fun moving => moving.2 rfl]
        exact .refl _
      · rcases has with there | gone
        · exact .inl there
        · cases gone

theorem moves_of_update {episodeId : Option String}
    {status : Status} {reason : Option String} (updated : db.update episodeId status reason = .ok db')
    (settled : ¬ db.Moving) : db'.rows = db.rows.map (·.marked episodeId status reason) ∧ ∀ row, db'.Has row →
    ∃ source, db.Has source ∧ (row.columns = source.columns ∨ row = source.marked episodeId status reason) := by
  obtain ⟨outbox, legacy⟩ := db
  cases outbox with
  | none => cases updated
  | some table =>
    simp only [update] at updated
    split at updated
    · cases updated
    · cases updated
      have settled' : ¬ Database.Moving ⟨some (table.mapRows (·.marked episodeId status reason)
          fun row => row.marked_episodeId ..), legacy⟩ := fun moving =>
        settled ⟨map_eq_nil_iff.mp moving.1, moving.2⟩
      rw [rows_eq settled, rows_eq settled']
      refine ⟨rfl, ?_⟩
      rintro row (member | member)
      · obtain ⟨source, there, rfl⟩ := mem_map.mp member
        exact ⟨source, .inl there, .inr rfl⟩
      · exact ⟨row, .inr member, .inl rfl⟩

theorem moves_of_insert {episodeId thumbnailPath thumbnailSha256 : String} (inserted :
    db.insert episodeId thumbnailPath thumbnailSha256 = .ok db') (settled : ¬ db.Moving) : Moves db.rows db'.rows ∧
    ∀ row, db'.Has row → db.Has row ∨ row = ⟨some episodeId, thumbnailPath, thumbnailSha256, .pending, none⟩ := by
  obtain ⟨outbox, legacy⟩ := db
  cases outbox with
  | none => cases inserted
  | some table =>
    simp only [Database.insert] at inserted
    split at inserted
    · cases inserted
      refine ⟨?_, ?_⟩
      · rw [rows_eq settled]
        refine .of_subset fun row member => ?_
        rw [rows_eq fun moving => append_ne_nil_of_right_ne_nil _ (by simp) moving.1]
        exact mem_append_left _ member
      · rintro row (member | member)
        · rcases mem_append.mp member with old | new
          · exact .inl (.inl old)
          · exact .inr (mem_singleton.mp new)
        · exact .inl (.inr member)
    · cases inserted

theorem moves_of_enqueueInTransaction {episodeId thumbnailPath thumbnailSha256 : String}
    (enqueued : db.enqueueInTransaction episodeId thumbnailPath thumbnailSha256 = .ok db')
    (settled : ¬ db.Moving) : Moves db.rows db'.rows ∧
    ∀ row, db'.Has row → db.Has row ∨ row = ⟨some episodeId, thumbnailPath, thumbnailSha256, .pending, none⟩ := by
  unfold enqueueInTransaction at enqueued
  split at enqueued
  · cases enqueued
  · split at enqueued
    · exact moves_of_insert enqueued settled
    · split at enqueued
      · cases enqueued
        exact ⟨.refl _, fun _ has => .inl has⟩
      · cases enqueued

end Databases

/-! ## Steps -/

/-- While the rows are in the renamed table only, nothing happens but the creation of the new table and
the copy of the rows. -/
def undisturbed : Condition machine := fun w e =>
  w.db.Moving → (∃ sql, e.action = .statement (.create sql)) ∨ e.action = .statement .copy

noncomputable abbrev undisturbedMachine : Machine actions := machine.restrict undisturbed

section Steps
variable {pid : ℕ} {action : Act} {response : action.Res} {s s' : Shared undisturbedMachine}

theorem executed_eq {w w' : World} {failure : Option Error} {db : Result Database} {r : Result Unit} (is : w.executed
    failure db = (w', r)) : w'.holder = w.holder ∧ (w'.db = w.db ∧ r ≠ .ok () ∨ db = .ok w'.db ∧ r = .ok ()) := by
  unfold World.executed at is
  split at is <;> cases is
  · exact ⟨rfl, .inl ⟨rfl, nofun⟩⟩
  · exact ⟨rfl, .inr ⟨rfl, rfl⟩⟩
  · exact ⟨rfl, .inl ⟨rfl, nofun⟩⟩

theorem queried_world {α : Type} {w : World} {failure : Option Error} {answer : OutboxTable → α} :
    (w.queried failure answer).1 = w := by
  unfold World.queried
  split <;> rfl

variable (performs : Performs pid action response s s')
include performs

theorem rows_of_performs : Moves s.world.db.rows s'.world.db.rows ∧
    ∀ row, s'.world.db.Has row → (∃ source, s.world.db.Has source ∧ row.columns = source.columns)
    ∨ (row.status = .pending ∧ row.episodeId ≠ none) ∨ ∃ episodeId status reason, action = .update
    episodeId status reason ∧ ∃ source, s.world.db.Has source ∧ row = source.marked episodeId status reason := by
  obtain ⟨w, trace⟩ := s
  obtain ⟨w', trace'⟩ := s'
  obtain ⟨oracle, executed, meets, -⟩ := performs_restrict.mp performs
  change exec oracle pid w action = some (w', response) at executed
  have settled (other : ∀ statement, action ≠ .statement statement) : ¬ w.db.Moving := fun moving => by
    rcases meets moving with ⟨_, is⟩ | is <;> exact other _ is
  have still (same : w'.db = w.db) : Moves w.db.rows w'.db.rows ∧ ∀ row, w'.db.Has row →
      (∃ source, w.db.Has source ∧ row.columns = source.columns) ∨
      (row.status = .pending ∧ row.episodeId ≠ none) ∨
      ∃ episodeId status reason, action = .update episodeId status reason ∧
        ∃ source, w.db.Has source ∧ row = source.marked episodeId status reason := by
    rw [same]
    exact ⟨.refl _, fun row has => .inl ⟨row, has, rfl⟩⟩
  cases action with
  | statement statement =>
    obtain ⟨-, ⟨same, -⟩ | ⟨changed, -⟩⟩ := executed_eq (some.inj executed)
    · exact still same
    · have comes := comes_of_execute changed fun moving => by
        rcases meets moving with ⟨sql, is⟩ | is
        · exact .inl ⟨sql, Act.statement.inj is⟩
        · exact .inr (Act.statement.inj is)
      exact ⟨comes.moves, fun row has => .inl (comes.old row has)⟩
  | update episodeId status reason =>
    obtain ⟨-, ⟨same, -⟩ | ⟨changed, -⟩⟩ := executed_eq (some.inj executed)
    · exact still same
    · obtain ⟨rows, marked⟩ := moves_of_update changed (settled nofun)
      refine ⟨fun row member => ?_, fun row has => ?_⟩
      · rw [rows]
        exact ⟨_, mem_map_of_mem member, row.moved_marked ..⟩
      · obtain ⟨source, there, same | is⟩ := marked row has
        · exact .inl ⟨source, there, same⟩
        · exact .inr (.inr ⟨episodeId, status, reason, rfl, source, there, is⟩)
  | insert episodeId thumbnailPath thumbnailSha256 =>
    obtain ⟨-, ⟨same, -⟩ | ⟨changed, -⟩⟩ := executed_eq (some.inj executed)
    · exact still same
    · obtain ⟨moves, inserted⟩ := moves_of_insert changed (settled nofun)
      refine ⟨moves, fun row has => ?_⟩
      rcases inserted row has with old | rfl
      · exact .inl ⟨row, old, rfl⟩
      · exact .inr (.inl ⟨rfl, nofun⟩)
  | enqueueInTransaction episodeId thumbnailPath thumbnailSha256 =>
    obtain ⟨-, ⟨same, -⟩ | ⟨changed, -⟩⟩ := executed_eq (some.inj executed)
    · exact still same
    · obtain ⟨moves, inserted⟩ := moves_of_enqueueInTransaction changed (settled nofun)
      refine ⟨moves, fun row has => ?_⟩
      rcases inserted row has with old | rfl
      · exact .inl ⟨row, old, rfl⟩
      · exact .inr (.inl ⟨rfl, nofun⟩)
  | acquire =>
    simp only [exec] at executed
    split at executed <;> cases executed <;> exact still rfl
  | find | pendingRow =>
    have same := congrArg fst (some.inj executed)
    rw [queried_world] at same
    exact still (same ▸ rfl)
  | _ =>
    cases executed
    exact still rfl

theorem holder_of_performs {holder : ℕ}
    (held : s.world.holder = some holder) (other : action ≠ .release) : s'.world.holder = some holder := by
  obtain ⟨w, trace⟩ := s
  obtain ⟨w', trace'⟩ := s'
  obtain ⟨oracle, executed, -, -⟩ := performs_restrict.mp performs
  change exec oracle pid w action = some (w', response) at executed
  change w.holder = some holder at held
  show w'.holder = some holder
  cases action with
  | release => exact absurd rfl other
  | acquire => simp [exec, held] at executed
  | statement | update | insert | enqueueInTransaction =>
    exact (executed_eq (some.inj executed)).1.trans held
  | find | pendingRow =>
    have same := congrArg fst (some.inj executed)
    rw [queried_world] at same
    obtain rfl : w = w' := same
    exact held
  | _ =>
    cases executed
    exact held

end Steps

/-! ## Events -/

def own (pid : ℕ) (trace : List (Event actions)) : List (Event actions) := trace.filter (·.process = pid)

def JustDid (pid : ℕ) (events : List (Event actions)) : Assertion undisturbedMachine := fun s =>
  ∃ rest, own pid s.trace = events ++ rest

/-- The last four actions of the process: it found the row pending, the thumbnail has the hash, the approval
was revalidated, and the row is the active one. -/
def Prepared (pid : ℕ) (episodeId : Option String) (path : String) (trace : List (Event actions)) : Prop :=
  ∃ runner row rest, own pid trace =
      [⟨pid, .setActive runner episodeId, ()⟩, ⟨pid, .revalidate row, (.ok () : Result Unit)⟩,
        ⟨pid, .hash path, (.ok row.thumbnailSha256 : Result String)⟩,
        ⟨pid, .pendingRow, (.ok (some row) : Result (Option Row))⟩] ++ rest ∧
    row.status = .pending ∧ row.episodeId = episodeId ∧ row.thumbnailPath = path

def Delivers (episodeId : Option String) (e : Event actions) : Prop :=
  ∃ pid path receipt, e = ⟨pid, .deliver episodeId path, (.ok receipt : Result Receipt)⟩ ∧
    receipt.Acknowledges

def answeredRow : Event actions → Option (Option String)
  | ⟨_, .answer outcome, _⟩ => outcome.row
  | _ => none

def Settled (episodeId : Option String) (db : Database) : Prop :=
  ∃ row ∈ db.rows, row.episodeId = episodeId ∧ row.status ≠ .pending

theorem Settled.mono {episodeId : Option String} {db db' : Database} (settled : Settled episodeId db)
    (moves : Moves db.rows db'.rows) : Settled episodeId db' := by
  obtain ⟨row, member, is, left⟩ := settled
  obtain ⟨later, member', moved⟩ := moves row member
  refine ⟨later, member', moved.episodeId.trans is, ?_⟩
  rcases moved.status with same | pending
  · rw [same]
    exact left
  · exact absurd pending left

/-! ## The discipline -/

structure Inv (s : Shared undisturbedMachine) : Prop where
  named : ∀ row, s.world.db.Has row → row.episodeId ≠ none
  acknowledged : ∀ row, s.world.db.Has row → row.status = .delivered →
    ∃ e ∈ s.trace, Delivers row.episodeId e
  prepared : ∀ pid episodeId path (response : Result Receipt) earlier,
    ⟨pid, .deliver episodeId path, response⟩ :: earlier <:+ s.trace → Prepared pid episodeId path earlier
  settled : ∀ episodeId ∈ s.trace.filterMap answeredRow, Settled episodeId s.world.db
  distinct : (s.trace.filterMap answeredRow).Nodup

def grants (pid : ℕ) (s : Shared undisturbedMachine) : Act → Prop
  | .release => s.world.holder = some pid
  | .deliver episodeId path => Prepared pid episodeId path s.trace
  | .update episodeId status _ =>
    status ≠ .pending ∧ (status = .delivered → ∃ e ∈ s.trace, Delivers episodeId e)
  | .answer outcome => ∀ episodeId ∈ outcome.row, s.world.holder = some pid ∧
      Settled episodeId s.world.db ∧ episodeId ∉ s.trace.filterMap answeredRow
  | _ => True

section Steps
variable {pid : ℕ} {action : Act} {response : action.Res} {s s' : Shared undisturbedMachine}

theorem trace_of_performs (performs : Performs pid action response s s') :
    s'.trace = ⟨pid, action, response⟩ :: s.trace := performs.choose_spec.2

theorem answered_of_performs (performs : Performs pid action response s s') (granted : grants pid s action) :
    s'.trace.filterMap answeredRow = s.trace.filterMap answeredRow ∨ ∃ outcome episodeId, action = .answer outcome ∧
    outcome.row = some episodeId ∧ s'.trace.filterMap answeredRow = episodeId :: s.trace.filterMap answeredRow ∧
    s.world.holder = some pid ∧ Settled episodeId s.world.db ∧ episodeId ∉ s.trace.filterMap answeredRow := by
  rw [trace_of_performs performs]
  cases action with
  | answer outcome =>
    cases row : outcome.row with
    | none => exact .inl (by simp [answeredRow, row])
    | some episodeId =>
      exact .inr ⟨outcome, episodeId, rfl, row, by simp [answeredRow, row], granted episodeId row⟩
  | _ => exact .inl rfl

theorem Inv.step (inv : Inv s) (granted : grants pid s action)
    (performs : Performs pid action response s s') : Inv s' := by
  obtain ⟨moves, comes⟩ := rows_of_performs performs
  have extended := trace_of_performs performs
  constructor
  case named =>
    intro row has
    rcases comes row has with ⟨source, there, same⟩ | ⟨-, named⟩ | ⟨_, _, _, -, source, there, rfl⟩
    · rw [show row.episodeId = source.episodeId from congrArg fst same]
      exact inv.named source there
    · exact named
    · rw [marked_episodeId]
      exact inv.named source there
  case acknowledged =>
    intro row has delivered
    have older (source : Row) (there : s.world.db.Has source) (is : source.episodeId = row.episodeId)
        (before : source.status = .delivered) : ∃ e ∈ s'.trace, Delivers row.episodeId e := by
      obtain ⟨e, member, delivers⟩ := inv.acknowledged source there before
      exact ⟨e, extended ▸ .tail _ member, is ▸ delivers⟩
    rcases comes row has with ⟨source, there, same⟩ | ⟨pending, -⟩ |
      ⟨episodeId, status, reason, rfl, source, there, rfl⟩
    · refine older source there (congrArg fst same).symm ?_
      exact (congrArg (fun columns => columns.2.2.2) same).symm.trans delivered
    · cases pending.symm.trans delivered
    · by_cases is : source.episodeId = episodeId ∧ episodeId ≠ none ∧ source.status = .pending
      · rw [marked_episodeId, is.1]
        simp only [marked, if_pos is] at delivered
        obtain ⟨e, member, delivers⟩ := granted.2 delivered
        exact ⟨e, extended ▸ .tail _ member, delivers⟩
      · simp only [marked, if_neg is] at delivered older ⊢
        exact older source there rfl delivered
  case prepared =>
    intro other episodeId path answer earlier suffix
    rw [extended, suffix_cons_iff] at suffix
    rcases suffix with new | old
    · obtain ⟨same, rfl⟩ := cons.inj new
      cases same
      exact granted
    · exact inv.prepared other episodeId path answer earlier old
  case settled =>
    intro episodeId member
    rcases answered_of_performs performs granted with same | ⟨_, new, -, -, same, -, settled, -⟩
    · rw [same] at member
      exact (inv.settled episodeId member).mono moves
    · rw [same] at member
      rcases mem_cons.mp member with rfl | old
      · exact settled.mono moves
      · exact (inv.settled episodeId old).mono moves
  case distinct =>
    rcases answered_of_performs performs granted with same | ⟨_, new, -, -, same, -, -, fresh⟩
    · rw [same]
      exact inv.distinct
    · rw [same]
      exact nodup_cons.mpr ⟨fresh, inv.distinct⟩

theorem db_of_crash (s : Shared undisturbedMachine) (dead : ℕ) : (s.crash dead).world.db = s.world.db := by
  show (if s.world.holder = some dead then _ else _ : World).db = _
  split <;> rfl

theorem holder_of_crash {holder dead : ℕ} {s : Shared undisturbedMachine} (foreign : dead ≠ holder)
    (held : s.world.holder = some holder) : (s.crash dead).world.holder = some holder := by
  show (if s.world.holder = some dead then _ else _ : World).holder = _
  rw [if_neg fun same => foreign (some.inj (same.symm.trans held))]
  exact held

end Steps

noncomputable def discipline : Protocol undisturbedMachine where
  inv := Inv
  grants := grants
  preserves := Inv.step
  survives := by
    intro s dead inv
    have same := db_of_crash s dead
    exact ⟨fun row has => inv.named row (same ▸ has), fun row has => inv.acknowledged row (same ▸ has),
      inv.prepared, fun episodeId member => same ▸ inv.settled episodeId member, inv.distinct⟩

end VideoPoster.Outbox
