import Mathlib.Data.List.Nodup
import VideoPoster.Python.Basic

/-!
# The migration of the video outbox

The connection commits every statement by itself.
-/

namespace VideoPoster.Outbox
open Python List String

inductive Status where
  | pending | blocked | unknown | delivered
  deriving DecidableEq

structure Row where
  /-- A text that is a primary key may be `NULL`. -/
  episodeId : Option String
  thumbnailPath : String
  thumbnailSha256 : String
  status : Status
  reason : Option String := none
  deriving DecidableEq

def Row.columns (row : Row) : Option String × String × String × Status :=
  (row.episodeId, row.thumbnailPath, row.thumbnailSha256, row.status)

structure OutboxTable where
  sql : String
  rows : List Row
  unique : (rows.filterMap Row.episodeId).Nodup

structure Database where
  /-- `video_delivery_outbox`. -/
  outbox : Option OutboxTable
  /-- `video_delivery_outbox_legacy`. -/
  legacy : Option OutboxTable

def contains (text part : String) : Bool := go text.toList
where
  go : List Char → Bool
    | [] => part.toList.isEmpty
    | c :: rest => part.toList.isPrefixOf (c :: rest) || go rest

def currentSql : String :=
  "CREATE TABLE video_delivery_outbox (episode_id TEXT PRIMARY KEY, thumbnail_path TEXT NOT NULL, " ++
  "thumbnail_sha256 TEXT NOT NULL, status TEXT NOT NULL CHECK(status IN " ++
  "('PENDING', '" ++ "BLOCKED" ++ "', '" ++ "UNKNOWN" ++ "', 'DELIVERED')), " ++ "reason" ++ " TEXT)"

def twoStateSql : String :=
  "CREATE TABLE video_delivery_outbox (" ++
  "episode_id TEXT PRIMARY KEY, thumbnail_path TEXT NOT NULL, " ++ "thumbnail_sha256 TEXT NOT NULL, " ++
  "status TEXT NOT NULL CHECK(status IN ('PENDING', 'DELIVERED')))"

def outdated (sql : String) : Bool :=
  !contains sql "reason" || !contains sql "BLOCKED" || !contains sql "UNKNOWN"

def created (sql : String) : OutboxTable := ⟨sql, [], nodup_nil⟩

inductive Statement where
  | rename
  | create (sql : String)
  | createIfNotExists (sql : String)
  | copy
  | drop

def operational (message : String) : Error := ⟨.other "OperationalError", message⟩

def OutboxTable.copied (target source : OutboxTable) : List Row :=
  target.rows ++ source.rows.map fun row => { row with reason := none }

def Database.execute (db : Database) : Statement → Result Database
  | .rename =>
    match db.outbox, db.legacy with
    | none, _ => .error (operational "no such table: video_delivery_outbox")
    | some _, some _ =>
      .error (operational
        "there is already another table or index with this name: video_delivery_outbox_legacy")
    | some table, none => .ok ⟨none, some table⟩
  | .create sql =>
    match db.outbox with
    | some _ => .error (operational "table video_delivery_outbox already exists")
    | none => .ok { db with outbox := some (created sql) }
  | .createIfNotExists sql =>
    match db.outbox with
    | some _ => .ok db
    | none => .ok { db with outbox := some (created sql) }
  | .copy =>
    match db.outbox, db.legacy with
    | some target, some source =>
      if unique : ((target.copied source).filterMap Row.episodeId).Nodup then
        .ok { db with outbox := some ⟨target.sql, target.copied source, unique⟩ }
      else .error ⟨.other "IntegrityError",
        "UNIQUE constraint failed: video_delivery_outbox.episode_id"⟩
    | none, _ => .error (operational "no such table: video_delivery_outbox")
    | some _, none => .error (operational "no such table: video_delivery_outbox_legacy")
  | .drop =>
    match db.legacy with
    | none => .error (operational "no such table: video_delivery_outbox_legacy")
    | some _ => .ok { db with legacy := none }

def Database.run (db : Database) : List Statement → Database
  | [] => db
  | statement :: rest =>
    match db.execute statement with
    | .ok db => db.run rest
    | .error _ => db

def ensureOutboxSchema (db : Database) : List Statement :=
  match db.outbox with
  | none => [.create currentSql]
  | some table => if outdated table.sql then [.rename, .create currentSql, .copy, .drop] else []

def initializeRegistry : List Statement := [.createIfNotExists twoStateSql]

inductive Initialiser where
  | registry | schema

def Initialiser.statements (db : Database) : Initialiser → List Statement
  | .registry => initializeRegistry
  | .schema => ensureOutboxSchema db

def Database.restart (db : Database) (initialiser : Initialiser) : Database :=
  db.run (initialiser.statements db)

def Database.Keeps (db : Database) (row : Row) : Prop :=
  ∃ table, db.outbox = some table ∧ ∃ kept ∈ table.rows, kept.columns = row.columns

theorem contains_iff {text part : String} : contains text part = true ↔ part.toList <:+: text.toList := by
  unfold contains
  induction text.toList with
  | nil => simp [contains.go]
  | cons c rest ih => simp [contains.go, ih, infix_cons_iff]

theorem contains_self (part : String) : contains part part = true :=
  contains_iff.2 infix_rfl

theorem contains_left {a part : String} (b : String) (is : contains a part = true) : contains (a ++ b) part = true := by
  rw [contains_iff, toList_append]
  exact (contains_iff.1 is).trans (infix_append_left ..)

theorem contains_right (a : String) {b part : String} (is : contains b part = true) :
    contains (a ++ b) part = true := by
  rw [contains_iff, toList_append]
  exact (contains_iff.1 is).trans (infix_append_right ..)

theorem not_contains {text part : String} (c : Char) (letter : c ∈ part.toList)
    (absent : c ∉ text.toList) : contains text part = false := by
  by_contra is
  exact absent ((contains_iff.1 (by simpa using is)).subset letter)

theorem not_mem_append {a b : String} {c : Char} (left : c ∉ a.toList) (right : c ∉ b.toList) :
    c ∉ (a ++ b).toList := by
  rw [toList_append, mem_append]
  exact fun either => either.elim left right

theorem currentSql_current : outdated currentSql = false := by
  have reason : contains currentSql "reason" = true :=
    contains_left _ (contains_right _ (contains_self _))
  have unknown : contains currentSql "UNKNOWN" = true :=
    contains_left _ (contains_left _ (contains_left _ (contains_right _ (contains_self _))))
  have blocked : contains currentSql "BLOCKED" = true :=
    contains_left _ (contains_left _ (contains_left _ (contains_left _ (contains_left _
      (contains_right _ (contains_self _))))))
  simp [outdated, reason, unknown, blocked]

theorem twoStateSql_outdated : outdated twoStateSql = true := by
  have unknown : contains twoStateSql "UNKNOWN" = false := by
    refine not_contains 'W' (by decide) ?_
    refine not_mem_append (not_mem_append (not_mem_append ?_ ?_) ?_) ?_
    all_goals decide
  simp [outdated, unknown]

section Migration
variable {table : OutboxTable} {db : Database}

structure Migrated (table : OutboxTable) (db : Database) : Prop where
  rows : ∃ current, db.outbox = some current ∧ outdated current.sql = false ∧
    ∀ row ∈ table.rows, ∃ kept ∈ current.rows, kept.columns = row.columns

structure Stranded (db : Database) : Prop where
  legacy : db.legacy.isSome
  empty : ∀ current, db.outbox = some current → current.rows = []

theorem Migrated.restart (migrated : Migrated table db) (initialiser : Initialiser) : db.restart initialiser = db := by
  obtain ⟨current, is, up, -⟩ := migrated.rows
  cases initialiser with
  | registry => simp [Database.restart, Initialiser.statements, initializeRegistry, Database.run,
      Database.execute, is]
  | schema => simp [Database.restart, Initialiser.statements, ensureOutboxSchema, is, up, Database.run]

theorem Stranded.restart (stranded : Stranded db) (initialiser : Initialiser) : Stranded (db.restart initialiser) := by
  have fresh : ∀ sql, Stranded { db with outbox := some (created sql) } := by
    intro sql
    refine ⟨stranded.legacy, fun current is => ?_⟩
    cases is
    rfl
  obtain ⟨outbox, legacy⟩ := db
  obtain ⟨source, rfl⟩ := Option.isSome_iff_exists.mp stranded.legacy
  cases outbox with
  | none =>
    cases initialiser with
    | registry => exact fresh twoStateSql
    | schema => exact fresh currentSql
  | some current =>
    cases initialiser with
    | registry => exact stranded
    | schema =>
      simp only [Database.restart, Initialiser.statements, ensureOutboxSchema]
      split_ifs
      · exact stranded
      · exact stranded

def stopped (table : OutboxTable) (statements : ℕ) : Database :=
  Database.run ⟨some table, none⟩ ((ensureOutboxSchema ⟨some table, none⟩).take statements)

theorem copied_created (sql : String) :
    (created sql).copied table = table.rows.map fun row => { row with reason := none } := rfl

theorem copied_unique (table : OutboxTable) (sql : String) :
    (((created sql).copied table).filterMap Row.episodeId).Nodup := by
  rw [copied_created, filterMap_map]
  exact table.unique

def migrated (table : OutboxTable) : OutboxTable :=
  ⟨currentSql, (created currentSql).copied table, copied_unique table currentSql⟩

theorem execute_copy (table : OutboxTable) : Database.execute ⟨some (created currentSql), some table⟩ .copy =
      .ok ⟨some (migrated table), some table⟩ :=
  dif_pos (copied_unique table currentSql)

theorem stopped_eq (old : outdated table.sql = true)
    (statements : ℕ) : stopped table statements = if statements = 0 then ⟨some table, none⟩ else if statements =
    1 then ⟨none, some table⟩ else if statements = 2 then ⟨some (created currentSql), some table⟩ else if statements =
    3 then ⟨some (migrated table), some table⟩ else ⟨some (migrated table), none⟩ := by
  have renamed : Database.execute ⟨some table, none⟩ .rename = .ok ⟨none, some table⟩ := rfl
  have created : Database.execute ⟨none, some table⟩ (.create currentSql) =
      .ok ⟨some (created currentSql), some table⟩ := rfl
  have dropped : Database.execute ⟨some (migrated table), some table⟩ .drop = .ok ⟨some (migrated table), none⟩ := rfl
  unfold stopped ensureOutboxSchema
  match statements with
  | 0 => rfl
  | 1 => simp [old, Database.run, renamed]
  | 2 => simp [old, Database.run, renamed, created]
  | 3 => simp [old, Database.run, renamed, created, execute_copy]
  | n + 4 => simp [old, Database.run, renamed, created, execute_copy, dropped]

theorem migrated_keeps (table : OutboxTable) (legacy : Option OutboxTable) :
    Migrated table ⟨some (migrated table), legacy⟩ := by
  refine ⟨migrated table, rfl, currentSql_current, fun row member => ?_⟩
  exact ⟨{ row with reason := none }, mem_map_of_mem member, rfl⟩

theorem restarts_kept (old : outdated table.sql = true)
    (restarts : List Initialiser) (kept : db = ⟨some table, none⟩ ∨ Migrated table db) :
    restarts.foldl Database.restart db = ⟨some table, none⟩ ∨ Migrated table (restarts.foldl Database.restart db) := by
  induction restarts generalizing db with
  | nil => exact kept
  | cons initialiser restarts ih =>
    refine ih ?_
    rcases kept with rfl | is
    · cases initialiser with
      | registry => exact .inl rfl
      | schema =>
        right
        have all : Database.restart ⟨some table, none⟩ .schema = stopped table 4 := by
          simp [stopped, Database.restart, Initialiser.statements, ensureOutboxSchema, old]
        rw [all, stopped_eq old]
        exact migrated_keeps table none
    · rw [is.restart initialiser]
      exact .inr is

theorem restarts_stranded (restarts : List Initialiser) (stranded : Stranded db) :
    Stranded (restarts.foldl Database.restart db) := by
  induction restarts generalizing db with
  | nil => exact stranded
  | cons initialiser restarts ih => exact ih (stranded.restart initialiser)

theorem stopped_stranded (old : outdated table.sql = true) {statements : ℕ}
    (positive : statements ≠ 0) (few : statements < 3) : Stranded (stopped table statements) := by
  rw [stopped_eq old]
  obtain rfl | rfl : statements = 1 ∨ statements = 2 := by omega
  · exact ⟨rfl, nofun⟩
  · refine ⟨rfl, fun current is => ?_⟩
    cases is
    rfl

/-- For every table of the first version, stop and restarts. -/
theorem migration_keeps_iff (old : outdated table.sql = true) (statements : ℕ) (restarts : List Initialiser) :
    (∀ row ∈ table.rows, (restarts.foldl Database.restart (stopped table statements)).Keeps row) ↔
      table.rows = [] ∨ statements = 0 ∨ 3 ≤ statements := by
  constructor
  · intro keeps
    by_contra wrong
    simp only [not_or, not_le] at wrong
    obtain ⟨some, positive, few⟩ := wrong
    have stranded := stopped_stranded old positive few
    obtain ⟨row, member⟩ := exists_mem_of_ne_nil _ some
    obtain ⟨current, is, kept, there, -⟩ := keeps row member
    rw [(restarts_stranded restarts stranded).empty current is] at there
    cases there
  · rintro (none | done) row member
    · rw [none] at member
      cases member
    · have start : stopped table statements = ⟨some table, none⟩ ∨
          Migrated table (stopped table statements) := by
        rw [stopped_eq old]
        rcases done with rfl | done
        · exact .inl rfl
        · right
          rw [if_neg (by omega), if_neg (by omega), if_neg (by omega)]
          split_ifs <;> exact migrated_keeps table _
      rcases restarts_kept old restarts start with same | is
      · rw [same]
        exact ⟨table, rfl, row, member, rfl⟩
      · obtain ⟨current, there, -, keeps⟩ := is.rows
        exact ⟨current, there, keeps row member⟩

end Migration

def pendingTable : OutboxTable :=
  ⟨twoStateSql, [⟨some "EP8", "thumbnail.png", "0a", .pending, none⟩], by decide⟩

theorem copied_before_drop : ([Initialiser.registry, .schema].foldl Database.restart (stopped pendingTable 3)).Keeps
      ⟨some "EP8", "thumbnail.png", "0a", .pending, none⟩ := by
  have keeps := (@migration_keeps_iff pendingTable twoStateSql_outdated 3 [.registry, .schema]).mpr (.inr (.inr le_rfl))
  exact keeps _ (.head _)

theorem lost_after_rename : ¬ ∀ row ∈ pendingTable.rows,
    ([Initialiser.registry, .schema].foldl Database.restart (stopped pendingTable 1)).Keeps row := by
  intro keeps
  obtain ⟨table, is, kept, there, -⟩ :=
    keeps ⟨some "EP8", "thumbnail.png", "0a", .pending, none⟩ (.head _)
  have stranded := @stopped_stranded pendingTable twoStateSql_outdated 1 one_ne_zero (by decide)
  rw [(restarts_stranded _ stranded).empty table is] at there
  cases there

end VideoPoster.Outbox
