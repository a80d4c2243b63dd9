import VideoPoster.Interleaving.Outcomes
import VideoPoster.Outbox.Migration

/-!
# `delivery_session`: enqueueing and draining the video outbox

Every SQL statement commits by itself, so between two statements of one call anything may happen.
-/

namespace VideoPoster.Outbox
open Python Interleaving OutboxTable Row

inductive Outcome where
  | idle
  | blocked (episodeId : Option String) (reason : String)
  | unknown (episodeId : Option String) (reason : String)
  | delivered (episodeId : Option String)
  deriving DecidableEq

def Outcome.row : Outcome → Option (Option String)
  | .idle => none
  | .blocked episodeId _ | .unknown episodeId _ | .delivered episodeId => some episodeId

/-- What is read of the answer of a delivery: whether it is a `dict`, its kind if that is a text, and its
message id if that is an `int`. -/
structure Receipt where
  dict : Bool
  artifactKind : Option String
  messageId : Option ℤ

def Receipt.Acknowledges (receipt : Receipt) : Prop :=
  receipt.dict = true ∧ receipt.artifactKind = some "video" ∧ ∃ id ∈ receipt.messageId, 0 < id

instance (receipt : Receipt) : Decidable receipt.Acknowledges := inferInstanceAs (Decidable (_ ∧ _))

def Database.outboxRows (db : Database) : List Row := (db.outbox.map rows).getD []

def Database.legacyRows (db : Database) : List Row := (db.legacy.map rows).getD []

def noTable : Error := operational "no such table: video_delivery_outbox"

def OutboxTable.mapRows (table : OutboxTable) (f : Row → Row) (same : ∀ row, (f row).episodeId = row.episodeId) :
    OutboxTable where
  sql := table.sql
  rows := table.rows.map f
  unique := by
    rw [List.filterMap_map, show episodeId ∘ f = episodeId from funext same]
    exact table.unique

/-- `WHERE episode_id = ? AND status = 'PENDING'`; nothing equals `NULL`. -/
def Row.marked (row : Row) (episodeId : Option String) (status : Status) (reason : Option String) : Row :=
  if row.episodeId = episodeId ∧ episodeId ≠ none ∧ row.status = .pending then
    { row with status := status, reason := reason }
  else row

@[simp]
theorem Row.marked_episodeId (row : Row) (episodeId : Option String) (status : Status)
    (reason : Option String) : (row.marked episodeId status reason).episodeId = row.episodeId := by
  unfold marked
  split <;> rfl

def Database.update (db : Database) (episodeId : Option String) (status : Status) (reason : Option String) :
    Result Database :=
  match db.outbox with
  | none => .error noTable
  | some table =>
    if outdated table.sql then .error (operational "no such column: reason")
    else .ok { db with
      outbox := some (table.mapRows (·.marked episodeId status reason) fun row => row.marked_episodeId ..) }

def OutboxTable.find (table : OutboxTable) (episodeId : String) : Option Row :=
  table.rows.find? fun row => row.episodeId = some episodeId

def Database.insert (db : Database) (episodeId thumbnailPath thumbnailSha256 : String) : Result Database :=
  match db.outbox with
  | none => .error noTable
  | some table =>
    let rows := table.rows ++ [⟨some episodeId, thumbnailPath, thumbnailSha256, .pending, none⟩]
    if unique : (rows.filterMap Row.episodeId).Nodup then
      .ok { db with outbox := some ⟨table.sql, rows, unique⟩ }
    else .error ⟨.other "IntegrityError", "UNIQUE constraint failed: video_delivery_outbox.episode_id"⟩

def bound : Error :=
  .value "video delivery eligibility is already bound to different thumbnail bytes"

def Database.enqueueInTransaction (db : Database) (episodeId thumbnailPath thumbnailSha256 : String) :
    Result Database :=
  match db.outbox with
  | none => .error noTable
  | some table =>
    match table.find episodeId with
    | none => db.insert episodeId thumbnailPath thumbnailSha256
    | some row =>
      if row.thumbnailPath = thumbnailPath ∧ row.thumbnailSha256 = thumbnailSha256 then .ok db
      else .error bound

def before : Option String → Option String → Bool
  | none, _ => true
  | some _, none => false
  | some x, some y => x ≤ y

def pendingRow (rows : List Row) : Option Row :=
  (rows.filter fun row => row.status = .pending).foldr (fun row first =>
      match first with
      | none => some row
      | some other => if before row.episodeId other.episodeId then some row else some other) none

inductive Act where
  | acquire
  | release
  | schema
  | statement (statement : Statement)
  | find (episodeId : String)
  | resolve (path : String)
  | insert (episodeId thumbnailPath thumbnailSha256 : String)
  | enqueueInTransaction (episodeId thumbnailPath thumbnailSha256 : String)
  | pendingRow
  | update (episodeId : Option String) (status : Status) (reason : Option String)
  | hash (path : String)
  | revalidate (row : Row)
  | setActive (runner : ℕ) (episodeId : Option String)
  | active (runner : ℕ)
  | deliver (episodeId : Option String) (path : String)
  /-- The `return` of a drain. -/
  | answer (outcome : Outcome)

abbrev Act.Res : Act → Type
  | .acquire => Result Unit
  | .release => Result Unit
  | .schema => Result (List Statement)
  | .statement _ => Result Unit
  | .find _ => Result (Option Row)
  | .resolve _ => String
  | .insert _ _ _ => Result Unit
  | .enqueueInTransaction _ _ _ => Result Unit
  | .pendingRow => Result (Option Row)
  | .update _ _ _ => Result Unit
  | .hash _ => Result String
  | .revalidate _ => Result Unit
  | .setActive _ _ => Unit
  | .active _ => Option String
  | .deliver _ _ => Result Receipt
  | .answer _ => Unit

abbrev actions : Interface := ⟨Act, Act.Res⟩

structure World where
  db : Database
  holder : Option ℕ
  active : ℕ → Option String

def World.start : World := ⟨⟨none, none⟩, none, fun _ => none⟩

structure Oracle where
  /-- Why the database refuses a statement, or why the task is cancelled at the lock. -/
  failure : Option Error
  resolved : String
  digest : Result String
  revalidated : Result Unit
  delivered : Result Receipt

def World.executed (w : World) (failure : Option Error) (db : Result Database) : World × Result Unit :=
  match failure, db with
  | some error, _ => (w, .error error)
  | none, .ok db => ({ w with db := db }, .ok ())
  | none, .error error => (w, .error error)

def World.queried {α : Type} (w : World) (failure : Option Error) (answer : OutboxTable → α) :
    World × Result α :=
  match failure, w.db.outbox with
  | some error, _ => (w, .error error)
  | none, some table => (w, .ok (answer table))
  | none, none => (w, .error noTable)

def exec (oracle : Oracle) (pid : ℕ) (w : World) : (action : Act) → Option (World × action.Res)
  | .acquire =>
    match w.holder, oracle.failure with
    | some _, _ => none
    | none, some error => some (w, .error error)
    | none, none => some ({ w with holder := some pid }, .ok ())
  | .release => some ({ w with holder := none }, match oracle.failure with
      | some error => .error error
      | none => .ok ())
  | .schema => some (w, match oracle.failure with
      | some error => .error error
      | none => .ok (ensureOutboxSchema w.db))
  | .statement statement => some (w.executed oracle.failure (w.db.execute statement))
  | .find episodeId => some (w.queried oracle.failure (·.find episodeId))
  | .resolve _ => some (w, oracle.resolved)
  | .insert episodeId thumbnailPath thumbnailSha256 =>
    some (w.executed oracle.failure (w.db.insert episodeId thumbnailPath thumbnailSha256))
  | .enqueueInTransaction episodeId thumbnailPath thumbnailSha256 =>
    some (w.executed oracle.failure (w.db.enqueueInTransaction episodeId thumbnailPath thumbnailSha256))
  | .pendingRow => some (w.queried oracle.failure fun table => Outbox.pendingRow table.rows)
  | .update episodeId status reason =>
    some (w.executed oracle.failure (w.db.update episodeId status reason))
  | .hash _ => some (w, oracle.digest)
  | .revalidate _ => some (w, oracle.revalidated)
  | .setActive runner episodeId =>
    some ({ w with active := Function.update w.active runner episodeId }, ())
  | .active runner => some (w, w.active runner)
  | .deliver _ _ => some (w, oracle.delivered)
  | .answer _ => some (w, ())

abbrev machine : Machine actions where
  World := World
  Oracle := Oracle
  exec := exec
  -- The system releases the file lock of a process that dies.
  crash := fun pid w => if w.holder = some pid then { w with holder := none } else w

abbrev Program (α : Type) := Prog actions Error α

def baseExceptions : List ErrorKind :=
  [.other "CancelledError", .other "KeyboardInterrupt", .other "SystemExit", .other "GeneratorExit"]

def isDigest (text : String) : Bool :=
  decide (text.length = 64) && text.toList.all fun c => c ∈ "0123456789abcdef".toList

def awaited : List ErrorKind :=
  [.osError, .other "OperationalError", .other "IntegrityError", .other "DatabaseError", .runtimeError,
    .valueError]

namespace Program

def require (condition : Prop) [Decidable condition] (error : Error) : Program Unit :=
  .ofExcept (Python.require condition error)

def statements : List Statement → Program Unit
  | [] => pure ()
  | statement :: rest => do
    Prog.request (.statement statement) id
    statements rest

def ensureSchema : Program Unit := do
  let todo ← Prog.request .schema id
  statements todo

def enqueueVideo (episodeId thumbnailPath thumbnailSha256 : String) : Program Unit := do
  require (blank episodeId = false ∧ isDigest thumbnailSha256 = true)
    (.value "video delivery eligibility must be bound to an episode and SHA-256")
  ensureSchema
  let existing ← Prog.request (.find episodeId) id
  let resolved : String ← .act (.resolve thumbnailPath) .pure
  match existing with
  | none => Prog.request (.insert episodeId resolved thumbnailSha256) id
  | some row => require (row.thumbnailPath = resolved ∧ row.thumbnailSha256 = thumbnailSha256) bound

def mark (episodeId : Option String) (status : Status) (reason : Option String) : Program Unit := do
  ensureSchema
  Prog.request (.update episodeId status reason) id

def markBlocked (episodeId : Option String) (reason : String) : Program Outcome := do
  mark episodeId .blocked (some reason)
  pure (.blocked episodeId reason)

def markUnknown (episodeId : Option String) (reason : String) : Program Outcome := do
  mark episodeId .unknown (some reason)
  pure (.unknown episodeId reason)

def cancelled : String := "delivery cancelled; manual reconciliation required"

def markActiveUnknown (runner : ℕ) : Program Unit := do
  let episodeId : Option String ← .act (.active runner) .pure
  match episodeId with
  | none => pure ()
  | some episodeId => mark (some episodeId) .unknown (some cancelled)

def delivery (runner : ℕ) (row : Row) : Program (Outcome ⊕ Receipt) :=
  .ensuring
    (do
      let delivered ←
        (Prog.request (I := actions) (.deliver row.episodeId row.thumbnailPath) id).attempt
      match delivered with
      | .ok receipt => pure (.inr receipt)
      | .error error =>
        if error.kind = .other "CancelledError" then do
          mark row.episodeId .unknown (some cancelled)
          .raise error
        else if error.kind ∈ baseExceptions then .raise error
        else do
          let outcome ← markUnknown row.episodeId
            "delivery outcome ambiguous; manual reconciliation required"
          pure (.inl outcome))
    (.act (.setActive runner none) .pure)

def acknowledged (row : Row) (receipt : Receipt) : Program Outcome :=
  if receipt.Acknowledges then do
    let acknowledged ← (mark row.episodeId .delivered none).attempt
    match acknowledged with
    | .ok () => pure (.delivered row.episodeId)
    | .error error =>
      if error.kind ∈ baseExceptions then .raise error
      else markUnknown row.episodeId "delivery acknowledgement failed; manual reconciliation required"
  else markUnknown row.episodeId "delivery receipt invalid; manual reconciliation required"

def dispatch (runner : ℕ) (row : Row) : Program Outcome := do
  let _ ← Prog.act (.setActive runner row.episodeId) .pure
  let delivered ← delivery runner row
  match delivered with
  | .inl outcome => pure outcome
  | .inr receipt => acknowledged row receipt

def drainRow (runner : ℕ) (row : Row) : Program Outcome := do
  let digest ← (Prog.request (I := actions) (.hash row.thumbnailPath) id).attempt
  match digest with
  | .error error =>
    if error.kind = .osError then markBlocked row.episodeId "thumbnail unavailable"
    else .raise error
  | .ok actual =>
    if actual = row.thumbnailSha256 then do
      let checked ← (Prog.request (I := actions) (.revalidate row) id).attempt
      match checked with
      | .error error =>
        if error.kind ∈ [.other "AttributeError", .osError, .valueError] then
          markBlocked row.episodeId "thumbnail approval is no longer authenticated"
        else .raise error
      | .ok () => dispatch runner row
    else markBlocked row.episodeId "thumbnail hash changed"

def drainFound (runner : ℕ) : Option Row → Program Outcome
  | none => pure .idle
  | some row => drainRow runner row

def drainLocked (runner : ℕ) : Program Outcome := do
  ensureSchema
  let row ← Prog.request .pendingRow id
  let outcome ← drainFound runner row
  let _ ← Prog.act (.answer outcome) .pure
  pure outcome

def drainOnce (runner : ℕ) : Program Outcome := do
  Prog.request .acquire id
  .ensuring (drainLocked runner) (Prog.request .release id)

def drainAll (runner : ℕ) : ℕ → Program Unit
  | 0 => pure ()
  | rounds + 1 => do
    let drained ← (drainOnce runner).attempt
    match drained with
    | .error error => if error.kind ∈ awaited then pure () else .raise error
    | .ok outcome => if outcome = .idle then pure () else drainAll runner rounds

def initializeRegistry : Program Unit := statements Outbox.initializeRegistry

end Program

inductive Called : Program Unit → Prop
  | enqueueVideo (episodeId thumbnailPath thumbnailSha256 : String) :
      Called (Program.enqueueVideo episodeId thumbnailPath thumbnailSha256)
  | drainOnce (runner : ℕ) : Called (Program.drainOnce runner).discard
  | drainAll (runner rounds : ℕ) : Called (Program.drainAll runner rounds)
  | markActiveUnknown (runner : ℕ) : Called (Program.markActiveUnknown runner)
  | initializeRegistry : Called Program.initializeRegistry
  | enqueueInTransaction (episodeId thumbnailPath thumbnailSha256 : String) :
      Called (Prog.request
        (.enqueueInTransaction episodeId thumbnailPath thumbnailSha256) id)

def calls : Set (Program Unit) := { program | Called program }

end VideoPoster.Outbox
