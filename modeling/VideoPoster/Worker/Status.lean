import Mathlib.Tactic.NormNum.Ineq
import VideoPoster.Interleaving.Undisturbed
import VideoPoster.Worker.Ownership
import VideoPoster.Worker.Published

/-!
# What the status reads of the queue
-/

namespace VideoPoster.Worker
open Python Tables Interleaving Program List World Option Config EpisodeWorker Table Prod Set

/-! ## The file -/

inductive Loaded where
  | null
  | bool (value : Bool)
  | int (value : ℤ)
  | float (value : ℚ)
  | str (value : String)
  | timestamp (moment : ℚ) (utcoffset : Option ℚ)
  | list (items : List Loaded)
  | dict (entries : List (String × Loaded))

abbrev Entries := List (String × Loaded)

def Entries.get (entries : Entries) (key : String) : Option Loaded :=
  (entries.find? fun entry => entry.1 = key).map snd

def Entries.keysAre (entries : Entries) (keys : List String) : Bool :=
  keys.all (fun key => entries.any fun entry => entry.1 = key) &&
    entries.all fun entry => entry.1 ∈ keys

def TaskKind.text : TaskKind → String
  | .fixture => "fixture"
  | .compiled => "compiled"

def TaskStatus.text : TaskStatus → String
  | .pending => "PENDING"
  | .running => "RUNNING"
  | .waiting => "WAITING"
  | .done => "DONE"
  | .unknownRequiresReconciliation => "UNKNOWN_REQUIRES_RECONCILIATION"

def Loaded.ofInt : Option ℤ → Loaded
  | some value => .int value
  | none => .null

def Loaded.ofText : Option String → Loaded
  | some value => .str value
  | none => .null

def fields : List String :=
  ["episode_id", "root", "kind", "status", "next_action", "fencing_token", "worker_id",
    "lease_epoch", "gate_hash", "attempts", "updated_at", "state"]

def TaskRow.entries (row : TaskRow) : Entries :=
  [("attempts", .int row.attempts), ("episode_id", .str row.episodeId),
    ("fencing_token", .ofInt row.fencingToken), ("gate_hash", .ofText row.gateHash),
    ("kind", .str row.kind.text), ("lease_epoch", .ofInt row.leaseEpoch),
    ("next_action", .str row.nextAction), ("root", .str row.root), ("state", .str row.state),
    ("status", .str row.status.text), ("updated_at", .float row.updatedAt),
    ("worker_id", .ofText row.workerId)]

def snapshotSchema : String := "episode-task-queue-snapshot-v1"

def lowerHex (text : String) : Bool :=
  text.length = 64 ∧ text.toList.all fun char => "0123456789abcdef".toList.contains char

structure Digest where
  sha256 : Entries → String
  hex : ∀ entries, lowerHex (sha256 entries) = true

def Snapshot.body : Snapshot → Entries
  | .writerInProgress generatedAt =>
    [("generated_at_utc", .timestamp generatedAt (some 0)), ("schema", .str snapshotSchema),
      ("status", .str "WRITER_IN_PROGRESS")]
  | .current generatedAt tasks =>
    [("generated_at_utc", .timestamp generatedAt (some 0)), ("schema", .str snapshotSchema),
      ("status", .str "CURRENT"),
      ("tasks", .list (tasks.map fun row => .dict row.entries))]

def Snapshot.document (digest : Digest) (snapshot : Snapshot) : Loaded :=
  let hash := ("snapshot_sha256", Loaded.str (digest.sha256 snapshot.body))
  .dict (snapshot.body.take 2 ++ hash :: snapshot.body.drop 2)

/-! ## `read_status` -/

def Loaded.isStr : Loaded → Bool
  | .str _ | .timestamp _ _ => true
  | _ => false

def Loaded.isNumber : Loaded → Bool
  | .int _ | .float _ => true
  | _ => false

def Loaded.isNat : Loaded → Bool
  | .int value => decide (0 ≤ value)
  | _ => false

def Loaded.isNull : Loaded → Bool
  | .null => true
  | _ => false

def Loaded.textWith (condition : String → Bool) : Loaded → Bool
  | .str value => condition value
  | _ => false

def validSnapshotRow (episodeId : String) : Loaded → Bool
  | .dict row =>
    let field (key : String) (check : Loaded → Bool) : Bool := (Entries.get row key).any check
    Entries.keysAre row fields &&
    field "episode_id" (·.textWith fun text => text = episodeId && decide (text ≠ "")) &&
    field "root" (·.textWith fun text => decide (text ≠ "")) &&
    field "kind" (·.textWith (· ∈ ["fixture", "compiled"])) &&
    field "status" (·.textWith
      (· ∈ ["PENDING", "RUNNING", "WAITING", "DONE", "UNKNOWN_REQUIRES_RECONCILIATION"])) &&
    field "next_action" Loaded.isStr && field "state" Loaded.isStr &&
    field "attempts" Loaded.isNat && field "updated_at" Loaded.isNumber &&
    field "fencing_token" (fun value => value.isNull || value.isNat) &&
    field "lease_epoch" (fun value => value.isNull || value.isNat) &&
    field "worker_id" (fun value => value.isNull || value.isStr) &&
    field "gate_hash" (fun value => value.isNull || value.textWith lowerHex)
  | _ => false

structure Moment where
  instant : ℚ
  utcoffset : Option ℚ

def snapshotRows (digest : Digest) (current : Moment) : Loaded → Option (List Loaded)
  | .dict document =>
    match Entries.get document "schema", Entries.get document "status",
        Entries.get document "snapshot_sha256", Entries.get document "generated_at_utc",
        Entries.get document "tasks" with
    | some (.str schema), some (.str status), some (.str supplied), some (.timestamp moment offset),
        some (.list rows) =>
        if Entries.keysAre document ["schema", "status", "generated_at_utc", "tasks", "snapshot_sha256"] ∧
            schema = snapshotSchema ∧ status = "CURRENT" ∧ lowerHex supplied = true ∧
            supplied = digest.sha256 (document.filter fun entry => entry.1 ≠ "snapshot_sha256") ∧
            offset = some 0 ∧ current.utcoffset.isSome ∧
            0 ≤ current.instant - moment ∧ current.instant - moment ≤ 300 then some rows
        else none
    | _, _, _, _, _ => none
  | _ => none

def unavailable (reason : String) : Entries :=
  [("status", .str "UNAVAILABLE"), ("snapshot", .str "STALE"), ("reason", .str reason)]

def report (row : Entries) : Entries :=
  row.filter (fun entry => entry.1 ≠ "root") ++
    [("snapshot", .str "CURRENT"), ("authority", .str "LOCAL_STATUS_ONLY")]

def readStatus (digest : Digest) (file : Option (Option Loaded)) (episodeId : String)
    (current : Moment) : Entries :=
  match file with
  | none => unavailable "queue snapshot is missing"
  | some content =>
    match content.bind (snapshotRows digest current) with
    | none => unavailable "queue snapshot is invalid"
    | some rows =>
      match rows.find? (validSnapshotRow episodeId) with
      | some (.dict row) => report row
      | _ => unavailable "episode task is not queued"

/-! ## Rows that pass the schema -/

structure TaskRow.Sane (row : TaskRow) : Prop where
  episode : row.episodeId ≠ ""
  root : row.root ≠ ""
  token : ∀ token ∈ row.fencingToken, 0 ≤ token
  epoch : ∀ epoch ∈ row.leaseEpoch, 0 ≤ epoch

def TaskRow.HexGate (row : TaskRow) : Prop := ∀ hash ∈ row.gateHash, lowerHex hash = true

theorem isNat_ofInt {value : Option ℤ} (nonneg : ∀ n ∈ value, 0 ≤ n) :
    ((Loaded.ofInt value).isNull || (Loaded.ofInt value).isNat) = true := by
  cases value with
  | none => rfl
  | some n => simpa [Loaded.ofInt, Loaded.isNull, Loaded.isNat] using nonneg n rfl

theorem isStr_ofText (value : Option String) :
    ((Loaded.ofText value).isNull || (Loaded.ofText value).isStr) = true := by
  cases value <;> rfl

theorem lowerHex_ofText (value : Option String) : ((Loaded.ofText value).isNull
    || (Loaded.ofText value).textWith lowerHex) = true ↔ ∀ hash ∈ value, lowerHex hash = true := by
  cases value <;> simp [Loaded.ofText, Loaded.isNull, Loaded.textWith]

theorem TaskKind.text_mem (kind : TaskKind) : kind.text ∈ ["fixture", "compiled"] := by
  cases kind <;> decide

theorem TaskStatus.text_mem (status : TaskStatus) :
    status.text ∈ ["PENDING", "RUNNING", "WAITING", "DONE", "UNKNOWN_REQUIRES_RECONCILIATION"] := by
  cases status <;> decide

theorem validSnapshotRow_entries {row : TaskRow} (sane : row.Sane) (episodeId : String) :
    validSnapshotRow episodeId (.dict row.entries) = true ↔ row.episodeId = episodeId ∧ row.HexGate := by
  have keys : Entries.keysAre row.entries fields = true := by
    simp [Entries.keysAre, TaskRow.entries, fields]
  have kind := row.kind.text_mem
  have status := row.status.text_mem
  have token := isNat_ofInt sane.token
  have epoch := isNat_ofInt sane.epoch
  have worker := isStr_ofText row.workerId
  have gate := lowerHex_ofText row.gateHash
  have attempts : (Loaded.int row.attempts).isNat = true := by
    simp [Loaded.isNat]
  simp only [validSnapshotRow, keys, Bool.true_and, Bool.and_eq_true]
  simp only [TaskRow.entries, Entries.get, find?_cons, map_some, any_some,
    String.reduceEq, decide_false, decide_true, token, epoch, worker, gate, attempts]
  simp only [Loaded.textWith, Loaded.isStr, Loaded.isNumber, kind, status, sane.root, decide_true,
    Bool.and_eq_true, ne_eq, not_false_eq_true, and_true]
  constructor
  · rintro ⟨⟨named, -⟩, hex⟩
    exact ⟨of_decide_eq_true named, hex⟩
  · rintro ⟨rfl, hex⟩
    exact ⟨⟨decide_eq_true rfl, decide_eq_true sane.episode⟩, hex⟩

def World.file (digest : Digest) (w : World) : Option (Option Loaded) :=
  w.snapshot.map fun snapshot => some (snapshot.document digest)

/-- The reader's clock is at most 300 seconds ahead of the snapshot, and not behind it. -/
structure Timely (generatedAt : ℚ) (current : Moment) : Prop where
  aware : current.utcoffset.isSome = true
  notBefore : 0 ≤ current.instant - generatedAt
  notAfter : current.instant - generatedAt ≤ 300

theorem snapshotRows_current (digest : Digest) {generatedAt : ℚ} {current : Moment} (fresh : Timely generatedAt current)
    (tasks : List TaskRow) : snapshotRows digest current ((Snapshot.current generatedAt tasks).document digest)
    = some (tasks.map fun row => .dict row.entries) := by
  have keys (hash : Loaded) (rows : Loaded) : Entries.keysAre
      [("generated_at_utc", .timestamp generatedAt (some 0)), ("schema", .str snapshotSchema),
        ("snapshot_sha256", hash), ("status", .str "CURRENT"), ("tasks", rows)]
      ["schema", "status", "generated_at_utc", "tasks", "snapshot_sha256"] = true := by
    simp [Entries.keysAre]
  have body (hash : Loaded) (rows : Loaded) :
      [("generated_at_utc", Loaded.timestamp generatedAt (some 0)), ("schema", .str snapshotSchema),
        ("snapshot_sha256", hash), ("status", .str "CURRENT"), ("tasks", rows)].filter
          (fun entry => entry.1 ≠ "snapshot_sha256") =
        [("generated_at_utc", .timestamp generatedAt (some 0)), ("schema", .str snapshotSchema),
          ("status", .str "CURRENT"), ("tasks", rows)] := by
    simp
  simp only [Snapshot.document, Snapshot.body, take_succ_cons, take_zero, drop_succ_cons,
    drop_zero, cons_append, nil_append, snapshotRows, keys, body]
  simp [Entries.get, digest.hex, fresh.aware, fresh.notBefore, fresh.notAfter]

theorem readStatus_current (digest : Digest) {generatedAt : ℚ} {current : Moment} (fresh : Timely generatedAt current)
    {tasks : Tasks} (sane : ∀ row ∈ tasks, row.Sane) {row : TaskRow} (member : row ∈ tasks) :
    readStatus digest (some (some ((Snapshot.current generatedAt tasks.rowsByEpisode).document digest)))
    row.episodeId current = report row.entries ↔ row.HexGate := by
  have listed (other : TaskRow) : other ∈ tasks.rowsByEpisode ↔ other ∈ tasks :=
    mem_insertionSort _
  have passes (other : TaskRow) (inTasks : other ∈ tasks) :
      validSnapshotRow row.episodeId (.dict other.entries) = true ↔ other = row ∧ row.HexGate := by
    rw [validSnapshotRow_entries (sane other inTasks)]
    constructor
    · rintro ⟨same, hex⟩
      obtain rfl := eq_of_key inTasks member same
      exact ⟨rfl, hex⟩
    · rintro ⟨rfl, hex⟩
      exact ⟨rfl, hex⟩
  simp only [readStatus, bind_some, snapshotRows_current digest fresh, find?_map]
  constructor
  · intro read
    cases selected : tasks.rowsByEpisode.find?
        (validSnapshotRow row.episodeId ∘ fun row => .dict row.entries) with
    | none =>
      rw [selected] at read
      have first := congrArg head? read
      simp [unavailable, report, TaskRow.entries] at first
    | some other =>
      have inTasks := (listed other).mp (mem_of_find?_eq_some selected)
      have accepted := find?_some selected
      exact ((passes other inTasks).mp accepted).2
  · intro hex
    have accepted : validSnapshotRow row.episodeId (.dict row.entries) = true :=
      (passes row member).mpr ⟨rfl, hex⟩
    cases selected : tasks.rowsByEpisode.find?
        (validSnapshotRow row.episodeId ∘ fun row => .dict row.entries) with
    | none =>
      exact absurd accepted (find?_eq_none.mp selected row ((listed row).mpr member))
    | some other =>
      have inTasks := (listed other).mp (mem_of_find?_eq_some selected)
      have accepts := find?_some selected
      obtain ⟨rfl, -⟩ := (passes other inTasks).mp accepts
      rfl

/-! ## Rows of every run -/

section Runs
variable {plus : ℚ → ℚ → ℚ} {pid : ℕ} {action : Act} {response : action.Res}
  {s s' : Shared (machine plus)}

def Act.Reads : Act → Prop
  | .enqueue episodeId root _ _ => episodeId ≠ "" ∧ root ≠ ""
  | .claim _ _ token _ => 0 ≤ token
  | _ => True

structure ReadInv (s : Shared (machine plus)) : Prop where
  fenced : s.world.store.Fenced
  epochs : ∀ episodeId, 0 ≤ s.world.store.lastEpoch episodeId
  sane : ∀ row ∈ s.world.tasks, row.Sane

theorem TaskStep.sane {old : Option TaskRow} {new : TaskRow} (reads : action.Reads)
    (step : TaskStep pid ⟨pid, action, response⟩ old new) (sane : ∀ row ∈ old, row.Sane) : new.Sane := by
  cases step with
  | enqueued => exact ⟨reads.1, reads.2, nofun, nofun⟩
  | @claimed row =>
    have before := sane row rfl
    refine ⟨before.episode, before.root, ?_, ?_⟩
    · rintro _ ⟨⟩
      exact reads
    · rintro _ ⟨⟩
      exact reads
  | @completed row | @retried row | @quarantined row | @woken row =>
    have before := sane row rfl
    exact ⟨before.episode, before.root, before.token, before.epoch⟩

theorem ReadInv.step (inv : ReadInv s) (reads : action.Reads)
    (performs : Performs pid action response s s') : ReadInv s' := by
  have change := Performs.change performs
  refine ⟨inv.fenced.change change, fun episodeId => ?_, ?_⟩
  · exact (inv.epochs episodeId).trans (change.lastEpoch_le episodeId)
  · obtain ⟨oracle, executed, -⟩ := performs
    rcases exec_tasks executed with ⟨same, -⟩ | ⟨old, new, step, found, after⟩
    · rw [same]
      exact inv.sane
    · intro row member
      rw [after] at member
      rcases mem_put.mp member with rfl | ⟨kept, -⟩
      · refine step.sane reads fun before is => inv.sane before ?_
        exact (find?_eq_some.mp (found.trans is)).1
      · exact inv.sane row kept

def reading (plus : ℚ → ℚ → ℚ) : Protocol (machine plus) where
  inv := ReadInv
  grants _ _ action := action.Reads
  preserves inv reads performs := inv.step reads performs
  survives _ inv := ⟨inv.fenced, inv.epochs, inv.sane⟩

theorem reading_initial (start : ℚ) : ReadInv (⟨new start, []⟩ : Shared (machine plus)) := by
  refine ⟨.empty, fun _ => le_rfl, fun row member => ?_⟩
  cases member

theorem conforms_reads {α : Type} {program : Program α} (only : program.Only Act.Reads) :
    (reading plus).Conforms program :=
  .of_only (fun _ _ reads _ _ => reads) only

theorem reading_writing {α : Type} {body : Program α} (conforms : (reading plus).Conforms body) :
    (reading plus).Conforms (writing body) := by
  have lock : Act.Reads .lockWriter := trivial
  have mark : Act.Reads .mark := trivial
  have unlock : Act.Reads .unlockWriter := trivial
  refine (conforms_reads (only_act lock)).bind fun _ => ?_
  exact ((conforms_reads (only_act mark)).bind fun _ => conforms).ensuring (conforms_reads (only_act unlock))

theorem reads_active (lease : EpisodeLease) (episodeId workerId : String) (now : ℚ) :
    (active lease episodeId workerId now).Only Act.Reads :=
  .bind (only_require _ _) fun _ => only_request trivial

theorem reads_timeOr (now : Option ℚ) : (timeOr now).Only Act.Reads := by
  cases now with
  | none => exact only_act trivial
  | some now => trivial

theorem reads_release (lease : EpisodeLease) (now : ℚ) : (release lease now).Only Act.Reads :=
  .request trivial fun _ => only_request trivial

theorem reads_enqueue (episodeId root kind : String) : (enqueue episodeId root kind).Only Act.Reads := by
  refine .ofExcept_bind fun _ required => ?_
  obtain ⟨named, rooted, -⟩ := require_eq_ok.mp required
  refine .bind (only_writing trivial trivial trivial ?_) fun _ => only_request trivial
  refine .act trivial fun now => ?_
  exact .bind (only_request ⟨named, rooted⟩) fun _ => only_act trivial

section
variable (episodeId workerId : String)

variable (lease : EpisodeLease)

theorem reads_complete (outcome : Dict)
    (now : Option ℚ) : (complete episodeId workerId lease outcome now).Only Act.Reads := by
  refine .bind (.ofExcept _) fun completion => ?_
  refine .bind (only_writing trivial trivial trivial ?_) fun _ => only_request trivial
  exact .bind (reads_timeOr now) fun _ => .bind (reads_active _ _ _ _) fun _ =>
    .request trivial fun _ => only_act trivial

theorem reads_retry (action : String) : (retry episodeId workerId lease action).Only Act.Reads := by
  refine only_writing trivial trivial trivial ?_
  exact .act trivial fun _ => .bind (reads_active _ _ _ _) fun _ =>
    .act trivial fun _ => .act trivial fun _ => only_act trivial

theorem reads_unknown : (unknown episodeId workerId lease).Only Act.Reads := by
  refine only_writing trivial trivial trivial ?_
  exact .act trivial fun _ => .bind (reads_active _ _ _ _) fun _ =>
    .act trivial fun _ => .request trivial fun _ => only_act trivial

end

theorem reads_wakeGate (episodeId gate : String) : (wakeGate episodeId gate).Only Act.Reads := by
  unfold wakeGate
  cases expectedAction gate with
  | none => trivial
  | some expected =>
    refine .request trivial fun task => .request trivial fun hash => ?_
    refine .bind (only_writing trivial trivial trivial ?_) fun changed =>
      .bind (only_require _ _) fun _ => only_request trivial
    exact .act trivial fun _ => .act trivial fun _ =>
      .act trivial fun _ => trivial

theorem reading_active (lease : EpisodeLease) (episodeId workerId : String) (now : ℚ) : (reading plus).Safe pid (fun
    _ => True) (active lease episodeId workerId now) (fun _ _ => 0 ≤ lease.fencingToken) fun _ _ => True := by
  refine .check fun _ => ?_
  have framed : (reading plus).Framed pid Act.Reads fun _ => 0 ≤ lease.fencingToken := .fact
  refine .request (fun _ _ _ => trivial) (fun _ => framed.stable) (fun _ => .true) ?_ fun _ _ _ _ _ _ _ _ _ => trivial
  intro answer value s s' ok inv _ performs _
  obtain ⟨oracle, executed, -⟩ := performs
  change exec plus oracle pid s.world (.assertActive lease now) = some (s'.world, answer) at executed
  simp only [exec, some.injEq, Prod.mk.injEq] at executed
  obtain ⟨-, rfl⟩ := executed
  have active : s.world.store.Active lease now := require_eq_ok.mp ok
  rw [inv.fenced _ lease active.1]
  exact inv.epochs _

theorem reading_claim (episodeId workerId : String) (lease : EpisodeLease) (now : Option ℚ) :
    (reading plus).Conforms (claim episodeId workerId lease now) := by
  refine (conforms_reads (reads_timeOr now)).bind fun now => ?_
  refine .bind (reading_writing fun pid => ?_) fun _ => conforms_reads (only_request trivial)
  refine (reading_active lease episodeId workerId now).bind fun _ => ?_
  refine .given (fun _ _ => id) fun granted : 0 ≤ lease.fencingToken => ?_
  have rest : (reading plus).Conforms (do
      Prog.request (.claim episodeId workerId lease.fencingToken now) id
      publish) :=
    conforms_reads (.bind (only_request granted) fun _ => only_act trivial)
  exact (rest pid).consequence (fun _ _ _ => trivial) (fun _ _ _ => trivial) fun _ _ _ => trivial

/-! ### The worker's turn -/

section Turn
variable (worker : EpisodeWorker)

theorem reads_assertCurrent (current : EpisodeLease) : (assertCurrent current).Only Act.Reads :=
  .act trivial fun _ => only_request trivial

theorem reads_releaseCurrent (current : EpisodeLease) : (releaseCurrent current).Only Act.Reads :=
  .act trivial fun _ => reads_release _ _

theorem reads_beat (beats : ℕ) (current : EpisodeLease) : (worker.beat beats current).Only Act.Reads := by
  induction beats generalizing current with
  | zero => trivial
  | succ beats ih =>
    refine .act trivial fun now => .bind (.attempt (only_request trivial)) fun renewed => ?_
    cases renewed with
    | ok renewed => exact ih renewed
    | error e => trivial

theorem reads_settle (episodeId : String) (current : EpisodeLease) {body : Program Unit}
    (only : body.Only Act.Reads) : (worker.settle episodeId current body).Only Act.Reads := by
  refine .bind only.attempt fun outcome => ?_
  cases outcome with
  | ok _ => exact reads_releaseCurrent current
  | error e =>
    refine .bind (.attempt (reads_assertCurrent current)) fun asserted => ?_
    cases asserted with
    | error _ => trivial
    | ok _ =>
      exact .bind (.ensuring (reads_retry _ _ _ _) (reads_releaseCurrent current)) fun _ => trivial

theorem reads_conclude (episodeId : String) (current : EpisodeLease) (ending : Ending) :
    (worker.conclude episodeId current ending).Only Act.Reads := by
  have finishing : ∀ outcome, (worker.settle episodeId current do
      assertCurrent current
      let _ ← complete episodeId worker.workerId current outcome none
      pure ()).Only Act.Reads := by
    intro outcome
    apply reads_settle
    exact .bind (reads_assertCurrent current) fun _ => .bind (reads_complete _ _ _ _ _) fun _ => trivial
  cases ending with
  | returned outcome => exact finishing outcome
  | raised e => exact reads_settle worker _ _ trivial
  | cancelled outcome =>
    cases outcome with
    | ok outcome => exact finishing outcome
    | error e => exact reads_settle worker _ _ trivial
  | abandoned =>
    refine .act trivial fun now => .bind (.attempt (only_request trivial)) fun renewed => ?_
    cases renewed with
    | error e => exact reads_settle worker _ _ trivial
    | ok renewed =>
      refine .bind (.attempt (reads_unknown _ _ _)) fun recorded => ?_
      cases recorded with
      | error e => exact reads_settle worker _ _ trivial
      | ok _ => trivial

theorem reads_nextPending : nextPending.Only Act.Reads := by
  refine .act trivial fun selected => ?_
  cases selected with
  | none => trivial
  | some episodeId => exact .request trivial fun _ => trivial

theorem reading_runOnce (invocation : Invocation) : (reading plus).Conforms (worker.runOnce invocation) := by
  have draws : Act.Reads .uuid4 := trivial
  have looks : Act.Reads .time := trivial
  refine (conforms_reads reads_nextPending).bind fun task => ?_
  cases task with
  | none => exact .pure ()
  | some task =>
    refine (conforms_reads (only_act draws)).bind fun uuid => ?_
    refine (conforms_reads (only_act looks)).bind fun now => ?_
    have asks : (acquire task.episodeId (worker.workerId ++ ":" ++ uuid) now
        worker.leaseTtlSeconds).Only Act.Reads := only_request trivial
    refine (conforms_reads asks).attempt.bind fun acquired => ?_
    cases acquired with
    | error e =>
      simp only
      split_ifs
      · exact .pure ()
      · exact .raise e
    | ok lease =>
      refine (reading_claim _ _ _ _).bind fun claimed => ?_
      refine (conforms_reads (reads_beat worker _ _)).bind fun current => ?_
      exact conforms_reads (reads_conclude worker _ _ _)

end Turn

theorem reading_program (call : Call) : (reading plus).Conforms call.program := by
  cases call with
  | acquire episodeId runId now ttl =>
    have only : (acquire episodeId runId now ttl).Only Act.Reads := only_request trivial
    exact (conforms_reads only).discard
  | renew lease now ttl =>
    have only : (renew lease now ttl).Only Act.Reads := only_request trivial
    exact (conforms_reads only).discard
  | assertActive lease now =>
    have only : (assertActive lease now).Only Act.Reads := only_request trivial
    exact conforms_reads only
  | release => exact conforms_reads (reads_release _ _)
  | enqueue => exact (conforms_reads (reads_enqueue _ _ _)).discard
  | claim => exact (reading_claim _ _ _ _).discard
  | complete => exact (conforms_reads (reads_complete _ _ _ _ _)).discard
  | retry => exact conforms_reads (reads_retry _ _ _ _)
  | unknown => exact conforms_reads (reads_unknown _ _ _)
  | wakeGate => exact (conforms_reads (reads_wakeGate _ _)).discard
  | runOnce worker invocation => exact reading_runOnce worker invocation

theorem reading_admits (kinds : Set Call) : (reading plus).Admits (callsIn kinds) := by
  rintro _ ⟨call, -, rfl⟩
  exact reading_program call

theorem readInv_of_reaches {kinds : Set Call} {allowed : Condition (machine plus)} {start : ℚ} {c : Config
    (machine plus) Error} (reaches : Reaches (callsIn kinds) allowed (initial (new start)) c) : ReadInv c.toShared :=
  ((Protocol.Sound.initial (P := reading plus) (reading_initial start)).reaches (reading_admits kinds) reaches).inv

/-! ### Completions with lowercase gates -/

def Act.namesLowerHex : Act → Bool
  | .complete _ _ _ completion _ => completion.gateHash.all lowerHex
  | _ => true

def hexGates : Condition (machine plus) := fun _ e => Act.namesLowerHex e.action = true

theorem TaskStep.hexGate {w : World}
    {old : Option TaskRow} {new : TaskRow} (meets : @hexGates plus w ⟨pid, action, response⟩)
    (step : TaskStep pid ⟨pid, action, response⟩ old new) (hex : ∀ row ∈ old, row.HexGate) : new.HexGate := by
  cases step with
  | enqueued => exact fun _ is => by cases is
  | woken => exact fun _ is => by cases is
  | completed => exact all_eq_true _ _ |>.mp meets
  | @claimed row | @retried row | @quarantined row =>
    have before : row.HexGate := hex row rfl
    exact before

theorem hexGate_of_reaches {kinds : Set Call} {start : ℚ} {c : Config (machine plus) Error} (reaches :
    Reaches (callsIn kinds) hexGates (initial (new start)) c) : ∀ row ∈ c.world.tasks, row.HexGate := by
  induction reaches with
  | refl => exact fun row member => by cases member
  | tail _ last ih =>
    cases last with
    | spawn => exact ih
    | crash => exact ih
    | perform _ performs meets =>
      obtain ⟨oracle, executed, -⟩ := performs
      rcases exec_tasks executed with ⟨same, -⟩ | ⟨old, new, step, found, after⟩
      · rw [same]
        exact ih
      · intro row member
        rw [after] at member
        rcases mem_put.mp member with rfl | ⟨kept, -⟩
        · refine step.hexGate meets fun before is => ih before ?_
          exact (find?_eq_some.mp (found.trans is)).1
        · exact ih row kept

/-! ### Operations that have returned -/

def EndsPublished {α : Type} (plus : ℚ → ℚ → ℚ) (program : Program α) : Prop :=
  ∀ (oracles : ℕ → Oracle) (pid : ℕ) (s s' : Shared (machine plus)) (value : α),
    program.evaluate oracles pid s = some (.ok value, s') → s'.world.Settled

theorem endsPublished_publish : EndsPublished plus publish :=
  fun _ _ _ _ _ ran => (evaluate_publish ran).2.1

theorem EndsPublished.bind {α β : Type} {program : Program α} {next : α → Program β}
    (ends : ∀ value, EndsPublished plus (next value)) : EndsPublished plus (program.bind next) := by
  intro oracles pid s s' value ran
  obtain ⟨first, middle, -, rest⟩ := Prog.evaluate_bind_eq_ok.mp ran
  exact ends first oracles pid middle s' value rest

theorem EndsPublished.pure {α β : Type} {program : Program α} (ends : EndsPublished plus program)
    (value : β) : EndsPublished plus (program.bind fun _ => .pure value) := by
  intro oracles pid s s' value ran
  obtain ⟨first, middle, published, ended⟩ := Prog.evaluate_bind_eq_ok.mp ran
  cases ended
  exact ends oracles pid s _ first published

theorem status_keeps : (machine plus).Keeps fun action : Act => ∃ episodeId, action = .status episodeId := by
  rintro oracle pid w w' _ response ⟨episodeId, rfl⟩ executed
  cases executed
  rfl

theorem settled_of_writing {α β : Type} {body : Program α} {next : α → Program β}
    {oracles : ℕ → Oracle} {value : β} (ends : EndsPublished plus body) (free : s.world.writer = none)
    (looks : ∀ value, (next value).Only fun action : Act => ∃ episodeId, action = .status episodeId)
    (ran : ((writing body).bind next).evaluate oracles pid s = some (.ok value, s')) : s'.world.Settled := by
  obtain ⟨first, middle, wrote, looked⟩ := Prog.evaluate_bind_eq_ok.mp ran
  obtain ⟨last, evaluated, unlocked⟩ := evaluate_writing free wrote
  obtain ⟨generatedAt, current⟩ := ends _ _ _ _ _ evaluated
  have same : s'.world = middle.world := Prog.Only.world_eq status_keeps (looks first) looked
  refine ⟨generatedAt, ?_⟩
  rw [same, unlocked]
  exact current

theorem looks_status (episodeId : String) :
    (status episodeId).Only fun action : Act => ∃ episodeId, action = .status episodeId :=
  only_request ⟨episodeId, rfl⟩

theorem looks_then_discard (episodeId : String) : ((status episodeId).bind fun _ =>
    (.pure () : Program Unit)).Only fun action : Act => ∃ episodeId, action = .status episodeId :=
  .bind (looks_status episodeId) fun _ => trivial

theorem settled_of_returned {op : Op} {oracles : ℕ → Oracle} (free : s.world.writer = none)
    (ran : op.call.program.evaluate oracles pid s = some (.ok (), s')) : s'.world.Settled := by
  cases op with
  | enqueue episodeId root kind =>
    simp only [Op.call, Call.program, Prog.discard, enqueue, bind, Prog.bind_assoc] at ran
    obtain ⟨_, middle, checked, rest⟩ := Prog.evaluate_bind_eq_ok.mp ran
    obtain ⟨-, rfl⟩ := Prog.evaluate_ofExcept_eq_ok.mp checked
    refine settled_of_writing ?_ free (fun _ => looks_then_discard episodeId) rest
    exact .bind fun _ => .bind fun _ => endsPublished_publish
  | claim episodeId workerId lease given =>
    simp only [Op.call, Call.program, Prog.discard, claim, bind, Prog.bind_assoc] at ran
    obtain ⟨now, middle, clock, rest⟩ := Prog.evaluate_bind_eq_ok.mp ran
    have same : middle.world = s.world := by
      cases given <;> (cases clock; rfl)
    refine settled_of_writing ?_ (same ▸ free) (fun _ => looks_then_discard episodeId) rest
    exact .bind fun _ => .bind fun _ => endsPublished_publish
  | complete episodeId workerId lease outcome given =>
    simp only [Op.call, Call.program, Prog.discard, complete, bind, Prog.bind_assoc] at ran
    obtain ⟨made, middle, checked, rest⟩ := Prog.evaluate_bind_eq_ok.mp ran
    obtain ⟨-, rfl⟩ := Prog.evaluate_ofExcept_eq_ok.mp checked
    refine settled_of_writing ?_ free (fun _ => looks_then_discard episodeId) rest
    exact .bind fun _ => .bind fun _ => .bind fun _ => endsPublished_publish
  | retry episodeId workerId lease action =>
    rw [← Prog.bind_pure (Op.retry episodeId workerId lease action).call.program] at ran
    refine settled_of_writing ?_ free ?_ ran
    · exact .bind fun _ => .bind fun _ => .bind fun _ => .bind fun _ => endsPublished_publish
    · exact fun _ => trivial
  | unknown episodeId workerId lease =>
    rw [← Prog.bind_pure (Op.unknown episodeId workerId lease).call.program] at ran
    refine settled_of_writing ?_ free ?_ ran
    · exact .bind fun _ => .bind fun _ => .bind fun _ => .bind fun _ => endsPublished_publish
    · exact fun _ => trivial
  | wakeGate episodeId gate =>
    cases waits : expectedAction gate with
    | none =>
      simp only [Op.call, Call.program, Prog.discard, wakeGate, waits] at ran
      cases ran
    | some expected =>
      simp only [Op.call, Call.program, Prog.discard, wakeGate, waits, bind, Prog.bind_assoc] at ran
      obtain ⟨task, first, found, rest⟩ := Prog.evaluate_bind_eq_ok.mp ran
      obtain ⟨hash, second, approved, rest⟩ := Prog.evaluate_bind_eq_ok.mp rest
      have known : first.world = s.world :=
        Prog.Only.world_eq status_keeps (looks_status episodeId) found
      have kept : second.world = first.world := by
        obtain ⟨_, executed, -⟩ := Prog.evaluate_request_eq_ok.mp approved
        exact (congrArg fst (some.inj executed)).symm
      refine settled_of_writing ?_ (kept ▸ known ▸ free) ?_ rest
      · exact .bind fun _ => .bind fun _ => .pure endsPublished_publish _
      · exact fun _ => .bind (only_require _ _) fun _ => looks_then_discard episodeId

/-- After an operation has returned, its file gives a row back, without its root, exactly if the row's
gate is a lowercase digest. In a run whose completions name lowercase digests every row of a current
snapshot is given back. -/
theorem committed_row_readable_iff (digest : Digest) (plus : ℚ → ℚ → ℚ) (kinds : Set Call) (start : ℚ)
    (c : Config (machine plus) Error) : (∀ (op : Op) (oracles : ℕ → Oracle) (pid : ℕ) (s : Shared (machine plus))
    (row : TaskRow), Reaches (callsIn kinds) anyStep (initial (new start)) c → c.world.writer =
    none → op.call.program.evaluate oracles pid c.toShared = some (.ok (), s) → row ∈ s.world.tasks → ∃ generatedAt,
    s.world.snapshot = some (.current generatedAt s.world.tasks.rowsByEpisode) ∧ ∀ current, Timely generatedAt current →
    (readStatus digest (s.world.file digest) row.episodeId current = report row.entries ↔ row.HexGate))
    ∧ (Reaches (callsIn kinds) hexGates (initial (new start)) c → ∀ generatedAt, c.world.snapshot =
    some (.current generatedAt c.world.tasks.rowsByEpisode) → ∀ row ∈ c.world.tasks, ∀ current, Timely
    generatedAt current → readStatus digest (c.world.file digest) row.episodeId current = report row.entries) := by
  constructor
  · intro op oracles pid s row reaches free ran member
    obtain ⟨generatedAt, current⟩ := settled_of_returned free ran
    have inv : ReadInv s := Protocol.Safe.runs (reading_program op.call pid) (readInv_of_reaches reaches)
      trivial (Prog.runs_of_evaluate ran)
    refine ⟨generatedAt, current, fun moment fresh => ?_⟩
    rw [file, current]
    exact readStatus_current digest fresh inv.sane member
  · intro reaches generatedAt current row member moment fresh
    have inv := readInv_of_reaches reaches
    rw [file, current]
    exact (readStatus_current digest fresh inv.sane member).mpr (hexGate_of_reaches reaches row member)

end Runs
/-! ## A completed task, with its gate in lowercase and in uppercase -/

def sampleClaimed : List (Call × ℕ) :=
  [(.enqueue "EP000001" "root" "fixture", 7), (.acquire "EP000001" "w1:1" 0 30, 1),
    (.claim "EP000001" "w1" sampleLease (some 1), 7)]

def sampleComplete (hash : String) : Op :=
  .complete "EP000001" "w1" sampleLease
    [("state", .str "READY"), ("next_action", .str "HUMAN_VIDEO"), ("gate_hash", .str hash)] (some 2)

def completedBy (hash : String) (c : Config (machine (· + ·)) Error) :
    Option (Except Error Unit × Shared (machine (· + ·))) :=
  (sampleComplete hash).call.program.evaluate (fun _ => clockAt 2) 3 c.toShared

def completes (hash : String) (c : Config (machine (· + ·)) Error) : Bool :=
  decide (c.world.writer = none) &&
    match completedBy hash c with
    | some (.ok _, s) => s.world.tasks.rows.any fun row =>
      decide (row.status = .waiting ∧ row.gateHash = some hash)
    | _ => false

theorem completes_of {hash : String} {c : Config (machine (· + ·)) Error} (holds : completes hash c = true) :
    c.world.writer = none ∧ ∃ s row, completedBy hash c = some (.ok (), s) ∧ row ∈ s.world.tasks ∧
      row.status = .waiting ∧ row.gateHash = some hash := by
  obtain ⟨free, passed⟩ := Bool.and_eq_true_iff.mp holds
  refine ⟨of_decide_eq_true free, ?_⟩
  split at passed
  · rename_i s ran
    obtain ⟨row, member, waits⟩ := any_eq_true.mp passed
    exact ⟨s, row, ran, member, of_decide_eq_true waits⟩
  · cases passed

def sampleDigest : Digest where
  sha256 _ := "e4179c356e949e057054e7c8232e2cc1e9275b5e0b3ee3ada2d8afc7993e9351"
  hex _ := by decide

theorem sample_row_readable : ∃ (c : Config (machine (· + ·)) Error) (s : Shared (machine (· + ·))) (row : TaskRow),
    Reaches (callsIn univ) anyStep (initial (new 0)) c ∧ completedBy sampleGateHash c =
    some (.ok (), s) ∧ row ∈ s.world.tasks ∧ row.status = .waiting ∧ ∃ generatedAt, s.world.snapshot =
    some (.current generatedAt s.world.tasks.rowsByEpisode) ∧ readStatus sampleDigest (s.world.file sampleDigest)
    row.episodeId ⟨generatedAt + 1, some 0⟩ = report row.entries := by
  have passed : (after (· + ·) anyStep (sampleClaimed.map fst) (inTurn sampleClaimed)).any
      (completes sampleGateHash) = true := by
    decide +kernel
  obtain ⟨c, reached, holds⟩ := exists_reaches_of_after (fun _ _ => mem_univ _) passed
  obtain ⟨free, s, row, ran, member, waits, gate⟩ := completes_of holds
  obtain ⟨generatedAt, current, reads⟩ := (committed_row_readable_iff sampleDigest (· + ·) univ 0 c).1
    (sampleComplete sampleGateHash) _ 3 s row reached free ran member
  refine ⟨c, s, row, reached, ran, member, waits, generatedAt, current, (reads _ ?_).mpr ?_⟩
  · exact ⟨rfl, by norm_num, by norm_num⟩
  · rintro hash named
    obtain rfl := some.inj (gate.symm.trans named)
    decide

def uppercaseHash : String := String.ofList (replicate 64 'A')

theorem committed_row_unreadable : ∃ (c : Config (machine (· + ·)) Error) (s : Shared (machine (· + ·)))
    (row : TaskRow), Reaches (callsIn univ) anyStep (initial (new 0)) c ∧ completedBy uppercaseHash c =
    some (.ok (), s) ∧ row ∈ s.world.tasks ∧ row.status = .waiting ∧ ∃ generatedAt, s.world.snapshot =
    some (.current generatedAt s.world.tasks.rowsByEpisode) ∧ ∀ digest current, Timely generatedAt current →
    readStatus digest (s.world.file digest) row.episodeId current ≠ report row.entries := by
  have passed : (after (· + ·) anyStep (sampleClaimed.map fst) (inTurn sampleClaimed)).any
      (completes uppercaseHash) = true := by
    decide +kernel
  obtain ⟨c, reached, holds⟩ := exists_reaches_of_after (fun _ _ => mem_univ _) passed
  obtain ⟨free, s, row, ran, member, waits, gate⟩ := completes_of holds
  obtain ⟨generatedAt, current⟩ := @settled_of_returned _ _ _ _ (sampleComplete uppercaseHash) _ free ran
  have inv : ReadInv s := Protocol.Safe.runs (reading_program (sampleComplete uppercaseHash).call 3)
    (readInv_of_reaches reached) trivial (Prog.runs_of_evaluate ran)
  refine ⟨c, s, row, reached, ran, member, waits, generatedAt, current, fun digest moment fresh read => ?_⟩
  rw [file, current] at read
  have hex := (readStatus_current digest fresh inv.sane member).mp read uppercaseHash gate
  exact absurd hex (by decide)

end VideoPoster.Worker
