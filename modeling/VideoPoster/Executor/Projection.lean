import VideoPoster.Budget.Ledger
import VideoPoster.Executor.Review

/-!
# The projection of the receipts into the cost ledger
-/

namespace VideoPoster.Executor
open Python Billing Budget Tables Interleaving CostRecord EpisodeLedger List Row Table Set

def moneyOf (amount : ℚ) : Result ℚ :=
  if 0 ≤ amount then .ok amount else .error (.value "cost must be finite and nonnegative")

def Row.costRecord (row : Row) (actual : ℚ) : CostRecord :=
  ⟨row.requestId, row.endpoint, .ofRat row.charged, .ofRat actual, row.scene⟩

def recordRow (known : List String) (ledger : EpisodeLedger) (row : Row) : Result EpisodeLedger :=
  if row.status ≠ .complete ∨ row.requestId ∈ known then .ok ledger
  else do
    let _ ← moneyOf row.charged
    match row.actualCost with
    | none => .error (.key "'actual_cost'")
    | some actual =>
      let actual ← moneyOf actual
      .ok (ledger.recordJob (row.costRecord actual))

def syncCostLedger (limit : ℚ) (hardLimitUsd : Decimal) (rows : List Row) (file : Option Costs) :
    Result Costs := do
  let ledger := load file hardLimitUsd
  let hardLimit ← money ledger.hardLimit
  require (hardLimit = limit) (.value "canonical ledger hard limit differs from executor limit")
  let ledger ← rows.foldlM (recordRow (ledger.jobs.map jobId)) ledger
  .ok ledger.toDict

def Row.Priced (row : Row) : Prop :=
  row.status = .complete → row.actualCost = some row.charged ∧ 0 ≤ row.charged

def unrecorded (known : List String) (rows : List Row) : List CostRecord :=
  (rows.filter fun row => row.status = .complete ∧ row.requestId ∉ known).map fun row => row.costRecord row.charged

section Recorded
variable {known : List String} {rows : List Row} {ledger : EpisodeLedger} {record : CostRecord}

theorem recordRows_eq (priced : ∀ row ∈ rows, row.Priced) :
    rows.foldlM (recordRow known) ledger = .ok (ledger.recordJobs (unrecorded known rows)) := by
  induction rows generalizing ledger with
  | nil => rfl
  | cons row rest ih =>
    have later := fun row member => priced row (.tail _ member)
    by_cases skipped : row.status ≠ .complete ∨ row.requestId ∈ known
    · have turn : recordRow known ledger row = .ok ledger := if_pos skipped
      have none : ¬ (row.status = .complete ∧ row.requestId ∉ known) := by tauto
      rw [foldlM_cons, turn, unrecorded, filter_cons_of_neg (by simpa using none)]
      exact ih later
    · obtain ⟨complete, new⟩ : row.status = .complete ∧ row.requestId ∉ known := by tauto
      obtain ⟨actual, nonneg⟩ := priced row (by simp) complete
      have turn : recordRow known ledger row = .ok (ledger.recordJob (row.costRecord row.charged)) := by
        have amount : moneyOf row.charged = .ok row.charged := if_pos nonneg
        simp only [recordRow, if_neg skipped, actual, amount]
        rfl
      rw [foldlM_cons, turn, unrecorded, filter_cons_of_pos (by simp [complete, new])]
      exact ih later

theorem mem_unrecorded : record ∈ unrecorded known rows ↔
      ∃ row ∈ rows, row.status = .complete ∧ row.requestId ∉ known ∧ row.costRecord row.charged = record := by
  simp [unrecorded, and_assoc]

theorem unrecorded_ids : (unrecorded known rows).map jobId =
      (rows.filter fun row => row.status = .complete ∧ row.requestId ∉ known).map requestId := by
  simp [unrecorded, Function.comp_def, costRecord]

theorem syncCostLedger_eq_ok {limit : ℚ} {hardLimitUsd : Decimal} {file : Option Costs} {costs : Costs}
    (priced : ∀ row ∈ rows, row.Priced) : syncCostLedger limit hardLimitUsd rows file = .ok costs ↔ money
    (load file hardLimitUsd).hardLimit = .ok limit ∧ ((load file hardLimitUsd).recordJobs
    (unrecorded ((load file hardLimitUsd).jobs.map jobId) rows)).toDict = costs := by
  simp only [syncCostLedger, recordRows_eq priced, bind_eq_ok, require_eq_ok]
  constructor
  · rintro ⟨_, limited, -, rfl, _, ⟨⟩, ⟨⟩⟩
    exact ⟨limited, rfl⟩
  · rintro ⟨limited, rfl⟩
    exact ⟨limit, limited, (), rfl, _, rfl, rfl⟩

end Recorded

/-- What projections keep of the ledger file: totals of distinct jobs, and no override. -/
structure Balanced (costs : Costs) : Prop where
  rounded : costs.Rounded
  totalled : costs.Totalled
  once : (costs.jobs.map jobId).Nodup
  plain : costs.overrides = []

theorem Balanced.empty : Balanced .empty := ⟨.empty, .empty, nodup_nil, rfl⟩

section Projection
variable {limit : ℚ} {hardLimitUsd : Decimal} {rows : List Row} {file : Option Costs} {costs : Costs}

theorem Balanced.load (balanced : Balanced (file.getD .empty)) (hardLimitUsd : Decimal) :
    load file hardLimitUsd = ⟨file.getD .empty, hardLimitUsd⟩ := by
  cases file with
  | none => rfl
  | some costs =>
    have plain : costs.overrides = [] := balanced.plain
    simp [load, plain]

def projected (file : Option Costs) (hardLimitUsd : Decimal) (rows : List Row) : Costs :=
  ((mk (file.getD .empty) hardLimitUsd).recordJobs
    (unrecorded ((file.getD .empty).jobs.map jobId) rows)).toDict

theorem Balanced.sync_eq_ok (balanced : Balanced (file.getD .empty)) (priced : ∀ row ∈ rows, row.Priced) :
    syncCostLedger limit hardLimitUsd rows file = .ok costs ↔
      money hardLimitUsd = .ok limit ∧ projected file hardLimitUsd rows = costs := by
  rw [syncCostLedger_eq_ok priced, balanced.load]
  rfl

theorem projected_jobs : (projected file hardLimitUsd rows).jobs = (file.getD .empty).jobs ++
      unrecorded ((file.getD .empty).jobs.map jobId) rows :=
  recordJobs_jobs

theorem projected_spent : (projected file hardLimitUsd rows).spent = (runningTotal (file.getD .empty).spent
      (unrecorded ((file.getD .empty).jobs.map jobId) rows)).round :=
  congrArg Amount.round recordJobs_spent

theorem Balanced.projected (balanced : Balanced (file.getD .empty)) (hardLimitUsd : Decimal)
    (unique : (rows.map requestId).Nodup) : Balanced (projected file hardLimitUsd rows) where
  rounded := toDict_rounded _
  totalled := balanced.totalled.recordJobs _ _
  plain := recordJobs_overrides.trans balanced.plain
  once := by
    rw [projected_jobs, map_append, nodup_append]
    refine ⟨balanced.once, ?_, ?_⟩
    · rw [unrecorded_ids]
      exact unique.sublist (filter_sublist.map _)
    · rintro jobId old _ new rfl
      obtain ⟨record, recorded, rfl⟩ := mem_map.mp new
      obtain ⟨row, -, -, unknown, rfl⟩ := mem_unrecorded.1 recorded
      exact unknown old

theorem complete_recorded {row : Row} (member : row ∈ rows) (complete : row.status = .complete) :
    row.requestId ∈ (projected file hardLimitUsd rows).jobs.map jobId := by
  rw [projected_jobs, map_append, mem_append]
  by_cases known : row.requestId ∈ (file.getD .empty).jobs.map jobId
  · exact .inl known
  · exact .inr (mem_map.mpr ⟨_, mem_unrecorded.2 ⟨row, member, complete, known, rfl⟩, rfl⟩)

theorem Balanced.projected_again (balanced : Balanced costs) (hardLimitUsd : Decimal)
    (recorded : ∀ row ∈ rows, row.status = .complete → row.requestId ∈ costs.jobs.map jobId) :
    Executor.projected (some costs) hardLimitUsd rows = costs := by
  have nothing : unrecorded (costs.jobs.map jobId) rows = [] := by
    refine eq_nil_iff_forall_not_mem.mpr fun record member => ?_
    obtain ⟨row, read, complete, unknown, -⟩ := mem_unrecorded.1 member
    exact unknown (recorded row read complete)
  show toDict (recordJobs ⟨costs, hardLimitUsd⟩
    (unrecorded (costs.jobs.map jobId) rows)) = costs
  rw [nothing]
  exact balanced.rounded.toDict hardLimitUsd

end Projection

section Rows
variable {D : Deployment} {scope : Scope} {s s' : Shared (machine D)} {pid : ℕ} {action : Act}
  {response : action.Res} {requestId : String} {kinds : Set Call} {allowed : Condition (machine D)}
  {b c : Config (machine D) Error}

theorem RowUpdate.costed {old new : Row} (update : RowUpdate D action old new) (costed : old.status =
    .complete → old.actualCost = some old.charged) : new.status = .complete → new.actualCost = some new.charged := by
  cases update with
  | @changed E context given target update row guarded =>
    cases update with
    | cacheHit | complete => exact fun _ => rfl
    | prepared | submitting | overrun => exact fun done => by cases done
    | cacheKey | evidence | partialPath | finalAdmissionMarker => exact costed
  | bound => exact fun done => by cases done
  | pinned | admitted | reviewed => exact costed

theorem priced_of_reaches (reaches : Reaches (callsIn D kinds) allowed (freshRoot D) c) :
    ∀ row ∈ c.world.jobs, row.Priced := by
  have costed : ∀ row ∈ c.world.jobs, row.status = .complete → row.actualCost = some row.charged :=
    rows_of_reaches (fun _ done => by cases done) RowUpdate.costed reaches
  have admits : (discipline D fun _ => kinds).Admits (callsIn D kinds) :=
    discipline_admits fun _ => subset_rfl
  intro row member complete
  exact ⟨costed row member complete, ((sound_freshRoot.reaches admits reaches).inv.wellFormed row member).charged⟩

def sparesCompletion (w : World) (e : Event actions) : Prop :=
  (∀ change ∈ e.action.changed, ∀ row ∈ w.jobs.find? change.1, row.status = .complete → change.2 ≠ .prepared) ∧
  ∀ requestId ∈ e.action.bound, ∀ row ∈ w.jobs.find? requestId,
    row.status = .complete → ¬ row.Unbound

instance (w : World) (e : Event actions) : Decidable (sparesCompletion w e) :=
  inferInstanceAs (Decidable (_ ∧ _))

theorem RowUpdate.keepsCost {old new : Row} (update : RowUpdate D action old new)
    (granted : Granted D scope pid s action) (target : action.target D = some requestId)
    (found : s.world.jobs.find? requestId = some old) (complete : old.status = .complete) (spares :
    sparesCompletion s.world ⟨pid, action, response⟩) : new.status = old.status ∧ new.charged = old.charged := by
  have inactive : ¬ Active s requestId := fun active => (active old found).1 complete
  cases update with
  | @changed E context given requestId update row guarded =>
    cases target
    cases update with
    | prepared => exact absurd rfl (spares.1 _ rfl old found complete)
    | submitting | overrun | complete => exact absurd granted.2.1 inactive
    | cacheHit | evidence => exact absurd granted.2 inactive
    | cacheKey | partialPath | finalAdmissionMarker => exact ⟨rfl, rfl⟩
  | bound pin writer free unknown =>
    cases target
    exact absurd ⟨free, unknown⟩ (spares.2 _ rfl old found complete)
  | admitted | pinned | reviewed => exact ⟨rfl, rfl⟩

def Receipted (record : CostRecord) (jobs : Jobs) : Prop :=
  ∃ row, jobs.find? record.jobId = some row ∧ row.status = .complete ∧
    row.costRecord row.charged = record

theorem Receipted.performs {record : CostRecord} (granted : Granted D scope pid s action)
    (spares : sparesCompletion s.world ⟨pid, action, response⟩) (performs : Performs
    pid action response s s') (receipted : Receipted record s.world.jobs) : Receipted record s'.world.jobs := by
  obtain ⟨row, found, complete, same⟩ := receipted
  obtain ⟨new, newFound, rfl | ⟨targeted, update⟩⟩ := (performs_jobs performs).found found
  · exact ⟨_, newFound, complete, same⟩
  · obtain ⟨status, charged⟩ := update.keepsCost granted targeted found complete spares
    refine ⟨new, newFound, status.trans complete, ?_⟩
    rw [← same, costRecord, costRecord, endpoint, scene, update.requestId, update.request, charged]
    rfl

theorem Receipted.reaches {record : CostRecord} (spares : ∀ w e, allowed w e → sparesCompletion w e)
    (reached : Reaches (callsIn D kinds) allowed (freshRoot D) b) (later : Reaches (callsIn D kinds) allowed b c)
    (receipted : Receipted record b.world.jobs) : Receipted record c.world.jobs := by
  have admits : (discipline D fun _ => kinds).Admits (callsIn D kinds) :=
    discipline_admits fun _ => subset_rfl
  refine Protocol.Sound.invariant (K := fun s : Shared (machine D) => Receipted record s.world.jobs) admits
    (sound_freshRoot.reaches admits reached) ?_ (fun _ _ => id) receipted later
  intro pid action response s s' inv kept granted meets performs
  have granted : Granted D (fun _ => kinds) pid s action := granted
  exact kept.performs granted (spares _ _ meets) performs

end Rows

theorem projected_receipted {rows : List Row} {jobs : Jobs} {file : Option Costs} {hardLimitUsd : Decimal}
    (read : ∀ row ∈ rows, row ∈ jobs) (receipted : ∀ record ∈ (file.getD .empty).jobs, Receipted record jobs) :
    ∀ record ∈ (projected file hardLimitUsd rows).jobs, Receipted record jobs := by
  intro record member
  rw [projected_jobs, mem_append] at member
  rcases member with old | new
  · exact receipted record old
  · obtain ⟨row, inside, complete, -, same⟩ := mem_unrecorded.1 new
    refine ⟨row, ?_, complete, same⟩
    rw [← same]
    exact find?_eq_some.mpr ⟨read row inside, rfl⟩

structure Accounts (D : Deployment) where
  config : Config (machine D) Error
  costs : Option Costs

namespace Accounts
variable {D : Deployment} {kinds : Set Call} {allowed : Condition (machine D)}
  {accounts accounts' : Accounts D}

def fresh (D : Deployment) : Accounts D := ⟨freshRoot D, none⟩

/-- A step of the executor, or a projection. A projection that fails writes nothing. -/
inductive Step (kinds : Set Call) (allowed : Condition (machine D)) : Accounts D → Accounts D → Prop
  | executor {c c' : Config (machine D) Error} {file : Option Costs}
      (step : Interleaving.Step (callsIn D kinds) allowed c c') : Step kinds allowed ⟨c, file⟩ ⟨c', file⟩
  | synced {c : Config (machine D) Error} {file : Option Costs} {hardLimitUsd : Decimal}
      {rows : List Row} {costs : Costs} (read : rows.Perm c.world.jobs.rows)
      (saved : syncCostLedger D.limit hardLimitUsd rows file = .ok costs) :
      Step kinds allowed ⟨c, file⟩ ⟨c, some costs⟩
  | failed {accounts : Accounts D} {hardLimitUsd : Decimal} {rows : List Row} {error : Error}
      (read : rows.Perm accounts.config.world.jobs.rows)
      (raised : syncCostLedger D.limit hardLimitUsd rows accounts.costs = .error error) :
      Step kinds allowed accounts accounts

abbrev Reached (kinds : Set Call) (allowed : Condition (machine D)) (accounts : Accounts D) : Prop :=
  Relation.ReflTransGen (Step kinds allowed) (fresh D) accounts

theorem Reached.config (reached : Reached kinds allowed accounts) :
    Reaches (callsIn D kinds) allowed (freshRoot D) accounts.config := by
  induction reached with
  | refl => exact .refl
  | tail _ step ih =>
    cases step with
    | executor step => exact ih.tail step
    | synced | failed => exact ih

theorem Reached.balanced (reached : Reached kinds allowed accounts) : Balanced (accounts.costs.getD .empty) := by
  induction reached with
  | refl => exact .empty
  | tail before step ih =>
    cases step with
    | executor | failed => exact ih
    | synced read saved =>
      have priced := fun row member =>
        priced_of_reaches (Reached.config before) row (read.mem_iff.mp member)
      obtain ⟨-, rfl⟩ := (ih.sync_eq_ok priced).mp saved
      exact ih.projected _ ((read.map requestId).nodup_iff.mpr (unique _))

theorem Reached.receipted (spares : ∀ w e, allowed w e → sparesCompletion w e) (reached : Reached kinds
    allowed accounts) : ∀ record ∈ (accounts.costs.getD .empty).jobs, Receipted record accounts.config.world.jobs := by
  induction reached with
  | refl => exact fun record member => absurd member not_mem_nil
  | tail before step ih =>
    cases step with
    | executor step =>
      exact fun record member =>
        (ih record member).reaches spares (Reached.config before) (.single step)
    | failed => exact ih
    | synced read saved =>
      have priced := fun row member =>
        priced_of_reaches (Reached.config before) row (read.mem_iff.mp member)
      obtain ⟨-, rfl⟩ := ((Reached.balanced before).sync_eq_ok priced).mp saved
      exact projected_receipted (fun row => read.mem_iff.mp) ih

theorem reached_of_reaches {c : Config (machine D) Error}
    (reaches : Reaches (callsIn D kinds) allowed (freshRoot D) c) : Reached kinds allowed (⟨c, none⟩ : Accounts D) := by
  induction reaches with
  | refl => exact .refl
  | tail _ step ih => exact ih.tail (.executor step)

end Accounts

def sampleReceipts : List Turn :=
  [⟨.run sampleRun, sampleOracle none (.done "/out/a.png" (.finite false 1 (-5))), 16, false⟩,
    ⟨.qa (sampleReview sampleFirstId false), sampleOracle none (sampleProvider 1), 2, false⟩,
    ⟨.run { sampleRun with job := sampleCorrection }, sampleOracle none (sampleProvider 2), 14, false⟩]

theorem exists_sampleReceipts :
    ∃ c, Reaches (callsIn (sampleDeployment 6) univ) sparesCompletion (freshRoot (sampleDeployment 6))
    c ∧ ∃ spent cheap, c.world.jobs.rows = [spent, cheap] ∧ spent.status = .overrun ∧ spent.actualCost =
    some 2 ∧ cheap.status = .complete ∧ cheap.charged = 1 / 100000 ∧ cheap.actualCost = some (1 / 100000) := by
  have passed : (after (sampleDeployment 6) sparesCompletion (freshRoot _) sampleReceipts).any (fun c =>
      decide (c.world.jobs.rows.map (fun row => (row.status, row.charged, row.actualCost)) =
        [(.overrun, 2, some 2), (.complete, 1 / 100000, some (1 / 100000))])) = true := by
    decide +kernel
  obtain ⟨c, reached, holds⟩ :=
    exists_reaches_of_after _ sparesCompletion univ (fun _ _ => trivial) passed
  obtain ⟨spent, rest, rows, overrun, others⟩ := map_eq_cons_iff.mp (of_decide_eq_true holds)
  obtain ⟨cheap, _, rfl, complete, last⟩ := map_eq_cons_iff.mp others
  obtain rfl := map_eq_nil_iff.mp last
  simp only [Prod.mk.injEq] at overrun complete
  exact ⟨c, reached, spent, cheap, rows, overrun.1, overrun.2.2, complete.1, complete.2.1, complete.2.2⟩

end VideoPoster.Executor
