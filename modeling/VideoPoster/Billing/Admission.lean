import VideoPoster.Billing.Reconciler
import VideoPoster.Billing.Replay
import VideoPoster.Interleaving.Undisturbed

/-!
# A refused admission
-/

namespace VideoPoster.Billing
open Python Tables Executor Interleaving Option Update StandingBudget Table Nat

variable {D : Deployment} {oracles : ℕ → Oracle} {pid : ℕ} {s s' : Shared (machine D)}

/-! ## `prepare_intent`, alone -/

theorem still_keeps : (machine D).Keeps Act.Still := by
  intro oracle pid w w' action response still executed
  cases action with
  | ask | inspect | readGeneration | recover | recoverLocal =>
    simp only [exec, some.injEq, Prod.mk.injEq] at executed
    exact executed.1.symm
  | ledger op =>
    cases op with
    | claim requestId =>
      simp only [exec, some.injEq, Prod.mk.injEq, StandingBudget.Ledger.step,
        StandingBudget.Op.apply] at executed
      obtain ⟨rfl, -⟩ := executed
      cases applied : claim requestId w.ledger with
      | ok outcome =>
        obtain ⟨-, same⟩ := claim_ok applied
        simp only [same]
      | error error => rfl
    | _ => exact still.elim
  | _ => exact still.elim

variable {row : Row}

section Intent
variable {context generation : Option ℕ} {job : Job} {owner : Option OwnerBinding}

theorem reserve_outcome {cost : ℚ} {key : String} {scope : Option String} {admission : Option BudgetAdmission}
    {outcome : Result Bool} (ran : (reserve context job cost key scope admission generation owner).evaluate
    oracles pid s = some (outcome, s')) : (∃ error, outcome = .error error)
    ∧ s'.world = s.world ∨ outcome = .ok false ∧ s'.world = s.world ∧ (s.world.jobs.find? (D.requestId job)).isSome ∨
    outcome = .ok true ∧ ∃ r files, Admitted D files s.world.jobs r ∧ r.job = job ∧
    r.cost = cost ∧ r.generation = generation ∧ s'.world = { s.world with jobs := s.world.jobs.put (r.row D) } := by
  rcases Prog.ofExcept_outcome ran with ⟨failed, rfl⟩ | ⟨_, -, ran⟩
  · exact .inl ⟨failed, rfl⟩
  rcases Prog.ofExcept_outcome ran with ⟨failed, rfl⟩ | ⟨_, -, ran⟩
  · exact .inl ⟨failed, rfl⟩
  rcases Prog.ofExcept_outcome ran with ⟨failed, rfl⟩ | ⟨_, -, ran⟩
  · exact .inl ⟨failed, rfl⟩
  rcases Prog.ofExcept_outcome ran with ⟨failed, rfl⟩ | ⟨_, -, ran⟩
  · exact .inl ⟨failed, rfl⟩
  rcases (only_validateInputContract job).outcome still_keeps ran with refused | ⟨_, middle, -, same, ran⟩
  · exact .inl refused
  rw [← same]
  rcases Prog.ofExcept_outcome ran with ⟨failed, rfl⟩ | ⟨given, -, ran⟩
  · exact .inl ⟨failed, rfl⟩
  simp only [Program.reserve, Prog.request, Prog.evaluate, exec] at ran
  generalize (fun path => (oracles middle.trace.length).answer (.fileSha path)) = files at ran
  cases reserved : reserveRow D files ⟨job, cost, key, given, admission, generation, owner⟩
      middle.world.jobs with
  | error error =>
    simp only [reserved, World.commitReserve, id, Prog.evaluate_ofExcept, some.injEq, Prod.mk.injEq] at ran
    obtain ⟨rfl, rfl⟩ := ran
    exact .inl ⟨⟨error, rfl⟩, rfl⟩
  | ok answer =>
    obtain ⟨jobs, fresh⟩ := answer
    simp only [reserved, World.commitReserve, id, Prog.evaluate_ofExcept, some.injEq, Prod.mk.injEq] at ran
    obtain ⟨rfl, rfl⟩ := ran
    rcases reserveRow_ok reserved with ⟨rfl, rfl, present⟩ | ⟨rfl, admitted, rfl⟩
    · exact .inr (.inl ⟨rfl, rfl, present⟩)
    · exact .inr (.inr ⟨rfl, _, files, admitted, rfl, rfl, rfl, rfl⟩)

/-- The row that a fresh intent leaves: reserved at the job's cost and marked as prepared. -/
structure Prepares (D : Deployment) (job : Job) (generation : Option ℕ) (before after : Jobs)
    (row : Row) : Prop where
  absent : before.find? (D.requestId job) = none
  positive : 0 < job.cost.toRat
  prepared : ∃ r : Reservation, r.job = job ∧ r.cost = job.cost.toRat ∧ r.generation = generation ∧
    row = prepared.apply (r.row D) ∧ after = (before.put (r.row D)).put row

variable {E : Instance}

theorem markPrepared_outcome {outcome : Result (Option Row)} (found : s.world.jobs.find? (D.requestId job) = some row)
    (writer : row.generation = none ∨ context = row.generation) (ran : (markPrepared D E context job).evaluate
    oracles pid s = some (outcome, s')) : outcome = .ok (some (prepared.apply row))
    ∧ s'.world = { s.world with jobs := s.world.jobs.put (prepared.apply row) } := by
  have guarded : guardPinned E context none row = .ok () := by
    unfold guardPinned
    split
    · rfl
    · rename_i generation pinned
      exact requireCoordinatorWrite_eq_ok.mpr (pinned ▸ writer)
  have changed : changeRow E context none (D.requestId job) .prepared s.world.jobs =
      .ok (s.world.jobs.put (prepared.apply row)) := by
    simp only [changeRow, found, guarded]
    rfl
  have key : (prepared.apply row).requestId = D.requestId job := (find?_eq_some.mp found).2
  have there := find?_put_self s.world.jobs (prepared.apply row)
  rw [key] at there
  simp only [markPrepared, Program.change, Prog.request, bind, Prog.bind, Prog.evaluate, exec, changed,
    World.commit, id, Prog.ofExcept, Program.inspect, there, some.injEq, Prod.mk.injEq] at ran
  obtain ⟨rfl, rfl⟩ := ran
  exact ⟨rfl, rfl⟩

variable {outcome : Result Row}

theorem runnable_outcome {found : Option Row} (ran : ((Program.ofResult (subscript found)).bind fun row =>
      (Program.require (row.status ∈ [Status.prepared, .intent, .complete])
        (.runtime "prepared executor intent is not runnable")).bind fun _ => Prog.pure row).evaluate
          oracles pid s = some (outcome, s')) :
    s' = s ∧ ((∃ error, outcome = .error error) ∧
      (∀ row ∈ found, row.status ∉ [Status.prepared, .intent, .complete]) ∨
      ∃ row, found = some row ∧ outcome = .ok row) := by
  cases found with
  | none =>
    cases ran
    exact ⟨rfl, .inl ⟨⟨_, rfl⟩, fun _ absent => by cases absent⟩⟩
  | some row =>
    by_cases listed : row.status ∈ [Status.prepared, .intent, .complete]
    · simp only [Program.require, Program.ofResult, subscript, Python.require, if_pos listed,
        Prog.ofExcept, Prog.bind, Prog.evaluate, some.injEq, Prod.mk.injEq] at ran
      exact ⟨ran.2.symm, .inr ⟨row, rfl, ran.1.symm⟩⟩
    · simp only [Program.require, Program.ofResult, subscript, Python.require, if_neg listed,
        Prog.ofExcept, Prog.bind, Prog.evaluate, some.injEq, Prod.mk.injEq] at ran
      refine ⟨ran.2.symm, .inl ⟨⟨_, ran.1.symm⟩, fun _ same => ?_⟩⟩
      cases same
      exact listed

theorem prepareIntent_outcome {authScope : Option String} (writer : generation = none ∨ context = generation)
    (ran : (prepareIntent D E context job authScope generation owner).evaluate
    oracles pid s = some (outcome, s')) : (∃ error, outcome = .error error) ∧ s'.world =
    s.world ∨ ∃ row, outcome = .ok row ∧ (s.world.jobs.find? (D.requestId job) = some row ∧ s'.world = s.world ∨
    Prepares D job generation s.world.jobs s'.world.jobs row ∧ s'.world = { s.world with jobs := s'.world.jobs }) := by
  rcases Prog.ofExcept_outcome ran with ⟨failed, rfl⟩ | ⟨_, -, ran⟩
  · exact .inl ⟨failed, rfl⟩
  rcases Prog.ofExcept_outcome ran with ⟨failed, rfl⟩ | ⟨_, valid, ran⟩
  · exact .inl ⟨failed, rfl⟩
  rcases (only_validateInputContract job).outcome still_keeps ran with refused | ⟨_, s₁, -, same₁, ran⟩
  · exact .inl refused
  rcases (only_configuredAuthenticatedBudgetBinding job).outcome still_keeps ran with
    refused | ⟨admission, s₂, -, same₂, ran⟩
  · exact .inl ⟨refused.1, refused.2.trans same₁⟩
  have same := same₂.trans same₁
  clear same₁ same₂
  rw [← same]
  rcases Prog.ofExcept_outcome ran with ⟨failed, rfl⟩ | ⟨scope, -, ran⟩
  · exact .inl ⟨failed, rfl⟩
  rcases Prog.evaluate_bind_eq_some.mp ran with ⟨fresh, s₃, reserved, ran⟩ | ⟨error, reserved, rfl⟩
  swap
  · rcases reserve_outcome reserved with ⟨-, kept⟩ | ⟨⟨⟩, -⟩ | ⟨⟨⟩, -⟩
    exact .inl ⟨⟨error, rfl⟩, kept⟩
  rcases Prog.evaluate_bind_eq_some.mp ran with ⟨existing, s₄, inspected, ran⟩ | ⟨_, ⟨⟩, -⟩
  cases inspected
  rcases reserve_outcome reserved with ⟨⟨_, ⟨⟩⟩, -⟩ | ⟨⟨⟩, kept, present⟩ |
    ⟨⟨⟩, r, files, admitted, named, cost, pinned, after⟩
  · obtain ⟨rfl, ended⟩ := runnable_outcome ran
    rcases ended with ⟨failed, -⟩ | ⟨row, found, rfl⟩
    · exact .inl ⟨failed, kept⟩
    · refine .inr ⟨row, rfl, .inl ⟨?_, kept⟩⟩
      rw [← kept]
      exact found
  · have key : D.requestId job = (r.row D).requestId := by
      rw [← named]
      rfl
    have found : s₃.world.jobs.find? (D.requestId job) = some (r.row D) := by
      rw [after, key]
      exact find?_put_self _ _
    have owned : (r.row D).generation = none ∨ context = (r.row D).generation := by
      rw [show (r.row D).generation = generation from pinned]
      exact writer
    let inspected : Shared (machine D) := ⟨s₃.world, ⟨pid, .inspect (D.requestId job),
      s₃.world.jobs.find? (D.requestId job)⟩ :: s₃.trace⟩
    have spec {outcome : Result (Option Row)} {s₅ : Shared (machine D)}
        (marked : (markPrepared D E context job).evaluate oracles pid inspected = some (outcome, s₅)) :=
      markPrepared_outcome (s := inspected) found owned marked
    rcases Prog.evaluate_bind_eq_some.mp ran with ⟨prepared, s₅, marked, ran⟩ | ⟨error, marked, -⟩
    swap
    · obtain ⟨⟨⟩, -⟩ := spec marked
    obtain ⟨same₅, world⟩ := spec marked
    cases same₅
    obtain ⟨rfl, ⟨-, unlisted⟩ | ⟨row, ⟨⟩, rfl⟩⟩ := runnable_outcome ran
    · exact absurd (by simp [apply]) (unlisted _ rfl)
    refine .inr ⟨_, rfl, .inr ⟨⟨?_, ?_, r, named, cost, pinned, rfl, ?_⟩, ?_⟩⟩
    · rw [← named]
      exact admitted.absent
    · simp only [validateJob, bind_eq_ok, require_eq_ok] at valid
      obtain ⟨_, -, -, -, positive⟩ := valid
      exact positive
    · rw [world, after]
    · rw [world, after]

end Intent

/-! ## The two admissions -/

def runnerAdmission (D : Deployment) (E : Instance) (job : Job) (episodeId : String) :
    Program StandingBudget.Claim := do
  let prepared ← prepareIntent D E none job (some "TEST_LOCAL_ONLY") none none
  let month ← Program.ask .month
  Program.ledger (.reserve none month
    { requestId := D.requestId job
      episodeId := episodeId
      provider := job.endpoint
      quotedCapUsd := job.cost
      settlementMode := .falReadbackV2
      authScope := prepared.settlementBinding.authScope
      providerRequestId := prepared.settlementBinding.providerRequestId
      authorityMode := some prepared.settlementBinding.authorityMode })

def markUnknownIfReserved (requestId : String) : Program Unit := do
  let answer ← Prog.attempt (Program.ledger (.claim requestId))
  match answer with
  | .ok _ => (Program.ledger (.markUnknown none requestId none)).discard
  | .error _ => pure ()

/-- `complete_one` up to its provider slot: a job that has a row already is not admitted again. -/
def completeOneAdmission (D : Deployment) (E : Instance) (job : Job) (episodeId : String) :
    Program Unit := do
  let receipt ← Program.inspect (D.requestId job)
  match receipt with
  | some _ => pure ()
  | none => do
    let outcome ← Prog.attempt (runnerAdmission D E job episodeId)
    match outcome with
    | .ok _ => pure ()
    | .error error => do
      markUnknownIfReserved (D.requestId job)
      .raise error

def coordinatorIntent (D : Deployment) (C : Coordinator) (job : Job) : Program (Option ℕ × Row) := do
  let generation ← Program.readGeneration
  marker (D.requestId job) (generation + 1)
  let row ← prepareIntent D C.executor (some (generation + 1)) job none (some (generation + 1))
    (some C.ownerBinding)
  pure (some (generation + 1), row)

inductive Admission where
  | coordinator (C : Coordinator) (job : Job) (episodeId : String) (experiment : Bool)
  | runner (E : Instance) (job : Job) (episodeId : String)

namespace Admission

def job : Admission → Job
  | coordinator _ job _ _ => job
  | runner _ job _ => job

variable (D : Deployment)

def call : Admission → Program Unit
  | coordinator C job episodeId experiment => (prepareAndReserve D C job episodeId experiment).discard
  | runner E job episodeId => completeOneAdmission D E job episodeId

def intent : Admission → Program (Option ℕ × Row)
  | coordinator C job _ _ => do
    let _ ← Program.slot [.billing]
    coordinatorIntent D C job
  | runner E job _ => do
    let _ ← Program.inspect (D.requestId job)
    let row ← prepareIntent D E none job (some "TEST_LOCAL_ONLY") none none
    pure (none, row)

def reserveArgs (prepared : Option ℕ × Row) : Admission → StandingBudget.ReserveArgs
  | coordinator _ job episodeId experiment =>
    { requestId := D.requestId job
      episodeId := episodeId
      provider := job.endpoint
      quotedCapUsd := job.cost
      experiment := experiment
      settlementMode := .falReadbackV2
      authScope := prepared.2.settlementBinding.authScope
      providerRequestId := unassigned
      authorityMode := some job.mode
      generation := prepared.1 }
  | runner _ job episodeId =>
    { requestId := D.requestId job
      episodeId := episodeId
      provider := job.endpoint
      quotedCapUsd := job.cost
      settlementMode := .falReadbackV2
      authScope := prepared.2.settlementBinding.authScope
      providerRequestId := prepared.2.settlementBinding.providerRequestId
      authorityMode := some prepared.2.settlementBinding.authorityMode }

def reservation (A : Admission) : Program StandingBudget.Claim := do
  let prepared ← A.intent D
  let month ← Program.ask .month
  Program.ledger (.reserve prepared.1 month (A.reserveArgs D prepared))

def Admits (A : Admission) (oracles : ℕ → Oracle) (pid : ℕ) (s : Shared (machine D)) : Prop :=
  ∃ s', (A.call D).evaluate oracles pid s = some (.ok (), s') ∧
    s'.world.ledger.claims.find? (D.requestId A.job) ≠ none

end Admission

structure Uncharged (D : Deployment) (before after : Jobs) : Prop where
  charged : ∀ mode, spent D after mode = spent D before mode
  counts : ∀ mode category, (inMode after mode).countP (fun row => row.category = category) =
    (inMode before mode).countP fun row => row.category = category

variable {before : Jobs}

variable {generation : Option ℕ} {after : Jobs}

theorem Prepares.charges {job : Job} (prepares : Prepares D job generation before after row) :
    spent D after job.mode = spent D before job.mode + job.cost.toRat := by
  obtain ⟨absent, -, r, rfl, cost, -, rfl, rfl⟩ := prepares
  have found : (before.put (r.row D)).find? (Update.prepared.apply (r.row D)).requestId =
      some (r.row D) := find?_put_self _ _
  have charge : (if (r.row D).mode = r.job.mode then (r.row D).charged else 0) = r.job.cost.toRat :=
    (if_pos rfl).trans cost
  rw [spent, sum_put_same _ found (by rfl), sum_put_new _ absent, charge, spent]
  abel

/-! ## The coordinator's call -/

section Coordinator
variable {C : Coordinator} {job : Job} {episodeId : String} {experiment : Bool}

def coordinatorTail (D : Deployment) (A : Admission) (prepared : Option ℕ × Row) :
    Program StandingBudget.Claim := do
  let month ← Program.ask .month
  let claim ← Program.ledger (.reserve prepared.1 month (A.reserveArgs D prepared))
  current (D.requestId A.job) (prepared.1.getD 0) none
  pure claim

theorem prepareAndReserve_eq : prepareAndReserve D C job episodeId experiment = Program.withSlot [.billing]
    ((coordinatorIntent D C job).bind (coordinatorTail D (.coordinator C job episodeId experiment))) := by
  simp only [coordinatorIntent, bind, Prog.bind_assoc]
  rfl

theorem release_returns (lock : LockId) (s : Shared (machine D)) (result : Result Unit) (s' : Shared (machine D))
    (ran : (Program.release lock).evaluate oracles pid s = some (result, s')) : result = .ok () := by
  cases ran
  rfl

theorem coordinator_evaluate {result : Result StandingBudget.Claim} : (prepareAndReserve D C job
    episodeId experiment).evaluate oracles pid s = some (result, s') ↔ ∃ lock s₁ s₂, (Program.slot [.billing]).evaluate
    oracles pid s = some (.ok lock, s₁) ∧ ((∃ error, result = .error error ∧ (coordinatorIntent D C job).evaluate
    oracles pid s₁ = some (.error error, s₂)) ∨ ∃ prepared middle, (coordinatorIntent D C job).evaluate oracles pid s₁ =
    some (.ok prepared, middle) ∧ (coordinatorTail D (.coordinator C job episodeId experiment) prepared).evaluate
    oracles pid middle = some (result, s₂)) ∧ (Program.release lock).evaluate oracles pid s₂ = some (.ok (), s') := by
  rw [prepareAndReserve_eq, Program.withSlot, Prog.evaluate_bind_eq_some]
  constructor
  · rintro (⟨lock, s₁, locked, ran⟩ | ⟨error, locked, -⟩)
    · obtain ⟨s₂, ran, released⟩ := (Prog.evaluate_ensuring (release_returns lock)).mp ran
      refine ⟨lock, s₁, s₂, locked, ?_, released⟩
      rcases Prog.evaluate_bind_eq_some.mp ran with ⟨prepared, middle, first, rest⟩ | ⟨error, first, same⟩
      · exact .inr ⟨prepared, middle, first, rest⟩
      · exact .inl ⟨error, same, first⟩
    · simp only [Program.slot, Prog.evaluate] at locked
      split at locked <;> cases locked
  · rintro ⟨lock, s₁, s₂, locked, ran, released⟩
    refine .inl ⟨lock, s₁, locked, (Prog.evaluate_ensuring (release_returns lock)).mpr ⟨s₂, ?_, released⟩⟩
    rcases ran with ⟨error, rfl, first⟩ | ⟨prepared, middle, first, rest⟩
    · exact Prog.evaluate_bind_eq_some.mpr (.inr ⟨error, first, rfl⟩)
    · exact Prog.evaluate_bind_eq_some.mpr (.inl ⟨prepared, middle, first, rest⟩)

theorem coordinatorIntent_outcome {result : Result (Option ℕ × Row)} (ran : (coordinatorIntent D C job).evaluate
    oracles pid s = some (result, s')) : s.world.generation ≤ s'.world.generation ∧
    s'.world.ledger = s.world.ledger ∧ ((∃ error, result = .error error) ∧ s'.world.jobs = s.world.jobs ∨
    ∃ row, result = .ok (some (s.world.generation + 1), row) ∧ (s.world.jobs.find? (D.requestId job) = some row ∧
    s'.world.jobs = s.world.jobs ∨ Prepares D job (some (s.world.generation + 1)) s.world.jobs s'.world.jobs row)) := by
  rcases Prog.evaluate_bind_eq_some.mp ran with ⟨generation, s₁, read, ran⟩ | ⟨_, ⟨⟩, -⟩
  cases read
  rcases Prog.evaluate_bind_eq_some.mp ran with ⟨_, s₂, marked, ran⟩ | ⟨error, marked, rfl⟩
  · obtain ⟨time, world⟩ := marker_ok marked
    have grown : s.world.generation ≤ s₂.world.generation := by
      rw [world]
      exact le_succ _
    have jobs : s₂.world.jobs = s.world.jobs := by rw [world]; rfl
    have ledger : s₂.world.ledger = s.world.ledger := by rw [world]; rfl
    rcases Prog.evaluate_bind_eq_some.mp ran with ⟨row, s₃, prepared, ended⟩ | ⟨error, refused, rfl⟩
    · cases ended
      rcases prepareIntent_outcome (.inr rfl) prepared with ⟨⟨_, ⟨⟩⟩, -⟩ | ⟨_, ⟨⟩, found⟩
      rw [← jobs, ← ledger]
      rcases found with ⟨found, same⟩ | ⟨prepares, same⟩
      · rw [same]
        exact ⟨grown, rfl, .inr ⟨row, rfl, .inl ⟨found, rfl⟩⟩⟩
      · refine ⟨?_, by rw [same], .inr ⟨row, rfl, .inr prepares⟩⟩
        rw [same]
        exact grown
    · rcases prepareIntent_outcome (.inr rfl) refused with ⟨-, same⟩ | ⟨_, ⟨⟩, -⟩
      rw [same]
      exact ⟨grown, ledger, .inl ⟨⟨error, rfl⟩, jobs⟩⟩
  · have same : s'.world = s.world := by
      rcases only_generatedAt.outcome still_keeps marked with ⟨-, same⟩ | ⟨_, _, -, -, ⟨⟩⟩
      exact same
    rw [same]
    exact ⟨le_rfl, rfl, .inl ⟨⟨error, rfl⟩, rfl⟩⟩

def Closing (generation : ℕ) (action : Act) : Prop :=
  action.Still ∨ (∃ op, action = .ledger op) ∨
    ∃ snapshot, action = .publish snapshot ∧ snapshot.generation = generation

theorem only_coordinatorTail (A : Admission) (prepared : Option ℕ × Row) :
    (coordinatorTail D A prepared).Only (Closing (prepared.1.getD 0)) := by
  have still {α : Type} {program : Program α} (only : program.Only Act.Still) :
      program.Only (Closing (prepared.1.getD 0)) :=
    only.mono fun _ => .inl
  have ledger (op : StandingBudget.Op) : (Program.ledger op).Only (Closing (prepared.1.getD 0)) :=
    ⟨.inr (.inl ⟨op, rfl⟩), fun _ => .ofExcept _⟩
  refine (still (only_ask _)).bind fun month => (ledger _).bind fun claim => .bind ?_ fun _ => trivial
  refine (still (only_inspect _)).bind fun found => (ledger _).bind fun claim => (only_ofResult _).bind
    fun receipt => (only_require _ _).bind fun _ => (still only_generatedAt).bind fun time => ?_
  exact ⟨.inr (.inr ⟨_, rfl, rfl⟩), fun _ => trivial⟩

variable {generation : ℕ}

theorem Closing.kept {α : Type} {program : Program α} {n : ℕ} {result : Result α} (only :
    program.Only (Closing generation)) (bound : n ≤ generation) (old : n ≤ s.world.generation) (ran : program.evaluate
    oracles pid s = some (result, s')) : s'.world.jobs = s.world.jobs ∧ n ≤ s'.world.generation := by
  refine Prog.Only.preserves (K := fun w : World => w.jobs = s.world.jobs ∧ n ≤ w.generation) ?_ only ran ⟨rfl, old⟩
  rintro oracle w w' action response (still | ⟨op, rfl⟩ | ⟨snapshot, rfl, same⟩) executed ⟨jobs, grown⟩
  · rw [still_keeps still executed]
    exact ⟨jobs, grown⟩
  · simp only [exec, some.injEq, Prod.mk.injEq] at executed
    rw [← executed.1]
    exact ⟨jobs, grown⟩
  · simp only [exec, some.injEq, Prod.mk.injEq] at executed
    rw [← executed.1]
    exact ⟨jobs, bound.trans same.ge⟩

variable {claim : StandingBudget.Claim}

theorem coordinatorTail_unpinned {A : Admission} {prepared : Option ℕ × Row}
    (found : s.world.jobs.find? (D.requestId A.job) = some row) (other : row.generation ≠ some (prepared.1.getD 0)) :
    (coordinatorTail D A prepared).evaluate oracles pid s ≠ some (.ok claim, s') := by
  intro ran
  obtain ⟨month, s₁, asked, ran⟩ := Prog.evaluate_bind_eq_ok.mp ran
  obtain ⟨reserved, s₂, applied, ran⟩ := Prog.evaluate_bind_eq_ok.mp ran
  obtain ⟨_, s₃, readback, -⟩ := Prog.evaluate_bind_eq_ok.mp ran
  cases asked
  obtain ⟨ledger, -, rfl⟩ := evaluate_ledger.mp applied
  obtain ⟨last, _, -, lastFound, -, coherent, -⟩ := current_ok readback
  cases found.symm.trans lastFound
  exact other coherent.1

theorem coordinatorTail_returns {times : ℕ → ℤ} {C : Coordinator} {job : Job} {episodeId : String} {experiment : Bool}
    {ledger : StandingBudget.Ledger} (clock : ∀ n, (oracles n).answer .clock = some (times n)) (prepares : Prepares
    D job (some generation) before s.world.jobs row) (absent : s.world.ledger.claims.find? (D.requestId job) = none)
    (reserved : reserve D.policy (some generation) ((oracles s.trace.length).answer .month) ((Admission.coordinator
    C job episodeId experiment).reserveArgs D (some generation, row)) s.world.ledger = .ok (ledger, claim)) :
    ∃ s', (coordinatorTail D (.coordinator C job episodeId experiment) (some generation, row)).evaluate oracles pid s =
    some (.ok claim, s') ∧ s'.world.ledger.claims.find? (D.requestId job) ≠ none := by
  obtain ⟨-, -, r, rfl, -, pinned, rfl, jobs⟩ := prepares
  rcases reserve_ok reserved with ⟨found, -⟩ | ⟨-, -, cap, recorded, -, -, -, rfl, rfl⟩
  · cases absent.symm.trans found
  let claim := ((Admission.coordinator C r.job episodeId experiment).reserveArgs D
    (some generation, prepared.apply (r.row D))).toClaim cap recorded r.job.mode
  have found : s.world.jobs.find? (D.requestId r.job) = some (prepared.apply (r.row D)) := by
    rw [jobs]
    exact find?_put_self _ _
  have claimFound : (s.world.ledger.claims.put claim).find? (D.requestId r.job) = some claim :=
    find?_put_self _ _
  have coherent : Coherent (D.requestId r.job) generation (prepared.apply (r.row D)) claim :=
    ⟨pinned, rfl, rfl, rfl, rfl, rfl, rfl, rfl, rfl⟩
  let asked : Shared (machine D) :=
    ⟨s.world, ⟨pid, .ask .month, (oracles s.trace.length).answer .month⟩ :: s.trace⟩
  let op : StandingBudget.Op := .reserve (some generation) ((oracles s.trace.length).answer .month)
    ((Admission.coordinator C r.job episodeId experiment).reserveArgs D
      (some generation, prepared.apply (r.row D)))
  let after : Shared (machine D) :=
    ⟨{ s.world with ledger := { s.world.ledger with claims := s.world.ledger.claims.put claim } },
      ⟨pid, .ledger op, .ok claim⟩ :: asked.trace⟩
  obtain ⟨time, trace, shown⟩ := evaluate_current (s := after) clock pid none
    (D.requestId_ne_empty r.job) found claimFound coherent
  have applied : (Program.ledger op).evaluate oracles pid asked = some (.ok claim, after) :=
    evaluate_ledger.mpr ⟨_, reserved, rfl⟩
  refine ⟨_, Prog.evaluate_bind_eq_ok.mpr ⟨_, asked, rfl, Prog.evaluate_bind_eq_ok.mpr ⟨claim, after,
    applied, Prog.evaluate_bind_eq_ok.mpr ⟨(), _, shown, rfl⟩⟩⟩, ?_⟩
  show (s.world.ledger.claims.put claim).find? (D.requestId r.job) ≠ none
  rw [claimFound]
  exact some_ne_none _

end Coordinator

/-! ## When a failed admission is harmless -/

structure Acceptable (A : Admission) (oracles : ℕ → Oracle) (pid : ℕ) (s : Shared (machine D)) : Prop where
  reserved : ∃ claim s', (A.reservation D).evaluate oracles pid s = some (.ok claim, s')
  absent : s.world.ledger.claims.find? (D.requestId A.job) = none
  clock : ∀ n, (oracles n).answer .clock ≠ none

def RefusedFirst (A : Admission) (oracles : ℕ → Oracle) (pid : ℕ) (s : Shared (machine D)) : Prop :=
  s.world.jobs.find? (D.requestId A.job) = none ∧
    ∃ error s', (A.intent D).evaluate oracles pid s = some (.error error, s')

def withLedger (s : Shared (machine D)) (ledger : StandingBudget.Ledger) : Shared (machine D) :=
  ⟨{ s.world with ledger := ledger }, s.trace⟩

theorem Uncharged.refl (jobs : Jobs) : Uncharged D jobs jobs := ⟨fun _ => rfl, fun _ _ => rfl⟩

theorem Prepares.not_uncharged {job : Job}
    (prepares : Prepares D job generation before after row) : ¬ Uncharged D before after := by
  intro uncharged
  have same := uncharged.charged job.mode
  have positive := prepares.positive
  rw [prepares.charges] at same
  linarith

section Harmless
variable {C : Coordinator} {job : Job} {episodeId : String} {experiment : Bool} {error : Error}
  {later : ℕ → Oracle} {laterPid : ℕ} {ledger : StandingBudget.Ledger}

variable {lock : LockId} {s₁ : Shared (machine D)}

theorem coordinator_intent_eq {result : Result (Option ℕ × Row)} (locked : (Program.slot [.billing]).evaluate
    oracles pid s = some (.ok lock, s₁)) : ((Admission.coordinator C job episodeId experiment).intent D).evaluate
    oracles pid s = some (result, s') ↔ (coordinatorIntent D C job).evaluate oracles pid s₁ = some (result, s') := by
  show ((Program.slot [.billing]).bind fun _ => coordinatorIntent D C job).evaluate oracles pid s = _ ↔ _
  rw [Prog.evaluate_bind_eq_some]
  constructor
  · rintro (⟨_, _, same, ran⟩ | ⟨_, failed, -⟩)
    · cases locked.symm.trans same
      exact ran
    · cases locked.symm.trans failed
  · exact fun ran => .inl ⟨lock, s₁, locked, ran⟩

theorem slot_world {paths : List LockId} (locked : (Program.slot paths).evaluate oracles pid s = some (.ok lock, s₁)) :
    s₁.world.jobs = s.world.jobs ∧ s₁.world.generation = s.world.generation ∧ s₁.world.ledger = s.world.ledger := by
  rw [slot_ok locked]
  exact ⟨rfl, rfl, rfl⟩

theorem coordinator_failed (failed : (prepareAndReserve D C job episodeId experiment).evaluate
    oracles pid s = some (.error error, s')) : s.world.generation ≤ s'.world.generation ∧ ((∃ error s₁,
    ((Admission.coordinator C job episodeId experiment).intent D).evaluate oracles pid s = some (.error error, s₁)) ∧
    s'.world.jobs = s.world.jobs ∨ ∃ prepared s₁, ((Admission.coordinator C job episodeId experiment).intent D).evaluate
    oracles pid s = some (.ok prepared, s₁) ∧ (s.world.jobs.find? (D.requestId job) = some prepared.2 ∧
    s'.world.jobs = s.world.jobs ∨ Prepares D job prepared.1 s.world.jobs s'.world.jobs prepared.2)) := by
  obtain ⟨lock, s₁, s₂, locked, ran, released⟩ := coordinator_evaluate.1 failed
  obtain ⟨jobs, generation, -⟩ := slot_world locked
  cases released
  rcases ran with ⟨error, -, refused⟩ | ⟨prepared, middle, intended, ran⟩
  · obtain ⟨grown, -, ⟨-, same⟩ | ⟨_, ⟨⟩, -⟩⟩ := coordinatorIntent_outcome refused
    exact ⟨generation ▸ grown, .inl ⟨⟨error, _, (coordinator_intent_eq locked).mpr refused⟩, same.trans jobs⟩⟩
  · obtain ⟨grown, -, ⟨⟨_, ⟨⟩⟩, -⟩ | ⟨row, same, found⟩⟩ := coordinatorIntent_outcome intended
    cases same
    rw [generation] at grown found ran
    rw [jobs] at found
    obtain ⟨kept, last⟩ := Closing.kept (n := s.world.generation) (only_coordinatorTail _ _) (le_succ _) grown ran
    refine ⟨last, .inr ⟨_, middle, (coordinator_intent_eq locked).mpr intended, ?_⟩⟩
    have left : (s₂.world.lock lock none).jobs = middle.world.jobs := kept
    rw [generation]
    rcases found with ⟨found, same⟩ | prepares
    · exact .inl ⟨found, left.trans same⟩
    · exact .inr (left ▸ prepares)

variable {t : Shared (machine D)}

theorem coordinator_admits (acceptable : Acceptable (.coordinator C job episodeId experiment) later laterPid t)
    (fresh : t.world.jobs.find? (D.requestId job) = none) :
    (Admission.coordinator C job episodeId experiment).Admits D later laterPid t := by
  obtain ⟨⟨claim, s', reserved⟩, absent, clock⟩ := acceptable
  choose times timed using fun n => ne_none_iff_exists'.mp (clock n)
  obtain ⟨prepared, s₁, intended, reserved⟩ := Prog.evaluate_bind_eq_ok.mp reserved
  obtain ⟨month, s₂, asked, applied⟩ := Prog.evaluate_bind_eq_ok.mp reserved
  obtain ⟨lock, s₀, locked, intended⟩ := Prog.evaluate_bind_eq_ok.mp intended
  cases asked
  obtain ⟨after, applied, -⟩ := evaluate_ledger.mp applied
  obtain ⟨jobs, -, kept⟩ := slot_world locked
  obtain ⟨-, unchanged, ⟨⟨_, ⟨⟩⟩, -⟩ | ⟨row, ⟨⟩, ⟨found, -⟩ | prepares⟩⟩ :=
    coordinatorIntent_outcome intended
  · rw [jobs, fresh] at found
    cases found
  · have unclaimed : s₁.world.ledger.claims.find? (D.requestId job) = none := by
      rw [unchanged, kept]
      exact absent
    obtain ⟨s₃, tail, held⟩ := coordinatorTail_returns timed prepares unclaimed applied
    refine ⟨_, Prog.evaluate_discard.mpr ⟨_, coordinator_evaluate.2
      ⟨lock, s₀, s₃, locked, .inr ⟨_, s₁, intended, tail⟩, rfl⟩, rfl⟩, held⟩

theorem coordinator_not_admits (found : t.world.jobs.find? (D.requestId job) = some row) (stale : row.generation ≠ some
    (t.world.generation + 1)) : ¬ (Admission.coordinator C job episodeId experiment).Admits D later laterPid t := by
  rintro ⟨t', ran, -⟩
  obtain ⟨result, ran, same⟩ := Prog.evaluate_discard.mp ran
  cases result with
  | error e => cases same
  | ok claim =>
    obtain ⟨lock, s₀, s₂, locked, ⟨_, ⟨⟩, -⟩ | ⟨prepared, s₁, intended, tail⟩, -⟩ :=
      coordinator_evaluate.1 ran
    obtain ⟨jobs, generation, -⟩ := slot_world locked
    obtain ⟨-, -, ⟨⟨_, ⟨⟩⟩, -⟩ | ⟨last, ⟨⟩, ⟨-, kept⟩ | prepares⟩⟩ := coordinatorIntent_outcome intended
    · refine coordinatorTail_unpinned (?_ : s₁.world.jobs.find? (D.requestId job) = some row) ?_ tail
      · rw [kept, jobs]
        exact found
      · rw [generation]
        exact stale
    · have absent := prepares.absent
      rw [jobs, found] at absent
      cases absent

theorem coordinator_stale (bounded : PinsBounded s.world) (grown : s.world.generation ≤ s'.world.generation) (before :
    s.world.jobs.find? (D.requestId job) = some row) (found : s'.world.jobs.find? (D.requestId job) = some row) :
    ¬ (Admission.coordinator C job episodeId experiment).Admits D later laterPid (withLedger s' ledger) := by
  refine coordinator_not_admits (t := withLedger s' ledger) found fun pinned => ?_
  have old := bounded.rows row (find?_eq_some.mp before).1 _ pinned
  exact absurd (old.trans grown) (not_succ_le_self _)

theorem coordinator_harmless (bounded : PinsBounded s.world) (failed : ((Admission.coordinator
    C job episodeId experiment).call D).evaluate oracles pid s = some (.error error, s'))
    (acceptable : Acceptable (.coordinator C job episodeId experiment) later laterPid (withLedger s' ledger)) :
    (Uncharged D s.world.jobs s'.world.jobs ∧ (Admission.coordinator C job episodeId experiment).Admits D
    later laterPid (withLedger s' ledger)) ↔ RefusedFirst (.coordinator C job episodeId experiment) oracles pid s := by
  obtain ⟨result, failed, same⟩ := Prog.evaluate_discard.mp failed
  cases result with
  | ok claim => cases same
  | error e =>
    cases same
    obtain ⟨grown, ⟨refused, same⟩ | ⟨prepared, s₁, intended, left⟩⟩ := coordinator_failed failed
    · cases found : s.world.jobs.find? (D.requestId job) with
      | none =>
        refine iff_of_true ⟨same ▸ .refl _, coordinator_admits acceptable ?_⟩ ⟨found, refused⟩
        exact (congrArg (fun jobs : Jobs => jobs.find? (D.requestId job)) same).trans found
      | some row =>
        refine iff_of_false (fun harmless => ?_) fun first => ?_
        · exact coordinator_stale bounded grown found (same ▸ found) harmless.2
        · cases first.1.symm.trans found
    · refine iff_of_false (fun harmless => ?_) fun first => ?_
      · rcases left with ⟨found, same⟩ | prepares
        · exact coordinator_stale bounded grown found (same ▸ found) harmless.2
        · exact prepares.not_uncharged harmless.1
      · obtain ⟨-, _, _, refused⟩ := first
        cases intended.symm.trans refused

/-! ### The runner -/

variable {E : Instance}

theorem only_ledger (generation : ℕ) (op : StandingBudget.Op) : (Program.ledger op).Only (Closing generation) :=
  ⟨.inr (.inl ⟨op, rfl⟩), fun _ => .ofExcept _⟩

theorem only_markUnknownIfReserved (requestId : String) : (markUnknownIfReserved requestId).Only (Closing 0) := by
  refine (only_ledger 0 _).attempt.bind fun answer => ?_
  cases answer with
  | ok claim => exact (only_ledger 0 _).bind fun _ => trivial
  | error error => trivial

theorem completeOneAdmission_failed (failed : (completeOneAdmission D E job episodeId).evaluate
    oracles pid s = some (.error error, s')) : s.world.jobs.find? (D.requestId job)
    = none ∧ ∃ e s₂, s'.world.jobs = s₂.world.jobs ∧ (runnerAdmission D E job episodeId).evaluate oracles pid ⟨s.world,
    ⟨pid, .inspect (D.requestId job), s.world.jobs.find? (D.requestId job)⟩ :: s.trace⟩ = some (.error e, s₂) := by
  rcases Prog.evaluate_bind_eq_some.mp failed with ⟨receipt, s₁, inspected, ran⟩ | ⟨_, ⟨⟩, -⟩
  cases inspected
  cases found : s.world.jobs.find? (D.requestId job) with
  | some row =>
    rw [found] at ran
    cases ran
  | none =>
    rw [found] at ran
    rcases Prog.evaluate_bind_eq_some.mp ran with ⟨outcome, s₂, attempted, ran⟩ | ⟨_, attempted, -⟩
    · have attempted := Prog.evaluate_attempt_eq_ok.mp attempted
      cases outcome with
      | ok claim => cases ran
      | error e =>
        refine ⟨rfl, e, s₂, ?_, attempted⟩
        have only : ((markUnknownIfReserved (D.requestId job)).bind fun _ =>
            (Prog.raise e : Program Unit)).Only (Closing 0) :=
          (only_markUnknownIfReserved _).bind fun _ => trivial
        exact (Closing.kept only le_rfl (zero_le _) ran).1
    · obtain ⟨_, same, -⟩ := Prog.evaluate_attempt_eq_some.mp attempted
      cases same

theorem runner_admits (acceptable : Acceptable (.runner E job episodeId) later laterPid t) (fresh :
    t.world.jobs.find? (D.requestId job) = none) : (Admission.runner E job episodeId).Admits D later laterPid t := by
  obtain ⟨⟨claim, s', reserved⟩, absent, clock⟩ := acceptable
  obtain ⟨prepared, s₁, intended, reserved⟩ := Prog.evaluate_bind_eq_ok.mp reserved
  obtain ⟨month, s₂, asked, applied⟩ := Prog.evaluate_bind_eq_ok.mp reserved
  obtain ⟨_, s₀, inspected, intended⟩ := Prog.evaluate_bind_eq_ok.mp intended
  obtain ⟨row, _, preparedRow, ended⟩ := Prog.evaluate_bind_eq_ok.mp intended
  cases inspected
  cases ended
  have ran : (runnerAdmission D E job episodeId).evaluate later laterPid
      ⟨t.world, ⟨laterPid, .inspect (D.requestId job), t.world.jobs.find? (D.requestId job)⟩ :: t.trace⟩ =
        some (.ok claim, s') :=
    Prog.evaluate_bind_eq_ok.mpr ⟨row, s₁, preparedRow, Prog.evaluate_bind_eq_ok.mpr ⟨month, s₂, asked, applied⟩⟩
  refine ⟨s', Prog.evaluate_bind_eq_ok.mpr ⟨_, _, rfl, ?_⟩, ?_⟩
  · rw [fresh] at ran ⊢
    exact Prog.evaluate_bind_eq_ok.mpr ⟨_, s', Prog.evaluate_attempt_eq_ok.mpr ran, rfl⟩
  · obtain ⟨after, reserves, rfl⟩ := evaluate_ledger.mp applied
    rcases reserve_ok reserves with ⟨found, same⟩ | ⟨-, -, cap, recorded, -, -, -, rfl, rfl⟩
    · show after.claims.find? (D.requestId job) ≠ none
      rw [same]
      exact fun none => by cases none.symm.trans found
    · exact fun none => by cases none.symm.trans (find?_put_self _ _)

theorem runner_harmless (failed : ((Admission.runner E job episodeId).call D).evaluate oracles pid s =
    some (.error error, s')) (acceptable : Acceptable (.runner E job episodeId) later laterPid (withLedger s' ledger)) :
    (Uncharged D s.world.jobs s'.world.jobs ∧ (Admission.runner E job episodeId).Admits
    D later laterPid (withLedger s' ledger)) ↔ RefusedFirst (.runner E job episodeId) oracles pid s := by
  obtain ⟨fresh, e, s₂, same, ran⟩ := completeOneAdmission_failed failed
  rcases Prog.evaluate_bind_eq_some.mp ran with ⟨row, s₁, prepared, rest⟩ | ⟨_, refused, -⟩
  · have only : ((Program.ask .month).bind fun month => Program.ledger (.reserve none month
        ((Admission.runner E job episodeId).reserveArgs D (none, row)))).Only (Closing 0) :=
      ((only_ask _).mono fun _ => .inl).bind fun _ => only_ledger 0 _
    have kept := (Closing.kept only le_rfl (zero_le _) rest).1
    rcases prepareIntent_outcome (.inl rfl) prepared with ⟨⟨_, ⟨⟩⟩, -⟩ | ⟨_, ⟨⟩, ⟨found, -⟩ | ⟨prepares, -⟩⟩
    · cases fresh.symm.trans found
    · rw [← kept, ← same] at prepares
      refine iff_of_false (fun harmless => prepares.not_uncharged harmless.1) fun first => ?_
      obtain ⟨-, _, _, refused⟩ := first
      rcases Prog.evaluate_bind_eq_some.mp refused with ⟨_, _, ⟨⟩, again⟩ | ⟨_, ⟨⟩, -⟩
      rcases Prog.evaluate_bind_eq_some.mp again with ⟨_, _, -, ⟨⟩⟩ | ⟨_, failed, -⟩
      cases prepared.symm.trans failed
  · have refuses : ∃ error s₃, ((Admission.runner E job episodeId).intent D).evaluate
        oracles pid s = some (.error error, s₃) :=
      ⟨_, s₂, Prog.evaluate_bind_eq_some.mpr (.inl ⟨_, _, rfl,
        Prog.evaluate_bind_eq_some.mpr (.inr ⟨_, refused, rfl⟩)⟩)⟩
    rcases prepareIntent_outcome (.inl rfl) refused with ⟨-, unchanged⟩ | ⟨_, ⟨⟩, -⟩
    have same : s'.world.jobs = s.world.jobs := by rw [same, unchanged]
    refine iff_of_true ⟨same ▸ .refl _, runner_admits acceptable ?_⟩ ⟨fresh, refuses⟩
    exact (congrArg (fun jobs : Jobs => jobs.find? (D.requestId job)) same).trans fresh

end Harmless

/-- A failed admission has charged nothing and can be repeated, as soon as both stores accept the job,
exactly if `prepare_intent` refused it before it had a row. -/
theorem failed_admission_harmless_iff {kinds : Set Call} {c : Config (machine D) Error} (reaches :
    Reaches (callsIn D kinds) anyStep (freshRoot D) c) {A : Admission} {error : Error} (failed : (A.call D).evaluate
    oracles pid c.toShared = some (.error error, s')) {later : ℕ → Oracle} {laterPid : ℕ} {ledger :
    StandingBudget.Ledger} (acceptable : Acceptable A later laterPid (withLedger s' ledger)) : (Uncharged D c.world.jobs
    s'.world.jobs ∧ A.Admits D later laterPid (withLedger s' ledger)) ↔ RefusedFirst A oracles pid c.toShared := by
  cases A with
  | coordinator C job episodeId experiment =>
    exact coordinator_harmless (pinsBounded_of_reaches reaches) failed acceptable
  | runner E job episodeId => exact runner_harmless failed acceptable

/-! ## A refusal of the bridge, and one of the ledger -/

def sampleAdmission : Admission := .coordinator sampleCoordinator sampleFal "episode-1" false

def raisedThenAcceptable {D : Deployment} (oracle : Oracle) (outcome : Result Unit × Shared (machine D)) : Bool :=
  outcome.1.toOption.isNone &&
    ((sampleAdmission.reservation D).evaluate (fun _ => oracle) 8 (withLedger outcome.2 .empty)).any
      fun reserved => reserved.1.toOption.isSome

theorem raisedThenAcceptable_spec {D : Deployment} {oracle : Oracle} {outcome : Result Unit × Shared (machine D)}
    (clock : oracle.answer .clock ≠ none) (holds : raisedThenAcceptable oracle outcome = true) : (∃ error,
    outcome.1 = .error error) ∧ Acceptable sampleAdmission (fun _ => oracle) 8 (withLedger outcome.2 .empty) := by
  simp only [raisedThenAcceptable, Bool.and_eq_true, any_eq_true] at holds
  obtain ⟨raised, ⟨⟨result, s'⟩, reserved, accepted⟩⟩ := holds
  refine ⟨?_, ?_, rfl, fun _ => clock⟩
  · cases first : outcome.1 with
    | ok u =>
      rw [first] at raised
      cases raised
    | error error => exact ⟨error, rfl⟩
  · cases result with
    | ok claim => exact ⟨claim, s', reserved⟩
    | error error => cases accepted

theorem refusal_of_bridge_harmless : ∃ s' error, (sampleAdmission.call sampleBridged).evaluate
    (fun _ => sampleOracle none (sampleProvider 1)) 7 (freshRoot sampleBridged).toShared =
    some (.error error, s') ∧ Uncharged sampleBridged (freshRoot sampleBridged).world.jobs s'.world.jobs ∧
    sampleAdmission.Admits sampleBridged (fun _ => sampleBridgeOracle) 8 (withLedger s' .empty) := by
  have passed : ((sampleAdmission.call sampleBridged).evaluate
      (fun _ => sampleOracle none (sampleProvider 1)) 7 (freshRoot sampleBridged).toShared).any
        (raisedThenAcceptable sampleBridgeOracle) = true := by
    decide +kernel
  have refused : ((sampleAdmission.intent sampleBridged).evaluate
      (fun _ => sampleOracle none (sampleProvider 1)) 7 (freshRoot sampleBridged).toShared).any
        (fun outcome => outcome.1.toOption.isNone) = true := by
    decide
  obtain ⟨⟨_, s'⟩, ran, holds⟩ := (any_eq_true _ _).mp passed
  obtain ⟨⟨result, s₁⟩, intended, raised⟩ := (any_eq_true _ _).mp refused
  obtain ⟨⟨error, rfl⟩, acceptable⟩ :=
    raisedThenAcceptable_spec (fun none => by cases none) holds
  have started : Reaches (callsIn sampleBridged Set.univ) anyStep (freshRoot sampleBridged)
      (freshRoot sampleBridged) := .refl
  refine ⟨s', error, ran, (failed_admission_harmless_iff started ran acceptable).mpr ⟨rfl, ?_⟩⟩
  cases result with
  | ok prepared => cases raised
  | error error => exact ⟨error, s₁, intended⟩

def sampleExhausting : StandingBudget.Op := .reserve none (.ok "2026-07")
  { requestId := "request-1", episodeId := "episode-1", provider := "fal-ai/flux",
    quotedCapUsd := .finite false 45 (-1), settlementMode := .falReadbackV2, authScope := "scope" }

theorem refusal_of_ledger_charges :
    ∃ c s', Reaches (callsIn (sampleDeployment 6) Set.univ) anyStep (freshRoot (sampleDeployment 6)) c ∧
      (sampleAdmission.call (sampleDeployment 6)).evaluate (fun _ => sampleOracle none (sampleProvider 1)) 7
        c.toShared = some (.error (.denied "episode budget exhausted"), s') ∧
      ¬ Uncharged (sampleDeployment 6) c.world.jobs s'.world.jobs ∧
      Acceptable sampleAdmission (fun _ => sampleOracle none (sampleProvider 1)) 8 (withLedger s' .empty) ∧
      ¬ sampleAdmission.Admits (sampleDeployment 6) (fun _ => sampleOracle none (sampleProvider 1)) 8
        (withLedger s' .empty) := by
  have passed : (after (sampleDeployment 6) anyStep (freshRoot _)
      [⟨.ledger sampleExhausting, sampleOracle none (sampleProvider 1), 2, false⟩]).any (fun c =>
        ((sampleAdmission.call (sampleDeployment 6)).evaluate (fun _ => sampleOracle none (sampleProvider 1)) 7
          c.toShared).any fun outcome =>
            decide (outcome.1 = .error (.denied "episode budget exhausted")) &&
            decide (spent (sampleDeployment 6) outcome.2.world.jobs .test ≠
              spent (sampleDeployment 6) c.world.jobs .test) &&
            raisedThenAcceptable (sampleOracle none (sampleProvider 1)) outcome &&
            ((sampleAdmission.call (sampleDeployment 6)).evaluate (fun _ => sampleOracle none (sampleProvider 1))
              8 (withLedger outcome.2 .empty)).all fun later => later.1.toOption.isNone) = true := by
    decide +kernel
  obtain ⟨c, reached, holds⟩ :=
    exists_reaches_of_after _ anyStep Set.univ (fun _ _ => trivial) passed
  simp only [any_eq_true, Bool.and_eq_true, decide_eq_true_eq, all_eq_true] at holds
  obtain ⟨⟨result, s'⟩, ran, ⟨⟨refused, charged⟩, acceptable⟩, never⟩ := holds
  obtain ⟨-, acceptable⟩ := raisedThenAcceptable_spec (fun none => by cases none) acceptable
  obtain rfl : result = .error (.denied "episode budget exhausted") := refused
  refine ⟨c, s', reached, ran, fun same => charged (same.charged .test), acceptable, ?_⟩
  rintro ⟨last, admitted, -⟩
  have raised := never _ admitted
  cases raised

end VideoPoster.Billing
