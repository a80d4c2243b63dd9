import VideoPoster.Executor.Run
import VideoPoster.StandingBudget.Steps

/-!
# What one action can do

One inversion lemma for each transaction, and summaries of what any action can do to the receipts,
the locks, the ledger and the snapshot file, from which every invariant is derived.
-/

namespace VideoPoster.Executor
open Python Billing Tables Interleaving Option Prod Function

variable {D : Deployment} {jobs jobs' : Jobs} {files : Files}

structure Admitted (D : Deployment) (files : Files) (jobs : Jobs) (r : Reservation) : Prop where
  absent : jobs.find? (D.requestId r.job) = none
  thawed : ∀ row ∈ inMode jobs r.job.mode, row.status ≠ .overrun
  single : r.job.category ∈ [Category.first, .hero] →
    ∀ row ∈ inMode jobs r.job.mode, ¬ (row.scene = r.job.scene ∧ row.category = r.job.category)
  lineage : admitLineage files jobs r.job = .ok ()
  capacity : ∃ capacity, r.job.category.capacity = .ok capacity ∧
    (inMode jobs r.job.mode).countP (fun row => row.category = r.job.category) < capacity
  budget : spent D jobs r.job.mode + r.cost ≤ D.limit

theorem reserveRow_ok {r : Reservation} {fresh : Bool} (reserved : reserveRow D files r jobs = .ok (jobs', fresh)) :
    fresh = false ∧ jobs' = jobs ∧ (jobs.find? (D.requestId r.job)).isSome ∨
    fresh = true ∧ Admitted D files jobs r ∧ jobs' = jobs.put (r.row D) := by
  unfold reserveRow at reserved
  split at reserved
  · rename_i found
    simp only [pure_eq_ok, mk.injEq] at reserved
    exact .inl ⟨reserved.2.symm, reserved.1.symm, by simp [found]⟩
  · rename_i absent
    simp only [bind_eq_ok, require_eq_ok, exists_const, pure_eq_ok, mk.injEq] at reserved
    obtain ⟨thawed, capacity, known, single, ⟨⟩, lineage, room, ⟨budget, -⟩, rfl, rfl⟩ := reserved
    exact .inr ⟨rfl, ⟨absent, thawed, single, lineage, ⟨capacity, known, room⟩, budget⟩, rfl⟩

variable {context : Option ℕ}

theorem changeRow_ok {E : Instance} {given : Option (Option Capability)} {requestId : String} {update : Update}
    (changed : changeRow E context given requestId update jobs = .ok jobs') : ∃ row, jobs.find? requestId =
    some row ∧ guardPinned E context given row = .ok () ∧ jobs' = jobs.put (update.apply row) := by
  unfold changeRow at changed
  split at changed
  · cases changed
  · rename_i row found
    simp only [bind_eq_ok, pure_eq_ok] at changed
    obtain ⟨⟨⟩, guarded, rfl⟩ := changed
    exact ⟨row, found, guarded, rfl⟩

def Row.bound (D : Deployment) (row : Row) (providerId partialPath : String)
    (generation : Option ℕ) : Row :=
  { row with
    settlementBinding := { row.settlementBinding with providerRequestId := providerId }
    providerId := providerId
    status := .submitted
    generation := generation.or row.generation
    partialPath := if partialPath = "" then row.partialPath else D.resolve partialPath }

theorem checkpointProviderBinding_ok {generation : Option ℕ} {requestId providerId partialPath : String}
    (bound : checkpointProviderBinding D context requestId providerId partialPath generation jobs = .ok jobs') :
    ∃ row, jobs.find? requestId = some row ∧ (row.generation = none ∨ generation ≠ none) ∧
      (generation = none ∨ context = generation) ∧
      (jobs' = jobs ∨ row.settlementBinding.providerRequestId = unassigned ∧ row.providerId = "" ∧
        jobs' = jobs.put (row.bound D providerId partialPath generation)) := by
  simp only [checkpointProviderBinding, bind_eq_ok, require_eq_ok, exists_const, requireCoordinatorWrite_eq_ok] at bound
  obtain ⟨-, -, writer, bound⟩ := bound
  split at bound
  · cases bound
  · rename_i row found
    simp only [bind_eq_ok, require_eq_ok, exists_const] at bound
    obtain ⟨pin, -, bound⟩ := bound
    refine ⟨row, found, pin, writer, ?_⟩
    split at bound
    · simp only [pure_eq_ok] at bound
      exact .inl bound.symm
    · simp only [bind_eq_ok, require_eq_ok, exists_const, pure_eq_ok] at bound
      obtain ⟨⟨free, unknown⟩, rfl⟩ := bound
      exact .inr ⟨free, unknown, rfl⟩

variable {generation : ℕ}

theorem setBillingSnapshotGeneration_ok {requestId : String}
    (pinned : setBillingSnapshotGeneration context requestId generation jobs = .ok jobs') : ∃ row, jobs.find?
    requestId = some row ∧ context = some generation ∧ jobs' = jobs.put { row with generation := some generation } := by
  simp only [setBillingSnapshotGeneration, bind_eq_ok, require_eq_ok, exists_const,
    requireCoordinatorWrite_eq_ok] at pinned
  obtain ⟨-, writer, pinned⟩ := pinned
  split at pinned
  · cases pinned
  · rename_i row found
    simp only [pure_eq_ok] at pinned
    exact ⟨row, found, by simpa using writer, pinned.symm⟩

theorem bindAdmission_ok {requestId : String} {binding : SettlementBinding} {admission : LedgerAdmission}
    (bound : bindAdmission requestId binding admission jobs = .ok jobs') : ∃ row, jobs.find? requestId =
    some row ∧ row.status = .prepared ∧ jobs' = jobs.put { row with standingLedgerAdmission := some admission } := by
  unfold bindAdmission at bound
  split at bound
  · cases bound
  · rename_i row found
    simp only [bind_eq_ok, require_eq_ok, exists_const, pure_eq_ok] at bound
    obtain ⟨prepared, -, -, rfl⟩ := bound
    exact ⟨row, found, prepared, rfl⟩

theorem qaRow_ok {args : QaArgs} (reviewed : qaRow files context args jobs = .ok jobs') :
    jobs' = jobs ∨ ∃ row review, jobs.find? args.requestId = some row ∧ row.review = none ∧
      row.status = .complete ∧ jobs' = jobs.put { row with review := some review } := by
  simp only [qaRow, bind_eq_ok] at reviewed
  obtain ⟨review, -, reviewed⟩ := reviewed
  split at reviewed
  · cases reviewed
  · rename_i row found
    simp only [bind_eq_ok, require_eq_ok, exists_const] at reviewed
    obtain ⟨-, -, ⟨complete, -⟩, -, -, reviewed⟩ := reviewed
    split at reviewed
    · simp only [bind_eq_ok, require_eq_ok, exists_const, pure_eq_ok] at reviewed
      exact .inl reviewed.2.symm
    · rename_i fresh
      simp only [pure_eq_ok] at reviewed
      exact .inr ⟨row, review, found, fresh, complete, reviewed.symm⟩

inductive RowUpdate (D : Deployment) : Act → Row → Row → Prop
  | changed {E : Instance} {context : Option ℕ} {given : Option (Option Capability)}
      {requestId : String} {update : Update} {row : Row}
      (guarded : guardPinned E context given row = .ok ()) :
      RowUpdate D (.change E context given requestId update) row (update.apply row)
  | bound {context generation : Option ℕ} {requestId providerId partialPath : String} {row : Row}
      (pin : row.generation = none ∨ generation ≠ none)
      (writer : generation = none ∨ context = generation)
      (free : row.settlementBinding.providerRequestId = unassigned) (unknown : row.providerId = "") :
      RowUpdate D (.bindProvider context requestId providerId partialPath generation) row
        (row.bound D providerId partialPath generation)
  | pinned {context : Option ℕ} {requestId : String} {generation : ℕ} {row : Row}
      (writer : context = some generation) :
      RowUpdate D (.pinGeneration context requestId generation) row
        { row with generation := some generation }
  | admitted {requestId : String} {binding : SettlementBinding} {admission : LedgerAdmission}
      {row : Row} (prepared : row.status = .prepared) :
      RowUpdate D (.bindAdmission requestId binding admission) row
        { row with standingLedgerAdmission := some admission }
  | reviewed {context : Option ℕ} {args : QaArgs} {review : Review} {row : Row}
      (fresh : row.review = none) (complete : row.status = .complete) :
      RowUpdate D (.qa context args) row { row with review := some review }

def Act.target (D : Deployment) : Act → Option String
  | .reserve r => some (D.requestId r.job)
  | .change _ _ _ requestId _ => some requestId
  | .bindProvider _ requestId _ _ _ => some requestId
  | .pinGeneration _ requestId _ => some requestId
  | .bindAdmission requestId _ _ => some requestId
  | .qa _ args => some args.requestId
  | _ => none

def Act.Commits : (action : Act) → action.Res → Prop
  | .reserve _, .ok true => True
  | .change _ _ _ _ _, .ok () => True
  | _, _ => False

def Act.Succeeds : (action : Act) → action.Res → Prop
  | .change _ _ _ _ _, .error _ => False
  | _, _ => True

inductive JobsChange (D : Deployment) (jobs : Jobs) : (action : Act) → action.Res → Jobs → Prop
  | same {action : Act} {response : action.Res} (calm : ¬ action.Commits response) :
      JobsChange D jobs action response jobs
  | inserted {r : Reservation} {files : Files} (admitted : Admitted D files jobs r) :
      JobsChange D jobs (.reserve r) (.ok true) (jobs.put (r.row D))
  | updated {action : Act} {response : action.Res} {row new : Row} {requestId : String}
      (succeeds : action.Succeeds response) (target : action.target D = some requestId)
      (found : jobs.find? requestId = some row) (update : RowUpdate D action row new) :
      JobsChange D jobs action response (jobs.put new)

variable {row new : Row}

theorem RowUpdate.requestId {action : Act} (update : RowUpdate D action row new) : new.requestId = row.requestId := by
  cases update with
  | @changed E context given requestId update row guarded => cases update <;> rfl
  | bound | pinned | admitted | reviewed => rfl

theorem RowUpdate.request {action : Act} (update : RowUpdate D action row new) : new.request = row.request := by
  cases update with
  | @changed E context given requestId update row guarded => cases update <;> rfl
  | bound | pinned | admitted | reviewed => rfl

variable {s s' : Shared (machine D)} {pid : ℕ} {action : Act} {response : action.Res}

variable {w w' : World}

private theorem jobs_of_commit {result : Result Jobs} {response : Result Unit} (committed : w.commit result =
    (w', response)) : result = .ok w'.jobs ∧ response = .ok () ∨ w' = w ∧ ∃ error, response = .error error := by
  cases result with
  | ok jobs =>
    cases committed
    exact .inl ⟨rfl, rfl⟩
  | error error =>
    cases committed
    exact .inr ⟨rfl, error, rfl⟩

variable {oracle : Oracle}

theorem exec_jobs (executed : exec D oracle pid w action = some (w', response)) :
    JobsChange D w.jobs action response w'.jobs := by
  cases action with
  | called | ask | inspect | ledger | readGeneration | publish | submit | recover | recoverLocal
  | release =>
    simp only [exec, some.injEq, mk.injEq] at executed
    obtain ⟨rfl, -⟩ := executed
    exact .same (by simp [Act.Commits])
  | slot paths =>
    simp only [exec, map_eq_some_iff, mk.injEq] at executed
    obtain ⟨lock, -, rfl, -⟩ := executed
    exact .same (by simp [Act.Commits])
  | reserve r =>
    simp only [exec, some.injEq] at executed
    cases reserved : reserveRow D (fun path => oracle.answer (.fileSha path)) r w.jobs with
    | error error =>
      simp only [reserved, World.commitReserve, mk.injEq] at executed
      obtain ⟨rfl, rfl⟩ := executed
      exact .same (by simp [Act.Commits])
    | ok outcome =>
      obtain ⟨after, fresh⟩ := outcome
      simp only [reserved, World.commitReserve, mk.injEq] at executed
      obtain ⟨rfl, rfl⟩ := executed
      rcases reserveRow_ok reserved with ⟨rfl, rfl, -⟩ | ⟨rfl, admitted, rfl⟩
      · exact .same (by simp [Act.Commits])
      · exact .inserted admitted
  | change E context given requestId update =>
    simp only [exec, some.injEq] at executed
    rcases jobs_of_commit executed with ⟨changed, rfl⟩ | ⟨rfl, error, rfl⟩
    · obtain ⟨row, found, guarded, put⟩ := changeRow_ok changed
      rw [put]
      exact .updated trivial rfl found (.changed guarded)
    · exact .same (by simp [Act.Commits])
  | bindProvider context requestId providerId partialPath generation =>
    simp only [exec, some.injEq] at executed
    rcases jobs_of_commit executed with ⟨changed, rfl⟩ | ⟨rfl, error, rfl⟩
    · obtain ⟨row, found, pin, writer, same | ⟨free, unknown, put⟩⟩ :=
        checkpointProviderBinding_ok changed
      · rw [same]
        exact .same (by simp [Act.Commits])
      · rw [put]
        exact .updated trivial rfl found (.bound pin writer free unknown)
    · exact .same (by simp [Act.Commits])
  | pinGeneration context requestId generation =>
    simp only [exec, some.injEq] at executed
    rcases jobs_of_commit executed with ⟨changed, rfl⟩ | ⟨rfl, error, rfl⟩
    · obtain ⟨row, found, writer, put⟩ := setBillingSnapshotGeneration_ok changed
      rw [put]
      exact .updated trivial rfl found (.pinned writer)
    · exact .same (by simp [Act.Commits])
  | bindAdmission requestId binding admission =>
    simp only [exec, some.injEq] at executed
    rcases jobs_of_commit executed with ⟨changed, rfl⟩ | ⟨rfl, error, rfl⟩
    · obtain ⟨row, found, prepared, put⟩ := bindAdmission_ok changed
      rw [put]
      exact .updated trivial rfl found (.admitted prepared)
    · exact .same (by simp [Act.Commits])
  | qa context args =>
    simp only [exec, some.injEq] at executed
    rcases jobs_of_commit executed with ⟨changed, rfl⟩ | ⟨rfl, error, rfl⟩
    · rcases qaRow_ok changed with same | ⟨row, review, found, fresh, complete, put⟩
      · rw [same]
        exact .same (by simp [Act.Commits])
      · rw [put]
        exact .updated trivial rfl found (.reviewed fresh complete)
    · exact .same (by simp [Act.Commits])

theorem performs_exec (performs : Performs pid action response s s') :
    ∃ oracle : Oracle, exec D oracle pid s.world action = some (s'.world, response) := by
  obtain ⟨oracle, executed, -⟩ := performs
  exact ⟨oracle, executed⟩

theorem performs_jobs (performs : Performs pid action response s s') :
    JobsChange D s.world.jobs action response s'.world.jobs := by
  obtain ⟨oracle, executed⟩ := performs_exec performs
  exact exec_jobs executed

section Rows
variable {jobs jobs' : Jobs} {requestId : String} {row : Row}

variable (change : JobsChange D jobs action response jobs')
include change

theorem JobsChange.found (found : jobs.find? requestId = some row) : ∃ new,
    jobs'.find? requestId = some new ∧ (new = row ∨ action.target D = some requestId ∧ RowUpdate D action row new) := by
  cases change with
  | same => exact ⟨row, found, .inl rfl⟩
  | @inserted r files admitted =>
    refine ⟨row, ?_, .inl rfl⟩
    rw [Table.find?_put_of_ne]
    · exact found
    · rintro rfl
      cases found.symm.trans admitted.absent
  | @updated _ _ old new target succeeds targeted oldFound update =>
    obtain ⟨-, key⟩ := Table.find?_eq_some.mp oldFound
    by_cases same : requestId = new.requestId
    · refine ⟨new, same ▸ Table.find?_put_self _ _, .inr ?_⟩
      rw [update.requestId, key] at same
      rw [same, oldFound] at found
      obtain rfl := some.inj found
      exact ⟨same ▸ targeted, update⟩
    · exact ⟨row, (Table.find?_put_of_ne _ same).trans found, .inl rfl⟩

theorem JobsChange.forall {P : Row → Prop} (inserts : ∀ r, action = .reserve r → P (r.row D)) (updates :
    ∀ {old new}, RowUpdate D action old new → P old → P new) (before : ∀ row ∈ jobs, P row) : ∀ row ∈ jobs', P row := by
  cases change with
  | same => exact before
  | @inserted r files admitted =>
    intro row member
    rcases Table.mem_put.mp member with rfl | ⟨old, -⟩
    · exact inserts r rfl
    · exact before row old
  | updated succeeds target found update =>
    intro row member
    rcases Table.mem_put.mp member with rfl | ⟨old, -⟩
    · exact updates update (before _ (Table.find?_eq_some.mp found).1)
    · exact before row old

end Rows

theorem rows_of_reaches {kinds : Set Call} {allowed : Condition (machine D)} {c : Config (machine D) Error} {P :
    Row → Prop} (inserts : ∀ r : Reservation, P (r.row D)) (updates : ∀ {action old new}, RowUpdate D action old new →
    P old → P new) (reaches : Reaches (callsIn D kinds) allowed (freshRoot D) c) : ∀ row ∈ c.world.jobs, P row := by
  refine Reaches.invariant (K := fun s : Shared (machine D) => ∀ row ∈ s.world.jobs, P row)
    ?_ (fun _ => id) ?_ reaches
  · intro pid action response s s' kept performs
    exact (performs_jobs performs).forall (fun r _ => inserts r) updates kept
  · intro row member
    cases member

structure Surroundings (D : Deployment) (pid : ℕ) (action : Act) (w w' : World) : Prop where
  locks : ∀ lock, w'.locks lock = w.locks lock ∨ action = .release lock ∨
    w.locks lock = none ∧ w'.locks lock = some pid
  snapshot : w'.snapshot = w.snapshot ∨
    ∃ snapshot, action = .publish snapshot ∧ w'.snapshot = some snapshot
  ledger : w'.ledger = w.ledger ∨
    ∃ op, action = .ledger op ∧ (w.ledger.step D.policy op).1 = w'.ledger

theorem Surroundings.refl (locks : w'.locks = w.locks)
    (snapshot : w'.snapshot = w.snapshot) (ledger : w'.ledger = w.ledger) : Surroundings D pid action w w' :=
  ⟨fun lock => .inl (congrFun locks lock), .inl snapshot, .inl ledger⟩

theorem exec_surroundings (executed : exec D oracle pid w action = some (w', response)) :
    Surroundings D pid action w w' := by
  cases action with
  | called | ask | inspect | readGeneration | submit | recover | recoverLocal =>
    simp only [exec, some.injEq, mk.injEq] at executed
    obtain ⟨rfl, -⟩ := executed
    exact .refl rfl rfl rfl
  | ledger op =>
    simp only [exec, some.injEq, mk.injEq] at executed
    obtain ⟨rfl, -⟩ := executed
    exact ⟨fun _ => .inl rfl, .inl rfl, .inr ⟨op, rfl, rfl⟩⟩
  | publish snapshot =>
    simp only [exec, some.injEq, mk.injEq] at executed
    obtain ⟨rfl, -⟩ := executed
    exact ⟨fun _ => .inl rfl, .inr ⟨snapshot, rfl, rfl⟩, .inl rfl⟩
  | release released =>
    simp only [exec, some.injEq, mk.injEq] at executed
    obtain ⟨rfl, -⟩ := executed
    refine ⟨fun lock => ?_, .inl rfl, .inl rfl⟩
    by_cases same : lock = released
    · exact .inr (.inl (by rw [same]))
    · exact .inl (update_of_ne same _ _)
  | slot paths =>
    simp only [exec, map_eq_some_iff, mk.injEq] at executed
    obtain ⟨taken, found, rfl, -⟩ := executed
    refine ⟨fun lock => ?_, .inl rfl, .inl rfl⟩
    by_cases same : lock = taken
    · subst same
      exact .inr (.inr ⟨by simpa using List.find?_some found, update_self _ _ _⟩)
    · exact .inl (update_of_ne same _ _)
  | reserve r =>
    simp only [exec, some.injEq] at executed
    unfold World.commitReserve at executed
    split at executed <;> cases executed <;> exact .refl rfl rfl rfl
  | change | bindProvider | pinGeneration | bindAdmission | qa =>
    simp only [exec, some.injEq] at executed
    unfold World.commit at executed
    split at executed <;> cases executed <;> exact .refl rfl rfl rfl

variable {paths : List LockId} {lock : LockId}

theorem exec_slot (executed : exec D oracle pid w (.slot paths) = some (w', lock)) :
    lock ∈ paths ∧ w'.locks lock = some pid := by
  simp only [exec, map_eq_some_iff, mk.injEq] at executed
  obtain ⟨taken, found, rfl, rfl⟩ := executed
  exact ⟨List.mem_of_find?_eq_some found, update_self _ _ _⟩

theorem exec_inspect {requestId : String} {found : Option Row}
    (executed : exec D oracle pid w (.inspect requestId) = some (w', found)) : w'.jobs.find? requestId = found := by
  simp only [exec, some.injEq, mk.injEq] at executed
  obtain ⟨rfl, rfl⟩ := executed
  rfl

theorem exec_readGeneration (executed : exec D oracle pid w .readGeneration = some (w', generation)) :
    w'.generation = generation := by
  simp only [exec, some.injEq, mk.injEq] at executed
  obtain ⟨rfl, rfl⟩ := executed
  rfl

variable {claim : StandingBudget.Claim}

theorem exec_claim {requestId : String} (executed : exec D oracle pid w (.ledger (.claim requestId))
    = some (w', .ok claim)) : w'.ledger.claims.find? requestId = some claim := by
  simp only [exec, some.injEq, mk.injEq] at executed
  obtain ⟨rfl, answered⟩ := executed
  simp only [StandingBudget.Ledger.step] at answered ⊢
  split at answered
  · rename_i after result applied
    cases answered
    obtain ⟨found, rfl⟩ := StandingBudget.claim_ok applied
    exact found
  · cases answered

variable {snapshot : Snapshot}

theorem exec_publish {response : Unit} (executed : exec D oracle pid w (.publish snapshot) = some (w', response))
    : w' = { w with snapshot := some snapshot } := by
  simp only [exec, some.injEq, mk.injEq] at executed
  exact executed.1.symm

theorem performs_trace (performs : Performs pid action response s s') :
    s'.trace = ⟨pid, action, response⟩ :: s.trace := by
  obtain ⟨oracle, -, extended⟩ := performs
  exact extended

theorem performs_surroundings (performs : Performs (M := machine D) pid action response s s') :
    Surroundings D pid action s.world s'.world := by
  obtain ⟨oracle, executed⟩ := performs_exec performs
  exact exec_surroundings executed

theorem performs_slot (performs : Performs (M := machine D) pid (.slot paths) lock s s') :
    lock ∈ paths ∧ s'.world.locks lock = some pid := by
  obtain ⟨oracle, executed⟩ := performs_exec performs
  exact exec_slot executed

theorem performs_inspect {requestId : String} {found : Option Row} (performs :
    Performs (M := machine D) pid (.inspect requestId) found s s') : s'.world.jobs.find? requestId = found := by
  obtain ⟨oracle, executed⟩ := performs_exec performs
  exact exec_inspect executed

theorem performs_readGeneration (performs : Performs (M := machine D) pid .readGeneration generation s s') :
    s'.world.generation = generation := by
  obtain ⟨oracle, executed⟩ := performs_exec performs
  exact exec_readGeneration executed

theorem performs_publish {response : Unit} (performs : Performs (M := machine D) pid (.publish snapshot)
    response s s') : s'.world = ⟨s.world.jobs, s.world.ledger, some snapshot, s.world.locks⟩ := by
  obtain ⟨oracle, executed⟩ := performs_exec performs
  exact exec_publish executed

theorem performs_claim {requestId : String} (performs : Performs (M := machine D)
    pid (.ledger (.claim requestId)) (.ok claim) s s') : s'.world.ledger.claims.find? requestId = some claim := by
  obtain ⟨oracle, executed⟩ := performs_exec performs
  exact exec_claim executed

end VideoPoster.Executor
