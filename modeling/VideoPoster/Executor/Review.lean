import VideoPoster.Executor.Receipts
import VideoPoster.Executor.Vocabulary
import VideoPoster.Billing.Coherence

/-!
# The review of a completed row
-/

namespace VideoPoster.Executor
open Python Billing Tables Interleaving Option Set Table Function Protocol.Sound

variable {D : Deployment} {s s' : Shared (machine D)} {pid : ℕ} {action : Act}
  {response : action.Res} {requestId : String}

def writing (D : Deployment) : Protocol (machine D) where
  inv _ := True
  grants _ _ action := action.Written
  preserves _ _ _ := trivial
  survives _ _ := trivial

theorem writing_admits (kinds : Set Call) : (writing D).Admits (callsIn D kinds) := by
  rintro _ ⟨call, -, rfl⟩
  exact Protocol.Conforms.of_only (fun _ _ written _ _ => written) (written_program call)

theorem writing_sound {kinds : Set Call} {c : Config (machine D) Error}
    (reaches : Reaches (callsIn D kinds) anyStep (freshRoot D) c) : (writing D).Sound c :=
  (initial trivial).reaches (writing_admits kinds) reaches

def Row.Receipted (row : Row) : Prop := row.status = .complete → row.result ≠ none

theorem RowUpdate.receipted {old new : Row} (update : RowUpdate D action old new)
    (receipted : old.Receipted) : new.Receipted := by
  cases update with
  | @changed E context given target update row guarded =>
    cases update with
    | cacheHit | complete => exact fun _ => some_ne_none _
    | prepared | submitting | overrun => exact fun done => by cases done
    | cacheKey | evidence | partialPath | finalAdmissionMarker => exact receipted
  | bound => exact fun done => by cases done
  | pinned | admitted | reviewed => exact receipted

theorem receipted_of_reaches {kinds : Set Call} {c : Config (machine D) Error}
    (reaches : Reaches (callsIn D kinds) anyStep (freshRoot D) c) : ∀ row ∈ c.world.jobs, row.Receipted :=
  rows_of_reaches (fun _ done => by cases done) RowUpdate.receipted reaches

theorem qaRow_writer {files : Files} {context : Option ℕ}
    {args : QaArgs} {jobs jobs' : Jobs} {row : Row} (reviewed : qaRow files context args jobs = .ok jobs')
    (found : jobs.find? args.requestId = some row) : row.generation = none ∨ context = row.generation := by
  simp only [qaRow, found, bind_eq_ok, requireCoordinatorWrite_eq_ok] at reviewed
  obtain ⟨_, -, _, writer, -⟩ := reviewed
  exact writer

theorem performs_qa {context : Option ℕ} {args : QaArgs} {response : Result Unit}
    {row : Row} (performs : Performs (M := machine D) pid (.qa context args) response s s') (found : s.world.jobs.find?
    args.requestId = some row) : s'.world.jobs = s.world.jobs ∨ row.generation = none ∨ context = row.generation := by
  obtain ⟨oracle, executed⟩ := performs_exec performs
  simp only [exec, some.injEq] at executed
  cases reviewed : qaRow (fun path => oracle.answer (.fileSha path)) context args s.world.jobs with
  | ok jobs => exact .inr (qaRow_writer reviewed found)
  | error error =>
    rw [reviewed] at executed
    exact .inl (congrArg (fun outcome => outcome.1.jobs) executed).symm

def Undecided (requestId : String) (jobs : Jobs) : Prop :=
  ∃ row, jobs.find? requestId = some row ∧ row.generation ≠ none ∧ row.review = none

theorem RowUpdate.undecided {old new : Row}
    (update : RowUpdate D action old new) (other : ∀ context args, action ≠ .qa context args)
    (undecided : old.generation ≠ none ∧ old.review = none) : new.generation ≠ none ∧ new.review = none := by
  cases update with
  | @changed E context given target update row guarded => cases update <;> exact undecided
  | @bound context generation target providerId partialPath row pin writer free unknown =>
    refine ⟨?_, undecided.2⟩
    obtain ⟨pinned, same⟩ := ne_none_iff_exists'.mp undecided.1
    cases generation <;> simp [Row.bound, same]
  | pinned => exact ⟨some_ne_none _, undecided.2⟩
  | admitted => exact undecided
  | reviewed => exact absurd rfl (other _ _)

theorem Undecided.performs (written : action.Written) (performs : Performs pid action response s s')
    (undecided : Undecided requestId s.world.jobs) : Undecided requestId s'.world.jobs := by
  by_cases quiet : s'.world.jobs = s.world.jobs
  · rw [quiet]
    exact undecided
  obtain ⟨row, found, fact⟩ := undecided
  have change := performs_jobs performs
  have outside : ∀ context args, action = .qa context args → args.requestId ≠ requestId := by
    rintro context args rfl rfl
    obtain rfl : context = none := written
    rcases (performs_qa performs found).resolve_left quiet with free | pinned
    · exact fact.1 free
    · exact fact.1 pinned.symm
  obtain ⟨new, newFound, rfl | ⟨targeted, update⟩⟩ := change.found found
  · exact ⟨_, newFound, fact⟩
  · have other : ∀ context args, action ≠ .qa context args := by
      rintro context args rfl
      exact outside context args rfl (some.inj targeted)
    exact ⟨new, newFound, update.undecided other fact⟩

variable {kinds later : Set Call} {c c' : Config (machine D) Error} {row : Row} {args : QaArgs}
  {review : Review}

theorem undecided_stays (reaches : Reaches (callsIn D kinds) anyStep (freshRoot D) c) (rest : Reaches (callsIn D later)
    anyStep c c') (undecided : Undecided requestId c.world.jobs) : Undecided requestId c'.world.jobs := by
  refine invariant (P := writing D)
    (K := fun s : Shared (machine D) => Undecided requestId s.world.jobs) (writing_admits _)
    (writing_sound reaches) ?_ (fun _ _ => id) undecided rest
  intro pid action response s s' _ kept written _ performs
  exact Undecided.performs written performs kept

structure QaArgs.Verdict (args : QaArgs) (row : Row) (review : Review) : Prop where
  request : args.requestId = row.requestId
  independent : args.review = .ok review
  reviewer : args.reviewer ≠ ""
  result : row.resultSha256 = some args.resultSha256
  unfailed : args.approved = true → args.failureCode = none
  named : args.failureCode ≠ some ""

theorem qaRow_verdict {files : Files} {jobs : Jobs} {path : String} (verdict : args.Verdict row review) (found : jobs.find? row.requestId = some row)
    (complete : row.status = .complete) (undecided : row.review = none)
    (unpinned : row.generation = none) (result : row.result = some path)
    (intact : files path = .ok args.resultSha256) :
    qaRow files none args jobs = .ok (jobs.put { row with review := some review }) := by
  have intactReceipt : verifyReceipt files row = .ok () := by
    simp only [verifyReceipt, result, intact, verdict.result, bind_eq_ok, require_eq_ok]
    exact ⟨_, rfl, rfl⟩
  simp only [qaRow, bind_eq_ok]
  refine ⟨review, verdict.independent, ?_⟩
  rw [verdict.request, found]
  simp only [bind_eq_ok, require_eq_ok, exists_const, requireCoordinatorWrite_eq_ok, undecided, pure_eq_ok, and_true]
  exact ⟨.inl unpinned, ⟨complete, verdict.reviewer, verdict.result, verdict.unfailed, verdict.named⟩,
    (), intactReceipt⟩

def Recordable (D : Deployment) (c : Config (machine D) Error) (requestId : String)
    (review : Review) : Prop :=
  ∃ c', Reaches (callsIn D univ) anyStep c c' ∧
    ∃ row, c'.world.jobs.find? requestId = some row ∧ row.review = some review

theorem qa_records {path : String} {oracle : Oracle} (verdict : args.Verdict row review)
    (found : c.world.jobs.find? row.requestId = some row) (complete : row.status = .complete)
    (undecided : row.review = none) (unpinned : row.generation = none) (result : row.result = some path)
    (intact : oracle.answer (.fileSha path) = .ok args.resultSha256) : Recordable D c row.requestId review := by
  have executed : exec D oracle c.spawned c.world (.qa none args) =
      some ({ c.world with jobs := c.world.jobs.put { row with review := some review } }, .ok ()) := by
    have recorded : qaRow (fun path => oracle.answer (.fileSha path)) none args c.world.jobs =
        .ok (c.world.jobs.put { row with review := some review }) :=
      qaRow_verdict verdict found complete undecided unpinned result intact
    simp only [exec, recorded, World.commit]
  let called : Config (machine D) Error := { c with
    processes := update c.processes c.spawned (some ((Call.qa args).program D))
    spawned := c.spawned + 1 }
  let announced : Shared (machine D) := ⟨c.world, ⟨c.spawned, .called (.qa args), ()⟩ :: c.trace⟩
  let reviewed : Shared (machine D) :=
    ⟨{ c.world with jobs := c.world.jobs.put { row with review := some review } },
      ⟨c.spawned, .qa none args, .ok ()⟩ :: announced.trace⟩
  have spawn : Step (callsIn D univ) anyStep c called := .spawn ⟨_, trivial, rfl⟩
  have announce : Performs (M := machine D) c.spawned (.called (.qa args)) () called.toShared announced :=
    ⟨oracle, rfl, rfl⟩
  have review : Performs (M := machine D) c.spawned (.qa none args) (.ok ()) announced reviewed :=
    ⟨oracle, executed, rfl⟩
  refine ⟨_, .tail (.tail (.tail .refl spawn) (.perform (update_self _ _ _) announce trivial))
    (.perform (update_self _ _ _) review trivial), _, find?_put_self _ _, rfl⟩

/-- A completed row can get its review exactly if it is not pinned to a billing generation. -/
theorem review_recordable_iff (reaches : Reaches (callsIn D kinds) anyStep (freshRoot D) c)
    (found : c.world.jobs.find? requestId = some row) (complete : row.status = .complete) (undecided : row.review =
    none) (verdict : args.Verdict row review) : Recordable D c requestId review ↔ row.generation = none := by
  obtain ⟨member, named⟩ := find?_eq_some.mp found
  constructor
  · rintro ⟨c', later, row', found', recorded⟩
    by_contra pinned
    obtain ⟨last, lastFound, -, free⟩ := undecided_stays reaches later ⟨row, found, pinned, undecided⟩
    obtain rfl := some.inj (lastFound.symm.trans found')
    cases free.symm.trans recorded
  · intro unpinned
    obtain ⟨path, result⟩ := ne_none_iff_exists'.mp (receipted_of_reaches reaches row member complete)
    subst named
    let oracle : Oracle :=
      { answer := fun query => match query with
          | .fileSha _ => .ok args.resultSha256
          | other => (sampleOracle none (sampleProvider 1)).answer other
        provider := sampleProvider 1 }
    have intact : oracle.answer (.fileSha path) = .ok args.resultSha256 := rfl
    exact qa_records verdict found complete undecided unpinned result intact

def sampleVerdict : Review := ⟨true, "reviewer-1", ⟨"reviewer-1", "studio"⟩, none⟩

theorem sampleVerdict_verdict (named : row.requestId = requestId) (result : row.resultSha256 = some emptySha256) :
    (sampleReview requestId true).Verdict row sampleVerdict where
  request := named.symm
  independent := by
    show (sampleReview "" true).review = .ok sampleVerdict
    decide
  reviewer := by simp [sampleReview]
  result := result
  unfailed := fun _ => rfl
  named := by simp [sampleReview]

def awaitsReview (requestId : String) (pinned : Option ℕ) (c : Config (machine (sampleDeployment 6)) Error) :
    Bool :=
  (c.world.jobs.find? requestId).any fun row =>
    decide (row.status = .complete ∧ row.review = none ∧ row.generation = pinned ∧
      row.resultSha256 = some emptySha256)

theorem direct_row_reviewable : ∃
    c, Reaches (callsIn (sampleDeployment 6) univ) anyStep (freshRoot (sampleDeployment 6)) c ∧ ∃ row, sampleRow c =
    some row ∧ row.status = .complete ∧ Recordable (sampleDeployment 6) c sampleFirstId sampleVerdict := by
  have passed : (after (sampleDeployment 6) anyStep (freshRoot _) sampleCompleted).any
      (awaitsReview sampleFirstId none) = true := by
    decide +kernel
  obtain ⟨c, reached, awaits⟩ :=
    exists_reaches_of_after _ anyStep univ (fun _ _ => trivial) passed
  obtain ⟨row, found, holds⟩ := (any_eq_true _ _).mp awaits
  obtain ⟨complete, undecided, unpinned, result⟩ := of_decide_eq_true holds
  refine ⟨c, reached, row, found, complete, ?_⟩
  exact (review_recordable_iff reached found complete undecided
    (sampleVerdict_verdict (find?_eq_some.mp found).2 result)).mpr unpinned

def pinnedRun : RunArgs where
  executor := { sampleLedgerExecutor with coordinator := some 0, ownerBinding := some ⟨"/state"⟩ }
  job := sampleFal
  providerMode := .test
  settlementCheckpoint := .capability ⟨0, sampleFalId, 0, 0, 0, ⟨"/state"⟩⟩
  submitPrepared := true

def pinnedTurn : Turn where
  call := .run pinnedRun
  oracle := sampleOracle none (.checkpoint "fal-1" "" fun _ => sampleProvider 1)
  steps := 24

theorem pinned_row_unreviewable :
    ∃ c, Reaches (callsIn (sampleDeployment 6) univ) anyStep (freshRoot (sampleDeployment 6))
    c ∧ ∃ row, c.world.jobs.find? sampleFalId = some row ∧ row.status = .complete ∧ row.review = none ∧
    (sampleReview sampleFalId true).Verdict row sampleVerdict ∧ ∀ c', Reaches (callsIn (sampleDeployment 6) univ)
    anyStep c c' → ∀ row', c'.world.jobs.find? sampleFalId = some row' → row'.review ≠ some sampleVerdict := by
  have passed : (after (sampleDeployment 6) anyStep (freshRoot _) [admissionTurn, pinnedTurn]).any
      (awaitsReview sampleFalId (some 2)) = true := by
    decide +kernel
  obtain ⟨c, reached, awaits⟩ :=
    exists_reaches_of_after _ anyStep univ (fun _ _ => trivial) passed
  obtain ⟨row, found, holds⟩ := (any_eq_true _ _).mp awaits
  obtain ⟨complete, undecided, pinned, result⟩ := of_decide_eq_true holds
  refine ⟨c, reached, row, found, complete, undecided,
    sampleVerdict_verdict (find?_eq_some.mp found).2 result, fun c' later row' found' recorded => ?_⟩
  obtain ⟨last, lastFound, -, free⟩ :=
    undecided_stays reached later ⟨row, found, by simp [pinned], undecided⟩
  obtain rfl := some.inj (lastFound.symm.trans found')
  cases free.symm.trans recorded

end VideoPoster.Executor
