import VideoPoster.Executor.Submission

/-!
# After an overrun
-/

namespace VideoPoster.Executor
open Python Billing Tables Interleaving Table Set Config.Numbered

variable {D : Deployment} {scope : Scope} {s s' : Shared (machine D)} {pid : ℕ} {action : Act}
  {response : action.Res} {requestId : String} {mode : Mode}

def PreparedIn (w : World) (requestId : String) : Prop :=
  ∃ row ∈ w.jobs.find? requestId, row.status = .prepared

instance (w : World) (requestId : String) : Decidable (PreparedIn w requestId) :=
  inferInstanceAs (Decidable (∃ row ∈ w.jobs.find? requestId, _))

def Act.ran : Act → Option RunArgs
  | .called (.run args) => some args
  | _ => none

/-- No run is called with `submit_prepared` for a job of the mode that is prepared in `w`. -/
def sparesPrepared (D : Deployment) (w : World) (mode : Mode) (_ : World) (e : Event actions) : Prop :=
  ∀ args ∈ e.action.ran, ¬ (args.submitPrepared = true ∧ args.job.mode = mode ∧
    PreparedIn w (args.requestId D))

instance (w w' : World) (mode : Mode) (e : Event actions) :
    Decidable (sparesPrepared D w mode w' e) :=
  inferInstanceAs (Decidable (∀ args ∈ e.action.ran, _))

/-- What stays true after an overrun was recorded in the world `w`, with respect to the processes from
`first` on. -/
structure Frozen (D : Deployment) (w : World) (first : ℕ) (mode : Mode) (s : Shared (machine D)) :
    Prop where
  overrun : ∃ row ∈ inMode s.world.jobs mode, row.status = .overrun
  created : ∀ pid requestId, first ≤ pid → Seen (By pid (creates D requestId)) s.trace →
    ¬ HasMode s requestId mode
  prepared : ∀ row ∈ inMode s.world.jobs mode, row.status = .prepared → PreparedIn w row.requestId
  called : ∀ pid args, first ≤ pid → Seen (By pid (calls (.run args))) s.trace →
    ¬ (args.submitPrepared = true ∧ args.job.mode = mode ∧ PreparedIn w (args.requestId D))
  read : ∀ pid requestId m, first ≤ pid → Seen (By pid (readsPrepared requestId m)) s.trace →
    HasMode s requestId m ∧ (m = mode → PreparedIn w requestId)
  marked : ∀ pid requestId, first ≤ pid → Seen (By pid (marks .submitting requestId)) s.trace →
    ¬ HasMode s requestId mode

theorem Inv.present (inv : Inv D scope s) (about : Seen (By pid (creates D requestId))
    s.trace ∨ ∃ update, Seen (By pid (marks update requestId)) s.trace) : s.world.jobs.find? requestId ≠ none := by
  intro absent
  obtain ⟨notCreated, notMarked⟩ := inv.absent requestId absent
  rcases about with created | ⟨update, marked⟩
  · exact notCreated created.of_by
  · exact notMarked update marked.of_by

variable {w : World} {first : ℕ}

section
variable (frozen : Frozen D w first mode s)
include frozen

theorem Frozen.overrun_performs
    (later : first ≤ pid) (granted : Granted D scope pid s action) (internal : ¬ CalledExternally pid s) (performs :
    Performs pid action response s s') : ∃ row ∈ inMode s'.world.jobs mode, row.status = .overrun := by
  obtain ⟨row, listed, overrun⟩ := frozen.overrun
  obtain ⟨member, rfl⟩ := mem_inMode.mp listed
  have found : s.world.jobs.find? row.requestId = some row := find?_eq_some.mpr ⟨member, rfl⟩
  obtain ⟨new, newFound, rfl | ⟨targeted, update⟩⟩ := (performs_jobs performs).found found
  · exact ⟨_, mem_inMode.mpr ⟨(find?_eq_some.mp newFound).1, rfl⟩, overrun⟩
  · refine ⟨new, mem_inMode.mpr ⟨(find?_eq_some.mp newFound).1, congrArg Job.mode update.request⟩, ?_⟩
    rcases update.of_finished granted targeted found (.inr overrun) with
      ⟨E, context, given, rfl⟩ | ⟨-, external⟩ | ⟨kept, -⟩
    · exact absurd ⟨row, found, rfl⟩ (frozen.created pid _ later granted.1.1)
    · exact absurd external internal
    · exact kept.trans overrun

theorem Frozen.created_performs (inv : Inv D scope s) (performs : Performs pid action response s s') {actor : ℕ} (later
    : first ≤ actor) (created : Seen (By actor (creates D requestId)) s'.trace) : ¬ HasMode s' requestId mode := by
  rcases (seen_performs performs).mp created with ⟨rfl, now⟩ | old
  · obtain ⟨r, rfl, same⟩ := creates_eq now
    cases same
    obtain ⟨row, listed, overrun⟩ := frozen.overrun
    have change := performs_jobs performs
    rintro ⟨new, found, hasMode⟩
    generalize s'.world.jobs = after at change found
    cases change with
    | same calm => exact calm trivial
    | updated succeeds target found update => cases update
    | inserted admitted =>
      obtain rfl := Option.some.inj ((find?_put_self _ _).symm.trans found)
      obtain rfl : r.job.mode = mode := hasMode
      exact admitted.thawed row listed overrun
  · exact fun known => frozen.created actor requestId later old
      (known.before performs (inv.present (.inl old)))

theorem Frozen.prepared_performs (later : first ≤ pid)
    (granted : Granted D scope pid s action) (performs : Performs pid action response s s') {row : Row}
    (listed : row ∈ inMode s'.world.jobs mode) (prepared : row.status = .prepared) : PreparedIn w row.requestId := by
  obtain ⟨member, hasMode⟩ := mem_inMode.mp listed
  have change := performs_jobs performs
  generalize s'.world.jobs = after at change member
  cases change with
  | same => exact frozen.prepared row (mem_inMode.mpr ⟨member, hasMode⟩) prepared
  | inserted admitted =>
    rcases mem_put.mp member with rfl | ⟨old, -⟩
    · cases prepared
    · exact frozen.prepared row (mem_inMode.mpr ⟨old, hasMode⟩) prepared
  | @updated _ _ before new target succeeds targeted found update =>
    rcases mem_put.mp member with rfl | ⟨old, -⟩
    · have oldMode : before.mode = mode := (congrArg Job.mode update.request).symm.trans hasMode
      rcases update.prepared prepared pid response with
        ⟨E, context, given, other, rfl⟩ | ⟨wasPrepared, -⟩
      · cases targeted
        exact absurd ⟨before, found, oldMode⟩ (frozen.created pid _ later granted.1.1)
      · rw [update.requestId]
        exact frozen.prepared before (mem_inMode.mpr ⟨(find?_eq_some.mp found).1, oldMode⟩) wasPrepared
    · exact frozen.prepared row (mem_inMode.mpr ⟨old, hasMode⟩) prepared

end

theorem readsPrepared_eq {m : Mode} {e : Event actions} (read : readsPrepared requestId m e) :
    ∃ row, row.status = .prepared ∧ row.mode = m ∧ e = ⟨e.process, .inspect requestId, some row⟩ := by
  unfold readsPrepared at read
  split at read
  · obtain ⟨rfl, prepared, hasMode⟩ := read
    exact ⟨_, prepared, hasMode, rfl⟩
  · exact read.elim

section
variable (frozen : Frozen D w first mode s)
include frozen

theorem Frozen.marked_performs (inv : Inv D scope s) (granted : Granted D scope
    pid s action) (performs : Performs pid action response s s') {actor : ℕ} (later : first ≤ actor)
    (marked : Seen (By actor (marks .submitting requestId)) s'.trace) : ¬ HasMode s' requestId mode := by
  intro known
  rcases (seen_performs performs).mp marked with ⟨rfl, now⟩ | old
  · obtain ⟨E, context, given, same⟩ := marks_eq now
    cases same
    obtain ⟨-, -, -, created | ⟨prepared, args, called, submits, rfl, read⟩⟩ := granted
    · exact frozen.created pid requestId later created
        (known.before performs (inv.present (.inl created)))
    · obtain ⟨hadMode, preparedThen⟩ := frozen.read pid _ _ later read
      have sameMode : args.job.mode = mode := (hadMode.keep performs).unique known
      exact frozen.called pid args later called ⟨submits, sameMode, preparedThen sameMode⟩
  · exact frozen.marked actor requestId later old
      (known.before performs (inv.present (.inr ⟨_, old⟩)))

theorem Frozen.performs (inv : Inv D scope s) (later : first ≤ pid) (granted : Granted D scope pid s action)
    (internal : ¬ CalledExternally pid s) (condition : sparesPrepared D w mode s.world ⟨pid, action, response⟩)
    (performs : Performs pid action response s s') : Frozen D w first mode s' := by
  have prepared : ∀ row ∈ inMode s'.world.jobs mode, row.status = .prepared →
      PreparedIn w row.requestId := fun row => frozen.prepared_performs later granted performs
  refine ⟨frozen.overrun_performs later granted internal performs,
    fun actor requestId after => frozen.created_performs inv performs after, prepared, ?_, ?_,
    fun actor requestId after => frozen.marked_performs inv granted performs after⟩
  · intro actor args after called
    rcases (seen_performs performs).mp called with ⟨rfl, now⟩ | old
    · cases calls_eq now
      exact condition args rfl
    · exact frozen.called actor args after old
  · intro actor requestId m after read
    rcases (seen_performs performs).mp read with ⟨rfl, now⟩ | old
    · obtain ⟨row, isPrepared, rfl, same⟩ := readsPrepared_eq now
      cases same
      have found := performs_inspect performs
      obtain ⟨member, rfl⟩ := find?_eq_some.mp found
      exact ⟨⟨row, found, rfl⟩, fun sameMode => prepared row (mem_inMode.mpr ⟨member, sameMode⟩) isPrepared⟩
    · obtain ⟨hadMode, preparedThen⟩ := frozen.read actor requestId m after old
      exact ⟨hadMode.keep performs, preparedThen⟩

theorem Frozen.submitted (later : first ≤ pid) {job : Job} (marked : Seen (By pid (marks .submitting (D.requestId job)))
    s.trace) (hasMode : HasMode s (D.requestId job) job.mode) : job.mode ≠ mode := by
  rintro rfl
  exact frozen.marked pid _ later marked hasMode

end

variable {c c' : Config (machine D) Error}

/-- Before `first`, any call; from then on, calls on the executor only. -/
def executorCallsFrom (first : ℕ) : Scope := fun pid => { call | first ≤ pid → call ∈ executorCalls }

theorem not_calledExternally_from (inv : Inv D (executorCallsFrom first) s) (later : first ≤ pid) :
    ¬ CalledExternally pid s := by
  rintro ⟨call, external, called⟩
  have member : call.OnExecutor := inv.inScope pid call called later
  cases call <;> first | exact member | exact external

def sampleFalReserve : StandingBudget.Op := .reserve none (.ok "2026-07")
  { requestId := sampleFalId, episodeId := "episode-1", provider := "fal-ai/flux",
    quotedCapUsd := .finite false 1 0, settlementMode := .falReadbackV2,
    authScope := "TEST_LOCAL_ONLY", authorityMode := some .test }

def overrunTurns : List Turn :=
  [⟨.prepareIntent sampleLedgerExecutor sampleFal none none none, sampleOracle none (sampleProvider 1), 5, false⟩,
    ⟨.ledger sampleFalReserve, sampleOracle none (sampleProvider 1), 2, false⟩,
    ⟨.run sampleRun, sampleOracle none (sampleProvider 2), 14, false⟩]

def falTurn (submitPrepared : Bool) (steps : ℕ) : Turn where
  call := .run { executor := sampleLedgerExecutor, job := sampleFal, providerMode := .test,
                 submitPrepared := submitPrepared }
  oracle := sampleOracle none (sampleProvider 1)
  steps := steps

def Overran (c : Config (machine (sampleDeployment 6)) Error) : Prop :=
  ∃ row ∈ inMode c.world.jobs .test, row.status = .overrun

instance (c : Config (machine (sampleDeployment 6)) Error) : Decidable (Overran c) :=
  inferInstanceAs (Decidable (∃ row ∈ inMode c.world.jobs .test, _))

theorem exists_overran {test : Config (machine (sampleDeployment 6)) Error → Bool}
    (passed : (after (sampleDeployment 6) anyStep (freshRoot _) overrunTurns).any
    (fun c => c.idle && decide (Overran c) && test c) = true) : ∃ c, Reaches (callsIn (sampleDeployment 6) univ)
    anyStep (freshRoot (sampleDeployment 6)) c ∧ c.Stopped ∧ Overran c ∧ test c = true := by
  obtain ⟨c, reached, holds⟩ :=
    exists_reaches_of_after _ anyStep univ (fun _ _ => trivial) passed
  simp only [Bool.and_eq_true, decide_eq_true_eq] at holds
  exact ⟨c, reached, ((initial World.empty).reaches reached).stopped holds.1.1, holds.1.2, holds.2⟩

end VideoPoster.Executor
