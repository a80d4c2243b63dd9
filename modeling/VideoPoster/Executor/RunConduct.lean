import VideoPoster.Executor.Conduct

/-!
# The programs keep the discipline: runs
-/

namespace VideoPoster.Executor
open Python Billing Tables Interleaving Working Program Act.Passive List Option

variable {D : Deployment} {scope : Scope} {pid : ℕ} {args : RunArgs} {worker : Option ℕ}
  {s s' : Shared (machine D)}

/-! ## Moving between stages -/

theorem Working.creator (working : Working D pid args worker .fresh s) : Creator pid (args.requestId D) s :=
  working.fact.2.2

theorem Working.reporter (working : Working D pid args worker .active s) : Reporter D pid (args.requestId D) s :=
  .inl ⟨working.held, working.fact⟩

variable {stage : Stage}

theorem Working.locked_keep {action : Act} {response : action.Res} (working : Working D pid args worker stage s)
    (performs : Performs (M := machine D) pid action response s s')
    (holds : ∀ lock, action ≠ .release lock) : Working D pid args worker .locked s' :=
  ⟨working.held.keep_unless_released performs (holds _),
    fun index taken => (working.slot index taken).keep_unless_released performs (holds _),
    (seen_performs performs).mpr (.inr working.called), trivial⟩

theorem Working.fresh_of_reserve {r : Reservation}
    (same : r.job = args.job) (inv : Inv D scope s) (working : Working D pid args worker .unfinished s)
    (performs : Performs (M := machine D) pid (.reserve r) (.ok true) s s') : Working D pid args worker .fresh s' := by
  have locked := working.locked_keep performs nofun
  have creator := Creator.of_reserve inv performs
  have inserted : s'.world.jobs.find? (D.requestId r.job) = some (r.row D) := by
    have change := performs_jobs performs
    generalize s'.world.jobs = after at change
    cases change with
    | same calm => exact (calm trivial).elim
    | inserted admitted => exact Table.find?_put_self _ _
    | updated succeeds target found update => cases update
  rw [same] at creator inserted
  refine ⟨locked.held, locked.slot, locked.called, fun row found => ?_, ⟨_, inserted, ?_⟩, creator⟩
  · obtain rfl := some.inj (inserted.symm.trans found)
    exact ⟨nofun, nofun⟩
  · exact congrArg Job.mode same

abbrev Part (D : Deployment) (scope : Scope) (pid : ℕ) (args : RunArgs) (worker : Option ℕ) {α : Type} (stage : Stage)
    (program : Program α) (Q : α → Assertion (machine D)) : Prop :=
  (discipline D scope).Safe pid (Working D pid args worker stage) program Q fun _ => Working D pid args worker .locked

abbrev Passes (D : Deployment) (scope : Scope) (pid : ℕ) (args : RunArgs) (worker : Option ℕ) {α : Type}
    (stage : Stage) (program : Program α) (next : Stage) : Prop :=
  Part D scope pid args worker stage program fun _ => Working D pid args worker next

variable {given : Option (Option Capability)}

variable {context : Option ℕ}

theorem Working.ready_of_submitting {E : Instance} (inv : Inv D scope s)
    (working : Working D pid args worker stage s) (mode : HasMode s (args.requestId D) args.job.mode) (granted : Granted
    D scope pid s (.change E context given (args.requestId D) .submitting)) (performs : Performs (M := machine D) pid
    (.change E context given (args.requestId D) .submitting) (.ok ()) s s') : Working D pid args worker .ready s' := by
  have locked := working.locked_keep performs nofun
  have active := granted.2.1
  have unmarked := granted.2.2.1
  refine ⟨locked.held, locked.slot, locked.called, ?_, mode.keep performs, ?_, ?_⟩
  · refine active.keep_unless_concluded granted performs granted.1 ?_
    rintro - _ _ _ update concludes same
    cases same
    exact concludes
  · exact (seen_performs performs).mpr (.inl ⟨rfl, rfl, rfl⟩)
  · rw [seen_performs performs]
    rintro (now | old)
    · exact now
    · exact unmarked (inv.submitted _ old)

/-! ## Reading the row -/

def Read (D : Deployment) (pid : ℕ) (args : RunArgs) (worker : Option ℕ) (found : Option Row)
    (s : Shared (machine D)) : Prop :=
  Working D pid args worker .locked s ∧
  ((∀ row, found = some row → row.status ≠ .complete) → Working D pid args worker .unfinished s) ∧
  ((∀ row, found = some row → row.status ≠ .complete ∧ row.status ≠ .overrun) → Working D pid args worker .active s) ∧
  (∀ row, found = some row → row.status = .prepared ∧ row.mode = args.job.mode →
    Working D pid args worker .prepared s) ∧
  ∀ row, found = some row → row.WellFormed

theorem Read.framed {found : Option Row} : (discipline D scope).Framed
    pid (fun action => ¬ action.Decides D (args.requestId D)) (Read D pid args worker found) :=
  Working.framed.and (Working.framed.imp.and (Working.framed.imp.and
    ((Protocol.Framed.forall fun _ => Working.framed.imp.imp).and .fact)))

variable {E : Error → Assertion (machine D)}

theorem safe_inspect : (discipline D scope).Safe pid (Working D pid args worker .locked)
    (inspect (args.requestId D)) (fun found => Read D pid args worker found) E := by
  refine .perform (fun _ _ _ => trivial) (fun found => Read.framed.stable) ?_
  intro found s s' inv working performs inv'
  have locked := working.locked_keep performs nofun
  have read := performs_inspect performs
  refine ⟨locked, fun unfinished => ?_, fun active => ?_, fun row same => ?_, fun row same => ?_⟩
  · exact ⟨locked.held, locked.slot, locked.called, fun row there => unfinished row (read ▸ there)⟩
  · exact ⟨locked.held, locked.slot, locked.called, fun row there => active row (read ▸ there)⟩
  · rintro ⟨prepared, mode⟩
    have there := read.trans same
    obtain ⟨member, key⟩ := Table.find?_eq_some.mp there
    obtain ⟨marked, unmarked⟩ := inv'.prepared row member prepared
    rw [key] at marked unmarked
    refine ⟨locked.held, locked.slot, locked.called, fun row' there' => ?_, ⟨row, there, mode⟩, ?_, marked, unmarked⟩
    · obtain rfl := some.inj (there.symm.trans there')
      simp [prepared]
    · rw [seen_performs performs]
      subst same
      exact .inl ⟨rfl, rfl, prepared, mode⟩
  · exact inv'.wellFormed row (Table.find?_eq_some.mp (read.trans same)).1

/-! ## Reservation -/

theorem only_liveGate : (liveGate D args).Only Act.Still := by
  unfold liveGate
  split
  · refine (only_ask _).bind fun _ => ?_
    split
    · exact (only_require _ _).bind fun _ => (only_ofResult _).bind fun _ =>
        (only_require _ _).bind fun _ => (only_ofResult _).bind fun _ => only_require _ _
    · trivial
  · trivial

theorem only_gateMiss (cached : Option String) : (gateMiss D args cached).Only Act.Still := by
  unfold gateMiss
  split
  · exact only_liveGate
  · trivial

theorem only_contentKey : (contentKey args).Only Act.Still := by
  unfold contentKey
  split
  · exact (only_ask _).bind fun _ => only_ofResult _
  · trivial

theorem only_cacheLookup (key : String) : (cacheLookup args key).Only Act.Still := by
  unfold cacheLookup
  split
  · exact (only_ask _).bind fun _ => only_ofResult _
  · trivial

theorem only_verifyStoredReceipt (row : Row) : (verifyStoredReceipt row).Only Act.Still := by
  unfold verifyStoredReceipt
  split
  · trivial
  · exact (only_fileSha _).bind fun _ => only_require _ _

theorem only_storeResult (key path : String) : (storeResult args key path).Only Act.Still := by
  unfold storeResult
  split
  · exact (only_ask _).bind fun _ => only_ofResult _
  · trivial

theorem only_recover (job : Job) (providerId partialPath : String) :
    (recover job providerId partialPath).Only Act.Still :=
  ⟨trivial, fun _ => trivial⟩

theorem only_recoverLocal (job : Job) : (recoverLocal job).Only Act.Still :=
  ⟨trivial, fun _ => trivial⟩

variable {α : Type} {program : Program α}

theorem safe_stage (only : program.Only Act.Still) : Passes D scope pid args worker stage program stage :=
  (safe_passive only framed fun _ => not_decides).weaken (fun _ _ => id) fun _ _ holds => holds.locked

def Reserved (D : Deployment) (pid : ℕ) (args : RunArgs) (worker : Option ℕ) (fresh : Bool)
    (s : Shared (machine D)) : Prop :=
  Working D pid args worker .unfinished s ∧ (fresh = true → Working D pid args worker .fresh s)

variable {fresh : Bool}

theorem Reserved.framed : (discipline D scope).Framed pid (fun action => ¬ action.Decides D (args.requestId D))
    (Reserved D pid args worker fresh) :=
  Working.framed.and Working.framed.imp

theorem safe_admitNew (positive : 0 < args.job.cost.toRat) : Part D scope pid args worker .unfinished (admitNew D args)
    fun admission => Reserved D pid args worker admission.fresh := by
  refine (safe_stage only_contentKey).bind fun key => ?_
  refine (safe_stage (only_cacheLookup key)).bind fun cached => ?_
  refine (safe_stage (only_gateMiss cached)).bind fun _ => ?_
  have amount : 0 ≤ if cached = none then args.job.cost.toRat else 0 := by
    split
    · exact positive.le
    · exact le_rfl
  have reservation : (discipline D scope).Safe pid (Working D pid args worker .unfinished)
      (Executor.reserve none args.job (if cached = none then args.job.cost.toRat else 0) key
        (some (runScope args)) none none none)
      (fun fresh => Reserved D pid args worker fresh)
      fun _ => Working D pid args worker .unfinished :=
    safe_reserve framed (fun _ => not_decides) (fun _ => id)
      framed.stable
      (fun _ _ _ same inv working performs => working.fresh_of_reserve same inv performs)
      amount (fun _ _ none => by cases none) _ _ _ _ _
  exact (reservation.raising fun _ _ holds => holds.locked).bind fun fresh => fun _ _ => id

theorem safe_admitExisting (existing : Row) : Part D scope pid args worker .unfinished (admitExisting D args existing)
    fun admission => Reserved D pid args worker admission.fresh := by
  unfold admitExisting
  split
  · exact fun _ _ holds => ⟨holds, nofun⟩
  · split
    · refine (safe_stage only_contentKey).bind fun key => ?_
      have change : (discipline D scope).Safe pid (Working D pid args worker .unfinished)
          (change args.executor none none (args.requestId D) (.cacheKey key))
          (fun _ => Working D pid args worker .unfinished)
          fun _ => Working D pid args worker .unfinished :=
        framed.request (by simp [Act.Decides, Update.Concludes])
          fun _ _ working => ⟨working.held, working.fact⟩
      exact (change.raising fun _ _ holds => holds.locked).bind fun _ => fun _ _ holds => ⟨holds, nofun⟩
    · exact fun _ _ holds => ⟨holds, nofun⟩

theorem safe_admitRow (positive : 0 < args.job.cost.toRat) (existing : Option Row) : Part D scope pid
    args worker .unfinished (admitRow D args existing) fun admission => Reserved D pid args worker admission.fresh := by
  cases existing with
  | none => exact safe_admitNew positive
  | some row => exact safe_admitExisting row

def Routing (D : Deployment) (pid : ℕ) (args : RunArgs) (worker : Option ℕ)
    (routed : Option Row × Bool) (s : Shared (machine D)) : Prop :=
  Read D pid args worker routed.1 s ∧ (routed.2 = true → Working D pid args worker .fresh s)

theorem safe_routeFresh (admission : Admission) (found : Option Row) : (discipline D scope).Safe
    pid (Routing D pid args worker (found, admission.fresh)) (routeFresh D args admission found)
    (fun routed => Routing D pid args worker routed) fun _ => Working D pid args worker .locked := by
  unfold routeFresh
  split
  · rename_i fresh
    have change : (discipline D scope).Safe pid (Routing D pid args worker (found, admission.fresh))
        (change args.executor none none (args.requestId D) .prepared)
        (fun _ => Working D pid args worker .locked)
        fun _ => Working D pid args worker .locked := by
      refine .request (fun s _ holds => ?_) (fun _ => framed.stable) (fun _ => framed.stable) ?_ ?_
      · have working := holds.2 fresh.1
        have granted : Granted D scope pid s (.change args.executor none none (args.requestId D) .prepared) :=
          ⟨working.creator, .inl ⟨working.held, working.fact.1⟩⟩
        exact granted
      · rintro _ _ s s' - inv ⟨read, -⟩ performs -
        exact read.1.locked_keep performs nofun
      · rintro _ _ s s' - inv ⟨read, -⟩ performs -
        exact read.1.locked_keep performs nofun
    have read : (discipline D scope).Safe pid (Routing D pid args worker (found, admission.fresh))
        (markPrepared D args.executor none args.job) (fun row => Read D pid args worker row)
        fun _ => Working D pid args worker .locked :=
      change.bind fun _ => safe_inspect
    exact read.bind fun row => fun _ _ holds => ⟨holds, nofun⟩
  · exact fun _ _ => id

/-! ## The provider call -/

variable {F : Assertion (machine D)}

theorem safe_ledger_outside {requestId : String}
    (framed : (discipline D scope).Framed pid (fun action => ¬ action.Decides D requestId) F) {op : StandingBudget.Op}
    (outside : op.context = none) : (discipline D scope).Safe pid F (ledger op) (fun _ => F) fun _ => F :=
  framed.request id fun _ _ _ _ same => absurd (outside.symm.trans same) nofun

section Checkpoint
variable {F : Assertion (machine D)}
  (framed : (discipline D scope).Framed pid (fun action => ¬ action.Decides D (args.requestId D)) F)
  (reporter : ∀ s, F s → Reporter D pid (args.requestId D) s)
include framed reporter

theorem safe_bindUnpinned (providerId partialPath : String) : (discipline D scope).Safe
    pid F (bindProvider none (args.requestId D) providerId partialPath none) (fun _ => F) fun _ => F :=
  framed.request id fun s _ holds => ⟨reporter s holds, nofun⟩

theorem safe_checkpoint (pinned : Bool) (providerId partialPath : String) :
    (discipline D scope).Safe pid F (checkpoint D args pinned providerId partialPath) (fun _ => F) fun _ => F := by
  have bound := (safe_checkpointProviderBinding framed reporter providerId partialPath).bind
    fun _ => show (discipline D scope).Safe pid F (.pure ()) (fun _ => F) fun _ => F from
      fun _ _ => id
  unfold checkpoint
  split
  · split
    · exact .ofExcept_bind (fun _ _ => bound) fun _ _ _ _ => id
    · exact bound
    · exact safe_bindUnpinned framed reporter providerId partialPath
    · refine .ofExcept_bind (fun _ _ => ?_) fun _ _ _ _ => id
      refine (safe_bindUnpinned framed reporter providerId partialPath).bind fun _ => ?_
      split
      · exact (safe_ledger_outside framed rfl).bind fun _ => fun _ _ => id
      · exact fun _ _ => id
    · exact fun _ _ => id
  · split
    · exact framed.request (by simp [Act.Decides, Update.Concludes]) fun s _ holds =>
        reporter s holds
    · exact fun _ _ => id

end Checkpoint

theorem safe_awaitProvider {report : String → String → Program Unit} (reports : ∀ providerId partialPath,
    (discipline D scope).Safe pid F (report providerId partialPath) (fun _ => F) fun _ => F) (provider : ProviderRun) :
    (discipline D scope).Safe pid F (awaitProvider report provider) (fun _ => F) fun _ => F := by
  induction provider with
  | done path actualCost => exact fun _ _ => id
  | fail error => exact fun _ _ => id
  | checkpoint providerId partialPath next ih =>
    exact (Protocol.Safe.attempt (reports providerId partialPath)).bind fun outcome => ih outcome

theorem safe_verifyPreparedFalAdmission (framed : (discipline D scope).Framed pid Act.Passive F) (E : Instance)
    (job : Job) (row : Row) (requireAdmittedMarker : Bool) : (discipline D scope).Safe pid F (verifyPreparedFalAdmission
    D E job row requireAdmittedMarker) (fun _ s => F s ∧ row.BindsIntent D job) fun _ => F := by
  by_cases binds : row.BindsIntent D job
  · exact (safe_passive (only_verifyPreparedFalAdmission E job row requireAdmittedMarker) framed
      fun _ => id).weaken (fun _ _ holds => ⟨holds, binds⟩)
      fun _ _ => id
  · refine .ofExcept_bind (fun _ _ => ?_) fun _ _ _ _ => id
    exact .ofExcept_bind (fun _ checked => absurd (require_eq_ok.mp checked) binds) fun _ _ _ _ => id

def Entry (D : Deployment) (pid : ℕ) (args : RunArgs) (worker : Option ℕ) (row : Row) (fresh : Bool)
    (s : Shared (machine D)) : Prop :=
  Working D pid args worker .active s ∧
  (row.status = .prepared ∧ row.mode = args.job.mode → Working D pid args worker .prepared s) ∧
  (fresh = true → Working D pid args worker .fresh s)

theorem Entry.framed {row : Row} : (discipline D scope).Framed pid (fun action => ¬ action.Decides D (args.requestId D))
    (Entry D pid args worker row fresh) :=
  Working.framed.and (Working.framed.imp.and Working.framed.imp)

def Stage.called (submitNow : Bool) : Stage := if submitNow then .ready else .active

theorem safe_mark (stage : Stage) (granted : ∀ s, Inv D scope s → Working D pid args worker stage s →
      Granted D scope pid s (.change args.executor context given (args.requestId D) .submitting))
    (mode : ∀ s, Working D pid args worker stage s → HasMode s (args.requestId D) args.job.mode) :
    (discipline D scope).Safe pid (Working D pid args worker stage) (do
        change args.executor context given (args.requestId D) .submitting
        let marked ← inspect (args.requestId D)
        let row ← ofResult (subscript marked)
        pure (row, true))
      (fun marked : Row × Bool => Working D pid args worker (.called marked.2))
      fun _ => Working D pid args worker .locked := by
  have change : Passes D scope pid args worker stage (change args.executor context given (args.requestId D) .submitting) .ready := by
    refine .request granted (fun _ => framed.stable) (fun _ => framed.stable) ?_ ?_
    · rintro _ _ s s' rfl inv working performs -
      exact working.ready_of_submitting inv (mode s working) (granted s inv working) performs
    · rintro _ _ s s' - inv working performs -
      exact working.locked_keep performs nofun
  refine change.bind fun _ => (safe_stage (only_inspect _)).bind fun marked => ?_
  exact .ofExcept_bind (fun row _ => fun _ _ => id) fun _ _ _ _ holds => holds.locked

theorem safe_markSubmitting (row : Row) (fresh : Bool) (wellFormed : row.WellFormed) :
    (discipline D scope).Safe pid (Entry D pid args worker row fresh) (markSubmitting D args row fresh)
    (fun marked => Working D pid args worker (.called marked.2)) fun _ => Working D pid args worker .locked := by
  unfold markSubmitting
  split
  · rename_i prepared
    have known : (discipline D scope).Framed pid Act.Passive (Entry D pid args worker row fresh) :=
      Entry.framed.mono fun _ => not_decides
    have verified := safe_verifyPreparedFalAdmission known args.executor args.job row true
    refine (verified.raising fun _ _ holds => holds.1.locked).bind fun _ => ?_
    refine .given (fun _ _ holds => holds.2) fun binds => ?_
    have mode : row.mode = args.job.mode := wellFormed.authority.symm.trans binds.2.2.1
    refine (safe_mark .prepared ?_ fun _ working => working.fact.2.1).strengthen
      fun _ _ holds => holds.1.2.1 ⟨prepared.1, mode⟩
    intro s inv working
    obtain ⟨active, -, read, marked, unmarked⟩ := working.fact
    exact ⟨working.held, active, unmarked, .inr ⟨marked, args, working.called, prepared.2, rfl, read⟩⟩
  · split
    · rename_i isFresh
      refine (safe_mark .fresh ?_ fun _ working => working.fact.2.1).strengthen fun _ _ holds => holds.2.2 isFresh
      intro s inv working
      obtain ⟨active, -, created, -, unmarked⟩ := working.fact
      exact ⟨working.held, active, unmarked, .inl created⟩
    · exact fun _ _ holds => holds.1

theorem safe_awaitReporting (pinned : Bool) (provider : ProviderRun) :
    Passes D scope pid args worker .active (awaitProvider (checkpoint D args pinned) provider) .active :=
  (safe_awaitProvider (safe_checkpoint framed (fun _ working => working.reporter) pinned)
    provider).raising fun _ _ holds => holds.locked

theorem safe_submit : Passes D scope pid args worker .ready (submit args.job) .active := by
  have granted (s : Shared (machine D)) (working : Working D pid args worker .ready s) :
      Granted D scope pid s (.submit args.job) :=
    ⟨working.held, working.fact.2.2.1, working.fact.2.2.2, working.fact.2.1⟩
  refine .perform (fun s _ working => granted s working) (fun _ => framed.stable) ?_
  intro provider s s' inv working performs _
  have locked := working.locked_keep performs nofun
  exact ⟨locked.held, locked.slot, locked.called, working.fact.1.keep_unless_concluded
    (granted s working) performs working.held fun _ _ _ _ _ _ => nofun⟩

theorem safe_change (stage : Stage) (update : Update)
    (calm : ¬ (Act.change args.executor none given (args.requestId D) update).Decides D (args.requestId D))
    (granted : ∀ s, Working D pid args worker stage s → GrantedChange D pid s (args.requestId D) update) :
    Passes D scope pid args worker stage (change args.executor none given (args.requestId D) update) stage :=
  (framed.request calm fun s _ working => granted s working).weaken (fun _ _ => id) fun _ _ holds => holds.locked

theorem safe_conclude (update : Update)
    (granted : ∀ s, Working D pid args worker .active s → GrantedChange D pid s (args.requestId D) update) :
    Passes D scope pid args worker .active (change args.executor none given (args.requestId D) update) .locked := by
  refine .request (fun s _ working => granted s working) (fun _ => framed.stable)
    (fun _ => framed.stable) ?_ ?_
  · rintro _ _ s s' - inv working performs -
    exact working.locked_keep performs nofun
  · rintro _ _ s s' - inv working performs -
    exact working.locked_keep performs nofun

theorem safe_callProvider (row : Row) (submitNow : Bool) :
    Passes D scope pid args worker (.called submitNow) (callProvider D args row submitNow) .active := by
  unfold callProvider
  cases submitNow with
  | true =>
    refine (safe_change .ready (.evidence _ _) (by simp [Act.Decides, Update.Concludes])
      fun s working => ⟨working.held, working.fact.1⟩).bind fun _ => ?_
    exact safe_submit.bind fun provider => safe_awaitReporting _ provider
  | false =>
    simp only [Bool.false_eq_true, if_false]
    split
    · exact (safe_stage (only_recover _ _ _)).bind fun provider => safe_awaitReporting _ provider
    · split
      · exact (safe_stage (only_recoverLocal _)).bind fun provider =>
          safe_awaitReporting _ provider
      · exact fun _ _ holds => holds.locked

theorem safe_finish (key path : String) {actual : ℚ} (amount : 0 ≤ actual) :
    Passes D scope pid args worker .active (finish D args key path actual) .locked := by
  unfold finish
  split
  · exact (safe_conclude (.overrun _ _) fun _ working =>
      ⟨working.held, working.fact, amount⟩).bind fun _ => fun _ _ => id
  · refine (safe_stage (only_storeResult _ _)).bind fun _ => ?_
    refine (safe_stage (only_fileSha _)).bind fun sha => ?_
    exact (safe_conclude (.complete _ _ _ _) fun _ working =>
      ⟨working.held, working.fact, amount⟩).bind fun _ => safe_stage (only_inspect _)

/-! ## The run -/

theorem safe_completeFromCache (admission : Admission) (cached : String) :
    Passes D scope pid args worker .active (completeFromCache D args admission cached) .locked := by
  refine (safe_stage (only_fileSha _)).bind fun sha => ?_
  exact (safe_conclude (.cacheHit _ _ _) fun _ working =>
    ⟨working.held, working.fact⟩).bind fun _ => safe_stage (only_inspect _)

theorem safe_submitOrRecover (admission : Admission) (row : Row) (fresh : Bool) (wellFormed : row.WellFormed) :
    (discipline D scope).Safe pid (Entry D pid args worker row fresh) (submitOrRecover D args admission row fresh)
    (fun _ => Working D pid args worker .locked) fun _ => Working D pid args worker .locked := by
  refine .ofExcept_bind (fun _ _ => ?_) fun _ _ _ _ holds => holds.1.locked
  refine (safe_markSubmitting row fresh wellFormed).bind fun marked => ?_
  refine (safe_callProvider marked.1 marked.2).bind fun result => ?_
  refine .ofExcept_bind (fun actual accepted => ?_) fun _ _ _ _ holds => holds.locked
  exact safe_finish _ _ (money_eq_ok accepted).1

theorem safe_proceed (admission : Admission) (row : Row) (fresh : Bool) (wellFormed : row.WellFormed) :
    (discipline D scope).Safe pid (Entry D pid args worker row fresh) (proceed D args admission row fresh)
    (fun _ => Working D pid args worker .locked) fun _ => Working D pid args worker .locked := by
  refine .ofExcept_bind (fun _ _ => ?_) fun _ _ _ _ holds => holds.1.locked
  split
  · exact (safe_completeFromCache admission _).strengthen fun _ _ holds => holds.1
  · exact safe_submitOrRecover admission row _ wellFormed

section
variable (positive : 0 < args.job.cost.toRat)
include positive

theorem safe_work : Passes D scope pid args worker .unfinished (work D args) .locked := by
  refine (safe_stage (only_validateInputContract _)).bind fun _ => ?_
  refine (safe_stage (only_inspect _)).bind fun existing => ?_
  refine (safe_admitRow positive existing).bind fun admission => ?_
  have known : (discipline D scope).Framed pid Act.Still (Reserved D pid args worker admission.fresh) :=
    Reserved.framed.mono fun _ still => still.passive.not_decides
  have read : (discipline D scope).Safe pid (Reserved D pid args worker admission.fresh)
      (inspect (args.requestId D))
      (fun found => Routing D pid args worker (found, admission.fresh))
      fun _ => Working D pid args worker .locked :=
    (safe_inspect.frame (only_inspect _) known).consequence (fun _ _ holds => ⟨holds.1.locked, holds⟩)
      (fun _ _ holds => ⟨holds.1, holds.2.2⟩) fun _ _ holds => holds.1
  refine read.bind fun found => (safe_routeFresh admission found).bind fun routed => ?_
  refine .ofExcept_bind (fun row present => ?_) fun _ _ _ _ holds => holds.1.1
  have known : routed.1 = some row := by
    cases same : routed.1 with
    | none => rw [same] at present; cases present
    | some read => rw [same] at present; exact congrArg some (Except.ok.inj present)
  refine .given (fun _ _ holds => holds.1.2.2.2.2 row known) fun wellFormed => ?_
  have entry (open' : row.status ≠ .complete ∧ row.status ≠ .overrun) (s : Shared (machine D))
      (holds : Routing D pid args worker routed s) : Entry D pid args worker row routed.2 s := by
    refine ⟨holds.1.2.2.1 ?_, holds.1.2.2.2.1 row known, holds.2⟩
    intro other same
    rw [known] at same
    exact some.inj same ▸ open'
  split
  · exact ((safe_stage (only_verifyStoredReceipt _)).strengthen fun _ _ holds => holds.1.1).bind
      fun _ => fun _ _ => id
  · exact fun _ _ holds => holds.1.1
  · rename_i incomplete notOverrun
    exact (safe_proceed admission row routed.2 wellFormed).strengthen
      fun s _ holds => entry ⟨incomplete, notOverrun⟩ s holds

theorem safe_withWorker : Passes D scope
    pid args none .unfinished (withSlot ((range D.concurrency).map LockId.worker) (work D args)) .locked := by
  have taken {lock : LockId} (member : lock ∈ (range D.concurrency).map LockId.worker) :
      ∃ index, lock = .worker index := by
    obtain ⟨index, -, rfl⟩ := mem_map.mp member
    exact ⟨index, rfl⟩
  refine safe_withSlot
    (G := fun lock s => ∀ index, lock = .worker index → Working D pid args (some index) .unfinished s)
    (R := fun lock s => ∀ index, lock = .worker index → Working D pid args (some index) .locked s)
    (fun lock s s' inv step holds index same => framed.stable s s' inv step (holds index same))
    framed.stable ?_ ?_ ?_ ?_
  · intro lock s s' member inv working performs index same
    have kept := framed.kept inv performs trivial id working
    refine ⟨kept.held, ?_, kept.called, kept.fact⟩
    rintro _ ⟨⟩
    exact same ▸ (performs_slot performs).2
  · intro lock member
    obtain ⟨index, rfl⟩ := taken member
    refine (safe_work positive).consequence (fun _ _ holds => holds index rfl) ?_ ?_
    · rintro _ s holds _ ⟨⟩
      exact holds
    · rintro _ s holds _ ⟨⟩
      exact holds
  · intro lock s member holds
    obtain ⟨index, rfl⟩ := taken member
    exact (holds index rfl).slot index rfl
  · intro lock s s' member inv holds performs
    obtain ⟨index, rfl⟩ := taken member
    obtain ⟨held, slot, called, -⟩ := holds index rfl
    exact ⟨held.keep_unless_released performs nofun, nofun, (seen_performs performs).mpr (.inr called), trivial⟩

theorem safe_runLocked : Passes D scope pid args none .locked (runLocked D args) .locked := by
  have read : Part D scope pid args none .locked (inspect (args.requestId D)) fun found => Read D pid args none found := safe_inspect
  refine read.bind fun existing => ?_
  cases existing with
  | none => exact (safe_withWorker positive).strengthen fun _ _ read => read.2.1 fun _ => nofun
  | some row =>
    simp only
    split
    · exact ((safe_stage (only_verifyStoredReceipt _)).strengthen fun _ _ read => read.1).bind
        fun _ => fun _ _ => id
    · rename_i unfinished
      refine (safe_withWorker positive).strengthen fun _ _ read => read.2.1 ?_
      rintro _ ⟨⟩
      exact unfinished

end

theorem safe_run :
    (discipline D scope).Obeys pid (fun s => Seen (By pid (calls (.run args))) s.trace) (run D args) := by
  refine .check fun _ => ?_
  refine .ofExcept_bind (fun _ valid => ?_) fun _ _ _ _ _ => trivial
  refine safe_withSlot (S := fun _ => True) (G := fun _ => Working D pid args none .locked)
    (R := fun _ => Working D pid args none .locked) (fun _ => framed.stable)
    Protocol.Stable.true ?_ (fun _ _ => safe_runLocked (validateJob_ok valid)) ?_ ?_
  · intro lock s s' member inv called performs
    have taken := (performs_slot performs).2
    rw [mem_singleton.mp member] at taken
    exact ⟨taken, nofun, (seen_performs performs).mpr (.inr called), trivial⟩
  · intro lock s member working
    rw [mem_singleton.mp member]
    exact working.held
  · exact fun _ _ _ _ _ _ _ => trivial

/-! ## All calls -/

theorem safe_discard {L : Assertion (machine D)} {Q : α → Assertion (machine D)} (safe : (discipline D scope).Safe
    pid L program Q E) : (discipline D scope).Obeys pid L program.discard :=
  (safe.raising fun _ _ _ => trivial).bind
    fun _ => fun _ _ _ => trivial

theorem safe_bindPreparedStandingLedgerAdmission (E : Instance) (context : Option ℕ) (job : Job) :
    (discipline D scope).Obeys pid (fun _ => True) (bindPreparedStandingLedgerAdmission D E context job) := by
  have passive {α : Type} {program : Program α} (only : program.Only Act.Still) :
      (discipline D scope).Obeys pid (fun _ => True) program :=
    safe_passive only .fact fun _ => id
  have anything : (discipline D scope).Framed pid (fun _ => True) fun _ => True := .fact
  refine (passive (only_inspect _)).bind fun found => ?_
  refine (passive (only_ofResult _)).bind fun row => (passive (only_require _ _)).bind fun _ => ?_
  refine (passive (only_ofResult _)).bind fun _ => ?_
  refine (passive (only_verifyPreparedFalAdmission E job row false)).bind fun _ => ?_
  refine (passive (only_freshAuthenticatedBudgetAdmission job row)).bind fun authenticated => ?_
  refine (passive (only_ofResult _)).bind fun admission => ?_
  have bind : (discipline D scope).Obeys pid (fun _ => True)
      (Program.bindAdmission (D.requestId job) row.settlementBinding (ledgerAdmission D job row admission)) :=
    anything.request trivial fun _ _ _ => trivial
  exact bind.bind fun _ => passive (only_inspect _)

theorem safe_body (call : Call) : (discipline D scope).Obeys pid (fun s => Seen (By pid (calls call)) s.trace)
    (call.body D) := by
  have anything : (discipline D scope).Framed pid (fun _ => True) fun _ => True := .fact
  have free (requestId : String) : (discipline D scope).Framed pid
      (fun action => ¬ action.Decides D requestId) fun _ => True := .fact
  have called : (discipline D scope).Framed pid (fun _ => True)
      fun s => Seen (By pid (calls call)) s.trace := seen_framed
  have external (requestId : String) (is : call.External) (s : Shared (machine D))
      (seen : Seen (By pid (calls call)) s.trace) : Reporter D pid requestId s :=
    .inr ⟨call, is, seen⟩
  have prepares (is : call.Prepares) (s : Shared (machine D)) (seen : Seen (By pid (calls call)) s.trace) :
      ∃ other, other.Prepares ∧ Seen (By pid (calls other)) s.trace :=
    ⟨call, is, seen⟩
  cases call with
  | run args => exact safe_discard safe_run
  | prepareIntent executor job authScope generation owner =>
    exact safe_discard (safe_prepareIntent (called.mono fun _ _ => trivial)
      (fun _ _ none => by cases none) (prepares trivial) _ _ _ _ _)
  | bindPreparedStandingLedgerAdmission executor job =>
    exact safe_discard ((safe_bindPreparedStandingLedgerAdmission _ _ _).strengthen fun _ _ _ => trivial)
  | qa args =>
    have review : (discipline D scope).Obeys pid (fun _ => True) (qa none args) :=
      anything.request trivial fun _ _ _ => trivial
    exact review.strengthen fun _ _ _ => trivial
  | callback args pinned providerId partialPath =>
    exact (safe_checkpoint (called.mono fun _ _ => trivial) (external _ trivial) _ _ _).obeys
  | attachMarker executor requestId marker =>
    have attach : (discipline D scope).Safe pid
        (fun s => Seen (By pid (calls (.attachMarker executor requestId marker))) s.trace)
        (change executor none none requestId (.finalAdmissionMarker marker))
        (fun _ s => Seen (By pid (calls (.attachMarker executor requestId marker))) s.trace)
        fun _ s => Seen (By pid (calls (.attachMarker executor requestId marker))) s.trace :=
      called.request trivial fun s _ seen => ⟨.attachMarker executor requestId marker, trivial, seen⟩
    exact attach.obeys
  | prepareAndReserve coordinator job episodeId experiment =>
    exact safe_discard (safe_prepareAndReserve called (prepares trivial) _ _ _ _)
  | checkpointProviderBinding requestId providerId partialPath =>
    exact safe_discard (safe_checkpointProviderBinding (called.mono fun _ _ => trivial) (external _ trivial) _ _)
  | markUnknown requestId =>
    exact safe_discard ((safe_markUnknown (free requestId) _).strengthen fun _ _ _ => trivial)
  | settleVerifiedReceipt body settlementReceipt =>
    exact safe_discard ((safe_settleVerifiedReceipt (free "") _ _).strengthen fun _ _ _ => trivial)
  | ledger op =>
    exact safe_discard ((safe_ledger_outside (free "") op.outside_context).strengthen fun _ _ _ => trivial)

theorem discipline_admits {kinds : Set Call} (within : ∀ pid, kinds ⊆ scope pid) :
    (discipline D scope).Admits (callsIn D kinds) := by
  rintro _ ⟨call, member, rfl⟩ pid
  refine .bind (Q := fun _ s => Seen (By pid (calls call)) s.trace) ?_ fun _ => safe_body call
  refine .perform (fun _ _ _ => within pid member) (fun _ => seen_framed.stable) ?_
  intro _ s s' inv _ performs _
  exact (seen_performs performs).mpr (.inl ⟨rfl, rfl⟩)

theorem sound_freshRoot : (discipline D scope).Sound (freshRoot D) := .initial Inv.empty

end VideoPoster.Executor
