import VideoPoster.Executor.RunConduct

/-!
# What the calls write
-/

namespace VideoPoster.Executor
open Python Billing Tables Interleaving Act.Still Prog

variable {D : Deployment}

structure Minted (r : Reservation) : Prop where
  mode : r.job.mode.Explicit
  endpoint : r.job.endpoint ≠ ""
  scope : r.authScope ≠ "" ∧ r.authScope.length ≤ 512
  origin : (∃ E, intentScope E r.job none r.authenticatedBudgetAdmission = .ok r.authScope) ∨
    r.authenticatedBudgetAdmission = none ∧ ∃ args : RunArgs, args.job = r.job ∧
      r.authScope = runScope args

def Act.Written : Act → Prop
  | .reserve r => Minted r
  | .qa context _ => context = none
  | _ => True

def Act.Plain : Act → Prop
  | .change _ _ _ _ (.cacheHit _ _ _) => False
  | _ => True

def Act.Spoken (action : Act) : Prop := action.Written ∧ action.Plain

theorem Act.Still.spoken (action : Act) (still : action.Still) : action.Spoken := by
  cases action with
  | change | reserve | qa => exact still.elim
  | _ => exact ⟨trivial, trivial⟩

theorem validateJob_endpoint {job : Job} {u : Unit} (valid : validateJob job = .ok u) : job.endpoint ≠ "" := by
  simp only [validateJob, bind_eq_ok, require_eq_ok] at valid
  obtain ⟨_, -, -, named, -⟩ := valid
  exact named

theorem settlementScope_given {job : Job} {given scope : String}
    (settled : settlementScope job (some given) = .ok scope) :
    scope = given ∧ scope ≠ "" ∧ scope.length ≤ 512 := by
  simp only [settlementScope, bind_eq_ok, require_eq_ok, pure_eq_ok, Option.getD_some] at settled
  obtain ⟨_, -, _, bounded, same⟩ := settled
  exact ⟨same.symm, same ▸ bounded⟩

theorem intentScope_none {E : Instance}
    {job : Job} {given : Option String} {admission : Option BudgetAdmission} {scope : String}
    (minted : intentScope E job given admission = .ok scope) : intentScope E job none admission = .ok scope := by
  unfold intentScope at minted ⊢
  cases admission with
  | some admission =>
    simp only [bind_eq_ok, require_eq_ok, pure_eq_ok] at minted ⊢
    obtain ⟨u, -, rfl⟩ := minted
    exact ⟨u, .inl trivial, rfl⟩
  | none =>
    simp only [bind_eq_ok, require_eq_ok, pure_eq_ok] at minted ⊢
    obtain ⟨u, authorized, v, -, rfl⟩ := minted
    exact ⟨u, authorized, v, .inl trivial, rfl⟩

section Plain
variable {α : Type}

theorem plain : True ∧ True := ⟨trivial, trivial⟩

theorem spoken_of_still {program : Program α} (only : program.Only Act.Still) : program.Only Act.Spoken :=
  only.mono spoken

theorem spoken_discard {program : Program α} (spoken : program.Only Act.Spoken) : program.discard.Only Act.Spoken :=
  spoken.bind fun _ => trivial

theorem spoken_withSlot {paths : List LockId} {body : Program α} (spoken : body.Only Act.Spoken) :
    (Program.withSlot paths body).Only Act.Spoken :=
  .act plain fun _ => spoken.ensuring (only_act plain)

theorem spoken_reserve {context generation : Option ℕ} {job : Job} {cost : ℚ} {key given : String}
    {admission : Option BudgetAdmission} {owner : Option OwnerBinding}
    (minted : given ≠ "" ∧ given.length ≤ 512 → Minted ⟨job, cost, key, given, admission, generation, owner⟩) :
    (reserve context job cost key (some given) admission generation owner).Only Act.Spoken := by
  refine (only_require _ _).bind fun _ => (only_require _ _).bind fun _ =>
    (only_require _ _).bind fun _ => (only_ofResult _).bind fun _ =>
    (spoken_of_still (only_validateInputContract job)).bind fun _ =>
    Prog.Only.ofExcept_bind fun scope settled => ?_
  obtain ⟨rfl, bounded⟩ := settlementScope_given settled
  exact only_request ⟨minted bounded, trivial⟩

theorem spoken_markPrepared (E : Instance) (context : Option ℕ) (job : Job) :
    (markPrepared D E context job).Only Act.Spoken :=
  .request plain fun _ => spoken_of_still (only_inspect _)

theorem spoken_prepareIntent (E : Instance) (context : Option ℕ) (job : Job)
    (authScope : Option String) (generation : Option ℕ) (owner : Option OwnerBinding) :
    (prepareIntent D E context job authScope generation owner).Only Act.Spoken := by
  refine .ofExcept_bind fun _ explicit => .ofExcept_bind fun _ valid =>
    (spoken_of_still (only_validateInputContract job)).bind fun _ =>
    (spoken_of_still (only_configuredAuthenticatedBudgetBinding job)).bind fun admission =>
    Prog.Only.ofExcept_bind fun scope minted => ?_
  have mode := require_eq_ok.mp explicit
  have reserved {cost : ℚ} {key : String} :
      (reserve context job cost key (some scope) admission generation owner).Only Act.Spoken :=
    spoken_reserve fun bounded =>
      ⟨mode, validateJob_endpoint valid, bounded, .inl ⟨E, intentScope_none minted⟩⟩
  refine reserved.bind fun fresh => (spoken_of_still (only_inspect _)).bind fun existing => ?_
  have read : (readBack D E context job fresh existing).Only Act.Spoken := by
    unfold readBack
    split
    · exact spoken_markPrepared E context job
    · trivial
  exact read.bind fun _ => (only_ofResult _).bind fun _ => (only_require _ _).bind fun _ => trivial

theorem spoken_bindPreparedStandingLedgerAdmission (E : Instance) (context : Option ℕ) (job : Job) :
    (bindPreparedStandingLedgerAdmission D E context job).Only Act.Spoken :=
  (spoken_of_still (only_inspect _)).bind fun _ => (only_ofResult _).bind fun row =>
    (only_require _ _).bind fun _ => (only_ofResult _).bind fun _ =>
    (spoken_of_still (only_verifyPreparedFalAdmission E job row false)).bind fun _ =>
    (spoken_of_still (only_freshAuthenticatedBudgetAdmission job row)).bind fun _ =>
    (only_ofResult _).bind fun _ => .request plain fun _ =>
    spoken_of_still (only_inspect _)

theorem spoken_marker (requestId : String) (generation : ℕ) : (marker requestId generation).Only Act.Spoken :=
  (spoken_of_still only_generatedAt).bind fun _ => only_act plain

theorem spoken_current (requestId : String) (generation : ℕ) (settlementReceipt : Option Dict) :
    (current requestId generation settlementReceipt).Only Act.Spoken :=
  (spoken_of_still (only_inspect _)).bind fun _ => .request plain fun _ =>
    (only_ofResult _).bind fun _ => (only_require _ _).bind fun _ =>
    (spoken_of_still only_generatedAt).bind fun _ => only_act plain

theorem spoken_withGeneration {body : ℕ → Program α} (spoken : ∀ generation, (body generation).Only Act.Spoken) :
    (withGeneration body).Only Act.Spoken :=
  spoken_withSlot (.act plain fun _ => spoken _)

theorem spoken_prepareAndReserve (coordinator : Coordinator) (job : Job) (episodeId : String) (experiment : Bool) :
    (prepareAndReserve D coordinator job episodeId experiment).Only Act.Spoken :=
  spoken_withGeneration fun _ => (spoken_marker _ _).bind fun _ =>
    (spoken_prepareIntent _ _ _ _ _ _).bind fun _ => .act plain fun _ =>
    .request plain fun _ => (spoken_current _ _ _).bind fun _ => trivial

theorem spoken_checkpointProviderBinding (requestId providerId partialPath : String) :
    (Billing.checkpointProviderBinding requestId providerId partialPath).Only Act.Spoken :=
  spoken_withGeneration fun _ => (spoken_marker _ _).bind fun _ =>
    .request plain fun _ => .request plain fun _ =>
    (spoken_current _ _ _).bind fun _ => trivial

theorem spoken_markUnknown (requestId : String) : (markUnknown requestId).Only Act.Spoken :=
  spoken_withGeneration fun _ => (spoken_marker _ _).bind fun _ =>
    .request plain fun _ => .request plain fun _ =>
    (spoken_current _ _ _).bind fun _ => trivial

theorem spoken_settleVerifiedReceipt (body : String) (settlementReceipt : Dict) :
    (settleVerifiedReceipt body settlementReceipt).Only Act.Spoken :=
  (only_ofResult _).bind fun _ => spoken_withGeneration fun _ =>
    (spoken_marker _ _).bind fun _ => .request plain fun _ =>
    .request plain fun _ => .request plain fun _ =>
    (spoken_current _ _ _).bind fun _ => trivial

theorem spoken_checkpoint (args : RunArgs) (pinned : Bool) (providerId partialPath : String) :
    (checkpoint D args pinned providerId partialPath).Only Act.Spoken := by
  unfold checkpoint
  split
  · split
    · exact (only_require _ _).bind fun _ => spoken_discard (spoken_checkpointProviderBinding _ _ _)
    · exact spoken_discard (spoken_checkpointProviderBinding _ _ _)
    · exact only_request plain
    · refine (only_require _ _).bind fun _ => .request plain fun _ => ?_
      split
      · exact spoken_discard (only_request plain)
      · trivial
    · trivial
  · split
    · exact only_request plain
    · trivial

theorem spoken_awaitProvider {report : String → String → Program Unit}
    (spoken : ∀ providerId partialPath, (report providerId partialPath).Only Act.Spoken)
    (provider : ProviderRun) : (awaitProvider report provider).Only Act.Spoken := by
  induction provider with
  | done path actualCost => trivial
  | fail error => trivial
  | checkpoint providerId partialPath next ih => exact (spoken _ _).attempt.bind fun outcome => ih outcome

end Plain

section Run
variable (args : RunArgs)

theorem spoken_markSubmitting (row : Row) (fresh : Bool) : (markSubmitting D args row fresh).Only Act.Spoken := by
  unfold markSubmitting
  split_ifs
  · exact (spoken_of_still (only_verifyPreparedFalAdmission _ _ _ _)).bind fun _ =>
      .request plain fun _ => (spoken_of_still (only_inspect _)).bind fun _ =>
      (only_ofResult _).bind fun _ => trivial
  · exact .request plain fun _ => (spoken_of_still (only_inspect _)).bind fun _ =>
      (only_ofResult _).bind fun _ => trivial
  · trivial

theorem spoken_callProvider (row : Row) (submitNow : Bool) : (callProvider D args row submitNow).Only Act.Spoken := by
  have awaited (provider : ProviderRun) :
      (awaitProvider (checkpoint D args row.generation.isSome) provider).Only Act.Spoken :=
    spoken_awaitProvider (spoken_checkpoint args _) provider
  unfold callProvider
  split_ifs
  · exact .request plain fun _ => .act plain awaited
  · exact .act plain awaited
  · exact .act plain awaited
  · trivial

theorem spoken_finish (key path : String) (actual : ℚ) : (finish D args key path actual).Only Act.Spoken := by
  unfold finish
  split
  · exact .request plain fun _ => trivial
  · exact (spoken_of_still (only_storeResult _ _)).bind fun _ =>
      (spoken_of_still (only_fileSha _)).bind fun _ => .request plain fun _ =>
      spoken_of_still (only_inspect _)

theorem spoken_submitOrRecover (admission : Admission) (row : Row) (fresh : Bool) :
    (submitOrRecover D args admission row fresh).Only Act.Spoken :=
  (only_require _ _).bind fun _ => (spoken_markSubmitting args row fresh).bind fun marked =>
    (spoken_callProvider args marked.1 marked.2).bind fun _ => (only_ofResult _).bind fun _ =>
    spoken_finish args _ _ _

theorem spoken_admitExisting (row : Row) : (admitExisting D args row).Only Act.Spoken := by
  unfold admitExisting
  split_ifs
  · trivial
  · exact (spoken_of_still only_contentKey).bind fun _ => .request plain fun _ => trivial
  · trivial

theorem spoken_admitNew (mode : args.job.mode.Explicit) (endpoint : args.job.endpoint ≠ "") :
    (admitNew D args).Only Act.Spoken := by
  refine (spoken_of_still only_contentKey).bind fun key =>
    (spoken_of_still (only_cacheLookup key)).bind fun cached =>
    (spoken_of_still (only_gateMiss cached)).bind fun _ => ?_
  have reserved {cost : ℚ} : (reserve none args.job cost key (some (runScope args)) none none none).Only Act.Spoken :=
    spoken_reserve fun bounded => ⟨mode, endpoint, bounded, .inr ⟨rfl, args, rfl, rfl⟩⟩
  exact reserved.bind fun _ => trivial

theorem written_completeFromCache (admission : Admission) (cached : String) :
    (completeFromCache D args admission cached).Only Act.Written := by
  refine ((only_fileSha _).mono fun _ still => (spoken _ still).1).bind fun _ => ?_
  exact .bind (⟨trivial, fun _ => .ofExcept _⟩ : (request (I := actions)
    (.change args.executor none none (args.requestId D) _) id).Only Act.Written) fun _ =>
      (only_inspect _).mono fun _ still => (spoken _ still).1

theorem written_of_spoken {α : Type} {program : Program α} (only : program.Only Act.Spoken) :
    program.Only Act.Written :=
  only.mono fun _ => And.left

theorem written_proceed (admission : Admission) (row : Row) (fresh : Bool) :
    (proceed D args admission row fresh).Only Act.Written := by
  refine (only_ofResult _).bind fun _ => ?_
  split
  · exact written_completeFromCache _ _ _
  · exact written_of_spoken (spoken_submitOrRecover _ _ _ _)

theorem written_work (mode : args.job.mode.Explicit) (endpoint : args.job.endpoint ≠ "") :
    (work D args).Only Act.Written := by
  refine (written_of_spoken (spoken_of_still (only_validateInputContract _))).bind fun _ => ?_
  refine (written_of_spoken (spoken_of_still (only_inspect _))).bind fun existing => ?_
  have admitted : (admitRow D args existing).Only Act.Written := by
    cases existing with
    | none => exact written_of_spoken (spoken_admitNew _ mode endpoint)
    | some row => exact written_of_spoken (spoken_admitExisting _ _)
  refine admitted.bind fun admission => ?_
  refine (written_of_spoken (spoken_of_still (only_inspect _))).bind fun found => ?_
  have routed : (routeFresh D args admission found).Only Act.Written := by
    unfold routeFresh
    split
    · exact (written_of_spoken (spoken_markPrepared _ _ _)).bind fun _ => trivial
    · trivial
  refine routed.bind fun routed => (only_ofResult _).bind fun row => ?_
  split
  · exact (written_of_spoken (spoken_of_still (only_verifyStoredReceipt _))).bind fun _ => trivial
  · trivial
  · exact written_proceed _ _ _ _

theorem written_act {action : Act} (written : action.Written) :
    (act (I := actions) (ε := Error) action .pure).Only Act.Written :=
  ⟨written, fun _ => trivial⟩

theorem written_withSlot {α : Type} {paths : List LockId} {body : Program α}
    (written : body.Only Act.Written) : (Program.withSlot paths body).Only Act.Written :=
  .bind (written_act trivial) fun _ => written.ensuring (written_act trivial)

theorem written_run : (run D args).Only Act.Written := by
  refine .ofExcept_bind fun _ explicit => .ofExcept_bind fun _ valid => ?_
  have working := @written_work D args (require_eq_ok.mp explicit).1 (validateJob_endpoint valid)
  refine written_withSlot ((written_of_spoken (spoken_of_still (only_inspect _))).bind fun existing => ?_)
  cases existing with
  | none => exact written_withSlot working
  | some row =>
    simp only
    split
    · exact (written_of_spoken (spoken_of_still (only_verifyStoredReceipt row))).bind
        fun _ => trivial
    · exact written_withSlot working

end Run

theorem written_body (call : Call) : (call.body D).Only Act.Written := by
  cases call with
  | run args => exact (written_run args).bind fun _ => trivial
  | prepareIntent => exact written_of_spoken (spoken_discard (spoken_prepareIntent _ _ _ _ _ _))
  | bindPreparedStandingLedgerAdmission =>
    exact written_of_spoken (spoken_discard (spoken_bindPreparedStandingLedgerAdmission _ _ _))
  | qa => exact written_of_spoken (only_request ⟨rfl, trivial⟩)
  | attachMarker => exact written_of_spoken (only_request plain)
  | callback => exact written_of_spoken (spoken_checkpoint _ _ _ _)
  | prepareAndReserve =>
    exact written_of_spoken (spoken_discard (spoken_prepareAndReserve _ _ _ _))
  | checkpointProviderBinding =>
    exact written_of_spoken (spoken_discard (spoken_checkpointProviderBinding _ _ _))
  | markUnknown => exact written_of_spoken (spoken_discard (spoken_markUnknown _))
  | settleVerifiedReceipt =>
    exact written_of_spoken (spoken_discard (spoken_settleVerifiedReceipt _ _))
  | ledger => exact written_of_spoken (spoken_discard (only_request plain))

theorem written_program (call : Call) : (call.program D).Only Act.Written :=
  .bind (written_act trivial) fun _ => written_body call

end VideoPoster.Executor
