import VideoPoster.Executor.RunConduct

/-!
# The budget of an executor
-/

namespace VideoPoster.Executor
open Python Billing Tables Interleaving Table Row

variable {D : Deployment} {scope : Scope} {s s' : Shared (machine D)} {pid : ℕ} {action : Act}
  {response : action.Res}

def Update.Affordable (row : Row) : Update → Prop
  | .complete _ _ actual _ => actual ≤ row.charged
  | .prepared => row.status ≠ .overrun
  | _ => True

instance (row : Row) : (update : Update) → Decidable (update.Affordable row)
  | .complete _ _ actual _ => inferInstanceAs (Decidable (actual ≤ row.charged))
  | .prepared => inferInstanceAs (Decidable (row.status ≠ .overrun))
  | .submitting | .cacheKey _ | .cacheHit _ _ _ | .evidence _ _ | .partialPath _ | .overrun _ _
  | .finalAdmissionMarker _ => .isTrue trivial

def withinReservation (w : World) (e : Event actions) : Prop :=
  ∀ change ∈ e.action.changed, ∀ row ∈ w.jobs.find? change.1, change.2.Affordable row

instance (w : World) (e : Event actions) : Decidable (withinReservation w e) :=
  inferInstanceAs (Decidable (∀ change ∈ e.action.changed, _))

def WithinLimit (D : Deployment) (jobs : Jobs) : Prop :=
  ∀ mode, (∃ row ∈ inMode jobs mode, row.status = .overrun) ∨ spent D jobs mode ≤ D.limit

def Row.charge (mode : Mode) (row : Row) : ℚ := if row.mode = mode then row.charged else 0

theorem WithinLimit.inserted {jobs : Jobs} {files : Files} {r : Reservation}
    (admitted : Admitted D files jobs r) (within : WithinLimit D jobs) : WithinLimit D (jobs.put (r.row D)) := by
  intro mode
  have total : spent D (jobs.put (r.row D)) mode = spent D jobs mode + (r.row D).charge mode := by
    rw [spent, sum_put_new _ admitted.absent, spent, charge]
    abel
  by_cases same : r.job.mode = mode
  · right
    subst same
    rw [total, charge, if_pos (show (r.row D).mode = r.job.mode from rfl)]
    exact admitted.budget
  · rw [total, charge, if_neg (show (r.row D).mode ≠ mode from same), add_zero]
    refine (within mode).imp_left fun ⟨row, listed, overrun⟩ => ⟨row, ?_, overrun⟩
    obtain ⟨member, rfl⟩ := mem_inMode.mp listed
    refine mem_inMode.mpr ⟨mem_put.mpr (.inr ⟨member, ?_⟩), rfl⟩
    exact find?_eq_none.mp admitted.absent row member

theorem WithinLimit.updated {jobs : Jobs} {old new : Row} (found : jobs.find? new.requestId = some old)
    (request : new.request = old.request) (frozen : old.status = .overrun → new.status = .overrun) (cheap : new.status =
    .overrun ∨ new.charged ≤ old.charged) (within : WithinLimit D jobs) : WithinLimit D (jobs.put new) := by
  intro mode
  have sameMode : new.mode = old.mode := congrArg Job.mode request
  by_cases overrun : new.status = .overrun ∧ new.mode = mode
  · exact .inl ⟨new, mem_inMode.mpr ⟨mem_put.mpr (.inl rfl), overrun.2⟩, overrun.1⟩
  · have charge : new.charge mode ≤ old.charge mode := by
      simp only [charge, sameMode]
      split_ifs with mine
      · exact cheap.resolve_left fun exceeds => overrun ⟨exceeds, sameMode.trans mine⟩
      · exact le_rfl
    have total : spent D (jobs.put new) mode ≤ spent D jobs mode :=
      add_le_add_right (sum_put_le (Row.charge mode) found charge) _
    refine (within mode).imp (fun ⟨row, listed, exceeds⟩ => ⟨row, ?_, exceeds⟩) total.trans
    obtain ⟨member, rfl⟩ := mem_inMode.mp listed
    refine mem_inMode.mpr ⟨mem_put.mpr (.inr ⟨member, fun key => ?_⟩), rfl⟩
    obtain rfl : row = old := by
      rw [← key, find?_eq_some.mpr ⟨member, rfl⟩] at found
      exact Option.some.inj found
    exact overrun ⟨frozen exceeds, sameMode⟩

theorem WithinLimit.performs (inv : Inv D scope s) (granted : Granted D scope pid s action) (affordable :
    withinReservation s.world ⟨pid, action, response⟩) (internal : ¬ CalledExternally pid s) (performs : Performs
    pid action response s s') (within : WithinLimit D s.world.jobs) : WithinLimit D s'.world.jobs := by
  have change := performs_jobs performs
  generalize s'.world.jobs = after at change
  cases change with
  | same => exact within
  | inserted admitted => exact within.inserted admitted
  | @updated _ _ old new requestId succeeds target found update =>
    obtain ⟨member, key⟩ := find?_eq_some.mp found
    have found' : s.world.jobs.find? new.requestId = some old := by rw [update.requestId, key, found]
    refine within.updated found' update.request (fun overrun => ?_) ?_
    · rcases update.of_finished granted target found (.inr overrun) with
        ⟨E, context, given, rfl⟩ | ⟨-, external⟩ | ⟨same, -⟩
      · exact absurd overrun (affordable _ rfl old found)
      · exact absurd external internal
      · exact same.trans overrun
    · cases update with
      | @changed E context given requestId update row guarded =>
        cases target
        cases update with
        | overrun => exact .inl rfl
        | complete => exact .inr (affordable _ rfl old found)
        | cacheHit => exact .inr (inv.wellFormed old member).charged
        | prepared | submitting | cacheKey | evidence | partialPath | finalAdmissionMarker =>
          exact .inr le_rfl
      | bound | pinned | admitted | reviewed => exact .inr le_rfl

theorem not_calledExternally (inv : Inv D (fun _ => executorCalls) s) : ¬ CalledExternally pid s := by
  rintro ⟨call, external, called⟩
  have member := inv.inScope pid call called
  cases call <;> first | exact member | exact external

variable {c : Config (machine D) Error}

/-- As long as every change is affordable, a mode without an overrun is within the limit. -/
theorem budget_ceiling (prior : D.priorSpend ≤ D.limit)
    (reaches : Reaches (callsIn D executorCalls) withinReservation (freshRoot D) c) (mode : Mode)
    (thawed : ∀ row ∈ inMode c.world.jobs mode, row.status ≠ .overrun) : spent D c.world.jobs mode ≤ D.limit := by
  have within : WithinLimit D c.world.jobs := by
    refine Protocol.Sound.invariant (K := fun s : Shared (machine D) => WithinLimit D s.world.jobs)
      (discipline_admits fun _ => subset_refl executorCalls) sound_freshRoot ?_ (fun _ _ => id)
      ?_ reaches
    · intro pid action response s s' inv within granted affordable performs
      exact WithinLimit.performs inv granted affordable (not_calledExternally inv) performs within
    · intro mode
      exact .inr (by simpa [spent, freshRoot, Config.initial, World.empty] using prior)
  rcases within mode with ⟨row, member, overrun⟩ | ceiling
  · exact absurd overrun (thawed row member)
  · exact ceiling

def sampleCachedRun : RunArgs where
  executor := { sampleExecutor with cas := true }
  job := sampleFirst
  providerMode := .test
  recoversLocally := true

def cachedThenRecovered : List Turn :=
  [⟨.run sampleCachedRun, sampleOracle (some "/out/a.png") (sampleProvider 1), 8, true⟩,
    ⟨.run sampleCachedRun, sampleOracle none (sampleProvider 1), 13, false⟩]

def tightDeployment : Deployment := sampleDeployment (1 / 2)

theorem cachedThenRecovered_exceeds_limit : ∃ c, Reaches (callsIn tightDeployment executorCalls)
    anyStep (freshRoot tightDeployment) c ∧ tightDeployment.priorSpend ≤ tightDeployment.limit ∧ (∀ row ∈ inMode
    c.world.jobs .test, row.status ≠ .overrun) ∧ tightDeployment.limit < spent tightDeployment c.world.jobs .test := by
  have passed : (after tightDeployment anyStep (freshRoot _) cachedThenRecovered).any
      (fun c : Config (machine tightDeployment) Error => decide ( tightDeployment.priorSpend ≤ tightDeployment.limit ∧
        (∀ row ∈ inMode c.world.jobs .test, row.status ≠ .overrun) ∧
        tightDeployment.limit < spent tightDeployment c.world.jobs .test)) = true := by
    decide +kernel
  obtain ⟨c, reached, holds⟩ := exists_reaches_of_after _ anyStep executorCalls
    (by simp [cachedThenRecovered, executorCalls, Call.OnExecutor]) passed
  exact ⟨c, reached, of_decide_eq_true holds⟩

def cachedRun : List Turn :=
  [⟨.run sampleCachedRun, sampleOracle (some "/out/a.png") (sampleProvider 1), 14, false⟩]

theorem cachedRun_within_limit : ∃ c, Reaches (callsIn tightDeployment executorCalls)
    withinReservation (freshRoot tightDeployment) c ∧ (inMode c.world.jobs .test).map status =
    [.complete] ∧ spent tightDeployment c.world.jobs .test ≤ tightDeployment.limit := by
  have passed : (after tightDeployment withinReservation (freshRoot _) cachedRun).any
      (fun c => decide ((inMode c.world.jobs .test).map status = [.complete])) = true := by
    decide +kernel
  obtain ⟨c, reached, holds⟩ := exists_reaches_of_after _ withinReservation executorCalls
    (by simp [cachedRun, executorCalls, Call.OnExecutor]) passed
  have statuses := of_decide_eq_true holds
  refine ⟨c, reached, statuses, budget_ceiling (by decide +kernel) reached .test ?_⟩
  intro row member overrun
  have : row.status ∈ (inMode c.world.jobs .test).map status := List.mem_map_of_mem member
  rw [statuses, overrun] at this
  simp at this

end VideoPoster.Executor
