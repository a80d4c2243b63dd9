import VideoPoster.Executor.RunConduct

/-!
# A request is submitted at most once
-/

namespace VideoPoster.Executor
open Python Billing Tables Interleaving List

variable {D : Deployment} {scope : Scope} {s s' : Shared (machine D)}

def Act.submitted : Act → Option Job
  | .submit job => some job
  | _ => none

def Act.submission (D : Deployment) (action : Act) : Option String := action.submitted.map D.requestId

def submissions (D : Deployment) (trace : List (Event actions)) : List String :=
  trace.filterMap fun e => e.action.submission D

theorem submits_iff {requestId : String} {e : Event actions} :
    submits D requestId e ↔ e.action.submission D = some requestId := by
  obtain ⟨process, action, response⟩ := e
  cases action with
  | submit job => exact Option.some_inj.symm
  | _ => exact ⟨False.elim, nofun⟩

theorem mem_submissions {requestId : String} {trace : List (Event actions)} :
    requestId ∈ submissions D trace ↔ Seen (submits D requestId) trace := by
  simp only [submissions, mem_filterMap, Seen, submits_iff]

theorem submissions_performs {pid : ℕ} {action : Act} {response : action.Res} (granted : Granted D scope pid s action)
    (performs : Performs pid action response s s')
    (once : (submissions D s.trace).Nodup) : (submissions D s'.trace).Nodup := by
  rw [performs_trace performs]
  cases action with
  | submit job =>
    have first : D.requestId job ∉ submissions D s.trace := fun submitted =>
      granted.2.2.1 (mem_submissions.1 submitted)
    exact nodup_cons.mpr ⟨first, once⟩
  | _ => exact once

theorem stored_of_submitting {e : Event actions} {requestId : String} (marked : marks .submitting requestId e)
    (performs : Performs e.process e.action e.response s s') :
    ∃ row, s'.world.jobs.find? requestId = some row ∧ row.status = .submitting := by
  obtain ⟨E, context, given, same⟩ := marks_eq marked
  rw [same] at performs
  have change := performs_jobs performs
  generalize s'.world.jobs = after at change
  cases change with
  | same calm => exact (calm trivial).elim
  | @updated _ _ old new target succeeds targeted found update =>
    cases targeted
    cases update
    have key := (Table.find?_eq_some.mp found).2
    exact ⟨_, (congrArg _ key.symm).trans (Table.find?_put_self _ _), rfl⟩

variable {kinds : Set Call} {c : Config (machine D) Error}

/-- At most once, and only after the marker. -/
theorem submitted_at_most_once (reaches : Reaches (callsIn D kinds) anyStep (freshRoot D) c) :
    (submissions D c.trace).Nodup ∧ ∀ (e : Event actions) (earlier : List (Event actions)) (requestId : String),
    e :: earlier <:+ c.trace → e.action.submission D = some requestId → ∃ (b : Config (machine D) Error)
    (row : Row), Reaches (callsIn D kinds) anyStep (freshRoot D) b ∧ Reaches (callsIn D kinds)
    anyStep b c ∧ b.trace <:+ earlier ∧ b.world.jobs.find? requestId = some row ∧ row.status = .submitting := by
  have never (e : Event actions) (earlier : List (Event actions)) : ¬ e :: earlier <:+ (freshRoot D).trace := by
    simp [freshRoot, Config.initial]
  have admits := discipline_admits (D := D) (fun _ : ℕ => subset_refl kinds)
  refine ⟨?_, fun e earlier requestId event submitted => ?_⟩
  · refine Protocol.Sound.invariant (K := fun s => (submissions D s.trace).Nodup) admits
      sound_freshRoot ?_ (fun _ _ => id) nodup_nil reaches
    intro pid action response s s' _ once granted _ performs
    have granted : Granted D (fun _ => kinds) pid s action := granted
    exact submissions_performs granted performs once
  · obtain ⟨b, d, toB, step, fromD, rfl, performs⟩ := reaches.performed event (never _ _)
    have sound := sound_freshRoot.reaches admits (toB.tail step)
    have submits : submits D requestId e := submits_iff.2 submitted
    have marked := sound.inv.submitted requestId ((seen_performs performs).mpr (.inl submits))
    obtain ⟨marker, member, marks⟩ : Seen (marks .submitting requestId) b.trace := by
      refine ((seen_performs performs).mp marked).resolve_left fun marks => ?_
      obtain ⟨job, _, _, same⟩ := submits_eq submits
      obtain ⟨_, _, _, same'⟩ := marks_eq marks
      rw [same] at same'
      cases same'
    obtain ⟨later, before, split⟩ := append_of_mem member
    obtain ⟨x, y, toX, step', fromY, rfl, performs'⟩ :=
      toB.performed (e := marker) ⟨later, split.symm⟩ (never _ _)
    obtain ⟨row, found, status⟩ := stored_of_submitting marks performs'
    refine ⟨y, row, toX.tail step', (fromY.tail step).trans fromD, ?_, found, status⟩
    rw [performs_trace performs', split]
    exact suffix_append _ _

theorem sampleRun_submitted_once :
    ∃ c, Reaches (callsIn (sampleDeployment 6) executorCalls) anyStep (freshRoot (sampleDeployment 6)) c ∧
    sampleFirstId ∈ submissions (sampleDeployment 6) c.trace ∧ (submissions (sampleDeployment 6) c.trace).Nodup := by
  have passed : (after (sampleDeployment 6) anyStep (freshRoot _)
      [⟨.run sampleRun, sampleOracle none (sampleProvider 1), 16, false⟩]).any
      (fun c : Config (machine (sampleDeployment 6)) Error =>
        decide (sampleFirstId ∈ submissions (sampleDeployment 6) c.trace)) = true := by
    decide +kernel
  obtain ⟨c, reached, submitted⟩ := exists_reaches_of_after _ anyStep executorCalls
    (by simp [executorCalls, Call.OnExecutor]) passed
  exact ⟨c, reached, of_decide_eq_true submitted, (submitted_at_most_once reached).1⟩

end VideoPoster.Executor
