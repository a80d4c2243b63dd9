import Mathlib.Data.List.Perm.Basic
import VideoPoster.Flights.Loop

/-!
# One render for an episode
-/

namespace VideoPoster.Flights
open Python List Function Option Semaphore Prod State Phase

variable {Contract Outcome : Type} {digest : Contract → String} {poolSize : ℕ} {s s' : State Outcome}

/-! ## Permits -/

namespace Semaphore

def permits (s : Semaphore) : ℕ := s.value + s.waiters.countP snd

theorem countP_wakeFirst {waiters woken : List (ℕ × Bool)} (wakes : wakeFirst waiters = some woken) :
    woken.countP snd = waiters.countP snd + 1 := by
  induction waiters generalizing woken with
  | nil => cases wakes
  | cons waiter rest ih =>
    obtain ⟨flight, done⟩ := waiter
    cases done with
    | true =>
      obtain ⟨woken', inner, rfl⟩ := map_eq_some_iff.mp wakes
      simp [ih inner]
    | false =>
      cases wakes
      simp

theorem permits_wakeAll (value : ℕ) (waiters : List (ℕ × Bool)) :
    (wakeAll value waiters).permits = value + waiters.countP snd := by
  induction value generalizing waiters with
  | zero => rfl
  | succ value ih =>
    unfold wakeAll
    split
    · rfl
    · rename_i woken wakes
      have more := countP_wakeFirst wakes
      rw [ih, more]
      omega

theorem permits_release (s : Semaphore) : s.release.permits = s.permits + 1 := by
  show (((wakeFirst s.waiters).map fun waiters => (⟨s.value, waiters⟩ : Semaphore)).getD
    ⟨s.value + 1, s.waiters⟩).permits = s.permits + 1
  cases wakes : wakeFirst s.waiters with
  | none =>
    show s.value + 1 + s.waiters.countP snd = s.value + s.waiters.countP snd + 1
    omega
  | some woken =>
    have more := countP_wakeFirst wakes
    show s.value + woken.countP snd = s.value + s.waiters.countP snd + 1
    omega

theorem permits_admitted {s : Semaphore} {flight : ℕ} (member : (flight, true) ∈ s.waiters) :
    (s.admitted flight).permits + 1 = s.permits := by
  have counted := (perm_cons_erase member).countP_eq snd
  have kept := permits_wakeAll s.value (s.waiters.erase (flight, true))
  unfold admitted
  rw [kept, permits, counted]
  simp
  omega

end Semaphore

/-! ## What a step can do -/

inductive Change (digest : Contract → String) (s : State Outcome) : State Outcome → Prop
  | refused (error : Error) : Change digest s { s with callers := s.callers ++ [.refused error] }
  | joined {episode active : String} {flight : ℕ} (found : s.flights episode = some (active, flight)) :
      Change digest s { s with callers := s.callers ++ [.awaiting flight] }
  | created {episode : String} (contract : Contract) (free : s.flights episode = none) :
      Change digest s { s with
        flights := update s.flights episode (some (digest contract, s.tasks.length))
        tasks := s.tasks ++ [⟨episode, digest contract, .scheduled⟩]
        callers := s.callers ++ [.awaiting s.tasks.length] }
  | cancelled {caller flight : ℕ} (found : s.callers[caller]? = some (.awaiting flight)) :
      Change digest s (s.settle caller (.cancelled flight))
  | returned {caller flight : ℕ} {task : Flight Outcome} {outcome : Outcome}
      (awaits : s.callers[caller]? = some (.awaiting flight)) (found : s.tasks[flight]? = some task)
      (done : task.phase.outcome? = some outcome) : Change digest s (s.settle caller (.returned flight outcome))
  | advanced {flight : ℕ} {task : Flight Outcome} {phase : Phase Outcome} {semaphore : Semaphore}
      (found : s.tasks[flight]? = some task) (pending : task.phase.outcome? = none) (stays : phase.gone = false)
      (balanced : semaphore.permits + (if phase.holds then 1 else 0) =
        s.semaphore.permits + if task.phase.holds then 1 else 0) :
      Change digest s { s.advance flight task phase with semaphore }
  | unwound {flight : ℕ} {task : Flight Outcome} {outcome : Outcome} (found : s.tasks[flight]? = some task)
      (ended : task.phase = .ended outcome) : Change digest s (releaseOwner s flight task outcome)

theorem change_call (episode : String) (contract : Result Contract) :
    Change digest s (call digest s episode contract) := by
  unfold call
  split
  · exact .refused _
  · rename_i value
    split
    · rename_i free
      exact .created value free
    · rename_i active flight found
      split_ifs with same
      · exact .joined found
      · exact .refused _

variable {flight : ℕ} {task : Flight Outcome}

theorem change_start (found : s.tasks[flight]? = some task)
    (scheduled : task.phase = .scheduled) : Change digest s (start s flight task) := by
  unfold start
  split_ifs with locked
  · refine .advanced found (by rw [scheduled]; rfl) rfl ?_
    rw [scheduled]
    simp [permits, holds]
  · refine .advanced found (by rw [scheduled]; rfl) rfl ?_
    have some_free : s.semaphore.value ≠ 0 := by
      rintro none
      exact locked (by simp [Semaphore.locked, none])
    rw [scheduled]
    simp only [permits, holds, if_true, Bool.false_eq_true, if_false]
    omega

theorem change_flightStep {action : Act Contract Outcome} (found : s.tasks[flight]? = some task)
    (steps : flightStep s flight task action = some s') : Change digest s s' := by
  have advances {phase : Phase Outcome} (pending : task.phase.outcome? = none) (stays : phase.gone = false)
      (same : phase.holds = task.phase.holds) : Change digest s (s.advance flight task phase) := by
    refine @Change.advanced _ _ _ _ _ _ _ s.semaphore found pending stays ?_
    rw [same]
  cases action with
  | call | cancel | resume => cases steps
  | start =>
    simp only [flightStep] at steps
    split at steps <;> cases steps
    rename_i scheduled
    exact change_start found scheduled
  | wake =>
    simp only [flightStep] at steps
    split at steps
    · rename_i waiting
      split_ifs at steps with woken
      cases steps
      refine .advanced found (by rw [waiting]; rfl) rfl ?_
      rw [waiting]
      exact permits_admitted woken
    · cases steps
  | enter | reject =>
    simp only [flightStep] at steps
    split at steps <;> cases steps
    rename_i submitted
    exact advances (by rw [submitted]; rfl) rfl (by rw [submitted]; rfl)
  | leave =>
    simp only [flightStep] at steps
    split at steps <;> cases steps
    rename_i rendering
    exact advances (by rw [rendering]; rfl) rfl (by rw [rendering]; rfl)
  | finish =>
    simp only [flightStep] at steps
    split at steps <;> cases steps
    rename_i outcome rendered
    refine .advanced found (by rw [rendered]; rfl) rfl ?_
    rw [rendered, permits_release]
    rfl
  | releaseOwner =>
    simp only [flightStep] at steps
    split at steps <;> cases steps
    rename_i outcome ended
    exact .unwound found ended

theorem Step.change (step : Step digest s s') : Change digest s s' := by
  obtain ⟨action, executed⟩ := step
  have task (flight : ℕ) (steps : (s.tasks[flight]?.bind fun task => flightStep s flight task action) = some s') :
      Change digest s s' := by
    obtain ⟨task, found, steps⟩ := bind_eq_some_iff.mp steps
    exact change_flightStep found steps
  cases action with
  | call episode contract =>
    cases executed
    exact change_call episode contract
  | cancel caller =>
    simp only [exec, cancel] at executed
    split at executed
    · rename_i flight found
      cases executed
      exact .cancelled found
    · cases executed
  | resume caller =>
    simp only [exec, resume] at executed
    split at executed
    · rename_i flight awaits
      obtain ⟨outcome, done, rfl⟩ := map_eq_some_iff.mp executed
      obtain ⟨task, found, done⟩ := bind_eq_some_iff.mp done
      exact .returned awaits found done
    · cases executed
  | start flight => exact task flight executed
  | wake flight => exact task flight executed
  | enter flight => exact task flight executed
  | leave flight outcome => exact task flight executed
  | reject flight outcome => exact task flight executed
  | finish flight => exact task flight executed
  | releaseOwner flight => exact task flight executed

/-! ## Flights stay -/

structure Flight.Becomes (task task' : Flight Outcome) : Prop where
  episode : task'.episode = task.episode
  contract : task'.contractSha256 = task.contractSha256
  outcome : ∀ outcome, task.phase.outcome? = some outcome → task'.phase.outcome? = some outcome

theorem Flight.Becomes.refl (task : Flight Outcome) : task.Becomes task := ⟨rfl, rfl, fun _ => id⟩

section Advance
variable {flight : ℕ} {task : Flight Outcome} {phase : Phase Outcome}

variable (found : s.tasks[flight]? = some task)
include found

theorem tasks_advance (other : ℕ) : (s.advance flight task phase).tasks[other]? =
      if other = flight then some { task with phase } else s.tasks[other]? := by
  obtain ⟨bound, -⟩ := List.getElem?_eq_some_iff.mp found
  show (s.tasks.set flight _)[other]? = _
  rw [getElem?_set, if_pos bound]
  by_cases same : other = flight
  · rw [if_pos same.symm, if_pos same]
  · rw [if_neg (Ne.symm same), if_neg same]

theorem countP_advance (kind : Phase Outcome → Bool) :
    (s.advance flight task phase).tasks.countP (fun task => kind task.phase) + (if kind task.phase then 1 else 0) =
      s.tasks.countP (fun task => kind task.phase) + if kind phase then 1 else 0 := by
  obtain ⟨bound, rfl⟩ := List.getElem?_eq_some_iff.mp found
  have positive : kind s.tasks[flight].phase = true → 0 < s.tasks.countP fun task => kind task.phase := by
    intro is
    exact countP_pos_iff.mpr ⟨_, getElem_mem bound, is⟩
  show (s.tasks.set flight _).countP _ + _ = _
  rw [countP_set bound]
  by_cases is : kind s.tasks[flight].phase = true
  · have := positive is
    simp only [is, if_true]
    omega
  · simp only [is, Bool.false_eq_true, if_false]
    omega

theorem advance_becomes (kept : ∀ outcome, task.phase.outcome? = some outcome →
    phase.outcome? = some outcome) {other : ℕ} {old : Flight Outcome} (there : s.tasks[other]? = some old) :
    ∃ new, (s.advance flight task phase).tasks[other]? = some new ∧ old.Becomes new := by
  rw [tasks_advance found]
  split_ifs with same
  · subst same
    cases found.symm.trans there
    exact ⟨_, rfl, rfl, rfl, kept⟩
  · exact ⟨old, there, .refl old⟩

end Advance

theorem Change.becomes (change : Change digest s s')
    (there : s.tasks[flight]? = some task) : ∃ task', s'.tasks[flight]? = some task' ∧ task.Becomes task' := by
  cases change with
  | refused | joined | cancelled | returned => exact ⟨task, there, .refl task⟩
  | created contract free =>
    obtain ⟨bound, -⟩ := List.getElem?_eq_some_iff.mp there
    exact ⟨task, (getElem?_append_left bound).trans there, .refl task⟩
  | advanced found pending stays balanced =>
    refine advance_becomes found (fun outcome done => ?_) there
    cases pending.symm.trans done
  | unwound found ended =>
    refine advance_becomes found (fun outcome done => ?_) there
    rw [ended] at done
    exact done

/-! ## The invariant -/

structure Inv (poolSize : ℕ) (s : State Outcome) : Prop where
  permits : s.semaphore.permits + s.tasks.countP (fun task => task.phase.holds) = poolSize
  table : ∀ episode active flight, s.flights episode = some (active, flight) →
    ∃ task, s.tasks[flight]? = some task ∧ task.episode = episode ∧ task.contractSha256 = active ∧
      task.phase.gone = false
  tracked : ∀ (flight : ℕ) (task : Flight Outcome), s.tasks[flight]? = some task → task.phase.gone = false →
    s.flights task.episode = some (task.contractSha256, flight)
  awaiting : ∀ caller flight : ℕ, s.callers[caller]? = some (.awaiting flight) → ∃ task, s.tasks[flight]? = some task
  returned : ∀ (caller flight : ℕ) (outcome : Outcome), s.callers[caller]? = some (.returned flight outcome) →
    ∃ task, s.tasks[flight]? = some task ∧ task.phase.outcome? = some outcome

theorem Inv.initial : Inv poolSize (initial poolSize : State Outcome) := by
  refine ⟨?_, ?_, ?_, ?_, ?_⟩
  · simp [State.initial, Semaphore.permits]
  · intro episode active flight found
    cases found
  · intro flight task found
    simp [State.initial] at found
  · intro caller flight found
    simp [State.initial] at found
  · intro caller flight outcome found
    simp [State.initial] at found

variable {callers : List (Caller Outcome)} {value last : Caller Outcome} {caller : ℕ}

theorem of_getElem?_append (found : (callers ++ [last])[caller]? = some value) :
    callers[caller]? = some value ∨ value = last := by
  rcases Nat.lt_or_ge caller callers.length with old | new
  · rw [getElem?_append_left old] at found
    exact .inl found
  · rw [getElem?_append_right new] at found
    exact .inr (mem_singleton.mp (mem_of_getElem? found))

theorem of_getElem?_set {index : ℕ}
    (found : (callers.set index last)[caller]? = some value) : callers[caller]? = some value ∨ value = last := by
  rw [getElem?_set] at found
  split_ifs at found
  · exact .inr (some.inj found).symm
  · exact .inl found

section
variable (inv : Inv poolSize s)
include inv

section
variable (change : Change digest s s')
include change

theorem Inv.awaits (found : s'.callers[caller]? = some (.awaiting flight)) : ∃ task, s'.tasks[flight]? = some task := by
  have kept (old : s.callers[caller]? = some (.awaiting flight)) : ∃ task, s'.tasks[flight]? = some task := by
    obtain ⟨task, there⟩ := inv.awaiting caller flight old
    obtain ⟨task', there', -⟩ := change.becomes there
    exact ⟨task', there'⟩
  cases change with
  | refused error => exact kept ((of_getElem?_append found).resolve_right nofun)
  | joined listed =>
    rcases of_getElem?_append found with old | joins
    · exact kept old
    · cases joins
      obtain ⟨task, there, -⟩ := inv.table _ _ _ listed
      exact ⟨task, there⟩
  | created contract free =>
    rcases of_getElem?_append found with old | joins
    · exact kept old
    · cases joins
      exact ⟨_, getElem?_concat_length⟩
  | cancelled awaits => exact kept ((of_getElem?_set found).resolve_right nofun)
  | returned awaits there done => exact kept ((of_getElem?_set found).resolve_right nofun)
  | advanced => exact kept found
  | unwound => exact kept found

theorem Inv.returns {outcome : Outcome} (found : s'.callers[caller]? = some (.returned flight outcome)) :
    ∃ task, s'.tasks[flight]? = some task ∧ task.phase.outcome? = some outcome := by
  have kept (old : s.callers[caller]? = some (.returned flight outcome)) :
      ∃ task, s'.tasks[flight]? = some task ∧ task.phase.outcome? = some outcome := by
    obtain ⟨task, there, done⟩ := inv.returned caller flight outcome old
    obtain ⟨task', there', becomes⟩ := change.becomes there
    exact ⟨task', there', becomes.outcome _ done⟩
  cases change with
  | refused error => exact kept ((of_getElem?_append found).resolve_right nofun)
  | joined listed => exact kept ((of_getElem?_append found).resolve_right nofun)
  | created contract free => exact kept ((of_getElem?_append found).resolve_right nofun)
  | cancelled awaits => exact kept ((of_getElem?_set found).resolve_right nofun)
  | returned awaits there done =>
    rcases of_getElem?_set found with old | returns
    · exact kept old
    · cases returns
      exact ⟨_, there, done⟩
  | advanced => exact kept found
  | unwound => exact kept found

theorem Inv.permits_step : s'.semaphore.permits + s'.tasks.countP (fun task => task.phase.holds) = poolSize := by
  have before := inv.permits
  cases change with
  | refused | joined | cancelled | returned => exact before
  | created contract free =>
    show s.semaphore.permits + (s.tasks ++ [_]).countP _ = poolSize
    rw [countP_append]
    simpa [holds] using before
  | @advanced flight task phase semaphore found pending stays balanced =>
    have counted := @countP_advance _ _ _ _ phase found holds
    show semaphore.permits + (s.advance flight task phase).tasks.countP _ = poolSize
    omega
  | @unwound flight task outcome found ended =>
    have counted := @countP_advance _ _ _ _ (.unwound outcome) found holds
    have idle : task.phase.holds = false := by rw [ended]; rfl
    rw [idle, show holds (.unwound outcome) = false from rfl] at counted
    simp only [Bool.false_eq_true, if_false, Nat.add_zero] at counted
    show s.semaphore.permits + (s.advance flight task (.unwound outcome)).tasks.countP _ = poolSize
    omega

theorem Inv.table_step : (∀ episode active flight,
    s'.flights episode = some (active, flight) → ∃ task, s'.tasks[flight]? = some task ∧ task.episode = episode ∧
    task.contractSha256 = active ∧ task.phase.gone = false) ∧ ∀ (flight : ℕ) (task : Flight Outcome), s'.tasks[flight]?
    = some task → task.phase.gone = false → s'.flights task.episode = some (task.contractSha256, flight) := by
  cases change with
  | refused | joined | cancelled | returned => exact ⟨inv.table, inv.tracked⟩
  | @created episode contract free =>
    refine ⟨fun other active flight listed => ?_, fun flight task there stays => ?_⟩
    · have listed : update s.flights episode (some (digest contract, s.tasks.length)) other =
        some (active, flight) := listed
      rw [update_apply] at listed
      split_ifs at listed with same
      · cases listed
        exact ⟨_, getElem?_concat_length, same.symm, rfl, rfl⟩
      · obtain ⟨task, there, facts⟩ := inv.table other active flight listed
        obtain ⟨bound, -⟩ := List.getElem?_eq_some_iff.mp there
        exact ⟨task, (getElem?_append_left bound).trans there, facts⟩
    · show update s.flights episode _ task.episode = _
      rcases Nat.lt_or_ge flight s.tasks.length with old | new
      · have there : s.tasks[flight]? = some task := (getElem?_append_left old).symm.trans there
        have listed := inv.tracked flight task there stays
        have other : task.episode ≠ episode := by
          rintro rfl
          rw [free] at listed
          cases listed
        rw [update_of_ne other, listed]
      · have there : (s.tasks ++ [⟨episode, digest contract, .scheduled⟩])[flight]? = some task := there
        obtain ⟨bound, -⟩ := List.getElem?_eq_some_iff.mp there
        have last : flight = s.tasks.length := by simp at bound; omega
        subst last
        rw [getElem?_concat_length] at there
        cases there
        rw [update_self]
  | @advanced moving old phase semaphore found pending stays balanced =>
    have here : s.flights old.episode = some (old.contractSha256, moving) := by
      refine inv.tracked moving old found ?_
      cases phase : old.phase with
      | unwound outcome =>
        rw [phase] at pending
        cases pending
      | scheduled | waiting | submitted | rendering | rendered | ended => rfl
    refine ⟨fun episode active flight listed => ?_, fun flight task there present => ?_⟩
    · obtain ⟨task, there, sameEpisode, sameContract, present⟩ := inv.table episode active flight listed
      by_cases same : flight = moving
      · subst same
        cases found.symm.trans there
        exact ⟨{ old with phase }, by rw [tasks_advance found, if_pos rfl], sameEpisode, sameContract, stays⟩
      · exact ⟨task, by rw [tasks_advance found, if_neg same]; exact there, sameEpisode, sameContract, present⟩
    · rw [tasks_advance found] at there
      split_ifs at there with same
      · subst same
        cases there
        exact here
      · exact inv.tracked flight task there present
  | @unwound moving old outcome found ended =>
    have here : s.flights old.episode = some (old.contractSha256, moving) :=
      inv.tracked moving old found (by rw [ended]; rfl)
    have table : (releaseOwner s moving old outcome).flights = update s.flights old.episode none := if_pos here
    have tasks (other : ℕ) : (releaseOwner s moving old outcome).tasks[other]? =
        if other = moving then some { old with phase := .unwound outcome } else s.tasks[other]? :=
      tasks_advance found other
    refine ⟨fun episode active flight listed => ?_, fun flight task there present => ?_⟩
    · rw [table, update_apply] at listed
      split_ifs at listed with freed
      obtain ⟨task, there, rfl, sameContract, present⟩ := inv.table episode active flight listed
      refine ⟨task, ?_, rfl, sameContract, present⟩
      rw [tasks, if_neg]
      · exact there
      · rintro rfl
        cases found.symm.trans there
        exact freed rfl
    · rw [tasks] at there
      split_ifs at there with same
      · cases there
        cases present
      · have listed := inv.tracked flight task there present
        rw [table, update_of_ne, listed]
        intro shared
        rw [shared, here] at listed
        exact same (mk.inj (some.inj listed)).2.symm

end

theorem Inv.step (step : Step digest s s') : Inv poolSize s' := by
  have change := step.change
  exact ⟨inv.permits_step change, (inv.table_step change).1, (inv.table_step change).2,
    fun _ _ => inv.awaits change, fun _ _ _ => inv.returns change⟩

theorem Inv.reaches (reaches : Reaches digest s s') : Inv poolSize s' := by
  induction reaches with
  | refl => exact inv
  | tail _ step ih => exact ih.step step

end

/-! ## Single flight -/

variable {phase : Phase Outcome}

theorem gone_of_renders (renders : phase.renders = true) : phase.gone = false := by
  cases phase <;> first | rfl | cases renders

theorem holds_of_renders (renders : phase.renders = true) : phase.holds = true := by
  cases phase <;> first | rfl | cases renders

theorem gone_of_pending (pending : phase.outcome? = none) : phase.gone = false := by
  cases phase <;> first | rfl | cases pending

/-- What holds in every state: of the renders, of what a cancelled caller leaves, of what callers get, and of which
calls are refused, joined and admitted. -/
structure Single (digest : Contract → String) (poolSize : ℕ) (s : State Outcome) : Prop where
  alone : ∀ (flight other : ℕ) (task task' : Flight Outcome), s.tasks[flight]? = some task →
    s.tasks[other]? = some task' → task.phase.renders = true → task'.phase.renders = true →
    task.episode = task'.episode → flight = other
  pool : s.tasks.countP (fun task => task.phase.renders) ≤ poolSize
  unaffected : ∀ (caller : ℕ) (s' : State Outcome), cancel s caller = some s' →
    s'.flights = s.flights ∧ s'.semaphore = s.semaphore ∧ s'.tasks = s.tasks ∧
      ∀ other : ℕ, other ≠ caller → s'.callers[other]? = s.callers[other]?
  outcome : ∀ (caller flight : ℕ) (outcome : Outcome), s.callers[caller]? = some (.returned flight outcome) →
    ∃ task, s.tasks[flight]? = some task ∧ task.phase.outcome? = some outcome
  passes : ∀ (caller flight : ℕ) (task : Flight Outcome) (outcome : Outcome),
    s.callers[caller]? = some (.awaiting flight) → s.tasks[flight]? = some task →
    task.phase.outcome? = some outcome → resume s caller = some (s.settle caller (.returned flight outcome))
  refuses : ∀ (flight : ℕ) (task : Flight Outcome) (contract other : Contract), s.tasks[flight]? = some task →
    task.phase.outcome? = none → task.contractSha256 = digest contract → other ≠ contract →
    call digest s task.episode (.ok other) = { s with callers := s.callers ++ [.refused conflict] }
  joins : ∀ (flight : ℕ) (task : Flight Outcome) (contract : Contract), s.tasks[flight]? = some task →
    task.phase.outcome? = none → task.contractSha256 = digest contract →
    call digest s task.episode (.ok contract) = { s with callers := s.callers ++ [.awaiting flight] }
  releases : ∀ (flight : ℕ) (task : Flight Outcome) (outcome : Outcome), s.tasks[flight]? = some task →
    task.phase = .ended outcome →
    ∃ s', exec digest s (.releaseOwner flight) = some s' ∧ s'.flights task.episode = none
  released : ∀ (flight : ℕ) (task : Flight Outcome) (outcome : Outcome), s.tasks[flight]? = some task →
    task.phase = .unwound outcome → ∀ episode active, s.flights episode ≠ some (active, flight)
  admits : ∀ episode contract, s.flights episode = none →
    (call digest s episode (.ok contract)).tasks = s.tasks ++ [⟨episode, digest contract, .scheduled⟩] ∧
      (call digest s episode (.ok contract)).callers = s.callers ++ [.awaiting s.tasks.length]

theorem Inv.single (injective : Function.Injective digest) (inv : Inv poolSize s) : Single digest poolSize s := by
  constructor
  · intro flight other task task' found found' renders renders' same
    have first := inv.tracked flight task found (gone_of_renders renders)
    have second := inv.tracked other task' found' (gone_of_renders renders')
    rw [same, second] at first
    exact (mk.inj (some.inj first)).2.symm
  · have within : s.tasks.countP (fun task => task.phase.renders) ≤ s.tasks.countP fun task => task.phase.holds :=
      countP_mono_left fun _ _ renders => holds_of_renders renders
    have := inv.permits
    omega
  · intro caller s' cancels
    unfold cancel at cancels
    split at cancels
    · cases cancels
      exact ⟨rfl, rfl, rfl, fun other different => getElem?_set_ne (Ne.symm different)⟩
    · cases cancels
  · exact inv.returned
  · intro caller flight task outcome awaits found done
    unfold resume
    rw [awaits]
    simp only [found, bind_some, done, map_some]
  · intro flight task contract other found pending same different
    have listed := inv.tracked flight task found (gone_of_pending pending)
    have conflicts : task.contractSha256 ≠ digest other := fun equal => different (injective (equal.symm.trans same))
    simp only [call, listed, if_neg conflicts]
  · intro flight task contract found pending same
    have listed := inv.tracked flight task found (gone_of_pending pending)
    simp only [call, listed, if_pos same]
  · intro flight task outcome found ended
    have listed := inv.tracked flight task found (by rw [ended]; rfl)
    refine ⟨releaseOwner s flight task outcome, ?_, ?_⟩
    · simp only [exec, Act.flight?, bind_some, found, flightStep, ended]
    · show (if s.flights task.episode = some (task.contractSha256, flight) then _ else s.flights) task.episode = none
      rw [if_pos listed, update_self]
  · intro flight task outcome found unwound episode active listed
    obtain ⟨task', there, -, -, present⟩ := inv.table episode active flight listed
    cases found.symm.trans there
    rw [unwound] at present
    cases present
  · intro episode contract free
    simp only [call, free]
    exact ⟨trivial, trivial⟩

def State.after (s : State Outcome) : List (Act String Outcome) → Option (State Outcome)
  | [] => some s
  | action :: rest => (exec id s action).bind fun s' => s'.after rest

theorem reaches_after {s s' : State Outcome} {acts : List (Act String Outcome)} (runs : s.after acts = some s') :
    Reaches id s s' := by
  induction acts generalizing s with
  | nil =>
    cases runs
    exact .refl
  | cons action rest ih =>
    obtain ⟨middle, executed, runs⟩ := bind_eq_some_iff.mp runs
    exact .head ⟨action, executed⟩ (ih runs)

def sampleActs : List (Act String Bool) :=
  [.call "EP-1" (.ok "a"), .call "EP-1" (.ok "a"), .call "EP-2" (.ok "b"), .start 0, .start 1, .enter 0, .cancel 0]

end VideoPoster.Flights
