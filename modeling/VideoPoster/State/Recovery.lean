import VideoPoster.State.Runs

/-!
# Restarts and interruptions
-/

namespace VideoPoster.State
open Python EpisodeState List

namespace EpisodeStateStore

def Resumable (store : EpisodeStateStore) : Prop :=
  store.pausedFrom ≠ none → store.currentState = .paused

variable {store : EpisodeStateStore}

theorem Resumable.move (resumable : store.Resumable) {request : Request}
    {previousState pausedFrom : Option EpisodeState} (move : store.Move request.toState previousState pausedFrom) :
    (store.moved request previousState pausedFrom).Resumable := by
  unfold Resumable moved
  generalize request.toState = toState at move
  cases move with
  | stay => exact resumable
  | pause _ => exact fun _ => rfl
  | leavePaused _ _ _ => exact fun remembered => absurd rfl remembered
  | leaveFailed isFailed _ _ _ =>
    intro remembered
    rw [resumable remembered] at isFailed
    cases isFailed
  | advance notPaused _ _ _ _ => exact fun remembered => absurd (resumable remembered) notPaused

theorem optionalState_stateJson (state : Option EpisodeState) (data : Dict) (key : String)
    (stored : data.get key = some (stateJson state)) : optionalState data key = .ok state := by
  unfold optionalState
  rw [stored]
  cases state with
  | none => rfl
  | some state => cases state <;> rfl

theorem objItem_obj (history : List Dict) : (history.map Json.obj).mapM objItem = .ok history := by
  induction history with
  | nil => rfl
  | cons entry history ih => simp [objItem, ih, bind, Except.bind, pure, Except.pure]

theorem fromDict_toDict (resumable : store.Resumable) (now : String) : fromDict store.toDict now = .ok store := by
  have previous : optionalState store.toDict "previous_state" = .ok store.previousState :=
    optionalState_stateJson _ _ _ rfl
  have paused : optionalState store.toDict "paused_from" = .ok store.pausedFrom :=
    optionalState_stateJson _ _ _ rfl
  have history : historyField store.toDict = .ok store.stateHistory :=
    objItem_obj store.stateHistory
  have episode : ∀ fallback, textField store.toDict "episode_id" fallback = .ok store.episodeId :=
    fun _ => rfl
  have current : ∀ fallback, textField store.toDict "current_state" fallback = .ok store.currentState.value :=
    fun _ => rfl
  have checkpoint : objField store.toDict "checkpoint" = .ok store.checkpoint := rfl
  have updated : ∀ fallback, textField store.toDict "updated_at" fallback = .ok store.updatedAt :=
    fun _ => rfl
  simp only [fromDict, episode, current, previous, history, checkpoint, updated, ofValue_value,
    paused, bind, Except.bind, pure, Except.pure]
  split_ifs with isPaused
  · rfl
  · have forgotten : store.pausedFrom = none := by
      by_contra remembered
      exact isPaused (resumable remembered)
    rw [← forgotten]

def attempt (store : EpisodeStateStore) (request : Request) : Bool × EpisodeStateStore :=
  match store.transitionTo request with
  | .ok next => (true, next)
  | .error _ => (false, store)

def answers (store : EpisodeStateStore) : List Request → List Bool × EpisodeStateStore
  | [] => ([], store)
  | request :: requests =>
    let (accepted, next) := store.attempt request
    let (rest, last) := next.answers requests
    (accepted :: rest, last)

inductive Event where
  | request (request : Request)
  /-- `to_dict`, then `from_dict` at this time. -/
  | restart (now : String)

def Event.request? : Event → Option Request
  | .request made => some made
  | .restart _ => none

def serve (store : EpisodeStateStore) : List Event → Result (List Bool × EpisodeStateStore)
  | [] => .ok ([], store)
  | .request request :: events => do
    let (accepted, next) := store.attempt request
    let (rest, last) ← next.serve events
    pure (accepted :: rest, last)
  | .restart now :: events => do
    let store ← fromDict store.toDict now
    store.serve events

section
variable (resumable : store.Resumable)
include resumable

theorem Resumable.attempt (request : Request) : (store.attempt request).2.Resumable := by
  unfold EpisodeStateStore.attempt
  cases outcome : store.transitionTo request with
  | error error => exact resumable
  | ok next =>
    obtain ⟨previousState, pausedFrom, move, rfl⟩ := move_of_transitionTo outcome
    exact resumable.move move

theorem Resumable.answers (requests : List Request) : (store.answers requests).2.Resumable := by
  induction requests generalizing store with
  | nil => exact resumable
  | cons request requests ih => exact ih (resumable.attempt request)

theorem serve_eq (events : List Event) :
    store.serve events = .ok (store.answers (events.filterMap Event.request?)) := by
  induction events generalizing store with
  | nil => rfl
  | cons event events ih =>
    cases event with
    | request request =>
      simp only [serve, ih (resumable.attempt request), Event.request?, filterMap_cons]
      rfl
    | restart now =>
      simp only [serve, fromDict_toDict resumable, Event.request?, filterMap_cons]
      exact ih resumable

end

theorem restart_transparent {start : EpisodeStateStore} (new : start.pausedFrom = none)
    (events : List Event) : start.serve events = .ok (start.answers (events.filterMap Event.request?))
    ∧ ∀ requests now, fromDict (start.answers requests).2.toDict now = .ok (start.answers requests).2 := by
  have resumable : start.Resumable := fun remembered => absurd new remembered
  constructor
  · exact serve_eq resumable events
  · intro requests now
    exact fromDict_toDict (resumable.answers requests) now

def sampleEvents : List Event :=
  [.request { toState := .researching }, .request { toState := .paused }, .restart "t1",
    .request { toState := .planning }, .request { toState := .failed }, .restart "t2",
    .request { toState := .researching }, .request { toState := .paused }]

theorem sampleEvents_restart_transparent : sampleStore.pausedFrom =
    none ∧ sampleStore.serve sampleEvents = .ok (sampleStore.answers (sampleEvents.filterMap Event.request?))
    ∧ (sampleStore.answers (sampleEvents.filterMap Event.request?)).1 = [true, true, false, true, false, true] :=
  ⟨rfl, (restart_transparent rfl sampleEvents).1, by decide⟩

/-- From `store` the work state `work` can be entered again through `PAUSED` and `FAILED` only. -/
def Recoverable (store : EpisodeStateStore) (work : EpisodeState) : Prop :=
  ∃ (asides : List Request) (back : Request) (recovered : EpisodeStateStore),
    (∀ aside ∈ asides, aside.toState = .paused ∨ aside.toState = .failed) ∧
      back.toState = work ∧ store.run (asides ++ [back]) = .ok recovered

def Lost (store : EpisodeStateStore) : Prop :=
  store.currentState = .paused ∧ store.pausedFrom = some .failed ∨
    store.currentState = .failed ∧ store.previousState = some .paused

/-- The store in which `work` was interrupted: by a pause or not, and by a failure or not. -/
def Interrupted (store : EpisodeStateStore) (work : EpisodeState) : Bool → Bool → Prop
  | false, false => store.currentState = work
  | true, false => store.currentState = .paused ∧ store.pausedFrom = some work
  | false, true => store.currentState = .failed ∧ store.previousState = some work
  | true, true => store.Lost

section Aside
variable {store next : EpisodeStateStore} {request : Request} {work : EpisodeState}

theorem transitionTo_paused (target : request.toState = .paused) : store.transitionTo request = .ok (store.moved request
    store.previousState (if store.currentState = .paused then store.pausedFrom else some store.currentState)) := by
  by_cases same : store.currentState = .paused
  · simp [transitionTo, moved, target, same]
  · simp [transitionTo, moved, canTransitionTo, remember, target, same, Ne.symm same]

theorem transitionTo_failed {s : EpisodeStateStore} (target : request.toState = .failed) :
    ∃ pausedFrom, s.transitionTo request = .ok
      (s.moved request (if s.currentState = .failed then s.previousState else some s.currentState) pausedFrom) := by
  by_cases same : s.currentState = .failed
  · exact ⟨s.pausedFrom, by simp [transitionTo, moved, target, same]⟩
  by_cases paused : s.currentState = .paused
  · exact ⟨none, by simp [transitionTo, moved, canTransitionTo, remember, target, paused]⟩
  · exact ⟨s.pausedFrom,
      by simp [transitionTo, moved, canTransitionTo, remember, target, paused, same, Ne.symm same]⟩

theorem Lost.aside (lost : store.Lost) (aside : request.toState = .paused ∨ request.toState = .failed)
    (accepted : store.transitionTo request = .ok next) : next.Lost := by
  rcases aside with target | target
  · rw [transitionTo_paused target] at accepted
    cases accepted
    rcases lost with ⟨current, remembered⟩ | ⟨current, remembered⟩
    · exact .inl ⟨target, by simp [moved, current, remembered]⟩
    · exact .inl ⟨target, by simp [moved, current]⟩
  · obtain ⟨pausedFrom, eq⟩ := transitionTo_failed (s := store) target
    rw [eq] at accepted
    cases accepted
    rcases lost with ⟨current, remembered⟩ | ⟨current, remembered⟩
    · exact .inr ⟨target, by simp [moved, current]⟩
    · exact .inr ⟨target, by simp [moved, current, remembered]⟩

variable {failed paused : Bool}

variable (interrupted : store.Interrupted work paused failed)
include interrupted

theorem Interrupted.pause (isWork : work.working = true) (target : request.toState = .paused)
    (accepted : store.transitionTo request = .ok next) : next.Interrupted work true failed := by
  have notAside := of_decide_eq_true isWork
  by_cases both : paused = true ∧ failed = true
  · obtain ⟨rfl, rfl⟩ := both
    exact Lost.aside interrupted (.inl target) accepted
  rw [transitionTo_paused target] at accepted
  cases accepted
  cases paused <;> cases failed
  · exact ⟨target, by simp_all [moved, Interrupted]⟩
  · exact .inl ⟨target, by simp [moved, interrupted.1]⟩
  · exact ⟨target, by simp [moved, interrupted.1, interrupted.2]⟩
  · simp at both

theorem Interrupted.fail (isWork : work.working = true) (target : request.toState = .failed)
    (accepted : store.transitionTo request = .ok next) : next.Interrupted work paused true := by
  have notAside := of_decide_eq_true isWork
  by_cases both : paused = true ∧ failed = true
  · obtain ⟨rfl, rfl⟩ := both
    exact Lost.aside interrupted (.inr target) accepted
  obtain ⟨pausedFrom, eq⟩ := transitionTo_failed (s := store) target
  rw [eq] at accepted
  cases accepted
  cases paused <;> cases failed
  · exact ⟨target, by simp_all [moved, Interrupted]⟩
  · exact ⟨target, by simp [moved, interrupted.1, interrupted.2]⟩
  · exact .inr ⟨target, by simp [moved, interrupted.1]⟩
  · simp at both

end Aside

variable {asides : List Request}

theorem Interrupted.run {start : EpisodeStateStore} (isWork : start.currentState.working = true)
    (only : ∀ aside ∈ asides, aside.toState = .paused ∨ aside.toState = .failed)
    (accepted : start.run asides = .ok store) : store.Interrupted start.currentState
    (asides.any fun aside => aside.toState = .paused) (asides.any fun aside => aside.toState = .failed) := by
  induction asides using reverseRecOn generalizing store with
  | nil =>
    cases accepted
    rfl
  | append_singleton asides aside ih =>
    obtain ⟨middle, before, last⟩ := run_concat.1 accepted
    have interrupted := ih (fun aside member => only aside (by simp [member])) before
    simp only [any_append, any_cons, any_nil, Bool.or_false]
    rcases only aside (by simp) with target | target
    · simpa [target] using interrupted.pause isWork target last
    · simpa [target] using interrupted.fail isWork target last

theorem Lost.run {last : EpisodeStateStore} (lost : store.Lost) (only : ∀ aside ∈ asides,
    aside.toState = .paused ∨ aside.toState = .failed) (accepted : store.run asides = .ok last) : last.Lost := by
  induction asides using reverseRecOn generalizing last with
  | nil =>
    cases accepted
    exact lost
  | append_singleton asides aside ih =>
    obtain ⟨middle, before, final⟩ := run_concat.1 accepted
    have still := ih (fun aside member => only aside (by simp [member])) before
    exact still.aside (only aside (by simp)) final

variable {work : EpisodeState}

theorem Lost.not_recoverable (lost : store.Lost)
    (isWork : work.working = true) (active : work ≠ .cancelled) : ¬ store.Recoverable work := by
  rintro ⟨asides, back, recovered, only, rfl, accepted⟩
  have notAside := of_decide_eq_true isWork
  obtain ⟨middle, before, last⟩ := run_concat.1 accepted
  obtain ⟨previousState, pausedFrom, move, -⟩ := move_of_transitionTo last
  rcases lost.run only before with ⟨current, remembered⟩ | ⟨current, remembered⟩
  · generalize back.toState = toState at *
    cases move <;> grind
  · generalize back.toState = toState at *
    cases move <;> grind

theorem Recoverable.of_transitionTo {recovered : EpisodeStateStore} {back : Request}
    (accepted : store.transitionTo back = .ok recovered) : store.Recoverable back.toState :=
  ⟨[], back, recovered, by simp, rfl, run_concat.2 ⟨store, rfl, accepted⟩⟩

theorem Interrupted.recoverable {paused failed : Bool} (interrupted : store.Interrupted work paused failed)
    (isWork : work.working = true) (one : ¬ (paused = true ∧ failed = true)) : store.Recoverable work := by
  have notAside := of_decide_eq_true isWork
  have accepted : ∃ recovered, store.transitionTo { toState := work } = .ok recovered := by
    cases paused <;> cases failed
    · exact ⟨_, by rw [transitionTo, if_pos (Eq.symm interrupted)]⟩
    · exact ⟨_, by simp [transitionTo, canTransitionTo, interrupted.1, interrupted.2, notAside]; rfl⟩
    · exact ⟨_, by simp [transitionTo, canTransitionTo, interrupted.1, interrupted.2, notAside]; rfl⟩
    · simp at one
  obtain ⟨recovered, accepted⟩ := accepted
  exact .of_transitionTo accepted

theorem recoverable_iff {start store : EpisodeStateStore} {asides : List Request} (isWork : start.currentState.working =
    true) (active : start.currentState ≠ .cancelled) (only : ∀ aside ∈ asides, aside.toState = .paused ∨
    aside.toState = .failed) (accepted : start.run asides = .ok store) : store.Recoverable start.currentState ↔
    ¬ ((∃ aside ∈ asides, aside.toState = .paused) ∧ ∃ aside ∈ asides, aside.toState = .failed) := by
  have interrupted := Interrupted.run isWork only accepted
  have both : ((∃ aside ∈ asides, aside.toState = .paused) ∧ ∃ aside ∈ asides, aside.toState = .failed) ↔
      (asides.any fun aside => aside.toState = .paused) = true ∧
        (asides.any fun aside => aside.toState = .failed) = true := by
    simp
  rw [both]
  constructor
  · rintro recoverable ⟨paused, failed⟩
    rw [paused, failed] at interrupted
    exact Lost.not_recoverable interrupted isWork active recoverable
  · exact interrupted.recoverable isWork

def sampleResearching : EpisodeStateStore :=
  sampleStore.moved { toState := .researching } (some .requestReceived) none

def twoPauses : List Request := [{ toState := .paused }, { toState := .paused }]

theorem recoverable_after_twoPauses : sampleStore.run [{ toState := .researching }] = .ok sampleResearching ∧
      ∃ store, sampleResearching.run twoPauses = .ok store ∧ store.Recoverable .researching := by
  refine ⟨rfl, _, rfl, ?_⟩
  have accepted : ∀ store, sampleResearching.run twoPauses = .ok store →
      store.Recoverable sampleResearching.currentState := by
    intro store accepted
    exact (recoverable_iff rfl (by decide) (by decide) accepted).2 (by decide)
  exact accepted _ rfl

theorem paused_then_failed_loses_work : sampleStore.run [{ toState := .researching }]
    = .ok sampleResearching ∧ sampleResearching.currentState = .researching ∧ ∃ store, sampleResearching.run
    [{ toState := .paused }, { toState := .failed }] = .ok store ∧ ¬ store.Recoverable .researching := by
  refine ⟨rfl, rfl, _, rfl, ?_⟩
  exact Lost.not_recoverable (.inr ⟨rfl, rfl⟩) (by decide) (by decide)

end EpisodeStateStore
end VideoPoster.State
