import VideoPoster.Paths.Milestones
import VideoPoster.State.Machine

/-!
# Runs of the state store
-/

namespace VideoPoster.State
open Python Paths EpisodeStateStore EpisodeState List Option

namespace EpisodeStateStore

/-- An accepted transition: the new state, and what is then remembered as `previousState` and
`pausedFrom`. -/
inductive Move (store : EpisodeStateStore) :
    EpisodeState → Option EpisodeState → Option EpisodeState → Prop
  | stay : Move store store.currentState store.previousState store.pausedFrom
  | pause : store.currentState ≠ .paused →
      Move store .paused store.previousState (some store.currentState)
  | leavePaused {toState : EpisodeState} : store.currentState = .paused → toState ≠ .paused →
      (toState = .failed ∨ toState = .cancelled ∨ some toState = store.pausedFrom) →
      Move store toState (some .paused) none
  | leaveFailed {toState : EpisodeState} : store.currentState = .failed → toState ≠ .failed →
      toState ≠ .paused → (toState = .cancelled ∨ some toState = store.previousState) →
      Move store toState store.previousState store.pausedFrom
  | advance {toState : EpisodeState} : store.currentState ≠ .paused →
      store.currentState ≠ .failed → toState ≠ store.currentState → toState ≠ .paused →
      (toState = .failed ∨ toState = .cancelled ∨ toState ∈ store.currentState.transitions) →
      Move store toState (some store.currentState) store.pausedFrom

def moved (store : EpisodeStateStore) (request : Request)
    (previousState pausedFrom : Option EpisodeState) : EpisodeStateStore :=
  { store with
    currentState := request.toState
    previousState := previousState
    stateHistory := store.stateHistory ++ [store.entry request]
    updatedAt := request.updatedAt
    pausedFrom := pausedFrom }

theorem move_of_transitionTo {store next : EpisodeStateStore}
    {request : Request} (accepted : store.transitionTo request = .ok next) : ∃ previousState pausedFrom,
    store.Move request.toState previousState pausedFrom ∧ next = store.moved request previousState pausedFrom := by
  unfold transitionTo at accepted
  by_cases same : request.toState = store.currentState
  · rw [if_pos same] at accepted
    cases accepted
    refine ⟨store.previousState, store.pausedFrom, ?_, ?_⟩
    · rw [same]
      exact .stay
    · simp [moved, same]
  rw [if_neg same] at accepted
  split at accepted
  · rename_i can
    cases accepted
    simp only [canTransitionTo, same, if_false] at can
    by_cases pausing : request.toState = .paused
    · refine ⟨store.previousState, some store.currentState, ?_, by simp [moved, remember, pausing]⟩
      rw [pausing] at same ⊢
      exact .pause (Ne.symm same)
    by_cases isPaused : store.currentState = .paused
    · refine ⟨some .paused, none, .leavePaused isPaused pausing ?_,
        by simp [moved, remember, pausing, isPaused]⟩
      simp only [pausing, isPaused, if_false, if_true] at can
      grind
    by_cases isFailed : store.currentState = .failed
    · refine ⟨store.previousState, store.pausedFrom,
        .leaveFailed isFailed (isFailed ▸ same) pausing ?_,
        by simp [moved, remember, pausing, isFailed]⟩
      simp only [pausing, isFailed, if_false, if_true] at can
      grind
    · refine ⟨some store.currentState, store.pausedFrom,
        .advance isPaused isFailed same pausing ?_,
        by simp [moved, remember, pausing, isPaused, isFailed]⟩
      simp only [pausing, isPaused, isFailed, if_false] at can
      grind
  · cases accepted

def run (store : EpisodeStateStore) (requests : List Request) : Result EpisodeStateStore :=
  requests.foldlM transitionTo store

theorem run_concat {store next : EpisodeStateStore} {requests : List Request} {request : Request} : store.run (requests
    ++ [request]) = .ok next ↔ ∃ middle, store.run requests = .ok middle ∧ middle.transitionTo request = .ok next := by
  simp [run, foldlM_append]

end EpisodeStateStore

def visited (history : List Dict) : List EpisodeState :=
  history.filterMap fun entry =>
    match entry.get "state" with
    | some (.str text) => (ofValue text).toOption
    | _ => none

theorem visited_moved (store : EpisodeStateStore) (request : Request) (previousState pausedFrom : Option EpisodeState) :
    visited (store.moved request previousState pausedFrom).stateHistory =
      visited store.stateHistory ++ [request.toState] := by
  simp [visited, moved, entry, historyEntry, Dict.get, Except.toOption]

namespace EpisodeState

/-- `PAUSED` and `FAILED` are asides; every other state, a terminal one too, stands for work. -/
def working (state : EpisodeState) : Bool := state ≠ .paused ∧ state ≠ .failed

def Edge (now next : EpisodeState) : Prop :=
  next = now ∨ next = .cancelled ∨ next ∈ now.transitions

instance (now next : EpisodeState) : Decidable (Edge now next) :=
  inferInstanceAs (Decidable (_ ∨ _))

end EpisodeState

open EpisodeState

structure Remembers (store : EpisodeStateStore) (work : EpisodeState) : Prop where
  working : work.working = true
  current : store.currentState.working = true → store.currentState = work
  paused : store.currentState = .paused →
    store.pausedFrom = some work ∨ store.pausedFrom = some .failed
  failed : store.currentState = .failed →
    store.previousState = some work ∨ store.previousState = some .paused

theorem not_working_iff {state : EpisodeState} : state.working = false ↔ state = .paused ∨ state = .failed := by
  cases state <;> decide

def OnCourse (store : EpisodeStateStore) : Prop :=
  ∃ work, Follows Edge working .requestReceived (visited store.stateHistory) work ∧
    Remembers store work

section Step
variable {store : EpisodeStateStore} {work : EpisodeState} {request : Request}
  {previousState pausedFrom : Option EpisodeState}

section
variable (follows : Follows Edge working .requestReceived (visited store.stateHistory) work)
include follows

theorem OnCourse.worked (counts : request.toState.working = true)
    (edge : Edge work request.toState) : OnCourse (store.moved request previousState pausedFrom) := by
  refine ⟨request.toState, ?_, ?_⟩
  · rw [visited_moved]
    exact follows.move counts edge
  · have isWork := of_decide_eq_true counts
    exact ⟨counts, fun _ => rfl, fun paused => absurd paused isWork.1, fun failed => absurd failed isWork.2⟩

theorem OnCourse.paused (isWork : work.working = true) (aside : request.toState = .paused) (remembered :
    pausedFrom = some work ∨ pausedFrom = some .failed) : OnCourse (store.moved request previousState pausedFrom) := by
  refine ⟨work, ?_, isWork, ?_, fun _ => remembered, ?_⟩
  · rw [visited_moved]
    exact follows.aside (by rw [aside]; decide)
  · intro counts
    simp [moved, aside, working] at counts
  · intro failed
    simp [moved, aside] at failed

theorem OnCourse.failed (isWork : work.working = true) (aside : request.toState = .failed) (remembered : previousState =
    some work ∨ previousState = some .paused) : OnCourse (store.moved request previousState pausedFrom) := by
  refine ⟨work, ?_, isWork, ?_, ?_, fun _ => remembered⟩
  · rw [visited_moved]
    exact follows.aside (by rw [aside]; decide)
  · intro counts
    simp [moved, aside, working] at counts
  · intro paused
    simp [moved, aside] at paused

end

theorem OnCourse.move (course : OnCourse store) (move : store.Move request.toState previousState pausedFrom) :
    OnCourse (store.moved request previousState pausedFrom) := by
  obtain ⟨work, follows, remembers⟩ := course
  have isWork := remembers.working
  generalize target : request.toState = toState at move
  cases move with
  | stay =>
    cases counts : store.currentState.working with
    | true =>
      have same : request.toState = work := target.trans (remembers.current counts)
      exact .worked follows (same ▸ isWork) (.inl same)
    | false =>
      rcases not_working_iff.1 counts with paused | failed
      · exact .paused follows isWork (target.trans paused) (remembers.paused paused)
      · exact .failed follows isWork (target.trans failed) (remembers.failed failed)
  | pause notPaused =>
    apply OnCourse.paused follows isWork target
    cases counts : store.currentState.working with
    | true => exact .inl (congrArg some (remembers.current counts))
    | false => exact .inr (congrArg some ((not_working_iff.1 counts).resolve_left notPaused))
  | leavePaused isPaused notPaused allowed =>
    rcases allowed with rfl | rfl | resumed
    · exact .failed follows isWork target (.inr rfl)
    · exact .worked follows (by rw [target]; decide) (.inr (.inl target))
    · rcases remembers.paused isPaused with remembered | remembered <;>
        rw [remembered, some_inj] at resumed
      · exact .worked follows (by rw [target, resumed]; exact isWork) (.inl (target.trans resumed))
      · exact .failed follows isWork (target.trans resumed) (.inr rfl)
  | leaveFailed isFailed notFailed notPaused allowed =>
    rcases allowed with rfl | retried
    · exact .worked follows (by rw [target]; decide) (.inr (.inl target))
    · rcases remembers.failed isFailed with remembered | remembered <;>
        rw [remembered, some_inj] at retried
      · exact .worked follows (by rw [target, retried]; exact isWork) (.inl (target.trans retried))
      · exact absurd retried notPaused
  | advance notPaused notFailed changed notPausing allowed =>
    have same : store.currentState = work :=
      remembers.current (decide_eq_true ⟨notPaused, notFailed⟩)
    by_cases failing : toState = .failed
    · exact .failed follows isWork (target.trans failing) (.inl (congrArg some same))
    · apply OnCourse.worked follows
      · rw [target]
        exact decide_eq_true ⟨notPausing, failing⟩
      · rw [target, ← same]
        rcases allowed with failed | cancelled | listed
        · exact absurd failed failing
        · exact .inr (.inl cancelled)
        · exact .inr (.inr listed)

end Step

theorem OnCourse.run {start store : EpisodeStateStore} {requests : List Request}
    (new : start.currentState = .requestReceived) (fresh : start.stateHistory = [])
    (accepted : start.run requests = .ok store) : OnCourse store := by
  induction requests using reverseRecOn generalizing store with
  | nil =>
    cases accepted
    refine ⟨.requestReceived, ?_, ?_⟩
    · rw [fresh]
      exact .start
    · exact ⟨by decide, fun _ => new, by simp [new], by simp [new]⟩
  | append_singleton requests request ih =>
    obtain ⟨middle, before, last⟩ := run_concat.1 accepted
    obtain ⟨previousState, pausedFrom, move, rfl⟩ :=
      move_of_transitionTo last
    exact (ih before).move move

def gateMilestones : Milestones Edge (fun state => state = .assembling) where
  owed
    | .waitingThumbnailApproval => [.waitingThumbnailApproval]
    | .waitingVideoApproval => [.waitingThumbnailApproval, .waitingVideoApproval]
    | .waitingFinalApproval | .uploading | .published =>
      [.waitingThumbnailApproval, .waitingVideoApproval, .waitingFinalApproval]
    | _ => []
  step := by decide

def productionMilestones : Milestones Edge (fun _ => false) where
  owed
    | .requestReceived | .researching | .planning | .paused | .failed | .cancelled => []
    | .assembling | .finalQa | .waitingThumbnailApproval | .waitingVideoApproval
    | .waitingFinalApproval | .uploading | .published => [.waitingPlanApproval, .assembling]
    | _ => [.waitingPlanApproval]
  step := by decide

theorem OnCourse.gates {store : EpisodeStateStore} (course : OnCourse store) (working : store.currentState.working =
    true) : (gateMilestones.owed store.currentState).Sublist (since (fun state => state = .assembling) (visited
    store.stateHistory)) ∧ (productionMilestones.owed store.currentState).Sublist (visited store.stateHistory) := by
  obtain ⟨work, follows, remembers⟩ := course
  rw [remembers.current working]
  constructor
  · apply gateMilestones.passed rfl ?_ follows
    intro state aside
    rcases not_working_iff.1 aside with rfl | rfl <;> rfl
  · exact (productionMilestones.passed rfl (fun _ _ => rfl) follows).trans (since_sublist _ _)

theorem publication_passes_gates {start store : EpisodeStateStore}
    {requests : List Request} (new : start.currentState = .requestReceived)
    (fresh : start.stateHistory = []) (accepted : start.run requests = .ok store) : (store.currentState = .uploading ∨
    store.currentState = .published → ∃ before after, visited store.stateHistory = before ++ .assembling :: after ∧
    .assembling ∉ after ∧ [.waitingThumbnailApproval, .waitingVideoApproval, .waitingFinalApproval].Sublist after)
    ∧ (store.currentState = .uploading → .waitingPlanApproval ∈ visited store.stateHistory) := by
  have course := OnCourse.run new fresh accepted
  constructor
  · intro publishing
    have working : store.currentState.working = true := by
      rcases publishing with is | is <;> rw [is] <;> decide
    obtain ⟨gates, production⟩ := course.gates working
    have owed : gateMilestones.owed store.currentState =
          [.waitingThumbnailApproval, .waitingVideoApproval, .waitingFinalApproval] ∧
        .assembling ∈ productionMilestones.owed store.currentState := by
      rcases publishing with is | is <;> rw [is] <;> decide
    obtain ⟨before, node, isAssembling, split, later⟩ :=
      @split_since _ (fun state => state = .assembling) _
        ⟨.assembling, production.subset owed.2, rfl⟩
    cases of_decide_eq_true isAssembling
    refine ⟨before, _, split, ?_, owed.1 ▸ gates⟩
    intro member
    simpa using later .assembling member
  · intro uploading
    have production := (course.gates (by rw [uploading]; decide)).2
    apply production.subset
    rw [uploading]
    decide

def sampleStore : EpisodeStateStore := { episodeId := "EP000001", updatedAt := "t0" }

def sampleProduction : List Request :=
  [.researching, .planning, .waitingPlanApproval, .scripting, .generatingAudio, .generatingImages,
    .localAnimation, .assembling, .finalQa, .waitingThumbnailApproval, .waitingVideoApproval,
    .paused, .waitingVideoApproval, .waitingFinalApproval, .uploading].map fun state =>
      { toState := state }

theorem sampleProduction_passes_gates : ∃ store, sampleStore.run sampleProduction = .ok store ∧
    store.currentState = .uploading ∧ (∃ before after, visited store.stateHistory = before ++ .assembling :: after ∧
    .assembling ∉ after ∧ [.waitingThumbnailApproval, .waitingVideoApproval, .waitingFinalApproval].Sublist after)
    ∧ .waitingPlanApproval ∈ visited store.stateHistory := by
  refine ⟨_, rfl, rfl, ?_, ?_⟩
  · exact (publication_passes_gates rfl rfl (rfl : sampleStore.run sampleProduction = _)).1
      (.inl rfl)
  · exact (publication_passes_gates rfl rfl (rfl : sampleStore.run sampleProduction = _)).2 rfl

/-- Final states: none of them has a successor in the table, and `CANCELLED`, which is allowed from
everywhere, is one of them. -/
structure Final (states : List EpisodeState) : Prop where
  closed : ∀ state ∈ states, state.working = true ∧ state.transitions = []
  cancelled : .cancelled ∈ states

def Ended (states : List EpisodeState) (store : EpisodeStateStore) : Prop :=
  store.currentState ∈ states ∨
  store.currentState = .paused ∧
    (∃ state, store.pausedFrom = some state ∧ (state ∈ states ∨ state = .failed)) ∨
  store.currentState = .failed ∧
    ∃ state, store.previousState = some state ∧ (state ∈ states ∨ state = .paused)

section Ended
variable {states : List EpisodeState} {store last : EpisodeStateStore} {request : Request}
  {previousState pausedFrom : Option EpisodeState}

theorem Final.not_mem (final : Final states) {state : EpisodeState}
    (aside : state = .paused ∨ state = .failed) : state ∉ states := by
  intro member
  have working := (final.closed state member).1
  rw [not_working_iff.2 aside] at working
  cases working

theorem Ended.move (final : Final states) (ended : Ended states store) (move : store.Move
    request.toState previousState pausedFrom) : Ended states (store.moved request previousState pausedFrom) := by
  have unpaused := final.not_mem (.inl rfl)
  have unfailed := final.not_mem (.inr rfl)
  change request.toState ∈ states ∨
    request.toState = .paused ∧ (∃ state, pausedFrom = some state ∧ _) ∨
    request.toState = .failed ∧ ∃ state, previousState = some state ∧ _
  generalize request.toState = toState at move ⊢
  cases move with
  | stay => exact ended
  | pause notPaused =>
    refine .inr (.inl ⟨rfl, store.currentState, rfl, ?_⟩)
    rcases ended with terminal | ⟨paused, -⟩ | ⟨failed, -⟩
    · exact .inl terminal
    · exact absurd paused notPaused
    · exact .inr failed
  | leavePaused isPaused notPaused allowed =>
    rcases allowed with rfl | rfl | resumed
    · exact .inr (.inr ⟨rfl, .paused, rfl, .inr rfl⟩)
    · exact .inl final.cancelled
    · rcases ended with terminal | ⟨-, state, remembered, which⟩ | ⟨failed, -⟩
      · exact absurd (isPaused ▸ terminal) unpaused
      · cases remembered.symm.trans resumed.symm
        rcases which with member | rfl
        · exact .inl member
        · exact .inr (.inr ⟨rfl, .paused, rfl, .inr rfl⟩)
      · exact absurd (isPaused.symm.trans failed) (by decide)
  | leaveFailed isFailed notFailed notPaused allowed =>
    rcases allowed with rfl | retried
    · exact .inl final.cancelled
    · rcases ended with terminal | ⟨paused, -⟩ | ⟨-, state, remembered, which⟩
      · exact absurd (isFailed ▸ terminal) unfailed
      · exact absurd (isFailed.symm.trans paused) (by decide)
      · cases remembered.symm.trans retried.symm
        exact .inl (which.resolve_right notPaused)
  | advance notPaused notFailed changed notPausing allowed =>
    have member : store.currentState ∈ states := by
      rcases ended with terminal | ⟨paused, -⟩ | ⟨failed, -⟩
      · exact terminal
      · exact absurd paused notPaused
      · exact absurd failed notFailed
    rcases allowed with rfl | rfl | listed
    · exact .inr (.inr ⟨rfl, store.currentState, rfl, .inl member⟩)
    · exact .inl final.cancelled
    · rw [(final.closed _ member).2] at listed
      cases listed

theorem Ended.run {requests : List Request} (final : Final states) (ended : Ended states store)
    (accepted : store.run requests = .ok last) : Ended states last := by
  induction requests using reverseRecOn generalizing last with
  | nil =>
    cases accepted
    exact ended
  | append_singleton requests request ih =>
    obtain ⟨middle, before, after⟩ := run_concat.1 accepted
    obtain ⟨previousState, pausedFrom, move, rfl⟩ := move_of_transitionTo after
    exact (ih before).move final move

theorem Ended.current (ended : Ended states store) : store.currentState ∈ states ++ [.paused, .failed] := by
  rcases ended with member | ⟨paused, -⟩ | ⟨failed, -⟩
  · simp [member]
  · simp [paused]
  · simp [failed]

end Ended

theorem no_work_after_terminal {start last : EpisodeStateStore} {before after : List Request} (accepted :
    start.run (before ++ after) = .ok last) : ∃ middle, start.run before = .ok middle ∧ middle.run after = .ok last ∧
    (middle.currentState = .published → last.currentState ∈ [published, .paused, .failed, .cancelled])
    ∧ (middle.currentState = .cancelled → last.currentState ∈ [cancelled, .paused, .failed]) := by
  simp only [run, foldlM_append, bind_eq_ok] at accepted
  obtain ⟨middle, reached, continued⟩ := accepted
  refine ⟨middle, reached, continued, fun published => ?_, fun cancelled => ?_⟩
  · have final : Final [.published, .cancelled] := ⟨by decide, by decide⟩
    have ended : Ended [.published, .cancelled] last :=
      Ended.run final (.inl (by simp [published])) continued
    have member := ended.current
    simp only [cons_append, nil_append, mem_cons, not_mem_nil] at member ⊢
    tauto
  · have final : Final [.cancelled] := ⟨by decide, by decide⟩
    exact (Ended.run final (.inl (by simp [cancelled])) continued).current

theorem no_work_after_samplePublication : ∃ middle last, sampleStore.run (sampleProduction ++ [{ toState :=
    .published }]) = .ok middle ∧ middle.run [{ toState := .paused }, { toState := .failed }, { toState := .cancelled }]
    = .ok last ∧ last.currentState ∈ [published, .paused, .failed, .cancelled] := by
  have accepted : ((sampleStore.run (sampleProduction ++ [{ toState := .published }] ++
      [{ toState := .paused }, { toState := .failed }, { toState := .cancelled }])).map
        currentState).toOption = some .cancelled := by decide
  have current : ((sampleStore.run (sampleProduction ++ [{ toState := .published }])).map
      currentState).toOption = some .published := by decide
  obtain ⟨last, ran, -⟩ := map_eq_ok.mp (toOption_eq_some.mp accepted)
  obtain ⟨middle, reached, continued, published, -⟩ := no_work_after_terminal ran
  rw [reached] at current
  exact ⟨middle, last, reached, continued, published (some.inj current)⟩

/-! ## Ways to a publication -/

def Publishable (store : EpisodeStateStore) : Prop :=
  ∃ requests last, store.run requests = .ok last ∧ last.currentState = .published

/-- How far an episode has come; the gate of the budget leads back to the animation. -/
def stage (state : EpisodeState) : ℕ := if state = .waitingBudgetApproval then 23 else 2 * all.idxOf state

theorem onward : ∀ state : EpisodeState, state.working = true → state ≠ .cancelled → state ≠ .published →
    ∃ next, next ∈ state.transitions ∧ next.working = true ∧ next ≠ .cancelled ∧ stage state < stage next := by
  decide

theorem stage_le : ∀ state : EpisodeState, stage state ≤ 50 := by decide

section
variable {store next : EpisodeStateStore}

theorem Publishable.of_transitionTo {request : Request} (accepted : store.transitionTo request = .ok next)
    (publishable : Publishable next) : Publishable store := by
  obtain ⟨requests, last, ran, published⟩ := publishable
  refine ⟨request :: requests, last, ?_, published⟩
  rw [run, foldlM_cons, accepted]
  exact ran

theorem publishable_of_working {store : EpisodeStateStore} (working : store.currentState.working = true)
    (active : store.currentState ≠ .cancelled) : Publishable store := by
  by_cases published : store.currentState = .published
  · exact ⟨[], store, rfl, published⟩
  obtain ⟨state, listed, works, goesOn, further⟩ := onward _ working active published
  have changed : state ≠ store.currentState := fun same => by rw [same] at further; exact lt_irrefl _ further
  have accepted : ∃ next, store.transitionTo { toState := state } = .ok next ∧ next.currentState = state := by
    have aside := of_decide_eq_true works
    have unpaused := of_decide_eq_true working
    exact ⟨_, by simp [transitionTo, canTransitionTo, changed, aside, goesOn, unpaused, listed]; rfl, rfl⟩
  obtain ⟨next, accepted, is⟩ := accepted
  have : 50 - stage next.currentState < 50 - stage store.currentState := by
    have := stage_le state
    rw [is]
    omega
  exact .of_transitionTo accepted (publishable_of_working (by rw [is, works]) (by rwa [is]))
termination_by 50 - stage store.currentState

/-- A new episode can be brought to its publication exactly until it is cancelled, or fails while it is paused, or is
paused while it has failed. -/
theorem publishable_iff {start : EpisodeStateStore} {requests : List Request}
    (new : start.currentState = .requestReceived) (fresh : start.stateHistory = [])
    (accepted : start.run requests = .ok store) : Publishable store ↔ ¬ Ended [.cancelled] store := by
  constructor
  · rintro ⟨more, last, ran, published⟩ ended
    have final : Final [.cancelled] := ⟨by decide, by decide⟩
    have current := (ended.run final ran).current
    rw [published] at current
    exact absurd current (by decide)
  · intro going
    obtain ⟨work, -, remembers⟩ := OnCourse.run new fresh accepted
    have resume (toWork : ∃ next, store.transitionTo { toState := work } = .ok next ∧ next.currentState = work)
        (active : work ≠ .cancelled) : Publishable store := by
      obtain ⟨next, resumed, is⟩ := toWork
      exact .of_transitionTo resumed (publishable_of_working (is ▸ remembers.working) (is ▸ active))
    have aside := of_decide_eq_true remembers.working
    by_cases working : store.currentState.working = true
    · exact publishable_of_working working fun cancelled => going (.inl (by simp [cancelled]))
    · rcases not_working_iff.1 (Bool.not_eq_true _ ▸ working) with isPaused | isFailed
      · rcases remembers.paused isPaused with is | is
        · refine resume ⟨_, by simp [transitionTo, canTransitionTo, isPaused, is, aside]; rfl, rfl⟩ ?_
          rintro rfl
          exact going (.inr (.inl ⟨isPaused, _, is, .inl (by simp)⟩))
        · exact absurd (.inr (.inl ⟨isPaused, _, is, .inr rfl⟩)) going
      · rcases remembers.failed isFailed with is | is
        · refine resume ⟨_, by simp [transitionTo, canTransitionTo, isFailed, is, aside]; rfl, rfl⟩ ?_
          rintro rfl
          exact going (.inr (.inr ⟨isFailed, _, is, .inl (by simp)⟩))
        · exact absurd (.inr (.inr ⟨isFailed, _, is, .inr rfl⟩)) going

theorem sampleProduction_publishable : ∃ store, sampleStore.run sampleProduction = .ok store ∧
    (Publishable store ↔ ¬ Ended [.cancelled] store) :=
  ⟨_, rfl, publishable_iff rfl rfl (rfl : sampleStore.run sampleProduction = _)⟩

end
end VideoPoster.State
