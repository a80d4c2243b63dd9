import VideoPoster.State.Runs

/-!
# What is behind an episode that is animated
-/

namespace VideoPoster.State
open Python Paths EpisodeState List EpisodeStateStore

def source (states : List EpisodeState) : Option EpisodeState :=
  states.reverse.find? fun state => state.working && decide (state ≠ .waitingBudgetApproval)

theorem source_concat (states : List EpisodeState) (state : EpisodeState) : source (states ++ [state]) =
      if state.working && decide (state ≠ .waitingBudgetApproval) then some state else source states := by
  unfold source
  rw [reverse_append, reverse_singleton, singleton_append, find?_cons]
  split <;> simp_all

abbrev Drawn (states : List EpisodeState) : Prop := [.scripting, .generatingImages].Sublist states

def Unbudgeted (states : List EpisodeState) (next : EpisodeState) : Prop :=
  source states = some .waitingPlanApproval → next ∉ [.cloudVideoGeneration, .localAnimation]

namespace EpisodeState

def early (state : EpisodeState) : Bool :=
  state ∈ [.requestReceived, .researching, .planning, .waitingPlanApproval]

def scripted (state : EpisodeState) : Bool :=
  state ∈ [.scripting, .scriptQa, .characterDesign, .storyboarding, .generatingAudio]

def drawn (state : EpisodeState) : Bool :=
  state ∈ [.generatingImages, .visualQa, .planningAnimation, .localAnimation, .cloudVideoGeneration,
    .animationQa, .assembling, .finalQa, .waitingThumbnailApproval, .waitingVideoApproval,
    .waitingFinalApproval, .uploading, .published]

theorem early_of_edge : ∀ now next, Edge now next → next.early = true → now.early = true := by
  decide

theorem scripted_of_edge :
    ∀ now next, Edge now next → next.scripted = true → next = .scripting ∨ now.scripted = true := by
  decide

theorem drawn_of_edge : ∀ now next, Edge now next → next.drawn = true → now.drawn = true ∨ next = .generatingImages ∧
    now.scripted = true ∨ now = .waitingBudgetApproval ∧ next ∈ [.cloudVideoGeneration, .localAnimation] := by
  decide

theorem budget_of_edge : ∀ now, Edge now .waitingBudgetApproval →
    now = .waitingBudgetApproval ∨ now = .waitingPlanApproval ∨ now.drawn = true := by
  decide

end EpisodeState

section Path
variable {path : List EpisodeState} {now : EpisodeState}

structure Planned (path : List EpisodeState) (now : EpisodeState) : Prop where
  early : now.early = true → .scripting ∉ path
  source : source path = some .waitingPlanApproval → .scripting ∉ path
  waiting : now = .waitingPlanApproval → State.source path = some .waitingPlanApproval

theorem planned_of_follows (follows : Follows Edge working .requestReceived path now) : Planned path now := by
  induction follows with
  | start => exact ⟨by simp, by simp, fun same => by cases same⟩
  | @move path now next _ counts edge ih =>
    have unscripted (before : .scripting ∉ path) (other : next ≠ .scripting) : .scripting ∉ path ++ [next] := by
      simp [before, Ne.symm other]
    refine ⟨fun early => unscripted (ih.early (early_of_edge _ _ edge early)) ?_, fun last => ?_, fun same => ?_⟩
    · rintro rfl
      cases early
    · rw [source_concat, counts, Bool.true_and] at last
      split_ifs at last with budget
      · cases last
        exact unscripted (ih.early (early_of_edge _ _ edge rfl)) (by decide)
      · refine unscripted (ih.source last) ?_
        rintro rfl
        exact budget (by decide)
    · rw [same, source_concat]
      rfl
  | @aside path now node _ out ih =>
    have unscripted (before : .scripting ∉ path) : .scripting ∉ path ++ [node] := by
      have other : node ≠ .scripting := by
        rintro rfl
        cases out
      simp [before, Ne.symm other]
    have same : source (path ++ [node]) = source path := by
      rw [source_concat, out]
      rfl
    exact ⟨fun early => unscripted (ih.early early), fun last => unscripted (ih.source (same ▸ last)),
      fun waits => same.trans (ih.waiting waits)⟩

structure Behind (path : List EpisodeState) (now : EpisodeState) : Prop where
  scripted : now.scripted = true → .scripting ∈ path
  drawn : now.drawn = true → Drawn path
  budget : now = .waitingBudgetApproval → source path = some .waitingPlanApproval ∨ Drawn path

def Kept (path : List EpisodeState) : Prop :=
  ∀ before next, before ++ [next] <+: path → Unbudgeted before next

theorem Kept.init {next : EpisodeState} (kept : Kept (path ++ [next])) : Kept path :=
  fun before other isPrefix => kept before other (isPrefix.trans (prefix_append _ _))

theorem behind_of_follows (follows : Follows Edge working .requestReceived path now) (kept : Kept path) :
    Behind path now := by
  induction follows with
  | start =>
    exact ⟨fun is => absurd is (by decide), fun is => absurd is (by decide), fun is => absurd is (by decide)⟩
  | @move path now next before counts edge ih =>
    have ih := ih kept.init
    have longer (done : Drawn path) : Drawn (path ++ [next]) := done.trans (sublist_append_left _ _)
    refine ⟨fun is => ?_, fun is => ?_, ?_⟩
    · rcases scripted_of_edge _ _ edge is with rfl | scripted
      · simp
      · exact mem_append_left _ (ih.scripted scripted)
    · rcases drawn_of_edge _ _ edge is with drawn | ⟨rfl, scripted⟩ | ⟨rfl, exit⟩
      · exact longer (ih.drawn drawn)
      · exact (singleton_sublist.mpr (ih.scripted scripted)).append_right [.generatingImages]
      · rcases ih.budget rfl with plan | done
        · exact absurd exit (kept path next prefix_rfl plan)
        · exact longer done
    · rintro rfl
      have same : source (path ++ [.waitingBudgetApproval]) = source path := by
        rw [source_concat]
        rfl
      rw [same]
      rcases budget_of_edge _ edge with rfl | rfl | drawn
      · exact (ih.budget rfl).imp_right longer
      · exact .inl ((planned_of_follows before).waiting rfl)
      · exact .inr (longer (ih.drawn drawn))
  | @aside path now node _ out ih =>
    have ih := ih kept.init
    have same : source (path ++ [node]) = source path := by
      rw [source_concat, out]
      rfl
    have longer (done : Drawn path) : Drawn (path ++ [node]) := done.trans (sublist_append_left _ _)
    exact ⟨fun is => mem_append_left _ (ih.scripted is), fun is => longer (ih.drawn is),
      fun is => same.symm ▸ (ih.budget is).imp_right longer⟩

end Path

def animated : List EpisodeState := [.localAnimation, .cloudVideoGeneration, .assembling]

section Run
variable {start store : EpisodeStateStore} {requests : List Request}

theorem visited_run (fresh : start.stateHistory = []) (accepted : start.run requests = .ok store) :
    visited store.stateHistory = requests.map Request.toState := by
  induction requests using reverseRecOn generalizing store with
  | nil =>
    cases accepted
    rw [fresh]
    rfl
  | append_singleton requests request ih =>
    obtain ⟨middle, before, last⟩ := run_concat.1 accepted
    obtain ⟨previousState, pausedFrom, move, rfl⟩ := move_of_transitionTo last
    rw [visited_moved, ih before, map_append, map_singleton]

theorem run_prefix {before : List Request} (part : before <+: requests) (accepted : start.run requests = .ok store) :
    ∃ middle, start.run before = .ok middle := by
  obtain ⟨after, rfl⟩ := part
  simp only [run, foldlM_append, bind_eq_ok] at accepted
  obtain ⟨middle, reached, -⟩ := accepted
  exact ⟨middle, reached⟩

theorem run_currentState {request : Request} (accepted : start.run (requests ++ [request]) = .ok store) :
    store.currentState = request.toState := by
  obtain ⟨middle, -, last⟩ := run_concat.1 accepted
  obtain ⟨previousState, pausedFrom, move, rfl⟩ := move_of_transitionTo last
  rfl

/-- A script and then images stand behind every animation of an episode, exactly if none of its steps is an
approval of a budget that its plan had asked for. -/
theorem drawn_before_animation_iff (new : start.currentState = .requestReceived)
    (fresh : start.stateHistory = []) (accepted : start.run requests = .ok store) :
    (∀ before middle, before <+: requests → start.run before = .ok middle →
    middle.currentState ∈ animated → Drawn (visited middle.stateHistory)) ↔ ∀ before request middle, before ++ [request]
    <+: requests → start.run before = .ok middle → Unbudgeted (visited middle.stateHistory) request.toState := by
  constructor
  · intro animates before request middle part reached plan exit
    obtain ⟨next, after⟩ := run_prefix part accepted
    have drawn : Drawn (visited next.stateHistory) := by
      refine animates _ _ part after ?_
      rw [run_currentState after]
      revert exit
      generalize request.toState = state
      revert state
      decide
    obtain ⟨work, follows, -⟩ := OnCourse.run new fresh reached
    have unscripted := (planned_of_follows follows).source plan
    rw [visited_run fresh after, map_append, ← visited_run fresh reached] at drawn
    rcases mem_append.mp (drawn.subset (.head _)) with earlier | now
    · exact unscripted earlier
    · rw [map_singleton, mem_singleton] at now
      rw [← now] at exit
      exact absurd exit (by decide)
  · intro unbudgeted before middle part reached animates
    obtain ⟨work, follows, remembers⟩ := OnCourse.run new fresh reached
    have counts : middle.currentState.working = true := by
      revert animates
      generalize middle.currentState = state
      revert state
      decide
    have drawn : work.drawn = true := by
      rw [← remembers.current counts]
      revert animates
      generalize middle.currentState = state
      revert state
      decide
    refine (behind_of_follows follows fun earlier next inside => ?_).drawn drawn
    rw [visited_run fresh reached] at inside
    obtain ⟨rest, split⟩ := inside
    obtain ⟨first, later, whole, mapped, -⟩ := map_eq_append_iff.mp split.symm
    obtain ⟨done, last, parts, rfl, single⟩ := map_eq_append_iff.mp mapped
    obtain ⟨request, rfl, rfl⟩ := map_eq_singleton_iff.mp single
    have inside : done ++ [request] <+: requests :=
      List.IsPrefix.trans ⟨later, by rw [← parts]; exact whole.symm⟩ part
    obtain ⟨state, ran⟩ := run_prefix ((prefix_append _ _).trans inside) accepted
    have kept := unbudgeted done request state inside ran
    rwa [visited_run fresh ran] at kept

theorem drawn_before_animation_sample : (∀ before middle, before <+: sampleProduction →
    sampleStore.run before = .ok middle → middle.currentState ∈ animated → Drawn (visited middle.stateHistory))
    ↔ ∀ before request middle, before ++ [request] <+:
    sampleProduction → sampleStore.run before = .ok middle → Unbudgeted (visited middle.stateHistory) request.toState :=
  drawn_before_animation_iff rfl rfl (rfl : sampleStore.run sampleProduction = _)

def sampleOverBudget : List Request :=
  [.researching, .planning, .waitingPlanApproval, .waitingBudgetApproval, .cloudVideoGeneration,
    .localAnimation, .assembling].map fun state => { toState := state }

theorem assembled_without_script : ∃ store, sampleStore.run sampleOverBudget = .ok store ∧
    store.currentState = .assembling ∧ .scripting ∉ visited store.stateHistory :=
  ⟨_, rfl, rfl, by decide⟩

end Run
end VideoPoster.State
