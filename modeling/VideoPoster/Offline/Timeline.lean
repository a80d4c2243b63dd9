import Mathlib.Data.List.Sort
import VideoPoster.Offline.Retirement
import VideoPoster.Production.Compiled

/-!
# Frame windows, scenes and the timeline of a renderer
-/

namespace VideoPoster.Offline
open Python Floating List Format
open Production (FrameSpec)

def checkFrame (frame : FrameSpec) : Result Unit := do
  require (blank frame.sceneId = false) (.value "scene_id required")
  require (0 ≤ frame.start ∧ frame.start < frame.stop) (.value "positive ordered timestamps required")
  require (blank frame.prompt = false ∧ blank frame.semanticAction = false)
    (.value "semantic action and compiled prompt required")

def earlier (a b : FrameSpec) : Bool :=
  a.start < b.start ∨ a.start = b.start ∧ a.sceneId ≤ b.sceneId

def compileFrames (frames : List FrameSpec) : Result (List FrameSpec) := do
  frames.forM checkFrame
  require (frames ≠ []) (.value "at least one semantic frame required")
  require (frames.map FrameSpec.sceneId).Nodup (.value "duplicate scene_id")
  let ordered := frames.mergeSort earlier
  require (ordered.IsChain fun previous current => previous.stop ≤ current.start)
    (.value "semantic timestamps overlap")
  pure ordered

def window (frame : FrameSpec) : Frame := ⟨frame.start, frame.stop, frame.hero⟩

theorem compileFrames_ne_nil {frames ordered : List FrameSpec} (compiled : compileFrames frames = .ok ordered) :
    ordered ≠ [] := by
  simp only [compileFrames, bind_eq_ok, require_eq_ok, pure_eq_ok, exists_const] at compiled
  obtain ⟨-, -, nonempty, -, -, rfl⟩ := compiled
  exact fun empty => nonempty (length_eq_zero_iff.mp
    ((length_mergeSort frames).symm.trans (length_eq_zero_iff.mpr empty)))

structure Scene where
  image : String
  seconds : ℚ
  clip : Option String
  finite : binary64.Finite seconds
  long : 1 / 4 < seconds
  hero : clip ≠ none → seconds = 5

def Scene.make (image : String) (seconds : ℚ) (clip : Option String := none) : Result Scene :=
  if duration : binary64.Finite seconds ∧ 1 / 4 < seconds then
    if slot : clip ≠ none → seconds = 5 then
      .ok ⟨image, seconds, clip, duration.1, duration.2, slot⟩
    else .error (.value "hero slot must be exactly five seconds")
  else .error (.value "scene duration must exceed transition")

structure Timing where
  renderSeconds : List ℚ
  offsets : List ℚ
  frameSeconds : List ℚ
  finalSeconds : ℚ

def boundary (fps : ℤ) (elapsed : ℚ) : Result ℚ := do
  require (binary64.Finite (binary64.nearest fps))
    ⟨.other "OverflowError", "int too large to convert to float"⟩
  let frames := binary64.nearest (elapsed * binary64.nearest fps)
  require (binary64.Finite frames)
    ⟨.other "OverflowError", "cannot convert float infinity to integer"⟩
  pure (binary64.nearest (roundEven frames / fps))

def boundaries (fps : Option ℤ) : ℚ → List Scene → Result (List ℚ)
  | _, [] => pure []
  | elapsed, scene :: rest => do
    let elapsed := binary64.nearest (elapsed + scene.seconds)
    let stop ← match fps with
      | some fps => boundary fps elapsed
      | none => pure elapsed
    let later ← boundaries fps elapsed rest
    pure (stop :: later)

def timing (scenes : List Scene) (hold : ℚ) (fps : Option ℤ) : Result Timing := do
  require (scenes ≠ [] ∧ 3 ≤ hold ∧ hold ≤ 5)
    (.value "scenes and final hold of 3-5 seconds required")
  require (∀ rate ∈ fps, 0 < rate) (.value "positive integer fps required")
  let stops ← boundaries fps 0 scenes
  let frameSeconds := zipWith (fun start stop => binary64.nearest (stop - start))
    (0 :: stops.dropLast) stops
  pure {
    renderSeconds := frameSeconds.mapIdx fun i seconds =>
      if i + 1 < scenes.length then binary64.nearest (seconds + 1 / 4) else seconds
    offsets := stops.dropLast
    frameSeconds := frameSeconds
    finalSeconds := binary64.nearest (stops.getLastD 0 + hold) }

structure LocalRenderer where
  fps : ℤ := 30
  positive : 0 < fps := by decide

def Frame.seconds (frame : Frame) : ℚ := binary64.nearest (frame.stop - frame.start)

def scenesOf : List Frame → List String → Result (List Scene)
  | frame :: frames, asset :: assets => do
    let scene ← Scene.make asset frame.seconds
    let scenes ← scenesOf frames assets
    pure (scene :: scenes)
  | _, _ => pure []

def LocalRenderer.schedule (renderer : LocalRenderer) (episode : CompiledEpisode) (manifest : Manifest)
    (hold : ℚ) : Result Timing := do
  let scenes ← scenesOf episode.frames manifest.assets
  timing scenes hold renderer.fps

def totalSeconds (elapsed : ℚ) (frames : List Frame) : ℚ :=
  frames.foldl (fun elapsed frame => binary64.nearest (elapsed + frame.seconds)) elapsed

structure Renderable (fps : ℤ) (frames : List Frame) (hold : ℚ) : Prop where
  longer : ∀ frame ∈ frames, 1 / 4 < frame.seconds
  hold : hold ≤ 5
  rate : binary64.Finite (binary64.nearest fps)
  total : binary64.Finite (binary64.nearest (totalSeconds 0 frames * binary64.nearest fps))

theorem make_eq_ok {image : String} {seconds : ℚ} {scene : Scene} : Scene.make image seconds = .ok scene ↔
      scene.image = image ∧ scene.seconds = seconds ∧ scene.clip = none := by
  unfold Scene.make
  constructor
  · intro made
    split_ifs at made with duration slot
    cases made
    exact ⟨rfl, rfl, rfl⟩
  · rintro ⟨rfl, rfl, free⟩
    rw [dif_pos ⟨scene.finite, scene.long⟩, dif_pos (fun clip => absurd rfl clip)]
    obtain ⟨image, seconds, clip, finite, long, hero⟩ := scene
    subst free
    rfl

variable {frames : List Frame} {scenes : List Scene}

theorem scenesOf_seconds {assets : List String} (made : scenesOf frames assets = .ok scenes)
    (equal : frames.length = assets.length) : scenes.map Scene.seconds = frames.map Frame.seconds := by
  induction frames generalizing assets scenes with
  | nil =>
    cases made
    rfl
  | cons frame frames ih =>
    cases assets with
    | nil => cases equal
    | cons asset assets =>
      simp only [scenesOf, bind_eq_ok, make_eq_ok, pure_eq_ok] at made
      obtain ⟨scene, ⟨-, seconds, -⟩, rest, more, rfl⟩ := made
      have tail := ih more (Nat.succ.inj equal)
      simp [seconds, tail]

theorem exists_scenesOf (assets : List String) (usable : ∀ frame ∈ frames,
    binary64.Finite frame.seconds ∧ 1 / 4 < frame.seconds) : ∃ scenes, scenesOf frames assets = .ok scenes := by
  induction frames generalizing assets with
  | nil => exact ⟨[], rfl⟩
  | cons frame frames ih =>
    cases assets with
    | nil => exact ⟨[], rfl⟩
    | cons asset assets =>
      obtain ⟨finite, long⟩ := usable frame mem_cons_self
      obtain ⟨scenes, made⟩ := ih assets fun other member => usable other (.tail _ member)
      let scene : Scene := ⟨asset, frame.seconds, none, finite, long, fun clip => absurd rfl clip⟩
      have first : Scene.make asset frame.seconds = .ok scene := make_eq_ok.2 ⟨rfl, rfl, rfl⟩
      refine ⟨scene :: scenes, ?_⟩
      simp only [scenesOf, first, made]
      rfl

variable {elapsed : ℚ}

theorem le_nearest_add {seconds : ℚ} (exact : binary64.nearest elapsed = elapsed)
    (nonneg : 0 ≤ seconds) : elapsed ≤ binary64.nearest (elapsed + seconds) := by
  have grown := nearest_mono (F := binary64) (le_add_of_nonneg_right (a := elapsed) nonneg)
  rwa [exact] at grown

theorem totalSeconds_ge (exact : binary64.nearest elapsed = elapsed)
    (nonneg : ∀ frame ∈ frames, 0 ≤ frame.seconds) : elapsed ≤ totalSeconds elapsed frames := by
  induction frames generalizing elapsed with
  | nil => exact le_rfl
  | cons frame frames ih =>
    calc elapsed ≤ binary64.nearest (elapsed + frame.seconds) :=
          le_nearest_add exact (nonneg frame mem_cons_self)
      _ ≤ totalSeconds _ frames :=
          ih (nearest_nearest _) fun other member => nonneg other (.tail _ member)

theorem seconds_le_totalSeconds (start : 0 ≤ elapsed)
    (nonneg : ∀ frame ∈ frames, 0 ≤ frame.seconds) : ∀ frame ∈ frames, frame.seconds ≤ totalSeconds elapsed frames := by
  induction frames generalizing elapsed with
  | nil => simp
  | cons first frames ih =>
    have later : ∀ frame ∈ frames, 0 ≤ frame.seconds :=
      fun frame member => nonneg frame (.tail _ member)
    have here : 0 ≤ first.seconds := nonneg first mem_cons_self
    have grown : first.seconds ≤ binary64.nearest (elapsed + first.seconds) := by
      rw [add_comm]
      exact le_nearest_add (nearest_nearest _) start
    intro frame member
    rcases mem_cons.mp member with rfl | inRest
    · exact grown.trans (totalSeconds_ge (nearest_nearest _) later)
    · exact ih (here.trans grown) later frame inRest

variable {fps : ℤ}

theorem boundary_eq_ok : (∃ stop, boundary fps elapsed = .ok stop) ↔ binary64.Finite (binary64.nearest fps) ∧
      binary64.Finite (binary64.nearest (elapsed * binary64.nearest fps)) := by
  simp only [boundary, bind_eq_ok, require_eq_ok, exists_const, pure_eq_ok]
  constructor
  · rintro ⟨stop, rate, product, -⟩
    exact ⟨rate, product⟩
  · rintro ⟨rate, product⟩
    exact ⟨_, rate, product, rfl⟩

theorem one_le_nearest (positive : 0 < fps) : 1 ≤ binary64.nearest fps := by
  have one : binary64.nearest 1 = 1 := by decide +kernel
  rw [← one]
  exact nearest_mono (by exact_mod_cast positive)

theorem boundaries_eq_ok (positive : 0 < fps)
    (same : scenes.map Scene.seconds = frames.map Frame.seconds) (start : 0 ≤ elapsed) (nonempty : frames ≠ []) :
    (∃ stops, boundaries (some fps) elapsed scenes = .ok stops) ↔ binary64.Finite (binary64.nearest fps)
    ∧ binary64.Finite (binary64.nearest (totalSeconds elapsed frames * binary64.nearest fps)) := by
  induction scenes generalizing frames elapsed with
  | nil =>
    cases frames with
    | nil => exact absurd rfl nonempty
    | cons frame frames => cases same
  | cons scene scenes ih =>
    cases frames with
    | nil => cases same
    | cons frame frames =>
      obtain ⟨seconds, rest⟩ := cons.inj same
      have spent : 0 ≤ frame.seconds := by
        rw [← seconds]
        linarith [scene.long]
      have grown : 0 ≤ binary64.nearest (elapsed + frame.seconds) :=
        nearest_nonneg (add_nonneg start spent)
      have step : (∃ stops, boundaries (some fps) elapsed (scene :: scenes) = .ok stops) ↔
          (∃ stop, boundary fps (binary64.nearest (elapsed + frame.seconds)) = .ok stop) ∧
          ∃ stops, boundaries (some fps) (binary64.nearest (elapsed + frame.seconds)) scenes =
            .ok stops := by
        simp only [boundaries, seconds, bind_eq_ok, pure_eq_ok]
        constructor
        · rintro ⟨_, stop, first, later, more, -⟩
          exact ⟨⟨stop, first⟩, later, more⟩
        · rintro ⟨⟨stop, first⟩, later, more⟩
          exact ⟨_, stop, first, later, more, rfl⟩
      rw [step, boundary_eq_ok]
      by_cases last : frames = []
      · subst last
        obtain rfl : scenes = [] := map_eq_nil_iff.mp rest
        exact and_iff_left ⟨[], rfl⟩
      · rw [ih rest grown last]
        refine ⟨And.right, fun reached => ⟨⟨reached.1, ?_⟩, reached⟩⟩
        have nonneg : ∀ frame ∈ frames, 0 ≤ frame.seconds := by
          intro other member
          obtain ⟨scene', -, same'⟩ := mem_map.mp (rest ▸ mem_map_of_mem member)
          rw [← same']
          linarith [scene'.long]
        have rate : 0 ≤ binary64.nearest fps := zero_le_one.trans (one_le_nearest positive)
        refine reached.2.of_le (nearest_nonneg (mul_nonneg grown rate)) ?_
        exact nearest_mono (mul_le_mul_of_nonneg_right (totalSeconds_ge (nearest_nearest _) nonneg) rate)

variable {hold : ℚ}

theorem Renderable.finite (positive : 0 < fps)
    (renderable : Renderable fps frames hold) : ∀ frame ∈ frames, binary64.Finite frame.seconds := by
  have nonneg : ∀ frame ∈ frames, 0 ≤ frame.seconds := by
    intro frame member
    linarith [renderable.longer frame member]
  intro frame member
  have part := seconds_le_totalSeconds le_rfl nonneg frame member
  have total : 0 ≤ totalSeconds 0 frames := (nonneg frame member).trans part
  refine renderable.total.of_le (nonneg frame member) ?_
  calc frame.seconds = binary64.nearest frame.seconds := (nearest_nearest _).symm
    _ ≤ binary64.nearest (totalSeconds 0 frames * binary64.nearest fps) :=
        nearest_mono (part.trans (le_mul_of_one_le_right total (one_le_nearest positive)))

variable {episode : CompiledEpisode} {manifest : Manifest}

theorem schedule_eq_ok (renderer : LocalRenderer) (equal : episode.frames.length = manifest.assets.length)
    (nonempty : episode.frames ≠ []) (least : 3 ≤ hold) : (∃ timeline,
    renderer.schedule episode manifest hold = .ok timeline) ↔ Renderable renderer.fps episode.frames hold := by
  have scheduled : (∃ timeline, renderer.schedule episode manifest hold = .ok timeline) ↔
      ∃ scenes, scenesOf episode.frames manifest.assets = .ok scenes ∧ scenes ≠ [] ∧ hold ≤ 5 ∧
        ∃ stops, boundaries (some renderer.fps) 0 scenes = .ok stops := by
    simp only [LocalRenderer.schedule, timing, bind_eq_ok, require_eq_ok, exists_const, pure_eq_ok]
    constructor
    · rintro ⟨_, scenes, made, ⟨some, -, most⟩, -, stops, ran, -⟩
      exact ⟨scenes, made, some, most, stops, ran⟩
    · rintro ⟨scenes, made, some, most, stops, ran⟩
      refine ⟨_, scenes, made, ⟨some, least, most⟩, ?_, stops, ran, rfl⟩
      rintro _ ⟨⟩
      exact renderer.positive
  rw [scheduled]
  constructor
  · rintro ⟨scenes, made, some, most, ran⟩
    have same := scenesOf_seconds made equal
    obtain ⟨rate, total⟩ := (boundaries_eq_ok renderer.positive same le_rfl nonempty).mp ran
    refine ⟨fun frame member => ?_, most, rate, total⟩
    obtain ⟨scene, -, seconds⟩ := mem_map.mp (same ▸ mem_map_of_mem member)
    rw [← seconds]
    exact scene.long
  · intro renderable
    obtain ⟨scenes, made⟩ := exists_scenesOf manifest.assets fun frame member =>
      ⟨renderable.finite renderer.positive frame member, renderable.longer frame member⟩
    have same := scenesOf_seconds made equal
    refine ⟨scenes, made, ?_, renderable.hold, ?_⟩
    · rintro rfl
      exact nonempty (map_eq_nil_iff.mp same.symm)
    · exact (boundaries_eq_ok renderer.positive same le_rfl nonempty).mpr
        ⟨renderable.rate, renderable.total⟩

theorem makeBinding_checked {look : Look} {contract : ThumbnailContract} {binding : Binding}
    (bound : makeBinding look episode manifest contract hold = .ok binding) :
    episode.frames.length = manifest.assets.length ∧ 3 ≤ hold ∧ hold ≤ 10 := by
  unfold makeBinding at bound
  split at bound
  · simp only [bind_eq_ok, require_eq_ok, exists_const] at bound
    obtain ⟨_, -, _, -, _, -, equal, -, range, -⟩ := bound
    exact ⟨equal, range⟩
  · simp only [bind_eq_ok, require_eq_ok, exists_const] at bound
    obtain ⟨_, -, _, -, equal, -, range, -⟩ := bound
    exact ⟨equal, range⟩

section Plan
variable {digest : Body → String → String} {store store' : Store} {plan : ApprovePlan}
  {receiptId : String} {frames ordered : List FrameSpec}

/-- An approved plan gets past its scenes and its timeline exactly if every window is longer than a
transition, the hold is one of the timeline and the running total is a number of frames. -/
theorem approved_plan_renderable_iff (renderer : LocalRenderer)
    (approved : approvePlan digest store plan = (store', .ok receiptId)) (compiled : compileFrames frames = .ok ordered)
    (windows : plan.episode.frames = ordered.map window) : (∃ timeline, renderer.schedule
    plan.episode plan.manifest plan.hold = .ok timeline) ↔ Renderable renderer.fps plan.episode.frames plan.hold := by
  have checked : ∃ binding, makeBinding plan.look plan.episode plan.manifest plan.contract plan.hold = .ok binding := by
    unfold approvePlan at approved
    simp only at approved
    split at approved
    · cases approved
    · rename_i binding checked
      obtain ⟨_, -, bound⟩ := bind_eq_ok.mp checked
      exact ⟨binding, bound⟩
  obtain ⟨binding, bound⟩ := checked
  obtain ⟨equal, least, -⟩ := makeBinding_checked bound
  refine schedule_eq_ok renderer equal ?_ least
  rw [windows]
  exact fun empty => compileFrames_ne_nil compiled (map_eq_nil_iff.mp empty)

theorem prepare_stops {call : Prepare} {renderer : LocalRenderer} {rest : Timing → Result Json}
    (renders : call.render = renderer.schedule call.episode call.manifest call.hold >>= rest)
    (stopped : ¬ ∃ timeline, renderer.schedule call.episode call.manifest call.hold = .ok timeline)
    (idle : store.readState.active = none) : ∃ error, prepare digest store call = (store, .error error) := by
  have unproduced : ∀ result, produce call ≠ .ok result := by
    intro result produced
    simp only [produce, renders, bind_eq_ok] at produced
    obtain ⟨_, -, _, ⟨timeline, scheduled, -⟩, -⟩ := produced
    exact stopped ⟨timeline, scheduled⟩
  have failed : ∀ binding result, prepareBody digest store call binding ≠ .ok result := by
    intro binding result prepared
    simp only [prepareBody, idle, prepareNew, bind_eq_ok] at prepared
    obtain ⟨_, -, _, -, files, produced, -⟩ := prepared
    exact unproduced files produced
  cases ran : (prepare digest store call).2 with
  | ok value =>
    obtain ⟨binding, prepared⟩ := prepare_eq_ok ran
    exact absurd prepared (failed binding _)
  | error error => exact ⟨error, Prod.ext ((prepare_outcome call).refused error ran) ran⟩

end Plan

def sampleFrame (stop : ℚ) : FrameSpec := ⟨"s1", 0, stop, "a lion", "roars", false⟩

def samplePlan (stop hold : ℚ) : ApprovePlan where
  episode := ⟨"EP9", "c", [⟨0, stop, false⟩], none⟩
  manifest := ⟨"m", ["a.png"]⟩
  contract := sampleContract
  reviewer := "director"
  hold := hold
  look := sampleLook
  now := "plan"

def approvedSample (stop hold : ℚ) : Store × Result String :=
  approvePlan (fun _ => id) .empty (samplePlan stop hold)

variable {stop : ℚ}

theorem approvedSample_eq {hold : ℚ} (approved : (approvedSample stop hold).2.toOption = some "plan") :
    approvePlan (fun _ => id) .empty (samplePlan stop hold) =
      ((approvedSample stop hold).1, .ok "plan") :=
  Prod.ext rfl (toOption_eq_some.mp approved)

theorem sampleFrame_compiles (positive : 0 < stop) : compileFrames [sampleFrame stop] = .ok [sampleFrame stop] := by
  have checked : checkFrame (sampleFrame stop) = .ok () := by
    simp only [checkFrame, bind_eq_ok, require_eq_ok, exists_const]
    refine ⟨?_, ⟨le_rfl, positive⟩, ?_, ?_⟩
    · show blank "s1" = false
      decide
    · show blank "a lion" = false
      decide
    · show blank "roars" = false
      decide
  simp only [compileFrames, bind_eq_ok, require_eq_ok, exists_const, pure_eq_ok]
  refine ⟨(), ?_, by simp, by simp, ?_, ?_⟩
  · show (do checkFrame (sampleFrame stop); pure ()) = _
    rw [checked]
    rfl
  · rw [mergeSort_singleton]
    exact .singleton _
  · exact mergeSort_singleton _

theorem sample_plan_renderable : ∃ timeline, ({} : LocalRenderer).schedule (samplePlan 5 4).episode
    (samplePlan 5 4).manifest (samplePlan 5 4).hold = .ok timeline := by
  have approved := @approvedSample_eq 5 4 (by decide +kernel)
  refine (approved_plan_renderable_iff {} approved (sampleFrame_compiles (by norm_num)) rfl).mpr ⟨?_, ?_, ?_, ?_⟩
  · decide +kernel
  · decide
  · decide +kernel
  · decide +kernel

/-- The plan is approved, and no `prepare` with its receipt gets past its timeline. -/
def OnlyFails (plan : ApprovePlan) : Prop :=
  ∃ store frames ordered, approvePlan (fun _ => id) .empty plan = (store, .ok "plan") ∧
    compileFrames frames = .ok ordered ∧ plan.episode.frames = ordered.map window ∧
    ∀ (renderer : LocalRenderer) (rest : Timing → Result Json) (call : Prepare),
      call.episode = plan.episode → call.manifest = plan.manifest → call.hold = plan.hold →
      call.render = renderer.schedule call.episode call.manifest call.hold >>= rest →
      ∃ error, prepare (fun _ => id) store call = (store, .error error)

theorem samplePlan_onlyFails (positive : 0 < stop) (least : 3 ≤ hold)
    (approved : (approvedSample stop hold).2.toOption = some "plan")
    (failing : ∀ fps, ¬ Renderable fps (samplePlan stop hold).episode.frames hold) :
    OnlyFails (samplePlan stop hold) := by
  refine ⟨_, _, _, approvedSample_eq approved, sampleFrame_compiles positive, rfl, ?_⟩
  intro renderer rest call episode manifest same renders
  refine prepare_stops renders ?_ (congrArg State.active (approvePlan_readState _))
  rw [episode, manifest, same]
  exact fun scheduled => failing _ ((schedule_eq_ok renderer rfl (by simp [samplePlan]) least).mp scheduled)

theorem approved_plans_only_fail : OnlyFails (samplePlan (1 / 8) 4) ∧ OnlyFails (samplePlan 5 6) := by
  constructor
  · refine samplePlan_onlyFails (by norm_num) (by norm_num) (by decide +kernel) fun fps renderable => ?_
    exact absurd (renderable.longer ⟨0, 1 / 8, false⟩ mem_cons_self) (by decide +kernel)
  · refine samplePlan_onlyFails (by norm_num) (by norm_num) (by decide +kernel) fun fps renderable => ?_
    exact absurd renderable.hold (by norm_num)

end VideoPoster.Offline
