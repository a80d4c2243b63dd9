import VideoPoster.Offline.Timeline

/-!
# `render`: the timeline in exact amounts
-/

namespace VideoPoster.Render
open Python Floating List Option

structure Scene where
  seconds : ℚ
  clip : Option String := none
  long : 1 / 4 < seconds
  slot : clip ≠ none → seconds = 5

structure Timing where
  renderSeconds : List ℚ
  offsets : List ℚ
  frameSeconds : List ℚ
  finalSeconds : ℚ

def boundary (fps : Option ℤ) (elapsed : ℚ) : ℚ :=
  match fps with
  | some fps => roundEven (elapsed * fps) / fps
  | none => elapsed

def boundaries (fps : Option ℤ) : ℚ → List Scene → List ℚ
  | _, [] => []
  | elapsed, scene :: rest =>
    boundary fps (elapsed + scene.seconds) :: boundaries fps (elapsed + scene.seconds) rest

def Timing.of (scenes : List Scene) (hold : ℚ) (stops : List ℚ) : Timing :=
  let frameSeconds := zipWith (fun start stop => stop - start) (0 :: stops.dropLast) stops
  { renderSeconds := frameSeconds.mapIdx fun i seconds =>
      seconds + if i + 1 < scenes.length then 1 / 4 else 0
    offsets := stops.dropLast
    frameSeconds := frameSeconds
    finalSeconds := stops.getLastD 0 + hold }

def timing (scenes : List Scene) (hold : ℚ) (fps : Option ℤ) : Result Timing := do
  require (scenes ≠ [] ∧ 3 ≤ hold ∧ hold ≤ 5)
    (.value "scenes and final hold of 3-5 seconds required")
  require (∀ rate ∈ fps, 0 < rate) (.value "positive integer fps required")
  pure (.of scenes hold (boundaries fps 0 scenes))

theorem timing_eq_ok {scenes : List Scene} {hold : ℚ} {fps : ℤ} {timeline : Timing} :
    timing scenes hold (some fps) = .ok timeline ↔ (scenes ≠ [] ∧ 3 ≤ hold ∧ hold ≤ 5) ∧ 0 < fps ∧
      timeline = .of scenes hold (boundaries (some fps) 0 scenes) := by
  simp only [timing, bind_eq_ok, require_eq_ok, pure_eq_ok, exists_const, mem_some_iff, forall_eq']
  exact and_congr_right fun _ => and_congr_right fun _ => eq_comm

def total (scenes : List Scene) : ℚ := (scenes.map Scene.seconds).sum

section Drift
variable {fps : ℤ} {elapsed hold : ℚ} {scenes : List Scene} {stops : List ℚ}

@[simp]
theorem length_boundaries {fps : Option ℤ} : (boundaries fps elapsed scenes).length = scenes.length := by
  induction scenes generalizing elapsed with
  | nil => rfl
  | cons scene rest ih => simp [boundaries, ih]

theorem boundaries_get {i : ℕ} {stop : ℚ} (found : (boundaries (some fps) elapsed scenes)[i]? = some stop) :
    stop = boundary (some fps) (elapsed + total (scenes.take (i + 1))) := by
  induction scenes generalizing elapsed i with
  | nil => simp [boundaries] at found
  | cons scene rest ih =>
    cases i with
    | zero =>
      simp only [boundaries, getElem?_cons_zero, some.injEq] at found
      simp [← found, total]
    | succ i =>
      simp only [boundaries, getElem?_cons_succ] at found
      rw [ih found]
      simp [total, add_assoc]

theorem boundary_near (positive : 0 < fps) (elapsed : ℚ) : |boundary (some fps) elapsed - elapsed| ≤ 1 / (2 * fps) := by
  have rate : (0 : ℚ) < fps := by exact_mod_cast positive
  have apart : boundary (some fps) elapsed - elapsed = (roundEven (elapsed * fps) - elapsed * fps) / fps := by
    simp only [boundary]
    field_simp
  rw [apart, abs_div, abs_of_pos rate, div_le_div_iff₀ rate (by linarith)]
  have half := abs_roundEven_sub_le (elapsed * fps)
  have scaled := mul_le_mul_of_nonneg_right half rate.le
  linarith

theorem boundary_mono (positive : 0 < fps) {later : ℚ} (le : elapsed ≤ later) :
    boundary (some fps) elapsed ≤ boundary (some fps) later := by
  have rate : (0 : ℚ) < fps := by exact_mod_cast positive
  have rounded := roundEven_mono (mul_le_mul_of_nonneg_right le rate.le)
  exact div_le_div_of_nonneg_right (by exact_mod_cast rounded) rate.le

theorem boundaries_ordered (positive : 0 < fps) (elapsed : ℚ) (scenes : List Scene) :
    (boundary (some fps) elapsed :: boundaries (some fps) elapsed scenes).IsChain (· ≤ ·) := by
  induction scenes generalizing elapsed with
  | nil => exact .singleton _
  | cons scene rest ih =>
    refine .cons_cons (boundary_mono positive ?_) (ih _)
    linarith [scene.long]

theorem sum_differences (start : ℚ) (stops : List ℚ) : (zipWith (fun start stop => stop - start)
    (start :: stops.dropLast) stops).sum = stops.getLastD start - start := by
  induction stops generalizing start with
  | nil => simp
  | cons stop rest ih =>
    cases rest with
    | nil => simp
    | cons next rest =>
      have later := ih stop
      simp only [dropLast_cons_cons, zipWith_cons_cons, sum_cons, getLastD_cons] at later ⊢
      rw [later]
      ring

/-- The boundaries are whole frames in order, each as near to the exact running total as half a frame. -/
structure OnGrid (fps : ℤ) (scenes : List Scene) (stops : List ℚ) : Prop where
  length : stops.length = scenes.length
  whole : ∀ stop ∈ stops, ∃ frames : ℤ, stop = frames / fps
  ordered : stops.Pairwise (· ≤ ·)
  near : ∀ i stop, stops[i]? = some stop → |stop - total (scenes.take (i + 1))| ≤ 1 / (2 * fps)

theorem boundaries_onGrid (positive : 0 < fps) (scenes : List Scene) : OnGrid fps scenes (boundaries (some fps) 0 scenes) where
  length := length_boundaries
  whole := by
    intro stop member
    obtain ⟨i, found⟩ := mem_iff_getElem?.mp member
    exact ⟨_, boundaries_get found⟩
  ordered := by
    exact (boundaries_ordered positive 0 scenes).pairwise.tail
  near := by
    intro i stop found
    rw [boundaries_get found, zero_add]
    exact boundary_near positive _

/-- The windows add up to the last boundary, however many scenes there are. -/
theorem timing_without_drift (nonempty : scenes ≠ []) (held : 3 ≤ hold ∧ hold ≤ 5) (positive : 0 < fps) :
    ∃ timeline stops, timing scenes hold (some fps) = .ok timeline ∧ OnGrid fps scenes stops ∧
      timeline.offsets = stops.dropLast ∧ timeline.frameSeconds.sum = stops.getLastD 0 ∧
      |timeline.frameSeconds.sum - total scenes| ≤ 1 / (2 * fps) ∧
      timeline.finalSeconds = stops.getLastD 0 + hold := by
  have grid := boundaries_onGrid positive scenes
  set stops := boundaries (some fps) 0 scenes with made
  have summed : (Timing.of scenes hold stops).frameSeconds.sum = stops.getLastD 0 :=
    (sum_differences 0 stops).trans (sub_zero _)
  refine ⟨_, stops, timing_eq_ok.2 ⟨⟨nonempty, held⟩, positive, rfl⟩, grid, rfl, summed, ?_, rfl⟩
  rw [summed]
  have some := length_pos_iff.mpr nonempty
  have last : stops[scenes.length - 1]? = .some (stops.getLastD 0) := by
    rw [← grid.length, ← getLast?_eq_getElem?, getLastD_eq_getLast?]
    obtain ⟨stop, found⟩ := isSome_iff_exists.mp
      (getLast?_isSome.mpr (length_pos_iff.mp (grid.length ▸ some)))
    simp [found]
  have near := grid.near _ _ last
  rwa [Nat.sub_add_cancel some, take_length] at near

end Drift

def sampleScenes (first : ℚ) (long : 1 / 4 < first) : List Scene :=
  [⟨first, none, long, nofun⟩, ⟨1, none, by norm_num, nofun⟩]

theorem sampleScenes_timed {first : ℚ} (long : 1 / 4 < first) {fps : ℤ} (positive : 0 < fps) :
    timing (sampleScenes first long) 4 (some fps) =
      .ok (.of (sampleScenes first long) 4 (boundaries (some fps) 0 (sampleScenes first long))) :=
  timing_eq_ok.2 ⟨⟨nofun, by norm_num, by norm_num⟩, positive, rfl⟩

theorem timing_of_milliseconds : ∃ timeline stops,
    timing (sampleScenes (1001 / 1000) (by norm_num)) 4 (some 24) = .ok timeline ∧
      OnGrid 24 (sampleScenes (1001 / 1000) (by norm_num)) stops ∧ timeline.offsets = stops.dropLast ∧
      timeline.frameSeconds.sum = stops.getLastD 0 ∧
      |timeline.frameSeconds.sum - total (sampleScenes (1001 / 1000) (by norm_num))| ≤ 1 / (2 * (24 : ℤ)) ∧
      timeline.finalSeconds = stops.getLastD 0 + 4 :=
  timing_without_drift (by simp [sampleScenes]) (by norm_num) (by decide)

end VideoPoster.Render
