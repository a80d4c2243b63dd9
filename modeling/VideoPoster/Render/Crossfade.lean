import Mathlib.Data.List.ReduceOption
import VideoPoster.Render.Timing

/-!
# `LocalRenderer.render`: the clips of still scenes and their crossfades
-/

namespace VideoPoster.Render
open Python Floating List Timing
open Offline (LocalRenderer)

/-- `frames = round(seconds * self.fps)`; the clip of a hero is cut by its seconds. -/
def clipFrames (renderer : LocalRenderer) (scene : Scene) (seconds : ℚ) : Option ℤ :=
  match scene.clip with
  | none => some (roundEven (seconds * renderer.fps))
  | some _ => none

def stillClips (renderer : LocalRenderer) (scenes : List Scene) (timeline : Timing) : List ℤ :=
  (zipWith (clipFrames renderer) scenes timeline.renderSeconds).reduceOption

/-- Every `xfade` ends within what is there before it; what it leaves is the offset and the next clip. -/
def Chained (fps : ℤ) : ℚ → List ℚ → List ℤ → Prop
  | material, offset :: offsets, clip :: clips =>
    offset + 1 / 4 ≤ material ∧ Chained fps (offset + clip / fps) offsets clips
  | _, _, _ => True

structure WellFormed (renderer : LocalRenderer) (timeline : Timing) (clips : List ℤ) : Prop where
  covers : List.Forall₂ (fun (window : ℚ) (clip : ℤ) => window + 1 / 4 ≤ clip / renderer.fps)
    timeline.frameSeconds.dropLast clips.dropLast
  last : ∀ clip ∈ clips.getLast?, 1 ≤ clip ∧ (1 / 4 : ℚ) ≤ clip / renderer.fps
  chained : ∀ first rest, clips = first :: rest →
    Chained renderer.fps (first / renderer.fps) timeline.offsets rest

def windows (fps : ℤ) : ℚ → List Scene → List ℤ
  | _, [] => []
  | elapsed, scene :: rest =>
    (roundEven ((elapsed + scene.seconds) * fps) - roundEven (elapsed * fps)) ::
      windows fps (elapsed + scene.seconds) rest

def RoundsUp (fps window : ℤ) : Prop :=
  fps % 4 = 0 ∨ fps % 4 = 3 ∨ fps % 4 = 2 ∧ (window + fps / 4) % 2 = 1

instance (fps window : ℤ) : Decidable (RoundsUp fps window) := inferInstanceAs (Decidable (_ ∨ _))

structure WholeClips (fps : ℤ) (scenes : List Scene) : Prop where
  inner : ∀ window ∈ (windows fps 0 scenes).dropLast, RoundsUp fps window
  last : ∀ window ∈ (windows fps 0 scenes).getLast?, fps ≤ 4 * window

theorem roundEven_add_intCast_of_lt {n : ℤ} {x : ℚ} (small : |x| < 1 / 2) : roundEven (n + x) = n := by
  apply roundEven_eq_of_lt
  simpa using small

theorem roundEven_half (n : ℤ) : roundEven (n + 1 / 2) = if n % 2 = 0 then n else n + 1 := by
  have floor : ⌊(n + 1 / 2 : ℚ)⌋ = n := by
    rw [Int.floor_eq_iff]
    constructor <;> linarith
  have fraction : Int.fract (n + 1 / 2 : ℚ) = 1 / 2 := by
    rw [Int.fract, floor]
    ring
  rw [roundEven, fraction, floor]
  simp

theorem roundsUp_iff (fps window : ℤ) :
    (window + fps / 4 : ℚ) ≤ roundEven (window + fps / 4) ↔ RoundsUp fps window := by
  have parts : (fps : ℚ) = 4 * (fps / 4 : ℤ) + (fps % 4 : ℤ) := by
    exact_mod_cast (Int.mul_ediv_add_emod fps 4).symm
  set n := window + fps / 4 with frames
  have exact : (window + fps / 4 : ℚ) = n + (fps % 4 : ℤ) / 4 := by
    rw [frames]
    push_cast
    linarith
  rw [exact, RoundsUp, ← frames]
  have rest : fps % 4 = 0 ∨ fps % 4 = 1 ∨ fps % 4 = 2 ∨ fps % 4 = 3 := by omega
  rcases rest with rest | rest | rest | rest
  · rw [rest]
    simp [roundEven_intCast]
  · have down : roundEven (n + (1 : ℤ) / 4 : ℚ) = n := roundEven_add_intCast_of_lt (by norm_num [abs_lt])
    rw [rest, down]
    refine iff_of_false ?_ (by omega)
    push_cast
    linarith
  · have tie : (n + (2 : ℤ) / 4 : ℚ) = n + 1 / 2 := by norm_num
    rw [rest, tie, roundEven_half]
    split_ifs with even
    · refine iff_of_false ?_ (by omega)
      linarith
    · refine iff_of_true ?_ (by omega)
      push_cast
      linarith
  · have up : roundEven (n + (3 : ℤ) / 4 : ℚ) = n + 1 := by
      apply roundEven_eq_of_lt
      push_cast
      norm_num [abs_lt]
    rw [rest, up]
    refine iff_of_true ?_ (by omega)
    push_cast
    linarith

section Clips
variable {fps : ℤ} {elapsed hold : ℚ} {scenes : List Scene}

theorem length_windows : (windows fps elapsed scenes).length = scenes.length := by
  induction scenes generalizing elapsed with
  | nil => rfl
  | cons scene rest ih => simp [windows, ih]

theorem frameSeconds_eq (positive : 0 < fps) : zipWith (fun start stop => stop - start)
    (boundary (some fps) elapsed :: (boundaries (some fps) elapsed scenes).dropLast) (boundaries (some fps)
    elapsed scenes) = (windows fps elapsed scenes).map fun (window : ℤ) => (window / fps : ℚ) := by
  have rate : (fps : ℚ) ≠ 0 := by exact_mod_cast positive.ne'
  induction scenes generalizing elapsed with
  | nil => rfl
  | cons scene rest ih =>
    have first : boundary (some fps) (elapsed + scene.seconds) - boundary (some fps) elapsed =
        ((roundEven ((elapsed + scene.seconds) * fps) - roundEven (elapsed * fps) : ℤ) / fps : ℚ) := by
      simp only [boundary]
      push_cast
      ring
    cases rest with
    | nil => simp [boundaries, windows, first]
    | cons next rest =>
      have later := @ih (elapsed + scene.seconds)
      simp only [boundaries, windows, dropLast_cons_cons, zipWith_cons_cons, map_cons, first] at later ⊢
      rw [later]

/-- The frames of the clips: every window but the last is followed by a crossfade. -/
def clipsOf (fps : ℤ) : List ℤ → List ℤ
  | [] => []
  | [window] => [window]
  | window :: next :: rest => roundEven (window + fps / 4) :: clipsOf fps (next :: rest)

theorem clips_eq (positive : 0 < fps)
    (windows : List ℤ) : ((windows.map fun (window : ℤ) => (window / fps : ℚ)).mapIdx fun i seconds => seconds + if
    i + 1 < windows.length then 1 / 4 else 0).map (fun seconds => roundEven (seconds * fps)) = clipsOf fps windows := by
  have rate : (fps : ℚ) ≠ 0 := by exact_mod_cast positive.ne'
  induction windows with
  | nil => rfl
  | cons window rest ih =>
    cases rest with
    | nil =>
      simp [clipsOf, div_mul_cancel₀ _ rate, roundEven_intCast]
    | cons next rest =>
      have frames : (window / fps + 1 / 4) * fps = (window + fps / 4 : ℚ) := by
        field_simp
      rw [clipsOf, ← ih, map_cons, mapIdx_cons, map_cons]
      simpa using congrArg roundEven frames

theorem covers_iff (positive : 0 < fps) (windows : List ℤ) :
    List.Forall₂ (fun (window : ℚ) (clip : ℤ) => window + 1 / 4 ≤ clip / fps) (windows.map fun (window : ℤ) =>
    (window / fps : ℚ)).dropLast (clipsOf fps windows).dropLast ↔ ∀ window ∈ windows.dropLast, RoundsUp fps window := by
  have rate : (0 : ℚ) < fps := by exact_mod_cast positive
  induction windows with
  | nil => simp [clipsOf]
  | cons window rest ih =>
    cases rest with
    | nil => simp [clipsOf]
    | cons next rest =>
      have enough : (window / fps + 1 / 4 : ℚ) ≤ roundEven (window + fps / 4) / fps ↔ RoundsUp fps window := by
        rw [← roundsUp_iff, le_div_iff₀ rate, show (window / fps + 1 / 4) * fps = (window + fps / 4 : ℚ) by
          field_simp]
      have clips : clipsOf fps (next :: rest) ≠ [] := by cases rest <;> simp [clipsOf]
      simp only [map_cons, dropLast_cons_cons, clipsOf, dropLast_cons_of_ne_nil clips,
        forall₂_cons, forall_mem_cons, enough] at ih ⊢
      exact and_congr_right fun _ => ih

theorem getLast?_clipsOf (windows : List ℤ) : (clipsOf fps windows).getLast? = windows.getLast? := by
  induction windows with
  | nil => rfl
  | cons window rest ih =>
    cases rest with
    | nil => rfl
    | cons next rest =>
      have clips : clipsOf fps (next :: rest) ≠ [] := by cases rest <;> simp [clipsOf]
      rw [clipsOf, getLast?_cons_of_ne_nil clips, ih, getLast?_cons_cons]

theorem enough_iff (positive : 0 < fps) (window : ℤ) :
    (window / fps + 1 / 4 : ℚ) ≤ roundEven (window + fps / 4) / fps ↔ RoundsUp fps window := by
  have rate : (0 : ℚ) < fps := by exact_mod_cast positive
  have frames : (window / fps + 1 / 4) * fps = (window + fps / 4 : ℚ) := by
    field_simp
  rw [← roundsUp_iff, le_div_iff₀ rate, frames]

theorem clipsOf_cons (window : ℤ) (rest : List ℤ) : clipsOf fps (window :: rest) =
    (if rest = [] then window else roundEven (window + fps / 4)) :: clipsOf fps rest := by
  cases rest <;> simp [clipsOf]

theorem windows_eq_nil : windows fps elapsed scenes = [] ↔ scenes = [] := by
  rw [← length_eq_zero_iff, length_windows, length_eq_zero_iff]

theorem chained_iff (positive : 0 < fps) (scene : Scene) (clip : ℤ) : Chained fps (boundary (some fps) elapsed + clip /
    fps) (boundaries (some fps) elapsed (scene :: scenes)).dropLast (clipsOf fps (windows fps (elapsed + scene.seconds)
    scenes)) ↔ (scenes ≠ [] → boundary (some fps) (elapsed + scene.seconds) + 1 / 4 ≤ boundary (some fps) elapsed
    + clip / fps) ∧ ∀ window ∈ (windows fps (elapsed + scene.seconds) scenes).dropLast, RoundsUp fps window := by
  induction scenes generalizing elapsed scene clip with
  | nil => simp [boundaries, windows, clipsOf, Chained]
  | cons next rest ih =>
    set middle := elapsed + scene.seconds with reached
    set window := roundEven ((middle + next.seconds) * fps) - roundEven (middle * fps) with counted
    have after : boundary (some fps) (middle + next.seconds) = boundary (some fps) middle + window / fps := by
      simp only [boundary, counted]
      push_cast
      ring
    have step : (boundaries (some fps) elapsed (scene :: next :: rest)).dropLast =
        boundary (some fps) middle :: (boundaries (some fps) middle (next :: rest)).dropLast := by
      simp [boundaries, reached]
    have more : windows fps middle (next :: rest) = window :: windows fps (middle + next.seconds) rest := rfl
    rw [step, more, clipsOf_cons, Chained, ih next]
    by_cases alone : rest = []
    · simp [alone, windows]
    · have several : windows fps (middle + next.seconds) rest ≠ [] := mt windows_eq_nil.1 alone
      have enough := enough_iff positive window
      simp only [several, if_false, ne_eq, alone, not_false_eq_true, true_imp_iff, reduceCtorEq,
        dropLast_cons_of_ne_nil several, forall_mem_cons, after, ← enough]
      refine and_congr_right fun _ => and_congr_left fun _ => ?_
      constructor <;> intro le <;> linarith

end Clips

section Render
variable {renderer : LocalRenderer} {scenes : List Scene} {hold : ℚ} {timeline : Timing}

theorem stillClips_eq (still : ∀ scene ∈ scenes, scene.clip = none)
    (equal : timeline.renderSeconds.length = scenes.length) : stillClips renderer scenes timeline =
      timeline.renderSeconds.map fun seconds => roundEven (seconds * renderer.fps) := by
  have drawn : ∀ (scenes : List Scene) (seconds : List ℚ), (∀ scene ∈ scenes, scene.clip = none) →
      seconds.length = scenes.length → zipWith (clipFrames renderer) scenes seconds =
        (seconds.map fun seconds => roundEven (seconds * renderer.fps)).map some := by
    intro scenes
    induction scenes with
    | nil =>
      intro seconds _ equal
      simp [length_eq_zero_iff.mp equal]
    | cons scene rest ih =>
      intro seconds still equal
      cases seconds with
      | nil => cases equal
      | cons first seconds =>
        obtain ⟨here, later⟩ := forall_mem_cons.mp still
        simp [clipFrames, here, ih seconds later (Nat.succ.inj equal)]
  rw [stillClips, drawn _ _ still equal]
  induction timeline.renderSeconds with
  | nil => simp
  | cons seconds rest ih => rw [map_cons, map_cons, reduceOption_cons_of_some, ih]

theorem wellFormed_iff (timed : timing scenes hold (some renderer.fps) = .ok timeline) :
    WellFormed renderer timeline (timeline.renderSeconds.map fun seconds => roundEven (seconds * renderer.fps))
    ↔ WholeClips renderer.fps scenes := by
  obtain ⟨⟨nonempty, -⟩, positive, rfl⟩ := timing_eq_ok.1 timed
  have rate : (0 : ℚ) < renderer.fps := by exact_mod_cast positive
  have start : boundary (some renderer.fps) 0 = 0 := by
    have zero : roundEven 0 = 0 := by exact_mod_cast roundEven_intCast 0
    simp [boundary, zero]
  have frames := @frameSeconds_eq renderer.fps 0 scenes positive
  rw [start] at frames
  have windowed : (of scenes hold (boundaries (some renderer.fps) 0 scenes)).frameSeconds =
      (windows renderer.fps 0 scenes).map fun (window : ℤ) => (window / renderer.fps : ℚ) := frames
  have clips : (of scenes hold (boundaries (some renderer.fps) 0 scenes)).renderSeconds.map
      (fun seconds => roundEven (seconds * renderer.fps)) = clipsOf renderer.fps (windows renderer.fps 0 scenes) := by
    rw [← clips_eq positive, ← windowed, length_windows]
    rfl
  have last : (∀ clip ∈ (clipsOf renderer.fps (windows renderer.fps 0 scenes)).getLast?,
      1 ≤ clip ∧ (1 / 4 : ℚ) ≤ clip / renderer.fps) ↔
        ∀ window ∈ (windows renderer.fps 0 scenes).getLast?, renderer.fps ≤ 4 * window := by
    rw [getLast?_clipsOf]
    refine forall₂_congr fun window _ => ?_
    rw [le_div_iff₀ rate]
    constructor
    · rintro ⟨-, long⟩
      have : (renderer.fps : ℚ) ≤ (4 * window : ℤ) := by
        push_cast
        linarith
      exact_mod_cast this
    · intro long
      refine ⟨by omega, ?_⟩
      have : (renderer.fps : ℚ) ≤ (4 * window : ℤ) := by exact_mod_cast long
      push_cast at this
      linarith
  rw [clips]
  constructor
  · rintro ⟨covers, ends, -⟩
    rw [windowed] at covers
    exact ⟨(covers_iff positive _).mp covers, last.mp ends⟩
  · rintro ⟨inner, ends⟩
    refine ⟨by rw [windowed]; exact (covers_iff positive _).mpr inner, last.mpr ends, ?_⟩
    intro first rest made
    cases scenes with
    | nil => exact absurd rfl nonempty
    | cons scene scenes =>
      have nothing : roundEven (0 * renderer.fps) = 0 := by
        rw [zero_mul]
        exact_mod_cast roundEven_intCast 0
      simp only [windows, zero_add, nothing, sub_zero] at made inner
      rw [clipsOf_cons] at made
      obtain ⟨rfl, rfl⟩ := cons.inj made
      set window := roundEven (scene.seconds * renderer.fps)
      have chain := (@chained_iff renderer.fps 0 scenes positive scene
        (if windows renderer.fps scene.seconds scenes = [] then window
          else roundEven (window + renderer.fps / 4))).mpr
      simp only [start, zero_add] at chain
      by_cases alone : scenes = []
      · exact chain ⟨fun several => absurd alone several, by simp [alone, windows]⟩
      · have several : windows renderer.fps scene.seconds scenes ≠ [] := mt windows_eq_nil.1 alone
        rw [dropLast_cons_of_ne_nil several, forall_mem_cons] at inner
        refine chain ⟨fun _ => ?_, inner.2⟩
        rw [if_neg several]
        exact (enough_iff positive window).mpr inner.1

/-- The clips and crossfades of still scenes are as they should be exactly if a quarter of a second after each
inner window rounds up to whole frames and the last window lasts a quarter of a second. -/
theorem still_crossfades_iff (still : ∀ scene ∈ scenes, scene.clip = none)
    (timed : timing scenes hold (some renderer.fps) = .ok timeline) :
    WellFormed renderer timeline (stillClips renderer scenes timeline) ↔ WholeClips renderer.fps scenes := by
  obtain ⟨⟨nonempty, -⟩, positive, same⟩ := timing_eq_ok.1 timed
  have equal : timeline.renderSeconds.length = scenes.length := by
    have some := length_pos_iff.mpr nonempty
    subst same
    simp only [of, length_mapIdx, length_zipWith, length_cons, length_dropLast,
      length_boundaries]
    omega
  rw [stillClips_eq still equal]
  exact wellFormed_iff timed

end Render

theorem crossfades_at_24 : ∃ timeline, timing (sampleScenes 1 (by norm_num)) 4 (some 24) = .ok timeline ∧
    WellFormed ⟨24, by decide⟩ timeline (stillClips ⟨24, by decide⟩ (sampleScenes 1 (by norm_num)) timeline) := by
  have timed := sampleScenes_timed (by norm_num : (1 / 4 : ℚ) < 1) (by decide : (0 : ℤ) < 24)
  refine ⟨_, timed, ?_⟩
  refine (@still_crossfades_iff ⟨24, by decide⟩ _ _ _ (by simp [sampleScenes]) timed).mpr ⟨fun _ _ => .inl rfl, ?_⟩
  decide +kernel

theorem clip_one_frame_short : ∃ timeline, timing (sampleScenes (31 / 30) (by norm_num)) 4 (some 30) = .ok timeline ∧
    ¬ WellFormed {} timeline (stillClips {} (sampleScenes (31 / 30) (by norm_num)) timeline) := by
  have timed := sampleScenes_timed (by norm_num : (1 / 4 : ℚ) < 31 / 30) (by decide : (0 : ℤ) < 30)
  refine ⟨_, timed, fun formed => ?_⟩
  rw [stillClips_eq (by simp [sampleScenes]) rfl] at formed
  have whole := (@wellFormed_iff {} _ _ _ timed).mp formed
  have short : ¬ RoundsUp 30 31 := by decide
  exact short (whole.inner 31 (by decide +kernel))

end VideoPoster.Render
