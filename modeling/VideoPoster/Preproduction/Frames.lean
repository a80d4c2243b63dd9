import VideoPoster.Preproduction.Compile

/-!
# The frames of a storyboard
-/

namespace VideoPoster.Preproduction.Advance
open Python Number Scene List

variable {C : Compiler} {P : Platform}

theorem Number.eq_iff {a b : Number} : eq a b = true ↔ a = b ∧ b ≠ none := by
  cases a <;> cases b <;> simp [eq]

inductive Follows : Number → List Scene → Prop
  | nil {previous : Number} : Follows previous []
  | cons {a b : WithBot (WithTop ℚ)} {scene : Scene} {scenes : List Scene} (start : scene.start = some a)
      (stop : scene.stop = some b) (ordered : a < b) (rest : Follows (some b) scenes) : Follows (some a) (scene :: scenes)

variable {duration previous : Number} {scenes : List Scene} {segments : List String}

theorem checkScenes_ok {last : Number} (checked : checkScenes previous scenes segments = .ok last)
    (ends : eq last duration = true) (lengths : scenes.length = segments.length) :
    Follows previous scenes ∧ previous ≠ none ∧ scenes.map narration = segments := by
  induction scenes generalizing previous segments with
  | nil =>
    cases segments with
    | cons => cases lengths
    | nil =>
      cases checked
      obtain ⟨rfl, there⟩ := eq_iff.1 ends
      exact ⟨.nil, there, rfl⟩
  | cons scene scenes ih =>
    cases segments with
    | nil => cases lengths
    | cons segment segments =>
      simp only [checkScenes, bind_eq_ok, require_eq_ok, exists_const] at checked
      obtain ⟨narration, ⟨start, later⟩, rest⟩ := checked
      obtain ⟨follows, stops, narrations⟩ := ih rest (Nat.succ.inj lengths)
      obtain ⟨same, there⟩ := eq_iff.1 start
      obtain ⟨a, rfl⟩ := Option.ne_none_iff_exists'.mp there
      obtain ⟨b, stop⟩ := Option.ne_none_iff_exists'.mp stops
      have ordered : a < b := by simpa [same, stop, le] using later
      rw [stop] at follows
      exact ⟨.cons same stop ordered follows, there, by rw [map_cons, narration, narrations]⟩

variable {report : ReportDocument}

theorem storyboardReport_ok (reported : storyboardReport scenes segments duration = .ok report) :
    Follows zero scenes ∧ scenes ≠ [] ∧ scenes.map narration = segments := by
  simp only [storyboardReport, bind_eq_ok, require_eq_ok, exists_const] at reported
  obtain ⟨⟨lengths, nonempty⟩, last, checked, ends, -⟩ := reported
  obtain ⟨follows, -, narrations⟩ := checkScenes_ok checked ends lengths
  exact ⟨follows, nonempty, narrations⟩

section Follows
variable {a : WithBot (WithTop ℚ)} {scenes : List Scene}

theorem Follows.bounds {previous : Number} (follows : Follows previous scenes) (is : previous = some a) :
    ∀ scene ∈ scenes, ∃ b c, scene.start = some b ∧ scene.stop = some c ∧ a ≤ b ∧ b < c := by
  induction follows generalizing a with
  | nil => nofun
  | cons start stop ordered rest ih =>
    cases is
    intro scene there
    rcases mem_cons.mp there with rfl | there
    · exact ⟨_, _, start, stop, le_rfl, ordered⟩
    · obtain ⟨b, c, isStart, isStop, late, after⟩ := ih rfl scene there
      exact ⟨b, c, isStart, isStop, ordered.le.trans late, after⟩

end Follows

def Scene.frame (scene : Scene) : FrameSpec := ⟨scene.number, scene.start, scene.stop, scene.prompt, scene.action⟩

def Scene.Told (C : Compiler) (scene : Scene) : Prop := C.blank scene.prompt = false ∧ C.blank scene.action = false

theorem frameSpec_ok {scene : Scene} {frame : FrameSpec} {b c : WithBot (WithTop ℚ)} (start : scene.start = some b)
    (stop : scene.stop = some c) (late : ((0 : ℚ) : WithTop ℚ) ≤ b) (ordered : b < c) :
    frameSpec C scene = .ok frame ↔ scene.Told C ∧ scene.frame = frame := by
  have times : ¬ (lt scene.start zero = true ∨ le scene.stop scene.start = true) := by
    simpa [start, stop, lt, le, zero, ordered] using late
  simp only [frameSpec, bind_eq_ok, require_eq_ok, pure_eq_ok, exists_const, times, not_false_eq_true, true_and,
    Scene.Told, Scene.frame, not_or, Bool.not_eq_true]

variable {frames : List FrameSpec}

theorem mapM_frameSpec (follows : Follows zero scenes) :
    scenes.mapM (frameSpec C) = .ok frames ↔ (∀ scene ∈ scenes, scene.Told C) ∧ scenes.map frame = frames := by
  have bounds := follows.bounds rfl
  clear follows
  induction scenes generalizing frames with
  | nil => simp
  | cons scene scenes ih =>
    obtain ⟨b, c, start, stop, late, ordered⟩ := bounds scene mem_cons_self
    have rest {frames : List FrameSpec} :=
      @ih frames fun scene there => bounds scene (.tail _ there)
    simp only [mapM_cons, bind_eq_ok, pure_eq_ok, frameSpec_ok start stop late ordered, rest, forall_mem_cons,
      map_cons]
    constructor
    · rintro ⟨_, ⟨told, rfl⟩, _, ⟨others, rfl⟩, rfl⟩
      exact ⟨⟨told, others⟩, rfl⟩
    · rintro ⟨⟨told, others⟩, rfl⟩
      exact ⟨_, ⟨told, rfl⟩, _, ⟨others, rfl⟩, rfl⟩

theorem Follows.pairwise (follows : Follows previous scenes) :
    (scenes.map frame).Pairwise fun frame later => FrameSpec.le frame later = true := by
  induction follows with
  | nil => exact .nil
  | cons start stop ordered rest ih =>
    refine pairwise_cons.mpr ⟨fun frame there => ?_, ih⟩
    obtain ⟨later, among, rfl⟩ := mem_map.mp there
    obtain ⟨b, c, isStart, -, late, -⟩ := rest.bounds rfl later among
    have after := ordered.trans_le late
    simp [FrameSpec.le, frame, start, isStart, lt, eq, after.le, after.ne']

theorem Follows.checkOverlap (follows : Follows previous scenes) : checkOverlap (scenes.map frame) = .ok () := by
  induction follows with
  | nil => rfl
  | @cons a b scene scenes start stop ordered rest ih =>
    cases rest with
    | nil => rfl
    | @cons _ c next scenes start' stop' ordered' rest =>
      have apart : ¬ lt next.frame.start scene.frame.stop = true := by
        simp [frame, start', stop, lt]
      simp only [map_cons, Advance.checkOverlap, bind_eq_ok, require_eq_ok, exists_const]
      exact ⟨apart, ih⟩

theorem compileStoryboard_ok (follows : Follows zero scenes)
    (nonempty : scenes ≠ []) (numbers : (scenes.map number).Nodup) :
    compileStoryboard C scenes = .ok frames ↔ (∀ scene ∈ scenes, scene.Told C) ∧ scenes.map frame = frames := by
  have ids : (scenes.map (FrameSpec.sceneId ∘ frame)).Nodup := numbers
  have order : (scenes.map frame).mergeSort FrameSpec.le = scenes.map frame :=
    mergeSort_of_pairwise follows.pairwise
  have ordered : orderFrames (scenes.map frame) = .ok (scenes.map frame) := by
    simp [orderFrames, order, follows.checkOverlap, ids, nonempty]
  simp only [compileStoryboard, bind_eq_ok, mapM_frameSpec follows]
  constructor
  · rintro ⟨_, ⟨told, rfl⟩, is⟩
    rw [ordered] at is
    exact ⟨told, Except.ok.inj is⟩
  · rintro ⟨told, rfl⟩
    exact ⟨_, ⟨told, rfl⟩, ordered⟩

def Told (C : Compiler) (P : Platform) : List String → List String → Prop
  | _, [] => True
  | earlier, text :: later =>
    (C.blank (P.prompt earlier text) = false ∧ C.blank (String.ofList (text.toList.take 80)) = false) ∧
      Told C P (earlier ++ [text]) later

section Scenes
variable {duration : Number} {earlier : List String} {timestamps : List Timestamp}

theorem scenesFrom_told : (∀ scene ∈ scenesFrom P duration earlier timestamps, scene.Told C) ↔
    Told C P earlier (timestamps.map Timestamp.text) := by
  induction timestamps generalizing earlier with
  | nil => simp [scenesFrom, Told]
  | cons timestamp later ih =>
    simp only [scenesFrom, forall_mem_cons, map_cons, Told, ih]
    rfl

theorem scenesFrom_narration :
    (scenesFrom P duration earlier timestamps).map narration = timestamps.map Timestamp.text := by
  induction timestamps generalizing earlier with
  | nil => rfl
  | cons timestamp later ih => simp [scenesFrom, ih]

theorem scenesFrom_number : (scenesFrom P duration earlier timestamps).map number =
    range' (earlier.length + 1) timestamps.length := by
  induction timestamps generalizing earlier with
  | nil => rfl
  | cons timestamp later ih => simp [scenesFrom, ih, range'_succ]

end Scenes

theorem compile_storyboard {prepared : Prepared} (reported : prepared.report P = .ok report) :
    (∃ frames, compileStoryboard C (prepared.scenes P) = .ok frames) ↔ Told C P [] prepared.segments := by
  obtain ⟨follows, nonempty, narrations⟩ := storyboardReport_ok reported
  have numbers : ((prepared.scenes P).map number).Nodup := by
    rw [Prepared.scenes, scenesFrom_number]
    exact nodup_range'
  rw [Prepared.scenes, scenesFrom_narration] at narrations
  rw [← narrations, ← scenesFrom_told]
  simp only [compileStoryboard_ok follows nonempty numbers, exists_and_left, exists_eq', and_true]
  rfl

end VideoPoster.Preproduction.Advance
