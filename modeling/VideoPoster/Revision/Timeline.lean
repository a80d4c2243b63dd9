import VideoPoster.Floating.Rounding
import VideoPoster.Python.Basic

/-!
# Word boundaries, scenes and the audio contracts
-/

namespace VideoPoster.Revision
open Python Floating List String Format

def runs (gap : Char → Bool) (text : List Char) : List (List Char) :=
  (text.splitOnP gap).filter (· ≠ [])

def split (text : String) : List String :=
  (runs isSpace text.toList).map ofList

def join (parts : List String) : String := " ".intercalate parts

/-- The character tables of the interpreter: `str.casefold` of one character, and `\w`. -/
structure Alphabet where
  casefold : Char → List Char
  isWord : Char → Bool

def Alphabet.normalize (A : Alphabet) (text : String) : List (List Char) :=
  runs (fun c => !A.isWord c) (text.toList.flatMap A.casefold)

structure Segment where
  id : String
  narration : String
  sourceRefs : List String
  /-- Empty if there is none. -/
  visualAction : String
  characters : List String

structure Boundary where
  word : String
  start : Option ℚ
  stop : Option ℚ

structure Spoken where
  word : String
  start : ℚ
  stop : ℚ

structure Cue where
  start : ℚ
  stop : ℚ
  text : String

structure Scene where
  sceneId : String
  start : ℚ
  stop : ℚ
  visualAction : String
  narration : String
  sourceRefs : List String
  characters : List String
  imagePrompt : String

/-! ## `semantic_timeline` -/

/-- The loop of both readers of the boundaries: finite, ordered, and over by `limit`. -/
def readBoundaries (valid : String → Bool) (limit : ℚ) (error : Error) :
    ℚ → List Boundary → Result (List Spoken)
  | _, [] => pure []
  | previous, boundary :: rest =>
    match boundary.start, boundary.stop with
    | some start, some stop => do
      require (valid boundary.word = true ∧ previous ≤ start ∧ start < stop ∧ stop ≤ limit) error
      let later ← readBoundaries valid limit error stop rest
      pure (⟨boundary.word, start, stop⟩ :: later)
    | _, _ => .error error

def positive (error : Error) : Option ℚ → Result ℚ
  | some duration => do
    require (0 < duration) error
    pure duration
  | none => .error error

structure Token where
  text : List Char
  start : ℚ
  stop : ℚ

def tokens (A : Alphabet) (words : List Spoken) : List Token :=
  words.flatMap fun word => (A.normalize word.word).map fun text => ⟨text, word.start, word.stop⟩

def allocate (A : Alphabet) : List Token → List Segment → Result (List Cue)
  | left, [] => do
    require (left.length = 0) (.value "unallocated WordBoundary words")
    pure []
  | left, segment :: rest =>
    let expected := A.normalize segment.narration
    let chosen := left.take expected.length
    match chosen.head?, chosen.getLast? with
    | some first, some last => do
      require (chosen.map Token.text = expected) (.value "WordBoundary text mismatch")
      let cues ← allocate A (left.drop expected.length) rest
      pure (⟨first.start, last.stop, segment.narration⟩ :: cues)
    | _, _ => .error (.value "WordBoundary text mismatch")

def imageSuffix : String :=
  "; canonical Abraham/Sarah image editing; child safe; no depicted God; no infant Isaac; no text"

def scenesFrom (duration : ℚ) : ℚ → List (Segment × Cue) → Result (List Scene)
  | _, [] => pure []
  | start, (segment, _) :: rest => do
    let stop := (rest.head?.map fun next => next.2.start).getD duration
    require (1 / 4 < binary64.nearest (stop - start) ∧ segment.visualAction ≠ "")
      (.value "semantic visual action/window required")
    let later ← scenesFrom duration stop rest
    pure (⟨segment.id, start, stop, segment.visualAction, segment.narration, segment.sourceRefs,
      segment.characters, segment.visualAction ++ imageSuffix⟩ :: later)

def semanticTimeline (A : Alphabet) (script : List Segment) (words : List Boundary)
    (duration : Option ℚ) : Result (List Scene × List Cue) := do
  require (words ≠ []) (.value "WordBoundary timings required")
  let duration ← positive (.value "WordBoundary timings required") duration
  let spoken ← readBoundaries (fun _ => true) (binary64.nearest (duration + binary64.nearest (1 / 1000)))
    (.value "invalid WordBoundary timing") 0 words
  let cues ← allocate A (tokens A spoken) script
  let scenes ← scenesFrom duration 0 (script.zip cues)
  pure (scenes, cues)

/-! ## `validate_storyboard` -/

/-- A scene of the connected storyboard, as far as its timing and its segment go. -/
structure ConnectedScene extends Scene where
  segmentId : String
  duration : ℚ

def Scene.connect (scene : Scene) : ConnectedScene :=
  { scene with segmentId := scene.sceneId, duration := binary64.nearest (scene.stop - scene.start) }

def microsecond : ℚ := binary64.nearest (1 / 1000000)

def checkScenes : ℚ → List ConnectedScene → Result ℚ
  | previous, [] => pure previous
  | previous, scene :: rest => do
    require (|binary64.nearest (scene.start - previous)| ≤ microsecond ∧ scene.start < scene.stop ∧
        |binary64.nearest (scene.duration - binary64.nearest (scene.stop - scene.start))| ≤ microsecond)
      ⟨.other "EditorialContractError", "storyboard timeline must be finite, contiguous, and exact"⟩
    checkScenes scene.stop rest

def validateStoryboard (scenes : List ConnectedScene) (script : List Segment) (duration : Option ℚ) :
    Result Unit := do
  let duration ← positive
    ⟨.other "EditorialContractError", "audio duration must be positive and finite"⟩ duration
  require (script ≠ []) ⟨.other "EditorialContractError", "claim-bound script segments are required"⟩
  let covered := scenes.map ConnectedScene.segmentId
  require (covered = script.map Segment.id ∧ covered.Nodup)
    ⟨.other "EditorialContractError", "storyboard must cover every script segment exactly once in order"⟩
  let stop ← checkScenes 0 scenes
  require (|binary64.nearest (stop - duration)| ≤ microsecond)
    ⟨.other "EditorialContractError", "storyboard must end at the decoded audio duration"⟩

/-! ## `qa_audio_transcript` -/

structure AudioEvidence where
  decoded : Bool
  durationSeconds : Option ℚ
  sampleRateHz : ℤ
  channels : ℤ
  boundarySource : String
  wordBoundaries : List Boundary

structure Sidecars where
  transcript : Bool
  srt : Bool
  vtt : Bool
  burnedInVideo : Bool
  deriving DecidableEq

def requiredSidecars : Sidecars := ⟨true, true, true, false⟩

def transcriptOf (script : List Segment) : String :=
  join (script.map fun segment => strip segment.narration)

def qaAudioTranscript (audio : AudioEvidence) (transcript : String) (script : List Segment)
    (sidecars : Sidecars) : Result (List Spoken) := do
  require (audio.decoded = true)
    ⟨.other "EditorialContractError", "audio must have successful decode evidence"⟩
  let duration ← positive
    ⟨.other "EditorialContractError", "decoded audio duration must be positive and finite"⟩
    audio.durationSeconds
  require (8000 ≤ audio.sampleRateHz ∧ (audio.channels = 1 ∨ audio.channels = 2))
    ⟨.other "EditorialContractError", "audio sample rate and channels are invalid"⟩
  require (audio.boundarySource = "WordBoundary")
    ⟨.other "EditorialContractError", "provider WordBoundary evidence is required"⟩
  require (script ≠ [])
    ⟨.other "EditorialContractError", "claim-bound script is required for transcript QA"⟩
  let normalized := join (split transcript)
  require (normalized = join (split (transcriptOf script)))
    ⟨.other "EditorialContractError", "transcript must exactly match the structured script"⟩
  require (audio.wordBoundaries ≠ [])
    ⟨.other "EditorialContractError", "WordBoundary timestamps are required"⟩
  let spoken ← readBoundaries (fun word => word ≠ "")
    (binary64.nearest (duration + microsecond))
    ⟨.other "EditorialContractError", "word boundaries must be ordered within decoded audio"⟩ 0
    audio.wordBoundaries
  require (spoken.map Spoken.word = split normalized)
    ⟨.other "EditorialContractError", "WordBoundary tokens must exactly match the transcript"⟩
  require (sidecars = requiredSidecars)
    ⟨.other "EditorialContractError", "transcript, SRT, VTT, and no burned captions are required"⟩
  pure spoken

def postAudioEvidence (duration : Option ℚ) (words : List Boundary) : AudioEvidence where
  decoded := true
  durationSeconds := duration
  sampleRateHz := 16000
  channels := 1
  boundarySource := "WordBoundary"
  wordBoundaries := words

def postAudioContracts (script : List Segment) (scenes : List Scene) (words : List Boundary)
    (duration : Option ℚ) : Result Unit := do
  validateStoryboard (scenes.map Scene.connect) script duration
  let _ ← qaAudioTranscript (postAudioEvidence duration words) (transcriptOf script) script
    requiredSidecars

/-! ## Words -/

theorem splitOnP_mem {α : Type} (p : α → Bool) (text : List α) : ∀ part ∈ text.splitOnP p, ∀ c ∈ part, p c = false := by
  induction text with
  | nil => simp [splitOnP_nil]
  | cons c rest ih =>
    rw [splitOnP_cons_eq_if_modifyHead]
    split
    · simpa using ih
    · rename_i other
      cases parts : rest.splitOnP p with
      | nil => exact absurd parts (splitOnP_ne_nil p rest)
      | cons head tail =>
        rw [parts] at ih
        simp only [forall_mem_cons, modifyHead_cons] at ih ⊢
        exact ⟨⟨by simpa using other, ih.1⟩, ih.2⟩

theorem split_mem {text word : String} (member : word ∈ split text) :
    word.toList ≠ [] ∧ ∀ c ∈ word.toList, isSpace c = false := by
  simp only [split, runs, mem_map, mem_filter, decide_eq_true_eq] at member
  obtain ⟨part, ⟨parted, nonempty⟩, rfl⟩ := member
  simp only [toList_ofList]
  exact ⟨nonempty, splitOnP_mem _ _ part parted⟩

theorem split_join {words : List String}
    (plain : ∀ word ∈ words, word.toList ≠ [] ∧ ∀ c ∈ word.toList, isSpace c = false) : split (join words) = words := by
  induction words with
  | nil => rfl
  | cons word rest ih =>
    obtain ⟨nonempty, unspaced⟩ := plain word (by simp)
    have later := ih fun other member => plain other (by simp [member])
    cases rest with
    | nil =>
      have alone : word.toList.splitOnP isSpace = [word.toList] :=
        splitOnP_eq_singleton unspaced
      simp [join, split, runs, alone, nonempty]
    | cons next rest =>
      have text : (join (word :: next :: rest)).toList = word.toList ++ ' ' :: (join (next :: rest)).toList := by
        simp [join, String.intercalate_cons_cons]
      have parted := splitOnP_append_cons_of_forall_mem unspaced ' ' rfl (join (next :: rest)).toList
      simp only [split, runs] at later ⊢
      rw [text, parted, filter_cons_of_pos (by simpa using nonempty), map_cons, later, ofList_toList]

theorem split_normalized (text : String) : split (join (split text)) = split text :=
  split_join fun _ member => split_mem member

/-! ## Boundaries -/

section Boundaries
variable {valid valid' : String → Bool} {limit limit' previous : ℚ} {error error' : Error}
  {words : List Boundary} {spoken : List Spoken}

theorem readBoundaries_cons {boundary : Boundary} : readBoundaries valid limit error previous (boundary :: words)
    = .ok spoken ↔ ∃ start stop later, boundary.start = some start ∧
    boundary.stop = some stop ∧ (valid boundary.word = true ∧ previous ≤ start ∧ start < stop ∧ stop ≤ limit)
    ∧ readBoundaries valid limit error stop words = .ok later ∧ spoken = ⟨boundary.word, start, stop⟩ :: later := by
  obtain ⟨word, start, stop⟩ := boundary
  cases start with
  | none => simp [readBoundaries]
  | some start =>
    cases stop with
    | none => simp [readBoundaries]
    | some stop =>
      simp only [readBoundaries, bind_eq_ok, require_eq_ok, pure_eq_ok, exists_const]
      constructor
      · rintro ⟨fits, later, read, rfl⟩
        exact ⟨start, stop, later, rfl, rfl, fits, read, rfl⟩
      · rintro ⟨_, _, later, ⟨⟩, ⟨⟩, fits, read, rfl⟩
        exact ⟨fits, later, read, rfl⟩

variable (read : readBoundaries valid limit error previous words = .ok spoken)
include read

theorem readBoundaries_iff
    {result : List Spoken} : readBoundaries valid' limit' error' previous words = .ok result ↔ result = spoken ∧
    (∀ boundary ∈ words, valid' boundary.word = true) ∧ ∀ boundary ∈ words, ∀ stop ∈ boundary.stop, stop ≤ limit' := by
  induction words generalizing previous spoken result with
  | nil =>
    cases read
    simp only [readBoundaries, pure_eq_ok, not_mem_nil, false_imp_iff, implies_true, and_self, and_true]
    exact eq_comm
  | cons boundary rest ih =>
    obtain ⟨start, stop, later, started, stopped, ⟨-, ordered, lasting, -⟩, tail, rfl⟩ :=
      readBoundaries_cons.1 read
    rw [readBoundaries_cons]
    simp only [forall_mem_cons, stopped, Option.mem_some_iff, forall_eq']
    constructor
    · rintro ⟨start', stop', later', started', stopped', ⟨valid, -, -, within⟩, read', rfl⟩
      obtain rfl := Option.some.inj (started.symm.trans started')
      obtain rfl := Option.some.inj stopped'
      obtain ⟨rfl, valids, withins⟩ := (ih tail).mp read'
      exact ⟨rfl, ⟨valid, valids⟩, within, withins⟩
    · rintro ⟨rfl, ⟨valid, valids⟩, within, withins⟩
      exact ⟨start, stop, later, started, rfl, ⟨valid, ordered, lasting, within⟩,
        (ih tail).mpr ⟨rfl, valids, withins⟩, rfl⟩

theorem readBoundaries_words : spoken.map Spoken.word = words.map Boundary.word := by
  induction words generalizing previous spoken with
  | nil =>
    cases read
    rfl
  | cons boundary rest ih =>
    obtain ⟨start, stop, later, -, -, -, tail, rfl⟩ := readBoundaries_cons.1 read
    simp [ih tail]

end Boundaries

/-! ## Scenes -/

theorem allocate_length {A : Alphabet} {left : List Token} {script : List Segment} {cues : List Cue}
    (allocated : allocate A left script = .ok cues) : cues.length = script.length := by
  induction script generalizing left cues with
  | nil =>
    simp only [allocate, bind_eq_ok, require_eq_ok, pure_eq_ok] at allocated
    obtain ⟨_, -, rfl⟩ := allocated
    rfl
  | cons segment rest ih =>
    simp only [allocate] at allocated
    split at allocated
    · simp only [bind_eq_ok, require_eq_ok, pure_eq_ok] at allocated
      obtain ⟨_, -, cues, later, rfl⟩ := allocated
      simp [ih later]
    · cases allocated

theorem microsecond_nonneg : 0 ≤ microsecond := nearest_nonneg (by norm_num)

theorem nearest_self_sub (x : ℚ) : |binary64.nearest (x - x)| ≤ microsecond := by
  rw [sub_self, nearest_zero, abs_zero]
  exact microsecond_nonneg

theorem lt_of_nearest_sub {x y : ℚ} (apart : 1 / 4 < binary64.nearest (y - x)) : x < y := by
  by_contra reversed
  have least : binary64.nearest (y - x) ≤ binary64.nearest 0 :=
    nearest_mono (sub_nonpos.mpr (not_lt.mp reversed))
  rw [nearest_zero] at least
  linarith

section Scenes
variable {duration start : ℚ} {pairs : List (Segment × Cue)} {scenes : List Scene}

variable (made : scenesFrom duration start pairs = .ok scenes)
include made

theorem scenesFrom_ids : scenes.map Scene.sceneId = pairs.map fun pair => pair.1.id := by
  induction pairs generalizing start scenes with
  | nil =>
    cases made
    rfl
  | cons pair rest ih =>
    simp only [scenesFrom, bind_eq_ok, require_eq_ok, pure_eq_ok] at made
    obtain ⟨_, -, later, made, rfl⟩ := made
    simp [ih made]

theorem scenesFrom_checked :
    checkScenes start (scenes.map Scene.connect) = .ok (if pairs = [] then start else duration) := by
  induction pairs generalizing start scenes with
  | nil =>
    cases made
    rfl
  | cons pair rest ih =>
    simp only [scenesFrom, bind_eq_ok, require_eq_ok, pure_eq_ok] at made
    obtain ⟨_, ⟨apart, -⟩, later, made, rfl⟩ := made
    have last : (if rest = [] then (rest.head?.map fun next => next.2.start).getD duration else duration) = duration := by
      cases rest <;> simp
    simp only [map_cons, checkScenes, bind_eq_ok, require_eq_ok, exists_const]
    refine ⟨⟨nearest_self_sub _, lt_of_nearest_sub apart, nearest_self_sub _⟩, ?_⟩
    refine (ih made).trans ?_
    rw [last, if_neg (cons_ne_nil _ _)]

end Scenes

/-! ## The contracts after the audio -/

section Accepted
variable {A : Alphabet} {script : List Segment} {words : List Boundary} {duration : Option ℚ}
  {scenes : List Scene} {cues : List Cue}

def Verbatim (script : List Segment) (words : List Boundary) (duration : Option ℚ) : Prop :=
  words.map Boundary.word = split (transcriptOf script) ∧
    ∀ boundary ∈ words, ∀ stop ∈ boundary.stop, ∀ seconds ∈ duration,
      stop ≤ binary64.nearest (seconds + microsecond)

theorem positive_eq_ok {error : Error} {seconds : ℚ} :
    positive error duration = .ok seconds ↔ duration = some seconds ∧ 0 < seconds := by
  cases duration with
  | none => simp [positive]
  | some value =>
    simp only [positive, bind_eq_ok, require_eq_ok, pure_eq_ok, exists_const, Option.some.injEq]
    constructor
    · rintro ⟨held, rfl⟩
      exact ⟨rfl, held⟩
    · rintro ⟨rfl, held⟩
      exact ⟨held, rfl⟩

theorem semanticTimeline_eq_ok (accepted : semanticTimeline A script words duration = .ok (scenes, cues)) :
    ∃ seconds spoken, duration = some seconds ∧ 0 < seconds ∧ words ≠ [] ∧
      readBoundaries (fun _ => true) (binary64.nearest (seconds + binary64.nearest (1 / 1000)))
        (.value "invalid WordBoundary timing") 0 words = .ok spoken ∧
      allocate A (tokens A spoken) script = .ok cues ∧
      scenesFrom seconds 0 (script.zip cues) = .ok scenes := by
  simp only [semanticTimeline, bind_eq_ok, require_eq_ok, pure_eq_ok, Prod.mk.injEq] at accepted
  obtain ⟨_, nonempty, seconds, bounded, spoken, read, _, allocated, _, made, rfl, rfl⟩ := accepted
  obtain ⟨same, positive⟩ := positive_eq_ok.1 bounded
  exact ⟨seconds, spoken, same, positive, nonempty, read, allocated, made⟩

theorem validateStoryboard_accepted (unique : (script.map Segment.id).Nodup) (segments : script ≠ [])
    (accepted : semanticTimeline A script words duration = .ok (scenes, cues)) :
    validateStoryboard (scenes.map Scene.connect) script duration = .ok () := by
  obtain ⟨seconds, spoken, same, positive, -, -, allocated, made⟩ := semanticTimeline_eq_ok accepted
  have equal := allocate_length allocated
  have zipped : script.zip cues ≠ [] := by
    intro empty
    rcases zip_eq_nil_iff.mp empty with none | none
    · exact segments none
    · exact segments (length_eq_zero_iff.mp (by simpa [none] using equal.symm))
  have covered : (scenes.map Scene.connect).map ConnectedScene.segmentId = script.map Segment.id := by
    calc (scenes.map Scene.connect).map ConnectedScene.segmentId = scenes.map Scene.sceneId :=
          map_map
      _ = (script.zip cues).map fun pair => pair.1.id := scenesFrom_ids made
      _ = ((script.zip cues).map Prod.fst).map Segment.id := map_map.symm
      _ = script.map Segment.id := by rw [map_fst_zip equal.ge]
  have checked := scenesFrom_checked made
  rw [if_neg zipped] at checked
  simp only [validateStoryboard, bind_eq_ok, require_eq_ok, exists_const]
  exact ⟨seconds, positive_eq_ok.2 ⟨same, positive⟩, segments, ⟨covered, covered ▸ unique⟩,
    seconds, checked, nearest_self_sub seconds⟩

theorem qaAudioTranscript_accepted_iff (accepted : semanticTimeline A script words duration = .ok (scenes, cues)) :
    (∃ report, qaAudioTranscript (postAudioEvidence duration words) (transcriptOf script) script
      requiredSidecars = .ok report) ↔ script ≠ [] ∧ Verbatim script words duration := by
  obtain ⟨seconds, spoken, same, bounded, nonempty, read, -, -⟩ := semanticTimeline_eq_ok accepted
  have named := readBoundaries_words read
  dsimp only [qaAudioTranscript, postAudioEvidence]
  simp only [bind_eq_ok, require_eq_ok, pure_eq_ok, exists_const,
    positive_eq_ok, readBoundaries_iff read, split_normalized, Verbatim]
  constructor
  · rintro ⟨_, -, _, ⟨known, -⟩, -, -, segments, -, -, _, ⟨rfl, -, within⟩, exact, -⟩
    obtain rfl := Option.some.inj (same.symm.trans known)
    refine ⟨segments, named ▸ exact, fun boundary member stop ends value given => ?_⟩
    obtain rfl := Option.some.inj (same.symm.trans given)
    exact within boundary member stop ends
  · rintro ⟨segments, exact, within⟩
    refine ⟨spoken, trivial, seconds, ⟨same, bounded⟩, ⟨by norm_num, .inl trivial⟩, trivial, segments,
      trivial, nonempty, spoken, ⟨rfl, fun boundary member => ?_, fun boundary member stop ends => ?_⟩,
      named.trans exact, trivial, rfl⟩
    · have word : boundary.word ∈ split (transcriptOf script) := exact ▸ mem_map_of_mem member
      have nonempty := (split_mem word).1
      simp only [ne_eq, decide_not, Bool.not_eq_true', decide_eq_false_iff_not]
      rintro empty
      exact nonempty (by simp [empty])
    · exact within boundary member stop ends seconds same

/-- What the timeline accepts passes the storyboard's checks if there is a segment at all, and the
transcript check and so the next stage exactly if the words are verbatim. -/
theorem accepted_audio_contracts (unique : (script.map Segment.id).Nodup) (accepted : semanticTimeline
    A script words duration = .ok (scenes, cues)) : (script ≠ [] → validateStoryboard (scenes.map Scene.connect)
    script duration = .ok ()) ∧ ((∃ report, qaAudioTranscript (postAudioEvidence duration words)
    (transcriptOf script) script requiredSidecars = .ok report) ↔ script ≠ [] ∧ Verbatim script words duration)
    ∧ (postAudioContracts script scenes words duration = .ok () ↔ script ≠ [] ∧ Verbatim script words duration) := by
  have storyboard := fun segments => validateStoryboard_accepted unique segments accepted
  have transcript := qaAudioTranscript_accepted_iff accepted
  refine ⟨storyboard, transcript, ?_⟩
  have both : postAudioContracts script scenes words duration = .ok () ↔
      validateStoryboard (scenes.map Scene.connect) script duration = .ok () ∧
        ∃ report, qaAudioTranscript (postAudioEvidence duration words) (transcriptOf script) script
          requiredSidecars = .ok report := by
    simp only [postAudioContracts, bind_eq_ok, pure_eq_ok, and_true]
    constructor
    · rintro ⟨_, passed, report⟩
      exact ⟨passed, report⟩
    · rintro ⟨passed, report⟩
      exact ⟨(), passed, report⟩
  rw [both, transcript]
  exact ⟨And.right, fun verbatim => ⟨storyboard verbatim.1, verbatim⟩⟩

end Accepted

/-! ## A sample narration -/

def sampleAlphabet : Alphabet where
  casefold c := [c.toLower]
  isWord c := c.isAlphanum

def sampleSegment : Segment := ⟨"s", "One two.", [], "Look up", []⟩

def sampleWords (last : String) : List Boundary :=
  [⟨"One", some 0, some (1 / 4)⟩, ⟨last, some (1 / 4), some (1 / 2)⟩]

def sampleTimeline (last : String) : Result (List Scene × List Cue) :=
  semanticTimeline sampleAlphabet [sampleSegment] (sampleWords last) (some (1 / 2))

theorem sampleTimeline_accepted {last : String} (passed : (sampleTimeline last).isOk = true) :
    ∃ scenes cues, sampleTimeline last = .ok (scenes, cues) := by
  cases made : sampleTimeline last with
  | ok value => exact ⟨value.1, value.2, rfl⟩
  | error error =>
    rw [made] at passed
    cases passed

theorem verbatim_narration_passes : ∃ scenes cues, sampleTimeline "two." = .ok (scenes, cues) ∧
      postAudioContracts [sampleSegment] scenes (sampleWords "two.") (some (1 / 2)) = .ok () := by
  obtain ⟨scenes, cues, accepted⟩ := @sampleTimeline_accepted "two." (by decide +kernel)
  refine ⟨scenes, cues, accepted, ?_⟩
  have verbatim : Verbatim [sampleSegment] (sampleWords "two.") (some (1 / 2)) := by
    refine ⟨by decide, ?_⟩
    rintro boundary member stop ends _ ⟨⟩
    simp only [sampleWords, mem_cons, not_mem_nil, or_false] at member
    rcases member with rfl | rfl
    · cases ends
      decide +kernel
    · cases ends
      decide +kernel
  exact (accepted_audio_contracts (by simp) accepted).2.2.mpr ⟨by simp, verbatim⟩

theorem bare_words_refused :
    ∃ scenes cues, semanticTimeline sampleAlphabet [sampleSegment] (sampleWords "two") (some (1 / 2)) =
        .ok (scenes, cues) ∧ ([sampleSegment].map Segment.id).Nodup ∧
      ∀ report, qaAudioTranscript (postAudioEvidence (some (1 / 2)) (sampleWords "two"))
        (transcriptOf [sampleSegment]) [sampleSegment] requiredSidecars ≠ .ok report := by
  obtain ⟨scenes, cues, accepted⟩ := @sampleTimeline_accepted "two" (by decide +kernel)
  refine ⟨scenes, cues, accepted, by simp, fun report passed => ?_⟩
  have refused : (qaAudioTranscript (postAudioEvidence (some (1 / 2)) (sampleWords "two"))
      (transcriptOf [sampleSegment]) [sampleSegment] requiredSidecars).isOk = false := by
    decide +kernel
  rw [passed] at refused
  cases refused

end VideoPoster.Revision
