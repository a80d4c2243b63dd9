import VideoPoster.Production.Compiled
import VideoPoster.Revision.Sound

/-!
# `revoice.allocate`
-/

namespace VideoPoster.Revoice
open Python Floating Revision Production List Cue Revoice

def words (A : Alphabet) (nfc : String → String) (text : String) : List (List Char) := A.normalize (nfc text)

section Allocate
variable (words : String → List (List Char)) (duration : ℚ)

def readTimings : ℚ → List Boundary → Result (List Spoken)
  | _, [] => pure []
  | previous, event :: rest =>
    match event.start, event.stop with
    | some start, some stop => do
      require (previous ≤ start ∧ start < stop ∧ stop ≤ duration) (.value "invalid WordBoundary window")
      require (words event.word ≠ []) (.value "empty WordBoundary")
      let later ← readTimings stop rest
      pure (⟨event.word, start, stop⟩ :: later)
    | _, _ => .error (.value "invalid WordBoundary window")

def allocateSpeech : Option ℚ → List Token → List String → Result (List Cue)
  | _, left, [] => do
    require (left.length = 0) (.value "unallocated WordBoundary words")
    pure []
  | last, left, text :: rest =>
    let expected := words text
    let selected := left.take expected.length
    match selected.head?, selected.getLast? with
    | some first, some final => do
      require (selected.map Token.text = expected)
        (.value "WordBoundary words differ from original frame narration")
      require (∀ stop ∈ last, stop ≤ first.start) (.value "frame boundary inside a WordBoundary event")
      let speech ← allocateSpeech (some final.stop) (left.drop expected.length) rest
      pure (⟨first.start, final.stop, text⟩ :: speech)
    | _, _ => .error (.value "WordBoundary words differ from original frame narration")

def retime : ℚ → List (FrameSpec × Cue) → Result (List FrameSpec)
  | _, [] => pure []
  | start, (frame, _) :: rest => do
    let stop := (rest.head?.map fun next => next.2.start).getD duration
    require (1 / 4 < binary64.nearest (stop - start)) (.value "visual window too short")
    let later ← retime stop rest
    pure ({ frame with start := start, stop := stop } :: later)

def allocate (frames : List FrameSpec) (cues : List String) (timings : List Boundary) (duration : Option ℚ) :
    Result (List FrameSpec × List Cue) := do
  require (frames.length = 39 ∧ cues.length = 39 ∧ timings ≠ [])
    (.value "39 frames and real WordBoundary timings required")
  let duration ← positive (.value "invalid audio duration") duration
  let spoken ← readTimings words duration 0 timings
  let speech ← allocateSpeech words none (tokensOf words spoken) cues
  let allocated ← retime duration 0 (frames.zip speech)
  pure (allocated, speech)

end Allocate

variable {words : String → List (List Char)} {seconds previous start : ℚ} {timings : List Boundary}
  {spoken : List Spoken} {frames allocated : List FrameSpec} {cues : List String} {speech : List Cue}

def window (frame : FrameSpec) : ℚ × ℚ := (frame.start, frame.stop)

def Retimed (new old : FrameSpec) : Prop := new = { old with start := new.start, stop := new.stop }

structure Lossless (words : String → List (List Char)) (frames : List FrameSpec) (cues : List String)
    (timings : List Boundary) (seconds : ℚ) (allocated : List FrameSpec) (speech : List Cue) : Prop where
  allWords : (speech.map fun cue => words cue.text).flatten = (timings.map Boundary.word).flatMap words
  texts : speech.map text = cues
  sameFrames : List.Forall₂ Retimed allocated frames
  tiles : Tiles seconds 0 (allocated.map window)
  long : ∀ frame ∈ allocated, 1 / 4 < frame.stop - frame.start
  inside : List.Forall₂ (fun frame cue => Inside (window frame) cue.interval) allocated speech
  borders : ∀ cue ∈ speech, (∃ event ∈ timings, event.start = some cue.start) ∧
    ∃ event ∈ timings, event.stop = some cue.stop
  unsplit : Grouped words (timings.map Boundary.word) (cues.map words)

theorem readTimings_boundaries (read : readTimings words seconds previous timings = .ok spoken) :
    readBoundaries (fun _ => true) seconds (.value "") previous timings = .ok spoken := by
  induction timings generalizing previous spoken with
  | nil => exact read
  | cons event rest ih =>
    simp only [readTimings] at read
    split at read
    · rename_i start stop started stopped
      simp only [bind_eq_ok, require_eq_ok, pure_eq_ok, exists_const] at read
      obtain ⟨fits, -, later, tail, rfl⟩ := read
      exact readBoundaries_cons.mpr ⟨start, stop, later, started, stopped, ⟨rfl, fits⟩, ih tail, rfl⟩
    · cases read

theorem allocateSpeech_allocated {last : Option ℚ} {left : List Token} (taken : allocateSpeech words last left cues =
    .ok speech) : Allocated left (cues.map words) (speech.map interval) ∧ speech.map text = cues ∧ (speech.map
    interval).IsChain (fun a b => a.2 ≤ b.1) ∧ ∀ stop ∈ last, ∀ first ∈ speech.head?, stop ≤ first.start := by
  induction cues generalizing last left speech with
  | nil =>
    simp only [allocateSpeech, bind_eq_ok, require_eq_ok, pure_eq_ok, length_eq_zero_iff] at taken
    obtain ⟨_, rfl, rfl⟩ := taken
    exact ⟨.nil, rfl, .nil, by simp⟩
  | cons text rest ih =>
    simp only [allocateSpeech] at taken
    split at taken
    · rename_i first final head tail
      simp only [bind_eq_ok, require_eq_ok, pure_eq_ok, exists_const] at taken
      obtain ⟨same, after, later, taken, rfl⟩ := taken
      obtain ⟨pieces, texts, chain, next⟩ := ih taken
      have chunk := Allocated.of_take head tail pieces
      rw [same] at chunk
      refine ⟨chunk, by rw [map_cons, texts], ?_, fun stop known first' is => ?_⟩
      · cases later with
        | nil => exact .singleton _
        | cons cue later => exact isChain_cons_cons.mpr ⟨next _ rfl cue rfl, chain⟩
      · obtain rfl := Option.some.inj is
        exact after stop known
    · cases taken

theorem retime_windows {pairs : List (FrameSpec × Cue)} (made : retime seconds start pairs = .ok allocated) :
    allocated.map window = windows seconds start ((pairs.map Prod.snd).map interval) ∧
    (∀ frame ∈ allocated, 1 / 4 < frame.stop - frame.start) ∧ List.Forall₂ Retimed allocated (pairs.map Prod.fst) := by
  induction pairs generalizing start allocated with
  | nil =>
    cases made
    exact ⟨rfl, by simp, .nil⟩
  | cons pair rest ih =>
    simp only [retime, bind_eq_ok, require_eq_ok, pure_eq_ok] at made
    obtain ⟨_, apart, later, made, rfl⟩ := made
    obtain ⟨same, long, frames⟩ := ih made
    refine ⟨?_, forall_mem_cons.mpr ⟨lt_of_long apart, long⟩, .cons rfl frames⟩
    rw [map_cons, same]
    cases rest <;> rfl

/-- What `allocate` accepts loses no word and splits no event. -/
theorem allocation_lossless (accepted : allocate words frames cues timings (some seconds) = .ok (allocated, speech)) :
    Lossless words frames cues timings seconds allocated speech := by
  simp only [allocate, bind_eq_ok, require_eq_ok, pure_eq_ok, exists_const, Prod.mk.injEq] at accepted
  obtain ⟨⟨frameCount, cueCount, -⟩, _, bounded, spoken, read, speech, taken, allocated, made, rfl, rfl⟩ := accepted
  obtain ⟨⟨⟩, positive⟩ := positive_eq_ok.mp bounded
  have read' := readTimings_boundaries read
  obtain ⟨pieces, texts, chain, -⟩ := allocateSpeech_allocated taken
  have count : speech.length = 39 := by rw [← cueCount, ← texts, length_map]
  obtain ⟨same, long, frames'⟩ := retime_windows made
  rw [map_snd_zip (by omega)] at same
  rw [map_fst_zip (by omega)] at frames'
  obtain ⟨rfl, order, after⟩ := readBoundaries_order read'
  have named : (spoken.map fun word => (⟨word.word, some word.start, some word.stop⟩ : Boundary)).map Boundary.word =
      spoken.map Spoken.word := by simp
  have flat : (cues.map words).flatten = (spoken.map Spoken.word).flatMap words :=
    pieces.flatten.trans tokensOf_texts
  have nonempty : speech.map interval ≠ [] := by
    rw [← length_pos_iff, length_map, count]
    norm_num
  have borders : ∀ cue ∈ speech, (∃ word ∈ spoken, word.start = cue.start) ∧ ∃ word ∈ spoken, word.stop = cue.stop := by
    intro cue member
    obtain ⟨⟨first, begins, start⟩, last, ends, stop⟩ := pieces.borders _ (mem_map_of_mem member)
    obtain ⟨word, listed, _, -, rfl⟩ := mem_tokensOf.mp begins
    obtain ⟨word', listed', _, -, rfl⟩ := mem_tokensOf.mp ends
    exact ⟨⟨word, listed, start⟩, word', listed', stop⟩
  refine ⟨?_, texts, frames', same ▸ tiles_windows nonempty, long, ?_, fun cue member => ?_, ?_⟩
  · rw [named, ← flat, ← texts, map_map]
    rfl
  · have each := @inside_windows (speech.map interval) seconds 0 chain ?_ ?_
    · rw [← same, forall₂_map_left_iff, forall₂_map_right_iff] at each
      exact each
    · intro interval head
      obtain ⟨cue, member, rfl⟩ := mem_map.mp (mem_of_mem_head? head)
      obtain ⟨⟨word, listed, start⟩, -⟩ := borders cue member
      exact (after word listed).1.trans_eq start
    · simp only [forall_mem_map]
      intro cue member
      obtain ⟨-, word, listed, stop⟩ := borders cue member
      exact stop.symm.trans_le (after word listed).2
  · obtain ⟨⟨word, listed, start⟩, word', listed', stop⟩ := borders cue member
    exact ⟨⟨_, mem_map_of_mem listed, congrArg some start⟩, _, mem_map_of_mem listed', congrArg some stop⟩
  · rw [named]
    have aligned := pieces.aligned order.lasting rfl chain
    refine (aligned_map.mpr aligned).grouped (fun empty => ?_) flat
    rw [map_eq_nil_iff.mp empty] at cueCount
    cases cueCount

def secondFrames : List FrameSpec :=
  (range 39).map fun i => ⟨"F" ++ toString i, i, i + 1, "a boat", "the boat leaves", false⟩

def secondEvents : List Boundary :=
  (range 39).map fun i => ⟨"Word.", some i, some (i + 1)⟩

theorem seconds_allocated : ∃ allocated speech, Lossless (Revoice.words sampleAlphabet id) secondFrames
    (replicate 39 "word") secondEvents 39 allocated speech := by
  have passed : (allocate (words sampleAlphabet id) secondFrames (replicate 39 "word") secondEvents
      (some 39)).isOk = true := by decide +kernel
  cases made : allocate (words sampleAlphabet id) secondFrames (replicate 39 "word") secondEvents
      (some 39) with
  | ok value => exact ⟨value.1, value.2, allocation_lossless made⟩
  | error error =>
    rw [made] at passed
    cases passed

end VideoPoster.Revoice
