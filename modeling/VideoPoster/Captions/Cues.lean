import Mathlib.Data.List.DropRight
import VideoPoster.Captions.Wrap
import VideoPoster.Floating.Rounding

/-!
# `CaptionsAgent`: captions from timestamps

Sentences and words become captions that are cut at spaces. The times are exact numbers.
-/

namespace VideoPoster.Captions
open Python Floating List Sublist Nat

def maxCaptionChars : ℕ := 84

/-- A sentence, or a word, of the narration. -/
structure Timestamp where
  text : Text
  start : ℚ
  stop : ℚ

structure Cue where
  start : ℚ
  stop : ℚ
  text : Text

def stamp (seconds : ℚ) : ℤ := roundEven (seconds * 1000)

/-- `round(seconds, 3)`. -/
def millis (seconds : ℚ) : ℚ := stamp seconds / 1000

def splitWord (maxChars : ℕ) (state : List Text × Text) (word : Text) : List Text × Text :=
  if maxChars < state.2.length + word.length + 1 ∧ state.2 ≠ [] then (state.1 ++ [trim state.2], word)
  else (state.1, extend state.2 word)

def splitText (text : Text) (maxChars : ℕ) : List Text :=
  let (chunks, cur) := (words text).foldl (splitWord maxChars) ([], [])
  if cur ≠ [] then chunks ++ [trim cur] else chunks

/-- The time of a sentence is divided evenly among its chunks. -/
def chunkCues (ts : Timestamp) (chunks : List Text) : List Cue :=
  let dur := (ts.stop - ts.start) / chunks.length
  chunks.mapIdx fun i chunk => ⟨millis (ts.start + i * dur), millis (ts.start + (i + 1) * dur), wrap chunk⟩

def cuesFromSentence (ts : Timestamp) : List Cue :=
  if trim ts.text = [] then []
  else if (trim ts.text).length ≤ maxCaptionChars then [⟨ts.start, ts.stop, wrap (trim ts.text)⟩]
  else chunkCues ts (splitText (trim ts.text) maxCaptionChars)

def buildCuesFromSentences (sentences : List Timestamp) : List Cue := sentences.flatMap cuesFromSentence

def flushWords (current : List Timestamp) (nonempty : current ≠ []) : Cue :=
  ⟨millis (current.head nonempty).start, millis (current.getLast nonempty).stop,
    wrap (trim (spaced (current.map fun w => trim w.text)))⟩

structure Grouping where
  cues : List Cue := []
  current : List Timestamp := []
  curLen : ℕ := 0

def groupWord (g : Grouping) (w : Timestamp) : Grouping :=
  let word := trim w.text
  if full : maxCaptionChars < g.curLen + word.length + 1 ∧ g.current ≠ [] then
    ⟨g.cues ++ [flushWords g.current full.2], [w], word.length + 1⟩
  else ⟨g.cues, g.current ++ [w], g.curLen + (word.length + 1)⟩

def buildCuesFromWords (timestamps : List Timestamp) : List Cue :=
  let g := timestamps.foldl groupWord {}
  if nonempty : g.current ≠ [] then g.cues ++ [flushWords g.current nonempty] else g.cues

def Timestamp.words (ts : Timestamp) : List Text := Captions.words ts.text

def Cue.words (cue : Cue) : List Text := Captions.words cue.text

def Timestamp.stamps (ts : Timestamp) : List ℤ := [stamp ts.start, stamp ts.stop]

/-- The times of a caption in the `SRT` file, in milliseconds. -/
def Cue.stamps (cue : Cue) : List ℤ := [stamp cue.start, stamp cue.stop]

variable {text word : Text} {parts : List Text} {ts : Timestamp}

/-! ## Words -/

theorem words_space {c : Char} (space : isSpace c = true) : words (c :: text) = words text :=
  @words_append [] text c space

theorem words_trim : words (trim text) = words text := by
  have front (text : Text) : words (text.dropWhile isSpace) = words text := by
    induction text with
    | nil => rfl
    | cons c rest ih =>
      rw [dropWhile_cons]
      split_ifs with space
      · rw [ih, words_space space]
      · rfl
  have back (text : Text) : words (text.rdropWhile isSpace) = words text := by
    induction text using reverseRecOn with
    | nil => rfl
    | append_singleton rest c ih =>
      rw [rdropWhile_concat]
      split_ifs with space
      · rw [ih, words_append space]
        exact (append_nil _).symm
      · rfl
  exact (back _).trans (front text)

theorem words_joined (parts : List Text) : words (spaced parts) = parts.flatMap words := by
  induction parts with
  | nil => rfl
  | cons word rest ih =>
    by_cases last : rest = []
    · simp [last, spaced]
    · rw [spaced_cons word last, words_append rfl, ih, flatMap_cons]

theorem words_wrap : words (wrap text) = words text := by
  unfold wrap
  split_ifs
  · rfl
  · obtain ⟨first, second, taken⟩ := taken (words_solid text)
    obtain ⟨solid, solid'⟩ : AllSolid first ∧ AllSolid second :=
      forall_mem_append.mp (taken.all ▸ words_solid text : AllSolid (first ++ second))
    simp only [taken.line1, taken.line2]
    rw [words_trim, words_append rfl, words_spaced solid, words_spaced solid', taken.all]

theorem trim_length_le (text : Text) : (trim text).length ≤ text.length := by
  unfold trim
  rw [length_reverse]
  refine (dropWhile_suffix _).length_le.trans ?_
  rw [length_reverse]
  exact (dropWhile_suffix _).length_le

/-! ## Sentences -/

/-- At most so many characters, or a single word. -/
def Short (maxChars : ℕ) (text : Text) : Prop := (spaced (words text)).length ≤ maxChars ∨ (words text).length = 1

variable {maxChars : ℕ}

theorem short_of_length_le (fits : text.length ≤ maxChars) : Short maxChars text := by
  have := width_words_le text
  rw [Short, spaced_length]
  omega

structure Split (maxChars : ℕ) (parts : List Text) (state : List Text × Text) : Prop where
  all : state.1.flatMap words ++ words state.2 = parts
  chunks : ∀ chunk ∈ state.1, Short maxChars chunk
  cur : state.2 ≠ [] → state.2.length ≤ maxChars ∨ (words state.2).length = 1

theorem Split.short {state : List Text × Text} (split : Split maxChars parts state) (some : state.2 ≠ []) :
    Short maxChars (trim state.2) := by
  rcases split.cur some with fits | single
  · exact short_of_length_le ((trim_length_le _).trans fits)
  · exact .inr (by rw [words_trim, single])

theorem Split.step {state : List Text × Text} (split : Split maxChars parts state) (own : Solid word) :
    Split maxChars (parts ++ [word]) (splitWord maxChars state word) := by
  unfold splitWord
  split_ifs with full
  · constructor
    · rw [flatMap_append, flatMap_singleton, words_trim, split.all, own.words]
    · rw [forall_mem_append, forall_mem_singleton]
      exact ⟨split.chunks, split.short full.2⟩
    · exact fun _ => .inr (by rw [own.words, length_singleton])
  · have taken : words (extend state.2 word) = words state.2 ++ [word] := by
      rw [extend, words_trim, words_append rfl, own.words]
    refine ⟨by rw [taken, ← append_assoc, split.all], split.chunks, fun _ => ?_⟩
    by_cases empty : state.2 = []
    · right
      rw [taken, empty]
      rfl
    · left
      have longer := trim_length_le (state.2 ++ ' ' :: word)
      rw [length_append, length_cons] at longer
      have room : ¬ maxChars < state.2.length + word.length + 1 := fun less => full ⟨less, empty⟩
      exact longer.trans (by omega)

theorem split_words (solid : AllSolid parts) : Split maxChars parts (parts.foldl (splitWord maxChars) ([], [])) := by
  induction parts using reverseRecOn with
  | nil => exact ⟨rfl, nofun, fun some => absurd rfl some⟩
  | append_singleton parts word ih =>
    obtain ⟨before, own⟩ := forall_mem_append.mp solid
    rw [foldl_append]
    exact (ih before).step (own word (by simp))

theorem splitText_eq (text : Text) (maxChars : ℕ) : (splitText text maxChars).flatMap words = words text ∧
    ∀ chunk ∈ splitText text maxChars, Short maxChars chunk := by
  have split := @split_words _ maxChars (words_solid text)
  unfold splitText
  simp only
  split_ifs with some
  · rw [forall_mem_append, forall_mem_singleton]
    refine ⟨?_, split.chunks, split.short some⟩
    rw [flatMap_append, flatMap_singleton, words_trim, split.all]
  · refine ⟨?_, split.chunks⟩
    have all := split.all
    rwa [not_not.mp some, show words [] = [] from rfl, append_nil] at all

variable {sentences timestamps : List Timestamp}

/-! ## Times -/

theorem stamp_mono {x y : ℚ} (le : x ≤ y) : stamp x ≤ stamp y := roundEven_mono (by linarith)

theorem stamp_millis (x : ℚ) : stamp (millis x) = stamp x := by
  rw [millis, stamp, div_mul_cancel₀ _ (by norm_num), roundEven_intCast]

def InOrder (timestamps : List Timestamp) : Prop := (timestamps.flatMap fun ts => [ts.start, ts.stop]).Pairwise (· ≤ ·)

theorem inOrder_iff : InOrder timestamps ↔
    (∀ ts ∈ timestamps, ts.start ≤ ts.stop) ∧ timestamps.Pairwise fun ts later => ts.start ≤ later.start ∧
      ts.start ≤ later.stop ∧ ts.stop ≤ later.start ∧ ts.stop ≤ later.stop := by
  simp [InOrder, pairwise_flatMap, and_assoc]

theorem InOrder.stamps (ordered : InOrder timestamps) :
    (timestamps.flatMap Timestamp.stamps).Pairwise (· ≤ ·) := by
  have all := ordered.map (R := (· ≤ ·)) stamp fun _ _ => stamp_mono
  rwa [map_flatMap] at all

/-! ## Captions of a sentence -/

theorem chunkCues_words (ts : Timestamp) (chunks : List Text) :
    (chunkCues ts chunks).flatMap Cue.words = chunks.flatMap words := by
  rw [flatMap_def, flatMap_def]
  congr 1
  exact ext_getElem (by simp [chunkCues]) fun i _ _ => by simp [chunkCues, Cue.words, words_wrap]

theorem cuesFromSentence_words (ts : Timestamp) : (cuesFromSentence ts).flatMap Cue.words = ts.words := by
  rw [Timestamp.words, ← @words_trim ts.text]
  unfold cuesFromSentence
  split_ifs with empty short
  · rw [empty]
    rfl
  · rw [flatMap_singleton, Cue.words, words_wrap]
  · rw [chunkCues_words, (splitText_eq _ _).1]

theorem short_wrap : Short maxChars (wrap text) ↔ Short maxChars text := by
  rw [Short, words_wrap, Short]

theorem cuesFromSentence_short (ts : Timestamp) : ∀ cue ∈ cuesFromSentence ts, Short maxCaptionChars cue.text := by
  intro cue member
  unfold cuesFromSentence at member
  split_ifs at member with empty short
  · cases member
  · rw [mem_singleton.mp member]
    exact short_wrap.2 (short_of_length_le short)
  · obtain ⟨i, inside, rfl⟩ := mem_mapIdx.mp member
    exact short_wrap.2 ((splitText_eq _ _).2 _ (getElem_mem inside))

section Chunks
variable (forward : ts.start ≤ ts.stop) (chunks : List Text)
include forward

theorem chunk_time_mono {i j : ℚ} (le : i ≤ j) :
    stamp (ts.start + i * ((ts.stop - ts.start) / chunks.length)) ≤
      stamp (ts.start + j * ((ts.stop - ts.start) / chunks.length)) := by
  have dur : 0 ≤ (ts.stop - ts.start) / chunks.length := div_nonneg (by linarith) (cast_nonneg _)
  have := mul_le_mul_of_nonneg_right le dur
  exact stamp_mono (by linarith)

theorem chunkCues_stamps : ((chunkCues ts chunks).flatMap Cue.stamps).Pairwise (· ≤ ·) ∧
    ∀ t ∈ (chunkCues ts chunks).flatMap Cue.stamps, stamp ts.start ≤ t ∧ t ≤ stamp ts.stop := by
  have mono {i j : ℚ} (le : i ≤ j) := chunk_time_mono forward chunks le
  constructor
  · rw [pairwise_flatMap]
    constructor
    · rintro cue member
      obtain ⟨i, inside, rfl⟩ := mem_mapIdx.mp member
      simpa [Cue.stamps, stamp_millis] using mono (i := i) (j := i + 1) (by linarith)
    · rw [pairwise_iff_getElem]
      intro i j inside inside' less
      have next : (i : ℚ) + 1 ≤ j := by exact_mod_cast less
      simp only [chunkCues, getElem_mapIdx, Cue.stamps, stamp_millis, mem_cons, not_mem_nil, or_false]
      rintro x (rfl | rfl) y (rfl | rfl) <;> exact mono (by linarith)
  · intro t member
    obtain ⟨cue, member, own⟩ := mem_flatMap.mp member
    obtain ⟨i, inside, rfl⟩ := mem_mapIdx.mp member
    have next : (i : ℚ) + 1 ≤ chunks.length := by exact_mod_cast inside
    have first : ts.start + 0 * ((ts.stop - ts.start) / chunks.length) = ts.start := by ring
    have last : ts.start + chunks.length * ((ts.stop - ts.start) / chunks.length) = ts.stop := by
      have : (chunks.length : ℚ) ≠ 0 := cast_ne_zero.mpr (by omega)
      rw [mul_div_cancel₀ _ this, add_sub_cancel]
    have lower := mono (i := 0) (j := i) (by positivity)
    have inner := mono (i := i) (j := i + 1) (by linarith)
    have upper := mono next
    rw [first] at lower
    rw [last] at upper
    simp only [Cue.stamps, stamp_millis, mem_cons, not_mem_nil, or_false] at own
    rcases own with rfl | rfl
    · exact ⟨lower, inner.trans upper⟩
    · exact ⟨lower.trans inner, upper⟩

end Chunks

theorem cuesFromSentence_stamps (forward : ts.start ≤ ts.stop) :
    ((cuesFromSentence ts).flatMap Cue.stamps).Pairwise (· ≤ ·) ∧
      ∀ t ∈ (cuesFromSentence ts).flatMap Cue.stamps, stamp ts.start ≤ t ∧ t ≤ stamp ts.stop := by
  unfold cuesFromSentence
  split_ifs
  · exact ⟨.nil, nofun⟩
  · simp [Cue.stamps, stamp_mono forward]
  · exact chunkCues_stamps forward _

theorem sentences_stamps (ordered : InOrder sentences) :
    ((buildCuesFromSentences sentences).flatMap Cue.stamps).Pairwise (· ≤ ·) := by
  obtain ⟨forward, later⟩ := inOrder_iff.1 ordered
  rw [buildCuesFromSentences, flatMap_assoc, pairwise_flatMap]
  refine ⟨fun ts member => (cuesFromSentence_stamps (forward ts member)).1, ?_⟩
  refine later.imp_of_mem fun member member' after t own t' own' => ?_
  calc t ≤ stamp _ := ((cuesFromSentence_stamps (forward _ member)).2 t own).2
    _ ≤ stamp _ := stamp_mono after.2.2.1
    _ ≤ t' := ((cuesFromSentence_stamps (forward _ member')).2 t' own').1

/-! ## Captions of words -/

def Timestamp.width (ts : Timestamp) : ℕ := (trim ts.text).length + 1

theorem width_flatMap_le (current : List Timestamp) :
    width (current.flatMap Timestamp.words) ≤ (current.map Timestamp.width).sum := by
  induction current with
  | nil => exact le_rfl
  | cons ts rest ih =>
    have own := width_words_le (trim ts.text)
    rw [words_trim] at own
    rw [flatMap_cons, width_append, map_cons, sum_cons]
    exact Nat.add_le_add own ih

section Flush
variable {current : List Timestamp} (nonempty : current ≠ [])

theorem flushWords_words : (flushWords current nonempty).words = current.flatMap Timestamp.words := by
  rw [Cue.words, flushWords, words_wrap, words_trim, words_joined, flatMap_map]
  exact flatMap_congr fun ts _ => words_trim

theorem flushWords_stamps : (flushWords current nonempty).stamps <+ current.flatMap Timestamp.stamps := by
  have member := getLast_mem nonempty
  rw [Cue.stamps, flushWords, stamp_millis, stamp_millis]
  generalize current.getLast nonempty = last at member
  cases current with
  | nil => exact absurd rfl nonempty
  | cons first rest =>
    refine cons_cons _ (singleton_sublist.mpr ?_)
    rcases mem_cons.mp member with rfl | member
    · exact mem_cons_self
    · exact mem_cons_of_mem _ (mem_flatMap.mpr ⟨last, member, by simp [Timestamp.stamps]⟩)

end Flush

structure Grouped (timestamps : List Timestamp) (g : Grouping) : Prop where
  all : g.cues.flatMap Cue.words ++ g.current.flatMap Timestamp.words = timestamps.flatMap Timestamp.words
  stamps : g.cues.flatMap Cue.stamps ++ g.current.flatMap Timestamp.stamps <+ timestamps.flatMap Timestamp.stamps
  short : ∀ cue ∈ g.cues, (spaced cue.words).length ≤ maxCaptionChars ∨ ∃ ts ∈ timestamps, cue.words = ts.words
  curLen : g.curLen = (g.current.map Timestamp.width).sum
  fits : g.curLen ≤ maxCaptionChars ∨ ∃ ts ∈ timestamps, g.current = [ts]

section Words
variable {g : Grouping} (grouped : Grouped timestamps g)
include grouped

theorem Grouped.flush (nonempty : g.current ≠ []) : Grouped timestamps ⟨g.cues ++ [flushWords g.current nonempty], [], 0⟩ := by
  refine ⟨?_, ?_, ?_, rfl, .inl (zero_le _)⟩
  · rw [flatMap_append, flatMap_singleton, flushWords_words, flatMap_nil, append_nil, grouped.all]
  · rw [flatMap_append, flatMap_singleton, flatMap_nil, append_nil]
    exact ((refl _).append (flushWords_stamps nonempty)).trans grouped.stamps
  · rw [forall_mem_append, forall_mem_singleton, flushWords_words]
    refine ⟨grouped.short, grouped.fits.imp (fun fits => ?_) ?_⟩
    · have narrow := grouped.curLen ▸ width_flatMap_le g.current
      rw [spaced_length]
      omega
    · rintro ⟨ts, member, is⟩
      exact ⟨ts, member, by rw [is, flatMap_singleton]⟩

theorem Grouped.take (ts : Timestamp) (room : g.curLen + ts.width ≤ maxCaptionChars ∨ g.current = []) :
    Grouped (timestamps ++ [ts]) ⟨g.cues, g.current ++ [ts], g.curLen + ts.width⟩ := by
  constructor
  · rw [flatMap_append, flatMap_append, ← append_assoc, grouped.all, flatMap_singleton]
  · rw [flatMap_append, flatMap_append, ← append_assoc]
    exact grouped.stamps.append (refl _)
  · exact fun cue member => (grouped.short cue member).imp_right fun ⟨own, before, is⟩ => ⟨own, by simp [before], is⟩
  · simp [grouped.curLen]
  · exact room.imp_right fun empty => ⟨ts, by simp, by rw [empty, nil_append]⟩

theorem Grouped.step (ts : Timestamp) : Grouped (timestamps ++ [ts]) (groupWord g ts) := by
  unfold groupWord
  simp only
  split_ifs with full
  · have flushed := (grouped.flush full.2).take ts (.inr rfl)
    simpa [Timestamp.width] using flushed
  · refine grouped.take ts ?_
    by_cases empty : g.current = []
    · exact .inr empty
    · exact .inl (not_lt.mp fun less => full ⟨less, empty⟩)

end Words

theorem grouped_words (timestamps : List Timestamp) : Grouped timestamps (timestamps.foldl groupWord {}) := by
  induction timestamps using reverseRecOn with
  | nil => exact ⟨rfl, .slnil, nofun, rfl, .inl (zero_le _)⟩
  | append_singleton timestamps ts ih =>
    rw [foldl_append]
    exact ih.step ts

/-- The words of the narration in their order, and in the file no time that comes before an earlier one. -/
structure Captioned (timestamps : List Timestamp) (cues : List Cue) : Prop where
  words : cues.flatMap Cue.words = timestamps.flatMap Timestamp.words
  stamps : InOrder timestamps → (cues.flatMap Cue.stamps).Pairwise (· ≤ ·)

theorem Grouped.captioned {cues : List Cue} {curLen : ℕ} (grouped : Grouped timestamps ⟨cues, [], curLen⟩) :
    Captioned timestamps cues := by
  refine ⟨?_, fun ordered => ordered.stamps.sublist ?_⟩
  · simpa using grouped.all
  · simpa using grouped.stamps

theorem words_captioned (timestamps : List Timestamp) :
    ∃ curLen, Grouped timestamps ⟨buildCuesFromWords timestamps, [], curLen⟩ := by
  have grouped := grouped_words timestamps
  unfold buildCuesFromWords
  generalize timestamps.foldl groupWord {} = g at grouped
  simp only
  split_ifs with some
  · exact ⟨0, grouped.flush some⟩
  · obtain ⟨cues, current, curLen⟩ := g
    obtain rfl : current = [] := not_not.mp some
    exact ⟨curLen, grouped⟩

theorem sentences_captioned (sentences : List Timestamp) : Captioned sentences (buildCuesFromSentences sentences) := by
  refine ⟨?_, sentences_stamps⟩
  rw [buildCuesFromSentences, flatMap_assoc]
  exact flatMap_congr fun ts _ => cuesFromSentence_words ts

/-- A caption of words has at most 84 characters or is of one timestamp, one of sentences has at most 84 or is a word. -/
theorem captions_lossless (timestamps : List Timestamp) :
    (Captioned timestamps (buildCuesFromWords timestamps) ∧ ∀ cue ∈ buildCuesFromWords timestamps,
      (spaced cue.words).length ≤ maxCaptionChars ∨ ∃ ts ∈ timestamps, cue.words = ts.words) ∧
    Captioned timestamps (buildCuesFromSentences timestamps) ∧ ∀ cue ∈ buildCuesFromSentences timestamps,
      (spaced cue.words).length ≤ maxCaptionChars ∨ cue.words.length = 1 := by
  obtain ⟨_, grouped⟩ := words_captioned timestamps
  refine ⟨⟨grouped.captioned, grouped.short⟩, sentences_captioned timestamps, fun cue member => ?_⟩
  obtain ⟨ts, _, own⟩ := mem_flatMap.mp member
  exact cuesFromSentence_short ts cue own

end VideoPoster.Captions
