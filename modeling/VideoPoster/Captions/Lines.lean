import VideoPoster.Revision.Timeline

/-!
# Words and lines of a text
-/

namespace VideoPoster.Captions
open Python Revision List Bool

abbrev Text := List Char

def words (text : Text) : List Text := runs isSpace text

def trim (text : Text) : Text := ((text.dropWhile isSpace).reverse.dropWhile isSpace).reverse

def spaced (words : List Text) : Text := [' '].intercalate words

def isBreak (c : Char) : Bool :=
  let n := c.toNat
  (0x0a ≤ n && n ≤ 0x0d) || (0x1c ≤ n && n ≤ 0x1e) || n == 0x85 || n == 0x2028 || n == 0x2029

def splitlines : Text → List Text
  | [] => []
  | '\r' :: '\n' :: rest => [] :: splitlines rest
  | c :: rest =>
    if isBreak c then [] :: splitlines rest
    else match splitlines rest with
      | [] => [[c]]
      | line :: lines => (c :: line) :: lines

variable {text text' word : Text} {parts others : List Text} {c : Char}

/-! ## Words -/

def Solid (word : Text) : Prop := word ≠ [] ∧ ∀ c ∈ word, isSpace c = false

def AllSolid (parts : List Text) : Prop := ∀ word ∈ parts, Solid word

theorem words_solid (text : Text) : AllSolid (words text) := by
  intro word member
  obtain ⟨parted, nonempty⟩ := mem_filter.mp member
  exact ⟨by simpa using nonempty, splitOnP_mem _ _ _ parted⟩

theorem words_append (space : isSpace c = true) : words (text ++ c :: text') = words text ++ words text' := by
  rw [words, runs, splitOnP_append_cons _ _ space, filter_append]
  rfl

theorem Solid.words (solid : Solid word) : words word = [word] := by
  rw [Captions.words, runs, splitOnP_eq_singleton solid.2, filter_singleton]
  simp [solid.1]

theorem spaced_cons (word : Text) (nonempty : parts ≠ []) : spaced (word :: parts) = word ++ ' ' :: spaced parts := by
  cases parts with
  | nil => exact absurd rfl nonempty
  | cons next rest => simp [spaced, intercalate]

theorem words_spaced (solid : AllSolid parts) : words (spaced parts) = parts := by
  induction parts with
  | nil => rfl
  | cons word rest ih =>
    obtain ⟨own, later⟩ := forall_mem_cons.mp solid
    by_cases last : rest = []
    · rw [last, spaced, intercalate_singleton, own.words]
    · rw [spaced_cons word last, words_append rfl, own.words, ih later]
      rfl

def width (parts : List Text) : ℕ := (parts.map fun word => word.length + 1).sum

theorem width_append : width (parts ++ others) = width parts + width others := by
  simp [width]

theorem spaced_length (parts : List Text) : (spaced parts).length = width parts - 1 := by
  induction parts with
  | nil => rfl
  | cons word rest ih =>
    by_cases last : rest = []
    · simp [last, spaced, width, intercalate]
    · have positive : 1 ≤ width rest := by
        obtain ⟨next, later, rfl⟩ := exists_cons_of_ne_nil last
        simp [width]
        omega
      have total : width (word :: rest) = word.length + 1 + width rest := rfl
      rw [spaced_cons word last, length_append, length_cons, ih, total]
      omega

theorem width_words_le (text : Text) : width (words text) ≤ text.length + 1 := by
  have all : width (text.splitOnP isSpace) = text.length + 1 := by
    induction text with
    | nil => rfl
    | cons c rest ih =>
      rw [splitOnP_cons_eq_if_modifyHead]
      split
      · rw [length_cons, ← ih, Nat.add_comm]
        rfl
      · obtain ⟨first, later, is⟩ := exists_cons_of_ne_nil (splitOnP_ne_nil isSpace rest)
        rw [is] at ih ⊢
        simp [width] at ih ⊢
        omega
  rw [← all]
  exact (filter_sublist.map _).sum_le_sum fun _ _ => Nat.zero_le _

/-! ## Ends -/

def Tight (text : Text) : Prop := (∀ c ∈ text.head?, isSpace c = false) ∧ ∀ c ∈ text.getLast?, isSpace c = false

theorem Tight.trim (tight : Tight text) : trim text = text := by
  have drop {text : Text} (solid : ∀ c ∈ text.head?, isSpace c = false) : text.dropWhile isSpace = text := by
    cases text with
    | nil => rfl
    | cons c rest => exact dropWhile_cons_of_neg (by simp [solid c rfl])
  rw [Captions.trim, drop tight.1, drop (by simpa using tight.2), reverse_reverse]

theorem Tight.trim_newline (tight : Tight text) : Captions.trim (text ++ ['\n']) = text := by
  have whole := tight.trim
  cases text with
  | nil => rfl
  | cons c rest =>
    rw [Captions.trim, dropWhile_cons_of_neg (by simp [tight.1 c rfl])] at whole
    rw [Captions.trim, cons_append, dropWhile_cons_of_neg (by simp [tight.1 c rfl]), ← cons_append,
      reverse_append, reverse_singleton, singleton_append, dropWhile_cons_of_pos rfl, whole]

theorem Solid.tight (solid : Solid word) : Tight word :=
  ⟨fun _ first => solid.2 _ (mem_of_mem_head? first), fun _ last => solid.2 _ (mem_of_mem_getLast? last)⟩

theorem Tight.append (tight : Tight text) (tight' : Tight text') (nonempty : text ≠ []) (nonempty' : text' ≠ [])
    (between : Text) : Tight (text ++ (between ++ text')) := by
  constructor
  · rw [head?_append_of_ne_nil _ nonempty]
    exact tight.1
  · rw [getLast?_append_of_ne_nil _ (by simp [nonempty']), getLast?_append_of_ne_nil _ nonempty']
    exact tight'.2

theorem spaced_eq_nil (solid : AllSolid parts) : spaced parts = [] ↔ parts = [] := by
  constructor
  · intro empty
    have back := words_spaced solid
    rw [empty] at back
    exact back.symm
  · rintro rfl
    rfl

theorem spaced_tight (solid : AllSolid parts) : Tight (spaced parts) := by
  induction parts with
  | nil => exact ⟨nofun, nofun⟩
  | cons word rest ih =>
    obtain ⟨own, later⟩ := forall_mem_cons.mp solid
    by_cases last : rest = []
    · rw [last, spaced, intercalate_singleton]
      exact own.tight
    · rw [spaced_cons word last]
      exact own.tight.append (ih later) own.1 (mt (spaced_eq_nil later).mp last) [' ']

/-! ## Lines -/

def Unbroken (text : Text) : Prop := ∀ c ∈ text, isBreak c = false

theorem splitlines_cons (solid : isBreak c = false) (rest : Text) : splitlines (c :: rest) =
    ((c :: (splitlines rest).headD []) :: (splitlines rest).tail) := by
  rw [splitlines]
  · rw [if_neg (by simp [solid])]
    cases splitlines rest <;> rfl
  · rintro _ rfl -
    cases solid

theorem splitlines_append (unbroken : Unbroken text) (rest : Text) :
    splitlines (text ++ '\n' :: rest) = text :: splitlines rest := by
  induction text with
  | nil => rfl
  | cons c later ih =>
    obtain ⟨own, others⟩ := forall_mem_cons.mp unbroken
    rw [cons_append, splitlines_cons own, ih others]
    rfl

theorem splitlines_unbroken (unbroken : Unbroken text) (nonempty : text ≠ []) : splitlines text = [text] := by
  induction text with
  | nil => exact absurd rfl nonempty
  | cons c later ih =>
    obtain ⟨own, others⟩ := forall_mem_cons.mp unbroken
    rw [splitlines_cons own]
    by_cases last : later = []
    · rw [last]
      rfl
    · rw [ih others last]
      rfl

theorem splitlines_length_le : ∀ line ∈ splitlines text, line.length ≤ text.length := by
  fun_induction splitlines text <;> simp_all
  all_goals grind

theorem isSpace_of_isBreak (is : isBreak c = true) : isSpace c = true := by
  simp only [isBreak, isSpace, or_eq_true, and_eq_true, decide_eq_true_eq, beq_iff_eq] at is ⊢
  omega

theorem spaced_unbroken (solid : AllSolid parts) : Unbroken (spaced parts) := by
  intro c member
  induction parts with
  | nil => cases member
  | cons word rest ih =>
    obtain ⟨own, later⟩ := forall_mem_cons.mp solid
    have inside (member : c ∈ word) : isBreak c = false :=
      eq_false_iff.mpr fun is => eq_false_iff.mp (own.2 c member) (isSpace_of_isBreak is)
    by_cases last : rest = []
    · rw [last, spaced, intercalate_singleton] at member
      exact inside member
    · rw [spaced_cons word last, mem_append, mem_cons] at member
      rcases member with member | rfl | member
      · exact inside member
      · rfl
      · exact ih later member

end VideoPoster.Captions
