import VideoPoster.Captions.Lines

/-!
# `CaptionsAgent._wrap`
-/

namespace VideoPoster.Captions
open Python List

def maxLineChars : ℕ := 42

def extend (line word : Text) : Text := trim (line ++ ' ' :: word)

def wrapWord (lines : Text × Text) (word : Text) : Text × Text :=
  if lines.2 = [] ∧ (lines.1.length + word.length + 1 ≤ maxLineChars ∨ lines.1 = []) then (extend lines.1 word, lines.2)
  else (lines.1, extend lines.2 word)

def wrap (text : Text) : Text :=
  if text.length ≤ maxLineChars then text
  else
    let (line1, line2) := (words text).foldl wrapWord ([], [])
    trim (line1 ++ '\n' :: line2)

def Fits (parts : List Text) : Prop := (spaced parts).length ≤ maxLineChars

def Splittable (text : Text) : Prop := ∃ first second, first ++ second = words text ∧ Fits first ∧ Fits second

structure Wrapped (text output : Text) : Prop where
  words : words output = words text
  lines : (splitlines output).length ≤ 2
  short : ∀ line ∈ splitlines output, line.length ≤ maxLineChars

variable {text word : Text} {parts first second first' second' : List Text}

theorem fits_iff : Fits parts ↔ width parts ≤ maxLineChars + 1 := by
  rw [Fits, spaced_length]
  omega

theorem AllSolid.append (solid : AllSolid first) (solid' : AllSolid second) : AllSolid (first ++ second) :=
  forall_mem_append.mpr ⟨solid, solid'⟩

theorem spaced_concat (nonempty : parts ≠ []) : spaced (parts ++ [word]) = spaced parts ++ ' ' :: word := by
  induction parts with
  | nil => exact absurd rfl nonempty
  | cons head rest ih =>
    by_cases last : rest = []
    · simp [last, spaced]
    · rw [cons_append, spaced_cons head (by simp), ih last, spaced_cons head last, append_assoc]
      rfl

theorem extend_spaced (solid : AllSolid parts) (own : Solid word) :
    extend (spaced parts) word = spaced (parts ++ [word]) := by
  by_cases nonempty : parts = []
  · have blank : trim (' ' :: word) = trim word := rfl
    rw [nonempty, extend, spaced, intercalate_nil, nil_append, blank, own.tight.trim]
    simp [spaced]
  · rw [extend, ← spaced_concat nonempty]
    exact (spaced_tight (solid.append (forall_mem_singleton.mpr own))).trim

structure Taken (parts : List Text) (lines : Text × Text) (first second : List Text) : Prop where
  all : first ++ second = parts
  line1 : lines.1 = spaced first
  line2 : lines.2 = spaced second
  /-- The first word of the second line did not fit on the first line. -/
  full : ∀ word rest, second = word :: rest → first ≠ [] ∧ ¬ Fits (first ++ [word])
  fits : Fits first ∨ first.length = 1

theorem taken (solid : AllSolid parts) : ∃ first second, Taken parts (parts.foldl wrapWord ([], [])) first second := by
  induction parts using reverseRecOn with
  | nil => exact ⟨[], [], rfl, rfl, rfl, nofun, .inl (by simp [Fits, spaced])⟩
  | append_singleton parts word ih =>
    obtain ⟨before, own⟩ := forall_mem_append.mp solid
    obtain ⟨first, second, taken⟩ := ih before
    have own := own word (by simp)
    obtain ⟨solid1, solid2⟩ := forall_mem_append.mp (taken.all ▸ before : AllSolid (first ++ second))
    have none1 : spaced first = [] ↔ first = [] := spaced_eq_nil solid1
    have none2 : spaced second = [] ↔ second = [] := spaced_eq_nil solid2
    have room (nonempty : first ≠ []) :
        (spaced first).length + word.length + 1 ≤ maxLineChars ↔ Fits (first ++ [word]) := by
      rw [Fits, spaced_concat nonempty, length_append, length_cons]
      omega
    rw [foldl_append, foldl_cons, foldl_nil]
    simp only [wrapWord, taken.line1, taken.line2, none1, none2]
    split_ifs with fit
    · refine ⟨first ++ [word], [], by simp [← taken.all, fit.1], extend_spaced solid1 own, by rw [fit.1], nofun, ?_⟩
      by_cases nonempty : first = []
      · exact .inr (by simp [nonempty])
      · exact .inl ((room nonempty).mp (fit.2.resolve_right nonempty))
    · refine ⟨first, second ++ [word], by simp [← taken.all], rfl, extend_spaced solid2 own, ?_, taken.fits⟩
      intro next rest is
      cases second with
      | nil =>
        obtain ⟨rfl, -⟩ := cons.inj is
        simp only [true_and, not_or] at fit
        exact ⟨fit.2, mt (room fit.2).mpr fit.1⟩
      | cons head tail => exact taken.full next tail (by rw [(cons.inj is).1])

theorem Fits.left (fits : Fits (first ++ second)) : Fits first := by
  rw [fits_iff, width_append] at *
  omega

theorem Fits.right (fits : Fits (first ++ second)) : Fits second := by
  rw [fits_iff, width_append] at *
  omega

theorem Taken.fits_both {lines : Text × Text} (taken : Taken parts lines first second) (all : first' ++ second' = parts)
    (fits : Fits first') (fits' : Fits second') : Fits first ∧ Fits second := by
  rcases append_eq_append_iff.mp (taken.all.trans all.symm) with ⟨more, rfl, rfl⟩ | ⟨more, rfl, rfl⟩
  · cases more with
    | nil => exact ⟨fits.left, fits'⟩
    | cons word rest =>
      rw [append_cons] at fits
      exact absurd fits.left (taken.full word _ rfl).2
  · refine ⟨taken.fits.elim id fun single => ?_, fits'.right⟩
    cases first' with
    | nil => exact fits'.left
    | cons word rest =>
      have : rest = [] ∧ more = [] := by simpa using single
      simpa [this] using fits

theorem wrapped_long (long : ¬ text.length ≤ maxLineChars) (splittable : Splittable text) :
    Wrapped text (wrap text) := by
  obtain ⟨first', second', all, fits, fits'⟩ := splittable
  obtain ⟨first, second, taken⟩ := taken (words_solid text)
  obtain ⟨fit1, fit2⟩ := taken.fits_both all fits fits'
  obtain ⟨solid1, solid2⟩ : AllSolid first ∧ AllSolid second :=
    forall_mem_append.mp (taken.all ▸ words_solid text : AllSolid (first ++ second))
  have output : wrap text = trim (spaced first ++ '\n' :: spaced second) := by
    rw [wrap, if_neg long, ← taken.line1, ← taken.line2]
  cases second with
  | nil =>
    have single : trim (spaced first ++ ['\n']) = spaced first := (spaced_tight solid1).trim_newline
    rw [show wrap text = spaced first from output.trans single]
    have lines : splitlines (spaced first) = if first = [] then [] else [spaced first] := by
      split_ifs with none
      · rw [none]
        rfl
      · exact splitlines_unbroken (spaced_unbroken solid1) (mt (spaced_eq_nil solid1).mp none)
    refine ⟨by rw [words_spaced solid1, ← taken.all, append_nil], ?_, ?_⟩
    · rw [lines]
      split_ifs <;> simp
    · rw [lines]
      split_ifs
      · simp
      · simpa [Fits] using fit1
  | cons word rest =>
    have nonempty1 := mt (spaced_eq_nil solid1).mp (taken.full word rest rfl).1
    have nonempty2 := mt (spaced_eq_nil solid2).mp (cons_ne_nil word rest)
    have both := ((spaced_tight solid1).append (spaced_tight solid2) nonempty1 nonempty2 ['\n']).trim
    rw [show wrap text = spaced first ++ '\n' :: spaced (word :: rest) from output.trans both]
    have lines := splitlines_append (spaced_unbroken solid1) (spaced (word :: rest))
    rw [splitlines_unbroken (spaced_unbroken solid2) nonempty2] at lines
    refine ⟨by rw [words_append rfl, words_spaced solid1, words_spaced solid2, taken.all], by simp [lines], ?_⟩
    rw [lines]
    simpa [Fits] using And.intro fit1 fit2

theorem wrap_iff (text : Text) : (Splittable text → Wrapped text (wrap text)) ↔
    maxLineChars < text.length ∨ (splitlines text).length ≤ 2 := by
  refine ⟨fun wraps => ?_, fun fine splittable => ?_⟩
  · by_contra bad
    rw [not_or, not_lt, not_le] at bad
    have whole : Fits (words text) := fits_iff.2 ((width_words_le text).trans (by omega))
    have lines := (wraps ⟨words text, [], by simp, whole, by simp [Fits, spaced]⟩).lines
    rw [wrap, if_pos bad.1] at lines
    omega
  · by_cases short : text.length ≤ maxLineChars
    · rw [wrap, if_pos short]
      exact ⟨rfl, fine.resolve_left (by omega), fun line member => (splitlines_length_le line member).trans short⟩
    · exact wrapped_long short splittable

theorem go_to_bed : ∃ text : Text, (text.length ≤ 84 ∧ ∀ word ∈ words text, word.length ≤ maxLineChars) ∧
    Splittable text ∧ ¬ Wrapped text (wrap text) := by
  refine ⟨"Go\nto\nbed".toList, ⟨by decide, by decide⟩, ⟨["Go".toList, "to".toList, "bed".toList], [], by decide, ?_, ?_⟩,
    fun wrapped => absurd wrapped.lines (by decide)⟩ <;> simp [Fits, spaced, maxLineChars]

end VideoPoster.Captions
