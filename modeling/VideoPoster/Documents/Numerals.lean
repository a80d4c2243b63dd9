import VideoPoster.Documents.RoundTrip
import VideoPoster.Encoding.JsonText

/-!
# Numerals
-/

namespace VideoPoster.Documents
open List Option Bool Encoding.JsonText

variable {N : Type} (D : Decoder N)

def Follows (rest : Text) : Prop :=
  ∀ c, rest.head? = some c → c = code ' ' ∨ c = code '\n' ∨ c = code ',' ∨ c = code '}' ∨ c = code ']'

structure Numeral where
  negative : Bool
  whole : Text
  fraction : Text
  exponent : Option (Bool × Text)

namespace Numeral

def signText (negative : Bool) : Text := if negative then [code '-'] else []

def fractionText (fraction : Text) : Text := if fraction = [] then [] else code '.' :: fraction

def exponentText : Option (Bool × Text) → Text
  | none => []
  | some (negative, digits) => code 'e' :: (if negative then code '-' else code '+') :: digits

def text (n : Numeral) : Text :=
  signText n.negative ++ (n.whole ++ (fractionText n.fraction ++ exponentText n.exponent))

def exponentValue : Option (Bool × Text) → ℤ
  | none => 0
  | some (negative, digits) => signed negative (natural digits)

def literal (n : Numeral) : Literal :=
  ⟨n.negative, natural (n.whole ++ n.fraction), exponentValue n.exponent - n.fraction.length⟩

structure WellFormed (n : Numeral) : Prop where
  digits : ∀ c ∈ n.whole ++ n.fraction, isDigit c = true
  whole : n.whole ≠ []
  leading : n.whole.head? = some (code '0') → n.whole = [code '0']
  exponent : ∀ negative digits, n.exponent = some (negative, digits) →
    digits ≠ [] ∧ ∀ c ∈ digits, isDigit c = true

end Numeral

variable {rest : Text}

theorem digits_append {chars : Text} (all : ∀ c ∈ chars, isDigit c = true) (stops : ∀ c,
    rest.head? = some c → isDigit c = false) : digits (chars ++ rest) = chars ∧ afterDigits (chars ++ rest) = rest := by
  unfold digits afterDigits
  rw [takeWhile_append_of_pos all, dropWhile_append_of_pos all]
  cases rest with
  | nil => simp
  | cons c rest => simp [stops c rfl]

theorem not_digit_of_follows (follows : Follows rest) : ∀ c, rest.head? = some c → isDigit c = false := by
  intro c head
  rcases follows c head with rfl | rfl | rfl | rfl | rfl <;> decide

theorem scanExponent_text {exponent : Option (Bool × Text)} (digits : ∀ negative digits,
    exponent = some (negative, digits) → digits ≠ [] ∧ ∀ c ∈ digits, isDigit c = true) (follows : Follows rest) :
    scanExponent (Numeral.exponentText exponent ++ rest) = (exponent.map fun e => signed e.1 (natural e.2), rest) := by
  cases exponent with
  | none =>
    rw [Numeral.exponentText, nil_append]
    cases rest with
    | nil => rfl
    | cons c rest =>
      have other : ¬(c = code 'e' ∨ c = code 'E') := by
        rcases follows c rfl with rfl | rfl | rfl | rfl | rfl <;> decide
      rw [scanExponent, if_neg fun both => other both.1]
      rfl
  | some exponent =>
    obtain ⟨negative, given⟩ := exponent
    obtain ⟨nonempty, all⟩ := digits negative given rfl
    obtain ⟨own, after⟩ := digits_append all (not_digit_of_follows follows)
    have sign : scanSign ((if negative then code '-' else code '+') :: (given ++ rest)) =
        (negative, given ++ rest) := by
      cases negative <;> rfl
    rw [Numeral.exponentText, cons_append, cons_append, scanExponent, sign]
    simp only [own, after]
    rw [if_pos ⟨.inl trivial, nonempty⟩]
    rfl

theorem scanFraction_text {fraction : Text} {exponent : Option (Bool × Text)} (all : ∀ c ∈ fraction, isDigit c = true)
    (follows : Follows rest) : scanFraction (Numeral.fractionText fraction ++ (Numeral.exponentText exponent ++ rest))
    = (fraction, Numeral.exponentText exponent ++ rest) := by
  have stops : ∀ c, (Numeral.exponentText exponent ++ rest).head? = some c → isDigit c = false ∧ c ≠ code '.' := by
    intro c head
    cases exponent with
    | none =>
      rcases follows c head with rfl | rfl | rfl | rfl | rfl <;> decide
    | some exponent =>
      obtain rfl : code 'e' = c := some.inj head
      decide
  unfold Numeral.fractionText
  split_ifs with none
  · subst none
    rw [nil_append]
    generalize Numeral.exponentText exponent ++ rest = tail at stops ⊢
    cases tail with
    | nil => rfl
    | cons c tail =>
      rw [scanFraction, if_neg fun both => (stops c rfl).2 both.1]
  · obtain ⟨own, after⟩ := digits_append all fun c head => (stops c head).1
    rw [cons_append, scanFraction, own, after, if_pos ⟨rfl, none⟩]

variable {n : Numeral}

theorem finishNumber_text (formed : n.WellFormed) (follows : Follows rest) :
    finishNumber D n.negative n.whole (Numeral.fractionText n.fraction ++ (Numeral.exponentText n.exponent ++ rest))
    = if n.fraction = [] ∧ n.exponent = none then (integer n.negative n.whole).map fun value => (value, rest)
    else (D.number n.literal).map fun value => (.num value, rest) := by
  have fraction : ∀ c ∈ n.fraction, isDigit c = true := fun c member =>
    formed.digits c (mem_append.mpr (.inr member))
  unfold finishNumber
  rw [scanFraction_text fraction follows]
  simp only
  rw [scanExponent_text formed.exponent follows]
  simp only [map_eq_none_iff]
  have value : (n.exponent.map fun e => signed e.1 (natural e.2)).getD 0 = Numeral.exponentValue n.exponent := by
    cases n.exponent <;> rfl
  rw [value]
  rfl

theorem parseNumber_text (formed : n.WellFormed) (follows : Follows rest) : parseNumber D (n.text ++ rest)
    = if n.fraction = [] ∧ n.exponent = none then (integer n.negative n.whole).map fun value => (value, rest)
    else (D.number n.literal).map fun value => (.num value, rest) := by
  rw [← finishNumber_text D formed follows]
  obtain ⟨negative, whole, fraction, exponent⟩ := n
  obtain ⟨c, more, rfl⟩ : ∃ c more, whole = c :: more := exists_cons_of_ne_nil formed.whole
  have digit : isDigit c = true := formed.digits c (.head _)
  have minus : c ≠ code '-' := by
    rintro rfl
    cases digit
  have unsigned : parseUnsigned D negative
      (c :: more ++ (Numeral.fractionText fraction ++ (Numeral.exponentText exponent ++ rest))) =
      finishNumber D negative (c :: more)
        (Numeral.fractionText fraction ++ (Numeral.exponentText exponent ++ rest)) := by
    have stops : ∀ d, (Numeral.fractionText fraction ++ (Numeral.exponentText exponent ++ rest)).head? =
        some d → isDigit d = false := by
      intro d head
      unfold Numeral.fractionText at head
      split_ifs at head with none
      · rw [nil_append] at head
        cases exponent with
        | none => exact not_digit_of_follows follows d head
        | some exponent =>
          obtain rfl : code 'e' = d := some.inj head
          decide
      · obtain rfl : code '.' = d := some.inj head
        decide
    rw [cons_append, parseUnsigned]
    split_ifs with zero
    · have alone := formed.leading (by rw [zero]; rfl)
      rw [zero] at alone
      injection alone with _ nothing
      subst nothing
      rfl
    · have all : ∀ d ∈ more, isDigit d = true := fun d member =>
        formed.digits d (mem_append.mpr (.inl (.tail _ member)))
      obtain ⟨own, after⟩ := digits_append all stops
      rw [own, after]
  unfold Numeral.text Numeral.signText
  cases negative with
  | true =>
    simp only [if_true, append_assoc, cons_append, nil_append] at unsigned ⊢
    rw [parseNumber, if_pos rfl, unsigned]
  | false =>
    simp only [false_eq_true, if_false, append_assoc, cons_append, nil_append]
      at unsigned ⊢
    rw [parseNumber, if_neg minus, unsigned]

theorem parsePlain_text (formed : n.WellFormed) (rest : Text) :
    parsePlain D (n.text ++ rest) = parseNumber D (n.text ++ rest) := by
  obtain ⟨negative, whole, fraction, exponent⟩ := n
  obtain ⟨c, more, rfl⟩ : ∃ c more, whole = c :: more := exists_cons_of_ne_nil formed.whole
  have digit : isDigit c = true := formed.digits c (.head _)
  have other : ∀ d : CodePoint, isDigit d = false → (d == c) = false := by
    intro d wrong
    rw [beq_eq_false_iff_ne]
    rintro rfl
    rw [digit] at wrong
    cases wrong
  have none : (words D).find? (fun word => word.1.isPrefixOf
      (Numeral.text ⟨negative, c :: more, fraction, exponent⟩ ++ rest)) = none := by
    have minus : ∀ d : CodePoint, isDigit d = false → d ≠ code '-' → (d == code '-') = false :=
      fun d _ different => beq_eq_false_iff_ne.mpr different
    cases negative with
    | true =>
      simp only [Numeral.text, Numeral.signText, if_true, words, Documents.text, cons_append,
        nil_append, map_cons, map_nil, find?_cons, find?_nil, String.reduceToList,
        isPrefixOf_cons_cons, minus (code 'n') (by decide) (by decide),
        minus (code 't') (by decide) (by decide), minus (code 'f') (by decide) (by decide),
        minus (code 'N') (by decide) (by decide), minus (code 'I') (by decide) (by decide),
        other (code 'I') (by decide), Bool.false_and, Bool.and_false]
    | false =>
      simp only [Numeral.text, Numeral.signText, false_eq_true, if_false, words, Documents.text,
        cons_append, nil_append, map_cons, map_nil, find?_cons, find?_nil,
        String.reduceToList, isPrefixOf_cons_cons, other (code 'n') (by decide),
        other (code 't') (by decide), other (code 'f') (by decide), other (code 'N') (by decide),
        other (code 'I') (by decide), other (code '-') (by decide), Bool.false_and]
  unfold parsePlain
  rw [none]

theorem natural_code (chars : List Char) : natural (chars.map code) = Nat.ofDigitChars 10 chars 0 := by
  unfold natural Nat.ofDigitChars
  rw [foldl_map]
  rfl

theorem natural_naturalText (n : ℕ) : natural (naturalText n) = n := by
  rw [naturalText, natural_code, Nat.ofDigitChars_ten_toDigits]

theorem isDigit_code {c : Char} (digit : c.isDigit = true) : isDigit (code c) = true := by
  simp only [Char.isDigit, and_eq_true, decide_eq_true_eq, ge_iff_le, UInt32.le_iff_toNat_le] at digit
  simp only [isDigit, decide_eq_true_eq]
  exact digit

theorem isDigit_naturalText {n : ℕ} {c : CodePoint} (member : c ∈ naturalText n) : isDigit c = true := by
  obtain ⟨d, digit, rfl⟩ := mem_map.1 member
  exact isDigit_code (Nat.isDigit_of_mem_toDigits (by decide) (by decide) digit)

theorem naturalText_ne_nil (n : ℕ) : naturalText n ≠ [] := by
  obtain ⟨c, rest, is, -⟩ := toDigits_head n
  simp [naturalText, is]

theorem naturalText_leading {n : ℕ} (zero : (naturalText n).head? = some (code '0')) : naturalText n = [code '0'] := by
  obtain ⟨c, rest, is, lead⟩ := toDigits_head n
  rw [naturalText, is] at zero ⊢
  have same : c = '0' := code_injective (some.inj zero)
  rw [same, lead same]
  rfl

def integerNumeral (n : ℤ) : Numeral := ⟨decide (n < 0), naturalText n.natAbs, [], none⟩

theorem integerNumeral_wellFormed (n : ℤ) : (integerNumeral n).WellFormed where
  digits c member := by
    rw [integerNumeral, append_nil] at member
    exact isDigit_naturalText member
  whole := naturalText_ne_nil _
  leading := naturalText_leading
  exponent := nofun

theorem integerText_eq_ok {n : ℤ} {t : Text} (written : integerText n = .ok t) :
    t = (integerNumeral n).text ∧ (naturalText n.natAbs).length ≤ maxDigits := by
  unfold integerText at written
  split_ifs at written with short negative
  · cases written
    simp [integerNumeral, Numeral.text, Numeral.signText, Numeral.fractionText, Numeral.exponentText, negative, short]
  · cases written
    simp [integerNumeral, Numeral.text, Numeral.signText, Numeral.fractionText, Numeral.exponentText, negative, short]

theorem signed_natAbs (n : ℤ) : signed (decide (n < 0)) n.natAbs = n := by
  unfold signed
  split_ifs with negative
  · have := of_decide_eq_true negative
    omega
  · have : ¬n < 0 := fun less => negative (decide_eq_true less)
    omega

theorem parsePlain_integer {n : ℤ} {t : Text} (written : integerText n = .ok t)
    (follows : Follows rest) : parsePlain D (t ++ rest) = .ok (.int n, rest) := by
  obtain ⟨rfl, short⟩ := integerText_eq_ok written
  rw [parsePlain_text D (integerNumeral_wellFormed n), parseNumber_text D (integerNumeral_wellFormed n) follows,
    if_pos ⟨rfl, rfl⟩]
  simp only [integerNumeral, integer, if_pos short, natural_naturalText, signed_natAbs]
  rfl

end VideoPoster.Documents
