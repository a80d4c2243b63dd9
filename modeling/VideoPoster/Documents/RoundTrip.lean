import VideoPoster.Documents.Dumps

/-!
# Reading what was written
-/

namespace VideoPoster.Documents
open List Nat Option

variable {n : ℕ}

theorem hexValue_digitChar (lt : n < 16) : hexValue (code (digitChar n)) = some n := by
  have all : ∀ n : Fin 16, hexValue (code (digitChar n)) = some n.val := by decide
  exact all ⟨n, lt⟩

theorem scanUnit_hexDigits (lt : n < 0x10000) (rest : Text) : scanUnit (hexDigits n ++ rest) = some (n, rest) := by
  have digit : ∀ m : ℕ, hexValue (code (digitChar (m % 16))) = some (m % 16) := fun m =>
    hexValue_digitChar (mod_lt m (by decide))
  have whole : ((n / 4096 % 16 * 16 + n / 256 % 16) * 16 + n / 16 % 16) * 16 + n % 16 = n := by omega
  simp only [hexDigits, map_cons, map_nil, cons_append, nil_append, scanUnit, hex4,
    digit, Option.bind_eq_bind, Option.bind_some, Option.pure_def, Option.map_some, whole]

theorem scanEscape_unicode (lt : n < 0x10000) (rest : Text) :
    scanEscape (code 'u' :: (hexDigits n ++ rest)) = some ((joined n rest).getD (.ofNat _ n, rest)) := by
  rw [scanEscape, if_pos rfl, scanUnit_hexDigits lt]
  rfl

theorem joined_of_not_high (other : highSurrogate n = false) (rest : Text) : joined n rest = none := by
  simp [joined, other]

theorem unicodeEscape_append (n : ℕ) (rest : Text) :
    unicodeEscape n ++ rest = code '\\' :: code 'u' :: (hexDigits n ++ rest) := rfl

variable {high : ℕ}

theorem joined_unicodeEscape (is : highSurrogate high = true) (lt : n < 0x10000) (rest : Text) :
    joined high (unicodeEscape n ++ rest) = if lowSurrogate n then some (pairOf high n, rest) else none := by
  have next : (unicodeEscape n ++ rest).take 2 = text "\\u" := rfl
  have after : (unicodeEscape n ++ rest).drop 2 = hexDigits n ++ rest := rfl
  rw [joined, if_pos ⟨is, next⟩, after, scanUnit_hexDigits lt]
  rfl

theorem ofNat_val (c : CodePoint) : Fin.ofNat 0x110000 c.val = c := Fin.ofNat_val_eq_self c

variable {c : CodePoint}

theorem high_of_large (large : ¬c.val < 0x10000) : highSurrogate (0xd800 + (c.val - 0x10000) / 0x400) = true := by
  have bound := c.isLt
  simp only [highSurrogate, decide_eq_true_eq]
  omega

theorem low_of_large (c : CodePoint) : lowSurrogate (0xdc00 + (c.val - 0x10000) % 0x400) = true := by
  simp only [lowSurrogate, decide_eq_true_eq]
  omega

variable {rest : Text}

theorem scanString_unicode (fuel : ℕ) {after : Text} (scans : scanEscape (code 'u' :: (hexDigits n ++ rest))
    = some (c, after)) : scanString (fuel + 1) (unicodeEscape n ++ rest) = push c (scanString fuel after) := by
  rw [unicodeEscape_append, scanString, if_neg (by decide), if_pos rfl, scans]

theorem scanString_pair (fuel : ℕ) {low : ℕ}
    (isHigh : highSurrogate high = true) (isLow : lowSurrogate low = true) (rest : Text) : scanString (fuel + 1)
    (unicodeEscape high ++ (unicodeEscape low ++ rest)) = push (pairOf high low) (scanString fuel rest) := by
  have bounds : high < 0x10000 ∧ low < 0x10000 := by
    simp only [highSurrogate, lowSurrogate, decide_eq_true_eq] at isHigh isLow
    omega
  refine scanString_unicode fuel ?_
  rw [scanEscape_unicode bounds.1, joined_unicodeEscape isHigh bounds.2, if_pos isLow, getD_some]

theorem scanString_escapeUnits (fuel : ℕ) (alone : joined c.val rest = none) :
    scanString (fuel + 1) (escapeUnits c ++ rest) = push c (scanString fuel rest) := by
  unfold escapeUnits
  split_ifs with small
  · refine scanString_unicode fuel ?_
    rw [scanEscape_unicode small, alone, getD_none, ofNat_val]
  · have bound := c.isLt
    rw [append_assoc, scanString_pair fuel (high_of_large small) (low_of_large c)]
    have value : 0x10000 + (0xd800 + (c.val - 0x10000) / 0x400 - 0xd800) * 0x400 +
        (0xdc00 + (c.val - 0x10000) % 0x400 - 0xdc00) = c.val := by omega
    rw [pairOf, value, ofNat_val]

theorem scanString_escape (fuel : ℕ) (ascii : Bool) (alone : ascii = true → joined c.val rest = none) :
    scanString (fuel + 1) (escape ascii c ++ rest) = push c (scanString fuel rest) := by
  have letter : ∀ {e d : CodePoint}, e ≠ code 'u' → unescape e = some d →
      scanString (fuel + 1) (code '\\' :: e :: rest) = push d (scanString fuel rest) := by
    intro e d other is
    rw [scanString, if_neg (by decide), if_pos rfl, scanEscape, if_neg other, is]
    rfl
  unfold escape
  split_ifs with mark backslash newline ret tab backspace feed unit
  · subst mark
    exact letter (by decide) (by decide)
  · subst backslash
    exact letter (by decide) (by decide)
  · subst newline
    exact letter (by decide) (by decide)
  · subst ret
    exact letter (by decide) (by decide)
  · subst tab
    exact letter (by decide) (by decide)
  · subst backspace
    exact letter (by decide) (by decide)
  · subst feed
    exact letter (by decide) (by decide)
  · refine scanString_escapeUnits fuel ?_
    rcases unit with control | ⟨escaped, -⟩
    · have other : highSurrogate c.val = false := by
        simp only [highSurrogate, decide_eq_false_iff_not]
        omega
      exact joined_of_not_high other rest
    · exact alone escaped
  · have printable : ¬c.val < 0x20 := fun control => unit (.inl control)
    rw [cons_append, nil_append, scanString, if_neg mark, if_neg backslash, if_neg printable]

def join : Text → Text
  | [] => []
  | [c] => [c]
  | c :: d :: rest =>
    if highSurrogate c.val = true ∧ lowSurrogate d.val = true then pairOf c.val d.val :: join rest
    else c :: join (d :: rest)

def reread (ascii : Bool) (chars : Text) : Text := if ascii then join chars else chars

theorem joined_escape (other : lowSurrogate c.val = false) (rest : Text) :
    joined high (escape true c ++ rest) = none := by
  cases is : highSurrogate high with
  | false => exact joined_of_not_high is _
  | true =>
    have letter : ∀ {e : CodePoint}, e ≠ code 'u' → joined high (code '\\' :: e :: rest) = none := by
      intro e different
      rw [joined, if_neg]
      rintro ⟨-, same⟩
      have second : e = code 'u' := by
        have both : [code '\\', e] = [code '\\', code 'u'] := same
        injection both with _ tail
        injection tail
      exact different second
    unfold escape
    split_ifs with mark backslash newline ret tab backspace feed unit
    · exact letter (by decide)
    · exact letter (by decide)
    · exact letter (by decide)
    · exact letter (by decide)
    · exact letter (by decide)
    · exact letter (by decide)
    · exact letter (by decide)
    · unfold escapeUnits
      split_ifs with small
      · rw [joined_unicodeEscape is small, other]
        rfl
      · have high' := high_of_large small
        have first : lowSurrogate (0xd800 + (c.val - 0x10000) / 0x400) = false := by
          simp only [highSurrogate, lowSurrogate, decide_eq_true_eq, decide_eq_false_iff_not] at high' ⊢
          omega
        have bound : 0xd800 + (c.val - 0x10000) / 0x400 < 0x10000 := by
          have := c.isLt
          omega
        rw [append_assoc, joined_unicodeEscape is bound, first]
        rfl
    · rw [joined, if_neg]
      rintro ⟨-, same⟩
      cases rest with
      | nil => cases same
      | cons d rest =>
        have both : [c, d] = [code '\\', code 'u'] := same
        injection both with first
        exact backslash first

theorem escape_of_surrogate (is : surrogate c = true) : escape true c = unicodeEscape c.val := by
  simp only [surrogate, decide_eq_true_eq] at is
  have differs : ∀ d : CodePoint, d.val < 0xd800 → c ≠ d := by
    rintro d small rfl
    omega
  unfold escape
  rw [if_neg (differs _ (by decide)), if_neg (differs _ (by decide)), if_neg (differs _ (by decide)),
    if_neg (differs _ (by decide)), if_neg (differs _ (by decide)), if_neg (differs _ (by decide)),
    if_neg (differs _ (by decide)), if_pos (.inr ⟨rfl, by omega⟩), escapeUnits, if_pos (by omega)]

theorem surrogate_of_high (is : highSurrogate c.val = true) : surrogate c = true := by
  simp only [highSurrogate, surrogate, decide_eq_true_eq] at is ⊢
  omega

theorem surrogate_of_low (is : lowSurrogate c.val = true) : surrogate c = true := by
  simp only [lowSurrogate, surrogate, decide_eq_true_eq] at is ⊢
  omega

variable {fuel : ℕ}

theorem scanString_join (chars rest : Text) (enough : chars.length < fuel) :
    scanString fuel (chars.flatMap (escape true) ++ code '"' :: rest) = .ok (join chars, rest) := by
  induction chars using join.induct generalizing fuel with
  | case1 =>
    obtain ⟨fuel, rfl⟩ := exists_eq_add_one_of_ne_zero (ne_of_gt (zero_lt_of_lt enough))
    rw [flatMap_nil, nil_append, scanString, if_pos rfl, join]
  | case2 c =>
    obtain ⟨fuel, rfl⟩ := exists_eq_add_one_of_ne_zero (ne_of_gt (zero_lt_of_lt enough))
    have alone : joined c.val (code '"' :: rest) = none := by
      rw [joined, if_neg]
      rintro ⟨-, same⟩
      cases rest <;> cases same
    rw [flatMap_cons, flatMap_nil, append_nil, scanString_escape fuel true fun _ => alone]
    obtain ⟨fuel, rfl⟩ := exists_eq_add_one_of_ne_zero (ne_of_gt (lt_of_succ_lt_succ enough))
    rw [scanString, if_pos rfl]
    rfl
  | case3 c d chars both ih =>
    obtain ⟨fuel, rfl⟩ := exists_eq_add_one_of_ne_zero (ne_of_gt (zero_lt_of_lt enough))
    have later := @ih fuel (by simp only [length_cons] at enough; omega)
    rw [flatMap_cons, flatMap_cons, escape_of_surrogate (surrogate_of_high both.1),
      escape_of_surrogate (surrogate_of_low both.2), append_assoc, append_assoc,
      scanString_pair fuel both.1 both.2, later, join, if_pos both]
    rfl
  | case4 c d chars apart ih =>
    obtain ⟨fuel, rfl⟩ := exists_eq_add_one_of_ne_zero (ne_of_gt (zero_lt_of_lt enough))
    have later := @ih fuel (by simp only [length_cons] at enough ⊢; omega)
    have alone : joined c.val ((d :: chars).flatMap (escape true) ++ code '"' :: rest) = none := by
      rw [flatMap_cons, append_assoc]
      cases high : highSurrogate c.val with
      | false => exact joined_of_not_high high _
      | true =>
        have low : lowSurrogate d.val = false := by
          cases is : lowSurrogate d.val with
          | false => rfl
          | true => exact absurd ⟨high, is⟩ apart
        exact joined_escape low _
    rw [flatMap_cons, append_assoc, scanString_escape fuel true fun _ => alone, later, join, if_neg apart]
    rfl

theorem scanString_plain (chars rest : Text) (enough : chars.length < fuel) :
    scanString fuel (chars.flatMap (escape false) ++ code '"' :: rest) = .ok (chars, rest) := by
  induction chars generalizing fuel with
  | nil =>
    obtain ⟨fuel, rfl⟩ := exists_eq_add_one_of_ne_zero (ne_of_gt enough)
    rw [flatMap_nil, nil_append, scanString, if_pos rfl]
  | cons c chars ih =>
    obtain ⟨fuel, rfl⟩ := exists_eq_add_one_of_ne_zero (ne_of_gt (zero_lt_of_lt enough))
    have later := ih (lt_of_succ_lt_succ enough)
    rw [flatMap_cons, append_assoc, scanString_escape fuel false nofun, later]
    rfl

theorem scanString_quote (ascii : Bool) (chars rest : Text) (enough : chars.length < fuel) :
    scanString fuel (chars.flatMap (escape ascii) ++ code '"' :: rest) = .ok (reread ascii chars, rest) := by
  cases ascii with
  | true => exact scanString_join chars rest enough
  | false => exact scanString_plain chars rest enough

def Clear (chars : Text) : Prop := ∀ c ∈ chars, surrogate c = false

theorem join_of_clear {chars : Text} (clear : Clear chars) : join chars = chars := by
  induction chars using join.induct with
  | case1 => rfl
  | case2 c => rfl
  | case3 c d chars both ih =>
    have other := clear c (.head _)
    rw [surrogate_of_high both.1] at other
    cases other
  | case4 c d chars apart ih =>
    rw [join, if_neg apart, ih fun e member => clear e (.tail _ member)]

variable (ascii : Bool)

theorem reread_of_clear {chars : Text} (clear : Clear chars) : reread ascii chars = chars := by
  cases ascii with
  | true => exact join_of_clear clear
  | false => rfl

theorem escape_ne_nil (c : CodePoint) : escape ascii c ≠ [] := by
  unfold escape escapeUnits unicodeEscape text
  split_ifs <;> simp

theorem length_le_escaped (chars : Text) : chars.length ≤ (chars.flatMap (escape ascii)).length := by
  induction chars with
  | nil => exact le_refl _
  | cons c chars ih =>
    have one := length_pos_of_ne_nil (escape_ne_nil ascii c)
    rw [flatMap_cons, length_append, length_cons]
    omega

theorem quote_append (chars rest : Text) :
    quote ascii chars ++ rest = code '"' :: (chars.flatMap (escape ascii) ++ code '"' :: rest) := by
  simp [quote]

theorem scanString_rest (chars rest : Text) :
    scanString ((chars.flatMap (escape ascii) ++ code '"' :: rest).length + 1)
      (chars.flatMap (escape ascii) ++ code '"' :: rest) = .ok (reread ascii chars, rest) := by
  refine scanString_quote ascii chars rest ?_
  have le := length_le_escaped ascii chars
  rw [length_append, length_cons]
  omega

end VideoPoster.Documents
