import VideoPoster.Documents.Float
import VideoPoster.Python.Decimal

/-!
# Texts of objects that are no JSON values
-/

namespace VideoPoster.Documents
open Python List Float64 Numeral Option Nat

/-! ## `repr` of a string -/

section Representation
variable (printable : CodePoint → Bool)

def hexText : ℕ → ℕ → Text
  | 0, _ => []
  | width + 1, n => code (digitChar (n / 16 ^ width % 16)) :: hexText width n

def reprEscape (mark c : CodePoint) : Text :=
  if c = mark ∨ c = code '\\' then [code '\\', c]
  else if c = code '\t' then text "\\t"
  else if c = code '\n' then text "\\n"
  else if c = code '\r' then text "\\r"
  else if c.val < 0x20 ∨ c.val = 0x7f then text "\\x" ++ hexText 2 c.val
  else if c.val < 0x7f ∨ printable c = true then [c]
  else if c.val ≤ 0xff then text "\\x" ++ hexText 2 c.val
  else if c.val ≤ 0xffff then text "\\u" ++ hexText 4 c.val
  else text "\\U" ++ hexText 8 c.val

def reprMark (chars : Text) : CodePoint :=
  if code '\'' ∈ chars ∧ code '"' ∉ chars then code '"' else code '\''

def reprText (chars : Text) : Text :=
  reprMark chars :: (chars.flatMap (reprEscape printable (reprMark chars)) ++ [reprMark chars])

def scanHex : ℕ → Text → Option (ℕ × Text)
  | 0, rest => some (0, rest)
  | _ + 1, [] => none
  | width + 1, c :: rest =>
    (hexValue c).bind fun digit => (scanHex width rest).map fun (n, rest) => (digit * 16 ^ width + n, rest)

def scanRepr : Text → Option (CodePoint × Text)
  | [] => none
  | [c] => some (c, [])
  | c :: d :: rest =>
    if c = code '\\' then
      if d = code 't' then some (code '\t', rest)
      else if d = code 'n' then some (code '\n', rest)
      else if d = code 'r' then some (code '\r', rest)
      else if d = code 'x' then (scanHex 2 rest).map fun (n, rest) => (.ofNat _ n, rest)
      else if d = code 'u' then (scanHex 4 rest).map fun (n, rest) => (.ofNat _ n, rest)
      else if d = code 'U' then (scanHex 8 rest).map fun (n, rest) => (.ofNat _ n, rest)
      else some (d, rest)
    else some (c, d :: rest)

theorem scanHex_hexText (width n : ℕ) (rest : Text) :
    scanHex width (hexText width n ++ rest) = some (n % 16 ^ width, rest) := by
  induction width with
  | zero => simp [hexText, scanHex, mod_one]
  | succ width ih =>
    rw [hexText, cons_append, scanHex, hexValue_digitChar (mod_lt _ (by decide)), bind_some, ih]
    have split : n % 16 ^ (width + 1) = n % 16 ^ width + 16 ^ width * (n / 16 ^ width % 16) := by
      rw [pow_succ, mod_mul]
    rw [map_some, split]
    simp only [some.injEq, Prod.mk.injEq, and_true]
    ring

variable {c : CodePoint}

theorem scanRepr_plain (other : c ≠ code '\\') (rest : Text) : scanRepr (c :: rest) = some (c, rest) := by
  cases rest with
  | nil => rfl
  | cons d rest => rw [scanRepr, if_neg other]

variable {mark : CodePoint}

theorem scanRepr_escape (isMark : mark = code '\'' ∨ mark = code '"') (rest : Text) :
    scanRepr (reprEscape printable mark c ++ rest) = some (c, rest) := by
  have bound := c.isLt
  have value (width : ℕ) (small : c.val < 16 ^ width) :
      (scanHex width (hexText width c.val ++ rest)).map (fun (n, rest) => (Fin.ofNat 0x110000 n, rest)) =
        some (c, rest) := by
    rw [scanHex_hexText, mod_eq_of_lt small, map_some]
    simp only [ofNat_val]
  have two : c.val ≤ 0xff → scanRepr (text "\\x" ++ hexText 2 c.val ++ rest) = some (c, rest) :=
    fun small => value 2 (by omega)
  unfold reprEscape
  split_ifs with own tab line carriage control plain byte unit
  · have letters : c ≠ code 't' ∧ c ≠ code 'n' ∧ c ≠ code 'r' ∧ c ≠ code 'x' ∧ c ≠ code 'u' ∧
        c ≠ code 'U' := by
      rcases own with rfl | rfl
      · rcases isMark with rfl | rfl <;> decide
      · decide
    obtain ⟨t, n, r, x, u, large⟩ := letters
    rw [cons_append, cons_append, nil_append, scanRepr, if_pos rfl, if_neg t, if_neg n, if_neg r,
      if_neg x, if_neg u, if_neg large]
  · rw [tab]
    rfl
  · rw [line]
    rfl
  · rw [carriage]
    rfl
  · exact two (by omega)
  · exact scanRepr_plain (fun is => own (.inr is)) rest
  · exact two byte
  · exact value 4 (by omega)
  · exact value 8 (by omega)

theorem reprEscape_starts (isMark : mark = code '\'' ∨ mark = code '"') :
    ∃ d more, reprEscape printable mark c = d :: more ∧ d ≠ mark := by
  have slash : code '\\' ≠ mark := by
    rcases isMark with rfl | rfl <;> decide
  unfold reprEscape
  split_ifs with own
  all_goals first
    | exact ⟨code '\\', _, rfl, slash⟩
    | exact ⟨c, _, rfl, fun is => own (.inl is)⟩

theorem reprMark_eq (chars : Text) : reprMark chars = code '\'' ∨ reprMark chars = code '"' := by
  unfold reprMark
  split_ifs
  · exact .inr rfl
  · exact .inl rfl

variable {printable}

variable {rest others more chars : Text}

theorem reprBody_injective (isMark : mark = code '\'' ∨ mark = code '"')
    (same : chars.flatMap (reprEscape printable mark) ++ mark :: rest =
      others.flatMap (reprEscape printable mark) ++ mark :: more) : chars = others ∧ rest = more := by
  induction chars generalizing others with
  | nil =>
    cases others with
    | nil => exact ⟨rfl, (cons.inj same).2⟩
    | cons d others =>
      obtain ⟨e, tail, is, differs⟩ := reprEscape_starts printable (c := d) isMark
      rw [flatMap_cons, is] at same
      exact absurd (cons.inj same).1.symm differs
  | cons c chars ih =>
    cases others with
    | nil =>
      obtain ⟨e, tail, is, differs⟩ := reprEscape_starts printable (c := c) isMark
      rw [flatMap_cons, is] at same
      exact absurd (cons.inj same).1 differs
    | cons d others =>
      rw [flatMap_cons, flatMap_cons, append_assoc, append_assoc] at same
      have read := congrArg scanRepr same
      rw [scanRepr_escape printable isMark, scanRepr_escape printable isMark, some.injEq, Prod.mk.injEq] at read
      obtain ⟨rfl, tails⟩ := read
      obtain ⟨rfl, after⟩ := ih tails
      exact ⟨rfl, after⟩

theorem reprText_injective (same : reprText printable chars ++ rest = reprText printable others ++ more) :
    chars = others ∧ rest = more := by
  simp only [reprText, cons_append, append_assoc, nil_append] at same
  obtain ⟨mark, body⟩ := cons.inj same
  rw [← mark] at body
  exact reprBody_injective (reprMark_eq chars) body

end Representation

/-! ## Paths -/

namespace Path

def slash : CodePoint := code '/'

def root (chars : Text) : Text :=
  if chars.head? ≠ some slash then []
  else if chars.tail.head? = some slash ∧ chars.tail.tail.head? ≠ some slash then [slash, slash]
  else [slash]

def parts (chars : Text) : List Text :=
  (chars.splitOn slash).filter fun part => part ≠ [] ∧ part ≠ text "."

def normalised (chars : Text) : Text :=
  if root chars = [] ∧ parts chars = [] then text "." else root chars ++ [slash].intercalate (parts chars)

theorem parts_slash (chars : Text) : parts (slash :: chars) = parts chars := by
  have missing : slash ∉ ([] : Text) := not_mem_nil
  have split : (slash :: chars).splitOn slash = [] :: chars.splitOn slash :=
    splitOn_append_cons_self_of_not_mem missing chars
  rw [parts, split]
  rfl

variable {chars part : Text}

theorem not_mem_of_splitOn (member : part ∈ chars.splitOn slash) : slash ∉ part := by
  induction chars generalizing part with
  | nil =>
    rw [splitOn_nil, mem_singleton] at member
    simp [member]
  | cons c chars ih =>
    rw [splitOn_cons_eq_if_modifyHead] at member
    split_ifs at member with is
    · rcases mem_cons.mp member with rfl | there
      · simp
      · exact ih there
    · have differs : c ≠ slash := by simpa using is
      cases split : chars.splitOn slash with
      | nil => exact absurd split (splitOn_ne_nil _ _)
      | cons first others =>
        rw [split, modifyHead_cons] at member
        rw [split] at ih
        rcases mem_cons.mp member with rfl | there
        · rw [mem_cons, not_or]
          exact ⟨differs.symm, ih (.head _)⟩
        · exact ih (.tail _ there)

theorem mem_parts (member : part ∈ parts chars) : slash ∉ part ∧ part ≠ [] ∧ part ≠ text "." := by
  obtain ⟨inside, keeps⟩ := mem_filter.mp member
  exact ⟨not_mem_of_splitOn inside, of_decide_eq_true keeps⟩

theorem parts_intercalate (chars : Text) : parts ([slash].intercalate (parts chars)) = parts chars := by
  by_cases none : parts chars = []
  · rw [none]
    rfl
  · rw [parts, splitOn_intercalate slash (fun part member => (mem_parts member).1) none]
    exact filter_eq_self.mpr fun part member => decide_eq_true (mem_parts member).2

theorem head_intercalate (chars : Text) : ([slash].intercalate (parts chars)).head? ≠ some slash := by
  cases is : parts chars with
  | nil => nofun
  | cons part others =>
    have member : part ∈ parts chars := by
      rw [is]
      exact .head _
    obtain ⟨clear, nonempty, -⟩ := mem_parts member
    obtain ⟨c, more, rfl⟩ := exists_cons_of_ne_nil nonempty
    rw [intercalate_cons_cons_left, head?_cons]
    exact fun same => clear (mem_cons.mpr (.inl (some.inj same).symm))

theorem root_of_head (head : chars.head? ≠ some slash) :
    root chars = [] ∧ root (slash :: chars) = [slash] ∧ root (slash :: slash :: chars) = [slash, slash] := by
  simp [root, head]

theorem root_cases (chars : Text) : root chars = [] ∨ (∃ rest, root chars = [slash] ∧ chars = slash :: rest) ∨
      ∃ rest, root chars = [slash, slash] ∧ chars = slash :: slash :: rest := by
  cases chars with
  | nil => exact .inl rfl
  | cons c chars =>
    by_cases first : c = slash
    · subst first
      cases chars with
      | nil => exact .inr (.inl ⟨_, rfl, rfl⟩)
      | cons d chars =>
        by_cases second : d = slash
        · subst second
          unfold root
          split_ifs with no two
          · exact .inl rfl
          · exact .inr (.inr ⟨_, rfl, rfl⟩)
          · exact .inr (.inl ⟨_, rfl, rfl⟩)
        · refine .inr (.inl ⟨_, ?_, rfl⟩)
          simp [root, second]
    · refine .inl ?_
      simp [root, first]

theorem normalised_normalised (chars : Text) : normalised (normalised chars) = normalised chars := by
  by_cases empty : root chars = [] ∧ parts chars = []
  · have dot : normalised chars = text "." := if_pos empty
    rw [dot]
    decide
  · have inner := parts_intercalate chars
    obtain ⟨none, one, two⟩ := root_of_head (head_intercalate chars)
    have is : normalised chars = root chars ++ [slash].intercalate (parts chars) := if_neg empty
    have kept : root (normalised chars) = root chars ∧ parts (normalised chars) = parts chars := by
      rw [is]
      rcases root_cases chars with root | ⟨_, root, -⟩ | ⟨_, root, -⟩
      · rw [root, nil_append]
        exact ⟨none, inner⟩
      · rw [root, singleton_append, parts_slash]
        exact ⟨one, inner⟩
      · rw [root, cons_append, singleton_append, parts_slash, parts_slash]
        exact ⟨two, inner⟩
    rw [normalised, kept.1, kept.2, if_neg empty, is]

theorem length_intercalate {parts : List Text} (nonempty : parts ≠ []) :
    ([slash].intercalate parts).length + 1 = (parts.map fun part => part.length + 1).sum := by
  induction parts with
  | nil => exact absurd rfl nonempty
  | cons part parts ih =>
    cases parts with
    | nil => simp
    | cons next parts =>
      have later := ih (cons_ne_nil _ _)
      rw [intercalate_cons_cons, length_append, length_append, length_singleton,
        map_cons, sum_cons, ← later]
      omega

theorem length_parts (chars : Text) : ([slash].intercalate (parts chars)).length ≤ chars.length := by
  have whole := length_intercalate (splitOn_ne_nil slash chars)
  rw [intercalate_splitOn] at whole
  have fewer : ((parts chars).map fun part => part.length + 1).sum ≤
      ((chars.splitOn slash).map fun part => part.length + 1).sum :=
    (filter_sublist.map _).sum_le_sum fun _ _ => zero_le _
  by_cases none : parts chars = []
  · rw [none]
    exact zero_le _
  · have own := (length_intercalate none).trans_le (fewer.trans_eq whole.symm)
    omega

theorem length_normalised (chars : Text) : (normalised chars).length ≤ max 1 chars.length := by
  unfold normalised
  split_ifs with empty
  · exact le_max_left _ _
  · refine le_max_of_le_right ?_
    rcases root_cases chars with root | ⟨rest, root, rfl⟩ | ⟨rest, root, rfl⟩
    · rw [root, nil_append]
      exact length_parts chars
    · have short := length_parts rest
      rw [root, parts_slash, singleton_append, length_cons, length_cons]
      omega
    · have short := length_parts rest
      rw [root, parts_slash, parts_slash, length_append, length_cons, length_cons]
      simp only [length_cons, length_nil]
      omega

end Path

structure Path where
  chars : Text
  normal : Path.normalised chars = chars
  deriving DecidableEq

def Path.of (chars : Text) : Path := ⟨Path.normalised chars, Path.normalised_normalised chars⟩

theorem Path.of_chars (path : Path) : Path.of path.chars = path := by
  obtain ⟨chars, normal⟩ := path
  simp only [Path.of, normal]

/-! ## Decimal numbers -/

def upperExponent : Option (Bool × Text) → Text
  | none => []
  | some (negative, digits) => code 'E' :: (if negative then code '-' else code '+') :: digits

def Numeral.upper (n : Numeral) : Text :=
  signText n.negative ++ (n.whole ++ (fractionText n.fraction ++ upperExponent n.exponent))

namespace Decimal

/-- How many digits stand before the point: those that the exponent puts there, or one where that is
far to the left or behind the digits. -/
def place (length : ℕ) (exponent : ℤ) : ℤ :=
  if exponent ≤ 0 ∧ -6 < length + exponent then length + exponent else 1

def scientific (length : ℕ) (exponent : ℤ) : Option (Bool × Text) :=
  if length + exponent = place length exponent then none
  else some (decide (length + exponent < place length exponent),
    naturalText (length + exponent - place length exponent).natAbs)

def numeral (negative : Bool) (coefficient : ℕ) (exponent : ℤ) : Numeral :=
  let digits := naturalText coefficient
  let place := place digits.length exponent
  if place ≤ 0 then
    ⟨negative, zeros 1, zeros (-place).toNat ++ digits, scientific digits.length exponent⟩
  else
    ⟨negative, digits.take place.toNat ++ zeros (place.toNat - digits.length),
      digits.drop place.toNat, scientific digits.length exponent⟩

def str : Decimal → Text
  | .finite negative coefficient exponent => (numeral negative coefficient exponent).upper
  | .infinite negative => signText negative ++ text "Infinity"
  | .nan => text "NaN"

def stripped : ℕ → ℕ → ℤ → ℕ × ℤ
  | 0, coefficient, exponent => (coefficient, exponent)
  | fuel + 1, coefficient, exponent =>
    if coefficient % 10 = 0 then stripped fuel (coefficient / 10) (exponent + 1)
    else (coefficient, exponent)

def normalize (coefficient : ℕ) (exponent : ℤ) : ℕ × ℤ :=
  let (coefficient, exponent) := Decimal.rounded coefficient exponent
  if coefficient = 0 then (0, 0) else stripped (Decimal.digits coefficient) coefficient exponent

def fixed (negative : Bool) (coefficient : ℕ) (exponent : ℤ) : Text :=
  let digits := naturalText coefficient
  let left := digits.length + exponent
  signText negative ++
    if 0 ≤ exponent then digits ++ zeros exponent.toNat
    else if left ≤ 0 then text "0." ++ (zeros (-left).toNat ++ digits)
    else digits.take left.toNat ++ code '.' :: digits.drop left.toNat

def scanPoint : Text → Text × Text
  | [] => ([], [])
  | c :: rest => if c = code '.' then (Documents.digits rest, afterDigits rest) else ([], c :: rest)

def ofText (chars : Text) : Option Decimal :=
  let (negative, chars) := scanSign chars
  let whole := Documents.digits chars
  let (fraction, rest) := scanPoint (afterDigits chars)
  let (exponent, rest) := scanExponent rest
  if whole ++ fraction ≠ [] ∧ rest = [] then
    some (.finite negative (natural (whole ++ fraction)) (exponent.getD 0 - fraction.length))
  else none

variable {exponent : Option (Bool × Text)}

theorem scanExponent_upper
    (all : ∀ negative digits, exponent = some (negative, digits) → digits ≠ [] ∧ ∀ c ∈ digits, isDigit c = true) :
    scanExponent (upperExponent exponent) = (exponent.map fun e => signed e.1 (natural e.2), []) := by
  cases exponent with
  | none => rfl
  | some exponent =>
    obtain ⟨negative, given⟩ := exponent
    obtain ⟨nonempty, all⟩ := all negative given rfl
    obtain ⟨own, after⟩ : digits (given ++ []) = given ∧ afterDigits (given ++ []) = [] := digits_append all nofun
    rw [append_nil] at own after
    have sign : scanSign ((if negative then code '-' else code '+') :: given) = (negative, given) := by
      cases negative <;> rfl
    rw [upperExponent, scanExponent, sign]
    simp only [own, after]
    rw [if_pos ⟨.inr trivial, nonempty⟩]
    rfl

theorem scanPoint_text {fraction : Text} (all : ∀ c ∈ fraction, isDigit c = true) :
    scanPoint (fractionText fraction ++ upperExponent exponent) = (fraction, upperExponent exponent) := by
  unfold fractionText
  split_ifs with none
  · subst none
    rw [nil_append]
    cases exponent with
    | none => rfl
    | some exponent => rw [upperExponent, scanPoint, if_neg (by decide)]
  · have stops : ∀ c, (upperExponent exponent).head? = some c → isDigit c = false := by
      intro c head
      cases exponent with
      | none => cases head
      | some exponent =>
        obtain rfl : code 'E' = c := some.inj head
        decide
    obtain ⟨own, after⟩ := digits_append all stops
    rw [cons_append, scanPoint, if_pos rfl, own, after]

theorem ofText_upper {n : Numeral} (formed : n.WellFormed) :
    ofText n.upper = some (.finite n.literal.negative n.literal.mantissa n.literal.scale) := by
  obtain ⟨c, more, is⟩ := exists_cons_of_ne_nil formed.whole
  have digit : isDigit c = true := formed.digits c (by rw [is]; exact .head _)
  have sign : scanSign n.upper =
      (n.negative, n.whole ++ (fractionText n.fraction ++ upperExponent n.exponent)) := by
    have minus : c ≠ code '-' := by
      rintro rfl
      cases digit
    have plus : c ≠ code '+' := by
      rintro rfl
      cases digit
    unfold upper signText
    cases n.negative with
    | true => rfl
    | false =>
      simp only [Bool.false_eq_true, if_false, nil_append, is, cons_append]
      rw [scanSign, if_neg minus, if_neg plus]
  have stops : ∀ d, (fractionText n.fraction ++ upperExponent n.exponent).head? = some d →
      isDigit d = false := by
    intro d head
    unfold fractionText at head
    split_ifs at head with none
    · rw [nil_append] at head
      cases exponent : n.exponent with
      | none =>
        rw [exponent] at head
        cases head
      | some exponent =>
        rw [exponent] at head
        obtain rfl : code 'E' = d := some.inj head
        decide
    · obtain rfl : code '.' = d := some.inj head
      decide
  obtain ⟨own, after⟩ := digits_append (fun d member => formed.digits d (mem_append.mpr (.inl member))) stops
  have point : scanPoint (fractionText n.fraction ++ upperExponent n.exponent) =
      (n.fraction, upperExponent n.exponent) :=
    scanPoint_text fun d member => formed.digits d (mem_append.mpr (.inr member))
  have value : (n.exponent.map fun e => signed e.1 (natural e.2)).getD 0 = exponentValue n.exponent := by
    cases n.exponent <;> rfl
  unfold ofText
  simp only [sign, own, after, point, scanExponent_upper formed.exponent]
  rw [if_pos ⟨fun nothing => formed.whole (append_eq_nil_iff.mp nothing).1, trivial⟩, value]
  rfl

theorem place_le (length : ℕ) (exponent : ℤ) (nonempty : 0 < length) : place length exponent ≤ length := by
  unfold place
  split_ifs <;> omega

theorem scientific_digits {length : ℕ} {exponent : ℤ} {negative : Bool} {digits : Text}
    (is : scientific length exponent = some (negative, digits)) : digits ≠ [] ∧ ∀ c ∈ digits, isDigit c = true := by
  unfold scientific at is
  split_ifs at is
  cases is
  exact ⟨naturalText_ne_nil _, fun c => isDigit_naturalText⟩

theorem exponentValue_scientific (length : ℕ) (exponent : ℤ) :
    exponentValue (scientific length exponent) = length + exponent - place length exponent := by
  unfold scientific
  split_ifs with same
  · rw [same, sub_self]
    rfl
  · simp only [exponentValue, natural_naturalText, signed, decide_eq_true_eq]
    split_ifs <;> omega

theorem numeral_wellFormed (negative : Bool) (coefficient : ℕ) (exponent : ℤ) :
    (numeral negative coefficient exponent).WellFormed := by
  have own : ∀ c ∈ naturalText coefficient, isDigit c = true := fun c => isDigit_naturalText
  have nonempty := naturalText_ne_nil coefficient
  have within := place_le (naturalText coefficient).length exponent (length_naturalText_pos coefficient)
  unfold numeral
  simp only
  split_ifs with below
  · refine ⟨fun c member => ?_, cons_ne_nil _ _, fun _ => rfl, fun _ _ => scientific_digits⟩
    rcases mem_append.mp member with there | there
    · exact isDigit_zeros there
    · exact (mem_append.mp there).elim isDigit_zeros (own c)
  · generalize place (naturalText coefficient).length exponent = place at within below
    have none : place.toNat - (naturalText coefficient).length = 0 := by omega
    have first : (naturalText coefficient).take place.toNat ++ zeros 0 =
        (naturalText coefficient).take place.toNat := append_nil _
    rw [none, first]
    refine ⟨fun c member => own c ?_, ?_, fun head => ?_, fun _ _ => scientific_digits⟩
    · rwa [take_append_drop] at member
    · intro nothing
      rcases take_eq_nil_iff.mp nothing with no | no
      · omega
      · exact nonempty no
    · have zero : (naturalText coefficient).head? = some (code '0') := by
        rwa [head?_take, if_neg (by omega)] at head
      have alone := naturalText_leading zero
      rw [alone] at within ⊢
      have one : place.toNat = 1 := by
        simp only [length_cons, length_nil] at within
        omega
      rw [one]
      rfl

theorem literal_numeral (negative : Bool) (coefficient : ℕ) (exponent : ℤ) :
    (numeral negative coefficient exponent).literal = ⟨negative, coefficient, exponent⟩ := by
  have within := place_le (naturalText coefficient).length exponent (length_naturalText_pos coefficient)
  have power := exponentValue_scientific (naturalText coefficient).length exponent
  unfold numeral
  simp only
  split_ifs with below
  · have value : natural (zeros 1 ++ (zeros
        (-place (naturalText coefficient).length exponent).toNat ++ naturalText coefficient)) = coefficient := by
      simp only [natural_append, natural_zeros, natural_naturalText, zero_mul, zero_add]
    simp only [Numeral.literal, value, power, length_append, length_zeros, Literal.mk.injEq, true_and]
    omega
  · generalize place (naturalText coefficient).length exponent = place at within below power
    have none : place.toNat - (naturalText coefficient).length = 0 := by omega
    have value : natural ((naturalText coefficient).take place.toNat ++ zeros 0 ++
        (naturalText coefficient).drop place.toNat) = coefficient := by
      have first : (naturalText coefficient).take place.toNat ++ zeros 0 =
          (naturalText coefficient).take place.toNat := append_nil _
      rw [first, take_append_drop, natural_naturalText]
    simp only [Numeral.literal, none, value, power, length_drop, Literal.mk.injEq, true_and]
    omega

theorem ofText_str (negative : Bool) (coefficient : ℕ) (exponent : ℤ) :
    ofText (str (.finite negative coefficient exponent)) = some (.finite negative coefficient exponent) := by
  rw [str, ofText_upper (numeral_wellFormed negative coefficient exponent), literal_numeral]

end Decimal
end VideoPoster.Documents
