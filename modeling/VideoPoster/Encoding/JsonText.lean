import Mathlib.Data.List.Nodup
import Mathlib.Data.Int.Notation
import VideoPoster.Encoding.Base64

/-!
# The text of JSON
-/

namespace VideoPoster.Encoding.JsonText
open Nat List

inductive Value where
  | null
  | bool (value : Bool)
  | int (value : ℤ)
  /-- `mantissa * 10 ^ scale`. -/
  | float (mantissa scale : ℤ)
  | nonFinite
  | str (value : String)
  | arr (items : List Value)
  | obj (entries : List (String × Value))

theorem fromUTF8_toUTF8 (text : String) : String.fromUTF8? text.toUTF8 = some text :=
  dif_pos (c := text.toUTF8.IsValidUTF8) text.isValidUTF8

/-! ## Strings -/

def push (c : Char) (scanned : Option (List Char × List Char)) : Option (List Char × List Char) :=
  scanned.map fun (chars, rest) => (c :: chars, rest)

def hexValue (c : Char) : Option ℕ :=
  if '0' ≤ c ∧ c ≤ '9' then some (c.toNat - 48)
  else if 'a' ≤ c ∧ c ≤ 'f' then some (c.toNat - 87)
  else if 'A' ≤ c ∧ c ≤ 'F' then some (c.toNat - 55)
  else none

def hex4 (a b c d : Char) : Option ℕ := do
  let a ← hexValue a
  let b ← hexValue b
  let c ← hexValue c
  let d ← hexValue d
  pure (((a * 16 + b) * 16 + c) * 16 + d)

def unescape : Char → Option Char
  | '"' => some '"'
  | '\\' => some '\\'
  | '/' => some '/'
  | 'b' => some (.ofNat 8)
  | 'f' => some (.ofNat 12)
  | 'n' => some '\n'
  | 'r' => some '\r'
  | 't' => some '\t'
  | _ => none

def highSurrogate (n : ℕ) : Bool := 0xd800 ≤ n ∧ n ≤ 0xdbff

def lowSurrogate (n : ℕ) : Bool := 0xdc00 ≤ n ∧ n ≤ 0xdfff

def scanUnit : List Char → Option (ℕ × List Char)
  | x :: y :: z :: w :: rest => (hex4 x y z w).map fun n => (n, rest)
  | _ => none

def scanEscape : List Char → Option (Char × List Char)
  | [] => none
  | e :: rest =>
    if e = 'u' then
      match scanUnit rest with
      | none => none
      | some (n, rest) =>
        if highSurrogate n then
          if rest.take 2 = ['\\', 'u'] then
            match scanUnit (rest.drop 2) with
            | none => none
            | some (m, rest) =>
              if lowSurrogate m then
                some (.ofNat (0x10000 + (n - 0xd800) * 0x400 + (m - 0xdc00)), rest)
              else none
          else none
        else if lowSurrogate n then none
        else some (.ofNat n, rest)
    else (unescape e).map fun c => (c, rest)

def scanString : ℕ → List Char → Option (List Char × List Char)
  | 0, _ => none
  | _ + 1, [] => none
  | fuel + 1, c :: rest =>
    if c = '"' then some ([], rest)
    else if c = '\\' then
      match scanEscape rest with
      | none => none
      | some (c, rest) => push c (scanString fuel rest)
    else if c.toNat < 0x20 then none
    else push c (scanString fuel rest)

/-! ## Numbers -/

def digits (input : List Char) : List Char := input.takeWhile Char.isDigit

def afterDigits (input : List Char) : List Char := input.dropWhile Char.isDigit

def natural (chars : List Char) : ℕ := ofDigitChars 10 chars 0

def signed (negative : Bool) (n : ℕ) : ℤ := if negative then -n else n

def scanFraction : List Char → List Char × List Char
  | '.' :: rest =>
    if digits rest = [] then ([], '.' :: rest) else (digits rest, afterDigits rest)
  | input => ([], input)

def scanSign : List Char → Bool × List Char
  | '-' :: rest => (true, rest)
  | '+' :: rest => (false, rest)
  | input => (false, input)

def scanExponent : List Char → Option ℤ × List Char
  | e :: rest =>
    if (e = 'e' ∨ e = 'E') ∧ digits (scanSign rest).2 ≠ [] then
      (some (signed (scanSign rest).1 (natural (digits (scanSign rest).2))), afterDigits (scanSign rest).2)
    else (none, e :: rest)
  | [] => (none, [])

def finishNumber (negative : Bool) (whole : List Char) (rest : List Char) : Value × List Char :=
  let (fraction, rest) := scanFraction rest
  let (exponent, rest) := scanExponent rest
  if fraction = [] ∧ exponent = none then (.int (signed negative (natural whole)), rest)
  else
    (.float (signed negative (natural (whole ++ fraction))) (exponent.getD 0 - fraction.length), rest)

def parseUnsigned (negative : Bool) : List Char → Option (Value × List Char)
  | [] => none
  | c :: rest =>
    if c = '0' then some (finishNumber negative ['0'] rest)
    else if c.isDigit then
      some (finishNumber negative (c :: digits rest) (afterDigits rest))
    else none

def parseNumber : List Char → Option (Value × List Char)
  | '-' :: rest => parseUnsigned true rest
  | input => parseUnsigned false input

/-! ## Values -/

def isWhitespace (c : Char) : Bool := c = ' ' ∨ c = '\t' ∨ c = '\n' ∨ c = '\r'

def skip (input : List Char) : List Char := input.dropWhile isWhitespace

def words : List (List Char × Value) :=
  [(['n', 'u', 'l', 'l'], .null), (['t', 'r', 'u', 'e'], .bool true),
    (['f', 'a', 'l', 's', 'e'], .bool false), (['N', 'a', 'N'], .nonFinite),
    (['I', 'n', 'f', 'i', 'n', 'i', 't', 'y'], .nonFinite),
    (['-', 'I', 'n', 'f', 'i', 'n', 'i', 't', 'y'], .nonFinite)]

def parsePlain (input : List Char) : Option (Value × List Char) :=
  match words.find? fun word => word.1.isPrefixOf input with
  | some word => some (word.2, input.drop word.1.length)
  | none => parseNumber input

mutual
def parseValue : ℕ → List Char → Option (Value × List Char)
  | 0, _ => none
  | _ + 1, [] => none
  | fuel + 1, c :: rest =>
    if c = '"' then (scanString (rest.length + 1) rest).map fun (chars, rest) => (.str (.ofList chars), rest)
    else if c = '{' then
      if (skip rest).head? = some '}' then some (.obj [], (skip rest).tail)
      else
        match parseMembers fuel (skip rest) with
        | none => none
        | some (entries, rest) =>
          if (entries.map Prod.fst).Nodup then some (.obj entries, rest) else none
    else if c = '[' then
      if (skip rest).head? = some ']' then some (.arr [], (skip rest).tail)
      else (parseItems fuel (skip rest)).map fun (items, rest) => (.arr items, rest)
    else parsePlain (c :: rest)

def parseMembers : ℕ → List Char → Option (List (String × Value) × List Char)
  | 0, _ => none
  | _ + 1, [] => none
  | fuel + 1, c :: rest =>
    if c = '"' then
      match scanString (rest.length + 1) rest with
      | none => none
      | some (key, rest) =>
        if (skip rest).head? = some ':' then
          match parseValue fuel (skip (skip rest).tail) with
          | none => none
          | some (value, rest) =>
            if (skip rest).head? = some '}' then
              some ([(.ofList key, value)], (skip rest).tail)
            else if (skip rest).head? = some ',' then
              (parseMembers fuel (skip (skip rest).tail)).map fun (entries, rest) =>
                ((.ofList key, value) :: entries, rest)
            else none
        else none
    else none

def parseItems : ℕ → List Char → Option (List Value × List Char)
  | 0, _ => none
  | fuel + 1, input =>
    match parseValue fuel input with
    | none => none
    | some (value, rest) =>
      if (skip rest).head? = some ']' then some ([value], (skip rest).tail)
      else if (skip rest).head? = some ',' then
        (parseItems fuel (skip (skip rest).tail)).map fun (items, rest) => (value :: items, rest)
      else none
end

def loads (text : String) : Option Value :=
  match parseValue (text.toList.length + 1) (skip text.toList) with
  | some (value, rest) => if skip rest = [] then some value else none
  | none => none

/-! ## Writing -/

def escape (c : Char) : List Char :=
  if c = '"' then ['\\', '"']
  else if c = '\\' then ['\\', '\\']
  else if c = '\n' then ['\\', 'n']
  else if c = '\r' then ['\\', 'r']
  else if c = '\t' then ['\\', 't']
  else if c = .ofNat 8 then ['\\', 'b']
  else if c = .ofNat 12 then ['\\', 'f']
  else if c.toNat < 0x20 then
    ['\\', 'u', '0', '0', digitChar (c.toNat / 16), digitChar (c.toNat % 16)]
  else [c]

def quote (text : String) : List Char := '"' :: (text.toList.flatMap escape ++ ['"'])

inductive Scalar where
  | str (value : String)
  | nat (value : ℕ)

def Scalar.value : Scalar → Value
  | .str text => .str text
  | .nat n => .int n

def Scalar.text : Scalar → List Char
  | .str text => quote text
  | .nat n => toDigits 10 n

def dumpsMembers : List (String × Scalar) → List Char
  | [] => []
  | [entry] => quote entry.1 ++ ':' :: entry.2.text
  | entry :: next :: rest =>
    quote entry.1 ++ ':' :: (entry.2.text ++ ',' :: dumpsMembers (next :: rest))

def dumps (entries : List (String × Scalar)) : String :=
  .ofList ('{' :: (dumpsMembers entries ++ ['}']))

/-! ## Reading what was written -/

variable {n : ℕ}

theorem hexValue_digitChar (lt : n < 16) : hexValue (digitChar n) = some n := by
  have all : ∀ n : Fin 16, hexValue (digitChar n) = some n.val := by decide
  exact all ⟨n, lt⟩

theorem hex4_control (lt : n < 0x20) : hex4 '0' '0' (digitChar (n / 16)) (digitChar (n % 16)) = some n := by
  have zero : hexValue '0' = some 0 := by decide
  unfold hex4
  rw [zero, hexValue_digitChar (by omega : n / 16 < 16), hexValue_digitChar (by omega : n % 16 < 16)]
  simp only [Option.bind_eq_bind, Option.bind_some, Option.pure_def]
  congr 1
  omega

theorem scanEscape_control (lt : n < 0x20) (rest : List Char) : scanEscape
    ('u' :: '0' :: '0' :: digitChar (n / 16) :: digitChar (n % 16) :: rest) = some (.ofNat n, rest) := by
  have high : highSurrogate n = false := by
    simp only [highSurrogate, decide_eq_false_iff_not]
    omega
  have low : lowSurrogate n = false := by
    simp only [lowSurrogate, decide_eq_false_iff_not]
    omega
  simp [scanEscape, scanUnit, hex4_control lt, high, low]

theorem scanString_escape (fuel : ℕ) (c : Char) (rest : List Char) :
    scanString (fuel + 1) (escape c ++ rest) = push c (scanString fuel rest) := by
  unfold escape
  split_ifs with quote backslash newline ret tab backspace feed control
  · simp [scanString, scanEscape, unescape, quote]
  · simp [scanString, scanEscape, unescape, backslash]
  · simp [scanString, scanEscape, unescape, newline]
  · simp [scanString, scanEscape, unescape, ret]
  · simp [scanString, scanEscape, unescape, tab]
  · simp [scanString, scanEscape, unescape, backspace]
  · simp [scanString, scanEscape, unescape, feed]
  · simp [scanString, scanEscape_control control]
  · simp [scanString, quote, backslash, control]

variable {fuel : ℕ}

theorem scanString_quote (chars rest : List Char) (enough : chars.length < fuel) :
    scanString fuel (chars.flatMap escape ++ '"' :: rest) = some (chars, rest) := by
  induction chars generalizing fuel with
  | nil =>
    cases fuel with
    | zero => cases enough
    | succ fuel => simp [scanString]
  | cons c chars ih =>
    cases fuel with
    | zero => cases enough
    | succ fuel =>
      rw [flatMap_cons, append_assoc, scanString_escape, ih (lt_of_succ_lt_succ enough)]
      rfl

theorem length_le_flatMap_escape (chars : List Char) : chars.length ≤ (chars.flatMap escape).length := by
  induction chars with
  | nil => exact Nat.le_refl _
  | cons c chars ih =>
    have one : 1 ≤ (escape c).length := by
      unfold escape
      split_ifs <;> simp
    rw [flatMap_cons, length_append, length_cons]
    omega

theorem quote_append (text : String) (rest : List Char) :
    quote text ++ rest = '"' :: (text.toList.flatMap escape ++ '"' :: rest) := by
  simp [quote]

def Follows (rest : List Char) : Prop := ∃ c tail, rest = c :: tail ∧ (c = ',' ∨ c = '}')

variable {rest : List Char}

theorem finishNumber_follows (follows : Follows rest) (whole : List Char) :
    finishNumber false whole rest = (.int (natural whole), rest) := by
  obtain ⟨c, tail, rfl, rfl | rfl⟩ := follows
  · simp [finishNumber, scanFraction, scanExponent, signed]
  · simp [finishNumber, scanFraction, scanExponent, signed]

theorem digits_append {chars : List Char} (all : ∀ c ∈ chars, c.isDigit) (follows : Follows rest) :
    digits (chars ++ rest) = chars ∧ afterDigits (chars ++ rest) = rest := by
  obtain ⟨c, tail, rfl, is⟩ := follows
  have other : c.isDigit = false := by
    rcases is with rfl | rfl <;> decide
  unfold digits afterDigits
  rw [takeWhile_append_of_pos all, dropWhile_append_of_pos all]
  simp [other]

theorem toDigits_head (n : ℕ) : ∃ c rest, toDigits 10 n = c :: rest ∧ (c = '0' → rest = []) := by
  induction n using Nat.strongRecOn with
  | ind n ih =>
    rcases Nat.lt_or_ge n 10 with small | large
    · exact ⟨_, [], toDigits_of_lt_base small, fun _ => rfl⟩
    · obtain ⟨c, rest, is, lead⟩ := ih (n / 10) (by omega)
      refine ⟨c, rest ++ [digitChar (n % 10)], ?_, fun zero => ?_⟩
      · rw [toDigits_of_base_le (by decide) large, is]
        rfl
      · exfalso
        have value := ofDigitChars_ten_toDigits (n := n / 10)
        rw [is, zero, lead zero] at value
        have : n / 10 = 0 := by rw [← value]; decide
        omega

theorem parseNumber_toDigits (n : ℕ) (follows : Follows rest) :
    parseNumber (toDigits 10 n ++ rest) = some (.int n, rest) := by
  have value := ofDigitChars_ten_toDigits (n := n)
  have all : ∀ c ∈ toDigits 10 n, c.isDigit := fun c member =>
    isDigit_of_mem_toDigits (by decide) (by decide) member
  obtain ⟨c, more, is, lead⟩ := toDigits_head n
  rw [is] at value all ⊢
  have digit := all c (.head _)
  have unsigned : parseNumber (c :: more ++ rest) = parseUnsigned false (c :: (more ++ rest)) := by
    unfold parseNumber
    split
    · rename_i rest' same
      cases same
      cases digit
    · rfl
  rw [unsigned, parseUnsigned]
  split_ifs with zero
  · obtain rfl := lead zero
    rw [nil_append, finishNumber_follows follows, ← zero, natural, value]
  · obtain ⟨own, after⟩ := digits_append (fun c member => all c (.tail _ member)) follows
    rw [own, after, finishNumber_follows follows, natural, value]

theorem parsePlain_toDigits (n : ℕ) (follows : Follows rest) :
    parsePlain (toDigits 10 n ++ rest) = some (.int n, rest) := by
  have none : words.find? (fun word => word.1.isPrefixOf (toDigits 10 n ++ rest)) = none := by
    obtain ⟨c, more, is, -⟩ := toDigits_head n
    have digit : c.isDigit := isDigit_of_mem_toDigits (b := 10) (n := n) (by decide) (by decide) (is ▸ .head _)
    have other : ∀ d : Char, d.isDigit = false → (d == c) = false := by
      intro d wrong
      rw [beq_eq_false_iff_ne]
      rintro rfl
      rw [digit] at wrong
      cases wrong
    rw [is]
    simp [words, isPrefixOf, other]
  unfold parsePlain
  rw [none]
  exact parseNumber_toDigits n follows

theorem parseValue_text (scalar : Scalar) (follows : Follows rest) :
    parseValue (fuel + 1) (scalar.text ++ rest) = some (scalar.value, rest) := by
  cases scalar with
  | str text =>
    have enough : text.toList.length < (text.toList.flatMap escape ++ '"' :: rest).length + 1 := by
      have le := length_le_flatMap_escape text.toList
      rw [length_append, length_cons]
      omega
    rw [Scalar.text, quote_append, parseValue, if_pos rfl, scanString_quote _ _ enough]
    simp [Scalar.value]
  | nat n =>
    have plain := parsePlain_toDigits n follows
    obtain ⟨c, more, is, -⟩ := toDigits_head n
    have digit : c.isDigit := isDigit_of_mem_toDigits (b := 10) (n := n) (by decide) (by decide) (is ▸ .head _)
    have other : ∀ d : Char, d.isDigit = false → c ≠ d := by
      rintro d wrong rfl
      rw [digit] at wrong
      cases wrong
    rw [Scalar.text, is, cons_append, parseValue, if_neg (other _ (by decide)),
      if_neg (other _ (by decide)), if_neg (other _ (by decide))]
    rw [is, cons_append] at plain
    exact plain

theorem skip_cons {c : Char} (rest : List Char) (dark : isWhitespace c = false) : skip (c :: rest) = c :: rest := by
  simp [skip, dark]

theorem skip_text (scalar : Scalar) (rest : List Char) : skip (scalar.text ++ rest) = scalar.text ++ rest := by
  cases scalar with
  | str text =>
    rw [Scalar.text, quote_append]
    exact skip_cons _ (by decide)
  | nat n =>
    obtain ⟨c, more, is, -⟩ := toDigits_head n
    have digit : c.isDigit := isDigit_of_mem_toDigits (b := 10) (n := n) (by decide) (by decide) (is ▸ .head _)
    rw [Scalar.text, is]
    refine skip_cons _ ?_
    by_contra white
    simp only [isWhitespace, Bool.not_eq_false, decide_eq_true_eq] at white
    rcases white with rfl | rfl | rfl | rfl <;> cases digit

theorem skip_dumpsMembers (entry : String × Scalar) (entries : List (String × Scalar)) (rest : List Char) :
    skip (dumpsMembers (entry :: entries) ++ rest) = dumpsMembers (entry :: entries) ++ rest := by
  cases entries with
  | nil =>
    rw [dumpsMembers, append_assoc, quote_append]
    exact skip_cons _ (by decide)
  | cons next entries =>
    rw [dumpsMembers, append_assoc, quote_append]
    exact skip_cons _ (by decide)

def entryValue (entry : String × Scalar) : String × Value := (entry.1, entry.2.value)

theorem parseMembers_member (key : String) (scalar : Scalar) (follows : Follows rest) : parseMembers (fuel + 2) (quote
    key ++ ':' :: (scalar.text ++ rest)) = if rest.head? = some '}' then some ([(key, scalar.value)], rest.tail) else
    (parseMembers (fuel + 1) (skip rest.tail)).map fun (entries, rest) => ((key, scalar.value) :: entries, rest) := by
  have enough : key.toList.length < (key.toList.flatMap escape ++ '"' :: ':' :: (scalar.text ++ rest)).length + 1 := by
    have le := length_le_flatMap_escape key.toList
    rw [length_append, length_cons]
    omega
  have dark : skip rest = rest := by
    obtain ⟨c, tail, rfl, rfl | rfl⟩ := follows <;> exact skip_cons _ (by decide)
  have colon : skip (':' :: (scalar.text ++ rest)) = ':' :: (scalar.text ++ rest) :=
    skip_cons _ (by decide)
  rw [quote_append, parseMembers, if_pos rfl, scanString_quote _ _ enough]
  simp only [colon, head?_cons, if_true, tail_cons, skip_text, parseValue_text scalar follows,
    dark, String.ofList_toList]
  obtain ⟨c, tail, rfl, rfl | rfl⟩ := follows <;> simp

theorem parseMembers_dumps (entry : String × Scalar) (entries : List (String × Scalar)) (rest : List Char)
    (enough : entries.length < fuel) : parseMembers (fuel + 1) (dumpsMembers (entry :: entries) ++ '}' :: rest)
    = some ((entry :: entries).map entryValue, rest) := by
  induction entries generalizing fuel entry with
  | nil =>
    obtain ⟨fuel, rfl⟩ := Nat.exists_eq_add_one_of_ne_zero (Nat.ne_of_gt enough)
    have text : dumpsMembers [entry] ++ '}' :: rest =
        quote entry.1 ++ ':' :: (entry.2.text ++ '}' :: rest) := by simp [dumpsMembers]
    rw [text, parseMembers_member _ _ ⟨_, _, rfl, .inr rfl⟩]
    simp [entryValue]
  | cons next entries ih =>
    obtain ⟨fuel, rfl⟩ := Nat.exists_eq_add_one_of_ne_zero (Nat.ne_of_gt (Nat.zero_lt_of_lt enough))
    have text : dumpsMembers (entry :: next :: entries) ++ '}' :: rest = quote entry.1 ++ ':' :: (entry.2.text ++
          ',' :: (dumpsMembers (next :: entries) ++ '}' :: rest)) := by simp [dumpsMembers]
    rw [text, parseMembers_member _ _ ⟨_, _, rfl, .inl rfl⟩]
    rw [tail_cons, skip_dumpsMembers, ih next (lt_of_succ_lt_succ enough)]
    simp [entryValue]

theorem length_le_dumpsMembers (entries : List (String × Scalar)) : entries.length ≤ (dumpsMembers entries).length := by
  induction entries with
  | nil => exact Nat.le_refl _
  | cons entry entries ih =>
    cases entries with
    | nil => simp [dumpsMembers, quote]
    | cons next entries =>
      simp only [dumpsMembers, length_append, length_cons] at ih ⊢
      omega

theorem loads_dumps (entry : String × Scalar) (entries : List (String × Scalar)) (distinct : ((entry :: entries).map
    Prod.fst).Nodup) : loads (dumps (entry :: entries)) = some (.obj ((entry :: entries).map entryValue)) := by
  have keys : ((entry :: entries).map entryValue).map Prod.fst = (entry :: entries).map Prod.fst := by
    rw [map_map]
    rfl
  have long := length_le_dumpsMembers (entry :: entries)
  unfold loads dumps
  rw [String.toList_ofList, skip_cons _ (by decide)]
  have enough : entries.length < (dumpsMembers (entry :: entries) ++ ['}']).length := by
    rw [length_cons] at long
    rw [length_append]
    omega
  have open' : (skip (dumpsMembers (entry :: entries) ++ ['}'])).head? ≠ some '}' := by
    rw [skip_dumpsMembers]
    cases entries <;> simp [dumpsMembers, quote]
  rw [length_cons, parseValue, if_neg (by decide), if_pos rfl, if_neg open', skip_dumpsMembers,
    parseMembers_dumps entry entries [] enough]
  simp only
  rw [if_pos (keys ▸ distinct)]
  simp [skip]

end VideoPoster.Encoding.JsonText
