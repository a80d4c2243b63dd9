import VideoPoster.Documents.Value

/-!
# `loads`: reading a document

What the decoder of the standard library reads: white space between tokens, strings without control characters, the
numbers of the grammar and the three names for numbers that are not finite.
-/

namespace VideoPoster.Documents

structure Decoder (N : Type) where
  number : Literal → Except Fault N
  constant : Constant → Except Fault N
  pairs : Entries N → Except Fault (Entries N)
  nesting : ℕ

abbrev Scanned (α : Type) := Except Fault (α × Text)

def push (c : CodePoint) (scanned : Scanned Text) : Scanned Text :=
  scanned.map fun (chars, rest) => (c :: chars, rest)

def hexValue (c : CodePoint) : Option ℕ :=
  if code '0' ≤ c ∧ c ≤ code '9' then some (c.val - 48)
  else if code 'a' ≤ c ∧ c ≤ code 'f' then some (c.val - 87)
  else if code 'A' ≤ c ∧ c ≤ code 'F' then some (c.val - 55)
  else none

def hex4 (a b c d : CodePoint) : Option ℕ := do
  let a ← hexValue a
  let b ← hexValue b
  let c ← hexValue c
  let d ← hexValue d
  pure (((a * 16 + b) * 16 + c) * 16 + d)

def scanUnit : Text → Option (ℕ × Text)
  | x :: y :: z :: w :: rest => (hex4 x y z w).map fun n => (n, rest)
  | _ => none

def unescape (c : CodePoint) : Option CodePoint :=
  if c = code '"' ∨ c = code '\\' ∨ c = code '/' then some c
  else if c = code 'b' then some 8
  else if c = code 'f' then some 12
  else if c = code 'n' then some 10
  else if c = code 'r' then some 13
  else if c = code 't' then some 9
  else none

def pairOf (high low : ℕ) : CodePoint := .ofNat _ (0x10000 + (high - 0xd800) * 0x400 + (low - 0xdc00))

def joined (high : ℕ) (rest : Text) : Option (CodePoint × Text) :=
  if highSurrogate high ∧ rest.take 2 = text "\\u" then
    (scanUnit (rest.drop 2)).bind fun (low, rest) =>
      if lowSurrogate low then some (pairOf high low, rest) else none
  else none

def scanEscape : Text → Option (CodePoint × Text)
  | [] => none
  | e :: rest =>
    if e = code 'u' then
      (scanUnit rest).map fun (n, rest) => (joined n rest).getD (.ofNat _ n, rest)
    else (unescape e).map fun c => (c, rest)

def scanString : ℕ → Text → Scanned Text
  | 0, _ => .error .malformed
  | _ + 1, [] => .error .malformed
  | fuel + 1, c :: rest =>
    if c = code '"' then .ok ([], rest)
    else if c = code '\\' then
      match scanEscape rest with
      | none => .error .malformed
      | some (c, rest) => push c (scanString fuel rest)
    else if c.val < 0x20 then .error .malformed
    else push c (scanString fuel rest)

def isDigit (c : CodePoint) : Bool := code '0' ≤ c ∧ c ≤ code '9'

def digits (input : Text) : Text := input.takeWhile isDigit

def afterDigits (input : Text) : Text := input.dropWhile isDigit

def natural (chars : Text) : ℕ := chars.foldl (fun n c => 10 * n + (c.val - 48)) 0

def signed (negative : Bool) (n : ℕ) : ℤ := if negative then -n else n

def scanFraction : Text → Text × Text
  | [] => ([], [])
  | c :: rest =>
    if c = code '.' ∧ digits rest ≠ [] then (digits rest, afterDigits rest) else ([], c :: rest)

def scanSign : Text → Bool × Text
  | [] => (false, [])
  | c :: rest =>
    if c = code '-' then (true, rest)
    else if c = code '+' then (false, rest)
    else (false, c :: rest)

def scanExponent : Text → Option ℤ × Text
  | [] => (none, [])
  | c :: rest =>
    if (c = code 'e' ∨ c = code 'E') ∧ digits (scanSign rest).2 ≠ [] then
      (some (signed (scanSign rest).1 (natural (digits (scanSign rest).2))), afterDigits (scanSign rest).2)
    else (none, c :: rest)

def maxDigits : ℕ := 4300

variable {N : Type} (D : Decoder N)

def integer (negative : Bool) (whole : Text) : Except Fault (Value N) :=
  if whole.length ≤ maxDigits then .ok (.int (signed negative (natural whole))) else .error .digits

def finishNumber (negative : Bool) (whole rest : Text) : Scanned (Value N) :=
  let (fraction, rest) := scanFraction rest
  let (exponent, rest) := scanExponent rest
  if fraction = [] ∧ exponent = none then
    (integer negative whole).map fun value => (value, rest)
  else
    (D.number ⟨negative, natural (whole ++ fraction), exponent.getD 0 - fraction.length⟩).map
      fun value => (.num value, rest)

def parseUnsigned (negative : Bool) : Text → Scanned (Value N)
  | [] => .error .malformed
  | c :: rest =>
    if c = code '0' then finishNumber D negative [c] rest
    else if isDigit c then finishNumber D negative (c :: digits rest) (afterDigits rest)
    else .error .malformed

def parseNumber : Text → Scanned (Value N)
  | [] => .error .malformed
  | c :: rest =>
    if c = code '-' then parseUnsigned D true rest else parseUnsigned D false (c :: rest)

def isWhitespace (c : CodePoint) : Bool :=
  c = code ' ' ∨ c = code '\t' ∨ c = code '\n' ∨ c = code '\r'

def skip (input : Text) : Text := input.dropWhile isWhitespace

def words : List (Text × Except Fault (Value N)) :=
  [(text "null", .ok .null), (text "true", .ok (.bool true)), (text "false", .ok (.bool false)),
    (text "NaN", (D.constant .nan).map .num), (text "Infinity", (D.constant .infinity).map .num),
    (text "-Infinity", (D.constant .negativeInfinity).map .num)]

def parsePlain (input : Text) : Scanned (Value N) :=
  match (words D).find? fun word => word.1.isPrefixOf input with
  | some word => word.2.map fun value => (value, input.drop word.1.length)
  | none => parseNumber D input

mutual
def parseValue : ℕ → ℕ → Text → Scanned (Value N)
  | 0, _, _ => .error .malformed
  | _ + 1, _, [] => .error .malformed
  | fuel + 1, depth, c :: rest =>
    if c = code '"' then
      (scanString (rest.length + 1) rest).map fun (chars, rest) => (.str chars, rest)
    else if c = code '{' then
      if depth = 0 then .error .recursion
      else (parseObject fuel (depth - 1) (skip rest)).bind fun (pairs, rest) =>
        (D.pairs pairs).map fun entries => (.obj entries, rest)
    else if c = code '[' then
      if depth = 0 then .error .recursion
      else (parseArray fuel (depth - 1) (skip rest)).map fun (items, rest) => (.arr items, rest)
    else parsePlain D (c :: rest)

def parseObject : ℕ → ℕ → Text → Scanned (Entries N)
  | 0, _, _ => .error .malformed
  | fuel + 1, depth, input =>
    if input.head? = some (code '}') then .ok ([], input.tail) else parseMembers fuel depth input

def parseArray : ℕ → ℕ → Text → Scanned (List (Value N))
  | 0, _, _ => .error .malformed
  | fuel + 1, depth, input =>
    if input.head? = some (code ']') then .ok ([], input.tail) else parseItems fuel depth input

def parseMembers : ℕ → ℕ → Text → Scanned (Entries N)
  | 0, _, _ => .error .malformed
  | _ + 1, _, [] => .error .malformed
  | fuel + 1, depth, c :: rest =>
    if c = code '"' then
      (scanString (rest.length + 1) rest).bind fun (key, rest) =>
        if (skip rest).head? = some (code ':') then
          (parseValue fuel depth (skip (skip rest).tail)).bind fun (value, rest) =>
            if (skip rest).head? = some (code '}') then .ok ([(key, value)], (skip rest).tail)
            else if (skip rest).head? = some (code ',') then
              (parseMembers fuel depth (skip (skip rest).tail)).map fun (entries, rest) =>
                ((key, value) :: entries, rest)
            else .error .malformed
        else .error .malformed
    else .error .malformed

def parseItems : ℕ → ℕ → Text → Scanned (List (Value N))
  | 0, _, _ => .error .malformed
  | fuel + 1, depth, input =>
    (parseValue fuel depth input).bind fun (value, rest) =>
      if (skip rest).head? = some (code ']') then .ok ([value], (skip rest).tail)
      else if (skip rest).head? = some (code ',') then
        (parseItems fuel depth (skip (skip rest).tail)).map fun (items, rest) =>
          (value :: items, rest)
      else .error .malformed
end

def loads (input : Text) : Except Fault (Value N) :=
  if input.head? = some 0xfeff then .error .malformed
  else
    (parseValue D (3 * input.length + 3) D.nesting (skip input)).bind fun (value, rest) =>
      if skip rest = [] then .ok value else .error .malformed

end VideoPoster.Documents
