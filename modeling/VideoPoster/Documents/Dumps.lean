import VideoPoster.Documents.Loads

/-!
# `dumps`: writing a document
-/

namespace VideoPoster.Documents

structure Layout where
  comma : ℕ
  colon : ℕ
  /-- Every member has a line of its own, indented so far for every container around it. -/
  indent : Option ℕ

def compact : Layout := ⟨0, 0, none⟩

def spaced : Layout := ⟨1, 1, none⟩

def indented : Layout := ⟨0, 1, some 2⟩

structure Encoder (N : Type) where
  /-- `ensure_ascii`. -/
  ascii : Bool
  number : N → Except Fault Text
  nesting : ℕ
  layout : Layout

def hexDigits (n : ℕ) : Text :=
  [n / 4096 % 16, n / 256 % 16, n / 16 % 16, n % 16].map fun digit => code (Nat.digitChar digit)

def unicodeEscape (n : ℕ) : Text := text "\\u" ++ hexDigits n

def escapeUnits (c : CodePoint) : Text :=
  if c.val < 0x10000 then unicodeEscape c.val
  else unicodeEscape (0xd800 + (c.val - 0x10000) / 0x400) ++
    unicodeEscape (0xdc00 + (c.val - 0x10000) % 0x400)

def escape (ascii : Bool) (c : CodePoint) : Text :=
  if c = code '"' then text "\\\""
  else if c = code '\\' then text "\\\\"
  else if c = code '\n' then text "\\n"
  else if c = code '\r' then text "\\r"
  else if c = code '\t' then text "\\t"
  else if c = 8 then text "\\b"
  else if c = 12 then text "\\f"
  else if c.val < 0x20 ∨ (ascii = true ∧ 0x7e < c.val) then escapeUnits c
  else [c]

def quote (ascii : Bool) (chars : Text) : Text :=
  code '"' :: (chars.flatMap (escape ascii) ++ [code '"'])

def naturalText (n : ℕ) : Text := (Nat.toDigits 10 n).map code

def integerText (n : ℤ) : Except Fault Text :=
  if (naturalText n.natAbs).length ≤ maxDigits then
    .ok (if n < 0 then code '-' :: naturalText n.natAbs else naturalText n.natAbs)
  else .error .digits

def blanks (n : ℕ) : Text := List.replicate n (code ' ')

def commas (gap : Text) : List Text → Text
  | [] => []
  | [part] => part
  | part :: next :: parts => part ++ code ',' :: (gap ++ commas gap (next :: parts))

def inOrder {α : Type} (members : List (Text × α)) : List (Text × α) :=
  members.insertionSort fun a b => a.1 ≤ b.1

def allWritten : List (Except Fault Text) → Except Fault (List Text)
  | [] => .ok []
  | part :: parts => part.bind fun part => (allWritten parts).map fun parts => part :: parts

variable {N : Type} (E : Encoder N)

def member (entry : Text × Except Fault Text) : Except Fault Text :=
  entry.2.map fun value => quote E.ascii entry.1 ++ code ':' :: (blanks E.layout.colon ++ value)

def newLine (depth : ℕ) : Text :=
  match E.layout.indent with
  | none => []
  | some indent => code '\n' :: blanks (indent * (E.nesting - depth))

def body (depth : ℕ) (parts : List Text) : Text :=
  if parts = [] then []
  else newLine E depth ++
    (commas (blanks E.layout.comma ++ newLine E depth) parts ++ newLine E (depth + 1))

mutual
def write : ℕ → Value N → Except Fault Text
  | _, .null => .ok (text "null")
  | _, .bool value => .ok (text (if value then "true" else "false"))
  | _, .int value => integerText value
  | _, .num value => E.number value
  | _, .str chars => .ok (quote E.ascii chars)
  | 0, .arr _ => .error .recursion
  | depth + 1, .arr items =>
    (allWritten (writeItems depth items)).map fun parts => code '[' :: (body E depth parts ++ [code ']'])
  | 0, .obj _ => .error .recursion
  | depth + 1, .obj entries =>
    (allWritten ((inOrder (writeEntries depth entries)).map (member E))).map
      fun parts => code '{' :: (body E depth parts ++ [code '}'])

def writeItems : ℕ → List (Value N) → List (Except Fault Text)
  | _, [] => []
  | depth, item :: items => write depth item :: writeItems depth items

def writeEntries : ℕ → Entries N → List (Text × Except Fault Text)
  | _, [] => []
  | depth, (key, value) :: entries => (key, write depth value) :: writeEntries depth entries
end

def dumps (value : Value N) : Except Fault Text := write E E.nesting value

def encoded (chars : Text) : Except Fault Text :=
  if chars.any surrogate then .error .surrogate else .ok chars

end VideoPoster.Documents
