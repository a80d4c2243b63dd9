import Mathlib.Data.List.Lex
import Mathlib.Data.List.Nodup
import Mathlib.Data.List.Sort
import Mathlib.Data.Int.Notation

/-!
# Documents
-/

namespace VideoPoster.Documents

abbrev CodePoint := Fin 0x110000

abbrev Text := List CodePoint

instance neZeroCodePoints : @NeZero ℕ Zero.ofOfNat0 0x110000 := ⟨by decide⟩

instance lawfulCodePoint : LawfulBEq CodePoint := inferInstance

instance lawfulText : LawfulBEq Text := inferInstance

def code (c : Char) : CodePoint := ⟨c.toNat, by have := c.valid; unfold Char.toNat; rcases this with h | h <;> omega⟩

def text (s : String) : Text := s.toList.map code

def highSurrogate (n : ℕ) : Bool := 0xd800 ≤ n ∧ n ≤ 0xdbff

def lowSurrogate (n : ℕ) : Bool := 0xdc00 ≤ n ∧ n ≤ 0xdfff

def surrogate (c : CodePoint) : Bool := 0xd800 ≤ c.val ∧ c.val ≤ 0xdfff

theorem code_injective : Function.Injective code := by
  intro c d same
  have equal : c.toNat = d.toNat := congrArg (fun p : CodePoint => p.val) same
  rw [← Char.ofNat_toNat c, equal, Char.ofNat_toNat]

theorem text_injective : Function.Injective text := by
  intro s t same
  exact String.toList_injective (List.map_injective_iff.mpr code_injective same)

inductive Value (N : Type) where
  | null
  | bool (value : Bool)
  | int (value : ℤ)
  | num (value : N)
  | str (value : Text)
  | arr (items : List (Value N))
  | obj (entries : List (Text × Value N))

inductive Fault where
  | malformed
  /-- More digits than an integer is converted with. -/
  | digits
  | recursion
  /-- A hook of the decoder raised. -/
  | refused
  | notFinite
  | notSerializable
  | surrogate

structure Literal where
  negative : Bool
  mantissa : ℕ
  scale : ℤ

inductive Constant where
  | nan | infinity | negativeInfinity

variable {N : Type}

abbrev Entries (N : Type) := List (Text × Value N)

namespace Entries

def get (entries : Entries N) (key : Text) : Option (Value N) :=
  (entries.find? fun entry => entry.1 = key).map Prod.snd

def keys (entries : Entries N) : List Text := entries.map Prod.fst

def set (entries : Entries N) (key : Text) (value : Value N) : Entries N :=
  if key ∈ entries.keys then entries.map fun entry => if entry.1 = key then (key, value) else entry
  else entries ++ [(key, value)]

def ofPairs (pairs : Entries N) : Entries N :=
  pairs.foldl (fun entries pair => entries.set pair.1 pair.2) []

def keysAre (entries : Entries N) (names : List Text) : Bool :=
  names.all (· ∈ entries.keys) && entries.keys.all (· ∈ names)

end Entries
end VideoPoster.Documents
