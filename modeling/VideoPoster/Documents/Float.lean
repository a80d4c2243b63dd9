import VideoPoster.Documents.Reread
import VideoPoster.Floating.Rounding
import Mathlib.Data.Nat.Prime.Basic

/-!
# Floating-point numbers of documents
-/

namespace VideoPoster.Documents
open Floating List Nat Format Entries

structure Magnitude where
  value : ℚ
  nonneg : 0 ≤ value
  represented : binary64.nearest value = value
  finite : binary64.Finite value

inductive Float64 where
  | finite (negative : Bool) (magnitude : Magnitude)
  | infinite (negative : Bool)
  | nan

def Literal.magnitude (literal : Literal) : ℚ := literal.mantissa * (10 : ℚ) ^ literal.scale

theorem Literal.magnitude_nonneg (literal : Literal) : 0 ≤ literal.magnitude :=
  mul_nonneg (cast_nonneg _) (zpow_nonneg (by norm_num) _)

namespace Float64

def ofLiteral (literal : Literal) : Float64 :=
  if finite : binary64.Finite (binary64.nearest literal.magnitude) then
    .finite literal.negative
      ⟨_, nearest_nonneg literal.magnitude_nonneg, nearest_nearest _, finite⟩
  else .infinite literal.negative

def ofConstant : Constant → Float64
  | .nan => .nan
  | .infinity => .infinite false
  | .negativeInfinity => .infinite true

def around (x : ℚ) (digits : ℕ) : List (ℕ × ℤ) :=
  let scale := Int.log 10 x + 1 - digits
  let below := ⌊x / (10 : ℚ) ^ scale⌋.toNat
  [(below, scale), if below + 1 = 10 ^ digits then (1, scale + digits) else (below + 1, scale)]

def decimalValue (decimal : ℕ × ℤ) : ℚ := decimal.1 * (10 : ℚ) ^ decimal.2

def closer (x : ℚ) (a b : ℕ × ℤ) : ℕ × ℤ :=
  if |decimalValue a - x| < |decimalValue b - x| ∨
      |decimalValue a - x| = |decimalValue b - x| ∧ a.1 % 2 = 0 then a else b

def readable (x : ℚ) (digits : ℕ) : Option (ℕ × ℤ) :=
  match (around x digits).filter fun decimal => binary64.nearest (decimalValue decimal) = x with
  | [] => none
  | decimal :: others => some (others.foldl (closer x) decimal)

def allDigits (x : ℚ) : ℕ × ℤ := (x.num.toNat * 5 ^ log2 x.den, -log2 x.den)

def shortest (x : ℚ) : ℕ × ℤ :=
  if x = 0 then (0, 0)
  else ((range 17).findSome? fun digits => readable x (digits + 1)).getD (allDigits x)

def point (decimal : ℕ × ℤ) : ℤ := (naturalText decimal.1).length + decimal.2

def zeros (n : ℕ) : Text := replicate n (code '0')

def exponentDigits (n : ℕ) : Text := zeros (2 - (naturalText n).length) ++ naturalText n

/-- With an exponent where the point is far from the digits, otherwise with a digit on both of its
sides. -/
def numeral (negative : Bool) (decimal : ℕ × ℤ) : Numeral :=
  let digits := naturalText decimal.1
  let point := point decimal
  if point ≤ -4 ∨ 16 < point then
    ⟨negative, digits.take 1, digits.drop 1, some (decide (point < 1), exponentDigits (point - 1).natAbs)⟩
  else if point ≤ 0 then ⟨negative, zeros 1, zeros (-point).toNat ++ digits, none⟩
  else if 0 ≤ decimal.2 then ⟨negative, digits ++ zeros decimal.2.toNat, zeros 1, none⟩
  else ⟨negative, digits.take point.toNat, digits.drop point.toNat, none⟩

def repr (negative : Bool) (magnitude : Magnitude) : Numeral := numeral negative (shortest magnitude.value)

def literal : Float64 → Option Literal
  | .finite negative magnitude => some (repr negative magnitude).literal
  | _ => none

theorem nearest_readable {x : ℚ} {digits : ℕ} {decimal : ℕ × ℤ} (found : readable x digits = some decimal) :
    binary64.nearest (decimalValue decimal) = x := by
  have step (a b : ℕ × ℤ) : closer x a b = a ∨ closer x a b = b := by
    unfold closer
    split_ifs
    · exact .inl rfl
    · exact .inr rfl
  have kept : ∀ (others : List (ℕ × ℤ)) (first : ℕ × ℤ), others.foldl (closer x) first ∈ first :: others := by
    intro others
    induction others with
    | nil => exact fun first => .head _
    | cons next others ih =>
      intro first
      rw [foldl_cons]
      rcases step first next with is | is
      · rw [is]
        rcases mem_cons.mp (ih first) with same | there
        · rw [same]
          exact .head _
        · exact .tail _ (.tail _ there)
      · rw [is]
        exact .tail _ (ih next)
  unfold readable at found
  split at found
  · cases found
  · next first others matching =>
      cases found
      have member := kept others first
      rw [← matching] at member
      exact of_decide_eq_true (mem_filter.mp member).2

theorem den_eq (magnitude : Magnitude) : magnitude.value.den = 2 ^ log2 magnitude.value.den := by
  obtain ⟨n, q, -, -, is⟩ := nearest_represents (F := binary64) magnitude.value
  rw [magnitude.represented] at is
  have divides : magnitude.value.den ∣ 2 ^ (-q).toNat := by
    rcases le_total 0 q with whole | fraction
    · obtain ⟨k, rfl⟩ := Int.eq_ofNat_of_zero_le whole
      have cast : (n * 2 ^ (k : ℤ) : ℚ) = ((n * 2 ^ k : ℤ) : ℚ) := by
        push_cast
        rw [zpow_natCast]
      rw [is, cast, Rat.den_intCast]
      exact one_dvd _
    · obtain ⟨k, rfl⟩ := Int.exists_eq_neg_ofNat fraction
      have cast : (n * 2 ^ (-(k : ℤ)) : ℚ) = (n : ℚ) / ((2 ^ k : ℤ) : ℚ) := by
        push_cast
        rw [zpow_neg, zpow_natCast, div_eq_mul_inv]
      rw [is, cast, neg_neg, Int.toNat_natCast]
      exact_mod_cast Rat.den_dvd n (2 ^ k)
  obtain ⟨j, -, power⟩ := (dvd_prime_pow prime_two).mp divides
  rw [power, log2_two_pow]

theorem decimalValue_allDigits (magnitude : Magnitude) :
    decimalValue (allDigits magnitude.value) = magnitude.value := by
  have den := den_eq magnitude
  have num : ((magnitude.value.num.toNat : ℕ) : ℚ) = magnitude.value.num := by
    have nonneg : 0 ≤ magnitude.value.num := Rat.num_nonneg.mpr magnitude.nonneg
    exact_mod_cast Int.toNat_of_nonneg nonneg
  unfold decimalValue allDigits
  set k := log2 magnitude.value.den
  have split : (10 : ℚ) ^ (-(k : ℤ)) = (5 ^ k)⁻¹ * (2 ^ k)⁻¹ := by
    rw [zpow_neg, zpow_natCast, ← mul_inv, ← mul_pow]
    norm_num
  calc ((magnitude.value.num.toNat * 5 ^ k : ℕ) : ℚ) * 10 ^ (-(k : ℤ))
      = magnitude.value.num * (2 ^ k)⁻¹ := by
        rw [split]
        push_cast
        rw [num]
        field_simp
    _ = magnitude.value.num / (magnitude.value.den : ℚ) := by
        rw [div_eq_mul_inv]
        congr 2
        exact_mod_cast den.symm
    _ = magnitude.value := Rat.num_div_den _

theorem nearest_shortest (magnitude : Magnitude) :
    binary64.nearest (decimalValue (shortest magnitude.value)) = magnitude.value := by
  unfold shortest
  split_ifs with zero
  · rw [zero]
    simp [decimalValue, nearest_zero]
  · cases found : (range 17).findSome? fun digits => readable magnitude.value (digits + 1) with
    | none => rw [Option.getD_none, decimalValue_allDigits, magnitude.represented]
    | some decimal =>
      obtain ⟨digits, -, is⟩ := exists_of_findSome?_eq_some found
      exact nearest_readable is

theorem shortest_zero {magnitude : Magnitude} (zero : (shortest magnitude.value).1 = 0) :
    (shortest magnitude.value).2 = 0 := by
  have nearest := nearest_shortest magnitude
  have nothing : decimalValue (shortest magnitude.value) = 0 := by
    rw [decimalValue, zero, cast_zero, zero_mul]
  rw [nothing, nearest_zero] at nearest
  rw [← nearest]
  rfl

theorem natural_append (first second : Text) :
    natural (first ++ second) = natural first * 10 ^ second.length + natural second := by
  have general : ∀ (second : Text) (n : ℕ), second.foldl (fun n c => 10 * n + (c.val - 48)) n =
      n * 10 ^ second.length + natural second := by
    intro second
    induction second with
    | nil => simp [natural]
    | cons c second ih =>
      intro n
      have once : natural (c :: second) = (10 * 0 + (c.val - 48)) * 10 ^ second.length + natural second :=
        ih _
      rw [foldl_cons, ih, once, length_cons]
      ring
  rw [natural, foldl_append, general]
  rfl

theorem natural_zeros (n : ℕ) : natural (zeros n) = 0 := by
  induction n with
  | zero => rfl
  | succ n ih =>
    have more : zeros (n + 1) = [code '0'] ++ zeros n := rfl
    rw [more, natural_append, ih]
    simp [natural, code]

theorem length_zeros (n : ℕ) : (zeros n).length = n := length_replicate ..

theorem isDigit_zeros {n : ℕ} {c : CodePoint} (member : c ∈ zeros n) : isDigit c = true := by
  rw [eq_of_mem_replicate member]
  decide

theorem length_naturalText_pos (n : ℕ) : 0 < (naturalText n).length :=
  length_pos_iff.mpr (naturalText_ne_nil n)

theorem natural_exponentDigits (n : ℕ) : natural (exponentDigits n) = n := by
  rw [exponentDigits, natural_append, natural_zeros, natural_naturalText, zero_mul, zero_add]

variable (negative : Bool)

theorem numeral_wellFormed {decimal : ℕ × ℤ} (zero : decimal.1 = 0 → decimal.2 = 0) :
    (numeral negative decimal).WellFormed := by
  have own : ∀ c ∈ naturalText decimal.1, isDigit c = true := fun c => isDigit_naturalText
  have nonempty := naturalText_ne_nil decimal.1
  have lead : (naturalText decimal.1).head? = some (code '0') → naturalText decimal.1 = [code '0'] ∧ decimal.2 = 0 := by
    intro head
    have alone := naturalText_leading head
    refine ⟨alone, zero ?_⟩
    rw [← natural_naturalText decimal.1, alone]
    decide
  unfold numeral
  simp only
  split_ifs with far below whole
  · refine ⟨fun c member => own c ?_, ?_, fun head => ?_, ?_⟩
    · rwa [take_append_drop] at member
    · simpa using nonempty
    · have first : (naturalText decimal.1).head? = some (code '0') := by
        rwa [head?_take, if_neg one_ne_zero] at head
      rw [(lead first).1]
      rfl
    · rintro negative digits ⟨⟩
      refine ⟨fun none => naturalText_ne_nil _ (append_eq_nil_iff.mp none).2, fun c member => ?_⟩
      exact (mem_append.mp member).elim isDigit_zeros isDigit_naturalText
  · refine ⟨fun c member => ?_, cons_ne_nil _ _, fun _ => rfl, nofun⟩
    rcases mem_append.mp member with there | there
    · exact isDigit_zeros there
    · exact (mem_append.mp there).elim isDigit_zeros (own c)
  · refine ⟨fun c member => ?_, ?_, fun head => ?_, nofun⟩
    · rcases mem_append.mp member with there | there
      · exact (mem_append.mp there).elim (own c) isDigit_zeros
      · exact isDigit_zeros there
    · exact fun none => nonempty (append_eq_nil_iff.mp none).1
    · have first : (naturalText decimal.1).head? = some (code '0') := by
        rwa [head?_append_of_ne_nil _ nonempty] at head
      obtain ⟨alone, nothing⟩ := lead first
      rw [alone, nothing]
      rfl
  · have positive : 0 < (point decimal).toNat := by omega
    refine ⟨fun c member => own c ?_, ?_, fun head => ?_, nofun⟩
    · rwa [take_append_drop] at member
    · intro none
      rcases take_eq_nil_iff.mp none with no | no
      · omega
      · exact nonempty no
    · have first : (naturalText decimal.1).head? = some (code '0') := by
        rwa [head?_take, if_neg positive.ne'] at head
      have := (lead first).2
      omega

theorem magnitude_numeral (decimal : ℕ × ℤ) : (numeral negative decimal).literal.magnitude = decimalValue decimal := by
  have length := length_naturalText_pos decimal.1
  unfold Literal.magnitude decimalValue
  have same : ∀ {c d : ℕ} {s t : ℤ}, c = d → s = t → (c * 10 ^ s : ℚ) = d * 10 ^ t := by
    rintro c _ s _ rfl rfl
    rfl
  unfold numeral
  simp only
  split_ifs with far below whole
  · refine same ?_ ?_
    · simp only [Numeral.literal, take_append_drop, natural_naturalText]
    · simp only [Numeral.literal, Numeral.exponentValue, natural_exponentDigits, signed, length_drop,
        decide_eq_true_eq]
      unfold point at far ⊢
      split_ifs with small <;> omega
  · refine same ?_ ?_
    · simp only [Numeral.literal, natural_append, natural_zeros, natural_naturalText, zero_mul,
        zero_add]
    · simp only [Numeral.literal, Numeral.exponentValue, length_append, length_zeros]
      unfold point at below ⊢
      omega
  · obtain ⟨n, is⟩ := Int.eq_ofNat_of_zero_le whole
    simp only [Numeral.literal, natural_append, natural_zeros, natural_naturalText, length_zeros,
      Numeral.exponentValue, is, Int.toNat_natCast, add_zero, zpow_natCast]
    push_cast
    norm_num
    ring
  · refine same ?_ ?_
    · simp only [Numeral.literal, take_append_drop, natural_naturalText]
    · simp only [Numeral.literal, Numeral.exponentValue, length_drop]
      unfold point at below ⊢
      omega

theorem negative_numeral (decimal : ℕ × ℤ) : (numeral negative decimal).literal.negative = negative := by
  unfold numeral
  simp only
  split_ifs <;> rfl

theorem numeral_fractional (decimal : ℕ × ℤ) :
    ¬((numeral negative decimal).fraction = [] ∧ (numeral negative decimal).exponent = none) := by
  have length := length_naturalText_pos decimal.1
  unfold numeral
  simp only
  split_ifs with far below whole
  · rintro ⟨-, ⟨⟩⟩
  · rintro ⟨none, -⟩
    exact naturalText_ne_nil _ (append_eq_nil_iff.mp none).2
  · rintro ⟨⟨⟩, -⟩
  · rintro ⟨none, -⟩
    have short := drop_eq_nil_iff.mp none
    unfold point at below short
    omega

variable (magnitude : Magnitude)

theorem ofLiteral_repr : ofLiteral (repr negative magnitude).literal = .finite negative magnitude := by
  have value : binary64.nearest (repr negative magnitude).literal.magnitude = magnitude.value := by
    rw [repr, magnitude_numeral, nearest_shortest]
  unfold ofLiteral
  have finite : binary64.Finite (binary64.nearest (repr negative magnitude).literal.magnitude) := by
    rw [value]
    exact magnitude.finite
  rw [dif_pos finite]
  have sign : (repr negative magnitude).literal.negative = negative := negative_numeral _ _
  rw [sign]
  congr 1
  obtain ⟨given, _, _, _⟩ := magnitude
  simp only [Magnitude.mk.injEq]
  exact value

theorem repr_wellFormed : (repr negative magnitude).WellFormed :=
  numeral_wellFormed negative shortest_zero

theorem repr_fractional : ¬((repr negative magnitude).fraction = [] ∧ (repr negative magnitude).exponent = none) :=
  numeral_fractional _ _

end Float64

def Float64.written : Float64 → Text
  | .finite negative magnitude => (Float64.repr negative magnitude).text
  | .infinite negative => text (if negative then "-Infinity" else "Infinity")
  | .nan => text "NaN"

def plain (nesting : ℕ) : Decoder Float64 where
  number literal := .ok (.ofLiteral literal)
  constant constant := .ok (.ofConstant constant)
  pairs pairs := .ok (ofPairs pairs)
  nesting := nesting

theorem ofPairs_append {first second : Entries Float64} (distinct : (first ++ second).keys.Nodup) :
    second.foldl (fun entries pair => entries.set pair.1 pair.2) first = first ++ second := by
  induction second generalizing first with
  | nil => rw [foldl_nil, append_nil]
  | cons pair second ih =>
    have fresh : pair.1 ∉ first.keys := by
      rw [Entries.keys, map_append, map_cons, nodup_append] at distinct
      exact fun member => distinct.2.2 _ member _ (.head _) rfl
    have grown : set first pair.1 pair.2 = first ++ [pair] := if_neg fresh
    rw [foldl_cons, grown, ih (by rw [append_assoc]; exact distinct), append_assoc]
    rfl

theorem plain_keeps (nesting : ℕ) : (plain nesting).Keeps := by
  intro entries distinct
  have none : (keys (N := Float64) ([] ++ entries)).Nodup := distinct
  exact congrArg Except.ok (ofPairs_append none)

variable {M : Type} {D : Decoder M}

theorem parses_repr {depth : ℕ} {negative : Bool} {magnitude : Magnitude} {value : M} (number : D.number (Float64.repr
    negative magnitude).literal = .ok value) : Parses D depth (Float64.repr negative magnitude).text (.num value) := by
  have formed := Float64.repr_wellFormed negative magnitude
  refine parses_numeral formed fun rest follows => ?_
  rw [parsePlain_text D formed, parseNumber_text D formed follows, if_neg (Float64.repr_fractional negative magnitude),
    number]
  rfl

theorem parses_written (depth nesting : ℕ) (value : Float64) :
    Parses (plain nesting) depth value.written (.num value) := by
  cases value with
  | finite negative magnitude =>
    exact parses_repr (congrArg Except.ok (Float64.ofLiteral_repr negative magnitude))
  | infinite negative =>
    cases negative with
    | true =>
      exact parses_word rfl (by decide) (by decide) (by decide) (by decide) (by decide) (by decide) fun rest _ => rfl
    | false =>
      exact parses_word rfl (by decide) (by decide) (by decide) (by decide) (by decide) (by decide) fun rest _ => rfl
  | nan =>
    exact parses_word rfl (by decide) (by decide) (by decide) (by decide) (by decide) (by decide) fun rest _ => rfl

end VideoPoster.Documents
