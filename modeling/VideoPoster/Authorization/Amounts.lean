import Mathlib.Tactic.Ring
import VideoPoster.Authorization.Saga
import VideoPoster.Encoding.JsonText

/-!
# `_positive_usd`
-/

namespace VideoPoster.Authorization
open Python Encoding Nat Decimal Option List

def halfEven (numerator unit : ℕ) : ℕ :=
  if unit < 2 * (numerator % unit) ∨ 2 * (numerator % unit) = unit ∧ numerator / unit % 2 = 1 then
    numerator / unit + 1
  else numerator / unit

variable {unit : ℕ}

theorem halfEven_close (numerator : ℕ) (positive : 0 < unit) : 2 * numerator ≤ (2 * halfEven numerator unit + 1)
    * unit ∧ 2 * (halfEven numerator unit * unit) ≤ 2 * numerator + unit := by
  have split := div_add_mod numerator unit
  have small := mod_lt numerator positive
  rw [mul_comm] at split
  unfold halfEven
  split_ifs with up
  · constructor
    · nlinarith
    · have half : unit ≤ 2 * (numerator % unit) := by
        rcases up with above | ⟨tie, -⟩
        · exact above.le
        · exact tie.ge
      nlinarith
  · constructor
    · have half : 2 * (numerator % unit) ≤ unit := by
        by_contra above
        exact up (.inl (not_le.mp above))
      nlinarith
    · omega

variable {n : ℕ}

theorem halfEven_eq {numerator : ℕ} (above : 2 * numerator < (2 * n + 1) * unit)
    (below : 2 * (n * unit) < 2 * numerator + unit) : halfEven numerator unit = n := by
  have positive : 0 < unit := pos_of_ne_zero fun zero => by simp [zero] at above
  obtain ⟨upper, lower⟩ := halfEven_close numerator positive
  have low : n < halfEven numerator unit + 1 := by
    have scaled : (2 * n) * unit < (2 * (halfEven numerator unit + 1)) * unit := by nlinarith
    have := lt_of_mul_lt_mul_right scaled
    omega
  have high : halfEven numerator unit < n + 1 := by
    have scaled : (2 * halfEven numerator unit) * unit < (2 * (n + 1)) * unit := by nlinarith
    have := lt_of_mul_lt_mul_right scaled
    omega
  omega

theorem halfEven_mul (n : ℕ) (positive : 0 < unit) : halfEven (n * unit) unit = n := by
  refine halfEven_eq ?_ ?_ <;> nlinarith

def etiny : ℤ := -1000026

def emax : ℤ := 999999

def excess (coefficient : ℕ) (exponent : ℤ) : ℕ :=
  (max ((Decimal.digits coefficient : ℤ) - precision) (etiny - exponent)).toNat

def inContext (coefficient : ℕ) (exponent : ℤ) : Result (ℕ × ℤ) := do
  let kept := halfEven coefficient (10 ^ excess coefficient exponent)
  let shifted := exponent + excess coefficient exponent
  require (shifted + Decimal.digits kept ≤ emax + 1) ⟨.other "Overflow", "above Emax"⟩
  pure (kept, shifted)

def integer (coefficient : ℕ) (exponent : ℤ) : Option ℕ :=
  if 0 ≤ exponent then some (coefficient * 10 ^ exponent.toNat)
  else if 10 ^ (-exponent).toNat ∣ coefficient then some (coefficient / 10 ^ (-exponent).toNat)
  else none

def millionths (coefficient : ℕ) (exponent : ℤ) : ℕ :=
  if 0 ≤ exponent + 6 then coefficient * 10 ^ (exponent + 6).toNat
  else halfEven coefficient (10 ^ (-(exponent + 6)).toNat)

variable {c : ℕ} {e : ℤ}

theorem excess_eq_zero (short : c < 10 ^ 28) (fine : etiny ≤ e) : excess c e = 0 := by
  have digits := (digits_le_iff (n := 28) (by norm_num)).mpr short
  unfold excess precision
  omega

theorem inContext_short (short : c < 10 ^ 28) (fine : etiny ≤ e) (low : e ≤ 0) : inContext c e = .ok (c, e) := by
  have digits := (digits_le_iff (n := 28) (by norm_num)).mpr short
  have exact : halfEven c (10 ^ 0) = c := by simpa using halfEven_mul c (one_pos)
  have fits : e + ((0 : ℕ) : ℤ) + (Decimal.digits c : ℤ) ≤ emax + 1 := by
    unfold emax
    push_cast
    omega
  unfold inContext
  rw [excess_eq_zero short fine, exact]
  simp only [bind_eq_ok, require_eq_ok, exists_const]
  exact ⟨fits, by simp⟩

def sixDigits (n : ℕ) : List Char :=
  [n / 100000, n / 10000, n / 1000, n / 100, n / 10, n].map fun d => digitChar (d % 10)

def sixPlaces (n : ℕ) : String :=
  .ofList (toDigits 10 (n / 1000000) ++ '.' :: sixDigits n)

/-- `datetime.fromisoformat` has no zone, or denotes a moment, which may have no UTC calendar. -/
inductive Expiry where
  | naive
  | aware (microseconds : ℤ)
  | outOfRange

structure Texts where
  decimal : String → Option Decimal
  decimal_sixPlaces : ∀ n, decimal (sixPlaces n) = some (.finite false n (-6))
  fromisoformat : String → Option Expiry
  isoformat : ℤ → String
  /-- What is written in UTC is read back. -/
  fromisoformat_isoformat : ∀ {text microseconds}, fromisoformat text = some (.aware microseconds) →
    fromisoformat (isoformat microseconds) = some (.aware microseconds)

def Texts.amount (T : Texts) : JsonText.Value → Option Decimal
  | .int n => if n.natAbs < 10 ^ 4300 then some (.finite (n < 0) n.natAbs 0) else none
  | .float mantissa scale => some (.finite (mantissa < 0) mantissa.natAbs scale)
  | .nonFinite => some .nan
  | .str text => T.decimal text
  | _ => none

def maxUnits : ℕ := 2 ^ 63 - 1

def checkedUnits (label : String) (coefficient : ℕ) (exponent : ℤ) : Result String := do
  let product ← inContext (coefficient * 1000000) exponent
  match integer product.1 product.2 with
  | none => .error (authorizationError
      (label ++ " must be a positive finite USD decimal with at most six decimals"))
  | some units => do
    require (units ≤ maxUnits) (authorizationError (label ++ " exceeds ledger range"))
    pure (sixPlaces (millionths coefficient exponent))

def positiveUsd (T : Texts) (value : JsonText.Value) (label : String) : Result String :=
  match T.amount value with
  | none => .error (authorizationError (label ++ " must be a positive finite USD decimal"))
  | some (.finite false (coefficient + 1) exponent) => checkedUnits label (coefficient + 1) exponent
  | some _ => .error (authorizationError
      (label ++ " must be a positive finite USD decimal with at most six decimals"))

def Underflows (coefficient : ℕ) (exponent : ℤ) : Prop :=
  2 * (coefficient * 1000000) ≤ 10 ^ (etiny - exponent).toNat

theorem checkedUnits_eq_ok {label text : String} : checkedUnits label c e = .ok text ↔ ∃ p k units, inContext
    (c * 1000000) e = .ok (p, k) ∧ integer p k = some units ∧ units ≤ maxUnits ∧ text = sixPlaces (millionths c e) := by
  unfold checkedUnits
  rw [bind_eq_ok]
  constructor
  · rintro ⟨⟨p, k⟩, scaled, rest⟩
    cases whole : integer p k with
    | none => simp [whole] at rest
    | some units =>
      simp only [whole, bind_eq_ok, require_eq_ok, exists_const, pure_eq_ok] at rest
      exact ⟨p, k, units, scaled, whole, rest.1, rest.2.symm⟩
  · rintro ⟨p, k, units, scaled, whole, bounded, rfl⟩
    refine ⟨(p, k), scaled, ?_⟩
    simp only [whole, bind_eq_ok, require_eq_ok, exists_const, pure_eq_ok]
    exact ⟨bounded, trivial⟩

theorem checkedUnits_millionths (label : String) (bounded : n ≤ maxUnits) :
    checkedUnits label n (-6) = .ok (sixPlaces n) := by
  have short : n * 1000000 < 10 ^ 28 := by
    unfold maxUnits at bounded
    omega
  have whole : integer (n * 1000000) (-6) = some n := by
    unfold integer
    rw [if_neg (by norm_num), show (10 ^ (-(-6 : ℤ)).toNat : ℕ) = 1000000 from rfl,
      if_pos (Nat.dvd_mul_left _ _), Nat.mul_div_cancel _ (by norm_num)]
  refine checkedUnits_eq_ok.2 ⟨_, _, n, inContext_short short (by norm_num [etiny]) (by norm_num), whole, bounded, ?_⟩
  simp [millionths]

theorem halfEven_le {d m : ℕ} (below : c ≤ m * 10 ^ d) : halfEven c (10 ^ d) ≤ m := by
  have positive : 0 < 10 ^ d := by positivity
  obtain ⟨-, lower⟩ := halfEven_close c positive
  by_contra above
  have : (m + 1) * 10 ^ d ≤ halfEven c (10 ^ d) * 10 ^ d := mul_le_mul_right _ (by omega)
  nlinarith

theorem lt_pow_digits (c : ℕ) : c < 10 ^ Decimal.digits c :=
  (Decimal.digits_le_iff (by unfold Decimal.digits; split_ifs <;> omega)).mp le_rfl

theorem pow_digits_le (positive : 0 < c) : 10 ^ (Decimal.digits c - 1) ≤ c := by
  unfold Decimal.digits
  rw [if_neg positive.ne', Nat.add_sub_cancel]
  exact pow_log_le_self 10 positive.ne'

theorem millionths_of_exact (whole : integer (c * 1000000) e = some n) : millionths c e = n := by
  unfold integer at whole
  unfold millionths
  by_cases large : 0 ≤ e
  · rw [if_pos large, some.injEq] at whole
    rw [if_pos (by omega), ← whole, show (e + 6).toNat = 6 + e.toNat by omega, pow_add]
    ring
  · rw [if_neg large] at whole
    split_ifs at whole with divides
    rw [some.injEq] at whole
    obtain ⟨q, eq⟩ := divides
    rw [eq, Nat.mul_div_cancel_left _ (by positivity)] at whole
    subst whole
    by_cases coarse : 0 ≤ e + 6
    · rw [if_pos coarse]
      have split : (1000000 : ℕ) = 10 ^ (e + 6).toNat * 10 ^ (-e).toNat := by
        rw [← pow_add, show (e + 6).toNat + (-e).toNat = 6 by omega]
        norm_num
      rw [split, ← mul_assoc, mul_comm (10 ^ (-e).toNat)] at eq
      exact eq_of_mul_eq_mul_right (by positivity) eq
    · rw [if_neg coarse]
      have split : (10 : ℕ) ^ (-e).toNat = 10 ^ (-(e + 6)).toNat * 1000000 := by
        rw [show (1000000 : ℕ) = 10 ^ 6 by norm_num, ← pow_add, show (-(e + 6)).toNat + 6 = (-e).toNat by omega]
      rw [split, mul_right_comm] at eq
      rw [eq_of_mul_eq_mul_right (by norm_num) eq, mul_comm]
      exact halfEven_mul q (by positivity)

variable {p : ℕ}

theorem inContext_eq_ok {k : ℤ} (scaled : inContext c e = .ok (p, k)) :
    p = halfEven c (10 ^ excess c e) ∧ k = e + excess c e := by
  unfold inContext at scaled
  simp only [bind_eq_ok, require_eq_ok, exists_const, pure_eq_ok, Prod.mk.injEq] at scaled
  exact ⟨scaled.2.1.symm, scaled.2.2.symm⟩

theorem integer_etiny (short : p ≤ 10 ^ 28) (whole : integer p etiny = some n) : p = 0 := by
  unfold integer at whole
  rw [if_neg (by norm_num [etiny])] at whole
  split_ifs at whole with divides
  have large : (10 : ℕ) ^ 29 ≤ 10 ^ (-etiny).toNat := Nat.pow_le_pow_right (by norm_num) (by norm_num [etiny])
  refine eq_zero_of_dvd_of_lt divides ?_
  calc p ≤ 10 ^ 28 := short
    _ < 10 ^ 29 := by norm_num
    _ ≤ 10 ^ (-etiny).toNat := large

theorem millionths_of_rounded {x : ℕ} (rounded : p = halfEven (c * 1000000) (10 ^ x)) (wide : 10 ^ 27 ≤ p)
    (whole : integer p (e + x) = some n) (bounded : n ≤ maxUnits) : millionths c e = n ∧ 0 < n := by
  have positive : 0 < p := lt_of_lt_of_le (by norm_num) wide
  unfold integer at whole
  split_ifs at whole with large divides
  · rw [some.injEq] at whole
    have : p * 1 ≤ p * 10 ^ (e + x).toNat := mul_le_mul_left p (one_le_pow _ _ (by norm_num))
    unfold maxUnits at bounded
    omega
  rw [some.injEq] at whole
  set d := (-(e + x)).toNat with depth
  obtain ⟨q, eq⟩ := divides
  rw [eq, Nat.mul_div_cancel_left _ (by positivity)] at whole
  subst whole
  have deep : 9 ≤ d := by
    by_contra shallow
    have small : (10 : ℕ) ^ d ≤ 10 ^ 8 := Nat.pow_le_pow_right (by norm_num) (by omega)
    have : p ≤ 10 ^ 8 * q := eq ▸ mul_le_mul_right q small
    unfold maxUnits at bounded
    omega
  have nonzero : 0 < q := pos_of_ne_zero fun zero => by simp [eq, zero] at positive
  refine ⟨?_, nonzero⟩
  obtain ⟨upper, lower⟩ := halfEven_close (c * 1000000) (show 0 < 10 ^ x by positivity)
  rw [← rounded, eq] at upper lower
  unfold millionths
  rw [if_neg (by omega)]
  -- one unit of what is written is a billion of the steps that were dropped
  obtain ⟨rest, exponent⟩ := Nat.exists_eq_add_of_le deep
  have unit : (10 : ℕ) ^ (-(e + 6)).toNat = 10 ^ 3 * 10 ^ rest * 10 ^ x := by
    rw [← pow_add, ← pow_add]
    congr 1
    omega
  have step : (10 : ℕ) ^ d = 10 ^ 9 * 10 ^ rest := by rw [exponent, pow_add]
  rw [step] at upper lower
  rw [unit]
  have finer : 1 ≤ 10 ^ rest := one_le_pow _ _ (by norm_num)
  have some_unit : 0 < 10 ^ x := by positivity
  generalize (10 : ℕ) ^ x = u at *
  generalize (10 : ℕ) ^ rest = r at *
  have scaled : u ≤ r * u := Nat.le_mul_of_pos_left u finer
  refine halfEven_eq ?_ ?_
  · nlinarith
  · nlinarith

theorem excess_of_normal (normal : etiny - e < (Decimal.digits c : ℤ) - precision)
    (dropped : 0 < excess c e) : (excess c e : ℤ) = Decimal.digits c - precision := by
  unfold excess at dropped ⊢
  rw [max_eq_left normal.le] at dropped ⊢
  generalize (Decimal.digits c : ℤ) - precision = beyond at dropped ⊢
  omega

theorem checkedUnits_text {label text : String} (positive : 0 < c) (accepted : checkedUnits label c e = .ok text) :
    Underflows c e ∧ text = sixPlaces 0 ∨ ¬ Underflows c e ∧ ∃ n, 0 < n ∧ n ≤ maxUnits ∧ text = sixPlaces n := by
  obtain ⟨p, k, n, scaled, whole, bounded, rfl⟩ := checkedUnits_eq_ok.1 accepted
  obtain ⟨rfl, rfl⟩ := inContext_eq_ok scaled
  have upper := lt_pow_digits (c * 1000000)
  have lower := pow_digits_le (show 0 < c * 1000000 by omega)
  unfold Underflows
  rcases Nat.eq_zero_or_pos (excess (c * 1000000) e) with exact | dropped
  · -- the product is exact
    have same : halfEven (c * 1000000) (10 ^ 0) = c * 1000000 := by simpa using halfEven_mul _ one_pos
    rw [exact, same, cast_zero, add_zero] at whole
    have written := millionths_of_exact whole
    have normal : (etiny - e).toNat = 0 := by
      unfold excess at exact
      omega
    refine .inr ⟨by rw [normal]; omega, n, pos_of_ne_zero fun zero => ?_, bounded, by rw [written]⟩
    unfold integer at whole
    split_ifs at whole with large divides
    · have : 0 < c * 1000000 * 10 ^ e.toNat := by positivity
      simp only [some.injEq] at whole
      omega
    · simp only [some.injEq] at whole
      rw [zero] at whole
      have := eq_zero_of_dvd_of_div_eq_zero divides whole
      omega
  by_cases subnormal : (Decimal.digits (c * 1000000) : ℤ) - precision ≤ etiny - e
  · -- the digits below the least exponent are dropped, and no others are left
    have depth : excess (c * 1000000) e = (etiny - e).toNat := by
      unfold excess
      rw [max_eq_right subnormal]
    have last : e + ((excess (c * 1000000) e : ℕ) : ℤ) = etiny := by omega
    rw [last] at whole
    have short : halfEven (c * 1000000) (10 ^ excess (c * 1000000) e) ≤ 10 ^ 28 := by
      refine halfEven_le (upper.le.trans ?_)
      rw [← pow_add]
      refine Nat.pow_le_pow_right (by norm_num) ?_
      unfold precision at subnormal
      omega
    have zero := integer_etiny short whole
    obtain ⟨half, -⟩ := halfEven_close (c * 1000000) (show 0 < 10 ^ excess (c * 1000000) e by positivity)
    rw [zero, mul_zero, zero_add, one_mul, depth] at half
    refine .inl ⟨half, ?_⟩
    have tiny : ¬ 0 ≤ e + 6 := by
      unfold etiny at last
      omega
    unfold millionths
    rw [if_neg tiny]
    have deeper : (etiny - e).toNat ≤ (-(e + 6)).toNat := by
      unfold etiny
      omega
    have small : (10 : ℕ) ^ (etiny - e).toNat ≤ 10 ^ (-(e + 6)).toNat := Nat.pow_le_pow_right (by norm_num) deeper
    congr 1
    refine halfEven_eq ?_ ?_
    · omega
    · have : 0 < 10 ^ (-(e + 6)).toNat := by positivity
      omega
  · -- the digits beyond the precision are dropped
    have depth := excess_of_normal (lt_of_not_ge subnormal) dropped
    have wide : 10 ^ 27 ≤ halfEven (c * 1000000) (10 ^ excess (c * 1000000) e) := by
      have enough : 10 ^ 27 * 10 ^ excess (c * 1000000) e ≤ c * 1000000 := by
        rw [← pow_add]
        refine le_trans (Nat.pow_le_pow_right (by norm_num) ?_) lower
        unfold precision at depth
        omega
      obtain ⟨half, -⟩ := halfEven_close (c * 1000000) (show 0 < 10 ^ excess (c * 1000000) e by positivity)
      by_contra narrow
      have : (halfEven (c * 1000000) (10 ^ excess (c * 1000000) e) + 1) * 10 ^ excess (c * 1000000) e ≤
          10 ^ 27 * 10 ^ excess (c * 1000000) e := mul_le_mul_right _ (by omega)
      have unit : 0 < 10 ^ excess (c * 1000000) e := by positivity
      nlinarith
    obtain ⟨written, nonzero⟩ := millionths_of_rounded rfl wide whole bounded
    refine .inr ⟨fun small => ?_, n, nonzero, bounded, by rw [written]⟩
    have below : (10 : ℕ) ^ (etiny - e).toNat ≤ 10 ^ excess (c * 1000000) e :=
      Nat.pow_le_pow_right (by norm_num) (by unfold excess; omega)
    have above : 10 ^ excess (c * 1000000) e ≤ c * 1000000 := by
      refine le_trans (Nat.pow_le_pow_right (by norm_num) ?_) lower
      unfold precision at depth
      omega
    omega

def Texts.Vanishes (T : Texts) (value : JsonText.Value) : Prop :=
  ∃ c e, T.amount value = some (.finite false (c + 1) e) ∧ Underflows (c + 1) e

variable {T : Texts} {value : JsonText.Value} {label text : String}

theorem positiveUsd_sixPlaces (positive : 0 < n) (bounded : n ≤ maxUnits) (label : String) :
    positiveUsd T (.str (sixPlaces n)) label = .ok (sixPlaces n) := by
  obtain ⟨m, rfl⟩ := exists_eq_succ_of_ne_zero positive.ne'
  unfold positiveUsd
  rw [show T.amount (.str (sixPlaces (m + 1))) = some (.finite false (m + 1) (-6)) from T.decimal_sixPlaces _]
  exact checkedUnits_millionths label bounded

theorem positiveUsd_again (accepted : positiveUsd T value label = .ok text) :
    positiveUsd T (.str text) label = .ok text ↔ ¬ T.Vanishes value := by
  unfold positiveUsd at accepted
  split at accepted
  · cases accepted
  · rename_i c e read
    have vanishes : T.Vanishes value ↔ Underflows (c + 1) e := by
      constructor
      · rintro ⟨c', e', read', small⟩
        cases read.symm.trans read'
        exact small
      · intro small
        exact ⟨c, e, read, small⟩
    rw [vanishes]
    rcases checkedUnits_text (succ_pos c) accepted with ⟨small, rfl⟩ | ⟨normal, n, positive, bounded, rfl⟩
    · refine iff_of_false (fun again => ?_) (not_not_intro small)
      unfold positiveUsd at again
      rw [show T.amount (.str (sixPlaces 0)) = some (.finite false 0 (-6)) from T.decimal_sixPlaces 0] at again
      cases again
    · exact iff_of_true (positiveUsd_sixPlaces positive bounded label) normal
  · cases accepted

def readDecimal (text : String) : Option Decimal :=
  match JsonText.parseNumber text.toList with
  | some (.int n, []) => some (.finite (n < 0) n.natAbs 0)
  | some (.float mantissa scale, []) => some (.finite (mantissa < 0) mantissa.natAbs scale)
  | _ => none

theorem sixDigits_isDigit (n : ℕ) : ∀ c ∈ sixDigits n, c.isDigit = true := by
  intro c member
  obtain ⟨d, -, rfl⟩ := mem_map.mp member
  exact (by decide : ∀ k < 10, (digitChar k).isDigit = true) _ (mod_lt _ (by norm_num))

theorem natural_places (n : ℕ) : JsonText.natural (toDigits 10 (n / 1000000) ++ sixDigits n) = n := by
  have value := ofDigitChars_ten_toDigits (n := n / 1000000)
  unfold JsonText.natural sixDigits
  rw [ofDigitChars_append, value]
  simp only [map_cons, map_nil, ofDigitChars_cons_digitChar_of_lt_ten (mod_lt _ (by norm_num)),
    ofDigitChars_nil]
  omega

theorem finishNumber_places (whole : List Char) (n : ℕ) : JsonText.finishNumber false whole ('.' :: sixDigits n) =
      (.float (JsonText.natural (whole ++ sixDigits n)) (-6), []) := by
  have own : JsonText.digits (sixDigits n) = sixDigits n := by
    have taken := @List.takeWhile_append_of_pos _ _ _ [] (sixDigits_isDigit n)
    simpa [JsonText.digits] using taken
  have after : JsonText.afterDigits (sixDigits n) = [] := by
    have dropped := @List.dropWhile_append_of_pos _ _ _ [] (sixDigits_isDigit n)
    simpa [JsonText.afterDigits] using dropped
  have some_digit : sixDigits n ≠ [] := by simp [sixDigits]
  simp only [JsonText.finishNumber, JsonText.scanFraction, own, after, some_digit, if_false, JsonText.scanExponent,
    false_and, JsonText.signed]
  simp [sixDigits]

theorem readDecimal_sixPlaces (n : ℕ) : readDecimal (sixPlaces n) = some (.finite false n (-6)) := by
  have all : ∀ c ∈ toDigits 10 (n / 1000000), c.isDigit := fun c member =>
    isDigit_of_mem_toDigits (by decide) (by decide) member
  have value := natural_places n
  obtain ⟨c, more, is, lead⟩ := JsonText.toDigits_head (n / 1000000)
  have digit : c.isDigit = true := all c (by rw [is]; exact .head _)
  have unsigned : JsonText.parseNumber (c :: (more ++ '.' :: sixDigits n)) =
      JsonText.parseUnsigned false (c :: (more ++ '.' :: sixDigits n)) := by
    unfold JsonText.parseNumber
    split
    · rename_i rest' same
      cases same
      cases digit
    · rfl
  have parsed : JsonText.parseNumber (c :: (more ++ '.' :: sixDigits n)) = some (.float n (-6), []) := by
    rw [unsigned, JsonText.parseUnsigned]
    rw [is] at value
    split_ifs with zero
    · obtain rfl := lead zero
      rw [nil_append, finishNumber_places, ← zero]
      rw [value]
    · have rest : ∀ d ∈ more, d.isDigit = true := fun d member => all d (by rw [is]; exact .tail _ member)
      have own : JsonText.digits (more ++ '.' :: sixDigits n) = more := by
        unfold JsonText.digits
        rw [takeWhile_append_of_pos rest]
        simp
      have after : JsonText.afterDigits (more ++ '.' :: sixDigits n) = '.' :: sixDigits n := by
        unfold JsonText.afterDigits
        rw [dropWhile_append_of_pos rest]
        simp
      rw [own, after, finishNumber_places, value]
  unfold readDecimal sixPlaces
  rw [String.toList_ofList, is, cons_append, parsed]
  simp

end VideoPoster.Authorization
