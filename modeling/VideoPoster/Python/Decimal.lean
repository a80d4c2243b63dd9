import Mathlib.Algebra.Order.BigOperators.Group.List
import Mathlib.Data.Nat.Log
import Mathlib.Data.Rat.Defs
import Mathlib.Algebra.Order.Field.Basic
import Mathlib.Data.Rat.Cast.Order
import Mathlib.Tactic.Linarith
import Mathlib.Tactic.Positivity
import VideoPoster.Python.Basic

/-!
# `decimal.Decimal`
-/

namespace VideoPoster.Python
open Nat List

inductive Decimal where
  | finite (negative : Bool) (coefficient : ℕ) (exponent : ℤ)
  | infinite (negative : Bool)
  | nan
  deriving DecidableEq

namespace Decimal

def precision : ℕ := 28

def magnitude (coefficient : ℕ) : ℤ → ℚ
  | .ofNat e => ((coefficient * 10 ^ e : ℕ) : ℚ)
  | .negSucc e => mkRat coefficient (10 ^ (e + 1))

/-- The exact value; `0` for the special values, which `isFinite` excludes first. -/
def toRat : Decimal → ℚ
  | .finite false c e => magnitude c e
  | .finite true c e => -magnitude c e
  | _ => 0

def isFinite : Decimal → Bool
  | .finite _ _ _ => true
  | _ => false

def digits (coefficient : ℕ) : ℕ := if coefficient = 0 then 1 else log 10 coefficient + 1

def rounded (coefficient : ℕ) (exponent : ℤ) : ℕ × ℤ :=
  let excess := digits coefficient - precision
  if excess = 0 then (coefficient, exponent)
  else
    let unit := 10 ^ excess
    let quotient := coefficient / unit
    let remainder := coefficient % unit
    let up := unit < 2 * remainder ∨ 2 * remainder = unit ∧ quotient % 2 = 1
    (if up then quotient + 1 else quotient, exponent + excess)

def mul : Decimal → Decimal → Decimal
  | .finite s c e, .finite s' c' e' =>
    .finite (s != s') (rounded (c * c') (e + e')).1 (rounded (c * c') (e + e')).2
  | .nan, _ | _, .nan => .nan
  | .infinite s, .finite s' c _ | .finite s' c _, .infinite s =>
    if c = 0 then .nan else .infinite (s != s')
  | .infinite s, .infinite s' => .infinite (s != s')

def scaled (low : ℤ) : Decimal → ℤ
  | .finite negative c e => (if negative then -(c : ℤ) else c) * 10 ^ (e - low).toNat
  | _ => 0

def add : Decimal → Decimal → Decimal
  | .finite s c e, .finite s' c' e' =>
    let low := min e e'
    let sum := scaled low (.finite s c e) + scaled low (.finite s' c' e')
    .finite (if sum = 0 then s && s' else decide (sum < 0)) (rounded sum.natAbs low).1
      (rounded sum.natAbs low).2
  | .infinite s, .finite _ _ _ | .finite _ _ _, .infinite s => .infinite s
  | .infinite s, .infinite s' => if s = s' then .infinite s else .nan
  | _, _ => .nan

def millionths (coefficient : ℕ) : Decimal :=
  .finite false (rounded coefficient (-6)).1 (rounded coefficient (-6)).2

def ofNat (n : ℕ) : Decimal := .finite false n 0

variable {c n : ℕ}

theorem digits_le_iff (hn : 1 ≤ n) : digits c ≤ n ↔ c < 10 ^ n := by
  unfold digits
  split_ifs with zero
  · simp [zero, hn]
  · rw [succ_le_iff, log_lt_iff_lt_pow (by norm_num) zero]

variable {e : ℤ}

theorem rounded_of_lt (small : c < 10 ^ precision) : rounded c e = (c, e) := by
  have fits : digits c - precision = 0 :=
    Nat.sub_eq_zero_of_le ((digits_le_iff (by decide)).mpr small)
  simp [rounded, fits]

theorem rounded_of_le (large : 10 ^ precision ≤ c) : 10 ^ (precision - 1) ≤ (rounded c e).1 ∧ e ≤ (rounded c e).2 := by
  have wide : precision < digits c := by
    by_contra fits
    have := (digits_le_iff (by decide)).mp (Nat.le_of_not_lt fits)
    omega
  have zero : c ≠ 0 := by
    have : 0 < 10 ^ precision := by positivity
    omega
  have width : 10 ^ (precision - 1) * 10 ^ (digits c - precision) ≤ c := by
    rw [← pow_add]
    have exponent : precision - 1 + (digits c - precision) = log 10 c := by
      have : digits c = log 10 c + 1 := by simp [digits, zero]
      have : 1 ≤ precision := by decide
      omega
    rw [exponent]
    exact pow_log_le_self 10 zero
  have quotient : 10 ^ (precision - 1) ≤ c / 10 ^ (digits c - precision) :=
    (le_div_iff_mul_le (by positivity)).mpr width
  have excess : digits c - precision ≠ 0 := by omega
  simp only [rounded, if_neg excess]
  constructor
  · split_ifs <;> omega
  · omega

theorem magnitude_ge (exponent : -6 ≤ e) (large : n * 10 ^ 6 ≤ c) : (n : ℚ) ≤ magnitude c e := by
  cases e with
  | ofNat k =>
    have : n ≤ c * 10 ^ k := by
      have : 1 ≤ 10 ^ k := one_le_pow _ _ (by norm_num)
      nlinarith
    simpa [magnitude] using (by exact_mod_cast this : (n : ℚ) ≤ ((c * 10 ^ k : ℕ) : ℚ))
  | negSucc k =>
    have bound : 10 ^ (k + 1) ≤ 10 ^ 6 := Nat.pow_le_pow_right (by norm_num) (by omega)
    rw [magnitude, Rat.mkRat_eq_div, le_div_iff₀ (by positivity)]
    have : n * 10 ^ (k + 1) ≤ c := (mul_le_mul_left n bound).trans large
    exact_mod_cast this

theorem magnitude_millionths (c : ℕ) : magnitude c (-6) = c / 1000000 := by
  rw [show (-6 : ℤ) = .negSucc 5 from rfl, magnitude, Rat.mkRat_eq_div]
  norm_num

theorem mul_ofNat (c : ℕ) (e : ℤ) (n : ℕ) : ((finite false c e).mul (ofNat n)).toRat =
      magnitude (rounded (c * n) e).1 (rounded (c * n) e).2 := by
  simp only [ofNat, mul, add_zero, bne_self_eq_false, toRat]

theorem millionths_mul (n : ℕ) : ((millionths n).mul (ofNat 1000000)).toRat = n ∨
      (10 ^ 21 : ℚ) ≤ ((millionths n).mul (ofNat 1000000)).toRat := by
  have large {c : ℕ} {e : ℤ} (exponent : -6 ≤ e) (wide : 10 ^ precision ≤ c) :
      (10 ^ 21 : ℚ) ≤ magnitude (rounded c e).1 (rounded c e).2 := by
    obtain ⟨coefficient, exponent'⟩ := rounded_of_le (e := e) wide
    have bound := magnitude_ge (n := 10 ^ 21) (exponent.trans exponent')
      (le_trans (by norm_num [precision]) coefficient)
    exact_mod_cast bound
  by_cases small : n < 10 ^ precision
  · rw [millionths, rounded_of_lt small, mul_ofNat]
    by_cases fits : n * 1000000 < 10 ^ precision
    · left
      rw [rounded_of_lt fits, magnitude_millionths]
      push_cast
      exact mul_div_cancel_right₀ _ (by norm_num)
    · exact .inr (large le_rfl (Nat.le_of_not_lt fits))
  · obtain ⟨coefficient, exponent⟩ := rounded_of_le (e := -6) (Nat.le_of_not_lt small)
    rw [millionths, mul_ofNat]
    refine .inr (large exponent (le_trans ?_ (mul_le_mul_right _ coefficient)))
    norm_num [precision]

def exponent : Decimal → ℤ
  | .finite _ _ e => e
  | _ => 0

def Exact (amounts : List Decimal) : Prop :=
  ∃ low ≤ 0, (∀ x ∈ amounts, ∃ c e, x = .finite false c e ∧ low ≤ e) ∧
    (amounts.map (scaled low)).sum < 10 ^ precision

def finest (e : ℤ) (amounts : List Decimal) : ℤ := amounts.foldl (fun low x => min low x.exponent) e

theorem finest_le (e : ℤ) (amounts : List Decimal) : finest e amounts ≤ e := by
  induction amounts generalizing e with
  | nil => exact le_rfl
  | cons x rest ih => exact (ih _).trans (min_le_left _ _)

theorem scaled_finite (low : ℤ) (c : ℕ) (e : ℤ) :
    scaled low (.finite false c e) = ((c * 10 ^ (e - low).toNat : ℕ) : ℤ) := by
  simp [scaled]

theorem scaled_finer {low low' : ℤ} (finer : low ≤ low') (above : low' ≤ e) :
    scaled low (.finite false c e) = scaled low' (.finite false c e) * 10 ^ (low' - low).toNat := by
  have exponents : (e - low).toNat = (e - low').toNat + (low' - low).toNat := by omega
  rw [scaled_finite, scaled_finite, exponents, pow_add]
  push_cast
  exact (mul_assoc _ _ _).symm

theorem add_exact {c' : ℕ} {e' : ℤ} (fits : scaled (min e e') (.finite false c e)
    + scaled (min e e') (.finite false c' e') < 10 ^ precision) : (finite false c e).add (.finite false c' e') = .finite
    false (scaled (min e e') (.finite false c e) + scaled (min e e') (.finite false c' e')).toNat (min e e') := by
  set sum := scaled (min e e') (.finite false c e) + scaled (min e e') (.finite false c' e') with total
  have nonneg : 0 ≤ sum := by
    rw [total, scaled_finite, scaled_finite]
    positivity
  have small : sum.natAbs < 10 ^ precision := by
    have bounded : (sum.natAbs : ℤ) < ((10 ^ precision : ℕ) : ℤ) := by
      rw [Int.natAbs_of_nonneg nonneg]
      exact_mod_cast fits
    exact_mod_cast bounded
  have natural : sum.natAbs = sum.toNat := by omega
  have sign : (if sum = 0 then false && false else decide (sum < 0)) = false := by
    split_ifs
    · rfl
    · exact decide_eq_false (not_lt.mpr nonneg)
  unfold add
  simp only [← total]
  rw [rounded_of_lt small, sign, natural]

variable {amounts : List Decimal}

theorem Exact.foldl_eq (exact : Exact amounts) : amounts.foldl add (.ofNat 0) =
      .finite false ((amounts.map (scaled (finest 0 amounts))).sum).toNat (finest 0 amounts) := by
  obtain ⟨low, below, fine, bounded⟩ := exact
  have step : ∀ (amounts : List Decimal) (c : ℕ) (e : ℤ), low ≤ e →
      (∀ x ∈ amounts, ∃ c e, x = .finite false c e ∧ low ≤ e) →
      scaled low (.finite false c e) + (amounts.map (scaled low)).sum < 10 ^ precision →
      amounts.foldl add (.finite false c e) = .finite false
        (scaled (finest e amounts) (.finite false c e) + (amounts.map (scaled (finest e amounts))).sum).toNat
        (finest e amounts) := by
    intro amounts
    induction amounts with
    | nil =>
      intro c e _ _ _
      simp [finest, scaled_finite]
    | cons x rest ih =>
      intro c e above fine bounded
      obtain ⟨c', e', rfl, above'⟩ := fine x (by simp)
      have least : low ≤ min e e' := le_min above above'
      have later : 0 ≤ (rest.map (scaled low)).sum := by
        refine sum_nonneg fun n member => ?_
        obtain ⟨y, listed, rfl⟩ := mem_map.mp member
        obtain ⟨d, f, rfl, -⟩ := fine y (by simp [listed])
        rw [scaled_finite]
        positivity
      rw [map_cons, sum_cons, ← add_assoc] at bounded
      set sum := scaled (min e e') (.finite false c e) + scaled (min e e') (.finite false c' e') with total
      have nonneg : 0 ≤ sum := by
        rw [total, scaled_finite, scaled_finite]
        positivity
      have coarser {low : ℤ} (finer : low ≤ min e e') : scaled low (.finite false sum.toNat (min e e')) =
          scaled low (.finite false c e) + scaled low (.finite false c' e') := by
        rw [scaled_finer finer (min_le_left e e'), scaled_finer finer (min_le_right e e'), ← add_mul,
          ← total, scaled_finite]
        push_cast [Int.toNat_of_nonneg nonneg]
        rfl
      have fits : sum < 10 ^ precision := by
        have grown : sum ≤ scaled low (.finite false sum.toNat (min e e')) := by
          rw [scaled_finite]
          push_cast [Int.toNat_of_nonneg nonneg]
          exact le_mul_of_one_le_right nonneg (one_le_pow₀ (by norm_num))
        rw [coarser least] at grown
        linarith
      rw [foldl_cons, add_exact fits, ih sum.toNat (min e e') least
        (fun y member => fine y (by simp [member])) (by rw [coarser least]; exact bounded)]
      have deep : finest (min e e') rest ≤ min e e' := finest_le _ _
      rw [coarser deep, show finest e (finite false c' e' :: rest) = finest (min e e') rest from rfl,
        map_cons, sum_cons, add_assoc]
  have zero := step amounts 0 0 below fine (by rw [scaled_finite]; simpa using bounded)
  simpa [ofNat, scaled_finite] using zero

theorem Exact.sublist {part : List Decimal} (exact : Exact amounts) (sublist : part.Sublist amounts) : Exact part := by
  obtain ⟨low, below, fine, bounded⟩ := exact
  refine ⟨low, below, fun x member => fine x (sublist.subset member), lt_of_le_of_lt ?_ bounded⟩
  refine (sublist.map _).sum_le_sum fun n member => ?_
  obtain ⟨x, listed, rfl⟩ := mem_map.mp member
  obtain ⟨c, e, rfl, -⟩ := fine x listed
  rw [scaled_finite]
  positivity

variable {others : List Decimal}

theorem finest_perm (perm : amounts.Perm others) (e : ℤ) : finest e amounts = finest e others := by
  refine perm.foldl_eq' (fun x _ y _ low => ?_) e
  exact min_right_comm _ _ _

theorem Exact.perm (exact : Exact amounts) (perm : amounts.Perm others) :
    amounts.foldl add (.ofNat 0) = others.foldl add (.ofNat 0) := by
  have exact' : Exact others := by
    obtain ⟨low, below, fine, bounded⟩ := exact
    refine ⟨low, below, fun x member => fine x (perm.mem_iff.mpr member), ?_⟩
    rwa [← (perm.map _).sum_eq]
  rw [exact.foldl_eq, exact'.foldl_eq, finest_perm perm, (perm.map _).sum_eq]

end Decimal

def money (value : Decimal) : Result ℚ :=
  if value.isFinite ∧ 0 ≤ value.toRat then .ok value.toRat
  else .error (.value "cost must be finite and nonnegative")

theorem money_eq_ok {value : Decimal} {amount : ℚ} (accepted : money value = .ok amount) :
    0 ≤ amount ∧ amount = value.toRat := by
  unfold money at accepted
  split_ifs at accepted with valid
  cases accepted
  exact ⟨valid.2, rfl⟩

end VideoPoster.Python
