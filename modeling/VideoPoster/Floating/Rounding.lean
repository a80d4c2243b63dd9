import Mathlib.Algebra.Order.Field.Power
import Mathlib.Algebra.Order.Floor.Ring
import Mathlib.Data.Int.Log
import Mathlib.Data.Rat.Floor
import Mathlib.Tactic.Linarith
import Mathlib.Tactic.Positivity
import Mathlib.Tactic.Ring

/-!
# Rounding to binary floating point

The value of a floating-point operation is its exact value, rounded to the nearest number of the format, ties to
even.
-/

namespace VideoPoster.Floating
open Int

def roundEven (x : ℚ) : ℤ :=
  if fract x < 1 / 2 ∨ fract x = 1 / 2 ∧ ⌊x⌋ % 2 = 0 then ⌊x⌋ else ⌊x⌋ + 1

variable {x y : ℚ}

theorem roundEven_intCast (n : ℤ) : roundEven n = n := by
  simp [roundEven]

theorem floor_le_roundEven (x : ℚ) : ⌊x⌋ ≤ roundEven x := by
  unfold roundEven
  split_ifs <;> omega

theorem roundEven_le_floor_add_one (x : ℚ) : roundEven x ≤ ⌊x⌋ + 1 := by
  unfold roundEven
  split_ifs <;> omega

theorem abs_roundEven_sub_le (x : ℚ) : |roundEven x - x| ≤ 1 / 2 := by
  have whole := floor_add_fract x
  have less := fract_lt_one x
  have nonneg := fract_nonneg x
  unfold roundEven
  split_ifs with down
  · have half : fract x ≤ 1 / 2 := down.elim le_of_lt fun tie => tie.1.le
    exact abs_le.mpr ⟨by linarith, by linarith⟩
  · have half : 1 / 2 ≤ fract x := not_lt.mp fun small => down (.inl small)
    push_cast
    exact abs_le.mpr ⟨by linarith, by linarith⟩

theorem roundEven_mono (le : x ≤ y) : roundEven x ≤ roundEven y := by
  rcases (floor_le_floor le).lt_or_eq with apart | same
  · calc roundEven x ≤ ⌊x⌋ + 1 := roundEven_le_floor_add_one x
      _ ≤ ⌊y⌋ := apart
      _ ≤ roundEven y := floor_le_roundEven y
  · have fractions : fract x ≤ fract y := by
      have left := floor_add_fract x
      have right := floor_add_fract y
      rw [same] at left
      linarith
    by_cases down : fract y < 1 / 2 ∨ fract y = 1 / 2 ∧ ⌊y⌋ % 2 = 0
    · have before : fract x < 1 / 2 ∨ fract x = 1 / 2 ∧ ⌊x⌋ % 2 = 0 := by
        rcases down with small | ⟨tie, even⟩
        · exact .inl (fractions.trans_lt small)
        · rcases (tie ▸ fractions).lt_or_eq with small | tied
          · exact .inl small
          · exact .inr ⟨tied, same ▸ even⟩
      rw [roundEven, if_pos before, roundEven, if_pos down, same]
    · have up : roundEven y = ⌊y⌋ + 1 := if_neg down
      rw [up, ← same]
      exact roundEven_le_floor_add_one x

theorem roundEven_neg (x : ℚ) : roundEven (-x) = -roundEven x := by
  by_cases whole : fract x = 0
  · obtain ⟨n, rfl⟩ : ∃ n : ℤ, x = n := ⟨⌊x⌋, by have := floor_add_fract x; linarith⟩
    rw [← cast_neg, roundEven_intCast, roundEven_intCast]
  · have fraction : fract (-x) = 1 - fract x := fract_neg whole
    have floor : ⌊-x⌋ = -⌊x⌋ - 1 := by
      have left := floor_add_fract x
      have right := floor_add_fract (-x)
      have : (⌊-x⌋ : ℚ) = ((-⌊x⌋ - 1 : ℤ) : ℚ) := by
        push_cast
        linarith
      exact_mod_cast this
    unfold roundEven
    rw [fraction, floor]
    rcases lt_trichotomy (fract x) (1 / 2) with small | tie | large
    · rw [if_neg, if_pos (.inl small)]
      · ring
      · rintro (less | ⟨tied, -⟩) <;> linarith
    · rw [tie]
      norm_num
      split_ifs <;> omega
    · rw [if_pos (.inl (by linarith)), if_neg]
      · ring
      · rintro (less | ⟨tied, -⟩) <;> linarith

theorem roundEven_eq_of_lt {n : ℤ} (near : |n - x| < 1 / 2) : roundEven x = n := by
  have rounded := abs_le.mp (abs_roundEven_sub_le x)
  have given := abs_lt.mp near
  have below : ((roundEven x : ℤ) : ℚ) < (n + 1 : ℤ) := by
    push_cast
    linarith
  have above : ((n - 1 : ℤ) : ℚ) < roundEven x := by
    push_cast
    linarith
  have := cast_lt.mp below
  have := cast_lt.mp above
  omega

structure Format where
  precision : ℕ
  positive : 0 < precision
  minExponent : ℤ
  maxExponent : ℤ

def binary64 : Format := ⟨53, by decide, -1074, 1024⟩

namespace Format
variable (F : Format)

def exponent (x : ℚ) : ℤ := max (log 2 |x| + 1 - F.precision) F.minExponent

def spacing (x : ℚ) : ℚ := 2 ^ F.exponent x

def nearest (x : ℚ) : ℚ := roundEven (x / F.spacing x) * F.spacing x

def Finite (x : ℚ) : Prop := |x| < 2 ^ F.maxExponent

instance (x : ℚ) : Decidable (F.Finite x) := inferInstanceAs (Decidable (_ < _))

def Represents (x : ℚ) : Prop :=
  ∃ (n : ℤ) (q : ℤ), |n| ≤ 2 ^ F.precision ∧ F.minExponent ≤ q ∧ x = n * 2 ^ q

variable {F}

theorem spacing_pos (x : ℚ) : 0 < F.spacing x := zpow_pos (by norm_num) _

theorem spacing_neg (x : ℚ) : F.spacing (-x) = F.spacing x := by
  rw [spacing, spacing, exponent, exponent, abs_neg]

theorem nearest_neg (x : ℚ) : F.nearest (-x) = -F.nearest x := by
  rw [nearest, nearest, spacing_neg, neg_div, roundEven_neg]
  push_cast
  ring

@[simp]
theorem nearest_zero : F.nearest 0 = 0 := by
  have nothing : roundEven 0 = 0 := by
    exact_mod_cast roundEven_intCast 0
  simp [nearest, nothing]

theorem nearest_mul_spacing {n : ℤ} (multiple : x = n * F.spacing x) : F.nearest x = x := by
  have quotient : x / F.spacing x = n := by
    rw [div_eq_iff (spacing_pos x).ne']
    exact multiple
  rw [nearest, quotient, roundEven_intCast]
  exact multiple.symm

theorem exists_mul_zpow {n q e : ℤ} (le : e ≤ q) : ∃ m : ℤ, (n * 2 ^ q : ℚ) = m * 2 ^ e := by
  obtain ⟨k, rfl⟩ := Int.exists_add_of_le le
  refine ⟨n * 2 ^ k, ?_⟩
  rw [zpow_add₀ (by norm_num : (2 : ℚ) ≠ 0), zpow_natCast]
  push_cast
  ring

theorem log_abs_lt {p : ℕ} {q : ℤ} (nonzero : x ≠ 0) (less : |x| < 2 ^ (p + q : ℤ)) : log 2 |x| < p + q := by
  have := (lt_zpow_iff_log_lt (b := 2) (by norm_num) (abs_pos.mpr nonzero) (x := p + q)).mp (by exact_mod_cast less)
  exact this

theorem Represents.nearest_eq (represents : F.Represents x) : F.nearest x = x := by
  obtain ⟨n, q, small, low, rfl⟩ := represents
  by_cases zero : (n * 2 ^ q : ℚ) = 0
  · rw [zero, nearest_zero]
  -- A mantissa that is a power of two is halved first.
  obtain ⟨m, e, less, high, same⟩ :
      ∃ m e : ℤ, |m| < 2 ^ F.precision ∧ F.minExponent ≤ e ∧ (n * 2 ^ q : ℚ) = m * 2 ^ e := by
    rcases small.lt_or_eq with less | full
    · exact ⟨n, q, less, low, rfl⟩
    · obtain ⟨p, hp⟩ : ∃ p, F.precision = p + 1 := ⟨F.precision - 1, by have := F.positive; omega⟩
      have even : ∃ k : ℤ, n = 2 * k ∧ |k| < 2 ^ F.precision := by
        rw [hp, pow_succ] at full ⊢
        have power : (0 : ℤ) < 2 ^ p := by positivity
        rcases abs_cases n with ⟨is, -⟩ | ⟨is, -⟩
        · refine ⟨2 ^ p, by omega, ?_⟩
          rw [abs_of_pos power]
          omega
        · refine ⟨-2 ^ p, by omega, ?_⟩
          rw [abs_neg, abs_of_pos power]
          omega
      obtain ⟨k, rfl, less⟩ := even
      refine ⟨k, q + 1, less, by omega, ?_⟩
      rw [zpow_add_one₀ (by norm_num : (2 : ℚ) ≠ 0)]
      push_cast
      ring
  rw [same] at zero ⊢
  have bound : |(m * 2 ^ e : ℚ)| < 2 ^ (F.precision + e : ℤ) := by
    rw [abs_mul, abs_of_pos (zpow_pos (by norm_num : (0 : ℚ) < 2) e),
      zpow_add₀ (by norm_num : (2 : ℚ) ≠ 0), zpow_natCast]
    have : (|m| : ℚ) < 2 ^ F.precision := by exact_mod_cast less
    exact mul_lt_mul_of_pos_right this (zpow_pos (by norm_num) e)
  have fits : F.exponent (m * 2 ^ e) ≤ e := by
    have := log_abs_lt zero bound
    exact max_le (by omega) high
  obtain ⟨k, multiple⟩ := exists_mul_zpow (n := m) fits
  exact nearest_mul_spacing multiple

theorem abs_div_spacing_lt (x : ℚ) : |x / F.spacing x| < 2 ^ F.precision := by
  rw [abs_div, abs_of_pos (spacing_pos x), div_lt_iff₀ (spacing_pos x)]
  have power := lt_zpow_succ_log_self (b := 2) (by norm_num) |x|
  refine lt_of_lt_of_le power ?_
  rw [spacing, ← zpow_natCast, ← zpow_add₀ (by norm_num : (2 : ℚ) ≠ 0)]
  refine zpow_le_zpow_right₀ (by norm_num) ?_
  have := le_max_left (log 2 |x| + 1 - F.precision) F.minExponent
  unfold exponent
  omega

theorem nearest_represents (x : ℚ) : F.Represents (F.nearest x) := by
  refine ⟨roundEven (x / F.spacing x), F.exponent x, ?_, le_max_right _ _, rfl⟩
  have bounds := abs_le.mp (abs_div_spacing_lt (F := F) x).le
  have whole (n : ℤ) : roundEven n = n := roundEven_intCast n
  have above := roundEven_mono bounds.2
  have below := roundEven_mono bounds.1
  have power : (2 ^ F.precision : ℚ) = ((2 ^ F.precision : ℤ) : ℚ) := by push_cast; rfl
  rw [power, whole] at above
  rw [power, ← cast_neg, whole] at below
  exact abs_le.mpr ⟨below, above⟩

@[simp]
theorem nearest_nearest (x : ℚ) : F.nearest (F.nearest x) = F.nearest x :=
  (nearest_represents x).nearest_eq

theorem nearest_le_mul_spacing {n : ℤ} (le : x ≤ n * F.spacing x) : F.nearest x ≤ n * F.spacing x := by
  have quotient : x / F.spacing x ≤ n := (div_le_iff₀ (spacing_pos x)).mpr le
  have rounded := roundEven_mono quotient
  rw [roundEven_intCast] at rounded
  exact mul_le_mul_of_nonneg_right (by exact_mod_cast rounded) (spacing_pos x).le

theorem mul_spacing_le_nearest {n : ℤ} (le : n * F.spacing x ≤ x) : n * F.spacing x ≤ F.nearest x := by
  have quotient : n ≤ x / F.spacing x := (le_div_iff₀ (spacing_pos x)).mpr le
  have rounded := roundEven_mono quotient
  rw [roundEven_intCast] at rounded
  exact mul_le_mul_of_nonneg_right (by exact_mod_cast rounded) (spacing_pos x).le

theorem nearest_nonneg (nonneg : 0 ≤ x) : 0 ≤ F.nearest x := by
  have := mul_spacing_le_nearest (F := F) (x := x) (n := 0) (by simpa using nonneg)
  simpa using this

theorem nearest_mono_of_nonneg (nonneg : 0 ≤ x) (le : x ≤ y) : F.nearest x ≤ F.nearest y := by
  rcases nonneg.eq_or_lt with rfl | positive
  · rw [nearest_zero]
    exact nearest_nonneg le
  have logs : log 2 |x| ≤ log 2 |y| := by
    rw [abs_of_pos positive, abs_of_pos (positive.trans_le le)]
    exact log_mono_right positive le
  have exponents : F.exponent x ≤ F.exponent y := max_le_max (by omega) le_rfl
  rcases exponents.lt_or_eq with finer | same
  · -- The power of two at which the coarser unit begins lies between the two numbers.
    have lower : F.minExponent ≤ F.exponent x := le_max_right _ _
    have unit : F.exponent y = log 2 |y| + 1 - F.precision := by
      have : F.exponent y = max (log 2 |y| + 1 - F.precision) F.minExponent := rfl
      omega
    have apart : log 2 |x| + 1 ≤ log 2 |y| := by
      have : log 2 |x| + 1 - F.precision ≤ F.exponent x := le_max_left _ _
      omega
    have between : (2 : ℚ) ^ log 2 |y| ≤ y := by
      have := zpow_log_le_self (b := 2) (by norm_num) (abs_pos.mpr (positive.trans_le le).ne')
      rw [abs_of_pos (positive.trans_le le)] at this ⊢
      exact_mod_cast this
    have beyond : x ≤ (2 : ℚ) ^ log 2 |y| := by
      have := (lt_zpow_succ_log_self (b := 2) (by norm_num) |x|).le
      rw [abs_of_pos positive] at this logs apart
      refine this.trans ?_
      push_cast
      exact zpow_le_zpow_right₀ (by norm_num) apart
    have coarse : F.exponent y ≤ log 2 |y| := by have := F.positive; omega
    obtain ⟨n, fromX⟩ := exists_mul_zpow (n := 1) (exponents.trans coarse)
    obtain ⟨m, fromY⟩ := exists_mul_zpow (n := 1) coarse
    rw [cast_one, one_mul] at fromX fromY
    calc F.nearest x ≤ n * F.spacing x := nearest_le_mul_spacing (beyond.trans fromX.le)
      _ = m * F.spacing y := fromX.symm.trans fromY
      _ ≤ F.nearest y := mul_spacing_le_nearest (fromY.symm.le.trans between)
  · have units : F.spacing x = F.spacing y := by rw [spacing, spacing, same]
    rw [nearest, nearest, units]
    have quotients : x / F.spacing y ≤ y / F.spacing y := div_le_div_of_nonneg_right le (spacing_pos y).le
    exact mul_le_mul_of_nonneg_right (by exact_mod_cast roundEven_mono quotients) (spacing_pos y).le

theorem nearest_mono (le : x ≤ y) : F.nearest x ≤ F.nearest y := by
  rcases le_total 0 x with nonneg | negative
  · exact nearest_mono_of_nonneg nonneg le
  · rcases le_total 0 y with nonneg | below
    · have down := nearest_nonneg (F := F) (neg_nonneg.mpr negative)
      rw [nearest_neg] at down
      exact (neg_nonneg.mp down).trans (nearest_nonneg nonneg)
    · have mirrored := nearest_mono_of_nonneg (F := F) (neg_nonneg.mpr below) (neg_le_neg le)
      rw [nearest_neg, nearest_neg] at mirrored
      exact neg_le_neg_iff.mp mirrored

theorem Finite.of_le (finite : F.Finite y) (nonneg : 0 ≤ x) (le : x ≤ y) : F.Finite x := by
  unfold Finite at finite ⊢
  rw [abs_of_nonneg (nonneg.trans le)] at finite
  rw [abs_of_nonneg nonneg]
  exact le.trans_lt finite

def Exact (F : Format) (values : List ℚ) : Prop :=
  ∃ e ≥ F.minExponent, (∀ x ∈ values, ∃ n : ℕ, x = n * 2 ^ e) ∧ values.sum ≤ 2 ^ F.precision * 2 ^ e

theorem Exact.foldl_eq {values : List ℚ} (exact : F.Exact values) :
    values.foldl (fun sum x => F.nearest (sum + x)) 0 = values.sum := by
  obtain ⟨e, least, multiples, bounded⟩ := exact
  have step : ∀ (m : ℕ) (values : List ℚ), (∀ x ∈ values, ∃ n : ℕ, x = n * 2 ^ e) →
      m * 2 ^ e + values.sum ≤ 2 ^ F.precision * 2 ^ e →
      values.foldl (fun sum x => F.nearest (sum + x)) (m * 2 ^ e) = m * 2 ^ e + values.sum := by
    intro m values
    induction values generalizing m with
    | nil => simp
    | cons x rest ih =>
      intro multiples bounded
      obtain ⟨n, rfl⟩ := multiples x (by simp)
      have positive : (0 : ℚ) < 2 ^ e := zpow_pos (by norm_num) _
      have whole : (m : ℚ) * 2 ^ e + n * 2 ^ e = ((m + n : ℕ) : ℚ) * 2 ^ e := by
        push_cast
        ring
      have later : 0 ≤ rest.sum := by
        refine List.sum_nonneg fun y member => ?_
        obtain ⟨k, rfl⟩ := multiples y (by simp [member])
        positivity
      rw [List.sum_cons, ← add_assoc, whole] at bounded ⊢
      have small : ((m + n : ℕ) : ℚ) * 2 ^ e ≤ 2 ^ F.precision * 2 ^ e := by linarith
      have fits : (m + n : ℕ) ≤ 2 ^ F.precision := by
        exact_mod_cast le_of_mul_le_mul_right small positive
      have represented : F.Represents (((m + n : ℕ) : ℚ) * 2 ^ e) := by
        refine ⟨(m + n : ℕ), e, ?_, least, by push_cast; ring⟩
        rw [Nat.abs_cast]
        exact_mod_cast fits
      rw [List.foldl_cons, whole, represented.nearest_eq]
      exact ih (m + n) (fun y member => multiples y (by simp [member])) bounded
  have zero := step 0 values multiples (by simpa using bounded)
  simpa using zero

end Format
end VideoPoster.Floating
