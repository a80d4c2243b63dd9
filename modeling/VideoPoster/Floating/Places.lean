import VideoPoster.Floating.Rounding

/-!
# Rounding a binary number to decimal places
-/

namespace VideoPoster.Floating
open Int
namespace Format
variable {F : Format} {x y : ℚ} {d : ℕ}

def places (F : Format) (d : ℕ) (x : ℚ) : ℚ := F.nearest (roundEven (x * 10 ^ d) / 10 ^ d)

theorem abs_nearest_sub_le (x : ℚ) : |F.nearest x - x| ≤ F.spacing x / 2 := by
  have positive := F.spacing_pos x
  have same : F.nearest x - x = (roundEven (x / F.spacing x) - x / F.spacing x) * F.spacing x := by
    rw [sub_mul, div_mul_cancel₀ _ positive.ne']
    rfl
  rw [same, abs_mul, abs_of_pos positive]
  have := mul_le_mul_of_nonneg_right (abs_roundEven_sub_le (x / F.spacing x)) positive.le
  linarith

theorem exponent_of_near {n e : ℤ} (above : 2 ^ F.precision < 2 * |n|) (below : |n| < 2 ^ F.precision)
    (low : F.minExponent ≤ e) (near : |x - n * 2 ^ e| < 2 ^ e / 2) : F.exponent x = e := by
  have unit : (0 : ℚ) < 2 ^ e := zpow_pos (by norm_num) e
  have size : |(n * 2 ^ e : ℚ)| = |n| * 2 ^ e := by rw [abs_mul, abs_of_pos unit, cast_abs]
  have lower : |x| > |n| * 2 ^ e - 2 ^ e / 2 := by
    have := abs_sub_abs_le_abs_sub (n * 2 ^ e : ℚ) x
    rw [abs_sub_comm] at this
    linarith
  have upper : |x| < |n| * 2 ^ e + 2 ^ e / 2 := by
    have := abs_sub_abs_le_abs_sub x (n * 2 ^ e : ℚ)
    linarith
  have wide : (2 ^ F.precision + 1 : ℚ) ≤ 2 * |n| := by exact_mod_cast above
  have narrow : (|n| + 1 : ℚ) ≤ 2 ^ F.precision := by exact_mod_cast below
  have top : |x| < 2 ^ (F.precision + e : ℤ) := by
    rw [zpow_add₀ (by norm_num : (2 : ℚ) ≠ 0), zpow_natCast]
    have := mul_le_mul_of_nonneg_right narrow unit.le
    linarith
  have bottom : 2 ^ (F.precision + e - 1 : ℤ) ≤ |x| := by
    rw [zpow_sub_one₀ (by norm_num : (2 : ℚ) ≠ 0), zpow_add₀ (by norm_num : (2 : ℚ) ≠ 0), zpow_natCast]
    have := mul_le_mul_of_nonneg_right wide unit.le
    linarith
  have positive : 0 < |x| := (zpow_pos (by norm_num) _).trans_le bottom
  have log : log 2 |x| = F.precision + e - 1 := by
    have less := (lt_zpow_iff_log_lt (b := 2) (by norm_num) positive).mp (by exact_mod_cast top)
    have more := (zpow_le_iff_le_log (b := 2) (by norm_num) positive).mp (by exact_mod_cast bottom)
    omega
  rw [exponent, log]
  omega

theorem nearest_of_near {n e : ℤ} (same : F.exponent x = e) (near : |x - n * 2 ^ e| < 2 ^ e / 2) :
    F.nearest x = n * 2 ^ e := by
  have unit : (0 : ℚ) < 2 ^ e := zpow_pos (by norm_num) e
  have quotient : |(n : ℚ) - x / 2 ^ e| < 1 / 2 := by
    have scaled : (n : ℚ) - x / 2 ^ e = -(x - n * 2 ^ e) / 2 ^ e := by
      field_simp
      ring
    rw [scaled, abs_div, abs_neg, abs_of_pos unit, div_lt_iff₀ unit]
    linarith
  rw [nearest, spacing, same, roundEven_eq_of_lt quotient]

structure HasPlaces (F : Format) (d : ℕ) : Prop where
  positive : 1 ≤ d
  coarse : 2 * 10 ^ d ≤ 2 ^ F.precision
  fine : (2 : ℚ) ^ F.minExponent * 10 ^ d < 1

theorem zpow_mul_pow_ne_one (positive : 1 ≤ d) (e : ℤ) : (2 : ℚ) ^ e * 10 ^ d ≠ 1 := by
  intro one
  have odd : (2 : ℚ) ^ (e + d) * 5 ^ d = 1 := by
    rw [← one, zpow_add₀ (by norm_num : (2 : ℚ) ≠ 0), zpow_natCast, mul_assoc, ← mul_pow]
    norm_num
  have large : 5 ^ d ≠ 1 := (Nat.one_lt_pow (by omega) (by norm_num)).ne'
  rcases le_total 0 (e + d) with up | down
  · obtain ⟨k, same⟩ := eq_ofNat_of_zero_le up
    rw [same, zpow_natCast] at odd
    have product : 2 ^ k * 5 ^ d = 1 := by exact_mod_cast odd
    exact large (Nat.eq_one_of_mul_eq_one_left product)
  · obtain ⟨k, same⟩ := exists_eq_neg_ofNat down
    rw [same, zpow_neg, zpow_natCast, inv_mul_eq_one₀ (by positivity)] at odd
    have equal : 2 ^ k = 5 ^ d := by exact_mod_cast odd
    have coprime : Nat.Coprime (2 ^ k) (5 ^ d) := Nat.Coprime.pow k d (by decide)
    rw [equal, Nat.coprime_self] at coprime
    exact large coprime

theorem places_intCast (d : ℕ) (m : ℤ) : (roundEven ((m : ℚ) * 10 ^ d) / 10 ^ d : ℚ) = m := by
  have whole : (m : ℚ) * 10 ^ d = ((m * 10 ^ d : ℤ) : ℚ) := by push_cast; rfl
  rw [whole, roundEven_intCast]
  push_cast
  exact mul_div_cancel_right₀ _ (by positivity)

theorem abs_places_sub_le (d : ℕ) (y : ℚ) : |roundEven (y * 10 ^ d) / 10 ^ d - y| * 10 ^ d ≤ 1 / 2 := by
  have unit : (0 : ℚ) < 10 ^ d := by positivity
  have scaled : (roundEven (y * 10 ^ d) / 10 ^ d - y) * 10 ^ d = roundEven (y * 10 ^ d) - y * 10 ^ d := by
    rw [sub_mul, div_mul_cancel₀ _ unit.ne']
  rw [← abs_of_pos unit, ← abs_mul, abs_of_pos unit, scaled]
  exact abs_roundEven_sub_le _

theorem whole_of_power {n e : ℤ} {j : ℕ} (power : |n| = 2 ^ j) (up : 0 ≤ e + j) : ∃ m : ℤ, (n * 2 ^ e : ℚ) = m := by
  obtain ⟨m, same⟩ := exists_mul_zpow (n := 1) up
  have size : (2 : ℚ) ^ j * 2 ^ e = m := by
    rw [cast_one, one_mul, zpow_zero, mul_one, zpow_add₀ (by norm_num), zpow_natCast, mul_comm] at same
    exact same
  rcases abs_choice n with is | is
  · have : n = 2 ^ j := is.symm.trans power
    refine ⟨m, ?_⟩
    rw [this, ← size]
    push_cast
    rfl
  · have : n = -2 ^ j := by omega
    refine ⟨-m, ?_⟩
    rw [this]
    push_cast
    rw [← size, neg_mul]

theorem two_mul_abs_roundEven_mem (normal : F.minExponent < F.exponent x) (nonzero : x ≠ 0) :
    2 ^ F.precision ≤ 2 * |roundEven (x / F.spacing x)| ∧ |roundEven (x / F.spacing x)| ≤ 2 ^ F.precision := by
  obtain ⟨p, precision⟩ : ∃ p, F.precision = p + 1 := ⟨F.precision - 1, by have := F.positive; omega⟩
  have below := abs_div_spacing_lt (F := F) x
  have above : (2 : ℚ) ^ p ≤ |x / F.spacing x| := by
    have log : F.exponent x = log 2 |x| - p := by
      have : F.exponent x = max (log 2 |x| + 1 - F.precision) F.minExponent := rfl
      omega
    have power : (2 : ℚ) ^ Int.log 2 |x| ≤ |x| := by
      exact_mod_cast zpow_log_le_self (b := 2) (by norm_num) (abs_pos.mpr nonzero)
    rw [abs_div, abs_of_pos (spacing_pos x), le_div_iff₀ (spacing_pos x), spacing, log, ← zpow_natCast,
      ← zpow_add₀ (by norm_num : (2 : ℚ) ≠ 0)]
    simpa using power
  have half := abs_roundEven_sub_le (x / F.spacing x)
  generalize x / F.spacing x = m at below above half
  have up := abs_sub_abs_le_abs_sub (roundEven m : ℚ) m
  have down := abs_sub_abs_le_abs_sub m (roundEven m : ℚ)
  rw [abs_sub_comm] at down
  rw [precision] at below ⊢
  rw [pow_succ] at below ⊢
  have least : (2 ^ p - 1 : ℤ) < |roundEven m| := by
    have : ((2 ^ p - 1 : ℤ) : ℚ) < |roundEven m| := by
      push_cast
      linarith
    exact_mod_cast this
  have most : |roundEven m| < (2 ^ p * 2 + 1 : ℤ) := by
    have : (|roundEven m| : ℚ) < ((2 ^ p * 2 + 1 : ℤ) : ℚ) := by
      push_cast
      linarith
    exact_mod_cast this
  omega

theorem nearest_places_of_coarse (room : F.HasPlaces d) {q : ℚ} (nonzero : q ≠ 0) (coarser :
    (1 : ℚ) < 2 ^ F.exponent q * 10 ^ d) : F.nearest (roundEven (F.nearest q * 10 ^ d) / 10 ^ d) = F.nearest q := by
  have unit : (0 : ℚ) < 10 ^ d := by positivity
  have normal : F.minExponent < F.exponent q := by
    have : (2 : ℚ) ^ F.minExponent < 2 ^ F.exponent q :=
      lt_of_mul_lt_mul_right (room.fine.trans coarser) unit.le
    exact (zpow_lt_zpow_iff_right₀ (by norm_num)).mp this
  obtain ⟨above, below⟩ := two_mul_abs_roundEven_mem normal nonzero
  have binary : F.nearest q = roundEven (q / F.spacing q) * 2 ^ F.exponent q := rfl
  rw [binary]
  generalize roundEven (q / F.spacing q) = n at above below
  generalize F.exponent q = e at coarser normal
  have near : |(roundEven (n * 2 ^ e * 10 ^ d) / 10 ^ d - n * 2 ^ e : ℚ)| < 2 ^ e / 2 := by
    have := abs_places_sub_le d (n * 2 ^ e)
    refine lt_of_mul_lt_mul_right ?_ unit.le
    linarith
  have up : 1 < e + F.precision := by
    have room := room.coarse
    have wide : (2 * 10 ^ d : ℚ) ≤ 2 ^ F.precision := by exact_mod_cast room
    have more : (2 : ℚ) ^ (1 : ℤ) < 2 ^ (e + F.precision) := by
      rw [zpow_add₀ (by norm_num : (2 : ℚ) ≠ 0), zpow_natCast, zpow_one]
      have := mul_le_mul_of_nonneg_left wide (zpow_pos (by norm_num : (0 : ℚ) < 2) e).le
      linarith
    exact (zpow_lt_zpow_iff_right₀ (by norm_num)).mp more
  -- At a power of two the spacing changes, but such a power is a whole number.
  have inside : (∃ m : ℤ, (n * 2 ^ e : ℚ) = m) ∨ 2 ^ F.precision < 2 * |n| ∧ |n| < 2 ^ F.precision := by
    obtain ⟨p, precision⟩ : ∃ p, F.precision = p + 1 := ⟨F.precision - 1, by have := F.positive; omega⟩
    rcases below.lt_or_eq with less | full
    · rcases above.lt_or_eq with more | half
      · exact .inr ⟨more, less⟩
      · refine .inl (whole_of_power (j := p) ?_ (by omega))
        rw [precision, pow_succ] at half
        omega
    · exact .inl (whole_of_power full (by omega))
  rcases inside with ⟨m, whole⟩ | ⟨more, less⟩
  · rw [whole, places_intCast, ← whole]
    exact Represents.nearest_eq ⟨n, e, below, normal.le, rfl⟩
  · exact nearest_of_near (exponent_of_near more less normal.le near) near

theorem places_places (room : F.HasPlaces d) (x : ℚ) : F.places d (F.places d x) = F.places d x := by
  have unit : (0 : ℚ) < 10 ^ d := by positivity
  unfold places
  generalize roundEven (x * 10 ^ d) = k
  generalize digits : (k / 10 ^ d : ℚ) = q
  by_cases zero : q = 0
  · subst zero
    simp [roundEven]
  have rounded := abs_nearest_sub_le (F := F) q
  generalize binary : F.nearest q = y at rounded ⊢
  rw [spacing] at rounded
  rcases (zpow_mul_pow_ne_one room.positive (F.exponent q)).lt_or_gt with finer | coarser
  · -- The decimal units lie further apart than the binary ones: `k` is found again.
    have near : |k - y * 10 ^ d| < 1 / 2 := by
      have scaled : (k : ℚ) - y * 10 ^ d = -((y - q) * 10 ^ d) := by
        rw [← digits, sub_mul, div_mul_cancel₀ _ unit.ne']
        ring
      rw [scaled, abs_neg, abs_mul, abs_of_pos unit]
      have := mul_le_mul_of_nonneg_right rounded unit.le
      linarith
    rw [roundEven_eq_of_lt near, digits, binary]
  · rw [← binary]
    exact nearest_places_of_coarse room zero coarser

end Format
end VideoPoster.Floating
