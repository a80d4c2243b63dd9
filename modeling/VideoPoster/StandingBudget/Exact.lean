import Mathlib.Algebra.Order.Field.Power
import VideoPoster.Authorization.Amounts
import VideoPoster.StandingBudget.Settlement

/-!
# `_units` and `_usd` are exact
-/

namespace VideoPoster.StandingBudget
open Python Billing Authorization Nat Option

/-- `_units` in the default context. A zero has a zero product there, whatever its exponent is. -/
def unitsInContext : Decimal → Result ℕ
  | .finite _ 0 _ => pure 0
  | .finite false (c + 1) e => do
    let product ← inContext ((c + 1) * 1000000) e
    match integer product.1 product.2 with
    | none => .error (.denied "nonnegative finite USD with at most six decimals required")
    | some units => do
      require (units ≤ maxUnits) (.denied "USD amount exceeds ledger range")
      pure units
  | _ => .error (.denied "nonnegative finite USD with at most six decimals required")

def usd (units : ℕ) : Result String := do
  let quotient ← inContext units (-6)
  pure (sixPlaces (millionths quotient.1 quotient.2))

def Denotes (value : Decimal) (units : ℕ) : Prop :=
  value.isFinite ∧ value.toRat * 1000000 = units ∧ units ≤ maxUnits

def micros (coefficient : ℕ) (exponent : ℤ) : ℚ := (coefficient * 1000000 : ℕ) * 10 ^ exponent

/-- The amount is no whole number of micro-dollars, but half a unit of the last digit kept leads to one. -/
def Misread : Decimal → Prop
  | .finite false c e => (¬ ∃ n : ℕ, micros c e = n) ∧
      ∃ units ≤ maxUnits, 2 * |micros c e - (units : ℚ)| ≤ 10 ^ (e + excess (c * 1000000) e)
  | _ => False

theorem magnitude_eq (c : ℕ) (e : ℤ) : Decimal.magnitude c e = c * 10 ^ e := by
  cases e with
  | ofNat e => simp [Decimal.magnitude]
  | negSucc e => rw [Decimal.magnitude, Rat.mkRat_eq_div, zpow_negSucc, div_eq_mul_inv]; norm_num

theorem magnitude_micros (c : ℕ) (e : ℤ) : Decimal.magnitude c e * 1000000 = micros c e := by
  rw [magnitude_eq, micros]
  push_cast
  ring

theorem integer_eq_some {p n : ℕ} {k : ℤ} : integer p k = some n ↔ (p : ℚ) * 10 ^ k = n := by
  unfold integer
  split_ifs with large divides
  · obtain ⟨k, rfl⟩ := Int.eq_ofNat_of_zero_le large
    simp only [some.injEq, Int.toNat_natCast, zpow_natCast]
    exact_mod_cast Iff.rfl
  all_goals
    obtain ⟨d, rfl⟩ : ∃ d : ℕ, k = -d := ⟨(-k).toNat, by omega⟩
    simp only [neg_neg, Int.toNat_natCast] at divides ⊢
    rw [zpow_neg, zpow_natCast, ← div_eq_mul_inv, div_eq_iff (by positivity)]
  · obtain ⟨q, rfl⟩ := divides
    rw [Nat.mul_div_cancel_left _ (by positivity), some.injEq]
    constructor
    · rintro rfl
      push_cast
      exact mul_comm _ _
    · intro eq
      have : 10 ^ d * q = 10 ^ d * n := by
        rw [mul_comm _ n]
        exact_mod_cast eq
      exact Nat.eq_of_mul_eq_mul_left (by positivity) this
  · refine iff_of_false (by simp) fun eq => divides ⟨n, ?_⟩
    rw [mul_comm]
    exact_mod_cast eq

theorem abs_scaled (a p : ℚ) (x : ℕ) (e : ℤ) : |a * 10 ^ e - p * 10 ^ (e + x)| = |a - p * 10 ^ x| * 10 ^ e := by
  have ten : |(10 : ℚ) ^ e| = 10 ^ e := abs_of_pos (by positivity)
  rw [zpow_add₀ (by norm_num), zpow_natCast, ← ten, ← abs_mul, ten]
  congr 1
  ring

theorem halfEven_even {numerator unit n : ℕ} (positive : 0 < unit) (above : 2 * numerator ≤ (2 * n + 1) * unit)
    (below : 2 * (n * unit) ≤ 2 * numerator + unit) (even : n % 2 = 0) : halfEven numerator unit = n := by
  have split := div_add_mod numerator unit
  have small := mod_lt numerator positive
  rw [mul_comm] at split
  set q := numerator / unit
  set r := numerator % unit
  have low : q ≤ n := by
    by_contra more
    have : (n + 1) * unit ≤ q * unit := mul_le_mul_right _ (by omega)
    nlinarith
  have high : n ≤ q + 1 := by
    by_contra more
    have : (q + 2) * unit ≤ n * unit := mul_le_mul_right _ (by omega)
    nlinarith
  rw [halfEven]
  change (if unit < 2 * r ∨ 2 * r = unit ∧ q % 2 = 1 then q + 1 else q) = n
  rcases (by omega : n = q ∨ n = q + 1) with rfl | rfl
  · rw [if_neg]
    rintro (more | ⟨-, odd⟩)
    · nlinarith
    · omega
  · rw [if_pos]
    by_contra rest
    have : 2 * r < unit := by
      rcases lt_trichotomy (2 * r) unit with less | tie | more
      · exact less
      · exact absurd (.inr ⟨tie, by omega⟩) rest
      · exact absurd (.inl more) rest
    nlinarith

theorem digits_pos (n : ℕ) : 1 ≤ Decimal.digits n := by
  unfold Decimal.digits
  split_ifs
  · exact le_rfl
  · exact le_add_left _ _

theorem eq_of_near {p q : ℕ} (near : |(p : ℚ) - q| < 1) : p = q := by
  have whole : |(p : ℤ) - q| < 1 := by exact_mod_cast near
  exact_mod_cast Int.sub_eq_zero.mp (Int.abs_lt_one_iff.mp whole)

section Positive

variable {c u : ℕ} {e : ℤ}

theorem unitsInContext_eq_ok : unitsInContext (.finite false (c + 1) e) = .ok u ↔
    ∃ p k, inContext ((c + 1) * 1000000) e = .ok (p, k) ∧ integer p k = some u ∧ u ≤ maxUnits := by
  unfold unitsInContext
  simp only [bind_eq_ok, Prod.exists]
  refine exists_congr fun p => exists_congr fun k => and_congr_right fun _ => ?_
  cases integer p k with
  | none => simp
  | some n =>
    simp only [bind_eq_ok, require_eq_ok, exists_const, pure_eq_ok, some.injEq]
    constructor
    · rintro ⟨bounded, rfl⟩
      exact ⟨rfl, bounded⟩
    · rintro ⟨rfl, bounded⟩
      exact ⟨bounded, rfl⟩

theorem unitsInContext_close (accepted : unitsInContext (.finite false (c + 1) e) = .ok u) : u ≤ maxUnits ∧
    2 * |micros (c + 1) e - u| ≤ 10 ^ (e + excess ((c + 1) * 1000000) e) := by
  obtain ⟨p, k, scaled, whole, bounded⟩ := unitsInContext_eq_ok.1 accepted
  obtain ⟨rfl, rfl⟩ := inContext_eq_ok scaled
  refine ⟨bounded, ?_⟩
  rw [integer_eq_some] at whole
  set x := excess ((c + 1) * 1000000) e
  obtain ⟨upper, lower⟩ := halfEven_close ((c + 1) * 1000000) (show 0 < 10 ^ x by positivity)
  set p := halfEven ((c + 1) * 1000000) (10 ^ x)
  have ten : (0 : ℚ) < 10 ^ e := by positivity
  have upper' : 2 * (((c + 1) * 1000000 : ℕ) : ℚ) ≤ (2 * p + 1) * 10 ^ x := by exact_mod_cast upper
  have lower' : 2 * ((p : ℚ) * 10 ^ x) ≤ 2 * (((c + 1) * 1000000 : ℕ) : ℚ) + 10 ^ x := by exact_mod_cast lower
  have near : 2 * |(((c + 1) * 1000000 : ℕ) : ℚ) - p * 10 ^ x| ≤ 10 ^ x := by
    rcases abs_cases ((((c + 1) * 1000000 : ℕ) : ℚ) - p * 10 ^ x) with ⟨eq, -⟩ | ⟨eq, -⟩ <;> rw [eq] <;> linarith
  rw [← whole, micros, abs_scaled, ← mul_assoc, zpow_add₀ (by norm_num), zpow_natCast, mul_comm (10 ^ e : ℚ)]
  exact mul_le_mul_of_nonneg_right near ten.le

theorem unitsInContext_of_fits (fits : excess ((c + 1) * 1000000) e = 0) :
    unitsInContext (.finite false (c + 1) e) = .ok u ↔ micros (c + 1) e = u ∧ u ≤ maxUnits := by
  have same : halfEven ((c + 1) * 1000000) (10 ^ 0) = (c + 1) * 1000000 := by
    simpa using halfEven_mul ((c + 1) * 1000000) one_pos
  rw [unitsInContext_eq_ok, micros]
  constructor
  · rintro ⟨p, k, scaled, whole, bounded⟩
    obtain ⟨rfl, rfl⟩ := inContext_eq_ok scaled
    rw [fits, same, cast_zero, add_zero, integer_eq_some] at whole
    exact ⟨whole, bounded⟩
  · rintro ⟨whole, bounded⟩
    refine ⟨(c + 1) * 1000000, e, ?_, integer_eq_some.2 whole, bounded⟩
    have short : e + (Decimal.digits ((c + 1) * 1000000) : ℤ) ≤ emax + 1 := by
      have lower := pow_digits_le (show 0 < (c + 1) * 1000000 by omega)
      obtain ⟨n, width⟩ := Nat.exists_eq_add_of_le' (digits_pos ((c + 1) * 1000000))
      rw [width, Nat.add_sub_cancel] at lower
      have below : (10 : ℚ) ^ ((n : ℤ) + e) < 10 ^ (19 : ℤ) := by
        rw [zpow_add₀ (by norm_num), zpow_natCast]
        calc (10 : ℚ) ^ n * 10 ^ e ≤ (((c + 1) * 1000000 : ℕ) : ℚ) * 10 ^ e :=
              mul_le_mul_of_nonneg_right (by exact_mod_cast lower) (by positivity)
          _ = u := whole
          _ ≤ (2 ^ 63 - 1 : ℕ) := by exact_mod_cast bounded
          _ < 10 ^ (19 : ℤ) := by norm_num
      have := (zpow_lt_zpow_iff_right₀ (by norm_num : (1 : ℚ) < 10)).mp below
      rw [width, emax]
      push_cast
      omega
    unfold inContext
    rw [fits, same]
    simp only [bind_eq_ok, require_eq_ok, exists_const]
    exact ⟨by simpa using short, by simp⟩

theorem shift_le (dropped : 0 < excess ((c + 1) * 1000000) e) (bounded : u ≤ maxUnits) (close : 2 * |micros (c + 1)
    e - u| ≤ 10 ^ (e + excess ((c + 1) * 1000000) e)) : e + (excess ((c + 1) * 1000000) e : ℤ) ≤ -8 := by
  by_cases subnormal : (Decimal.digits ((c + 1) * 1000000) : ℤ) - Decimal.precision ≤ etiny - e
  · have depth : excess ((c + 1) * 1000000) e = (etiny - e).toNat := by
      unfold excess
      rw [max_eq_right subnormal]
    unfold etiny at depth
    omega
  have depth := excess_of_normal (lt_of_not_ge subnormal) dropped
  set x := excess ((c + 1) * 1000000) e
  have lower := pow_digits_le (show 0 < (c + 1) * 1000000 by omega)
  rw [show Decimal.digits ((c + 1) * 1000000) - 1 = 27 + x by unfold Decimal.precision at depth; omega, pow_add] at lower
  by_contra shallow
  have wide : (10 : ℚ) ^ (-7 : ℤ) ≤ 10 ^ (e + x) := zpow_le_zpow_right₀ (by norm_num) (by omega)
  have value : (10 : ℚ) ^ 27 * 10 ^ (e + x) ≤ micros (c + 1) e := by
    rw [micros, add_comm e, zpow_add₀ (by norm_num), zpow_natCast, ← mul_assoc]
    exact mul_le_mul_of_nonneg_right (by exact_mod_cast lower) (by positivity)
  have near := (abs_le.mp (show |micros (c + 1) e - u| ≤ 10 ^ (e + x) / 2 by linarith)).2
  have small : (u : ℚ) ≤ 2 ^ 63 := by
    have : u ≤ 2 ^ 63 := bounded.trans (by norm_num [maxUnits])
    exact_mod_cast this
  norm_num at wide
  linarith

theorem unitsInContext_of_close (dropped : 0 < excess ((c + 1) * 1000000) e) (bounded : u ≤ maxUnits)
    (close : 2 * |micros (c + 1) e - u| ≤ 10 ^ (e + excess ((c + 1) * 1000000) e)) :
    unitsInContext (.finite false (c + 1) e) = .ok u := by
  have deep := shift_le dropped bounded close
  set x := excess ((c + 1) * 1000000) e with depth
  obtain ⟨d, shift⟩ : ∃ d : ℕ, e + x = -(d + 1) := ⟨(-(e + x) - 1).toNat, by omega⟩
  -- the whole number as a multiple of the last digit kept
  have multiple : (u * 10 ^ (d + 1) : ℕ) * (10 : ℚ) ^ (e + x) = u := by
    rw [shift, zpow_neg]
    push_cast
    rw [mul_assoc, show ((10 : ℚ) ^ ((d : ℤ) + 1)) = 10 ^ (d + 1) by exact_mod_cast zpow_natCast (10 : ℚ) (d + 1),
      mul_inv_cancel₀ (by positivity), mul_one]
  have ten : (0 : ℚ) < 10 ^ e := by positivity
  have scaled : 2 * |(((c + 1) * 1000000 : ℕ) : ℚ) - (u * 10 ^ (d + 1) : ℕ) * 10 ^ x| ≤ 10 ^ x := by
    rw [← multiple, micros, abs_scaled, ← mul_assoc, zpow_add₀ (by norm_num), zpow_natCast, mul_comm (10 ^ e : ℚ)]
      at close
    exact le_of_mul_le_mul_right close ten
  obtain ⟨below, above⟩ := abs_le.mp (show |(((c + 1) * 1000000 : ℕ) : ℚ) - (u * 10 ^ (d + 1) : ℕ) * 10 ^ x| ≤
    10 ^ x / 2 by linarith)
  have kept : halfEven ((c + 1) * 1000000) (10 ^ x) = u * 10 ^ (d + 1) := by
    refine halfEven_even (by positivity) ?_ ?_ ?_
    · have : 2 * (((c + 1) * 1000000 : ℕ) : ℚ) ≤ (2 * (u * 10 ^ (d + 1) : ℕ) + 1) * 10 ^ x := by linarith
      exact_mod_cast this
    · have : 2 * (((u * 10 ^ (d + 1) : ℕ) : ℚ) * 10 ^ x) ≤ 2 * (((c + 1) * 1000000 : ℕ) : ℚ) + 10 ^ x := by linarith
      exact_mod_cast this
    · rw [pow_succ, ← mul_assoc]
      omega
  have digits : Decimal.digits (u * 10 ^ (d + 1)) ≤ 19 + (d + 1) := by
    rw [Decimal.digits_le_iff (by omega), pow_add 10 19]
    refine (Nat.mul_lt_mul_right (show 0 < 10 ^ (d + 1) by positivity)).mpr ?_
    unfold maxUnits at bounded
    omega
  refine unitsInContext_eq_ok.2 ⟨u * 10 ^ (d + 1), e + x, ?_, integer_eq_some.2 multiple, bounded⟩
  unfold inContext
  rw [← depth, kept]
  simp only [bind_eq_ok, require_eq_ok, exists_const]
  refine ⟨?_, rfl⟩
  rw [shift, emax]
  omega

theorem micros_cases (close : 2 * |micros c e - u| ≤ 10 ^ e) : ∃ n : ℕ, micros c e = n := by
  unfold micros at close ⊢
  generalize c * 1000000 = p at close ⊢
  by_cases large : 0 ≤ e
  · obtain ⟨e, rfl⟩ := Int.eq_ofNat_of_zero_le large
    refine ⟨p * 10 ^ e, ?_⟩
    push_cast
    rfl
  · obtain ⟨d, rfl⟩ : ∃ d : ℕ, e = -d := ⟨(-e).toNat, by omega⟩
    refine ⟨u, ?_⟩
    have ten : (0 : ℚ) < 10 ^ d := by positivity
    have multiple : ((u * 10 ^ d : ℕ) : ℚ) * 10 ^ (-(d : ℤ) + (0 : ℕ)) = u := by
      rw [cast_zero, add_zero, zpow_neg, zpow_natCast]
      push_cast
      rw [mul_assoc, mul_inv_cancel₀ ten.ne', mul_one]
    rw [← multiple, abs_scaled, pow_zero, mul_one, ← mul_assoc] at close
    have near := le_of_mul_le_mul_right (close.trans_eq (one_mul _).symm) (by positivity)
    rw [eq_of_near (p := p) (q := u * 10 ^ d) (by linarith), ← multiple, cast_zero, add_zero]

theorem denotes_finite : Denotes (.finite false c e) u ↔ micros c e = u ∧ u ≤ maxUnits := by
  rw [Denotes, ← magnitude_micros]
  simp [Decimal.isFinite, Decimal.toRat]

theorem positive_exact_iff : (∀ u, unitsInContext (.finite false (c + 1) e) = .ok u ↔
    Denotes (.finite false (c + 1) e) u) ↔ ¬ Misread (.finite false (c + 1) e) := by
  simp only [denotes_finite, Misread]
  rcases Nat.eq_zero_or_pos (excess ((c + 1) * 1000000) e) with fits | dropped
  · refine iff_of_true (fun u => unitsInContext_of_fits fits) ?_
    rintro ⟨broken, u, -, close⟩
    rw [fits, cast_zero, add_zero] at close
    exact broken (micros_cases close)
  · constructor
    · rintro exact ⟨broken, u, bounded, close⟩
      exact broken ⟨u, ((exact u).mp (unitsInContext_of_close dropped bounded close)).1⟩
    · intro clear u
      constructor
      · intro accepted
        obtain ⟨bounded, close⟩ := unitsInContext_close accepted
        refine ⟨?_, bounded⟩
        by_cases whole : ∃ n : ℕ, micros (c + 1) e = n
        · obtain ⟨n, whole⟩ := whole
          have deep : (10 : ℚ) ^ (e + (excess ((c + 1) * 1000000) e : ℤ)) ≤ 10 ^ (-8 : ℤ) :=
            zpow_le_zpow_right₀ (by norm_num) (shift_le dropped bounded close)
          rw [whole] at close ⊢
          have near : |(n : ℚ) - u| < 1 := by
            norm_num at deep
            linarith
          rw [eq_of_near near]
        · exact absurd ⟨whole, u, bounded, close⟩ clear
      · rintro ⟨value, bounded⟩
        refine unitsInContext_of_close dropped bounded ?_
        rw [value, sub_self, abs_zero, mul_zero]
        positivity

end Positive

theorem micros_zero (e : ℤ) : micros 0 e = 0 := by simp [micros]

theorem exact_iff (value : Decimal) : (∀ u, unitsInContext value = .ok u ↔ Denotes value u) ↔ ¬ Misread value := by
  match value with
  | .finite negative 0 e =>
    refine iff_of_true (fun u => ?_) ?_
    · have zero : (Decimal.finite negative 0 e).toRat = 0 := by
        cases negative <;> simp [Decimal.toRat, magnitude_eq]
      simp only [Denotes, zero, unitsInContext, pure_eq_ok, Decimal.isFinite, zero_mul, true_and]
      constructor
      · rintro rfl
        simp
      · rintro ⟨eq, -⟩
        exact_mod_cast eq
    · cases negative
      · exact fun misread => misread.1 ⟨0, by simpa using micros_zero e⟩
      · exact id
  | .finite false (c + 1) e => exact positive_exact_iff
  | .finite true (c + 1) e =>
    refine iff_of_true (fun u => iff_of_false (by simp [unitsInContext]) ?_) id
    rintro ⟨-, eq, -⟩
    have negative : -micros (c + 1) e = u := by
      rw [← eq, ← magnitude_micros]
      simp [Decimal.toRat]
    have : 0 < micros (c + 1) e := by
      rw [micros]
      positivity
    have : (0 : ℚ) ≤ u := by positivity
    linarith
  | .infinite _ | .nan =>
    refine iff_of_true (fun u => iff_of_false (by simp [unitsInContext]) ?_) id
    rintro ⟨finite, -⟩
    cases finite

theorem unitsInContext_millionths {u n : ℕ} : unitsInContext (.finite false n (-6)) = .ok u ↔ u = n ∧ u ≤ maxUnits := by
  have whole : micros n (-6) = n := by
    rw [micros, show (10 : ℚ) ^ (-6 : ℤ) = 1 / 1000000 by norm_num]
    push_cast
    ring
  have clear : ¬ Misread (.finite false n (-6)) := fun misread => misread.1 ⟨n, whole⟩
  rw [(exact_iff _).mpr clear u, denotes_finite, whole]
  exact and_congr_left' (by rw [Nat.cast_inj, eq_comm])

theorem units_of_usd (T : Texts) {u : ℕ} (bounded : u ≤ maxUnits) :
    ∃ text amount, usd u = .ok text ∧ T.decimal text = some amount ∧ unitsInContext amount = .ok u := by
  have short : u < 10 ^ 28 := by
    unfold maxUnits at bounded
    omega
  refine ⟨sixPlaces u, .finite false u (-6), ?_, T.decimal_sixPlaces u, unitsInContext_millionths.2 ⟨rfl, bounded⟩⟩
  simp only [usd, bind_eq_ok, pure_eq_ok]
  exact ⟨(u, -6), inContext_short short (by norm_num [etiny]) (by norm_num), by simp [millionths]⟩

theorem settled_exactly {P : Policy} {context generation : Option ℕ} {body : String} {l l' : Ledger} {claim : Claim}
    (settled : settleVerifiedReceipt P context body generation l = .ok (l', claim)) :
    ∃ dict m, P.loads body = some (.obj dict) ∧ receiptCost dict = .ok m ∧ claim.actual = some m := by
  obtain ⟨receipt, actual, row, parsed, -, -, -, -, -, outcome⟩ := settleVerifiedReceipt_ok settled
  have amount : claim.actual = some actual := by
    rcases outcome with ⟨-, -, -, -, settled, -, rfl, -⟩ | ⟨-, -, rfl, -⟩
    · exact settled
    · rfl
  simp only [parseReceipt, bind_eq_ok, require_eq_ok, exists_const, pure_eq_ok, Prod.mk.injEq] at parsed
  obtain ⟨dict, loaded, -, -, -, cost, written, units, converted, _, -, _, -, _, -, _, -, _, -, -, -, -, rfl⟩ := parsed
  refine ⟨dict, cost, ?_, written, by rw [amount, units_millionths converted]⟩
  unfold receiptDict at loaded
  split at loaded <;> simp_all

/-- `_units` is exact on all amounts but those that are misread; texts and settlements are exact throughout. -/
theorem conversion_exact (T : Texts)
    (P : Policy) (value : Decimal) : ((∀ u, unitsInContext value = .ok u ↔ Denotes value u) ↔ ¬ Misread value)
    ∧ (∀ u ≤ maxUnits, ∃ text amount, usd u = .ok text ∧ T.decimal text = some amount ∧ unitsInContext amount = .ok u)
    ∧ ∀ context body generation l l' claim, settleVerifiedReceipt P context body generation l =
    .ok (l', claim) → ∃ dict m, P.loads body = some (.obj dict) ∧ receiptCost dict = .ok m ∧ claim.actual = some m :=
  ⟨exact_iff value, fun _ bounded => units_of_usd T bounded, fun _ _ _ _ _ _ => settled_exactly⟩

theorem long_amount_accepted : unitsInContext (.finite false (10 ^ 31 + 1) (-31)) = .ok 1000000 ∧
    ¬ Denotes (.finite false (10 ^ 31 + 1) (-31)) 1000000 := by
  refine ⟨by decide, fun denotes => ?_⟩
  rw [denotes_finite, micros] at denotes
  exact absurd denotes.1 (by norm_num)

end VideoPoster.StandingBudget
