import Mathlib.Algebra.Order.Field.Power
import Mathlib.Algebra.Order.Ring.Rat
import Mathlib.Tactic.FieldSimp
import Mathlib.Tactic.GCongr
import Mathlib.Tactic.Linarith
import Mathlib.Tactic.NormNum
import Mathlib.Tactic.Ring
import Steering.Binary64.Rounding
import Steering.Binary64.Shortest
/-! Rounding to the nearest double gives a positive double for all fractions between the midpoints
around it, and for the midpoints themselves if its significand is even. -/

namespace Steering.Binary64

/-! ## Fractions and powers -/

/-- Whether a fraction lies below another, or with `closed` also at it. -/
def Below (closed : Bool) (low high : ℚ) : Prop :=
  low < high ∨ closed = true ∧ low = high

theorem Below.le {closed : Bool} {low high : ℚ} (below : Below closed low high) : low ≤ high :=
  below.elim le_of_lt fun same => le_of_eq same.2

theorem below_of_le {low high : ℚ} (le : low ≤ high) : Below true low high :=
  (lt_or_eq_of_le le).imp_right fun same => ⟨rfl, same⟩

theorem Below.of_le_trans {closed : Bool} {low middle high : ℚ} (le : low ≤ middle)
    (below : Below closed middle high) : Below closed low high := by
  rcases lt_or_eq_of_le le with less | rfl
  · exact .inl (lt_of_lt_of_le less below.le)
  · exact below

/-- Whether a fraction lies below another does not change when both are counted in other units. -/
theorem below_div_iff {closed : Bool} {low high unit : ℚ} (positive : 0 < unit) :
    Below closed (low / unit) (high / unit) ↔ Below closed low high := by
  rw [Below, Below, div_lt_div_iff_of_pos_right positive, div_left_inj' (ne_of_gt positive)]

/-- A power with a sign in its exponent is a quotient of two powers without. -/
theorem zpow_eq_div (base : Nat) (n : Int) :
    (base : ℚ) ^ n = (Nat.pow base n.toNat : ℕ) / (Nat.pow base (-n).toNat : ℕ) := by
  rcases Int.le_total 0 n with whole | negative
  · obtain ⟨k, rfl⟩ := Int.eq_ofNat_of_zero_le whole
    have none : (-(k : Int)).toNat = 0 := by omega
    rw [none]
    simp
  · obtain ⟨k, same⟩ := Int.eq_ofNat_of_zero_le (Int.neg_nonneg_of_nonpos negative)
    obtain rfl : n = -(k : Int) := by omega
    have none : (-(k : Int)).toNat = 0 := by omega
    rw [none]
    simp

/-- A fraction is divided by a power by multiplying one of its parts. -/
theorem div_zpow (base num den : Nat) (n : Int) :
    ((num * Nat.pow base (-n).toNat : ℕ) : ℚ) / ((den * Nat.pow base n.toNat : ℕ) : ℚ) =
      (num : ℚ) / den / (base : ℚ) ^ n := by
  rw [zpow_eq_div, Nat.cast_mul, Nat.cast_mul, mul_div_mul_comm, div_eq_mul_inv ((num : ℚ) / den),
    inv_div]

/-! ## The steps of rounding -/

section Steps

variable {num den n : Nat}

theorem roundDiv_of_mod (positive : 0 < den)
    (above : 2 * n * den < 2 * num + den ∨ n % 2 = 0 ∧ 2 * n * den = 2 * num + den)
    (below : 2 * num < 2 * n * den + den ∨ n % 2 = 0 ∧ 2 * num = 2 * n * den + den) :
    roundDiv num den = n := by
  have whole := Nat.div_add_mod num den
  have part := Nat.mod_lt num positive
  simp only [roundDiv]
  generalize num / den = quotient at whole ⊢
  generalize num % den = rest at whole part ⊢
  have next : n ≤ quotient + 1 := by
    by_contra far
    have least := Nat.mul_le_mul_right den (by omega : 2 * quotient + 3 ≤ 2 * n)
    have shape : (2 * quotient + 3) * den = 2 * (den * quotient) + 3 * den := by ring
    omega
  have least : quotient ≤ n := by
    by_contra far
    have most := Nat.mul_le_mul_right den (by omega : 2 * n + 2 ≤ 2 * quotient)
    have shape : (2 * n + 2) * den = 2 * n * den + 2 * den := by ring
    have shapeToo : 2 * quotient * den = 2 * (den * quotient) := by ring
    omega
  rcases (by omega : n = quotient ∨ n = quotient + 1) with rfl | rfl
  · have shape : 2 * n * den = 2 * (den * n) := by ring
    rw [shape] at below
    split_ifs <;> omega
  · have shape : 2 * (quotient + 1) * den = 2 * (den * quotient) + 2 * den := by ring
    rw [shape] at above
    split_ifs <;> omega

theorem roundDiv_eq (positive : 0 < den) (above : Below (n % 2 == 0) ((n : ℚ) - 1 / 2) (num / den))
    (below : Below (n % 2 == 0) (num / den) ((n : ℚ) + 1 / 2)) : roundDiv num den = n := by
  have scale : (0 : ℚ) < den := Nat.cast_pos.mpr positive
  refine roundDiv_of_mod positive ?_ ?_
  · refine above.imp (fun less => ?_) fun ⟨even, same⟩ => ⟨by simpa using even, ?_⟩
    · rw [lt_div_iff₀ scale] at less
      have : (2 * n * den : ℚ) < 2 * num + den := by linarith
      exact_mod_cast this
    · rw [eq_div_iff (ne_of_gt scale)] at same
      have : (2 * n * den : ℚ) = 2 * num + den := by linarith
      exact_mod_cast this
  · refine below.imp (fun less => ?_) fun ⟨even, same⟩ => ⟨by simpa using even, ?_⟩
    · rw [div_lt_iff₀ scale] at less
      have : (2 * num : ℚ) < 2 * n * den + den := by linarith
      exact_mod_cast this
    · rw [div_eq_iff (ne_of_gt scale)] at same
      have : (2 * num : ℚ) = 2 * n * den + den := by linarith
      exact_mod_cast this

theorem log2_bounds (positive : 0 < n) :
    (2 : ℚ) ^ (n.log2 : Int) ≤ n ∧ (n : ℚ) < 2 ^ ((n.log2 : Int) + 1) := by
  have least := Nat.log2_self_le (Nat.ne_of_gt positive)
  have most := @Nat.lt_log2_self n
  constructor
  · rw [zpow_natCast]
    exact_mod_cast least
  · have next : ((n.log2 : Int) + 1) = ((n.log2 + 1 : Nat) : Int) := rfl
    rw [next, zpow_natCast]
    exact_mod_cast most

/-- The power of two that rounding starts from is the last one that is not above the fraction. -/
theorem floorLog2_bounds (positive : 0 < num) (whole : 0 < den) :
    (2 : ℚ) ^ floorLog2 num den ≤ num / den ∧
      (num / den : ℚ) < 2 ^ (floorLog2 num den + 1) := by
  obtain ⟨numLeast, numMost⟩ := log2_bounds positive
  obtain ⟨denLeast, denMost⟩ := log2_bounds whole
  have scale : (0 : ℚ) < den := Nat.cast_pos.mpr whole
  obtain ⟨guess, its⟩ : ∃ guess : Int, guess = (num.log2 : Int) - den.log2 := ⟨_, rfl⟩
  have above : (2 : ℚ) ^ (guess - 1) ≤ num / den := by
    rw [le_div_iff₀ scale]
    calc (2 : ℚ) ^ (guess - 1) * den
        ≤ 2 ^ (guess - 1) * 2 ^ ((den.log2 : Int) + 1) := by gcongr
      _ = 2 ^ (num.log2 : Int) := by
        rw [← zpow_add₀ two_ne_zero]
        congr 1
        omega
      _ ≤ num := numLeast
  have below : (num / den : ℚ) < 2 ^ (guess + 1) := by
    rw [div_lt_iff₀ scale]
    calc (num : ℚ) < 2 ^ ((num.log2 : Int) + 1) := numMost
      _ = 2 ^ (guess + 1) * 2 ^ (den.log2 : Int) := by
        rw [← zpow_add₀ two_ne_zero]
        congr 1
        omega
      _ ≤ 2 ^ (guess + 1) * den := by gcongr
  have decides : den * Nat.pow 2 guess.toNat ≤ num * Nat.pow 2 (-guess).toNat ↔
      (2 : ℚ) ^ guess ≤ num / den := by
    have power : (0 : ℚ) < (Nat.pow 2 (-guess).toNat : ℕ) :=
      Nat.cast_pos.mpr (Nat.pow_pos (by decide))
    rw [show (2 : ℚ) = ((2 : ℕ) : ℚ) by norm_num, zpow_eq_div, div_le_div_iff₀ power scale,
      mul_comm]
    exact_mod_cast Iff.rfl
  simp only [floorLog2, ← its]
  split_ifs with reached
  · exact ⟨decides.mp reached, below⟩
  · rw [sub_add_cancel]
    exact ⟨above, not_le.mp fun other => reached (decides.mpr other)⟩

theorem floorLog2_lt_iff (positive : 0 < num) (whole : 0 < den) (power : Int) :
    floorLog2 num den < power ↔ (num / den : ℚ) < 2 ^ power := by
  obtain ⟨least, most⟩ := floorLog2_bounds positive whole
  constructor
  · intro less
    exact lt_of_lt_of_le most (zpow_le_zpow_right₀ (by norm_num) less)
  · intro less
    exact (zpow_lt_zpow_iff_right₀ (by norm_num : (1 : ℚ) < 2)).mp (lt_of_le_of_lt least less)

end Steps

/-! ## The parts of a number -/

section Parts

variable (x : Binary64)

theorem magnitude_eq : x.magnitude =
    (x.exponent + 1074).toNat * 0x10000000000000 + x.significand := by
  by_cases subnormal : x.magnitude / 0x10000000000000 = 0
  · rw [exponent, significand, if_pos subnormal, if_pos subnormal]
    omega
  · rw [exponent, significand, if_neg subnormal, if_neg subnormal]
    omega

theorem exponent_least : -1074 ≤ x.exponent := by
  unfold exponent
  split_ifs <;> omega

theorem significand_lt : x.significand < 0x20000000000000 := by
  unfold significand
  split_ifs <;> omega

variable {x}

theorem significand_pos (nonzero : x.magnitude ≠ 0) : 0 < x.significand := by
  unfold significand
  split_ifs <;> omega

/-- Above the smallest exponent the significand has its leading bit. -/
theorem leading_of_exponent (above : -1074 < x.exponent) :
    0x10000000000000 ≤ x.significand ∧ 1 < x.magnitude / 0x10000000000000 := by
  unfold exponent at above
  unfold significand
  split_ifs at above ⊢ <;> omega

/-- The fractions that are rounded to a positive number. -/
structure Rounds (x : Binary64) (q : ℚ) : Prop where
  above : Below (x.significand % 2 == 0) ((x.roundingRange.1 : ℚ) / 4) (q / 2 ^ x.exponent)
  below : Below (x.significand % 2 == 0) (q / 2 ^ x.exponent) ((x.roundingRange.2.2 : ℚ) / 4)

theorem upper_eq : (x.roundingRange.2.2 : ℚ) / 4 = x.significand + 1 / 2 := by
  change ((4 * x.significand + 2 : ℕ) : ℚ) / 4 = _
  push_cast
  ring

theorem lower_eq (nonzero : x.magnitude ≠ 0) : (x.roundingRange.1 : ℚ) / 4 =
    if x.significand = 0x10000000000000 ∧ 1 < x.magnitude / 0x10000000000000
      then (x.significand : ℚ) - 1 / 4 else x.significand - 1 / 2 := by
  have positive := significand_pos nonzero
  split_ifs with narrow
  · have lower : x.roundingRange.1 = 4 * x.significand - 1 := if_pos narrow
    rw [lower, Nat.cast_sub (by omega)]
    push_cast
    ring
  · have lower : x.roundingRange.1 = 4 * x.significand - 2 := if_neg narrow
    rw [lower, Nat.cast_sub (by omega)]
    push_cast
    ring

end Parts

/-- A significand of twice the leading bit carries into the exponent. -/
theorem carry_eq {step exponent : Int} {magnitude significand : Nat} (half : step = exponent - 1)
    (least : -1074 ≤ step) (first : significand = 0x10000000000000)
    (shape : magnitude = (exponent + 1074).toNat * 0x10000000000000 + significand) :
    (step + 1074).toNat * 0x10000000000000 + 0x20000000000000 = magnitude := by
  omega

/-- Rounding gives a positive number for every fraction between the midpoints around it. -/
theorem nearestMagnitude_eq {x : Binary64} (finite : x.isFinite = true) (nonzero : x.magnitude ≠ 0)
    {num den : Nat} (positive : 0 < num) (whole : 0 < den) (rounds : x.Rounds (num / den)) :
    nearestMagnitude num den = x.magnitude := by
  have shape := x.magnitude_eq
  have least := x.exponent_least
  have most := x.significand_lt
  have positive' := significand_pos nonzero
  have bound : x.magnitude < infinityMagnitude := of_decide_eq_true finite
  obtain ⟨above, below⟩ := rounds
  rw [lower_eq nonzero] at above
  rw [upper_eq] at below
  have unit : (0 : ℚ) < 2 ^ x.exponent := zpow_pos (by norm_num) _
  -- The fraction lies below the numbers with a greater exponent.
  have inside : floorLog2 num den < x.exponent + 53 := by
    rw [floorLog2_lt_iff positive whole, add_comm, zpow_add₀ two_ne_zero, ← div_lt_iff₀ unit]
    have top : (x.significand : ℚ) + 1 ≤ 2 ^ (53 : Int) := by
      norm_num
      exact_mod_cast most
    linarith [below.le]
  obtain ⟨step, its⟩ : ∃ step : Int, step = max (floorLog2 num den - 52) (-1074) := ⟨_, rfl⟩
  have stepped : nearestMagnitude num den = min ((step + 1074).toNat * 0x10000000000000 +
      roundDiv (num * Nat.pow 2 (-step).toNat) (den * Nat.pow 2 step.toNat)) infinityMagnitude := by
    rw [nearestMagnitude, if_neg (Nat.ne_of_gt positive), its]
  have scaled : 0 < den * Nat.pow 2 step.toNat := Nat.mul_pos whole (Nat.pow_pos (by decide))
  have value := div_zpow 2 num den step
  rw [Nat.cast_ofNat] at value
  rcases (by omega : step = x.exponent ∨ step < x.exponent) with same | finer
  · -- The fraction is rounded on the grid of the number.
    have rounded : roundDiv (num * Nat.pow 2 (-step).toNat) (den * Nat.pow 2 step.toNat) =
        x.significand := by
      apply roundDiv_eq scaled
      · rw [value, same]
        exact above.of_le_trans (by split_ifs <;> linarith)
      · rw [value, same]
        exact below
    rw [stepped, rounded, same, ← shape]
    exact Nat.min_eq_left (Nat.le_of_lt bound)
  · -- The grid is finer only if the number is the least one of its exponent.
    obtain ⟨leading, field⟩ := leading_of_exponent (x := x) (by omega)
    have lower : (num / den : ℚ) / 2 ^ x.exponent < 2 ^ (52 : Int) := by
      rw [div_lt_iff₀ unit, ← zpow_add₀ two_ne_zero, add_comm,
        ← floorLog2_lt_iff positive whole]
      omega
    have first : x.significand = 0x10000000000000 := by
      have close : (2 * x.significand : ℚ) < 2 * 0x10000000000000 + 1 := by
        norm_num at lower
        split_ifs at above <;> linarith [above.le]
      have few : 2 * x.significand < 2 * 0x10000000000000 + 1 := by exact_mod_cast close
      omega
    rw [if_pos ⟨first, field⟩, first] at above
    have upper : ¬ floorLog2 num den < x.exponent + 51 := by
      rw [floorLog2_lt_iff positive whole, add_comm, zpow_add₀ two_ne_zero, ← div_lt_iff₀ unit]
      have far := above.le
      norm_num at far ⊢
      linarith
    have half : step = x.exponent - 1 := by omega
    have twice : (num / den : ℚ) / 2 ^ step = 2 * (num / den / 2 ^ x.exponent) := by
      rw [half, zpow_sub_one₀ two_ne_zero]
      field_simp
    have rounded : roundDiv (num * Nat.pow 2 (-step).toNat) (den * Nat.pow 2 step.toNat) =
        0x20000000000000 := by
      apply roundDiv_eq scaled
      · rw [value, twice]
        have far := above.le
        apply below_of_le
        norm_num at far ⊢
        linarith
      · rw [value, twice]
        left
        norm_num at lower ⊢
        linarith
    have carried := carry_eq half (its ▸ le_max_right _ _) first shape
    rw [stepped, rounded, carried]
    exact Nat.min_eq_left (Nat.le_of_lt bound)

end Steering.Binary64
