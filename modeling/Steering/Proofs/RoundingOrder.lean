import Mathlib.Algebra.Order.Field.Basic
import Steering.Proofs.MagnitudeOrder
import Steering.Proofs.NearestDouble
/-! Rounding keeps the order of fractions, so that products and quotients of doubles grow with the
numbers that they are made of. -/

namespace Steering.Binary64

/-! ## Rounding -/

section Rounding

variable {num den num' den' : Nat}

/-- A rounded fraction is at most one half away, and only if it is even. -/
theorem roundDiv_between (positive : 0 < den) :
    Below (roundDiv num den % 2 == 0) ((roundDiv num den : ℚ) - 1 / 2) (num / den) ∧
      Below (roundDiv num den % 2 == 0) (num / den) ((roundDiv num den : ℚ) + 1 / 2) := by
  have scale : (0 : ℚ) < den := Nat.cast_pos.mpr positive
  have whole : (num : ℚ) = den * (num / den : ℕ) + (num % den : ℕ) := by
    exact_mod_cast (Nat.div_add_mod num den).symm
  have part : ((num % den : ℕ) : ℚ) < den := by exact_mod_cast Nat.mod_lt num positive
  have least : (0 : ℚ) ≤ (num % den : ℕ) := Nat.cast_nonneg _
  have value : (num : ℚ) / den = (num / den : ℕ) + (num % den : ℕ) / den := by
    rw [whole, add_div, mul_div_cancel_left₀ _ (ne_of_gt scale)]
  simp only [roundDiv]
  generalize num / den = quotient at value ⊢
  generalize num % den = rest at value part least ⊢
  have fraction : (0 : ℚ) ≤ rest / den := div_nonneg least (le_of_lt scale)
  have small : (rest : ℚ) / den < 1 := (div_lt_one scale).mpr part
  split_ifs with lower upper
  · have half : (rest : ℚ) / den < 1 / 2 := by
      rw [div_lt_iff₀ scale]
      have : (2 * rest : ℚ) < den := by exact_mod_cast lower
      linarith
    exact ⟨.inl (by rw [value]; linarith), .inl (by rw [value]; linarith)⟩
  · have half : 1 / 2 < (rest : ℚ) / den := by
      rw [lt_div_iff₀ scale]
      have : (den : ℚ) < 2 * rest := by exact_mod_cast upper
      linarith
    push_cast
    exact ⟨.inl (by rw [value]; linarith), .inl (by rw [value]; linarith)⟩
  · have half : (rest : ℚ) / den = 1 / 2 := by
      have same : (2 * rest : ℚ) = den := by exact_mod_cast (by omega : 2 * rest = den)
      rw [div_eq_iff (ne_of_gt scale)]
      linarith
    have even : ((quotient + quotient % 2) % 2 == 0) = true := by
      rw [beq_iff_eq]
      omega
    rw [even]
    have parity : quotient % 2 = 0 ∨ quotient % 2 = 1 := Nat.mod_two_eq_zero_or_one quotient
    push_cast
    rcases parity with none | one
    · rw [none, Nat.cast_zero]
      exact ⟨.inl (by rw [value]; linarith), below_of_le (by rw [value]; linarith)⟩
    · rw [one, Nat.cast_one]
      exact ⟨below_of_le (by rw [value]; linarith), .inl (by rw [value]; linarith)⟩

theorem roundDiv_mono (positive : 0 < den) (positive' : 0 < den')
    (le : (num : ℚ) / den ≤ num' / den') : roundDiv num den ≤ roundDiv num' den' := by
  obtain ⟨above, -⟩ := @roundDiv_between num den positive
  obtain ⟨-, below⟩ := @roundDiv_between num' den' positive'
  generalize roundDiv num den = n at above
  generalize roundDiv num' den' = n' at below
  by_contra far
  have next : (n' : ℚ) + 1 ≤ n := by exact_mod_cast Nat.not_le.mp far
  -- Only a tie is left, between two neighbours that would both have to be even.
  rcases above with less | ⟨even, same⟩
  · linarith [below.le]
  · rcases below with less' | ⟨even', same'⟩
    · linarith
    · have neighbours : (n : ℚ) = n' + 1 := by linarith
      have numbers : n = n' + 1 := by exact_mod_cast neighbours
      rw [beq_iff_eq] at even even'
      omega

theorem roundDiv_one (n : Nat) : roundDiv n 1 = n := by
  simp [roundDiv, Nat.mod_one]

theorem roundDiv_le {m : Nat} (positive : 0 < den) (le : (num : ℚ) / den ≤ m) :
    roundDiv num den ≤ m := by
  have rounded := @roundDiv_mono num den m 1 positive Nat.one_pos (by simpa using le)
  rwa [roundDiv_one] at rounded

theorem le_roundDiv {m : Nat} (positive : 0 < den) (le : (m : ℚ) ≤ num / den) :
    m ≤ roundDiv num den := by
  have rounded := @roundDiv_mono m 1 num den Nat.one_pos positive (by simpa using le)
  rwa [roundDiv_one] at rounded

theorem floorLog2_mono (positive : 0 < num) (whole : 0 < den) (positive' : 0 < num')
    (whole' : 0 < den') (le : (num : ℚ) / den ≤ num' / den') :
    floorLog2 num den ≤ floorLog2 num' den' := by
  by_contra far
  obtain ⟨least, -⟩ := floorLog2_bounds positive whole
  have most := (floorLog2_lt_iff positive' whole' _).mp (not_le.mp far)
  linarith

/-- Of two fractions the greater has no smaller double nearest to it. -/
theorem nearestMagnitude_mono (whole : 0 < den) (whole' : 0 < den')
    (le : (num : ℚ) / den ≤ num' / den') :
    nearestMagnitude num den ≤ nearestMagnitude num' den' := by
  rcases Nat.eq_zero_or_pos num with rfl | positive
  · exact Nat.zero_le _
  have scale' : (0 : ℚ) < den' := Nat.cast_pos.mpr whole'
  have positive' : 0 < num' := by
    have some : (0 : ℚ) < num / den := div_pos (Nat.cast_pos.mpr positive) (Nat.cast_pos.mpr whole)
    have someToo : (0 : ℚ) < num' / den' := lt_of_lt_of_le some le
    exact_mod_cast (div_pos_iff_of_pos_right scale').mp someToo
  have logs := floorLog2_mono positive whole positive' whole' le
  obtain ⟨-, most⟩ := floorLog2_bounds positive whole
  obtain ⟨least, -⟩ := floorLog2_bounds positive' whole'
  rw [nearestMagnitude, nearestMagnitude, if_neg (Nat.ne_of_gt positive),
    if_neg (Nat.ne_of_gt positive')]
  refine min_le_min_right _ ?_
  obtain ⟨step, its⟩ : ∃ step : Int, step = max (floorLog2 num den - 52) (-1074) := ⟨_, rfl⟩
  obtain ⟨step', its'⟩ : ∃ step : Int, step = max (floorLog2 num' den' - 52) (-1074) := ⟨_, rfl⟩
  rw [← its, ← its']
  have scaled : 0 < den * Nat.pow 2 step.toNat := Nat.mul_pos whole (Nat.pow_pos (by decide))
  have scaled' : 0 < den' * Nat.pow 2 step'.toNat := Nat.mul_pos whole' (Nat.pow_pos (by decide))
  have value := div_zpow 2 num den step
  have value' := div_zpow 2 num' den' step'
  rw [Nat.cast_ofNat] at value value'
  rcases (by omega : step = step' ∨ step < step') with same | finer
  · rw [same] at scaled value ⊢
    refine Nat.add_le_add_left (roundDiv_mono scaled scaled' ?_) _
    rw [value, value']
    exact div_le_div_of_nonneg_right le (le_of_lt (zpow_pos (by norm_num) _))
  · -- On the finer grid the fraction is at most its last point, which is the first of the next one.
    have few : roundDiv (num * Nat.pow 2 (-step).toNat) (den * Nat.pow 2 step.toNat) ≤
        0x20000000000000 := by
      have top : ((0x20000000000000 : ℕ) : ℚ) = 2 ^ (53 : Int) := by norm_num
      refine roundDiv_le scaled ?_
      rw [value, top, div_le_iff₀ (zpow_pos (by norm_num) _), ← zpow_add₀ two_ne_zero]
      exact le_trans most.le (zpow_le_zpow_right₀ (by norm_num) (by omega))
    have many : 0x10000000000000 ≤
        roundDiv (num' * Nat.pow 2 (-step').toNat) (den' * Nat.pow 2 step'.toNat) := by
      have bottom : ((0x10000000000000 : ℕ) : ℚ) = 2 ^ (52 : Int) := by norm_num
      refine le_roundDiv scaled' ?_
      rw [value', bottom, le_div_iff₀ (zpow_pos (by norm_num) _), ← zpow_add₀ two_ne_zero]
      exact le_trans (zpow_le_zpow_right₀ (by norm_num) (by omega)) least
    have bound : -1074 ≤ step := its ▸ le_max_right _ _
    omega

end Rounding

/-! ## Numbers without a sign -/

theorem nearestMagnitude_le (num den : Nat) : nearestMagnitude num den ≤ infinityMagnitude := by
  rw [nearestMagnitude]
  split
  · exact Nat.zero_le _
  · exact min_le_right _ _

theorem ofMagnitude_parts {sign : Bool} {magnitude : Nat} (small : magnitude < 0x8000000000000000) :
    (ofMagnitude sign magnitude).magnitude = magnitude ∧
      (ofMagnitude sign magnitude).signed = sign := by
  cases sign
  · simp only [ofMagnitude, Binary64.magnitude, signed, UInt64.toNat_ofNat', Bool.false_eq_true,
      if_false, decide_eq_false_iff_not]
    omega
  · simp only [ofMagnitude, Binary64.magnitude, signed, UInt64.toNat_ofNat', if_true,
      decide_eq_true_eq]
    omega

@[simp] theorem magnitude_ofRatio (sign : Bool) (num den : Nat) :
    (ofRatio sign num den).magnitude = nearestMagnitude num den :=
  (ofMagnitude_parts (Nat.lt_of_le_of_lt (nearestMagnitude_le num den) (by decide))).1

@[simp] theorem signed_ofRatio (sign : Bool) (num den : Nat) :
    (ofRatio sign num den).signed = sign :=
  (ofMagnitude_parts (Nat.lt_of_le_of_lt (nearestMagnitude_le num den) (by decide))).2

variable {x y : Binary64}

/-- Of two doubles the one with the greater magnitude is the greater fraction. -/
theorem fraction_le (le : x.magnitude ≤ y.magnitude) :
    (x.numerator : ℚ) / x.denominator ≤ y.numerator / y.denominator := by
  have order := mt (magnitude_lt_iff y x).mpr (Nat.not_lt.mpr le)
  rw [div_le_div_iff₀ (Nat.cast_pos.mpr x.denominator_pos) (Nat.cast_pos.mpr y.denominator_pos)]
  exact_mod_cast Nat.not_lt.mp order

theorem ofNat_mono {m n : Nat} (le : m ≤ n) : (ofNat m).magnitude ≤ (ofNat n).magnitude := by
  rw [ofNat, ofNat, magnitude_ofRatio, magnitude_ofRatio]
  apply nearestMagnitude_mono Nat.one_pos Nat.one_pos
  rw [Nat.cast_one, div_one, div_one]
  exact_mod_cast le

theorem mul_mono (le : x.magnitude ≤ y.magnitude) (z : Binary64) :
    (x.mul z).magnitude ≤ (y.mul z).magnitude := by
  rw [mul, mul, magnitude_ofRatio, magnitude_ofRatio]
  apply nearestMagnitude_mono (Nat.mul_pos x.denominator_pos z.denominator_pos)
    (Nat.mul_pos y.denominator_pos z.denominator_pos)
  push_cast
  rw [mul_div_mul_comm, mul_div_mul_comm]
  exact mul_le_mul_of_nonneg_right (fraction_le le)
    (div_nonneg (Nat.cast_nonneg _) (Nat.cast_nonneg _))

theorem magnitude_mul_comm (x y : Binary64) : (x.mul y).magnitude = (y.mul x).magnitude := by
  rw [mul, mul, magnitude_ofRatio, magnitude_ofRatio, Nat.mul_comm x.numerator,
    Nat.mul_comm x.denominator]

theorem div_mono (le : x.magnitude ≤ y.magnitude) {z : Binary64} (some : 0 < z.numerator) :
    (x.div z).magnitude ≤ (y.div z).magnitude := by
  rw [div, div, magnitude_ofRatio, magnitude_ofRatio]
  apply nearestMagnitude_mono (Nat.mul_pos x.denominator_pos some)
    (Nat.mul_pos y.denominator_pos some)
  push_cast
  rw [mul_div_mul_comm, mul_div_mul_comm]
  exact mul_le_mul_of_nonneg_right (fraction_le le)
    (div_nonneg (Nat.cast_nonneg _) (Nat.cast_nonneg _))

theorem isFinite_of_le (le : x.magnitude ≤ y.magnitude) (finite : y.isFinite = true) :
    x.isFinite = true :=
  decide_eq_true (Nat.lt_of_le_of_lt le (of_decide_eq_true finite))

end Steering.Binary64
