import Steering.Binary64.Rounding
/-! Doubles without a sign stand in the order of their patterns: the greater pattern is the greater
fraction. -/

namespace Steering.Binary64

/-- How many times the smallest positive double goes into the number of a magnitude. -/
def units (magnitude : Nat) : Nat :=
  (if magnitude / 0x10000000000000 = 0 then magnitude
    else 0x10000000000000 + magnitude % 0x10000000000000) *
    Nat.pow 2 (magnitude / 0x10000000000000 - 1)

theorem units_lt_of_field_lt {low high : Nat}
    (field : low / 0x10000000000000 < high / 0x10000000000000) : units low < units high := by
  have positive : 0 < Nat.pow 2 (low / 0x10000000000000 - 1) := Nat.pow_pos (by decide)
  have whole : 0 < high / 0x10000000000000 := Nat.zero_lt_of_lt field
  have above : 0x10000000000000 * Nat.pow 2 (high / 0x10000000000000 - 1) ≤ units high := by
    rw [units, if_neg (Nat.ne_of_gt whole)]
    exact Nat.mul_le_mul_right _ (Nat.le_add_right _ _)
  refine Nat.lt_of_lt_of_le ?_ above
  by_cases subnormal : low / 0x10000000000000 = 0
  · -- A subnormal number is less than the significand of any other.
    have small : low < 0x10000000000000 := by omega
    have one : 1 ≤ Nat.pow 2 (high / 0x10000000000000 - 1) := Nat.pow_pos (by decide)
    rw [units, if_pos subnormal, subnormal]
    exact Nat.lt_of_lt_of_le (Nat.lt_of_le_of_lt (Nat.le_of_eq (Nat.mul_one low)) small)
      (Nat.mul_le_mul_left 0x10000000000000 one)
  · -- The significand is less than twice the leading bit, which the exponent makes up for.
    have bit : 0x10000000000000 + low % 0x10000000000000 < 0x10000000000000 * 2 := by omega
    have twice : 2 * Nat.pow 2 (low / 0x10000000000000 - 1) ≤
        Nat.pow 2 (high / 0x10000000000000 - 1) := by
      have next : low / 0x10000000000000 - 1 + 1 ≤ high / 0x10000000000000 - 1 := by omega
      calc 2 * Nat.pow 2 (low / 0x10000000000000 - 1)
          = Nat.pow 2 (low / 0x10000000000000 - 1 + 1) := Nat.mul_comm _ _
        _ ≤ _ := Nat.pow_le_pow_right (by decide) next
    rw [units, if_neg subnormal]
    calc (0x10000000000000 + low % 0x10000000000000) * Nat.pow 2 (low / 0x10000000000000 - 1)
        < 0x10000000000000 * 2 * Nat.pow 2 (low / 0x10000000000000 - 1) :=
          Nat.mul_lt_mul_of_pos_right bit positive
      _ = 0x10000000000000 * (2 * Nat.pow 2 (low / 0x10000000000000 - 1)) := Nat.mul_assoc _ _ _
      _ ≤ _ := Nat.mul_le_mul_left _ twice

theorem units_strictMono {low high : Nat} (less : low < high) : units low < units high := by
  have fields : low / 0x10000000000000 ≤ high / 0x10000000000000 := Nat.div_le_div_right (Nat.le_of_lt less)
  rcases Nat.lt_or_eq_of_le fields with field | same
  · exact units_lt_of_field_lt field
  · have positive : 0 < Nat.pow 2 (high / 0x10000000000000 - 1) := Nat.pow_pos (by decide)
    rw [units, units, same]
    refine Nat.mul_lt_mul_of_pos_right ?_ positive
    split
    · exact less
    · omega

theorem units_lt_iff {x y : Nat} : units x < units y ↔ x < y := by
  refine ⟨fun less => ?_, units_strictMono⟩
  rcases Nat.lt_trichotomy x y with lower | same | higher
  · exact lower
  · exact absurd less (same ▸ Nat.lt_irrefl _)
  · exact absurd (units_strictMono higher) (Nat.lt_asymm less)

theorem denominator_pos (x : Binary64) : 0 < x.denominator := Nat.pow_pos (by decide)

/-- The fractions of all doubles count their units on one scale. -/
theorem exists_scale : ∃ scale, 0 < scale ∧
    ∀ x : Binary64, x.numerator * scale = units x.magnitude * x.denominator := by
  obtain ⟨lowest, its⟩ : ∃ lowest, lowest = 1074 := ⟨_, rfl⟩
  refine ⟨Nat.pow 2 lowest, Nat.pow_pos (by decide), fun x => ?_⟩
  have exponents : x.exponent.toNat + lowest =
      x.magnitude / 0x10000000000000 - 1 + (-x.exponent).toNat := by
    unfold exponent
    split <;> omega
  have powers : Nat.pow 2 x.exponent.toNat * Nat.pow 2 lowest =
      Nat.pow 2 (x.magnitude / 0x10000000000000 - 1) * Nat.pow 2 (-x.exponent).toNat := by
    calc Nat.pow 2 x.exponent.toNat * Nat.pow 2 lowest
        = Nat.pow 2 (x.exponent.toNat + lowest) := (Nat.pow_add 2 _ _).symm
      _ = Nat.pow 2 (x.magnitude / 0x10000000000000 - 1 + (-x.exponent).toNat) := by rw [exponents]
      _ = _ := Nat.pow_add 2 _ _
  rw [numerator, denominator, units, Nat.mul_assoc, powers, ← Nat.mul_assoc]
  rfl

/-- Of two doubles without a sign the greater is the one with the greater magnitude. -/
theorem magnitude_lt_iff (x y : Binary64) :
    x.magnitude < y.magnitude ↔ x.numerator * y.denominator < y.numerator * x.denominator := by
  obtain ⟨scale, positive, counts⟩ := exists_scale
  have common : 0 < x.denominator * y.denominator := Nat.mul_pos x.denominator_pos y.denominator_pos
  have left : units x.magnitude * (x.denominator * y.denominator) =
      x.numerator * y.denominator * scale := by
    rw [← Nat.mul_assoc, ← counts x, Nat.mul_right_comm]
  have right : units y.magnitude * (x.denominator * y.denominator) =
      y.numerator * x.denominator * scale := by
    rw [Nat.mul_comm x.denominator, ← Nat.mul_assoc, ← counts y, Nat.mul_right_comm]
  rw [← units_lt_iff, ← Nat.mul_lt_mul_right common, left, right, Nat.mul_lt_mul_right positive]

end Steering.Binary64
