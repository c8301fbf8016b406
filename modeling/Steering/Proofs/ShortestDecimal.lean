import Mathlib.Algebra.Order.Floor.Semifield
import Mathlib.Data.Rat.Floor
import Mathlib.Tactic.Positivity
import Steering.Proofs.NearestDouble
/-! The shortest decimal of a double is rounded to it: seventeen digits are always enough to come
between the midpoints around it, and only decimals between them are taken. -/

namespace Steering.Binary64

/-- The fraction that a decimal stands for. -/
def Decimal.value (d : Decimal) : ℚ := d.digits * 10 ^ d.power

variable {x : Binary64} {power : Int}

/-! ## A decimal grid -/

theorem ratioBelow_iff {closed : Bool} {num den num' den' : Nat} (positive : 0 < den)
    (positive' : 0 < den') :
    ratioBelow closed num den num' den' = true ↔ Below closed ((num : ℚ) / den) (num' / den') := by
  have scale : (0 : ℚ) < den := Nat.cast_pos.mpr positive
  have scale' : (0 : ℚ) < den' := Nat.cast_pos.mpr positive'
  have less : num * den' < num' * den ↔ (num : ℚ) / den < num' / den' := by
    rw [div_lt_div_iff₀ scale scale']
    exact_mod_cast Iff.rfl
  have same : num * den' = num' * den ↔ (num : ℚ) / den = num' / den' := by
    rw [div_eq_div_iff (ne_of_gt scale) (ne_of_gt scale')]
    exact_mod_cast Iff.rfl
  simp only [ratioBelow, Bool.or_eq_true, decide_eq_true_eq, Bool.and_eq_true, beq_iff_eq, less,
    same, Below]

variable (x power) in
/-- How many steps of a decimal grid make a step of the number. -/
def stepRatio : ℚ := 2 ^ x.exponent / 10 ^ power

theorem stepRatio_pos : 0 < x.stepRatio power :=
  div_pos (zpow_pos (by norm_num) _) (zpow_pos (by norm_num) _)

/-- The computed scale of a grid. -/
theorem scale_div_unit (x : Binary64) (power : Int) (n : Nat) :
    ((n * (Nat.pow 2 x.exponent.toNat * Nat.pow 10 (-power).toNat) : ℕ) : ℚ) /
      ((4 * Nat.pow 2 (-x.exponent).toNat * Nat.pow 10 power.toNat : ℕ) : ℚ) =
      n / 4 * x.stepRatio power := by
  have two := zpow_eq_div 2 x.exponent
  have ten := zpow_eq_div 10 power
  rw [Nat.cast_ofNat] at two ten
  rw [stepRatio, two, ten]
  simp only [Nat.cast_mul, Nat.cast_ofNat]
  rw [div_div_div_eq]
  ring

/-- A point of a grid is rounded to the number when it is between the ends of its range. -/
theorem rounds_point_iff (x : Binary64) (power : Int) (n : Nat) :
    x.Rounds (n * 10 ^ power) ↔
      Below (x.significand % 2 == 0) (x.roundingRange.1 / 4 * x.stepRatio power) n ∧
        Below (x.significand % 2 == 0) n (x.roundingRange.2.2 / 4 * x.stepRatio power) := by
  have positive := @stepRatio_pos x power
  have point : (n * 10 ^ power / 2 ^ x.exponent : ℚ) = n / x.stepRatio power := by
    rw [stepRatio, div_div_eq_mul_div]
  have cancel (end' : ℚ) : end' = end' * x.stepRatio power / x.stepRatio power := by
    rw [mul_div_cancel_right₀ _ (ne_of_gt positive)]
  have both : x.Rounds (n * 10 ^ power) ↔
      Below (x.significand % 2 == 0) (x.roundingRange.1 / 4) (n / x.stepRatio power) ∧
        Below (x.significand % 2 == 0) (n / x.stepRatio power) (x.roundingRange.2.2 / 4) :=
    ⟨fun ⟨above, below⟩ => ⟨point ▸ above, point ▸ below⟩,
      fun ⟨above, below⟩ => ⟨point ▸ above, point ▸ below⟩⟩
  rw [both, cancel (x.roundingRange.1 / 4), cancel (x.roundingRange.2.2 / 4),
    below_div_iff positive, below_div_iff positive, ← cancel, ← cancel]

/-- Whether a point of a grid may be taken for the number. -/
def hitsPoint (x : Binary64) (power : Int) (n : Nat) : Bool :=
  let scale := Nat.pow 2 x.exponent.toNat * Nat.pow 10 (-power).toNat
  let unit := 4 * Nat.pow 2 (-x.exponent).toNat * Nat.pow 10 power.toNat
  0 < n && ratioBelow (x.significand % 2 == 0) (x.roundingRange.1 * scale) unit n 1
    && ratioBelow (x.significand % 2 == 0) n 1 (x.roundingRange.2.2 * scale) unit

theorem hitsPoint_iff {n : Nat} :
    x.hitsPoint power n = true ↔ 0 < n ∧ x.Rounds (n * 10 ^ power) := by
  have unit : 0 < 4 * Nat.pow 2 (-x.exponent).toNat * Nat.pow 10 power.toNat :=
    Nat.mul_pos (Nat.mul_pos (by decide) (Nat.pow_pos (by decide))) (Nat.pow_pos (by decide))
  rw [hitsPoint, Bool.and_eq_true, Bool.and_eq_true, decide_eq_true_eq,
    ratioBelow_iff unit Nat.one_pos, ratioBelow_iff Nat.one_pos unit, scale_div_unit,
    scale_div_unit, Nat.cast_one, div_one, rounds_point_iff, and_assoc]

/-- The point of a grid that is not above a number and next to it. -/
def pointBelow (x : Binary64) (power : Int) : Nat :=
  4 * x.significand * (Nat.pow 2 x.exponent.toNat * Nat.pow 10 (-power).toNat) /
    (4 * Nat.pow 2 (-x.exponent).toNat * Nat.pow 10 power.toNat)

theorem pointBelow_bounds : (x.pointBelow power : ℚ) ≤ x.significand * x.stepRatio power ∧
    x.significand * x.stepRatio power < x.pointBelow power + 1 := by
  have value := scale_div_unit x power (4 * x.significand)
  have floor := Nat.floor_div_eq_div (K := ℚ)
    (4 * x.significand * (Nat.pow 2 x.exponent.toNat * Nat.pow 10 (-power).toNat))
    (4 * Nat.pow 2 (-x.exponent).toNat * Nat.pow 10 power.toNat)
  have same : ((4 * x.significand : ℕ) : ℚ) / 4 = x.significand := by
    push_cast
    ring
  rw [value, same] at floor
  rw [pointBelow, ← floor]
  exact ⟨Nat.floor_le (mul_nonneg (Nat.cast_nonneg _) (le_of_lt stepRatio_pos)),
    Nat.lt_floor_add_one _⟩

/-- A grid gives a point if one of the two next to the number may be taken for it, and only then. -/
theorem onGrid?_cases (x : Binary64) (power : Int) :
    (∃ n, x.onGrid? power = some ⟨n, power⟩ ∧ x.hitsPoint power n = true) ∨
      x.onGrid? power = none ∧ x.hitsPoint power (x.pointBelow power) = false ∧
        x.hitsPoint power (x.pointBelow power + 1) = false := by
  have shape : ∃ near : Bool, x.onGrid? power =
      if x.hitsPoint power (x.pointBelow power) &&
          (near || !x.hitsPoint power (x.pointBelow power + 1)) then
        some ⟨x.pointBelow power, power⟩
      else if x.hitsPoint power (x.pointBelow power + 1) then
        some ⟨x.pointBelow power + 1, power⟩
      else none := ⟨_, rfl⟩
  obtain ⟨near, shape⟩ := shape
  rw [shape]
  cases down : x.hitsPoint power (x.pointBelow power) with
  | false =>
    cases up : x.hitsPoint power (x.pointBelow power + 1) with
    | false => exact .inr ⟨rfl, rfl, rfl⟩
    | true => exact .inl ⟨_, rfl, up⟩
  | true =>
    cases up : x.hitsPoint power (x.pointBelow power + 1) with
    | false => exact .inl ⟨_, by cases near <;> rfl, down⟩
    | true =>
      cases near with
      | true => exact .inl ⟨_, rfl, down⟩
      | false => exact .inl ⟨_, rfl, up⟩

theorem rounds_of_onGrid {d : Decimal} (found : x.onGrid? power = some d) :
    0 < d.digits ∧ x.Rounds d.value := by
  rcases onGrid?_cases x power with ⟨n, given, hits⟩ | ⟨none, -⟩
  · cases found.symm.trans given
    exact hitsPoint_iff.mp hits
  · cases found.symm.trans none

/-! ## Enough digits -/

/-- A grid on which the number has seventeen digits is finer than the range of the number. -/
theorem exists_onGrid (nonzero : x.magnitude ≠ 0)
    (fine : (10 : ℚ) ^ 16 ≤ x.significand * x.stepRatio power) :
    ∃ d, x.onGrid? power = some d := by
  rcases onGrid?_cases x power with ⟨n, given, -⟩ | ⟨-, notDown, notUp⟩
  · exact ⟨_, given⟩
  · exfalso
    have ratio := @stepRatio_pos x power
    have most : (x.significand : ℚ) ≤ 2 ^ 53 := by
      norm_num
      exact_mod_cast Nat.le_of_lt x.significand_lt
    obtain ⟨down, up⟩ := @pointBelow_bounds x power
    have lower := lower_eq nonzero
    have upper := @upper_eq x
    obtain ⟨low, itsLow⟩ : ∃ low, low = (x.roundingRange.1 : ℚ) / 4 := ⟨_, rfl⟩
    obtain ⟨point, itsPoint⟩ : ∃ point, point = x.pointBelow power := ⟨_, rfl⟩
    rw [← itsLow] at lower
    rw [← itsPoint] at down up notDown notUp
    have least : low ≤ x.significand - 1 / 4 := by
      rw [lower]
      split_ifs <;> linarith
    have wide : low * x.stepRatio power + 1 < (x.significand + 1 / 2) * x.stepRatio power := by
      rw [lower]
      split_ifs with narrow
      · have first : (x.significand : ℚ) = 2 ^ 52 := by
          rw [narrow.1]
          norm_num
        rw [first] at fine ⊢
        linarith
      · have enough : (x.significand : ℚ) * x.stepRatio power ≤ 2 ^ 53 * x.stepRatio power :=
          mul_le_mul_of_nonneg_right most (le_of_lt ratio)
        linarith
    have notRounds (n : Nat) (positive : 0 < n) (hits : x.hitsPoint power n = false)
        (above : low * x.stepRatio power < n)
        (below : (n : ℚ) < (x.significand + 1 / 2) * x.stepRatio power) : False := by
      have rounds : x.hitsPoint power n = true :=
        hitsPoint_iff.mpr ⟨positive, (rounds_point_iff x power n).mpr
          ⟨.inl (itsLow ▸ above), .inl (upper ▸ below)⟩⟩
      rw [hits] at rounds
      cases rounds
    have positive : 0 < point := by
      have far : (0 : ℚ) < point := by linarith
      exact_mod_cast far
    rcases lt_or_ge (low * x.stepRatio power) point with inside | outside
    · refine notRounds point positive notDown inside (lt_of_le_of_lt down ?_)
      linarith
    · refine notRounds (point + 1) (Nat.succ_pos _) notUp ?_ ?_
      · push_cast
        refine lt_of_le_of_lt ?_ up
        exact mul_le_mul_of_nonneg_right (by linarith) (le_of_lt ratio)
      · push_cast
        linarith

theorem floorLog10_le {num den : Nat} (whole : 0 < den) (fuel : Nat) {top : Int}
    (enough : (10 : ℚ) ^ (top - fuel) ≤ num / den) :
    (10 : ℚ) ^ floorLog10 num den fuel top ≤ num / den := by
  induction fuel generalizing top with
  | zero =>
    rw [floorLog10]
    simpa using enough
  | succ fuel ih =>
    rw [floorLog10]
    split_ifs with reached
    · have scale : (0 : ℚ) < den := Nat.cast_pos.mpr whole
      have power : (0 : ℚ) < (Nat.pow 10 (-top).toNat : ℕ) :=
        Nat.cast_pos.mpr (Nat.pow_pos (by decide))
      have ten := zpow_eq_div 10 top
      rw [Nat.cast_ofNat] at ten
      rw [ten, div_le_div_iff₀ power scale, mul_comm]
      exact_mod_cast reached
    · refine ih ?_
      have same : top - 1 - (fuel : Int) = top - (fuel + 1 : Nat) := by
        push_cast
        ring
      rwa [same]

/-- Dropping zeros at the end of the digits does not change what a decimal stands for. -/
theorem Decimal.normalize_value (fuel : Nat) {d : Decimal} (positive : 0 < d.digits) :
    0 < (d.normalize fuel).digits ∧ (d.normalize fuel).value = d.value := by
  induction fuel generalizing d with
  | zero => exact ⟨positive, rfl⟩
  | succ fuel ih =>
    rw [normalize]
    split_ifs with zero
    · obtain ⟨tenth, its⟩ := Nat.dvd_of_mod_eq_zero zero.2
      have quotient : d.digits / 10 = tenth := by omega
      have less : 0 < tenth := by omega
      obtain ⟨kept, same⟩ := @ih ⟨d.digits / 10, d.power + 1⟩ (quotient ▸ less)
      refine ⟨kept, same.trans ?_⟩
      rw [value, value, quotient, its, zpow_add_one₀ (by norm_num)]
      push_cast
      ring
    · exact ⟨positive, rfl⟩

/-- The smallest positive double is greater than the power of ten that the search may come to. -/
theorem least_le (nonzero : x.magnitude ≠ 0) :
    (10 : ℚ) ^ (-390 : Int) ≤ x.significand * 2 ^ x.exponent := by
  have one : (1 : ℚ) ≤ x.significand := by
    exact_mod_cast significand_pos nonzero
  have power : (10 : ℚ) ^ (-390 : Int) ≤ 2 ^ (-1074 : Int) := by
    calc (10 : ℚ) ^ (-390 : Int)
        ≤ 10 ^ (-358 : Int) := zpow_le_zpow_right₀ (by norm_num) (by decide)
      _ = (10 ^ (-1 : Int)) ^ (358 : Nat) := by rw [← zpow_natCast, ← zpow_mul]; rfl
      _ ≤ (2 ^ (-3 : Int)) ^ (358 : Nat) := pow_le_pow_left₀ (by positivity) (by norm_num) _
      _ = 2 ^ (-1074 : Int) := by rw [← zpow_natCast, ← zpow_mul]; rfl
  calc (10 : ℚ) ^ (-390 : Int) ≤ 2 ^ (-1074 : Int) := power
    _ ≤ 2 ^ x.exponent := zpow_le_zpow_right₀ (by norm_num) x.exponent_least
    _ = 1 * 2 ^ x.exponent := (one_mul _).symm
    _ ≤ x.significand * 2 ^ x.exponent :=
      mul_le_mul_of_nonneg_right one (le_of_lt (zpow_pos (by norm_num) _))

/-- The shortest decimal of a positive finite number is rounded to it. -/
theorem rounds_shortest (nonzero : x.magnitude ≠ 0) :
    0 < x.shortest.digits ∧ x.Rounds x.shortest.value := by
  obtain ⟨top, its⟩ : ∃ top, top = floorLog10 (x.significand * Nat.pow 2 x.exponent.toNat)
    (Nat.pow 2 (-x.exponent).toNat) 700 310 := ⟨_, rfl⟩
  have shape : x.shortest = (x.shortestFrom top).normalize 400 := by rw [its]; rfl
  have fraction : ((x.significand * Nat.pow 2 x.exponent.toNat : ℕ) : ℚ) /
      (Nat.pow 2 (-x.exponent).toNat : ℕ) = x.significand * 2 ^ x.exponent := by
    have two := zpow_eq_div 2 x.exponent
    rw [Nat.cast_ofNat] at two
    rw [two, Nat.cast_mul, mul_div_assoc]
  have reached : (10 : ℚ) ^ top ≤ x.significand * 2 ^ x.exponent := by
    have enough := fraction ▸ least_le nonzero
    rw [its, ← fraction]
    exact floorLog10_le (Nat.pow_pos (by decide)) 700 enough
  -- On the last grid the number has at least seventeen digits.
  have last : ∃ d, x.onGrid? (top - (16 : Nat)) = some d := by
    apply exists_onGrid nonzero
    have tens : (10 : ℚ) ^ (top - (16 : Nat)) = 10 ^ top / 10 ^ 16 := by
      rw [zpow_sub₀ (by norm_num), zpow_natCast]
    rw [stepRatio, tens, ← mul_div_assoc, le_div_iff₀ (by positivity)]
    rw [mul_div_cancel₀ _ (by norm_num)]
    exact reached
  obtain ⟨d, found⟩ := last
  have given : ∃ d, ((List.range 17).findSome? fun (more : Nat) => x.onGrid? (top - more)) =
      some d := by
    apply Option.isSome_iff_exists.mp
    rw [List.isSome_findSome?, List.any_eq_true]
    exact ⟨16, List.mem_range.mpr (by decide), Option.isSome_of_eq_some found⟩
  obtain ⟨first, search⟩ := given
  have from' : x.shortestFrom top = first := by
    rw [shortestFrom, search, Option.getD_some]
  obtain ⟨more, -, onGrid⟩ := List.exists_of_findSome?_eq_some search
  obtain ⟨positive, rounds⟩ := rounds_of_onGrid onGrid
  obtain ⟨kept, same⟩ := first.normalize_value 400 positive
  rw [shape, from', same]
  exact ⟨kept, rounds⟩

end Steering.Binary64
