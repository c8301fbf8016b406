import Steering.Proofs.NumberDocument
import Steering.Proofs.RoundingOrder
import Steering.Proofs.ValueReading
/-! Numbers that are written are read again: integers as they are, and doubles without ever becoming too
large on the way. -/

namespace Steering.Json

open Binary64 (Decimal)

/-! ## Digits as bytes -/

section Digits

variable {cs : List Char}

/-- The bytes of characters that are one byte each. -/
def charBytes (cs : List Char) : List UInt8 :=
  cs.map fun c => UInt8.ofNat c.toNat

theorem toNat_of_isDigit {c : Char} (digit : c.isDigit = true) : 0x30 ≤ c.toNat ∧ c.toNat ≤ 0x39 := by
  rw [Char.isDigit, Bool.and_eq_true, decide_eq_true_eq, decide_eq_true_eq] at digit
  exact digit

theorem toNat_digitByte {c : Char} (digit : c.isDigit = true) :
    (UInt8.ofNat c.toNat).toNat = c.toNat :=
  Text.toNat_ofNat_ascii (by have most := (toNat_of_isDigit digit).2; omega)

theorem isDigit_digitByte {c : Char} (digit : c.isDigit = true) :
    isDigit (UInt8.ofNat c.toNat) = true := by
  have bounds := toNat_of_isDigit digit
  rw [isDigit, Bool.and_eq_true, decide_eq_true_eq, decide_eq_true_eq, UInt8.le_iff_toNat_le,
    UInt8.le_iff_toNat_le, toNat_digitByte digit]
  exact bounds

theorem isDigits_charBytes (digits : ∀ c ∈ cs, c.isDigit = true) (some : cs ≠ []) :
    IsDigits (charBytes cs) where
  some := by simpa [charBytes] using some
  all := List.forall_mem_map.mpr fun c member => isDigit_digitByte (digits c member)

theorem isIntegral_charBytes (shape : IsWhole cs) : IsIntegral (charBytes cs) where
  toIsDigits := isDigits_charBytes shape.digits shape.some
  first zero := by
    rw [charBytes, List.length_map]
    cases cs with
    | nil => cases zero
    | cons c cs =>
      have same : UInt8.ofNat c.toNat = 0x30 := Option.some.inj zero
      have number : c.toNat = 0x30 := by
        rw [← toNat_digitByte (shape.digits c List.mem_cons_self), same]
        rfl
      exact shape.first (congrArg some (Char.toNat_inj.mp number))

theorem map_charBytes (digits : ∀ c ∈ cs, c.isDigit = true) :
    (charBytes cs).map (fun b => b.toNat - 0x30) = cs.map fun c => c.toNat - 0x30 := by
  rw [charBytes, List.map_map]
  exact List.map_congr_left fun c member => by rw [Function.comp, toNat_digitByte (digits c member)]

theorem digitsValue_charBytes (digits : ∀ c ∈ cs, c.isDigit = true) :
    digitsValue (charBytes cs) = Nat.ofDigitChars 10 cs 0 := by
  rw [digitsValue, map_charBytes digits, Nat.ofDigitChars_eq_foldl, List.foldl_map]
  congr 1
  funext n c
  rw [Nat.mul_comm]
  rfl

theorem isDigit_of_mem_toDigits {n : Nat} {c : Char} (member : c ∈ Nat.toDigits 10 n) :
    c.isDigit = true :=
  Nat.isDigit_of_mem_toDigits (by decide) (by decide) member

theorem encode_toString (n : Nat) : Text.encode (toString n) = charBytes (Nat.toDigits 10 n) := by
  rw [Nat.toString_eq_ofList_toDigits, Text.encode_ofList, Text.encodeChars_ascii]
  · rfl
  · intro c member
    have bounds := toNat_of_isDigit (isDigit_of_mem_toDigits member)
    omega

theorem isWhole_toDigits (n : Nat) : IsWhole (Nat.toDigits 10 n) := by
  rcases Nat.eq_zero_or_pos n with rfl | positive
  · exact ⟨List.forall_mem_singleton.mpr rfl, List.cons_ne_nil _ _, fun _ => rfl⟩
  · have whole := @isWhole_toDigits_append n positive [] (List.forall_mem_nil _)
    rwa [List.append_nil] at whole

theorem digitsValue_toDigits (n : Nat) : digitsValue (charBytes (Nat.toDigits 10 n)) = n := by
  rw [digitsValue_charBytes fun c member => isDigit_of_mem_toDigits member,
    Nat.ofDigitChars_ten_toDigits]

/-- An integer is written as one. -/
theorem isInteger_encode (n : Int) : IsInteger (Text.encode (toString n)) n := by
  have number (n : Nat) : digitsValue (Text.encode (toString n)) = n := by
    rw [encode_toString, digitsValue_toDigits]
  have integral (n : Nat) : IsIntegral (Text.encode (toString n)) := by
    rw [encode_toString]
    exact isIntegral_charBytes (isWhole_toDigits n)
  cases n with
  | ofNat n =>
    have form := IsInteger.natural (integral n)
    rwa [number] at form
  | negSucc n =>
    have form := IsInteger.negative (integral (n + 1)) (by rw [number]; exact Nat.succ_ne_zero n)
    rw [number] at form
    have split : Text.encode (toString (Int.negSucc n)) = 0x2D :: Text.encode (toString (n + 1)) := by
      have sign : toString (Int.negSucc n) = "-" ++ toString (n + 1) := rfl
      rw [sign, Text.encode_append]
      rfl
    rw [split]
    exact form

end Digits

/-! ## Scaling -/

section Scale

variable {significand : Nat} {exponent : Int}

theorem exists_scale_of_neg (x : Binary64) (negative : exponent < 0) :
    ∃ y, scale x exponent = some y := by
  -- Every division by the greatest power brings the exponent nearer to zero.
  obtain ⟨size, its⟩ : ∃ size, size = (-exponent).toNat := ⟨_, rfl⟩
  induction size using Nat.strong_induction_on generalizing x exponent with
  | _ size ih =>
    rw [scale]
    split_ifs with far none
    · exact ⟨x, rfl⟩
    · exact ih _ (by omega) (x.div (powerOfTen 308)) (by omega) rfl
    · exact ⟨_, rfl⟩

/-- A number of units of a given exponent. -/
def units (n exponent : Nat) : Nat := n * Nat.pow 2 exponent

theorem cast_units (n exponent : Nat) : (units n exponent : ℚ) = n * 2 ^ (exponent : Int) := by
  rw [units, Nat.cast_mul, zpow_natCast]
  exact congrArg _ (Nat.cast_pow 2 exponent)

/-- The fractions that are rounded to a double below the greatest one are at most this. -/
def greatestBelow : Nat := units 0x3FFFFFFFFFFFFD 970

theorem lt_of_pow_le {size : Nat} (le : Nat.pow 10 size ≤ greatestBelow) : size < 309 := by
  by_contra far
  exact absurd (Nat.le_trans (Nat.pow_le_pow_right (by decide) (Nat.le_of_not_lt far)) le)
    (by decide +kernel)

/-- No product of a significand and a great power of ten is too large if the exact one is not. -/
theorem isFinite_greatest : ∀ more : Fin 21,
    ((Binary64.ofNat (min 0xFFFFFFFFFFFFFFFF (greatestBelow / Nat.pow 10 (288 + more)))).mul
      (powerOfTen (288 + more))).isFinite = true := by
  decide +kernel

theorem mul_powerOfTen_mono (x : Binary64) {power more : Nat} (le : power ≤ more) :
    (x.mul (powerOfTen power)).magnitude ≤ (x.mul (powerOfTen more)).magnitude := by
  rw [Binary64.magnitude_mul_comm, Binary64.magnitude_mul_comm x]
  exact Binary64.mul_mono (Binary64.ofNat_mono (Nat.pow_le_pow_right (by decide) le)) x

/-- Every significand may be multiplied by a smaller power. -/
theorem isFinite_of_small (small : significand < 0x10000000000000000) {power : Nat}
    (less : power < 288) : ((Binary64.ofNat significand).mul (powerOfTen power)).isFinite = true := by
  have finite : ((Binary64.ofNat 0xFFFFFFFFFFFFFFFF).mul (powerOfTen 288)).isFinite = true := by
    decide +kernel
  exact Binary64.isFinite_of_le (Nat.le_trans (Binary64.mul_mono (Binary64.ofNat_mono (by omega)) _)
    (mul_powerOfTen_mono _ (Nat.le_of_lt less))) finite

theorem exists_scale_of_finite {x : Binary64} {power : Nat} (bounded : power ≤ 308)
    (finite : (x.mul (powerOfTen power)).isFinite = true) : ∃ y, scale x power = some y := by
  have notFar : ¬ (power : Int) < -308 := by omega
  have notNegative : ¬ (power : Int) < 0 := by omega
  have most : (power : Int) ≤ 308 := by omega
  rw [scale, if_neg notFar, if_neg notNegative, if_pos most, Int.toNat_natCast]
  exact ⟨_, if_pos finite⟩

theorem exists_scale (small : significand < 0x10000000000000000) (bounded : exponent ≤ 308)
    (below : (significand : ℚ) * 10 ^ exponent ≤ greatestBelow) :
    ∃ y, scale (.ofNat significand) exponent = some y := by
  rcases lt_or_ge exponent 0 with negative | natural
  · exact exists_scale_of_neg _ negative
  · obtain ⟨power, rfl⟩ := Int.eq_ofNat_of_zero_le natural
    rw [zpow_natCast] at below
    have exact : significand * Nat.pow 10 power ≤ greatestBelow := by exact_mod_cast below
    have least : significand ≤ min 0xFFFFFFFFFFFFFFFF (greatestBelow / Nat.pow 10 power) :=
      le_min (by omega) ((Nat.le_div_iff_mul_le (Nat.pow_pos (by decide))).mpr exact)
    refine exists_scale_of_finite (by omega) ?_
    rcases Nat.lt_or_ge power 288 with less | great
    · exact isFinite_of_small small less
    · obtain ⟨more, rfl⟩ := Nat.exists_eq_add_of_le great
      exact Binary64.isFinite_of_le (Binary64.mul_mono (Binary64.ofNat_mono least) _)
        (isFinite_greatest ⟨more, by omega⟩)

end Scale

/-! ## Reading -/

section Read

variable {positive : Bool} {significand : Nat} {exponent : Int} {index : Nat}

/-- Appended digits make a number that is not above the one of all digits. -/
theorem appendDigits_le (small : significand < 0x10000000000000000) (ds : List Nat) :
    let parts := appendDigits significand ds
    parts.1 < 0x10000000000000000 ∧ parts.2 ≤ ds.length ∧
      parts.1 * Nat.pow 10 parts.2 ≤ ds.foldl (fun n d => n * 10 + d) significand := by
  induction ds generalizing significand with
  | nil => exact ⟨small, Nat.le_refl _, Nat.le_of_eq (Nat.mul_one _)⟩
  | cons d ds ih =>
    by_cases fits : significand * 10 + d < 0x10000000000000000
    · obtain ⟨least, few, below⟩ := ih fits
      simp only [appendDigits, if_pos fits, List.foldl_cons, List.length_cons]
      exact ⟨least, Nat.le_succ_of_le few, below⟩
    · have grows (ds : List Nat) (n : Nat) :
          n * Nat.pow 10 ds.length ≤ ds.foldl (fun n d => n * 10 + d) n := by
        induction ds generalizing n with
        | nil => exact Nat.le_of_eq (Nat.mul_one n)
        | cons d ds ih =>
          refine Nat.le_trans ?_ (ih (n * 10 + d))
          have tens : Nat.pow 10 (d :: ds).length = 10 * Nat.pow 10 ds.length := Nat.pow_succ'
          rw [tens, ← Nat.mul_assoc]
          exact Nat.mul_le_mul_right _ (Nat.le_add_right _ _)
      simp only [appendDigits, if_neg fits, List.length_cons]
      exact ⟨small, Nat.le_refl _, grows (d :: ds) significand⟩

theorem digitsValue_lt {digits : List UInt8} (all : ∀ b ∈ digits, isDigit b = true) :
    digitsValue digits < Nat.pow 10 digits.length := by
  have grows (n : Nat) : (digits.map fun b => b.toNat - 0x30).foldl (fun n d => n * 10 + d) n <
      (n + 1) * Nat.pow 10 digits.length := by
    induction digits generalizing n with
    | nil => exact Nat.lt_of_lt_of_eq (Nat.lt_succ_self n) (Nat.mul_one _).symm
    | cons b digits ih =>
      obtain ⟨digit, others⟩ := List.forall_mem_cons.mp all
      have small : b.toNat - 0x30 ≤ 9 := by
        rw [isDigit, Bool.and_eq_true, decide_eq_true_eq, decide_eq_true_eq,
          UInt8.le_iff_toNat_le] at digit
        have most : b.toNat ≤ 0x39 := UInt8.le_iff_toNat_le.mp digit.2
        omega
      have tens : Nat.pow 10 (b :: digits).length = 10 * Nat.pow 10 digits.length := Nat.pow_succ'
      rw [List.map_cons, List.foldl_cons, tens, ← Nat.mul_assoc]
      exact Nat.lt_of_lt_of_le (ih others _) (Nat.mul_le_mul_right _ (by omega))
  exact Nat.lt_of_lt_of_eq (grows 0) (by rw [Nat.zero_add, Nat.one_mul])

theorem ofParts_ok (small : significand < 0x10000000000000000) (bounded : exponent ≤ 308)
    (below : (significand : ℚ) * 10 ^ exponent ≤ greatestBelow) (c : Cursor) :
    ∃ r, ofParts positive significand exponent c = .ok r := by
  obtain ⟨x, scaled⟩ := exists_scale small bounded below
  rw [ofParts, scaled]
  exact ⟨_, rfl⟩

/-- Digits without an exponent are never too large. -/
theorem ofParts_ok_of_nonpos (small : significand < 0x10000000000000000) (none : exponent ≤ 0)
    (c : Cursor) : ∃ r, ofParts positive significand exponent c = .ok r := by
  refine ofParts_ok small (by omega) ?_ c
  have least : (10 : ℚ) ^ exponent ≤ 1 := zpow_le_one_of_nonpos₀ (by norm_num) none
  have far : 0x10000000000000000 ≤ greatestBelow := by decide +kernel
  calc (significand : ℚ) * 10 ^ exponent
      ≤ significand := mul_le_of_le_one_right (Nat.cast_nonneg _) least
    _ ≤ greatestBelow := by exact_mod_cast Nat.le_trans (Nat.le_of_lt small) far

/-- The digits of an exponent that is not too large are read to their end. -/
theorem readExponentDigits_ok (accumulated : Nat) (ds : List Nat) (c : Cursor)
    (small : ds.foldl (fun n d => n * 10 + d) accumulated ≤ maxExponent) :
    (readExponentDigits accumulated ds c).1 =
      some (ds.foldl (fun n d => n * 10 + d) accumulated) := by
  induction ds generalizing accumulated c with
  | nil => rfl
  | cons d ds ih =>
    have fits : ¬ maxExponent < accumulated * 10 + d :=
      Nat.not_lt.mpr (Nat.le_trans (le_foldl_digits _ ds) small)
    rw [readExponentDigits, if_neg fits]
    exact ih _ _ small

section Digits

variable {whole digits : List UInt8}

/-- A number with a fraction and without an exponent is read. -/
theorem readNumber_positional (integral : IsIntegral whole) (few : whole.length ≤ 19)
    (fraction : IsDigits digits) :
    ∃ r, readNumber positive ⟨whole ++ 0x2E :: digits, index⟩ = .ok r := by
  have point : ∀ b ∈ (0x2E :: digits : List UInt8).head?, isDigit b = false := by
    rintro _ ⟨⟩
    rfl
  have fits : digitsValue whole < 0x10000000000000000 :=
    Nat.lt_of_lt_of_le (digitsValue_lt integral.all) (Nat.le_trans
      (Nat.pow_le_pow_right (by decide) few) (by decide))
  have taken := readFraction_append positive (digitsValue whole) 0 fraction [] nofun
    (index + whole.length)
  obtain ⟨small, -⟩ := appendDigits_le fits (digits.map fun b => b.toNat - 0x30)
  obtain ⟨r, read⟩ := @ofParts_ok_of_nonpos positive _ (0 - ((digits.length -
    (appendDigits (digitsValue whole) (digits.map fun b => b.toNat - 0x30)).2 : Nat) : Int)) small
    (by omega) ⟨[], index + whole.length + 1 + digits.length⟩
  refine ⟨r, ?_⟩
  rcases appendDigits_cases 0 (whole.map fun b => b.toNat - 0x30) (by decide) with
    ⟨-, all⟩ | ⟨large, -⟩
  · rw [readNumber_integral integral positive point, all]
    rw [List.append_nil] at taken
    exact taken.trans read
  · exact absurd fits (Nat.not_lt.mpr large)

/-- An exponent that lowers a number is read. -/
theorem readExponent_lowering (small : significand < 0x10000000000000000) (none : exponent ≤ 0)
    (all : IsDigits digits) :
    ∃ r, readExponent positive significand exponent ⟨0x65 :: 0x2D :: digits, index⟩ = .ok r := by
  have taken := readExponent_append positive significand exponent 0x65 (.inr (.inr rfl)) all [] index
  rw [List.append_nil, List.append_nil] at taken
  obtain ⟨b, tail, shape, digit⟩ := all.exists_cons
  have first : digits.head? = some b := by rw [shape]; rfl
  rw [List.singleton_append] at taken
  rw [taken]
  simp only [readUnsignedExponent, Cursor.peek?, first, digit, if_true, List.head?_cons,
    bne_self_eq_false, Bool.false_eq_true, if_false, and_false]
  split
  · exact ofParts_ok_of_nonpos small (by omega) _
  · exact ⟨_, rfl⟩

/-- An exponent that raises a number is read if the number does not become too large. -/
theorem readExponent_raising (short : digitsValue digits ≤ maxExponent)
    (scaled : ∃ y, scale (.ofNat significand) (exponent + digitsValue digits) = some y)
    (all : IsDigits digits) :
    ∃ r, readExponent positive significand exponent ⟨0x65 :: 0x2B :: digits, index⟩ = .ok r := by
  have taken := readExponent_append positive significand exponent 0x65 (.inr (.inl rfl)) all [] index
  rw [List.append_nil, List.append_nil] at taken
  obtain ⟨b, tail, shape, digit⟩ := all.exists_cons
  have first : digits.head? = some b := by rw [shape]; rfl
  have ahead := @digitsAhead_append (index + 1 + [(0x2B : UInt8)].length) [] digits all.all nofun
  rw [List.append_nil] at ahead
  have raises : ([0x2B] : List UInt8).head? != some 0x2D := rfl
  have value := readExponentDigits_ok 0 (digits.map fun b => b.toNat - 0x30)
    ⟨digits, index + 1 + [(0x2B : UInt8)].length⟩ short
  rw [List.singleton_append] at taken
  rw [taken]
  simp only [readUnsignedExponent, Cursor.peek?, first, digit, if_true, ahead, raises]
  split
  · rename_i written c read
    rw [read] at value
    obtain rfl : written = digitsValue digits := Option.some.inj value
    obtain ⟨y, scaled⟩ := scaled
    exact ⟨_, by rw [ofParts, scaled]⟩
  · rename_i c read
    rw [read] at value
    cases value

end Digits

end Read

/-! ## Written doubles -/

section Written

variable {x : Binary64} {cs : List Char}

/-- Characters that have the form of a number and are read as one. -/
structure IsRead (cs : List Char) : Prop where
  form : IsMagnitude (charBytes cs)
  read : ∀ positive index, ∃ r, readNumber positive ⟨charBytes cs, index⟩ = .ok r

theorem charBytes_append (cs ds : List Char) : charBytes (cs ++ ds) = charBytes cs ++ charBytes ds :=
  List.map_append

/-- Digits on both sides of a point. -/
theorem isRead_positional {whole fraction : List Char} (shape : IsWhole whole)
    (few : whole.length ≤ 19) (digits : ∀ c ∈ fraction, c.isDigit = true) (some : fraction ≠ []) :
    IsRead (whole ++ '.' :: fraction) where
  form := by
    have form := IsMagnitude.parts (isIntegral_charBytes shape)
      (.digits (isDigits_charBytes digits some)) .none
    rw [List.append_nil] at form
    rw [charBytes_append]
    exact form
  read positive index := by
    rw [charBytes_append]
    refine readNumber_positional (isIntegral_charBytes shape) ?_ (isDigits_charBytes digits some)
    rwa [charBytes, List.length_map]

/-- A number with its point at a place that is not too far behind. -/
theorem isRead_of_positional {n : Nat} (positive : 0 < n) {whole : Int} (few : whole ≤ 16) :
    IsRead (Binary64.positional Binary64.documentNotation (toString n) whole).toList := by
  have all : ∀ c ∈ Nat.toDigits 10 n, c.isDigit = true := fun c member =>
    isDigit_of_mem_toDigits member
  rcases positional_cases n whole with ⟨-, shape⟩ | ⟨large, shape⟩ | ⟨some, less, shape⟩
  · have zero : IsWhole ['0'] :=
      ⟨List.forall_mem_singleton.mpr rfl, List.cons_ne_nil _ _, fun _ => rfl⟩
    rw [shape]
    refine isRead_positional zero (by decide) (List.forall_mem_append.mpr
      ⟨isDigit_of_mem_replicate, all⟩) fun empty => ?_
    exact Nat.toDigits_ne_nil (List.append_eq_nil_iff.mp empty).2
  · rw [shape]
    refine isRead_positional (isWhole_toDigits_append positive isDigit_of_mem_replicate) ?_
      (List.forall_mem_singleton.mpr rfl) (List.cons_ne_nil _ _)
    rw [List.length_append, List.length_replicate]
    omega
  · rw [shape]
    refine isRead_positional (isWhole_take_toDigits positive (by omega)) ?_
      (fun c member => all c (List.mem_of_mem_drop member)) fun empty => ?_
    · rw [List.length_take]
      omega
    · have length := congrArg List.length empty
      rw [List.length_drop, List.length_nil] at length
      omega

/-- Whether a mark and the digits of an exponent do not make a number too large. -/
def Scales (significand : Nat) (exponent : Int) (mark : Char) (size : List Char) : Prop :=
  mark = '-' ∨ mark = '+' ∧ digitsValue (charBytes size) ≤ maxExponent ∧
    ∃ y, scale (.ofNat significand) (exponent + digitsValue (charBytes size)) = some y

section Scales

variable {significand : Nat} {exponent : Int} {mark : Char} {size : List Char}
  (scales : Scales significand exponent mark size) (all : IsDigits (charBytes size))
include scales all

theorem Scales.isExponent : IsExponent (charBytes ('e' :: mark :: size)) := by
  rcases scales with rfl | ⟨rfl, -⟩
  · exact .digits (.inl rfl) (.inr (.inr rfl)) all
  · exact .digits (.inl rfl) (.inr (.inl rfl)) all

theorem Scales.readExponent (small : significand < 0x10000000000000000) (none : exponent ≤ 0)
    (positive : Bool) (index : Nat) : ∃ r, readExponent positive significand exponent
      ⟨charBytes ('e' :: mark :: size), index⟩ = .ok r := by
  rcases scales with rfl | ⟨rfl, short, scaled⟩
  · exact readExponent_lowering small none all
  · exact readExponent_raising short scaled all

end Scales

/-- A digit, perhaps others behind a point, and an exponent that does not make the number too large. -/
theorem isRead_scientific {first mark : Char} {more size : List Char}
    (digit : first.isDigit = true) (digits : ∀ c ∈ more, c.isDigit = true)
    (sizes : ∀ c ∈ size, c.isDigit = true) (some : size ≠ []) {parts : Nat × Nat}
    (its : parts = appendDigits (first.toNat - 0x30) (more.map fun c => c.toNat - 0x30))
    (scales : Scales parts.1 (0 - (more.length - parts.2 : Nat)) mark size) :
    IsRead (first :: (if more = [] then [] else '.' :: more) ++ 'e' :: mark :: size) := by
  have whole : IsWhole [first] :=
    ⟨List.forall_mem_singleton.mpr digit, List.cons_ne_nil _ _, fun _ => rfl⟩
  have integral := isIntegral_charBytes whole
  have all := isDigits_charBytes sizes some
  have bounds := toNat_of_isDigit digit
  have value : appendDigits 0 ((charBytes [first]).map fun b => b.toNat - 0x30) =
      (first.toNat - 0x30, 0) := by
    have fits : first.toNat - 0x30 < 0x10000000000000000 := by omega
    rw [map_charBytes whole.digits]
    simp only [List.map_cons, List.map_nil, appendDigits, Nat.zero_mul, Nat.zero_add, if_pos fits]
  obtain ⟨small, -⟩ := @appendDigits_le (first.toNat - 0x30) (by omega)
    (more.map fun c => c.toNat - 0x30)
  rw [← its] at small
  have exponent := scales.readExponent all small (by omega)
  by_cases single : more = []
  · subst single
    obtain rfl : parts = (first.toNat - 0x30, 0) := its
    refine ⟨.parts integral .none (scales.isExponent all), fun positive index => ?_⟩
    obtain ⟨r, read⟩ := exponent positive (index + (charBytes [first]).length)
    have opened := @readNumber_integral (charBytes ('e' :: mark :: size)) _ integral positive
      (by rintro _ ⟨⟩; rfl) index
    rw [value] at opened
    exact ⟨r, opened.trans read⟩
  · have fraction := isDigits_charBytes digits single
    have split : charBytes (first :: (if more = [] then [] else '.' :: more) ++ 'e' :: mark :: size) =
        charBytes [first] ++ (0x2E :: charBytes more ++ charBytes ('e' :: mark :: size)) := by
      rw [if_neg single, charBytes_append, ← List.singleton_append, charBytes_append,
        List.append_assoc]
      rfl
    rw [← map_charBytes digits] at its
    refine ⟨split ▸ .parts integral (.digits fraction) (scales.isExponent all),
      fun positive index => ?_⟩
    obtain ⟨r, read⟩ := exponent positive
      (index + (charBytes [first]).length + 1 + (charBytes more).length)
    have opened := @readNumber_integral (0x2E :: charBytes more ++ charBytes ('e' :: mark :: size)) _
      integral positive (by rintro _ ⟨⟩; rfl) index
    have behind := readFraction_append positive (first.toNat - 0x30) 0 fraction
      (charBytes ('e' :: mark :: size)) (by rintro _ ⟨⟩; rfl) (index + (charBytes [first]).length)
    have length : (charBytes more).length = more.length := List.length_map _
    rw [value] at opened
    rw [← its, length] at behind
    rw [length] at read
    exact ⟨r, split ▸ opened.trans (behind.trans read)⟩

/-- What is rounded to a double below the greatest one is not above the midpoint between the two. -/
theorem le_greatestBelow {q : ℚ} (below : x.magnitude < 0x7FEFFFFFFFFFFFFF) (rounds : x.Rounds q) :
    q ≤ greatestBelow := by
  have unit : (0 : ℚ) < 2 ^ x.exponent := zpow_pos (by norm_num) _
  have most := rounds.below.le
  rw [Binary64.upper_eq, div_le_iff₀ unit] at most
  have shape := x.magnitude_eq
  have bit := x.significand_lt
  have least := x.exponent_least
  rw [greatestBelow, cast_units, Nat.cast_ofNat, Nat.cast_ofNat]
  refine le_trans most ?_
  -- Only with the greatest exponent does the significand matter, and there it is not the greatest one.
  rcases lt_or_ge x.exponent 971 with small | large
  · have power : (2 : ℚ) ^ x.exponent ≤ 2 ^ (970 : Int) :=
      zpow_le_zpow_right₀ (by norm_num) (by omega)
    have significand : (x.significand : ℚ) + 1 / 2 ≤ 0x3FFFFFFFFFFFFD := by
      have cast : (x.significand : ℚ) ≤ 0x20000000000000 := by exact_mod_cast Nat.le_of_lt bit
      linarith
    calc ((x.significand : ℚ) + 1 / 2) * 2 ^ x.exponent
        ≤ (0x3FFFFFFFFFFFFD) * 2 ^ x.exponent := mul_le_mul_of_nonneg_right significand (le_of_lt unit)
      _ ≤ (0x3FFFFFFFFFFFFD) * 2 ^ (970 : Int) := mul_le_mul_of_nonneg_left power (by norm_num)
  · obtain ⟨leading, -⟩ := Binary64.leading_of_exponent (x := x) (by omega)
    have same : x.exponent = 971 := by omega
    have last : x.significand ≤ 0x1FFFFFFFFFFFFE := by omega
    have significand : (x.significand : ℚ) ≤ 0x1FFFFFFFFFFFFE := by exact_mod_cast last
    have next : (2 : ℚ) ^ (971 : Int) = 2 ^ (970 : Int) * 2 := zpow_add_one₀ two_ne_zero 970
    rw [same, next, mul_comm ((2 : ℚ) ^ (970 : Int)), ← mul_assoc]
    exact mul_le_mul_of_nonneg_right (by linarith) (le_of_lt (zpow_pos (by norm_num) _))

/-- The digits of a number that is not too large are scaled as read. -/
theorem exists_scale_digits {n : Nat} {power : Int} (below : (n : ℚ) * 10 ^ power ≤ greatestBelow)
    (positive : 0 < n) {first : Char} {more : List Char} (split : Nat.toDigits 10 n = first :: more)
    {size : Nat} (its : (size : Int) = power + more.length) {parts : Nat × Nat}
    (read : parts = appendDigits (first.toNat - 0x30) (more.map fun c => c.toNat - 0x30)) :
    size ≤ 308 ∧
      ∃ y, scale (.ofNat parts.1) (0 - (more.length - parts.2 : Nat) + size) = .some y := by
  have unit : (0 : ℚ) < 10 ^ power := zpow_pos (by norm_num) _
  obtain ⟨small, few, least⟩ := @appendDigits_le (first.toNat - 0x30) (by
    have bounds := toNat_of_isDigit (isDigit_of_mem_toDigits (split ▸ List.mem_cons_self))
    omega) (more.map fun c => c.toNat - 0x30)
  have value : (more.map fun c => c.toNat - 0x30).foldl (fun n d => n * 10 + d)
      (first.toNat - 0x30) = n := by
    have all := digitsValue_toDigits n
    rw [digitsValue, map_charBytes fun c member => isDigit_of_mem_toDigits member, split,
      List.map_cons, List.foldl_cons, Nat.zero_mul, Nat.zero_add] at all
    exact all
  rw [value] at least
  rw [← read] at small few least
  rw [List.length_map] at few
  have bounded : size < 309 := by
    have digits : Nat.pow 10 more.length ≤ n := by
      rcases Nat.eq_zero_or_pos more.length with none | some
      · rwa [none]
      · refine Nat.le_of_not_lt fun less => ?_
        have short := (Nat.length_toDigits_le_iff (by decide) some).mpr less
        rw [split, List.length_cons] at short
        omega
    have last : ((Nat.pow 10 size : ℕ) : ℚ) ≤ greatestBelow := calc
      ((Nat.pow 10 size : ℕ) : ℚ) = 10 ^ (size : Int) := by
        rw [zpow_natCast]
        exact Nat.cast_pow 10 size
      _ = 10 ^ more.length * 10 ^ power := by
        rw [its, add_comm, zpow_add₀ (by norm_num), zpow_natCast]
      _ ≤ n * 10 ^ power := mul_le_mul_of_nonneg_right (by exact_mod_cast digits) unit.le
      _ ≤ greatestBelow := below
    exact lt_of_pow_le (Nat.cast_le.mp last)
  -- The digits that were left out make up for what the exponent is greater by.
  refine ⟨by omega, exists_scale small (by omega) ?_⟩
  have exponent : 0 - ((more.length - parts.2 : Nat) : Int) + size = parts.2 + power := by omega
  rw [exponent, zpow_add₀ (by norm_num), ← mul_assoc, zpow_natCast]
  exact le_trans (mul_le_mul_of_nonneg_right (by exact_mod_cast least) unit.le) below

/-- The digits and the power of the greatest double. -/
theorem shortest_greatest (greatest : x.magnitude = 0x7FEFFFFFFFFFFFFF) :
    x.shortest = ⟨17976931348623157, 292⟩ := by
  have both : ∀ sign, (Binary64.ofMagnitude sign 0x7FEFFFFFFFFFFFFF).shortest =
      ⟨17976931348623157, 292⟩ := by
    decide +kernel
  rw [← both x.signed, ← greatest, Binary64.ofMagnitude_magnitude]

/-- The digits of a double are scaled as read, also those of the greatest one. -/
theorem exists_scale_shortest (finite : x.isFinite = true) (nonzero : x.magnitude ≠ 0)
    {first : Char} {more : List Char} (split : Nat.toDigits 10 x.shortest.digits = first :: more)
    {size : Nat} (its : (size : Int) = x.shortest.power + more.length) {parts : Nat × Nat}
    (read : parts = appendDigits (first.toNat - 0x30) (more.map fun c => c.toNat - 0x30)) :
    size ≤ 308 ∧
      ∃ y, scale (.ofNat parts.1) (0 - (more.length - parts.2 : Nat) + size) = .some y := by
  rw [Binary64.isFinite, decide_eq_true_eq, Binary64.infinityMagnitude] at finite
  rcases Nat.lt_or_ge x.magnitude 0x7FEFFFFFFFFFFFFF with below | greatest
  · obtain ⟨positive, rounds⟩ := Binary64.rounds_shortest nonzero
    exact exists_scale_digits (le_greatestBelow below rounds) positive split its read
  · -- Its digits stand for a number above the midpoint, so it is scaled by computing.
    rw [shortest_greatest (by omega)] at split its
    have digits : Nat.toDigits 10 17976931348623157 = '1' :: "7976931348623157".toList := by
      decide +kernel
    rw [digits] at split
    obtain ⟨rfl, rfl⟩ := List.cons.inj split
    have length : (size : Int) = 308 := its
    obtain rfl : size = 308 := by omega
    subst read
    exact ⟨Nat.le_refl _, @exists_scale_of_finite _ 292 (by decide) (by decide +kernel)⟩

theorem isRead_writePositive (finite : x.isFinite = true) (nonzero : x.magnitude ≠ 0) :
    IsRead (x.writePositive Binary64.documentNotation).toList := by
  obtain ⟨positive, -⟩ := Binary64.rounds_shortest nonzero
  have count : (toString x.shortest.digits).length = (Nat.toDigits 10 x.shortest.digits).length := by
    rw [← String.length_toList, Nat.toString_eq_ofList_toDigits, String.toList_ofList]
  obtain ⟨power, its⟩ : ∃ power : Int,
    power = x.shortest.power + (toString x.shortest.digits).length - 1 := ⟨_, rfl⟩
  rw [Binary64.writePositive, ← its]
  split_ifs with among
  · have least : power < 16 := among.2
    exact isRead_of_positional positive (by omega)
  · obtain ⟨first, more, split, shape⟩ := scientific_shape x.shortest.digits power
    have all : ∀ c ∈ first :: more, c.isDigit = true := fun c member =>
      isDigit_of_mem_toDigits (split ▸ member)
    rw [shape]
    refine isRead_scientific (all first List.mem_cons_self)
      (fun c member => all c (List.mem_cons_of_mem _ member))
      (fun c member => isDigit_of_mem_toDigits member) Nat.toDigits_ne_nil rfl ?_
    rcases lt_or_ge power 0 with below | natural
    · exact .inl (if_pos below)
    · rw [count, split, List.length_cons] at its
      obtain ⟨few, scaled⟩ := @exists_scale_shortest x finite nonzero _ _ split power.natAbs
        (by omega) _ rfl
      rw [Scales, digitsValue_toDigits]
      exact .inr ⟨if_neg (not_lt.mpr natural), Nat.le_trans few (by decide), scaled⟩

theorem isRead_zero : IsRead ['0', '.', '0'] :=
  isRead_positional ⟨List.forall_mem_singleton.mpr rfl, List.cons_ne_nil _ _, fun _ => rfl⟩
    (by decide) (List.forall_mem_singleton.mpr rfl) (List.cons_ne_nil _ _)

/-- A value from which something is read is not refused. -/
theorem JudgesValue.isSome {α : Type} {read : Reader α} {value : List UInt8} {verdict : Option α}
    (judges : JudgesValue read value verdict) {r : α × Cursor} (ok : read ⟨value, 0⟩ = .ok r) :
    verdict.isSome = true := by
  have alone := judges [] [] isBlank_nil ends_nil 0
  rw [List.nil_append, List.append_nil, ok] at alone
  cases verdict with
  | none =>
    obtain ⟨fault, refused⟩ := alone
    cases refused
  | some y => rfl

theorem isSome_readDouble {bytes : List UInt8} (number : IsNumber bytes) {r : Number × Cursor}
    (ok : readNumberValue "f64" ⟨bytes, 0⟩ = .ok r) : (whole? readDouble bytes).isSome = true := by
  have read : readDouble ⟨bytes, 0⟩ = .ok (r.1.toBinary64, r.2) := by
    rw [readDouble, ok]
    rfl
  exact (judges_readDouble (.number number)).1.isSome read

/-- A finite double is written as a number, and some double is read from it. -/
theorem isNumber_bytes (finite : x.isFinite = true) :
    IsNumber (Value.double x).bytes ∧ (whole? readDouble (Value.double x).bytes).isSome = true := by
  obtain ⟨cs, ⟨form, read⟩, written⟩ : ∃ cs, IsRead cs ∧
      (x.write Binary64.documentNotation).toList = signChars x.signed ++ cs := by
    have sign : (if x.signed then "-" else "").toList = signChars x.signed := by
      cases x.signed <;> rfl
    rw [Binary64.write, String.toList_append, sign]
    split_ifs with zero
    · exact ⟨_, isRead_zero, rfl⟩
    · exact ⟨_, isRead_writePositive finite zero, rfl⟩
  have bytes : (Value.double x).bytes = charBytes (signChars x.signed) ++ charBytes cs := by
    rw [bytes_double finite, encode_write finite, ← charBytes_append, ← written]
    rfl
  rw [bytes]
  cases x.signed with
  | true =>
    have number : IsNumber (0x2D :: charBytes cs) := .negative form
    obtain ⟨r, ok⟩ := read false 1
    have taken := @readNumberValue_minus [] (charBytes cs) [] 0 "f64" isBlank_nil
    rw [List.append_nil, List.append_nil] at taken
    exact ⟨number, isSome_readDouble number (taken.trans ok)⟩
  | false =>
    have number : IsNumber (charBytes cs) := .unsigned form
    obtain ⟨b, tail, shape, digit⟩ := form.exists_cons
    obtain ⟨r, ok⟩ := read true 0
    have taken := @readNumberValue_digit [] tail [] b 0 "f64" isBlank_nil digit
    rw [List.append_nil, ← shape] at taken
    exact ⟨number, isSome_readDouble number (taken.trans ok)⟩

end Written

end Steering.Json
