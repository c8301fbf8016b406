import Steering.Proofs.ShortestDecimal
/-! Numbers in documents are exact: whoever reads a written number as the decimal that it is, and
rounds this decimal once, has the number itself. -/

namespace Steering

namespace Binary64

/-- The double nearest to a decimal, with a sign. -/
def Decimal.nearest (negative : Bool) (d : Decimal) : Binary64 :=
  .ofRatio negative (d.digits * Nat.pow 10 d.power.toNat) (Nat.pow 10 (-d.power).toNat)

/-- A number has its sign and its magnitude. -/
theorem ofMagnitude_magnitude (x : Binary64) : ofMagnitude x.signed x.magnitude = x := by
  obtain ⟨bits⟩ := x
  have bound := bits.toNat_lt
  rw [ofMagnitude, Binary64.mk.injEq, ← UInt64.toNat_inj, UInt64.toNat_ofNat']
  unfold signed magnitude
  simp only [decide_eq_true_eq]
  split_ifs <;> omega

/-- A decimal that is rounded to a number has it as the nearest double. -/
theorem Decimal.nearest_eq {x : Binary64} {d : Decimal} (finite : x.isFinite = true)
    (nonzero : x.magnitude ≠ 0) (positive : 0 < d.value) (rounds : x.Rounds d.value) :
    d.nearest x.signed = x := by
  have ten := zpow_eq_div 10 d.power
  rw [Nat.cast_ofNat] at ten
  have fraction : ((d.digits * Nat.pow 10 d.power.toNat : ℕ) : ℚ) /
      (Nat.pow 10 (-d.power).toNat : ℕ) = d.value := by
    rw [value, ten, Nat.cast_mul, mul_div_assoc]
  have digits : d.digits ≠ 0 := by
    intro none
    rw [value, none] at positive
    simp at positive
  have num : 0 < d.digits * Nat.pow 10 d.power.toNat :=
    Nat.mul_pos (Nat.pos_of_ne_zero digits) (Nat.pow_pos (by decide))
  have den : 0 < Nat.pow 10 (-d.power).toNat := Nat.pow_pos (by decide)
  rw [nearest, ofRatio, nearestMagnitude_eq finite nonzero num den (fraction ▸ rounds),
    ofMagnitude_magnitude]

/-- Nothing is nearest to zero but zero. -/
theorem Decimal.nearest_zero {x : Binary64} (zero : x.magnitude = 0) (power : Int) :
    (⟨0, power⟩ : Decimal).nearest x.signed = x := by
  rw [nearest, Nat.zero_mul, ofRatio]
  have same := x.ofMagnitude_magnitude
  rwa [zero] at same

end Binary64

namespace Json

open Binary64 (Decimal)

/-! ## Reading numbers -/

/-- A number as a document writes it. -/
structure Numeral where
  negative : Bool
  whole : List Char
  fraction : List Char
  exponent : Int

/-- The decimal that a number writes, without its sign. -/
def Numeral.decimal (n : Numeral) : Decimal :=
  ⟨Nat.ofDigitChars 10 (n.whole ++ n.fraction) 0, n.exponent - n.fraction.length⟩

/-- The digits of an exponent. -/
def exponentDigits? (cs : List Char) : Option Nat :=
  if cs ≠ [] ∧ cs.all Char.isDigit = true then some (Nat.ofDigitChars 10 cs 0) else none

/-- The exponent at the end of a number; there may be none, which is zero. -/
def exponent? : List Char → Option Int
  | [] => some 0
  | mark :: cs =>
    if mark = 'e' ∨ mark = 'E' then
      match cs with
      | '-' :: digits => (exponentDigits? digits).map fun (n : Nat) => -(n : Int)
      | '+' :: digits => (exponentDigits? digits).map fun (n : Nat) => (n : Int)
      | digits => (exponentDigits? digits).map fun (n : Nat) => (n : Int)
    else none

/-- The sign at the front of a number, and what follows it. -/
def splitSign : List Char → Bool × List Char
  | '-' :: cs => (true, cs)
  | cs => (false, cs)

/-- Takes a number apart: a sign, digits of which the first is no zero but a single one, a point
with digits, an exponent. -/
def numeral? (cs : List Char) : Option Numeral :=
  let (negative, cs) := splitSign cs
  let whole := cs.takeWhile Char.isDigit
  if whole = [] ∨ (whole.head? = some '0' ∧ whole.length ≠ 1) then none
  else
    match cs.dropWhile Char.isDigit with
    | '.' :: cs =>
      let fraction := cs.takeWhile Char.isDigit
      if fraction = [] then none
      else (exponent? (cs.dropWhile Char.isDigit)).map (⟨negative, whole, fraction, ·⟩)
    | cs => (exponent? cs).map (⟨negative, whole, [], ·⟩)

/-- The double nearest to the number that a text writes. -/
def nearestDouble? (cs : List Char) : Option Binary64 :=
  (numeral? cs).map fun n => n.decimal.nearest n.negative

/-! ## Reading the parts of a number -/

theorem exponentDigits?_toDigits (n : Nat) : exponentDigits? (Nat.toDigits 10 n) = some n := by
  have digits : (Nat.toDigits 10 n).all Char.isDigit = true :=
    List.all_eq_true.mpr fun c member => Nat.isDigit_of_mem_toDigits (by decide) (by decide) member
  rw [exponentDigits?, if_pos ⟨Nat.toDigits_ne_nil, digits⟩, Nat.ofDigitChars_ten_toDigits]

/-- The digits of a positive number do not begin with a zero. -/
theorem head_toDigits {n : Nat} (positive : 0 < n) : (Nat.toDigits 10 n).head? ≠ some '0' := by
  induction n using Nat.strong_induction_on with
  | _ n ih =>
    rw [Nat.toDigits_eq_if (by decide)]
    split_ifs with small
    · have all : ∀ m : Fin 10, 0 < m.val → [Nat.digitChar m.val].head? ≠ some '0' := by decide
      exact all ⟨n, small⟩ positive
    · rw [List.head?_append_of_ne_nil _ Nat.toDigits_ne_nil]
      exact ih (n / 10) (by omega) (by omega)

/-- What the digits before the point have to be. -/
structure IsWhole (whole : List Char) : Prop where
  digits : ∀ c ∈ whole, c.isDigit = true
  some : whole ≠ []
  first : whole.head? = .some '0' → whole.length = 1

theorem isWhole_toDigits_append {n : Nat} (positive : 0 < n) {zeros : List Char}
    (digits : ∀ c ∈ zeros, c.isDigit = true) : IsWhole (Nat.toDigits 10 n ++ zeros) where
  digits c member := by
    rcases List.mem_append.mp member with own | zero
    · exact Nat.isDigit_of_mem_toDigits (by decide) (by decide) own
    · exact digits c zero
  some empty := Nat.toDigits_ne_nil (List.append_eq_nil_iff.mp empty).1
  first zero := by
    rw [List.head?_append_of_ne_nil _ Nat.toDigits_ne_nil] at zero
    exact absurd zero (head_toDigits positive)

theorem isWhole_take_toDigits {n : Nat} (positive : 0 < n) {whole : Nat} (some : 0 < whole) :
    IsWhole ((Nat.toDigits 10 n).take whole) where
  digits c member := Nat.isDigit_of_mem_toDigits (by decide) (by decide) (List.mem_of_mem_take member)
  some empty := by
    rcases List.take_eq_nil_iff.mp empty with none | none
    · exact Nat.ne_of_gt some none
    · exact Nat.toDigits_ne_nil none
  first zero := by
    rw [List.head?_take, if_neg (Nat.ne_of_gt some)] at zero
    exact absurd zero (head_toDigits positive)

/-- What is taken as long as it is of a kind ends where something else follows. -/
theorem span_append {α : Type} {p : α → Bool} {taken rest : List α}
    (all : ∀ a ∈ taken, p a = true) (ends : ∀ a ∈ rest.head?, p a = false) :
    (taken ++ rest).takeWhile p = taken ∧ (taken ++ rest).dropWhile p = rest := by
  rw [List.takeWhile_append_of_pos all, List.dropWhile_append_of_pos all]
  cases rest with
  | nil => simp
  | cons a more =>
    have stops : p a = false := ends a rfl
    simp [stops]

/-- The characters of a sign. -/
def signChars (negative : Bool) : List Char :=
  if negative then ['-'] else []

theorem splitSign_append {negative : Bool} {whole rest : List Char} (shape : IsWhole whole) :
    splitSign (signChars negative ++ (whole ++ rest)) = (negative, whole ++ rest) := by
  cases negative with
  | true => rfl
  | false =>
    cases whole with
    | nil => exact absurd rfl shape.some
    | cons c more =>
      have digit := shape.digits c List.mem_cons_self
      rw [signChars, if_neg Bool.false_ne_true, List.nil_append, List.cons_append, splitSign]
      rintro cs same
      cases same
      revert digit
      decide

section Parts

variable {negative : Bool} {whole fraction tail : List Char} {exponent : Int}
  (shape : IsWhole whole)
include shape

theorem numeral?_point (digits : ∀ c ∈ fraction, c.isDigit = true) (some : fraction ≠ [])
    (ends : ∀ c ∈ tail.head?, c.isDigit = false) (written : exponent? tail = .some exponent) :
    numeral? (signChars negative ++ (whole ++ '.' :: (fraction ++ tail))) =
      .some ⟨negative, whole, fraction, exponent⟩ := by
  have point : ∀ c ∈ ('.' :: (fraction ++ tail)).head?, c.isDigit = false := by
    intro c same
    cases same
    rfl
  obtain ⟨before, after⟩ := span_append shape.digits point
  obtain ⟨inside, behind⟩ := span_append digits ends
  have form : ¬ (whole = [] ∨ (whole.head? = .some '0' ∧ whole.length ≠ 1)) := by
    rintro (none | ⟨zero, many⟩)
    · exact shape.some none
    · exact many (shape.first zero)
  simp only [numeral?, splitSign_append shape, before, after, inside, behind, form, some, if_false,
    written, Option.map_some]

theorem numeral?_bare (ends : ∀ c ∈ tail.head?, c.isDigit = false ∧ c ≠ '.')
    (written : exponent? tail = .some exponent) :
    numeral? (signChars negative ++ (whole ++ tail)) = .some ⟨negative, whole, [], exponent⟩ := by
  obtain ⟨before, after⟩ := span_append shape.digits fun c same => (ends c same).1
  have form : ¬ (whole = [] ∨ (whole.head? = .some '0' ∧ whole.length ≠ 1)) := by
    rintro (none | ⟨zero, many⟩)
    · exact shape.some none
    · exact many (shape.first zero)
  simp only [numeral?, splitSign_append shape, before, after, form, if_false]
  split
  · exact absurd rfl (ends '.' rfl).2
  · rw [written, Option.map_some]

end Parts

/-! ## Written numbers -/

theorem toList_zeros (n : Nat) : ("".pushn '0' n).toList = List.replicate n '0' := by
  rw [String.pushn_eq_repeat_push]
  induction n with
  | zero => rfl
  | succ n ih =>
    rw [Nat.repeat, String.toList_push, ih, List.replicate_succ']

theorem isDigit_of_mem_replicate {n : Nat} : ∀ c ∈ List.replicate n '0', c.isDigit = true := by
  intro c member
  rw [List.eq_of_mem_replicate member]
  rfl

/-- Some digits are the number that they write after any zeros. -/
theorem ofDigitChars_zeros (n zeros : Nat) :
    Nat.ofDigitChars 10 (List.replicate zeros '0' ++ Nat.toDigits 10 n) 0 = n := by
  rw [Nat.ofDigitChars_append, Nat.ofDigitChars_replicate_zero, Nat.mul_zero,
    Nat.ofDigitChars_ten_toDigits]

/-- Where the point of a positional number stands: before zeros and the digits, behind the digits and
zeros, or among the digits. -/
theorem positional_cases (n : Nat) (whole : Int) :
    (whole ≤ 0 ∧ (Binary64.positional Binary64.documentNotation (toString n) whole).toList =
      '0' :: '.' :: (List.replicate (-whole).toNat '0' ++ Nat.toDigits 10 n)) ∨
    ((Nat.toDigits 10 n).length ≤ whole ∧
      (Binary64.positional Binary64.documentNotation (toString n) whole).toList =
        Nat.toDigits 10 n ++ List.replicate (whole - (Nat.toDigits 10 n).length).toNat '0' ++
          ['.', '0']) ∨
    (0 < whole ∧ whole < (Nat.toDigits 10 n).length ∧
      (Binary64.positional Binary64.documentNotation (toString n) whole).toList =
        (Nat.toDigits 10 n).take whole.toNat ++ '.' :: (Nat.toDigits 10 n).drop whole.toNat) := by
  have count : (toString n).length = (Nat.toDigits 10 n).length := by
    rw [← String.length_toList, Nat.toString_eq_ofList_toDigits, String.toList_ofList]
  rw [Binary64.positional, count]
  split_ifs with small large
  · exact .inl ⟨small, by simp [toList_zeros]⟩
  · exact .inr (.inl ⟨large, by simp [toList_zeros, Binary64.documentNotation]⟩)
  · exact .inr (.inr ⟨by omega, by omega, by simp⟩)

/-- A number with an exponent has its point behind the first digit, if there are others. -/
theorem scientific_shape (n : Nat) (exponent : Int) :
    ∃ first more, Nat.toDigits 10 n = first :: more ∧
      (Binary64.scientific Binary64.documentNotation (toString n) exponent).toList =
        first :: (if more = [] then [] else '.' :: more) ++
          'e' :: (if exponent < 0 then '-' else '+') :: Nat.toDigits 10 exponent.natAbs := by
  obtain ⟨first, more, split⟩ := List.exists_cons_of_ne_nil (@Nat.toDigits_ne_nil n 10)
  have digit : ((toString n).take 1).toString = String.ofList [first] := by
    rw [← String.toList_inj]
    simp [split]
  have fraction : ((toString n).drop 1).toString = String.ofList more := by
    rw [← String.toList_inj]
    simp [split]
  have size : (toString exponent.natAbs).toList = Nat.toDigits 10 exponent.natAbs := by
    rw [Nat.toString_eq_ofList_toDigits, String.toList_ofList]
  have point : (if (String.ofList more).isEmpty then "" else "." ++ String.ofList more).toList =
      if more = [] then [] else '.' :: more := by
    cases more with
    | nil => rfl
    | cons c rest => simp
  refine ⟨first, more, split, ?_⟩
  rw [Binary64.scientific, digit, fraction]
  simp only [String.toList_append, point, size, String.toList_ofList]
  by_cases below : exponent < 0
  · rw [if_pos below, if_pos below]
    simp [Binary64.documentNotation]
  · rw [if_neg below, if_neg below]
    simp [Binary64.documentNotation]

/-- Characters that are read as a number with any sign, which without it is a given decimal. -/
def Writes (d : Decimal) (cs : List Char) : Prop :=
  ∀ negative, ∃ numeral, numeral? (signChars negative ++ cs) = some numeral ∧
    numeral.negative = negative ∧ numeral.decimal.value = d.value

section Written

variable {n : Nat} (positive : 0 < n)

/-- Digits behind a point and zeros. -/
theorem writes_behind (zeros : Nat) :
    Writes ⟨n, -(zeros + (Nat.toDigits 10 n).length : Nat)⟩
      ('0' :: '.' :: (List.replicate zeros '0' ++ Nat.toDigits 10 n)) := by
  intro negative
  have zero : IsWhole ['0'] :=
    ⟨List.forall_mem_singleton.mpr rfl, List.cons_ne_nil _ _, fun _ => rfl⟩
  have digits : ∀ c ∈ List.replicate zeros '0' ++ Nat.toDigits 10 n, c.isDigit = true := by
    intro c member
    rcases List.mem_append.mp member with first | own
    · exact isDigit_of_mem_replicate c first
    · exact Nat.isDigit_of_mem_toDigits (by decide) (by decide) own
  have read := @numeral?_point negative _ _ [] 0 zero digits
    (fun empty => Nat.toDigits_ne_nil (List.append_eq_nil_iff.mp empty).2)
    (fun c none => by cases none) rfl
  rw [List.append_nil] at read
  refine ⟨_, read, rfl, ?_⟩
  have number : Nat.ofDigitChars 10 (['0'] ++ (List.replicate zeros '0' ++ Nat.toDigits 10 n)) 0 =
      n := ofDigitChars_zeros n (zeros + 1)
  rw [Numeral.decimal, Decimal.value, Decimal.value, number, List.length_append,
    List.length_replicate, zero_sub]

include positive

/-- Digits and zeros before a point. -/
theorem writes_before (zeros : Nat) :
    Writes ⟨n, zeros⟩ (Nat.toDigits 10 n ++ List.replicate zeros '0' ++ ['.', '0']) := by
  intro negative
  have read := @numeral?_point negative _ ['0'] [] 0
    (isWhole_toDigits_append positive (isDigit_of_mem_replicate (n := zeros)))
    (List.forall_mem_singleton.mpr rfl) (List.cons_ne_nil _ _) (fun c none => by cases none) rfl
  refine ⟨_, read, rfl, ?_⟩
  have number : Nat.ofDigitChars 10
      (Nat.toDigits 10 n ++ List.replicate zeros '0' ++ List.replicate 1 '0') 0 =
        10 ^ 1 * (10 ^ zeros * n) := by
    rw [Nat.ofDigitChars_append, Nat.ofDigitChars_append, Nat.ofDigitChars_ten_toDigits,
      Nat.ofDigitChars_replicate_zero, Nat.ofDigitChars_replicate_zero]
  have power : (0 : Int) - (['0'].length : Nat) = -1 := rfl
  change ((Nat.ofDigitChars 10 _ 0 : ℕ) : ℚ) * 10 ^ ((0 : Int) - (['0'].length : Nat)) = _
  rw [List.replicate_one] at number
  rw [number, power, Decimal.value, zpow_natCast]
  push_cast
  ring

/-- Digits with a point among them. -/
theorem writes_among {whole : Nat} (some : 0 < whole) (few : whole < (Nat.toDigits 10 n).length) :
    Writes ⟨n, (whole : Int) - (Nat.toDigits 10 n).length⟩
      ((Nat.toDigits 10 n).take whole ++ '.' :: (Nat.toDigits 10 n).drop whole) := by
  intro negative
  obtain ⟨digits, its⟩ : ∃ digits, digits = Nat.toDigits 10 n := ⟨_, rfl⟩
  have all : ∀ c ∈ digits, c.isDigit = true := fun c member =>
    Nat.isDigit_of_mem_toDigits (by decide) (by decide) (its ▸ member)
  have number : Nat.ofDigitChars 10 digits 0 = n := its ▸ Nat.ofDigitChars_ten_toDigits
  have shape : IsWhole (digits.take whole) := its ▸ isWhole_take_toDigits positive some
  rw [← its] at few ⊢
  have read := @numeral?_point negative _ (digits.drop whole) [] 0 shape
    (fun c member => all c (List.mem_of_mem_drop member))
    (fun empty => by
      have length := congrArg List.length empty
      rw [List.length_drop, List.length_nil] at length
      omega)
    (fun c none => by cases none) rfl
  rw [List.append_nil] at read
  refine ⟨_, read, rfl, ?_⟩
  have power : (0 : Int) - ((digits.drop whole).length : Nat) = whole - digits.length := by
    rw [List.length_drop]
    omega
  rw [Numeral.decimal, List.take_append_drop, number, power]

omit positive in
/-- A digit, perhaps more of them behind a point, and an exponent. -/
theorem writes_exponent {mark : Char} {size : Nat} {exponent : Int}
    (marks : mark = '+' ∧ exponent = size ∨ mark = '-' ∧ exponent = -(size : Int))
    {first : Char} {more : List Char} (split : Nat.toDigits 10 n = first :: more) :
    Writes ⟨n, exponent - more.length⟩
      (first :: (if more = [] then [] else '.' :: more) ++
        'e' :: mark :: Nat.toDigits 10 size) := by
  intro negative
  have all : ∀ c ∈ first :: more, c.isDigit = true := fun c member =>
    Nat.isDigit_of_mem_toDigits (by decide) (by decide) (split ▸ member)
  obtain ⟨digit, digits⟩ := List.forall_mem_cons.mp all
  have shape : IsWhole [first] :=
    ⟨List.forall_mem_singleton.mpr digit, List.cons_ne_nil _ _, fun _ => rfl⟩
  have written : exponent? ('e' :: mark :: Nat.toDigits 10 size) = some exponent := by
    rcases marks with ⟨rfl, rfl⟩ | ⟨rfl, rfl⟩
    · simp [exponent?, exponentDigits?_toDigits]
    · simp [exponent?, exponentDigits?_toDigits]
  have number : Nat.ofDigitChars 10 ([first] ++ more) 0 = n := by
    rw [List.singleton_append, ← split, Nat.ofDigitChars_ten_toDigits]
  have ends : ∀ c ∈ ('e' :: mark :: Nat.toDigits 10 size).head?, c.isDigit = false ∧ c ≠ '.' := by
    intro c same
    cases same
    exact ⟨rfl, by decide⟩
  by_cases single : more = []
  · subst single
    rw [if_pos rfl]
    refine ⟨_, numeral?_bare shape ends written, rfl, ?_⟩
    rw [Numeral.decimal, number]
  · rw [if_neg single]
    have read := @numeral?_point negative _ _ _ _ shape digits single
      (fun c same => (ends c same).1) written
    refine ⟨_, read, rfl, ?_⟩
    rw [Numeral.decimal, number]

theorem writes_positional (power : Int) :
    Writes ⟨n, power⟩ (Binary64.positional Binary64.documentNotation (toString n)
      (power + (Nat.toDigits 10 n).length)).toList := by
  obtain ⟨whole, its⟩ : ∃ whole : Int, whole = power + (Nat.toDigits 10 n).length := ⟨_, rfl⟩
  rw [← its]
  rcases positional_cases n whole with ⟨small, shape⟩ | ⟨large, shape⟩ | ⟨some, few, shape⟩
  · have written := @writes_behind n (-whole).toNat
    have same : -(((-whole).toNat + (Nat.toDigits 10 n).length : Nat) : Int) = power := by omega
    rwa [same, ← shape] at written
  · have written := writes_before positive (whole - (Nat.toDigits 10 n).length).toNat
    have same : ((whole - (Nat.toDigits 10 n).length).toNat : Int) = power := by omega
    rwa [same, ← shape] at written
  · have written := @writes_among n positive whole.toNat (by omega) (by omega)
    have same : (whole.toNat : Int) - (Nat.toDigits 10 n).length = power := by omega
    rwa [same, ← shape] at written

omit positive in
theorem writes_scientific (power : Int) :
    Writes ⟨n, power⟩ (Binary64.scientific Binary64.documentNotation (toString n)
      (power + (Nat.toDigits 10 n).length - 1)).toList := by
  obtain ⟨exponent, its⟩ : ∃ exponent : Int,
    exponent = power + (Nat.toDigits 10 n).length - 1 := ⟨_, rfl⟩
  obtain ⟨first, more, split, shape⟩ := scientific_shape n exponent
  have same : exponent - more.length = power := by
    rw [its, split, List.length_cons]
    push_cast
    omega
  rw [← its, shape, ← same]
  by_cases below : exponent < 0
  · have negative : exponent = -(exponent.natAbs : Int) := by omega
    rw [if_pos below]
    exact writes_exponent (.inr ⟨rfl, negative⟩) split
  · have natural : exponent = exponent.natAbs := by omega
    rw [if_neg below]
    exact writes_exponent (.inl ⟨rfl, natural⟩) split

end Written

theorem writes_writePositive {x : Binary64} (positive : 0 < x.shortest.digits) :
    Writes x.shortest (x.writePositive Binary64.documentNotation).toList := by
  rw [Binary64.writePositive]
  generalize x.shortest = d at positive ⊢
  obtain ⟨digits, power⟩ := d
  have count : (toString digits).length = (Nat.toDigits 10 digits).length := by
    rw [← String.length_toList, Nat.toString_eq_ofList_toDigits, String.toList_ofList]
  dsimp only
  rw [count]
  split_ifs
  · rw [sub_add_cancel]
    exact writes_positional positive power
  · exact writes_scientific power

/-- A written number is the one nearest to the decimal that it is read as. -/
theorem nearestDouble?_write {x : Binary64} (finite : x.isFinite = true) :
    nearestDouble? (x.write Binary64.documentNotation).toList = some x := by
  have sign : (if x.signed then "-" else "").toList = signChars x.signed := by
    cases x.signed <;> rfl
  by_cases zero : x.magnitude = 0
  · have shape : IsWhole ['0'] :=
      ⟨List.forall_mem_singleton.mpr rfl, List.cons_ne_nil _ _, fun _ => rfl⟩
    have read := @numeral?_point x.signed _ ['0'] [] 0 shape (List.forall_mem_singleton.mpr rfl)
      (List.cons_ne_nil _ _) (fun c none => by cases none) rfl
    rw [nearestDouble?, Binary64.write, if_pos zero, String.toList_append, sign]
    change (numeral? (signChars x.signed ++ (['0'] ++ '.' :: (['0'] ++ [])))).map _ = _
    have decimal : (⟨x.signed, ['0'], ['0'], 0⟩ : Numeral).decimal = ⟨0, -1⟩ := rfl
    rw [read, Option.map_some, decimal, Decimal.nearest_zero zero]
  · obtain ⟨positive, rounds⟩ := Binary64.rounds_shortest zero
    have written := writes_writePositive positive
    obtain ⟨numeral, read, own, value⟩ := written x.signed
    have some : 0 < x.shortest.value :=
      mul_pos (Nat.cast_pos.mpr positive) (zpow_pos (by norm_num) _)
    rw [nearestDouble?, Binary64.write, if_neg zero, String.toList_append, sign, read,
      Option.map_some, own, Decimal.nearest_eq finite zero (value ▸ some) (value ▸ rounds)]

end Json

end Steering
