import Steering.Json.Record
import Steering.Proofs.SkippedValues
/-! Numbers are read the same wherever they stand: what follows a number does not matter, both for what is
read and for whether anything is. -/

namespace Steering.Json

/-! ## Verdicts -/

section Verdict

variable {α β : Type}

/-- What a reader is known to give: a value, with the rest left to read, or a fault. -/
def Yields (result : Except Fault (α × Cursor)) (rest : List UInt8) : Option α → Prop
  | some x => ∃ next, result = .ok (x, ⟨rest, next⟩)
  | none => ∃ fault, result = .error fault

/-- A reader judges some bytes alike wherever they stand. -/
def Judges (read : Reader α) (bytes : List UInt8) (verdict : Option α) : Prop :=
  ∀ rest, Ends rest → ∀ index, Yields (read ⟨bytes ++ rest, index⟩) rest verdict

/-- A reader judges a value alike wherever it stands and whatever blanks are before it. -/
def JudgesValue (read : Reader α) (value : List UInt8) (verdict : Option α) : Prop :=
  ∀ blank rest, IsBlank blank → Ends rest → ∀ index,
    Yields (read ⟨blank ++ (value ++ rest), index⟩) rest verdict

/-- What a reader gives for a value that stands alone. -/
def whole? (read : Reader α) (value : List UInt8) : Option α :=
  match read ⟨value, 0⟩ with
  | .ok (x, c) => if c.rest = [] then some x else none
  | .error _ => none

theorem Yields.map {result : Except Fault (α × Cursor)} {rest : List UInt8} {verdict : Option α}
    (yields : Yields result rest verdict) (f : α → β) :
    Yields (result.map fun (x, c) => (f x, c)) rest (verdict.map f) := by
  cases verdict with
  | none =>
    obtain ⟨fault, rfl⟩ := yields
    exact ⟨fault, rfl⟩
  | some x =>
    obtain ⟨next, rfl⟩ := yields
    exact ⟨next, rfl⟩

theorem JudgesValue.map {read : Reader α} {value : List UInt8} {verdict : Option α}
    (judges : JudgesValue read value verdict) (f : α → β) :
    JudgesValue (fun c => (read c).map fun (x, c) => (f x, c)) value (verdict.map f) :=
  fun blank rest blanks ends index => (judges blank rest blanks ends index).map f

/-- A verdict is the one on the value alone. -/
theorem JudgesValue.whole {read : Reader α} {value : List UInt8} {verdict : Option α}
    (judges : JudgesValue read value verdict) : whole? read value = verdict := by
  have alone := judges [] [] isBlank_nil ends_nil 0
  rw [List.nil_append, List.append_nil] at alone
  cases verdict with
  | none =>
    obtain ⟨fault, read⟩ := alone
    rw [whole?, read]
  | some x =>
    obtain ⟨next, read⟩ := alone
    rw [whole?, read]
    rfl

theorem JudgesValue.alone {read : Reader α} {value : List UInt8} {verdict : Option α}
    (judges : JudgesValue read value verdict) : JudgesValue read value (whole? read value) :=
  judges.whole.symm ▸ judges

end Verdict

/-! ## Numbers -/

section Number

variable {positive : Bool} {significand index : Nat} {exponent : Int} {rest : List UInt8}

/-- The number that some digits write. -/
def digitsValue (digits : List UInt8) : Nat :=
  (digits.map fun b => b.toNat - 0x30).foldl (fun n d => n * 10 + d) 0

theorem le_foldl_digits (significand : Nat) (ds : List Nat) :
    significand ≤ ds.foldl (fun n d => n * 10 + d) significand := by
  induction ds generalizing significand with
  | nil => exact Nat.le_refl _
  | cons d ds ih =>
    have next := ih (significand * 10 + d)
    rw [List.foldl_cons]
    omega

/-- Digits are all appended if their number fits in 64 bits, and otherwise some are left out. -/
theorem appendDigits_cases (significand : Nat) (ds : List Nat) :
    let value := ds.foldl (fun n d => n * 10 + d) significand
    significand < 0x10000000000000000 →
      value < 0x10000000000000000 ∧ appendDigits significand ds = (value, 0) ∨
        0x10000000000000000 ≤ value ∧ (appendDigits significand ds).2 ≠ 0 := by
  induction ds generalizing significand with
  | nil => exact fun fits => .inl ⟨fits, rfl⟩
  | cons d ds ih =>
    intro value fits
    by_cases next : significand * 10 + d < 0x10000000000000000
    · have step : appendDigits significand (d :: ds) = appendDigits (significand * 10 + d) ds := by
        rw [appendDigits, if_pos next]
      rw [step]
      exact ih _ next
    · have step : appendDigits significand (d :: ds) = (significand, ds.length + 1) := by
        rw [appendDigits, if_neg next]
      refine .inr ⟨Nat.le_trans (Nat.not_lt.mp next) (le_foldl_digits _ ds), ?_⟩
      rw [step]
      exact Nat.succ_ne_zero _

theorem yields_ofParts (positive : Bool) (significand : Nat) (exponent : Int) (rest : List UInt8)
    (index : Nat) : Yields (ofParts positive significand exponent ⟨rest, index⟩) rest
      ((scale (.ofNat significand) exponent).map fun x =>
        .float (if positive then x else x.negate)) := by
  rw [ofParts]
  cases scale (.ofNat significand) exponent with
  | none => exact ⟨_, rfl⟩
  | some x => exact ⟨_, rfl⟩

/-- The digits of an exponent are all read, or up to the one that makes it too large. -/
theorem readExponentDigits_cases (accumulated : Nat) {digits : List UInt8}
    (all : ∀ b ∈ digits, isDigit b = true) :
    (∃ written, ∀ rest index, readExponentDigits accumulated (digits.map fun b => b.toNat - 0x30)
      ⟨digits ++ rest, index⟩ = (some written, ⟨rest, index + digits.length⟩)) ∨
    ∃ others, (∀ b ∈ others, isDigit b = true) ∧ ∀ rest index, ∃ next,
      readExponentDigits accumulated (digits.map fun b => b.toNat - 0x30)
        ⟨digits ++ rest, index⟩ = (none, ⟨others ++ rest, next⟩) := by
  induction digits generalizing accumulated with
  | nil => exact .inl ⟨accumulated, fun rest index => rfl⟩
  | cons b digits ih =>
    obtain ⟨-, more⟩ := List.forall_mem_cons.mp all
    have advanced (rest : List UInt8) (index : Nat) :
        (⟨b :: digits ++ rest, index⟩ : Cursor).advance = ⟨digits ++ rest, index + 1⟩ := rfl
    by_cases large : maxExponent < accumulated * 10 + (b.toNat - 0x30)
    · refine .inr ⟨digits, more, fun rest index => ⟨index + 1, ?_⟩⟩
      rw [List.map_cons, readExponentDigits, if_pos large, advanced]
    · simp only [List.map_cons, readExponentDigits, large, if_false, advanced, List.length_cons]
      rcases ih (accumulated * 10 + (b.toNat - 0x30)) more with
        ⟨written, reads⟩ | ⟨others, digit, reads⟩
      · refine .inl ⟨written, fun rest index => ?_⟩
        rw [reads, Nat.add_assoc, Nat.add_comm 1]
      · exact .inr ⟨others, digit, fun rest index => reads rest (index + 1)⟩

/-- What is read of an exponent behind its sign. -/
def readUnsignedExponent (positive : Bool) (significand : Nat) (exponent : Int) (raises : Bool)
    (c : Cursor) : Except Fault (Number × Cursor) :=
  match c.peek? with
  | none => .error (c.fault .endInValue)
  | some b =>
    if isDigit b then
      match readExponentDigits 0 (digitsAhead c) c with
      | (some written, c) =>
        ofParts positive significand (if raises then exponent + written else exponent - written) c
      | (none, c) =>
        if significand ≠ 0 ∧ raises then .error (c.fault .numberOutOfRange)
        else
          .ok (.float (if positive then .zero else Binary64.zero.negate),
            c.skip (digitsAhead c).length)
    else .error (c.advance.fault .invalidNumber)

theorem readExponent_eq (c : Cursor) : readExponent positive significand exponent c =
    readUnsignedExponent positive significand exponent (c.advance.peek? != some 0x2D)
      (signSkipped c.advance) := rfl

/-- What is read from the digits of an exponent is a double. -/
theorem judges_readUnsignedExponent (positive : Bool) (significand : Nat) (exponent : Int)
    (raises : Bool) {digits : List UInt8} (all : IsDigits digits) : ∃ verdict : Option Binary64,
      Judges (readUnsignedExponent positive significand exponent raises) digits
        (verdict.map Number.float) := by
  obtain ⟨b, tail, shape, digit⟩ := all.exists_cons
  have first (rest : List UInt8) : (digits ++ rest).head? = some b := by
    rw [shape]
    rfl
  have ahead {some : List UInt8} (digit : ∀ b ∈ some, isDigit b = true) {rest : List UInt8}
      (ends : Ends rest) (index : Nat) :
      digitsAhead ⟨some ++ rest, index⟩ = some.map fun b => b.toNat - 0x30 :=
    digitsAhead_append digit fun b first => (ends.not_digit b first).1
  rcases readExponentDigits_cases 0 all.all with ⟨written, reads⟩ | ⟨others, digits, reads⟩
  · refine ⟨(scale (.ofNat significand) (if raises then exponent + written else
      exponent - written)).map fun x => if positive then x else x.negate,
      fun rest ends index => ?_⟩
    simp only [readUnsignedExponent, Cursor.peek?, first, digit, if_true, ahead all.all ends, reads,
      Option.map_map]
    exact yields_ofParts _ _ _ _ _
  · by_cases huge : significand ≠ 0 ∧ raises = true
    · refine ⟨none, fun rest ends index => ?_⟩
      obtain ⟨next, stops⟩ := reads rest index
      simp only [readUnsignedExponent, Cursor.peek?, first, digit, if_true, ahead all.all ends,
        stops, huge, ne_eq, not_false_eq_true, and_self]
      exact ⟨_, rfl⟩
    · refine ⟨some (if positive then .zero else Binary64.zero.negate), fun rest ends index => ?_⟩
      obtain ⟨next, stops⟩ := reads rest index
      simp only [readUnsignedExponent, Cursor.peek?, first, digit, if_true, ahead all.all ends,
        stops, huge, if_false, ahead digits ends, List.length_map, skip_append]
      exact ⟨_, rfl⟩

/-- An exponent is read behind its letter and its sign. -/
theorem readExponent_append (positive : Bool) (significand : Nat) (exponent : Int) (letter : UInt8)
    {sign digits : List UInt8} (signs : sign = [] ∨ sign = [0x2B] ∨ sign = [0x2D])
    (all : IsDigits digits) (rest : List UInt8) (index : Nat) :
    readExponent positive significand exponent ⟨letter :: (sign ++ digits) ++ rest, index⟩ =
      readUnsignedExponent positive significand exponent (sign.head? != some 0x2D)
        ⟨digits ++ rest, index + 1 + sign.length⟩ := by
  have sees : ((sign ++ (digits ++ rest)).head? != some (0x2D : UInt8)) =
      (sign.head? != some 0x2D) := by
    rcases signs with rfl | rfl | rfl
    · obtain ⟨b, tail, rfl, digit⟩ := all.exists_cons
      have other : b ≠ 0x2D := by rintro rfl; exact absurd digit (by decide)
      change (some b != some 0x2D) = true
      simpa using other
    · rfl
    · rfl
  rw [readExponent_eq, ← signSkipped_append signs all, ← sees, List.cons_append, List.append_assoc]
  rfl

/-- What is read from an exponent is a double. -/
theorem judges_readExponent (positive : Bool) (significand : Nat) (exponent : Int)
    {letter : UInt8} {sign digits : List UInt8} (signs : sign = [] ∨ sign = [0x2B] ∨ sign = [0x2D])
    (all : IsDigits digits) : ∃ verdict : Option Binary64,
      Judges (readExponent positive significand exponent) (letter :: (sign ++ digits))
        (verdict.map Number.float) := by
  obtain ⟨verdict, judges⟩ := judges_readUnsignedExponent positive significand exponent
    (sign.head? != some 0x2D) all
  refine ⟨verdict, fun rest ends index => ?_⟩
  rw [readExponent_append positive significand exponent letter signs all]
  exact judges rest ends _

/-- Reads on where an exponent may stand. -/
def readScaled (positive : Bool) (significand : Nat) (exponent : Int) (c : Cursor) :
    Except Fault (Number × Cursor) :=
  if exponentAhead c then readExponent positive significand exponent c
  else ofParts positive significand exponent c

/-- With or without an exponent, what is read is a double. -/
theorem judges_readScaled (positive : Bool) (significand : Nat) (exponent : Int)
    {bytes : List UInt8} (scaled : IsExponent bytes) : ∃ verdict : Option Binary64,
      Judges (readScaled positive significand exponent) bytes (verdict.map Number.float) := by
  cases scaled with
  | none =>
    refine ⟨(scale (.ofNat significand) exponent).map fun x => if positive then x else x.negate,
      fun rest ends index => ?_⟩
    rw [List.nil_append, readScaled, exponentAhead_of_ends ends, if_neg Bool.false_ne_true,
      Option.map_map]
    exact yields_ofParts _ _ _ _ _
  | @digits letter sign bytes marks signs digits =>
    obtain ⟨verdict, judges⟩ := @judges_readExponent positive significand exponent letter _ _ signs digits
    refine ⟨verdict, fun rest ends index => ?_⟩
    have ahead : exponentAhead ⟨letter :: (sign ++ bytes) ++ rest, index⟩ = true := by
      rcases marks with rfl | rfl <;> rfl
    rw [readScaled, if_pos ahead]
    exact judges rest ends index

/-- A fraction is read with its digits added to the significand, as far as they fit. -/
theorem readFraction_append (positive : Bool) (significand : Nat) (exponent : Int)
    {decimals : List UInt8} (digits : IsDigits decimals) (rest : List UInt8)
    (ends : ∀ b ∈ rest.head?, isDigit b = false) (index : Nat) :
    let parts := appendDigits significand (decimals.map fun b => b.toNat - 0x30)
    readFraction positive significand exponent ⟨0x2E :: (decimals ++ rest), index⟩ =
      readScaled positive parts.1 (exponent - (decimals.length - parts.2 : Nat))
        ⟨rest, index + 1 + decimals.length⟩ := by
  have ahead := @digitsAhead_append (index + 1) rest decimals digits.all ends
  have some : ¬ (decimals.map fun b => b.toNat - 0x30) = [] := by simpa using digits.some
  simp only [readFraction, Cursor.advance, ahead, some, if_false, List.length_map, skip_append,
    readScaled]

/-- What is read from a fraction is a double. -/
theorem judges_readFraction (positive : Bool) (significand : Nat) (exponent : Int)
    {decimals scale : List UInt8} (digits : IsDigits decimals) (scaled : IsExponent scale) :
    ∃ verdict : Option Binary64, Judges (readFraction positive significand exponent)
      (0x2E :: (decimals ++ scale)) (verdict.map Number.float) := by
  obtain ⟨parts, its⟩ : ∃ parts, parts =
    appendDigits significand (decimals.map fun b => b.toNat - 0x30) := ⟨_, rfl⟩
  obtain ⟨verdict, judges⟩ := judges_readScaled positive parts.1
    (exponent - (decimals.length - parts.2 : Nat)) scaled
  refine ⟨verdict, fun rest ends index => ?_⟩
  have taken := readFraction_append positive significand exponent digits (scale ++ rest)
    (IsFraction.none.not_digit scaled ends) index
  rw [List.cons_append, List.append_assoc, taken, ← its]
  exact judges rest ends _

/-- What is read of a number behind the digits before its point. -/
def readBehind (positive : Bool) (parts : Nat × Nat) (c : Cursor) :
    Except Fault (Number × Cursor) :=
  if c.peek? == some 0x2E then readFraction positive parts.1 parts.2 c
  else if exponentAhead c then readExponent positive parts.1 parts.2 c
  else if parts.2 = 0 then .ok (ofInteger positive parts.1, c)
  else ofParts positive parts.1 parts.2 c

theorem readBehind_of_ends {parts : Nat × Nat} (ends : Ends rest) :
    readBehind positive parts ⟨rest, index⟩ =
      if parts.2 = 0 then .ok (ofInteger positive parts.1, ⟨rest, index⟩)
      else ofParts positive parts.1 parts.2 ⟨rest, index⟩ := by
  have noPoint : (rest.head? == some 0x2E) = false := by
    cases rest with
    | nil => rfl
    | cons b rest =>
      obtain ⟨-, point, -⟩ := ends.not_digit b rfl
      simpa using point
  simp only [readBehind, Cursor.peek?, noPoint, exponentAhead_of_ends ends, Bool.false_eq_true,
    if_false]

theorem readNumber_integral {whole : List UInt8} (integral : IsIntegral whole) (positive : Bool)
    (ends : ∀ b ∈ rest.head?, isDigit b = false) (index : Nat) :
    readNumber positive ⟨whole ++ rest, index⟩ =
      readBehind positive (appendDigits 0 (whole.map fun b => b.toNat - 0x30))
        ⟨rest, index + whole.length⟩ := by
  obtain ⟨b, tail, shape, digit⟩ := integral.exists_cons
  have ahead := @digitsAhead_append index rest whole integral.all ends
  have first : (whole ++ rest).head? = some b := by
    rw [shape]
    rfl
  have single : ¬ (b = 0x30 ∧ 1 < whole.length) := fun ⟨zero, many⟩ =>
    Nat.ne_of_gt many (integral.first (by rw [shape, zero]; rfl))
  simp only [readNumber, Cursor.peek?, first, ahead, digit, Bool.not_true, Bool.false_eq_true,
    if_false, List.length_map, single, skip_append, readBehind]
  rfl

/-- An integer of at most 64 bits is read as such. -/
theorem judges_integer (positive : Bool) {bytes : List UInt8} (integral : IsIntegral bytes)
    (fits : digitsValue bytes < 0x10000000000000000) :
    Judges (readNumber positive) bytes (some (ofInteger positive (digitsValue bytes))) := by
  intro rest ends index
  rcases appendDigits_cases 0 (bytes.map fun b => b.toNat - 0x30) (by decide) with
    ⟨-, all⟩ | ⟨large, -⟩
  · rw [readNumber_integral integral positive fun b first => (ends.not_digit b first).1, all,
      readBehind_of_ends ends]
    exact ⟨_, rfl⟩
  · exact absurd fits (Nat.not_lt.mpr large)

/-- Any other number is read as a double. -/
theorem judges_double (positive : Bool) {bytes : List UInt8} (form : IsMagnitude bytes)
    (other : ¬ (IsIntegral bytes ∧ digitsValue bytes < 0x10000000000000000)) :
    ∃ verdict : Option Binary64, Judges (readNumber positive) bytes (verdict.map Number.float) := by
  cases form with
  | @parts whole fraction scale integral decimals scaled =>
    obtain ⟨parts, its⟩ : ∃ parts, parts = appendDigits 0 (whole.map fun b => b.toNat - 0x30) :=
      ⟨_, rfl⟩
    have opened {rest : List UInt8} (ends : Ends rest) (index : Nat) :
        readNumber positive ⟨whole ++ (fraction ++ scale) ++ rest, index⟩ =
          readBehind positive parts ⟨fraction ++ (scale ++ rest), index + whole.length⟩ := by
      rw [its, List.append_assoc, List.append_assoc]
      exact readNumber_integral integral positive (decimals.not_digit scaled ends) index
    cases decimals with
    | @digits decimals digits =>
      obtain ⟨verdict, judges⟩ := judges_readFraction positive parts.1 parts.2 digits scaled
      refine ⟨verdict, fun rest ends index => ?_⟩
      have judged := judges rest ends (index + whole.length)
      rw [List.cons_append, List.append_assoc] at judged
      rw [opened ends]
      exact judged
    | none =>
      cases scaled with
      | @digits letter sign exponent marks signs digits =>
        obtain ⟨verdict, judges⟩ :=
          @judges_readExponent positive parts.1 parts.2 letter _ _ signs digits
        refine ⟨verdict, fun rest ends index => ?_⟩
        have behind (index : Nat) : readBehind positive parts
            ⟨letter :: (sign ++ exponent) ++ rest, index⟩ = readExponent positive parts.1 parts.2
              ⟨letter :: (sign ++ exponent) ++ rest, index⟩ := by
          rcases marks with rfl | rfl <;> rfl
        rw [opened ends, List.nil_append, behind]
        exact judges rest ends _
      | none =>
        rw [List.nil_append, List.append_nil] at other ⊢
        rcases appendDigits_cases 0 (whole.map fun b => b.toNat - 0x30) (by decide) with
          ⟨fits, -⟩ | ⟨-, left⟩
        · exact absurd ⟨integral, fits⟩ other
        · rw [← its] at left
          refine ⟨(Json.scale (.ofNat parts.1) parts.2).map fun x =>
            if positive then x else x.negate, fun rest ends index => ?_⟩
          rw [readNumber_integral integral positive fun b first => (ends.not_digit b first).1,
            ← its, readBehind_of_ends ends, if_neg left, Option.map_map]
          exact yields_ofParts _ _ _ _ _

/-- An integer of a document. Minus zero is none. -/
inductive IsInteger : List UInt8 → Int → Prop
  | natural {bytes : List UInt8} (integral : IsIntegral bytes) :
      IsInteger bytes (digitsValue bytes : Nat)
  | negative {bytes : List UInt8} (integral : IsIntegral bytes) (nonzero : digitsValue bytes ≠ 0) :
      IsInteger (0x2D :: bytes) (-(digitsValue bytes : Nat))

theorem IsInteger.exists_cons {bytes : List UInt8} {n : Int} (form : IsInteger bytes n) :
    ∃ b tail, bytes = b :: tail ∧ (b = 0x2D ∨ isDigit b = true) := by
  cases form with
  | natural integral =>
    obtain ⟨b, tail, shape, digit⟩ := integral.exists_cons
    exact ⟨b, tail, shape, .inr digit⟩
  | negative => exact ⟨_, _, rfl, .inl rfl⟩

/-- An integer behind a sign, and one without. -/
theorem isInteger_cons_iff {b : UInt8} {tail : List UInt8} {n : Int} :
    IsInteger (b :: tail) n ↔
      b = 0x2D ∧ IsIntegral tail ∧ digitsValue tail ≠ 0 ∧ n = -(digitsValue tail : Nat) ∨
        b ≠ 0x2D ∧ IsIntegral (b :: tail) ∧ n = (digitsValue (b :: tail) : Nat) := by
  constructor
  · intro form
    cases form with
    | natural integral =>
      refine .inr ⟨?_, integral, rfl⟩
      rintro rfl
      exact absurd (integral.all _ List.mem_cons_self) (by decide)
    | negative integral nonzero => exact .inl ⟨rfl, integral, nonzero, rfl⟩
  · rintro (⟨rfl, integral, nonzero, rfl⟩ | ⟨-, integral, rfl⟩)
    · exact .negative integral nonzero
    · exact .natural integral

theorem IsInteger.unique {bytes : List UInt8} {m n : Int} (one : IsInteger bytes m)
    (other : IsInteger bytes n) : m = n := by
  obtain ⟨b, tail, rfl, -⟩ := one.exists_cons
  rcases isInteger_cons_iff.mp one with ⟨minus, -, -, rfl⟩ | ⟨noMinus, -, rfl⟩
  · rcases isInteger_cons_iff.mp other with ⟨-, -, -, rfl⟩ | ⟨noMinus, -⟩
    · rfl
    · exact absurd minus noMinus
  · rcases isInteger_cons_iff.mp other with ⟨minus, -⟩ | ⟨-, -, rfl⟩
    · exact absurd minus noMinus
    · rfl

end Number

end Steering.Json
