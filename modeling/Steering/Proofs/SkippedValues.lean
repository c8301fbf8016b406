import Mathlib.Tactic.Common
import Steering.Proofs.DocumentGrammar
/-! Values that nobody asked for are skipped: whatever has the form of a value, of any depth and with any
blanks, is skipped to its end and not further. -/

namespace Steering.Json

variable {fuel index : Nat} {rest : List UInt8}

theorem skip_append (bytes rest : List UInt8) (index : Nat) :
    (⟨bytes ++ rest, index⟩ : Cursor).skip bytes.length = ⟨rest, index + bytes.length⟩ := by
  rw [Cursor.skip, List.drop_left, List.length_append, Nat.min_eq_left (Nat.le_add_right _ _)]

/-! ## Strings -/

section Text

theorem skipTextFrom_plain {bytes : List UInt8}
    (plain : ∀ b ∈ bytes, b ≠ 0x22 ∧ b ≠ 0x5C ∧ ¬ b < 0x20) :
    skipTextFrom (fuel + bytes.length) ⟨bytes ++ rest, index⟩ =
      skipTextFrom fuel ⟨rest, index + bytes.length⟩ := by
  induction bytes generalizing index with
  | nil => rfl
  | cons b bytes ih =>
    obtain ⟨⟨notQuote, notSlash, visible⟩, others⟩ := List.forall_mem_cons.mp plain
    rw [List.length_cons, ← Nat.add_assoc, List.cons_append, skipTextFrom]
    simp only [Cursor.peek?, List.head?_cons, notQuote, notSlash, visible, if_false,
      Cursor.advance]
    rw [ih others, Nat.add_assoc, Nat.add_comm 1]

/-- The bytes of a character that is not escaped mean nothing in a string. -/
theorem plain_of_mem_utf8EncodeChar {c : Char} (notQuote : c ≠ '"') (notSlash : c ≠ '\\')
    (visible : ¬ c.toNat < 0x20) {b : UInt8} (member : b ∈ String.utf8EncodeChar c) :
    b ≠ 0x22 ∧ b ≠ 0x5C ∧ ¬ b < 0x20 := by
  by_cases ascii : c.toNat < 0x80
  · rw [Text.utf8EncodeChar_ascii ascii, List.mem_singleton] at member
    have value : b.toNat = c.toNat := by
      rw [member, Text.toNat_ofNat_ascii ascii]
    have quote : c.toNat ≠ 0x22 := fun same => notQuote (Char.toNat_inj.mp same)
    have slash : c.toNat ≠ 0x5C := fun same => notSlash (Char.toNat_inj.mp same)
    simp only [ne_eq, ← UInt8.toNat_inj, UInt8.lt_iff_toNat_lt, UInt8.reduceToNat]
    omega
  · have wide := Text.not_lt_of_mem_utf8EncodeChar ascii member
    simp only [ne_eq, ← UInt8.toNat_inj, UInt8.lt_iff_toNat_lt, UInt8.reduceToNat] at wide ⊢
    omega

theorem readUnit_of_digits {a b d e : UInt8}
    (digits : ∀ x ∈ [a, b, d, e], (hexValue? x).isSome = true) :
    ∃ unit, ∀ rest index,
      readUnit ⟨a :: b :: d :: e :: rest, index⟩ = .ok (unit, ⟨rest, index + 4⟩) := by
  simp only [List.forall_mem_cons, List.not_mem_nil, false_imp_iff, implies_true, and_true,
    Option.isSome_iff_exists] at digits
  obtain ⟨⟨one, first⟩, ⟨two, second⟩, ⟨three, third⟩, ⟨four, fourth⟩⟩ := digits
  refine ⟨((one * 16 + two) * 16 + three) * 16 + four, fun rest index => ?_⟩
  have skipped : (⟨a :: b :: d :: e :: rest, index⟩ : Cursor).skip 4 = ⟨rest, index + 4⟩ :=
    skip_append [a, b, d, e] rest index
  simp only [readUnit, first, second, third, fourth, skipped]

theorem IsPiece.skipped {piece : List UInt8} (form : IsPiece piece) :
    ∃ steps ≤ piece.length, ∀ fuel rest index,
      skipTextFrom (fuel + steps) ⟨piece ++ rest, index⟩ =
        skipTextFrom fuel ⟨rest, index + piece.length⟩ := by
  cases form with
  | plain notQuote notSlash visible =>
    exact ⟨_, Nat.le_refl _, fun fuel rest index => skipTextFrom_plain fun b member =>
      plain_of_mem_utf8EncodeChar notQuote notSlash visible member⟩
  | letter known =>
    refine ⟨1, by simp, fun fuel rest index => ?_⟩
    have notQuote : ¬ (0x5C : UInt8) = 0x22 := by decide
    simp only [skipTextFrom, List.cons_append, List.nil_append, Cursor.peek?, List.head?_cons,
      notQuote, if_false, if_true, Cursor.advance, skipEscape, known, List.length_cons,
      List.length_nil, Nat.add_assoc]
  | digits digits =>
    obtain ⟨unit, read⟩ := readUnit_of_digits digits
    refine ⟨1, by simp, fun fuel rest index => ?_⟩
    have notQuote : ¬ (0x5C : UInt8) = 0x22 := by decide
    have noLetter : shortEscape? 0x75 = none := by decide
    simp only [skipTextFrom, List.cons_append, List.nil_append, Cursor.peek?, List.head?_cons,
      notQuote, if_false, if_true, Cursor.advance, skipEscape, noLetter, Option.isSome_none,
      Bool.false_eq_true, read, Except.map, List.length_cons, List.length_nil, Nat.add_assoc,
      Nat.reduceAdd]

theorem IsText.skipped {body : List UInt8} (form : IsText body) :
    ∃ steps ≤ body.length, ∀ fuel rest index,
      skipTextFrom (fuel + steps) ⟨body ++ rest, index⟩ =
        skipTextFrom fuel ⟨rest, index + body.length⟩ := by
  induction form with
  | nil => exact ⟨0, Nat.le_refl _, fun fuel rest index => rfl⟩
  | cons first others ih =>
    obtain ⟨one, few, skips⟩ := first.skipped
    obtain ⟨more, fewer, skipsOthers⟩ := ih
    refine ⟨more + one, ?_, fun fuel rest index => ?_⟩
    · rw [List.length_append]
      omega
    · rw [← Nat.add_assoc, List.append_assoc, skips, skipsOthers, List.length_append,
        Nat.add_assoc]

/-- A string is skipped to its closing quote. -/
theorem IsText.skipText {body : List UInt8} (form : IsText body) (rest : List UInt8) (index : Nat) :
    skipText ⟨body ++ 0x22 :: rest, index⟩ = .ok ⟨rest, index + body.length + 1⟩ := by
  obtain ⟨steps, few, skips⟩ := form.skipped
  have enough : (body ++ 0x22 :: rest).length + 1 =
      (body ++ 0x22 :: rest).length - steps + 1 + steps := by
    rw [List.length_append, List.length_cons]
    omega
  rw [Json.skipText, enough, skips]
  rfl

end Text

/-! ## Numbers -/

section Number

theorem digitsAhead_append {digits : List UInt8} (all : ∀ b ∈ digits, isDigit b = true)
    (ends : ∀ b ∈ rest.head?, isDigit b = false) :
    digitsAhead ⟨digits ++ rest, index⟩ = digits.map fun b => b.toNat - 0x30 := by
  have none : rest.takeWhile isDigit = [] := by
    cases rest with
    | nil => rfl
    | cons b rest => exact List.takeWhile_cons_of_neg (by simp [ends b rfl])
  rw [digitsAhead, List.takeWhile_append_of_pos all, none, List.append_nil]

theorem eq_zero_of_isDigit {b : UInt8} (digit : isDigit b = true) (zero : b.toNat - 0x30 = 0) :
    b = 0x30 := by
  rw [isDigit, Bool.and_eq_true, decide_eq_true_eq, UInt8.le_iff_toNat_le] at digit
  have least : 0x30 ≤ b.toNat := digit.1
  have value : b.toNat = 0x30 := by omega
  exact UInt8.toNat_inj.mp value

/-- After the digits before the point there is no other digit. -/
theorem IsFraction.not_digit {fraction exponent : List UInt8} (decimals : IsFraction fraction)
    (scaled : IsExponent exponent) (ends : Ends rest) :
    ∀ b ∈ (fraction ++ (exponent ++ rest)).head?, isDigit b = false := by
  cases decimals with
  | digits digits =>
    rintro _ ⟨⟩
    rfl
  | none =>
    cases scaled with
    | none => exact fun b first => (ends.not_digit b first).1
    | digits marks signs digits =>
      rintro _ ⟨⟩
      rcases marks with rfl | rfl <;> rfl

/-- Where an exponent may stand, its letter says whether there is one. -/
theorem exponentAhead_of_ends (ends : Ends rest) : exponentAhead ⟨rest, index⟩ = false := by
  cases rest with
  | nil => rfl
  | cons b rest =>
    obtain ⟨-, -, lower, upper⟩ := ends.not_digit b rfl
    simp [exponentAhead, Cursor.peek?, lower, upper]

/-- The cursor behind the sign of an exponent, if there is one. -/
def signSkipped (c : Cursor) : Cursor :=
  if c.peek? == some 0x2B || c.peek? == some 0x2D then c.advance else c

theorem signSkipped_append {sign digits : List UInt8}
    (signs : sign = [] ∨ sign = [0x2B] ∨ sign = [0x2D]) (all : IsDigits digits) (rest : List UInt8)
    (index : Nat) : signSkipped ⟨sign ++ (digits ++ rest), index⟩ =
      ⟨digits ++ rest, index + sign.length⟩ := by
  rcases signs with rfl | rfl | rfl
  · obtain ⟨b, tail, rfl, digit⟩ := all.exists_cons
    have noPlus : b ≠ 0x2B := by rintro rfl; exact absurd digit (by decide)
    have noMinus : b ≠ 0x2D := by rintro rfl; exact absurd digit (by decide)
    simp [signSkipped, Cursor.peek?, noPlus, noMinus]
  · rfl
  · rfl

theorem skipExponent_of_digits {letter : UInt8} {sign digits : List UInt8}
    (signs : sign = [] ∨ sign = [0x2B] ∨ sign = [0x2D]) (all : IsDigits digits) (ends : Ends rest) :
    skipExponent ⟨letter :: (sign ++ digits) ++ rest, index⟩ =
      .ok ⟨rest, index + (letter :: (sign ++ digits)).length⟩ := by
  have signed := signSkipped_append signs all rest (index + 1)
  have ahead := @digitsAhead_append (index + 1 + sign.length) rest digits all.all fun b first =>
    (ends.not_digit b first).1
  obtain ⟨b, tail, shape, digit⟩ := all.exists_cons
  have first : (digits ++ rest).head? = some b := by
    rw [shape]
    rfl
  have behind : skipExponent ⟨letter :: (sign ++ digits) ++ rest, index⟩ =
      let c := signSkipped ⟨sign ++ (digits ++ rest), index + 1⟩
      if c.peek?.any isDigit then .ok (c.skip (digitsAhead c).length)
      else .error (c.advance.fault .invalidNumber) := by
    rw [List.cons_append, List.append_assoc]
    rfl
  simp only [behind, signed, ahead, Cursor.peek?, first, Option.any_some, digit, if_true,
    List.length_map, skip_append, List.length_cons, List.length_append, Except.ok.injEq,
    Cursor.mk.injEq, true_and]
  omega

/-- The exponent of a number is skipped, if there is one. -/
theorem IsExponent.skipped {exponent : List UInt8} (scaled : IsExponent exponent) (ends : Ends rest)
    (index : Nat) :
    let c : Cursor := ⟨exponent ++ rest, index⟩
    (if exponentAhead c then skipExponent c else .ok c) =
      .ok ⟨rest, index + exponent.length⟩ := by
  intro c
  cases scaled with
  | none =>
    have none : exponentAhead c = false := exponentAhead_of_ends ends
    rw [none]
    rfl
  | digits marks signs digits =>
    have some : exponentAhead c = true := by rcases marks with rfl | rfl <;> rfl
    rw [some]
    exact skipExponent_of_digits signs digits ends

/-- A number is skipped to its last digit. -/
theorem IsMagnitude.skipNumber {bytes : List UInt8} (form : IsMagnitude bytes) (ends : Ends rest)
    (index : Nat) : skipNumber ⟨bytes ++ rest, index⟩ = .ok ⟨rest, index + bytes.length⟩ := by
  cases form with
  | @parts whole fraction exponent integral decimals scaled =>
    have ahead := @digitsAhead_append index _ whole integral.all (decimals.not_digit scaled ends)
    obtain ⟨b, tail, shape, digit⟩ := integral.exists_cons
    have some : ¬ (whole.map fun b => b.toNat - 0x30) = [] := by simp [shape]
    have single : ¬ ((whole.map fun b => b.toNat - 0x30).head? = .some 0 ∧
        1 < whole.length) := by
      rintro ⟨zero, many⟩
      refine Nat.ne_of_gt many (integral.first ?_)
      rw [shape] at zero ⊢
      exact congrArg Option.some (eq_zero_of_isDigit digit (Option.some.inj zero))
    rw [List.append_assoc, List.append_assoc, Json.skipNumber, ahead]
    simp only [some, List.length_map, single, if_false, skip_append]
    cases decimals with
    | none =>
      have noPoint : ((exponent ++ rest).head? == Option.some 0x2E) = false := by
        cases scaled with
        | none =>
          cases rest with
          | nil => rfl
          | cons b rest =>
            obtain ⟨-, point, -⟩ := ends.not_digit b rfl
            simp [point]
        | digits marks signs digits => rcases marks with rfl | rfl <;> rfl
      have skipped := scaled.skipped ends (index + whole.length)
      simp only [List.nil_append, Cursor.peek?, noPoint, Bool.false_eq_true, if_false]
      rw [skipped, List.length_append, Nat.add_assoc]
    | @digits decimals all =>
      have more := @digitsAhead_append (index + whole.length + 1) (exponent ++ rest) decimals all.all
        (IsFraction.none.not_digit scaled ends)
      have someDecimals : ¬ (decimals.map fun b => b.toNat - 0x30) = [] := by
        simpa using all.some
      have skipped := scaled.skipped ends (index + whole.length + 1 + decimals.length)
      simp only [List.cons_append, Cursor.peek?, List.head?_cons, BEq.rfl, if_true, Cursor.advance,
        more, someDecimals, if_false, List.length_map, skip_append]
      rw [skipped]
      simp only [List.length_append, List.length_cons, Except.ok.injEq, Cursor.mk.injEq, true_and]
      omega

end Number

/-! ## Values -/

/-- What is skipped on once a value has been skipped inside some frames. -/
def resume (fuel : Nat) (frames : List Frame) (c : Cursor) : Except Fault Cursor :=
  match afterValue frames with
  | none => .ok c
  | some (expected, frames) => skipFrom fuel expected frames c

/-- Some bytes are skipped as a value wherever they stand, in at most two steps for each of them. -/
def IsSkipped (value : List UInt8) : Prop :=
  ∃ steps ≤ 2 * value.length, ∀ blank rest, IsBlank blank → Ends rest → ∀ index, ∃ next,
    ∀ fuel frames, skipFrom (fuel + steps) .value frames ⟨blank ++ (value ++ rest), index⟩ =
      resume fuel frames ⟨rest, next⟩

/-- A value that is skipped in one step. -/
theorem isSkipped_of_skipOne {b : UInt8} {tail : List UInt8} (visible : Cursor.isBlankByte b = false)
    (skips : ∀ rest, Ends rest → ∀ index, ∃ next, ∀ frames,
      skipOne frames ⟨b :: (tail ++ rest), index⟩ = .ok (afterValue frames, ⟨rest, next⟩)) :
    IsSkipped (b :: tail) := by
  refine ⟨1, by rw [List.length_cons]; omega, fun blank rest blanks ends index => ?_⟩
  obtain ⟨next, skipped⟩ := skips rest ends (index + blank.length)
  refine ⟨next, fun fuel frames => ?_⟩
  rw [skipFrom, skipStep, List.cons_append, skipBlanks_visible blanks visible]
  simp only [skipped, resume]
  cases afterValue frames <;> rfl

section Parts

/-- A part of a list or an object: its bytes, the value in it and the blanks behind that. -/
structure Part where
  bytes : List UInt8
  value : List UInt8
  behind : List UInt8

/-- A part of a frame leads to its value, both with and without the blanks before it. -/
structure Part.Enters (frame : Frame) (part : Part) : Prop where
  behind : IsBlank part.behind
  longer : part.value.length ≤ part.bytes.length
  next : ∀ rest index, ∃ blank next, IsBlank blank ∧ ∀ outer,
    enterMember frame outer ⟨part.bytes ++ rest, index⟩ =
      .ok (some (.value, frame :: outer), ⟨blank ++ (part.value ++ (part.behind ++ rest)), next⟩)
  first : ∀ rest index, ∃ b tail start blank next, IsBlank blank ∧ b ≠ frame.closing ∧
    (⟨part.bytes ++ rest, index⟩ : Cursor).skipBlanks = ⟨b :: tail, start⟩ ∧ ∀ outer,
    enterMember frame outer ⟨b :: tail, start⟩ =
      .ok (some (.value, frame :: outer), ⟨blank ++ (part.value ++ (part.behind ++ rest)), next⟩)

variable {frame : Frame} {inner : List UInt8}

theorem Frame.isBlankByte_closing (frame : Frame) :
    Cursor.isBlankByte frame.closing = false := by
  cases frame <;> rfl

theorem Frame.closing_cases (frame : Frame) : frame.closing = 0x5D ∨ frame.closing = 0x7D := by
  cases frame <;> decide

/-- What follows a part and the blanks behind it: the parts after it and the end of their frame. -/
def Frame.others (frame : Frame) (inner : List UInt8) (parts : List Part) (rest : List UInt8) :
    List UInt8 :=
  (parts.map Part.bytes).flatMap (0x2C :: ·) ++ (inner ++ frame.closing :: rest)

theorem Frame.others_cons (frame : Frame) (inner : List UInt8) (part : Part) (parts : List Part)
    (rest : List UInt8) :
    frame.others inner (part :: parts) rest = 0x2C :: (part.bytes ++ frame.others inner parts rest) := by
  rw [others, others, List.map_cons, List.flatMap_cons, List.cons_append, List.cons_append,
    List.append_assoc]

variable (frame inner) in
/-- Some parts are skipped in some steps, from behind the part before them to the end of their frame. -/
def OthersSkipped (parts : List Part) (steps : Nat) : Prop :=
  ∀ behind rest, IsBlank behind → ∀ index, ∃ next, ∀ fuel frames,
    skipFrom (fuel + steps) (.more frame) frames
      ⟨behind ++ frame.others inner parts rest, index⟩ = resume fuel frames ⟨rest, next⟩

/-- Once a part has been entered, its value is skipped and then the parts after it. -/
theorem part_skipped (blanks : IsBlank inner) {part : Part} {parts : List Part} {after : Nat}
    (own : part.Enters frame) (skip : IsSkipped part.value)
    (goes : OthersSkipped frame inner parts after) :
    ∃ steps ≤ 2 * part.bytes.length + after, ∀ blank rest, IsBlank blank → ∀ index, ∃ next,
      ∀ fuel frames, skipFrom (fuel + steps) .value (frame :: frames)
        ⟨blank ++ (part.value ++ (part.behind ++ frame.others inner parts rest)), index⟩ =
          resume fuel frames ⟨rest, next⟩ := by
  obtain ⟨steps, few, skips⟩ := skip
  have longer := own.longer
  refine ⟨after + steps, by omega, fun blank rest spaces index => ?_⟩
  have ends : Ends (part.behind ++ frame.others inner parts rest) :=
    ends_append own.behind (ends_others blanks frame.closing_cases _)
  obtain ⟨middle, skipped⟩ := skips blank _ spaces ends index
  obtain ⟨last, ended⟩ := goes part.behind rest own.behind middle
  refine ⟨last, fun fuel frames => ?_⟩
  rw [← Nat.add_assoc, skipped]
  exact ended fuel frames

/-- The parts after the first one are skipped up to the end of their frame. -/
theorem others_skipped (blanks : IsBlank inner) (parts : List Part)
    (enter : ∀ part ∈ parts, part.Enters frame) (skip : ∀ part ∈ parts, IsSkipped part.value) :
    ∃ steps ≤ 2 * ((parts.map Part.bytes).flatMap (0x2C :: ·)).length + 1,
      OthersSkipped frame inner parts steps := by
  induction parts with
  | nil =>
    refine ⟨1, by decide, fun behind rest spaces index => ?_⟩
    refine ⟨index + (behind ++ inner).length + 1, fun fuel frames => ?_⟩
    have all : IsBlank (behind ++ inner) := fun b member =>
      (List.mem_append.mp member).elim (spaces b) (blanks b)
    have noComma : frame.closing ≠ 0x2C := by cases frame <;> decide
    rw [Frame.others, List.map_nil, List.flatMap_nil, List.nil_append, ← List.append_assoc, skipFrom,
      skipStep, skipBlanks_visible all frame.isBlankByte_closing]
    simp only [Cursor.peek?, List.head?_cons, noComma, if_false, if_true, Cursor.advance, resume]
    cases afterValue frames <;> rfl
  | cons part parts ih =>
    obtain ⟨own, others⟩ := List.forall_mem_cons.mp enter
    obtain ⟨first, more⟩ := List.forall_mem_cons.mp skip
    obtain ⟨after, fewer, goes⟩ := ih others more
    obtain ⟨steps, few, skips⟩ := part_skipped blanks own first goes
    -- One step takes the comma, with the key if there is one.
    refine ⟨steps + 1, ?_, fun behind rest spaces index => ?_⟩
    · rw [List.map_cons, List.flatMap_cons, List.length_append, List.length_cons]
      omega
    obtain ⟨blank, start, gaps, entered⟩ := own.next (frame.others inner parts rest)
      (index + behind.length + 1)
    obtain ⟨last, ended⟩ := skips blank rest gaps start
    refine ⟨last, fun fuel frames => ?_⟩
    rw [Frame.others_cons, ← Nat.add_assoc, skipFrom, skipStep, skipBlanks_visible spaces (by decide)]
    simp only [Cursor.peek?, List.head?_cons, if_true, Cursor.advance, entered]
    exact ended fuel frames

variable (frame) in
/-- A list or an object is skipped as a value if its parts are. -/
theorem frame_skipped {opening : UInt8} (visible : Cursor.isBlankByte opening = false)
    (opens : ∀ frames rest index, skipOne frames ⟨opening :: rest, index⟩ =
      .ok (some (.first frame, frames), ⟨rest, index + 1⟩)) (blanks : IsBlank inner)
    {parts : List Part} (enter : ∀ part ∈ parts, part.Enters frame)
    (skip : ∀ part ∈ parts, IsSkipped part.value) :
    IsSkipped (opening :: (separated (parts.map Part.bytes) ++ (inner ++ [frame.closing]))) := by
  have opened (fuel frames) {blank : List UInt8} (spaces : IsBlank blank) (rest index) :
      skipFrom (fuel + 1) .value frames ⟨blank ++ opening :: rest, index⟩ =
        skipFrom fuel (.first frame) frames ⟨rest, index + blank.length + 1⟩ := by
    rw [skipFrom, skipStep, skipBlanks_visible spaces visible]
    simp only [opens]
  cases parts with
  | nil =>
    refine ⟨2, by simp only [List.length_cons, List.length_append]; omega,
      fun blank rest spaces ends index => ?_⟩
    refine ⟨index + blank.length + 1 + inner.length + 1, fun fuel frames => ?_⟩
    rw [List.cons_append, List.map_nil, separated, List.nil_append, List.append_assoc,
      opened _ _ spaces, skipFrom, skipStep, List.singleton_append,
      skipBlanks_visible blanks frame.isBlankByte_closing]
    simp only [Cursor.peek?, List.head?_cons, if_true, Cursor.advance, resume]
    cases afterValue frames <;> rfl
  | cons part parts =>
    obtain ⟨own, others⟩ := List.forall_mem_cons.mp enter
    obtain ⟨first, more⟩ := List.forall_mem_cons.mp skip
    obtain ⟨after, fewer, goes⟩ := others_skipped blanks parts others more
    obtain ⟨steps, few, skips⟩ := part_skipped blanks own first goes
    -- One step opens the frame and one enters its first part.
    refine ⟨steps + 2, ?_, fun blank rest spaces ends index => ?_⟩
    · simp only [List.map_cons, separated, List.length_cons, List.length_append] at fewer ⊢
      omega
    have split : opening :: (separated ((part :: parts).map Part.bytes) ++
        (inner ++ [frame.closing])) ++ rest =
          opening :: (part.bytes ++ frame.others inner parts rest) := by
      simp only [Frame.others, List.map_cons, separated, List.cons_append, List.append_assoc,
        List.nil_append]
    obtain ⟨b, bytes, here, gap, start, gaps, open', ahead, entered⟩ :=
      own.first (frame.others inner parts rest) (index + blank.length + 1)
    obtain ⟨last, ended⟩ := skips gap rest gaps start
    refine ⟨last, fun fuel frames => ?_⟩
    have count : fuel + (steps + 2) = fuel + steps + 1 + 1 := by omega
    rw [split, count, opened _ _ spaces, skipFrom, skipStep, ahead]
    simp only [Cursor.peek?, List.head?_cons, open', if_false, entered]
    exact ended fuel frames

end Parts

/-! ## Lists and objects -/

/-- The part of a list that an element is. -/
def Element.part (e : Element) : Part := ⟨e.bytes, e.value, e.behind⟩

theorem Element.Spaced.enters {e : Element} (spaced : e.Spaced) (form : IsValue e.value) :
    e.part.Enters .list where
  behind := spaced.2
  longer := by
    simp only [part, bytes, List.length_append]
    omega
  next rest index := by
    refine ⟨e.before, index, spaced.1, fun outer => ?_⟩
    simp only [part, bytes, List.append_assoc, enterMember]
  first rest index := by
    obtain ⟨b, tail, shape, -, notEnd, -⟩ := form.exists_cons
    have ahead := @IsValue.skipBlanks _ _ (e.behind ++ rest) form spaced.1 index
    refine ⟨b, tail ++ (e.behind ++ rest), index + e.before.length, [], index + e.before.length,
      isBlank_nil, notEnd, ?_, fun outer => ?_⟩
    · simp only [part, bytes, List.append_assoc]
      rw [ahead, shape, List.cons_append]
    · simp only [part, shape, enterMember, List.nil_append, List.cons_append]

/-- The part of an object that a member is. -/
def Member.part (m : Member) : Part := ⟨m.bytes, m.value, m.behind⟩

/-- A key is skipped together with its colon. -/
theorem Member.Spaced.skipKey {m : Member} (spaced : m.Spaced) {blank : List UInt8}
    (blanks : IsBlank blank) (rest : List UInt8) (index : Nat) : ∃ next,
    skipKey ⟨blank ++ 0x22 :: (m.key ++ 0x22 :: (m.tail ++ rest)), index⟩ =
      .ok ⟨m.after ++ (m.value ++ (m.behind ++ rest)), next⟩ := by
  obtain ⟨colon, its⟩ : ∃ colon, colon = index + blank.length + 1 + m.key.length + 1 := ⟨_, rfl⟩
  have key := spaced.key.skipText (m.tail ++ rest) (index + blank.length + 1)
  have ahead := spaced.skipBlanks_tail rest colon
  rw [← its] at key
  refine ⟨colon + m.between.length + 1, ?_⟩
  rw [Json.skipKey, skipBlanks_visible blanks (by decide)]
  simp only [Cursor.peek?, List.head?_cons, if_true, Cursor.advance, key, bind, Except.bind, ahead]

theorem Member.Spaced.enters {m : Member} (spaced : m.Spaced) : m.part.Enters .object where
  behind := spaced.behind
  longer := by
    simp only [part, bytes, tail, List.length_append, List.length_cons]
    omega
  next rest index := by
    obtain ⟨next, key⟩ := spaced.skipKey spaced.before rest index
    refine ⟨m.after, next, spaced.after, fun outer => ?_⟩
    simp only [part, bytes, List.append_assoc, List.cons_append, enterMember, key]
    rfl
  first rest index := by
    obtain ⟨next, key⟩ := spaced.skipKey isBlank_nil rest (index + m.before.length)
    refine ⟨0x22, m.key ++ 0x22 :: (m.tail ++ rest), index + m.before.length, m.after, next,
      spaced.after, by decide, ?_, fun outer => ?_⟩
    · simp only [part, bytes, List.append_assoc, List.cons_append]
      exact skipBlanks_visible spaced.before (by decide)
    · rw [List.nil_append] at key
      simp only [enterMember, key]
      rfl

/-- A word is skipped after its first letter. -/
theorem readWord_append (word rest : List UInt8) (index : Nat) :
    Cursor.readWord ⟨word ++ rest, index⟩ word = .ok ⟨rest, index + word.length⟩ := by
  induction word generalizing index with
  | nil => rfl
  | cons b word ih =>
    simp only [Cursor.readWord, List.cons_append, BEq.rfl, if_true, Cursor.advance, ih,
      List.length_cons]
    rw [Nat.add_assoc, Nat.add_comm 1]

theorem isSkipped_number {bytes : List UInt8} (number : IsNumber bytes) : IsSkipped bytes := by
  cases number with
  | unsigned magnitude =>
    obtain ⟨b, tail, rfl, digit⟩ := magnitude.exists_cons
    refine isSkipped_of_skipOne (isBlankByte_of_isDigit digit) fun rest ends index => ?_
    refine ⟨index + (b :: tail).length, fun frames => ?_⟩
    have skipped := magnitude.skipNumber ends index
    have letters : b ≠ 0x6E ∧ b ≠ 0x74 ∧ b ≠ 0x66 ∧ b ≠ 0x2D := by
      refine ⟨?_, ?_, ?_, ?_⟩ <;> rintro rfl <;> exact absurd digit (by decide)
    obtain ⟨noN, noT, noF, noMinus⟩ := letters
    rw [List.cons_append] at skipped
    simp only [skipOne, Cursor.peek?, List.head?_cons, noN, noT, noF, noMinus, digit, if_false,
      if_true, skipped, Except.map]
  | @negative bytes magnitude =>
    refine isSkipped_of_skipOne (by decide) fun rest ends index => ?_
    refine ⟨index + 1 + bytes.length, fun frames => ?_⟩
    have skipped := magnitude.skipNumber ends (index + 1)
    change (skipNumber ⟨bytes ++ rest, index + 1⟩).map (afterValue frames, ·) = _
    rw [skipped]
    rfl

/-- Whatever has the form of a value is skipped as one. -/
theorem IsValue.isSkipped {value : List UInt8} (form : IsValue value) : IsSkipped value := by
  have word {b : UInt8} (word : List UInt8) (visible : Cursor.isBlankByte b = false)
      (skips : ∀ frames rest index, skipOne frames ⟨b :: rest, index⟩ =
        (Cursor.readWord ⟨rest, index + 1⟩ word).map (afterValue frames, ·)) :
      IsSkipped (b :: word) :=
    isSkipped_of_skipOne visible fun rest _ index => ⟨_, fun frames => by
      rw [skips, readWord_append]
      rfl⟩
  induction form with
  | isNull => exact word _ (by decide) fun _ _ _ => rfl
  | isTrue => exact word _ (by decide) fun _ _ _ => rfl
  | isFalse => exact word _ (by decide) fun _ _ _ => rfl
  | number number => exact isSkipped_number number
  | @text body text =>
    refine isSkipped_of_skipOne (by decide) fun rest _ index =>
      ⟨index + 1 + body.length + 1, fun frames => ?_⟩
    change (skipText ⟨body ++ [0x22] ++ rest, index + 1⟩).map (afterValue frames, ·) = _
    rw [List.append_assoc, List.singleton_append, text.skipText]
    rfl
  | @list elements inner blank spaced values skipped =>
    have parts : elements.map Element.bytes = (elements.map Element.part).map Part.bytes := by
      rw [List.map_map]
      rfl
    rw [listBytes, parts]
    refine frame_skipped .list (by decide) (fun _ _ _ => rfl) blank ?_ ?_
    · exact List.forall_mem_map.mpr fun e member => (spaced e member).enters (values e member)
    · exact List.forall_mem_map.mpr skipped
  | @object members inner blank spaced values skipped =>
    have parts : members.map Member.bytes = (members.map Member.part).map Part.bytes := by
      rw [List.map_map]
      rfl
    rw [objectBytes, parts]
    refine frame_skipped .object (by decide) (fun _ _ _ => rfl) blank ?_ ?_
    · exact List.forall_mem_map.mpr fun m member => (spaced m member).enters
    · exact List.forall_mem_map.mpr skipped

/-- A value that nobody asked for is skipped to its end. -/
theorem IsValue.skipValue {value blank rest : List UInt8} (form : IsValue value)
    (blanks : IsBlank blank) (ends : Ends rest) (index : Nat) :
    ∃ next, skipValue ⟨blank ++ (value ++ rest), index⟩ = .ok ⟨rest, next⟩ := by
  obtain ⟨steps, few, skips⟩ := form.isSkipped
  obtain ⟨next, skipped⟩ := skips blank rest blanks ends index
  have enough : 2 * (blank ++ (value ++ rest)).length + 2 =
      2 * (blank ++ (value ++ rest)).length + 2 - steps + steps := by
    simp only [List.length_append]
    omega
  refine ⟨next, ?_⟩
  rw [Json.skipValue, enough, skipped]
  rfl

end Steering.Json
