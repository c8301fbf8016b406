import Steering.Proofs.NumberReading
import Steering.Proofs.SpelledText
/-! A value is read the same wherever it stands: what blanks are before it and what follows it does not
matter, both for what is read and for whether anything is. -/

namespace Steering.Json

/-! ## Strings -/

section Text

variable {body : List UInt8}

/-- A string ends at one place only. -/
theorem IsText.unique {other rest rest' : List UInt8} (first : IsText body) (second : IsText other)
    (same : body ++ 0x22 :: rest = other ++ 0x22 :: rest') : body = other := by
  have one := first.skipText rest 0
  rw [same, second.skipText] at one
  simp only [Except.ok.injEq, Cursor.mk.injEq] at one
  rw [one.1] at same
  exact (List.append_cancel_right same)

/-- The text that stands between the quotes of a string, if it spells one. -/
def spelled? (body : List UInt8) : Option String :=
  whole? readText (body ++ [0x22])

/-- A string is read if it spells a text, whatever follows it, and is refused otherwise. -/
theorem yields_readText (text : IsText body) (rest : List UInt8) (index : Nat) :
    Yields (readText ⟨body ++ 0x22 :: rest, index⟩) rest (spelled? body) := by
  have spells {rest : List UInt8} {index : Nat} {s : String} {c : Cursor}
      (read : readText ⟨body ++ 0x22 :: rest, index⟩ = .ok (s, c)) : SpellsText body s.toList := by
    obtain ⟨other, shape, spells⟩ := exists_of_readText read
    rwa [text.unique spells.isText shape]
  by_cases named : ∃ cs, SpellsText body cs
  · obtain ⟨cs, spells⟩ := named
    have reads (rest : List UInt8) (index : Nat) :
        ∃ next, readText ⟨body ++ 0x22 :: rest, index⟩ = .ok (String.ofList cs, ⟨rest, next⟩) := by
      obtain ⟨next, read⟩ := @SpellsText.reads rest _ _ spells index
      rw [List.append_assoc] at read
      exact ⟨next, read⟩
    obtain ⟨next, alone⟩ := reads [] 0
    rw [spelled?, whole?, alone]
    exact reads rest index
  · have refused (rest : List UInt8) (index : Nat) :
        ∃ fault, readText ⟨body ++ 0x22 :: rest, index⟩ = .error fault := by
      cases read : readText ⟨body ++ 0x22 :: rest, index⟩ with
      | error fault => exact ⟨fault, rfl⟩
      | ok read => exact absurd ⟨_, spells read⟩ named
    obtain ⟨fault, alone⟩ := refused [] 0
    rw [spelled?, whole?, alone]
    exact refused rest index

theorem spelled?_eq_some_iff (text : IsText body) {s : String} :
    spelled? body = some s ↔ SpellsText body s.toList := by
  constructor
  · intro named
    have yields := yields_readText text [] 0
    rw [named] at yields
    obtain ⟨next, read⟩ := yields
    obtain ⟨other, shape, spells⟩ := exists_of_readText read
    rwa [text.unique spells.isText shape]
  · intro spells
    obtain ⟨next, read⟩ := @SpellsText.reads [] _ _ spells 0
    rw [List.append_nil, String.ofList_toList] at read
    rw [spelled?, whole?, read]
    rfl

end Text

/-! ## Values -/

section Ahead

variable {blank tail rest : List UInt8} {b : UInt8} {index : Nat} (expected : String)
  (blanks : IsBlank blank)
include blanks

theorem readNumberValue_minus : readNumberValue expected ⟨blank ++ (0x2D :: tail ++ rest), index⟩ =
    readNumber false ⟨tail ++ rest, index + blank.length + 1⟩ := by
  rw [readNumberValue, List.cons_append, skipBlanks_visible blanks (by decide)]
  rfl

theorem readNumberValue_digit (digit : isDigit b = true) :
    readNumberValue expected ⟨blank ++ (b :: tail ++ rest), index⟩ =
      readNumber true ⟨b :: tail ++ rest, index + blank.length⟩ := by
  have noMinus : b ≠ 0x2D := by rintro rfl; exact absurd digit (by decide)
  rw [readNumberValue, List.cons_append, skipBlanks_visible blanks (isBlankByte_of_isDigit digit)]
  simp only [Cursor.peek?, List.head?_cons, noMinus, digit, if_false, if_true]

theorem readNumberValue_other (visible : Cursor.isBlankByte b = false) (noMinus : b ≠ 0x2D)
    (noDigit : isDigit b = false) :
    ∃ fault, readNumberValue expected ⟨blank ++ (b :: tail ++ rest), index⟩ = .error fault := by
  rw [readNumberValue, List.cons_append, skipBlanks_visible blanks visible]
  simp only [Cursor.peek?, List.head?_cons, noMinus, noDigit, Bool.false_eq_true, if_false]
  exact ⟨_, rfl⟩

theorem readTextValue_quote : readTextValue ⟨blank ++ (0x22 :: tail ++ rest), index⟩ =
    readText ⟨tail ++ rest, index + blank.length + 1⟩ := by
  rw [readTextValue, List.cons_append, skipBlanks_visible blanks (by decide)]
  rfl

theorem readTextValue_other (visible : Cursor.isBlankByte b = false) (noQuote : b ≠ 0x22) :
    ∃ fault, readTextValue ⟨blank ++ (b :: tail ++ rest), index⟩ = .error fault := by
  have other : ¬ some b = some (0x22 : UInt8) := fun same => noQuote (Option.some.inj same)
  rw [readTextValue, List.cons_append, skipBlanks_visible blanks visible]
  simp only [Cursor.peek?, List.head?_cons, other, if_false]
  exact ⟨_, rfl⟩

end Ahead

section Value

/-- The integers that are read as integers. -/
def IsWord (n : Int) : Prop :=
  -0x8000000000000000 ≤ n ∧ n < 0x10000000000000000

/-- What a number value is judged to be: an integer if it is one of at most 64 bits, or else a double. -/
inductive NumberVerdict (value : List UInt8) : Option Number → Prop
  | natural {n : Nat} (form : IsInteger value n) (word : IsWord n) :
      NumberVerdict value (some (.natural n))
  | negative {n : Int} (form : IsInteger value n) (word : IsWord n) :
      NumberVerdict value (some (.negative n))
  | other (none : ∀ n, IsInteger value n → ¬ IsWord n) (x : Option Binary64) :
      NumberVerdict value (x.map Number.float)

theorem numberVerdict_negative {bytes : List UInt8} (form : IsMagnitude bytes) :
    ∃ verdict, NumberVerdict (0x2D :: bytes) verdict ∧
      ∀ expected, JudgesValue (readNumberValue expected) (0x2D :: bytes) verdict := by
  have taken {verdict} (judges : Judges (readNumber false) bytes verdict) (expected : String) :
      JudgesValue (readNumberValue expected) (0x2D :: bytes) verdict := by
    intro blank rest blanks ends index
    rw [readNumberValue_minus expected blanks]
    exact judges rest ends _
  by_cases integral : IsIntegral bytes ∧ digitsValue bytes < 0x10000000000000000
  · have judges := taken (judges_integer false integral.1 integral.2)
    by_cases double : digitsValue bytes = 0 ∨ 0x8000000000000000 < digitsValue bytes
    · rw [ofInteger, if_neg Bool.false_ne_true, if_pos double] at judges
      refine ⟨_, .other (fun n form word => ?_) (some _), judges⟩
      rcases isInteger_cons_iff.mp form with ⟨-, -, nonzero, rfl⟩ | ⟨noMinus, -⟩
      · have least := word.1
        omega
      · exact noMinus rfl
    · rw [ofInteger, if_neg Bool.false_ne_true, if_neg double] at judges
      refine ⟨_, .negative (.negative integral.1 fun zero => double (.inl zero)) ?_, judges⟩
      constructor <;> omega
  · obtain ⟨x, judges⟩ := judges_double false form integral
    refine ⟨_, .other (fun n form word => ?_) x, taken judges⟩
    rcases isInteger_cons_iff.mp form with ⟨-, own, -, rfl⟩ | ⟨noMinus, -⟩
    · have least := word.1
      exact integral ⟨own, by omega⟩
    · exact noMinus rfl

theorem numberVerdict_unsigned {bytes : List UInt8} (form : IsMagnitude bytes) :
    ∃ verdict, NumberVerdict bytes verdict ∧
      ∀ expected, JudgesValue (readNumberValue expected) bytes verdict := by
  have taken {verdict} (judges : Judges (readNumber true) bytes verdict) (expected : String) :
      JudgesValue (readNumberValue expected) bytes verdict := by
    intro blank rest blanks ends index
    obtain ⟨b, tail, rfl, digit⟩ := form.exists_cons
    rw [readNumberValue_digit expected blanks digit]
    exact judges rest ends _
  by_cases integral : IsIntegral bytes ∧ digitsValue bytes < 0x10000000000000000
  · refine ⟨_, .natural (.natural integral.1) ?_, taken (judges_integer true integral.1 integral.2)⟩
    constructor <;> omega
  · obtain ⟨x, judges⟩ := judges_double true form integral
    refine ⟨_, .other (fun n whole word => ?_) x, taken judges⟩
    obtain ⟨b, tail, rfl, digit⟩ := form.exists_cons
    rcases isInteger_cons_iff.mp whole with ⟨rfl, -⟩ | ⟨-, own, rfl⟩
    · exact absurd digit (by decide)
    · exact integral ⟨own, by have most := word.2; omega⟩

variable {value : List UInt8}

section Integer

variable {expected : String} {low high : Int}

/-- A number that is an integer is read as one if it is within the bounds. -/
theorem judgesValue_bounded {number : Number} {integer : Int}
    (same : number = .natural integer.toNat ∧ 0 ≤ integer ∨ number = .negative integer)
    (judges : JudgesValue (readNumberValue expected) value (some number)) :
    JudgesValue (readInteger expected low high) value
      (if low ≤ integer ∧ integer ≤ high then some integer else none) := by
  intro blank rest blanks ends index
  obtain ⟨next, read⟩ := judges blank rest blanks ends index
  have given : readInteger expected low high ⟨blank ++ (value ++ rest), index⟩ =
      if low ≤ integer ∧ integer ≤ high then .ok (integer, ⟨rest, next⟩)
      else .error ((⟨rest, next⟩ : Cursor).fault (.invalidValue (.integer integer) expected)) := by
    rw [readInteger, read]
    rcases same with ⟨rfl, nonneg⟩ | rfl
    · simp only [bind, Except.bind, Int.toNat_of_nonneg nonneg]
    · rfl
  rw [given]
  split_ifs
  · exact ⟨_, rfl⟩
  · exact ⟨_, rfl⟩

/-- A number that is none is not read as one, whatever its value. -/
theorem judgesValue_noInteger {x : Option Binary64}
    (judges : JudgesValue (readNumberValue expected) value (x.map Number.float)) :
    JudgesValue (readInteger expected low high) value none := by
  intro blank rest blanks ends index
  have read := judges blank rest blanks ends index
  cases x with
  | none =>
    obtain ⟨fault, read⟩ := read
    exact ⟨fault, by rw [readInteger, read]; rfl⟩
  | some x =>
    obtain ⟨next, read⟩ := read
    exact ⟨_, by rw [readInteger, read]; rfl⟩

end Integer

variable (form : IsValue value)
include form

/-- A value that is no number is refused where one is wanted. -/
theorem numberVerdict : ∃ verdict, NumberVerdict value verdict ∧
    (verdict.isSome = true → IsNumber value) ∧
      ∀ expected, JudgesValue (readNumberValue expected) value verdict := by
  have refused {b : UInt8} {tail : List UInt8} (visible : Cursor.isBlankByte b = false)
      (noMinus : b ≠ 0x2D) (noDigit : isDigit b = false) :
      ∃ verdict, NumberVerdict (b :: tail) verdict ∧
        (verdict.isSome = true → IsNumber (b :: tail)) ∧
          ∀ expected, JudgesValue (readNumberValue expected) (b :: tail) verdict := by
    refine ⟨_, .other (fun n form _ => ?_) none, nofun, fun expected blank rest blanks _ index =>
      readNumberValue_other expected blanks visible noMinus noDigit⟩
    obtain ⟨_, _, shape, first⟩ := form.exists_cons
    obtain ⟨rfl, rfl⟩ := List.cons.inj shape
    rcases first with rfl | digit
    · exact noMinus rfl
    · exact absurd digit (Bool.eq_false_iff.mp noDigit)
  rcases form.cases_first with ⟨body, rfl, -⟩ | ⟨number, -⟩ | ⟨b, tail, rfl, first⟩
  · exact refused (by decide) (by decide) (by decide)
  · obtain ⟨verdict, kind, judges⟩ : ∃ verdict, NumberVerdict value verdict ∧
        ∀ expected, JudgesValue (readNumberValue expected) value verdict := by
      cases number with
      | unsigned magnitude => exact numberVerdict_unsigned magnitude
      | negative magnitude => exact numberVerdict_negative magnitude
    exact ⟨verdict, kind, fun _ => number, judges⟩
  · simp only [List.mem_cons, List.not_mem_nil, or_false] at first
    rcases first with rfl | rfl | rfl | rfl | rfl <;>
      exact refused (by decide) (by decide) (by decide)

/-- A double is read from a value as from the value alone, and only if it is a number. -/
theorem judges_readDouble : JudgesValue readDouble value (whole? readDouble value) ∧
    ((whole? readDouble value).isSome = true → IsNumber value) := by
  obtain ⟨verdict, -, number, judges⟩ := numberVerdict form
  have judged : JudgesValue readDouble value (verdict.map Number.toBinary64) :=
    (judges "f64").map Number.toBinary64
  refine ⟨judged.alone, fun given => number ?_⟩
  rwa [judged.whole, Option.isSome_map] at given

/-- An integer between two bounds is read from a value if it is one, and nothing else is. -/
theorem judges_readInteger (expected : String) {low high : Int}
    (least : -0x8000000000000000 ≤ low) (most : high < 0x10000000000000000) :
    JudgesValue (readInteger expected low high) value (whole? (readInteger expected low high) value) ∧
      ∀ n, whole? (readInteger expected low high) value = some n ↔
        IsInteger value n ∧ low ≤ n ∧ n ≤ high := by
  obtain ⟨verdict, kind, -, judges⟩ := numberVerdict form
  have settled {integer : Int} (own : IsInteger value integer) (judged : JudgesValue
      (readInteger expected low high) value
        (if low ≤ integer ∧ integer ≤ high then some integer else none)) :
      JudgesValue (readInteger expected low high) value
        (whole? (readInteger expected low high) value) ∧
      ∀ n, whole? (readInteger expected low high) value = some n ↔
        IsInteger value n ∧ low ≤ n ∧ n ≤ high := by
    refine ⟨judged.alone, fun n => ?_⟩
    rw [judged.whole, Option.ite_none_right_eq_some, Option.some.injEq]
    constructor
    · rintro ⟨bounds, rfl⟩
      exact ⟨own, bounds⟩
    · rintro ⟨form, bounds⟩
      obtain rfl := own.unique form
      exact ⟨bounds, rfl⟩
  cases kind with
  | natural own word =>
    exact settled own (judgesValue_bounded (.inl ⟨rfl, Int.natCast_nonneg _⟩) (judges expected))
  | negative own word => exact settled own (judgesValue_bounded (.inr rfl) (judges expected))
  | other noWord x =>
    have judged : JudgesValue (readInteger expected low high) value none :=
      judgesValue_noInteger (judges expected)
    refine ⟨judged.alone, fun n => ?_⟩
    rw [judged.whole]
    constructor
    · nofun
    · rintro ⟨own, above, below⟩
      exact absurd ⟨Int.le_trans least above, Int.lt_of_le_of_lt below most⟩ (noWord n own)

/-- A string is read from a value if it is spelled by one, and nothing else is. -/
theorem judges_readTextValue :
    JudgesValue readTextValue value (whole? readTextValue value) ∧
      ∀ s, whole? readTextValue value = some s ↔
        ∃ body, value = 0x22 :: (body ++ [0x22]) ∧ SpellsText body s.toList := by
  rcases form.cases_first with ⟨body, rfl, text⟩ | other
  · have judged : JudgesValue readTextValue (0x22 :: (body ++ [0x22])) (spelled? body) := by
      intro blank rest blanks _ index
      rw [readTextValue_quote blanks, List.append_assoc]
      exact yields_readText text rest _
    refine ⟨judged.alone, fun s => ?_⟩
    rw [judged.whole, spelled?_eq_some_iff text]
    constructor
    · exact fun spells => ⟨body, rfl, spells⟩
    · rintro ⟨other, shape, spells⟩
      rwa [List.append_cancel_right (List.cons.inj shape).2]
  · obtain ⟨b, tail, rfl, visible, noQuote⟩ : ∃ b tail, value = b :: tail ∧
        Cursor.isBlankByte b = false ∧ b ≠ 0x22 := by
      rcases other with ⟨-, b, tail, shape, first⟩ | ⟨b, tail, shape, first⟩
      · refine ⟨b, tail, shape, ?_⟩
        rcases first with rfl | digit
        · decide
        · exact ⟨isBlankByte_of_isDigit digit, by rintro rfl; exact absurd digit (by decide)⟩
      · refine ⟨b, tail, shape, ?_⟩
        simp only [List.mem_cons, List.not_mem_nil, or_false] at first
        rcases first with rfl | rfl | rfl | rfl | rfl <;> decide
    have judged : JudgesValue readTextValue (b :: tail) none := fun blank rest blanks _ index =>
      readTextValue_other blanks visible noQuote
    refine ⟨judged.alone, fun s => ?_⟩
    rw [judged.whole]
    constructor
    · nofun
    · rintro ⟨body, shape, -⟩
      exact absurd (List.cons.inj shape).1 noQuote

end Value

end Steering.Json
