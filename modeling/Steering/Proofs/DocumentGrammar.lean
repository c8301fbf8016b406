import Steering.Json.Skip
import Steering.Proofs.TextBytes
/-! The form of documents: the bytes that make up a number, a string or a value, and how values stand in
lists and objects, with blanks between all parts. What a value stands for does not matter here. -/

namespace Steering.Json

/-- Bytes that may stand between the parts of a document. -/
def IsBlank (bytes : List UInt8) : Prop :=
  ∀ b ∈ bytes, Cursor.isBlankByte b = true

/-! ## Numbers -/

/-- Some digits. -/
structure IsDigits (bytes : List UInt8) : Prop where
  some : bytes ≠ []
  all : ∀ b ∈ bytes, isDigit b = true

/-- The digits before the point, of which the first is no zero but a single one. -/
structure IsIntegral (bytes : List UInt8) : Prop extends IsDigits bytes where
  first : bytes.head? = .some 0x30 → bytes.length = 1

/-- A point and the digits behind it, or nothing. -/
inductive IsFraction : List UInt8 → Prop
  | none : IsFraction []
  | digits {bytes : List UInt8} (digits : IsDigits bytes) : IsFraction (0x2E :: bytes)

/-- An exponent with its letter and perhaps a sign, or nothing. -/
inductive IsExponent : List UInt8 → Prop
  | none : IsExponent []
  | digits {letter : UInt8} {sign bytes : List UInt8} (marks : letter = 0x65 ∨ letter = 0x45)
      (signs : sign = [] ∨ sign = [0x2B] ∨ sign = [0x2D]) (digits : IsDigits bytes) :
      IsExponent (letter :: (sign ++ bytes))

/-- A number without its sign. -/
inductive IsMagnitude : List UInt8 → Prop
  | parts {whole fraction exponent : List UInt8} (integral : IsIntegral whole)
      (decimals : IsFraction fraction) (scaled : IsExponent exponent) :
      IsMagnitude (whole ++ (fraction ++ exponent))

inductive IsNumber : List UInt8 → Prop
  | unsigned {bytes : List UInt8} (magnitude : IsMagnitude bytes) : IsNumber bytes
  | negative {bytes : List UInt8} (magnitude : IsMagnitude bytes) : IsNumber (0x2D :: bytes)

/-! ## Strings -/

/-- What stands for one character of a string: the character itself or an escape, by a letter or by four
hexadecimal digits. Whether these name a character on their own does not matter. -/
inductive IsPiece : List UInt8 → Prop
  | plain {c : Char} (notQuote : c ≠ '"') (notSlash : c ≠ '\\') (visible : ¬ c.toNat < 0x20) :
      IsPiece (String.utf8EncodeChar c)
  | letter {b : UInt8} (known : (shortEscape? b).isSome = true) : IsPiece [0x5C, b]
  | digits {a b d e : UInt8} (digits : ∀ x ∈ [a, b, d, e], (hexValue? x).isSome = true) :
      IsPiece [0x5C, 0x75, a, b, d, e]

/-- What stands between the quotes of a string. -/
inductive IsText : List UInt8 → Prop
  | nil : IsText []
  | cons {piece rest : List UInt8} (first : IsPiece piece) (others : IsText rest) :
      IsText (piece ++ rest)

theorem IsText.append {one other : List UInt8} (first : IsText one) (second : IsText other) :
    IsText (one ++ other) := by
  induction first with
  | nil => exact second
  | cons piece _ ih =>
    rw [List.append_assoc]
    exact .cons piece ih

theorem IsPiece.isText {piece : List UInt8} (first : IsPiece piece) : IsText piece :=
  List.append_nil piece ▸ .cons first .nil

/-! ## Values -/

/-- An element of a list, with the blanks around it. -/
structure Element where
  before : List UInt8
  value : List UInt8
  behind : List UInt8

/-- The bytes of an element. -/
def Element.bytes (e : Element) : List UInt8 :=
  e.before ++ (e.value ++ e.behind)

/-- Whether only blanks stand around an element. -/
def Element.Spaced (e : Element) : Prop :=
  IsBlank e.before ∧ IsBlank e.behind

/-- A member of an object, with the blanks around its parts. The key is what stands between its
quotes. -/
structure Member where
  before : List UInt8
  key : List UInt8
  between : List UInt8
  after : List UInt8
  value : List UInt8
  behind : List UInt8

namespace Member

/-- The bytes of a member behind its key. -/
def tail (m : Member) : List UInt8 :=
  m.between ++ 0x3A :: (m.after ++ (m.value ++ m.behind))

/-- The bytes of a member. -/
def bytes (m : Member) : List UInt8 :=
  m.before ++ 0x22 :: (m.key ++ 0x22 :: m.tail)

/-- Whether the key of a member is a string and only blanks stand around its parts. -/
structure Spaced (m : Member) : Prop where
  before : IsBlank m.before
  key : IsText m.key
  between : IsBlank m.between
  after : IsBlank m.after
  behind : IsBlank m.behind

end Member

/-- Some parts with a comma between any two. -/
def separated : List (List UInt8) → List UInt8
  | [] => []
  | part :: parts => part ++ parts.flatMap (0x2C :: ·)

/-- The bytes of a list; there are blanks before its end. -/
def listBytes (elements : List Element) (inner : List UInt8) : List UInt8 :=
  0x5B :: (separated (elements.map Element.bytes) ++ (inner ++ [0x5D]))

/-- The bytes of an object; there are blanks before its end. -/
def objectBytes (members : List Member) (inner : List UInt8) : List UInt8 :=
  0x7B :: (separated (members.map Member.bytes) ++ (inner ++ [0x7D]))

/-- A value of any depth. -/
inductive IsValue : List UInt8 → Prop
  | isNull : IsValue (0x6E :: restOfNull)
  | isTrue : IsValue (0x74 :: restOfTrue)
  | isFalse : IsValue (0x66 :: restOfFalse)
  | number {bytes : List UInt8} (number : IsNumber bytes) : IsValue bytes
  | text {body : List UInt8} (text : IsText body) : IsValue (0x22 :: (body ++ [0x22]))
  | list {elements : List Element} {inner : List UInt8} (blank : IsBlank inner)
      (spaced : ∀ e ∈ elements, e.Spaced) (values : ∀ e ∈ elements, IsValue e.value) :
      IsValue (listBytes elements inner)
  | object {members : List Member} {inner : List UInt8} (blank : IsBlank inner)
      (spaced : ∀ m ∈ members, m.Spaced) (values : ∀ m ∈ members, IsValue m.value) :
      IsValue (objectBytes members inner)

/-- What may follow a value: nothing, or a byte that can not continue it. -/
def Ends (rest : List UInt8) : Prop :=
  ∀ b ∈ rest.head?, b = 0x2C ∨ b = 0x5D ∨ b = 0x7D ∨ Cursor.isBlankByte b = true

/-! ## The front of a text -/

section Front

variable {blank rest : List UInt8} {b : UInt8} {index : Nat}

/-- Blanks are skipped up to the first byte that is none. -/
theorem skipBlanks_append (blanks : IsBlank blank)
    (visible : ∀ b ∈ rest.head?, Cursor.isBlankByte b = false) :
    (⟨blank ++ rest, index⟩ : Cursor).skipBlanks = ⟨rest, index + blank.length⟩ := by
  have none : rest.takeWhile Cursor.isBlankByte = [] := by
    cases rest with
    | nil => rfl
    | cons b rest => exact List.takeWhile_cons_of_neg (by simp [visible b rfl])
  rw [Cursor.skipBlanks, List.takeWhile_append_of_pos blanks, none, List.append_nil, Cursor.skip,
    List.drop_left, List.length_append, Nat.min_eq_left (Nat.le_add_right _ _)]

theorem skipBlanks_visible (blanks : IsBlank blank) (visible : Cursor.isBlankByte b = false) :
    (⟨blank ++ b :: rest, index⟩ : Cursor).skipBlanks = ⟨b :: rest, index + blank.length⟩ :=
  skipBlanks_append blanks fun _ same => Option.some.inj same ▸ visible

theorem isBlank_nil : IsBlank [] := nofun

/-- Behind its key a member has a colon. -/
theorem Member.Spaced.skipBlanks_tail {m : Member} (spaced : m.Spaced) (rest : List UInt8)
    (index : Nat) : (⟨m.tail ++ rest, index⟩ : Cursor).skipBlanks =
      ⟨0x3A :: (m.after ++ (m.value ++ (m.behind ++ rest))), index + m.between.length⟩ := by
  simp only [tail, List.append_assoc, List.cons_append]
  exact skipBlanks_visible spaced.between (by decide)

theorem ends_nil : Ends [] := nofun

theorem ends_cons (ends : b = 0x2C ∨ b = 0x5D ∨ b = 0x7D ∨ Cursor.isBlankByte b = true) :
    Ends (b :: rest) := by
  rintro _ ⟨⟩
  exact ends

theorem ends_append (blanks : IsBlank blank) (ends : Ends rest) : Ends (blank ++ rest) := by
  cases blank with
  | nil => exact ends
  | cons b blank => exact ends_cons (.inr (.inr (.inr (blanks b List.mem_cons_self))))

/-- Behind a part of a list or an object there is another one or the end. -/
theorem ends_others {inner : List UInt8} (blanks : IsBlank inner) (closing : b = 0x5D ∨ b = 0x7D)
    (parts : List (List UInt8)) :
    Ends (parts.flatMap (0x2C :: ·) ++ (inner ++ b :: rest)) := by
  cases parts with
  | nil =>
    rw [List.flatMap_nil, List.nil_append]
    exact ends_append blanks (ends_cons (.inr (closing.imp_right .inl)))
  | cons => exact ends_cons (.inl rfl)

/-- What may follow a value does not continue a number. -/
theorem Ends.not_digit (ends : Ends rest) : ∀ b ∈ rest.head?,
    isDigit b = false ∧ b ≠ 0x2E ∧ b ≠ 0x65 ∧ b ≠ 0x45 := by
  intro b first
  rcases ends b first with rfl | rfl | rfl | blank
  · decide
  · decide
  · decide
  · simp only [Cursor.isBlankByte, Bool.or_eq_true, beq_iff_eq] at blank
    rcases blank with ((rfl | rfl) | rfl) | rfl <;> decide

end Front

theorem IsDigits.exists_cons {bytes : List UInt8} (digits : IsDigits bytes) :
    ∃ b tail, bytes = b :: tail ∧ isDigit b = true := by
  cases bytes with
  | nil => exact absurd rfl digits.some
  | cons b tail => exact ⟨b, tail, rfl, digits.all b List.mem_cons_self⟩

theorem IsMagnitude.exists_cons {bytes : List UInt8} (magnitude : IsMagnitude bytes) :
    ∃ b tail, bytes = b :: tail ∧ isDigit b = true := by
  cases magnitude with
  | parts integral _ _ =>
    obtain ⟨b, tail, rfl, digit⟩ := integral.exists_cons
    exact ⟨b, _, rfl, digit⟩

theorem isBlankByte_of_isDigit {b : UInt8} (digit : isDigit b = true) :
    Cursor.isBlankByte b = false := by
  apply Bool.eq_false_iff.mpr
  intro blank
  simp only [Cursor.isBlankByte, Bool.or_eq_true, beq_iff_eq] at blank
  rcases blank with ((rfl | rfl) | rfl) | rfl <;> exact absurd digit (by decide)

/-- What a value begins with says what kind of value it is. -/
theorem IsValue.cases_first {value : List UInt8} (form : IsValue value) :
    (∃ body, value = 0x22 :: (body ++ [0x22]) ∧ IsText body) ∨
    (IsNumber value ∧ ∃ b tail, value = b :: tail ∧ (b = 0x2D ∨ isDigit b = true)) ∨
    ∃ b tail, value = b :: tail ∧ b ∈ ([0x6E, 0x74, 0x66, 0x5B, 0x7B] : List UInt8) := by
  cases form with
  | isNull => exact .inr (.inr ⟨_, _, rfl, by decide⟩)
  | isTrue => exact .inr (.inr ⟨_, _, rfl, by decide⟩)
  | isFalse => exact .inr (.inr ⟨_, _, rfl, by decide⟩)
  | number number =>
    refine .inr (.inl ⟨number, ?_⟩)
    cases number with
    | unsigned magnitude =>
      obtain ⟨b, tail, shape, digit⟩ := magnitude.exists_cons
      exact ⟨b, tail, shape, .inr digit⟩
    | negative magnitude => exact ⟨_, _, rfl, .inl rfl⟩
  | text text => exact .inl ⟨_, rfl, text⟩
  | list blank spaced values => exact .inr (.inr ⟨_, _, rfl, by decide⟩)
  | object blank spaced values => exact .inr (.inr ⟨_, _, rfl, by decide⟩)

/-- A value does not begin with a blank or with the end of a list or an object. -/
theorem IsValue.exists_cons {value : List UInt8} (form : IsValue value) :
    ∃ b tail, value = b :: tail ∧ Cursor.isBlankByte b = false ∧ b ≠ 0x5D ∧ b ≠ 0x7D := by
  rcases form.cases_first with ⟨body, shape, -⟩ | ⟨-, b, tail, shape, first⟩ | ⟨b, tail, shape, first⟩
  · exact ⟨_, _, shape, by decide, by decide, by decide⟩
  · refine ⟨b, tail, shape, ?_⟩
    rcases first with rfl | digit
    · decide
    · refine ⟨isBlankByte_of_isDigit digit, ?_, ?_⟩ <;> rintro rfl <;> exact absurd digit (by decide)
  · refine ⟨b, tail, shape, ?_⟩
    simp only [List.mem_cons, List.not_mem_nil, or_false] at first
    rcases first with rfl | rfl | rfl | rfl | rfl <;> decide

theorem IsValue.skipBlanks {value blank rest : List UInt8} (form : IsValue value)
    (blanks : IsBlank blank) (index : Nat) :
    (⟨blank ++ (value ++ rest), index⟩ : Cursor).skipBlanks = ⟨value ++ rest, index + blank.length⟩ := by
  obtain ⟨b, tail, rfl, visible, -⟩ := form.exists_cons
  exact skipBlanks_visible blanks visible

end Steering.Json
