import Steering.Proofs.DocumentGrammar
/-! What the strings of documents stand for: characters as they are, escapes by a letter, by a code point
or by a pair of surrogates. A string is read exactly if it spells one, and then to its closing quote. -/

namespace Steering.Json

/-- A reader takes some bytes for a value and stops at what follows them. -/
def Reads {α : Type} (read : Reader α) (written rest : List UInt8) (value : α) : Prop :=
  ∀ index, ∃ next, read ⟨written ++ rest, index⟩ = .ok (value, ⟨rest, next⟩)

/-! ## Spelled characters -/

/-- The number that four hexadecimal digits stand for. -/
def hexUnit? (a b d e : UInt8) : Option Nat := do
  let a ← hexValue? a
  let b ← hexValue? b
  let d ← hexValue? d
  let e ← hexValue? e
  return ((a * 16 + b) * 16 + d) * 16 + e

/-- What spells a character of a string. A surrogate spells none without the other one of its pair. -/
inductive SpellsChar : List UInt8 → Char → Prop
  | plain {c : Char} (notQuote : c ≠ '"') (notSlash : c ≠ '\\') (visible : ¬ c.toNat < 0x20) :
      SpellsChar (String.utf8EncodeChar c) c
  | letter {b : UInt8} {c : Char} (known : shortEscape? b = some c) : SpellsChar [0x5C, b] c
  | unit {a b d e : UInt8} {unit : Nat} (digits : hexUnit? a b d e = some unit)
      (alone : unit < 0xD800 ∨ 0xDFFF < unit) :
      SpellsChar [0x5C, 0x75, a, b, d, e] (Char.ofNat unit)
  | pair {a b d e a' b' d' e' : UInt8} {high low : Nat} (first : hexUnit? a b d e = some high)
      (second : hexUnit? a' b' d' e' = some low) (leading : 0xD800 ≤ high ∧ high < 0xDC00)
      (trailing : 0xDC00 ≤ low ∧ low ≤ 0xDFFF) :
      SpellsChar ([0x5C, 0x75, a, b, d, e] ++ [0x5C, 0x75, a', b', d', e'])
        (Char.ofNat (0x10000 + (high - 0xD800) * 0x400 + (low - 0xDC00)))

/-- What spells some characters, one after another. -/
inductive SpellsText : List UInt8 → List Char → Prop
  | nil : SpellsText [] []
  | cons {piece body : List UInt8} {c : Char} {cs : List Char} (first : SpellsChar piece c)
      (others : SpellsText body cs) : SpellsText (piece ++ body) (c :: cs)

theorem isSome_of_hexUnit? {a b d e : UInt8} {unit : Nat} (digits : hexUnit? a b d e = some unit) :
    ∀ x ∈ [a, b, d, e], (hexValue? x).isSome = true := by
  simp only [hexUnit?, bind, Option.bind_eq_some_iff] at digits
  obtain ⟨one, first, two, second, three, third, four, fourth, -⟩ := digits
  simp [first, second, third, fourth]

theorem SpellsChar.isText {piece : List UInt8} {c : Char} (spells : SpellsChar piece c) :
    IsText piece := by
  cases spells with
  | plain notQuote notSlash visible => exact (IsPiece.plain notQuote notSlash visible).isText
  | letter known => exact (IsPiece.letter (Option.isSome_of_eq_some known)).isText
  | unit digits alone => exact (IsPiece.digits (isSome_of_hexUnit? digits)).isText
  | pair first second leading trailing =>
    exact (IsPiece.digits (isSome_of_hexUnit? first)).isText.append
      (IsPiece.digits (isSome_of_hexUnit? second)).isText

/-- What spells characters has the form of a string. -/
theorem SpellsText.isText {body : List UInt8} {cs : List Char} (spells : SpellsText body cs) :
    IsText body := by
  induction spells with
  | nil => exact .nil
  | cons first _ ih => exact first.isText.append ih

/-! ## Spelled characters are read -/

section Read

variable {rest body : List UInt8} {c : Char} {cs : List Char}

/-- The first byte of a character that is not escaped means nothing in a string. -/
theorem head_plain (notQuote : c ≠ '"') (notSlash : c ≠ '\\') (visible : ¬ c.toNat < 0x20) :
    ∃ b tail, String.utf8EncodeChar c = b :: tail ∧ b ≠ 0x22 ∧ b ≠ 0x5C ∧ ¬ b < 0x20 := by
  obtain ⟨b, tail, shape, value⟩ := Text.exists_utf8EncodeChar c
  have quote : c.toNat ≠ 0x22 := fun same => notQuote (Char.toNat_inj.mp same)
  have slash : c.toNat ≠ 0x5C := fun same => notSlash (Char.toNat_inj.mp same)
  refine ⟨b, tail, shape, ?_, ?_, ?_⟩
  · simp only [ne_eq, ← UInt8.toNat_inj, UInt8.reduceToNat]
    omega
  · simp only [ne_eq, ← UInt8.toNat_inj, UInt8.reduceToNat]
    omega
  · simp only [UInt8.lt_iff_toNat_lt, UInt8.reduceToNat]
    omega

/-- What spells a character does not begin like the end of a string. -/
theorem SpellsChar.exists_cons {piece : List UInt8} (spells : SpellsChar piece c) :
    ∃ b tail, piece = b :: tail ∧ b ≠ 0x22 := by
  cases spells with
  | plain notQuote notSlash visible =>
    obtain ⟨b, tail, shape, other, -⟩ := head_plain notQuote notSlash visible
    exact ⟨b, tail, shape, other⟩
  | letter => exact ⟨_, _, rfl, by decide⟩
  | unit => exact ⟨_, _, rfl, by decide⟩
  | pair => exact ⟨_, _, rfl, by decide⟩

theorem readUnit_of_hexUnit? {a b d e : UInt8} {unit : Nat} (digits : hexUnit? a b d e = some unit)
    (rest : List UInt8) (index : Nat) :
    readUnit ⟨a :: b :: d :: e :: rest, index⟩ = .ok (unit, ⟨rest, index + 4⟩) := by
  simp only [hexUnit?, bind, Option.bind_eq_some_iff, pure, Option.some.injEq] at digits
  obtain ⟨one, first, two, second, three, third, four, fourth, rfl⟩ := digits
  have length : min 4 (rest.length + 1 + 1 + 1 + 1) = 4 := by omega
  simp only [readUnit, first, second, third, fourth, Cursor.skip, List.drop_succ_cons,
    List.drop_zero, List.length_cons, length]

theorem SpellsChar.reads {piece : List UInt8} (spells : SpellsChar piece c) :
    Reads readChar piece rest c := by
  intro index
  cases spells with
  | plain notQuote notSlash visible =>
    obtain ⟨b, tail, shape, -, noEscape, noControl⟩ := head_plain notQuote notSlash visible
    have first := Text.firstChar?_utf8EncodeChar c rest
    have next : (String.utf8EncodeChar c ++ rest).head? = some b := by
      rw [shape]
      rfl
    simp only [readChar, Cursor.peek?, next, noEscape, noControl, if_false, first, Cursor.skip,
      Text.drop_utf8Size]
    exact ⟨_, rfl⟩
  | @letter b _ known =>
    refine ⟨index + 1 + 1, ?_⟩
    change readEscape ⟨b :: rest, index + 1⟩ = _
    simp only [readEscape, Cursor.peek?, List.head?_cons, known, Cursor.advance]
  | @unit a b d e unit digits alone =>
    refine ⟨index + 2 + 4, ?_⟩
    have notLow : ¬ (0xDC00 ≤ unit ∧ unit ≤ 0xDFFF) := by omega
    have notHigh : unit < 0xD800 ∨ 0xDBFF < unit := by omega
    change readCodePoint ⟨a :: b :: d :: e :: rest, index + 2⟩ = _
    simp only [readCodePoint, readUnit_of_hexUnit? digits, bind, Except.bind, notLow, notHigh,
      if_true, if_false]
  | @pair a b d e a' b' d' e' high low first second leading trailing =>
    refine ⟨index + 2 + 4 + 1 + 1 + 4, ?_⟩
    have notLow : ¬ (0xDC00 ≤ high ∧ high ≤ 0xDFFF) := by omega
    have isHigh : ¬ (high < 0xD800 ∨ 0xDBFF < high) := by omega
    have isLow : ¬ (low < 0xDC00 ∨ 0xDFFF < low) := by omega
    change readCodePoint
      ⟨a :: b :: d :: e :: 0x5C :: 0x75 :: a' :: b' :: d' :: e' :: rest, index + 2⟩ = _
    simp only [readCodePoint, readUnit_of_hexUnit? first, readUnit_of_hexUnit? second, bind,
      Except.bind, notLow, isHigh, isLow, if_false, readPairByte, Cursor.peek?, List.head?_cons,
      if_true, Cursor.advance]

theorem SpellsText.length_le (spells : SpellsText body cs) : cs.length ≤ body.length := by
  induction spells with
  | nil => exact Nat.le_refl _
  | cons first _ ih =>
    obtain ⟨b, tail, rfl, -⟩ := first.exists_cons
    rw [List.length_append, List.length_cons, List.length_cons]
    omega

/-- The characters of a string are read one after another up to its closing quote. -/
theorem SpellsText.readsFrom (spells : SpellsText body cs) {fuel : Nat} {read : List Char}
    (enough : cs.length < fuel) :
    Reads (readCharsFrom fuel read) (body ++ [0x22]) rest (String.ofList (read.reverse ++ cs)) := by
  intro index
  induction spells generalizing fuel read index with
  | nil =>
    obtain ⟨fuel, rfl⟩ := Nat.exists_eq_add_of_lt enough
    refine ⟨index + 1, ?_⟩
    rw [List.append_nil]
    rfl
  | @cons piece body c cs first others ih =>
    obtain ⟨fuel, rfl⟩ : ∃ less, fuel = less + 1 := ⟨fuel - 1, by omega⟩
    obtain ⟨b, tail, shape, other⟩ := first.exists_cons
    obtain ⟨next, one⟩ := @SpellsChar.reads (body ++ [0x22] ++ rest) _ _ first index
    obtain ⟨last, all⟩ := @ih fuel (c :: read) (Nat.lt_of_succ_lt_succ enough) next
    have head : (piece ++ (body ++ [0x22] ++ rest)).head? = some b := by
      rw [shape]
      rfl
    have going : ¬ some b = some (0x22 : UInt8) := fun same => other (Option.some.inj same)
    refine ⟨last, ?_⟩
    rw [List.append_assoc, List.append_assoc, ← List.append_assoc body, readCharsFrom, Cursor.peek?,
      head, if_neg going, one]
    simpa using all

/-- A string is read from what spells it, once its opening quote has been. -/
theorem SpellsText.reads (spells : SpellsText body cs) :
    Reads readText (body ++ [0x22]) rest (String.ofList cs) := by
  intro index
  have enough : cs.length < (body ++ [0x22] ++ rest).length + 1 := by
    have length := spells.length_le
    simp only [List.length_append]
    omega
  exact spells.readsFrom enough index

end Read

/-! ## What is read is spelled -/

section Sound

variable {bytes : List UInt8} {index : Nat} {c : Cursor}

theorem exists_of_readUnit {unit : Nat} (read : readUnit ⟨bytes, index⟩ = .ok (unit, c)) :
    ∃ a b d e, bytes = a :: b :: d :: e :: c.rest ∧ hexUnit? a b d e = some unit := by
  rw [readUnit] at read
  split at read
  · rename_i a b d e rest shape
    split at read
    · rename_i one two three four first second third fourth
      obtain rfl : bytes = a :: b :: d :: e :: rest := shape
      cases read
      refine ⟨a, b, d, e, rfl, ?_⟩
      rw [hexUnit?, first, second, third, fourth]
      rfl
    · cases read
  · cases read

theorem exists_of_readPairByte {expected : UInt8}
    (read : readPairByte expected ⟨bytes, index⟩ = .ok c) : bytes = expected :: c.rest := by
  rw [readPairByte] at read
  cases bytes with
  | nil => cases read
  | cons b rest =>
    simp only [Cursor.peek?, List.head?_cons] at read
    split at read
    · rename_i same
      cases read
      rw [same]
      rfl
    · cases read

variable {x : Char}

theorem exists_of_readCodePoint (read : readCodePoint ⟨bytes, index⟩ = .ok (x, c)) :
    ∃ piece, 0x5C :: 0x75 :: bytes = piece ++ c.rest ∧ SpellsChar piece x := by
  simp only [readCodePoint, bind, Except.bind] at read
  split at read
  · cases read
  · rename_i one first
    obtain ⟨high, behind⟩ := one
    obtain ⟨a, b, d, e, rfl, digits⟩ := exists_of_readUnit first
    split at read
    · cases read
    · rename_i notLow
      split at read
      · rename_i notHigh
        cases read
        exact ⟨[0x5C, 0x75, a, b, d, e], rfl, .unit digits (by omega)⟩
      · rename_i isHigh
        split at read
        · cases read
        · rename_i slash marked
          have shape := exists_of_readPairByte marked
          split at read
          · cases read
          · rename_i mark lettered
            have shape' := exists_of_readPairByte lettered
            split at read
            · cases read
            · rename_i two second
              obtain ⟨low, last⟩ := two
              obtain ⟨a', b', d', e', shape'', digits'⟩ := exists_of_readUnit second
              split at read
              · cases read
              · rename_i isLow
                simp only [Except.ok.injEq, Prod.mk.injEq] at read
                obtain ⟨rfl, rfl⟩ := read
                refine ⟨_, ?_, .pair digits digits' (by omega) (by omega)⟩
                rw [shape, shape', shape'']
                rfl

theorem exists_of_readEscape (read : readEscape ⟨bytes, index⟩ = .ok (x, c)) :
    ∃ piece, 0x5C :: bytes = piece ++ c.rest ∧ SpellsChar piece x := by
  cases bytes with
  | nil => cases read
  | cons letter rest =>
    simp only [readEscape, Cursor.peek?, List.head?_cons, Cursor.advance] at read
    split at read
    · rename_i known
      cases read
      exact ⟨[0x5C, letter], rfl, .letter known⟩
    · split at read
      · rename_i mark
        rw [mark]
        exact exists_of_readCodePoint read
      · cases read

/-- A character that is taken as it is spells itself, if its first byte is one that may. -/
theorem spellsChar_of_firstChar? {b : UInt8} {rest : List UInt8}
    (whole : Text.firstChar? (b :: rest) = some x) (notQuote : b ≠ 0x22) (notSlash : b ≠ 0x5C)
    (visible : ¬ b < 0x20) : SpellsChar (String.utf8EncodeChar x) x := by
  obtain ⟨tail, shape⟩ := Text.exists_of_firstChar? whole
  obtain ⟨own, others, front, value⟩ := Text.exists_utf8EncodeChar x
  obtain rfl : b = own := by
    rw [front, List.cons_append] at shape
    exact (List.cons.inj shape).1
  simp only [← UInt8.toNat_inj, UInt8.lt_iff_toNat_lt, UInt8.reduceToNat, ne_eq]
    at notQuote notSlash visible
  refine .plain ?_ ?_ ?_
  · rintro rfl
    have code : ('"' : Char).toNat = 0x22 := rfl
    omega
  · rintro rfl
    have code : ('\\' : Char).toNat = 0x5C := rfl
    omega
  · omega

theorem exists_of_readChar (read : readChar ⟨bytes, index⟩ = .ok (x, c)) (first : bytes.head? ≠ some 0x22) :
    ∃ piece, bytes = piece ++ c.rest ∧ SpellsChar piece x := by
  cases bytes with
  | nil => cases read
  | cons b rest =>
    simp only [readChar, Cursor.peek?, List.head?_cons] at read
    split at read
    · rename_i slash
      rw [slash]
      exact exists_of_readEscape read
    · rename_i notSlash
      split at read
      · cases read
      · rename_i visible
        split at read
        · rename_i whole
          cases read
          have notQuote : b ≠ 0x22 := fun same => first (congrArg some same)
          refine ⟨_, ?_, spellsChar_of_firstChar? whole notQuote notSlash visible⟩
          obtain ⟨tail, shape⟩ := Text.exists_of_firstChar? whole
          simp only [Cursor.skip]
          rw [shape, Text.drop_utf8Size]
        · cases read

/-- What is read as characters up to a closing quote spells them. -/
theorem exists_of_readCharsFrom {fuel : Nat} {read : List Char} {s : String}
    (given : readCharsFrom fuel read ⟨bytes, index⟩ = .ok (s, c)) :
    ∃ body cs, bytes = body ++ 0x22 :: c.rest ∧ SpellsText body cs ∧
      s = String.ofList (read.reverse ++ cs) := by
  induction fuel generalizing read bytes index with
  | zero => cases given
  | succ fuel ih =>
    rw [readCharsFrom] at given
    split at given
    · rename_i quote
      cases bytes with
      | nil => cases quote
      | cons b rest =>
        obtain rfl : b = 0x22 := Option.some.inj quote
        cases given
        exact ⟨[], [], rfl, .nil, by rw [List.append_nil]⟩
    · rename_i noQuote
      split at given
      · rename_i x next one
        obtain ⟨piece, rfl, spells⟩ := exists_of_readChar one noQuote
        obtain ⟨body, cs, shape, others, its⟩ := @ih next.rest next.index _ given
        refine ⟨piece ++ body, x :: cs, ?_, .cons spells others, ?_⟩
        · rw [shape, List.append_assoc]
        · rw [its, List.reverse_cons, List.append_assoc, List.singleton_append]
      · cases given

/-- A string that is read is spelled up to its closing quote. -/
theorem exists_of_readText {s : String} (given : readText ⟨bytes, index⟩ = .ok (s, c)) :
    ∃ body, bytes = body ++ 0x22 :: c.rest ∧ SpellsText body s.toList := by
  obtain ⟨body, cs, shape, spells, its⟩ := exists_of_readCharsFrom given
  refine ⟨body, shape, ?_⟩
  rw [its, List.reverse_nil, List.nil_append, String.toList_ofList]
  exact spells

end Sound

end Steering.Json
