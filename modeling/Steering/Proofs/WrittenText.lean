import Steering.Proofs.SpelledText
/-! Strings in documents are read back as they were written: each character from its own escape, if it
has one. -/

namespace Steering.Json

/-- The bytes of a string between its quotes. -/
def textBytes (cs : List Char) : List UInt8 :=
  Text.encodeChars (cs.flatMap escapeChar)

@[simp] theorem textBytes_nil : textBytes [] = [] := rfl

theorem textBytes_cons (c : Char) (cs : List Char) :
    textBytes (c :: cs) = Text.encodeChars (escapeChar c) ++ textBytes cs := by
  rw [textBytes, List.flatMap_cons, Text.encodeChars_append]
  rfl

theorem encode_writeText (s : String) :
    Text.encode (writeText s) = 0x22 :: (textBytes s.toList ++ [0x22]) := by
  rw [writeText, Text.encode_ofList, List.cons_append, Text.encodeChars_cons,
    Text.encodeChars_append]
  rfl

theorem hexValue?_hexDigit {n : Nat} (digit : n < 16) :
    hexValue? (UInt8.ofNat (hexDigit n).toNat) = some n ∧ (hexDigit n).toNat < 0x80 := by
  have all : ∀ m : Fin 16, hexValue? (UInt8.ofNat (hexDigit m).toNat) = some m.val ∧
      (hexDigit m).toNat < 0x80 := by decide +kernel
  exact all ⟨n, digit⟩

/-- A character is escaped by a letter, by its code point, or not at all. -/
theorem escapeChar_cases (c : Char) :
    (∃ letter : Char, letter.toNat < 0x80 ∧ escapeChar c = ['\\', letter] ∧
      shortEscape? (UInt8.ofNat letter.toNat) = some c) ∨
    (c.toNat < 0x20 ∧
      escapeChar c = ['\\', 'u', '0', '0', hexDigit (c.toNat / 16), hexDigit (c.toNat % 16)]) ∨
    (escapeChar c = [c] ∧ c ≠ '"' ∧ c ≠ '\\' ∧ ¬ c.toNat < 0x20) := by
  unfold escapeChar
  split
  · rename_i own
    rcases own with rfl | rfl
    · exact .inl ⟨_, by decide, rfl, by decide⟩
    · exact .inl ⟨_, by decide, rfl, by decide⟩
  · rename_i plain
    rw [not_or] at plain
    split
    · rename_i same
      exact .inl ⟨_, by decide, rfl, same ▸ by decide⟩
    split
    · rename_i same
      exact .inl ⟨_, by decide, rfl, same ▸ by decide⟩
    split
    · rename_i same
      exact .inl ⟨_, by decide, rfl, same ▸ by decide⟩
    split
    · rename_i same
      exact .inl ⟨_, by decide, rfl, same ▸ by decide⟩
    split
    · rename_i same
      exact .inl ⟨_, by decide, rfl, same ▸ by decide⟩
    split
    · rename_i control
      exact .inr (.inl ⟨control, rfl⟩)
    · rename_i visible
      exact .inr (.inr ⟨rfl, plain.1, plain.2, visible⟩)

/-- Four digits spell a small number. -/
theorem hexUnit?_hexDigits {n : Nat} (small : n < 0x100) :
    hexUnit? 0x30 0x30 (UInt8.ofNat (hexDigit (n / 16)).toNat)
      (UInt8.ofNat (hexDigit (n % 16)).toNat) = some n := by
  obtain ⟨high, -⟩ := @hexValue?_hexDigit (n / 16) (by omega)
  obtain ⟨low, -⟩ := @hexValue?_hexDigit (n % 16) (by omega)
  have zero : hexValue? 0x30 = some 0 := by decide
  have number : ((0 * 16 + 0) * 16 + n / 16) * 16 + n % 16 = n := by omega
  simp only [hexUnit?, zero, high, low, bind, Option.bind_some, number, pure]

/-- What is written for a character spells it. -/
theorem spells_char (c : Char) : SpellsChar (Text.encodeChars (escapeChar c)) c := by
  rcases escapeChar_cases c with
    ⟨letter, ascii, escaped, escapes⟩ | ⟨control, escaped⟩ | ⟨plain, notQuote, notSlash, visible⟩
  · rw [escaped, Text.encodeChars_cons, Text.encodeChars_cons, Text.utf8EncodeChar_ascii ascii]
    exact .letter escapes
  · obtain ⟨-, high⟩ := @hexValue?_hexDigit (c.toNat / 16) (by omega)
    obtain ⟨-, low⟩ := @hexValue?_hexDigit (c.toNat % 16) (by omega)
    have spells := SpellsChar.unit (hexUnit?_hexDigits (Nat.lt_trans control (by decide)))
      (.inl (Nat.lt_trans control (by decide)))
    rw [Char.ofNat_toNat] at spells
    rw [escaped]
    simp only [Text.encodeChars_cons, Text.utf8EncodeChar_ascii high, Text.utf8EncodeChar_ascii low]
    exact spells
  · rw [plain, Text.encodeChars_cons, Text.encodeChars_nil, List.append_nil]
    exact .plain notQuote notSlash visible

/-- What is written for a string spells its characters. -/
theorem spells_text (cs : List Char) : SpellsText (textBytes cs) cs := by
  induction cs with
  | nil => exact .nil
  | cons c cs ih =>
    rw [textBytes_cons]
    exact .cons (spells_char c) ih

/-- A string is read from what is written for it, once its opening quote has been. -/
theorem reads_text {rest : List UInt8} (s : String) :
    Reads readText (textBytes s.toList ++ [0x22]) rest s := by
  have reads := @SpellsText.reads rest _ _ (spells_text s.toList)
  rwa [String.ofList_toList] at reads

end Steering.Json
