import Mathlib.Data.String.Basic
import Steering.Text.Utf8
/-! Texts and their bytes: a text is read back from its bytes, and texts stand in the order in
which their bytes stand. -/

namespace Steering.Text

@[simp] theorem encodeChars_nil : encodeChars [] = [] := rfl

@[simp] theorem encodeChars_cons (c : Char) (cs : List Char) :
    encodeChars (c :: cs) = String.utf8EncodeChar c ++ encodeChars cs := rfl

@[simp] theorem encodeChars_append (cs ds : List Char) :
    encodeChars (cs ++ ds) = encodeChars cs ++ encodeChars ds :=
  List.flatMap_append

@[simp] theorem encode_ofList (cs : List Char) : encode (String.ofList cs) = encodeChars cs := by
  rw [encode, String.toList_ofList]

@[simp] theorem encode_append (s t : String) : encode (s ++ t) = encode s ++ encode t := by
  simp only [encode, String.toList_append, encodeChars_append]

/-- A character below `U+0080` is one byte. -/
theorem utf8EncodeChar_ascii {c : Char} (ascii : c.toNat < 0x80) :
    String.utf8EncodeChar c = [UInt8.ofNat c.toNat] := by
  have small : c.val.toNat ≤ 127 := Nat.le_of_lt_succ ascii
  rw [String.utf8EncodeChar, if_pos small]
  rfl

theorem toNat_ofNat_ascii {c : Char} (ascii : c.toNat < 0x80) :
    (UInt8.ofNat c.toNat).toNat = c.toNat := by
  rw [UInt8.toNat_ofNat']
  exact Nat.mod_eq_of_lt (by omega)

/-- Characters below `U+0080` are one byte each. -/
theorem encodeChars_ascii {cs : List Char} (ascii : ∀ c ∈ cs, c.toNat < 0x80) :
    encodeChars cs = cs.map fun c => UInt8.ofNat c.toNat := by
  induction cs with
  | nil => rfl
  | cons c cs ih =>
    obtain ⟨first, others⟩ := List.forall_mem_cons.mp ascii
    rw [encodeChars_cons, utf8EncodeChar_ascii first, ih others]
    rfl

/-- No byte of any other character is below `0x80`. -/
theorem not_lt_of_mem_utf8EncodeChar {c : Char} (wide : ¬ c.toNat < 0x80) {b : UInt8}
    (member : b ∈ String.utf8EncodeChar c) : ¬ b < 0x80 := by
  have large : ¬ c.val.toNat ≤ 127 := fun small => wide (Nat.lt_succ_of_le small)
  have marked : 0x80 ≤ b.toNat := by
    rw [String.utf8EncodeChar, if_neg large] at member
    split at member
    · simp only [List.mem_cons, List.not_mem_nil, or_false] at member
      rcases member with rfl | rfl <;> rw [UInt8.toNat_ofNat'] <;> omega
    · split at member
      · simp only [List.mem_cons, List.not_mem_nil, or_false] at member
        rcases member with rfl | rfl | rfl <;> rw [UInt8.toNat_ofNat'] <;> omega
      · simp only [List.mem_cons, List.not_mem_nil, or_false] at member
        rcases member with rfl | rfl | rfl | rfl <;> rw [UInt8.toNat_ofNat'] <;> omega
  rw [UInt8.lt_iff_toNat_lt]
  exact Nat.not_lt.mpr marked

/-- The first byte of a character is its code point, or neither of the two is below `0x80`. -/
theorem exists_utf8EncodeChar (c : Char) :
    ∃ b tail, String.utf8EncodeChar c = b :: tail ∧
      (b.toNat = c.toNat ∨ 0x80 ≤ b.toNat ∧ 0x80 ≤ c.toNat) := by
  by_cases ascii : c.toNat < 0x80
  · exact ⟨_, [], utf8EncodeChar_ascii ascii, .inl (toNat_ofNat_ascii ascii)⟩
  · cases shape : String.utf8EncodeChar c with
    | nil => exact absurd shape String.utf8EncodeChar_ne_nil
    | cons b tail =>
      have wide := not_lt_of_mem_utf8EncodeChar ascii (shape ▸ List.mem_cons_self)
      exact ⟨b, tail, rfl, .inr ⟨Nat.not_lt.mp wide, Nat.not_lt.mp ascii⟩⟩

theorem drop_utf8Size (c : Char) (rest : List UInt8) :
    (String.utf8EncodeChar c ++ rest).drop c.utf8Size = rest := by
  rw [← String.length_utf8EncodeChar c, List.drop_left]

/-- The first character of bytes that begin with those of a character. -/
theorem firstChar?_utf8EncodeChar (c : Char) (rest : List UInt8) :
    firstChar? (String.utf8EncodeChar c ++ rest) = some c := by
  by_cases ascii : c.toNat < 0x80
  · have below : UInt8.ofNat c.toNat < 0x80 := by
      rw [UInt8.lt_iff_toNat_lt, toNat_ofNat_ascii ascii]
      exact ascii
    rw [utf8EncodeChar_ascii ascii, List.singleton_append, firstChar?, if_pos below,
      toNat_ofNat_ascii ascii, Char.ofNat_toNat]
  · have whole : (String.utf8EncodeChar c ++ rest).take 4 =
        String.utf8EncodeChar c ++ rest.take (4 - c.utf8Size) := by
      have fits : (String.utf8EncodeChar c).length ≤ 4 := by
        rw [String.length_utf8EncodeChar]
        exact Char.utf8Size_le_four c
      rw [List.take_append, List.take_of_length_le fits, String.length_utf8EncodeChar]
    have read : ((String.utf8EncodeChar c ++ rest).take 4).toByteArray.utf8DecodeChar? 0 =
        some c := by
      rw [whole, List.toByteArray_append]
      exact ByteArray.utf8DecodeChar?_utf8EncodeChar_append
    cases shape : String.utf8EncodeChar c with
    | nil => exact absurd shape String.utf8EncodeChar_ne_nil
    | cons first tail =>
      have above : ¬ first < 0x80 :=
        not_lt_of_mem_utf8EncodeChar ascii (shape ▸ List.mem_cons_self)
      rw [shape] at read
      rw [List.cons_append, firstChar?, if_neg above]
      exact read

theorem decodeLossyChars_encodeChars {fuel : Nat} {cs : List Char}
    (enough : (encodeChars cs).length ≤ fuel) :
    decodeLossyChars fuel (encodeChars cs) = cs := by
  induction cs generalizing fuel with
  | nil => cases fuel <;> rfl
  | cons c cs ih =>
    cases fuel with
    | zero =>
      have empty := List.eq_nil_of_length_eq_zero (Nat.le_zero.mp enough)
      exact absurd (List.append_eq_nil_iff.mp empty).1 String.utf8EncodeChar_ne_nil
    | succ fuel =>
      have rest : (encodeChars cs).length ≤ fuel := by
        have size := c.utf8Size_pos
        rw [encodeChars_cons, List.length_append, String.length_utf8EncodeChar] at enough
        omega
      have first := firstChar?_utf8EncodeChar c (encodeChars cs)
      rw [encodeChars_cons]
      cases shape : String.utf8EncodeChar c ++ encodeChars cs with
      | nil => exact absurd (List.append_eq_nil_iff.mp shape).1 String.utf8EncodeChar_ne_nil
      | cons b bytes =>
        rw [shape] at first
        simp only [decodeLossyChars, first]
        rw [← shape, drop_utf8Size, ih rest]

/-- A text is read back from its bytes. -/
theorem decodeLossy_encode (s : String) : decodeLossy (encode s) = s := by
  rw [decodeLossy, encode, decodeLossyChars_encodeChars (Nat.le_refl _), String.ofList_toList]

/-- Bytes that start a character start with its own bytes. -/
theorem exists_of_firstChar? {bytes : List UInt8} {c : Char} (first : firstChar? bytes = some c) :
    ∃ rest, bytes = String.utf8EncodeChar c ++ rest := by
  cases bytes with
  | nil => cases first
  | cons b rest =>
    rw [firstChar?] at first
    split at first
    · rename_i below
      have small : b.toNat < 0x80 := UInt8.lt_iff_toNat_lt.mp below
      have number : c.toNat = b.toNat := by
        rw [← Option.some.inj first, Char.ofNat, dif_pos (.inl (by omega))]
        rfl
      refine ⟨rest, ?_⟩
      rw [utf8EncodeChar_ascii (number ▸ small), number, UInt8.ofNat_toNat, List.singleton_append]
    · have whole := congrArg (fun bytes : ByteArray => bytes.data.toList)
        (ByteArray.eq_of_utf8DecodeChar?_eq_some first)
      simp only [List.data_toByteArray, ByteArray.data_append, Array.toList_append] at whole
      generalize ((b :: rest).take 4).toByteArray.extract _ _ = tail at whole
      refine ⟨tail.data.toList ++ (b :: rest).drop 4, ?_⟩
      rw [← List.append_assoc, ← whole, List.take_append_drop]

theorem eq_encodeChars_of_decodeLossyChars {fuel : Nat} {bytes : List UInt8} {cs : List Char}
    (enough : bytes.length ≤ fuel) (read : decodeLossyChars fuel bytes = cs)
    (whole : Char.ofNat 0xFFFD ∉ cs) : bytes = encodeChars cs := by
  induction fuel generalizing bytes cs with
  | zero =>
    have empty := List.eq_nil_of_length_eq_zero (Nat.le_zero.mp enough)
    subst empty
    rw [← read]
    rfl
  | succ fuel ih =>
    cases bytes with
    | nil =>
      rw [← read]
      rfl
    | cons b rest =>
      simp only [decodeLossyChars] at read
      cases first : firstChar? (b :: rest) with
      | none =>
        simp only [first] at read
        exact absurd (read ▸ List.mem_cons_self) whole
      | some c =>
        simp only [first] at read
        obtain ⟨tail, split⟩ := exists_of_firstChar? first
        have size := c.utf8Size_pos
        have length := congrArg List.length split
        rw [List.length_append, String.length_utf8EncodeChar] at length
        rw [split, drop_utf8Size] at read
        subst read
        rw [List.mem_cons, not_or] at whole
        rw [split, encodeChars_cons, ← ih (by omega) rfl whole.2]

/-- A text in which nothing broken is marked is read from its own bytes only. -/
theorem eq_encode_of_decodeLossy {bytes : List UInt8} {s : String} (read : decodeLossy bytes = s)
    (whole : Char.ofNat 0xFFFD ∉ s.toList) : bytes = encode s := by
  have chars : decodeLossyChars bytes.length bytes = s.toList := by
    rw [← read, decodeLossy, String.toList_ofList]
  exact eq_encodeChars_of_decodeLossyChars (Nat.le_refl _) chars whole

private theorem ofNat_cons_lt {m n : Nat} (first : m < 256) (second : n < 256)
    (xs ys : List UInt8) :
    UInt8.ofNat m :: xs < UInt8.ofNat n :: ys ↔ m < n ∨ m = n ∧ xs < ys := by
  rw [List.cons_lt_cons_iff, UInt8.lt_iff_toNat_lt, ← UInt8.toNat_inj, UInt8.toNat_ofNat',
    UInt8.toNat_ofNat', Nat.mod_eq_of_lt first, Nat.mod_eq_of_lt second]

/-- Bytes that begin with the smaller one of two characters stand before those that begin with
the other. -/
theorem utf8EncodeChar_append_lt {c d : Char} (less : c < d) (xs ys : List UInt8) :
    String.utf8EncodeChar c ++ xs < String.utf8EncodeChar d ++ ys := by
  have order : c.val.toNat < d.val.toNat := less
  have bound : d.val.toNat < 0x110000 := by
    rcases d.valid with low | ⟨_, high⟩
    · exact Nat.lt_trans low (by decide)
    · exact high
  simp only [String.utf8EncodeChar]
  generalize c.val.toNat = m at order
  generalize d.val.toNat = n at order bound
  -- The digits to base 64 are nested, so that two numbers with the same leading ones are close.
  have nested (k : Nat) : k / 4096 = k / 64 / 64 ∧ k / 262144 = k / 64 / 64 / 64 := by
    simp only [Nat.div_div_eq_div_mul, and_self]
  simp only [nested]
  split_ifs
  all_goals
    simp (disch := omega) only [List.cons_append, List.nil_append, ofNat_cons_lt]
    omega

/-- The smaller one of two texts has the smaller bytes. -/
theorem encode_lt {s t : String} (less : s < t) : encode s < encode t := by
  have chars : s.toList < t.toList := String.lt_iff_toList_lt.mp less
  unfold encode
  generalize s.toList = cs at chars
  generalize t.toList = ds at chars
  induction chars with
  | nil =>
    rename_i d ds
    cases shape : encodeChars (d :: ds) with
    | nil => exact absurd (List.append_eq_nil_iff.mp shape).1 String.utf8EncodeChar_ne_nil
    | cons b bytes => exact List.Lex.nil
  | rel before => exact utf8EncodeChar_append_lt before _ _
  | cons _ ih => exact List.append_left_lt ih

end Steering.Text
