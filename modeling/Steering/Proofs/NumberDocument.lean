import Mathlib.Data.List.TakeWhile
import Steering.Dashboard.Routes
import Steering.Proofs.NumberText
import Steering.Proofs.WrittenDocument
/-! Objects of numbers. Read key by key, each number as the double nearest to it, such a document
gives back exactly the keys and the doubles that it was written from, in their order. -/

namespace Steering.Json

/-! ## Reading objects of numbers -/

/-- Whether a character may stand in a number. -/
def isNumberChar (c : Char) : Bool :=
  c.isDigit || ['+', '-', '.', 'E', 'e'].contains c

/-- The character that a byte is, if it is one alone. -/
def byteChar (b : UInt8) : Char :=
  Char.ofNat b.toNat

/-- What follows blanks. -/
def skipBlanks (bytes : List UInt8) : List UInt8 :=
  bytes.dropWhile Cursor.isBlankByte

/-- Reads a number up to the first byte that can not stand in one. -/
def takeNumber? (bytes : List UInt8) : Option (Binary64 × List UInt8) :=
  (nearestDouble? ((bytes.takeWhile fun b => isNumberChar (byteChar b)).map byteChar)).map
    (·, bytes.dropWhile fun b => isNumberChar (byteChar b))

/-- Reads a key and its number. -/
def takeMember? (bytes : List UInt8) : Option ((String × Binary64) × List UInt8) :=
  match Value.readKey ⟨bytes, 0⟩ with
  | .ok (key, c) => (takeNumber? (skipBlanks c.rest)).map fun (x, rest) =>
      ((key, x), skipBlanks rest)
  | .error _ => none

/-- Reads members up to the end of their object. -/
def takeMembers? : Nat → List UInt8 → Option (List (String × Binary64) × List UInt8)
  | 0, _ => none
  | fuel + 1, bytes =>
    match takeMember? bytes with
    | some (member, 0x2C :: rest) =>
      (takeMembers? fuel rest).map fun (members, rest) => (member :: members, rest)
    | some (member, 0x7D :: rest) => some ([member], rest)
    | _ => none

/-- The members of the object of numbers that a document is, in their order. -/
def numberMembers? (document : List UInt8) : Option (List (String × Binary64)) :=
  match skipBlanks document with
  | 0x7B :: rest =>
    match skipBlanks rest with
    | 0x7D :: rest => if skipBlanks rest = [] then some [] else none
    | rest =>
      match takeMembers? document.length rest with
      | some (members, rest) => if skipBlanks rest = [] then some members else none
      | none => none
  | _ => none

/-! ## Characters of numbers -/

theorem isNumberChar_of_isDigit {c : Char} (digit : c.isDigit = true) : isNumberChar c = true := by
  rw [isNumberChar, digit, Bool.true_or]

theorem isNumberChar_of_exponentDigits? {cs : List Char} {f : Nat → Int} {exponent : Int}
    (read : (exponentDigits? cs).map f = some exponent) : ∀ c ∈ cs, isNumberChar c = true := by
  obtain ⟨n, digits, -⟩ := Option.map_eq_some_iff.mp read
  unfold exponentDigits? at digits
  split_ifs at digits with all
  exact fun c member => isNumberChar_of_isDigit (List.all_eq_true.mp all.2 c member)

theorem isNumberChar_of_exponent? {cs : List Char} {exponent : Int}
    (read : exponent? cs = some exponent) : ∀ c ∈ cs, isNumberChar c = true := by
  cases cs with
  | nil => exact List.forall_mem_nil _
  | cons mark cs =>
    simp only [exponent?] at read
    split_ifs at read with marks
    have first : isNumberChar mark = true := by
      rcases marks with rfl | rfl <;> decide
    refine List.forall_mem_cons.mpr ⟨first, ?_⟩
    split at read
    · exact List.forall_mem_cons.mpr ⟨by decide, isNumberChar_of_exponentDigits? read⟩
    · exact List.forall_mem_cons.mpr ⟨by decide, isNumberChar_of_exponentDigits? read⟩
    · exact isNumberChar_of_exponentDigits? read

/-- Characters are those of a number if those after its leading digits are. -/
theorem isNumberChar_of_dropWhile {cs : List Char}
    (rest : ∀ c ∈ cs.dropWhile Char.isDigit, isNumberChar c = true) :
    ∀ c ∈ cs, isNumberChar c = true := by
  intro c member
  rw [← @List.takeWhile_append_dropWhile _ Char.isDigit cs] at member
  rcases List.mem_append.mp member with digit | later
  · exact isNumberChar_of_isDigit (List.mem_takeWhile_imp digit)
  · exact rest c later

theorem isNumberChar_of_numeral? {cs : List Char} {n : Numeral} (read : numeral? cs = some n) :
    ∀ c ∈ cs, isNumberChar c = true := by
  have unsigned : ∀ c ∈ (splitSign cs).2, isNumberChar c = true := by
    apply isNumberChar_of_dropWhile
    simp only [numeral?] at read
    split_ifs at read with form
    split at read
    · rename_i rest shape
      split_ifs at read with some
      obtain ⟨exponent, written, -⟩ := Option.map_eq_some_iff.mp read
      rw [shape]
      exact List.forall_mem_cons.mpr
        ⟨by decide, isNumberChar_of_dropWhile (isNumberChar_of_exponent? written)⟩
    · obtain ⟨exponent, written, -⟩ := Option.map_eq_some_iff.mp read
      exact isNumberChar_of_exponent? written
  unfold splitSign at unsigned
  split at unsigned
  · exact List.forall_mem_cons.mpr ⟨by decide, unsigned⟩
  · exact unsigned

/-- A character of a number is a byte. -/
theorem ascii_of_isNumberChar {c : Char} (plain : isNumberChar c = true) : c.toNat < 0x80 := by
  rcases Bool.or_eq_true_iff.mp plain with digit | other
  · have most : c.val ≤ '9'.val := of_decide_eq_true (Bool.and_eq_true_iff.mp digit).2
    exact Nat.lt_of_le_of_lt (UInt32.le_iff_toNat_le.mp most) (by decide)
  · simp only [List.contains_eq_mem, decide_eq_true_eq, List.mem_cons, List.not_mem_nil,
      or_false] at other
    rcases other with rfl | rfl | rfl | rfl | rfl <;> decide

theorem byteChar_ofNat {c : Char} (ascii : c.toNat < 0x80) :
    byteChar (UInt8.ofNat c.toNat) = c := by
  rw [byteChar, Text.toNat_ofNat_ascii ascii, Char.ofNat_toNat]

theorem not_isBlankByte {b : UInt8} (plain : isNumberChar (byteChar b) = true) :
    Cursor.isBlankByte b = false := by
  apply Bool.eq_false_iff.mpr
  intro blank
  simp only [Cursor.isBlankByte, Bool.or_eq_true, beq_iff_eq] at blank
  rcases blank with ((rfl | rfl) | rfl) | rfl <;> exact absurd plain (by decide)

/-! ## What is written is read -/

section Written

variable {rest : List UInt8} {x : Binary64}

theorem skipBlanks_cons {b : UInt8} (visible : Cursor.isBlankByte b = false) :
    skipBlanks (b :: rest) = b :: rest := by
  simp [skipBlanks, visible]

section Number

variable (finite : x.isFinite = true)
include finite

/-- A number is written in characters that may stand in one. -/
theorem isNumberChar_of_write :
    ∀ c ∈ (x.write Binary64.documentNotation).toList, isNumberChar c = true := by
  obtain ⟨n, read, -⟩ := Option.map_eq_some_iff.mp (nearestDouble?_write finite)
  exact isNumberChar_of_numeral? read

theorem encode_write : Text.encode (x.write Binary64.documentNotation) =
    (x.write Binary64.documentNotation).toList.map fun c => UInt8.ofNat c.toNat :=
  Text.encodeChars_ascii fun c member =>
    ascii_of_isNumberChar (isNumberChar_of_write finite c member)

/-- A number is read where a byte follows that can not stand in one. -/
theorem takeNumber?_write (ends : ∀ b ∈ rest.head?, isNumberChar (byteChar b) = false) :
    takeNumber? (Text.encode (x.write Binary64.documentNotation) ++ rest) = some (x, rest) := by
  have plain := isNumberChar_of_write finite
  have same : ∀ c ∈ (x.write Binary64.documentNotation).toList,
      byteChar (UInt8.ofNat c.toNat) = c :=
    fun c member => byteChar_ofNat (ascii_of_isNumberChar (plain c member))
  have back : ((x.write Binary64.documentNotation).toList.map fun c => UInt8.ofNat c.toNat).map
      byteChar = (x.write Binary64.documentNotation).toList := by
    rw [List.map_map]
    exact (List.map_congr_left same).trans (List.map_id _)
  have all : ∀ b ∈ (x.write Binary64.documentNotation).toList.map fun c => UInt8.ofNat c.toNat,
      isNumberChar (byteChar b) = true := by
    intro b member
    obtain ⟨c, inside, rfl⟩ := List.mem_map.mp member
    rw [same c inside]
    exact plain c inside
  obtain ⟨taken, left⟩ := span_append all ends
  rw [takeNumber?, encode_write finite, taken, left, back, nearestDouble?_write finite,
    Option.map_some]

/-- A number does not begin with a blank. -/
theorem skipBlanks_write : skipBlanks (Text.encode (x.write Binary64.documentNotation) ++ rest) =
    Text.encode (x.write Binary64.documentNotation) ++ rest := by
  have plain := isNumberChar_of_write finite
  have read := nearestDouble?_write finite
  rw [encode_write finite]
  cases shape : (x.write Binary64.documentNotation).toList with
  | nil =>
    rw [shape] at read
    cases read
  | cons c cs =>
    have first : isNumberChar c = true := plain c (shape ▸ List.mem_cons_self)
    have same := byteChar_ofNat (ascii_of_isNumberChar first)
    exact skipBlanks_cons (not_isBlankByte (same.symm ▸ first))

theorem bytes_double :
    (Value.double x).bytes = Text.encode (x.write Binary64.documentNotation) := by
  rw [Value.double, if_pos finite, Value.bytes, Value.write, Number.write]

/-- A member is read where a comma or the end of its object follows. -/
theorem takeMember?_bytes (key : String) {b : UInt8} (ends : b = 0x2C ∨ b = 0x7D) :
    takeMember? (Value.memberBytes (key, Value.double x) ++ b :: rest) =
      some ((key, x), b :: rest) := by
  obtain ⟨next, read⟩ := @Value.reads_key (Text.encode (x.write Binary64.documentNotation) ++
    b :: rest) key 0
  have stops : isNumberChar (byteChar b) = false ∧ Cursor.isBlankByte b = false := by
    rcases ends with rfl | rfl <;> decide
  have ends : ∀ other ∈ (b :: rest).head?, isNumberChar (byteChar other) = false := by
    intro other same
    cases same
    exact stops.1
  rw [Value.memberBytes, bytes_double finite, List.append_assoc, takeMember?, read]
  simp only [skipBlanks_write finite, takeNumber?_write finite ends, Option.map_some,
    skipBlanks_cons stops.2]

end Number

/-- The members of an object of finite numbers. -/
def doubleMembers (view : List (String × Binary64)) : List (String × Value) :=
  view.map fun (key, x) => (key, Value.double x)

/-- The members of an object are read up to its end. -/
theorem takeMembers?_bytes {member : String × Binary64} {members : List (String × Binary64)}
    (finite : ∀ entry ∈ member :: members, entry.2.isFinite = true) {fuel : Nat}
    (enough : members.length < fuel) :
    takeMembers? fuel (Value.memberBytes (member.1, Value.double member.2) ++
      (Value.membersBytes (doubleMembers members) ++ 0x7D :: rest)) =
        some (member :: members, rest) := by
  induction members generalizing member fuel with
  | nil =>
    obtain ⟨fuel, rfl⟩ := Nat.exists_eq_add_of_lt enough
    obtain ⟨own, -⟩ := List.forall_mem_cons.mp finite
    have one := @takeMember?_bytes rest _ own member.1 _ (.inr rfl)
    have empty : Value.membersBytes (doubleMembers []) = [] := rfl
    rw [empty, List.nil_append, takeMembers?, one]
    rfl
  | cons second members ih =>
    obtain ⟨fuel, rfl⟩ : ∃ less, fuel = less + 1 := ⟨fuel - 1, by omega⟩
    obtain ⟨own, others⟩ := List.forall_mem_cons.mp finite
    have one := @takeMember?_bytes (Value.memberBytes (second.1, Value.double second.2) ++
      (Value.membersBytes (doubleMembers members) ++ 0x7D :: rest)) _ own member.1 _ (.inl rfl)
    have split : Value.membersBytes (doubleMembers (second :: members)) ++ 0x7D :: rest =
        0x2C :: (Value.memberBytes (second.1, Value.double second.2) ++
          (Value.membersBytes (doubleMembers members) ++ 0x7D :: rest)) := by
      rw [doubleMembers, List.map_cons, Value.membersBytes, List.flatMap_cons, List.cons_append,
        List.cons_append, List.append_assoc]
      rfl
    rw [split, takeMembers?, one]
    simp only [ih others (Nat.lt_of_succ_lt_succ enough), Option.map_some]

theorem length_le_membersBytes (members : List (String × Value)) :
    members.length ≤ (Value.membersBytes members).length := by
  induction members with
  | nil => exact Nat.le_refl _
  | cons member members ih =>
    rw [Value.membersBytes, List.flatMap_cons, List.length_append, List.length_cons,
      List.length_cons, ← Value.membersBytes]
    omega

/-- The document of an object of finite numbers is read as their list. -/
theorem numberMembers?_latencyDocument {view : List (String × Binary64)}
    (finite : ∀ entry ∈ view, entry.2.isFinite = true) :
    numberMembers? (Text.encode (Dashboard.latencyDocument view).write) = some view := by
  change numberMembers? (Value.object (doubleMembers view)).bytes = some view
  cases view with
  | nil => rfl
  | cons member members =>
    have few : members.length ≤ (Value.membersBytes (doubleMembers members)).length := by
      have each := length_le_membersBytes (doubleMembers members)
      rwa [doubleMembers, List.length_map] at each
    have shape : (Value.object (doubleMembers (member :: members))).bytes =
        0x7B :: (Value.memberBytes (member.1, Value.double member.2) ++
          (Value.membersBytes (doubleMembers members) ++ [0x7D])) :=
      Value.bytes_object_cons _ _
    have enough : members.length <
        (Value.object (doubleMembers (member :: members))).bytes.length := by
      rw [shape, List.length_cons, List.length_append, List.length_append]
      omega
    have read := @takeMembers?_bytes [] _ _ finite _ enough
    have head : ∃ tail, Value.memberBytes (member.1, Value.double member.2) ++
        (Value.membersBytes (doubleMembers members) ++ [0x7D]) = 0x22 :: tail := ⟨_, rfl⟩
    obtain ⟨tail, quote⟩ := head
    rw [quote] at shape read
    rw [numberMembers?, shape, skipBlanks_cons (by decide)]
    rw [shape] at read
    simp only [skipBlanks_cons (b := 0x22) (by decide)]
    split
    · rename_i same
      exact absurd (List.cons.inj same).1 (by decide)
    · rw [read]
      rfl

end Written

end Steering.Json
