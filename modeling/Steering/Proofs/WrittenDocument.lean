import Steering.Json.Value
import Steering.Proofs.WrittenText
/-! Documents are read back as they were written, as long as no numbers stand in them. -/

namespace Steering.Json.Value

mutual

/-- Whether no number stands anywhere in a value. -/
def isNumberless : Value → Bool
  | number _ => false
  | list elements => areNumberless elements
  | object members => membersNumberless members
  | _ => true

/-- Whether no number stands in any of some values. -/
def areNumberless : List Value → Bool
  | [] => true
  | value :: rest => value.isNumberless && areNumberless rest

/-- Whether no number stands in any value of some members. -/
def membersNumberless : List (String × Value) → Bool
  | [] => true
  | (_, value) :: rest => value.isNumberless && membersNumberless rest

end

/-- The bytes of a value. -/
def bytes (value : Value) : List UInt8 := Text.encode value.write

/-- The bytes of the elements after the first one. -/
def elementBytes (elements : List Value) : List UInt8 :=
  elements.flatMap fun value => 0x2C :: value.bytes

/-- The bytes of a key and its colon. -/
def keyBytes (key : String) : List UInt8 :=
  0x22 :: (textBytes key.toList ++ [0x22] ++ [0x3A])

/-- The bytes of a member. -/
def memberBytes (member : String × Value) : List UInt8 :=
  keyBytes member.1 ++ member.2.bytes

/-- The bytes of the members after the first one. -/
def membersBytes (members : List (String × Value)) : List UInt8 :=
  members.flatMap fun member => 0x2C :: memberBytes member

theorem encode_elements (value : Value) (elements : List Value) :
    Text.encode (",".intercalate (writeElements (value :: elements))) =
      value.bytes ++ elementBytes elements := by
  induction elements generalizing value with
  | nil => simp [writeElements, elementBytes, bytes]
  | cons second rest ih =>
    rw [writeElements, writeElements, String.intercalate_cons_cons, ← writeElements,
      Text.encode_append, Text.encode_append, ih, elementBytes, elementBytes, List.flatMap_cons,
      List.append_assoc, List.cons_append]
    rfl

theorem encode_members (member : String × Value) (members : List (String × Value)) :
    Text.encode (",".intercalate (writeMembers (member :: members))) =
      memberBytes member ++ membersBytes members := by
  have one (member : String × Value) :
      Text.encode (writeText member.1 ++ ":" ++ member.2.write) = memberBytes member := by
    rw [Text.encode_append, Text.encode_append, encode_writeText, memberBytes, keyBytes]
    rfl
  induction members generalizing member with
  | nil => simp [writeMembers, membersBytes, one]
  | cons second rest ih =>
    rw [writeMembers, writeMembers, String.intercalate_cons_cons, ← writeMembers,
      Text.encode_append, Text.encode_append, ih, one, membersBytes, membersBytes,
      List.flatMap_cons, List.append_assoc, List.cons_append]
    rfl

theorem bytes_list_cons (value : Value) (elements : List Value) :
    (list (value :: elements)).bytes =
      0x5B :: (value.bytes ++ (elementBytes elements ++ [0x5D])) := by
  rw [bytes, write, Text.encode_append, Text.encode_append, encode_elements, List.append_assoc,
    List.append_assoc]
  rfl

theorem bytes_object_cons (member : String × Value) (members : List (String × Value)) :
    (object (member :: members)).bytes =
      0x7B :: (memberBytes member ++ (membersBytes members ++ [0x7D])) := by
  rw [bytes, write, Text.encode_append, Text.encode_append, encode_members, List.append_assoc,
    List.append_assoc]
  rfl

/-- A value begins with a byte that is no blank and does not end a list. -/
theorem head_bytes {value : Value} (numberless : value.isNumberless = true) :
    ∃ b tail, value.bytes = b :: tail ∧ Cursor.isBlankByte b = false ∧ b ≠ 0x5D := by
  cases value with
  | null => exact ⟨_, _, rfl, by decide, by decide⟩
  | boolean truth => cases truth <;> exact ⟨_, _, rfl, by decide, by decide⟩
  | number n => cases numberless
  | text s =>
    rw [bytes, write, encode_writeText]
    exact ⟨_, _, rfl, by decide, by decide⟩
  | list elements =>
    cases elements with
    | nil => exact ⟨_, _, rfl, by decide, by decide⟩
    | cons first rest =>
      rw [bytes_list_cons]
      exact ⟨_, _, rfl, by decide, by decide⟩
  | object members =>
    cases members with
    | nil => exact ⟨_, _, rfl, by decide, by decide⟩
    | cons first rest =>
      rw [bytes_object_cons]
      exact ⟨_, _, rfl, by decide, by decide⟩

/-- What is read on once a value has been read inside some parts. -/
def goOn (value : Value) (fuel : Nat) (parts : List Partial) (c : Cursor) :
    Except Fault (Value × Cursor) :=
  match value.close parts with
  | (_, some done) => .ok (done, c)
  | (parts, none) => readFrom fuel false parts c

theorem skipBlanks_cons {b : UInt8} (visible : Cursor.isBlankByte b = false) (rest : List UInt8)
    (index : Nat) : (⟨b :: rest, index⟩ : Cursor).skipBlanks = ⟨b :: rest, index⟩ := by
  simp [Cursor.skipBlanks, Cursor.skip, visible]

section Steps

variable {fuel index next : Nat} {parts : List Partial} {rest : List UInt8}

theorem readFrom_scalar {b : UInt8} {value : Value} (visible : Cursor.isBlankByte b = false)
    (noList : b ≠ 0x5B) (noObject : b ≠ 0x7B) {tail : List UInt8}
    (read : readScalar b ⟨b :: tail, index⟩ = .ok (value, ⟨rest, next⟩)) :
    readFrom (fuel + 1) true parts ⟨b :: tail, index⟩ = value.goOn fuel parts ⟨rest, next⟩ := by
  rw [readFrom, readStep, skipBlanks_cons visible]
  simp only [Cursor.peek?, List.head?_cons, noList, noObject, if_false, if_true, read, bind,
    Except.bind, pure, Except.pure, goOn]
  rcases value.close parts with ⟨outer, _ | done⟩ <;> rfl

theorem readFrom_openList {b : UInt8} (visible : Cursor.isBlankByte b = false) (more : b ≠ 0x5D) :
    readFrom (fuel + 1) true parts ⟨0x5B :: b :: rest, index⟩ =
      readFrom fuel true (.list [] :: parts) ⟨b :: rest, index + 1⟩ := by
  have ahead : ¬ some b = some (0x5D : UInt8) := fun same => more (Option.some.inj same)
  rw [readFrom, readStep, skipBlanks_cons (by decide)]
  simp only [Cursor.peek?, List.head?_cons, if_true, Cursor.advance, skipBlanks_cons visible, ahead,
    if_false, bind, Except.bind, pure, Except.pure]

theorem readFrom_emptyList :
    readFrom (fuel + 1) true parts ⟨0x5B :: 0x5D :: rest, index⟩ =
      (list []).goOn fuel parts ⟨rest, index + 2⟩ := by
  rw [readFrom, readStep, skipBlanks_cons (by decide)]
  simp only [Cursor.peek?, List.head?_cons, if_true, Cursor.advance,
    skipBlanks_cons (b := 0x5D) (by decide), bind, Except.bind, pure, Except.pure, goOn]
  rcases (list []).close parts with ⟨outer, _ | done⟩ <;> rfl

theorem readFrom_nextElement {done : List Value} :
    readFrom (fuel + 1) false (.list done :: parts) ⟨0x2C :: rest, index⟩ =
      readFrom fuel true (.list done :: parts) ⟨rest, index + 1⟩ := by
  rw [readFrom, readStep, skipBlanks_cons (by decide)]
  rfl

theorem readFrom_closeList {done : List Value} :
    readFrom (fuel + 1) false (.list done :: parts) ⟨0x5D :: rest, index⟩ =
      (list done.reverse).goOn fuel parts ⟨rest, index + 1⟩ := by
  have noComma : ¬ (0x5D : UInt8) = 0x2C := by decide
  rw [readFrom, readStep, skipBlanks_cons (by decide)]
  simp only [Cursor.peek?, List.head?_cons, Bool.false_eq_true, noComma, if_false, if_true,
    Cursor.advance, pure, Except.pure, goOn]
  rcases (list done.reverse).close parts with ⟨outer, _ | value⟩ <;> rfl

theorem reads_key (key : String) : Reads readKey (keyBytes key) rest key := by
  intro index
  obtain ⟨next, read⟩ := @reads_text (0x3A :: rest) key (index + 1)
  refine ⟨next + 1, ?_⟩
  have split : textBytes key.toList ++ [0x22] ++ [0x3A] ++ rest =
      textBytes key.toList ++ [0x22] ++ 0x3A :: rest := by
    rw [List.append_assoc _ [0x3A]]
    rfl
  rw [keyBytes, List.cons_append, split, readKey, skipBlanks_cons (by decide)]
  simp only [Cursor.peek?, List.head?_cons, if_true, Cursor.advance, read, bind, Except.bind,
    skipBlanks_cons (b := 0x3A) (by decide)]

theorem readFrom_emptyObject :
    readFrom (fuel + 1) true parts ⟨0x7B :: 0x7D :: rest, index⟩ =
      (object []).goOn fuel parts ⟨rest, index + 2⟩ := by
  have noList : ¬ (0x7B : UInt8) = 0x5B := by decide
  rw [readFrom, readStep, skipBlanks_cons (by decide)]
  simp only [Cursor.peek?, List.head?_cons, noList, if_true, if_false, Cursor.advance,
    skipBlanks_cons (b := 0x7D) (by decide), bind, Except.bind, pure, Except.pure, goOn]
  rcases (object []).close parts with ⟨outer, _ | done⟩ <;> rfl

theorem readFrom_openObject (key : String) :
    ∃ next, ∀ fuel parts, readFrom (fuel + 1) true parts ⟨0x7B :: (keyBytes key ++ rest), index⟩ =
      readFrom fuel true (.object [] key :: parts) ⟨rest, next⟩ := by
  obtain ⟨next, read⟩ := @reads_key rest key (index + 1)
  have noList : ¬ (0x7B : UInt8) = 0x5B := by decide
  have noEnd : ¬ some (0x22 : UInt8) = some 0x7D := by decide
  refine ⟨next, fun fuel parts => ?_⟩
  rw [keyBytes, List.cons_append] at read ⊢
  rw [readFrom, readStep, skipBlanks_cons (by decide)]
  simp only [Cursor.peek?, List.head?_cons, noList, noEnd, if_true, if_false, Cursor.advance,
    skipBlanks_cons (b := 0x22) (by decide), read, bind, Except.bind, pure, Except.pure]

theorem readFrom_nextMember (key : String) :
    ∃ next, ∀ fuel parts done last,
      readFrom (fuel + 1) false (.object done last :: parts) ⟨0x2C :: (keyBytes key ++ rest), index⟩ =
        readFrom fuel true (.object done key :: parts) ⟨rest, next⟩ := by
  obtain ⟨next, read⟩ := @reads_key rest key (index + 1)
  refine ⟨next, fun fuel parts done last => ?_⟩
  rw [readFrom, readStep, skipBlanks_cons (by decide)]
  simp only [Cursor.peek?, List.head?_cons, Bool.false_eq_true, if_true, if_false, Cursor.advance,
    read, bind, Except.bind, pure, Except.pure]

theorem readFrom_closeObject {done : List (String × Value)} {last : String} :
    readFrom (fuel + 1) false (.object done last :: parts) ⟨0x7D :: rest, index⟩ =
      (object done.reverse).goOn fuel parts ⟨rest, index + 1⟩ := by
  have noComma : ¬ (0x7D : UInt8) = 0x2C := by decide
  rw [readFrom, readStep, skipBlanks_cons (by decide)]
  simp only [Cursor.peek?, List.head?_cons, Bool.false_eq_true, noComma, if_false, if_true,
    Cursor.advance, pure, Except.pure, goOn]
  rcases (object done.reverse).close parts with ⟨outer, _ | value⟩ <;> rfl

end Steps

/-- A value is read from its bytes in some steps, each of which takes a byte at least. -/
def IsRead (value : Value) : Prop :=
  ∀ rest index, ∃ steps next, steps ≤ value.bytes.length ∧ ∀ fuel parts,
    readFrom (fuel + steps) true parts ⟨value.bytes ++ rest, index⟩ =
      value.goOn fuel parts ⟨rest, next⟩

theorem isRead_scalar {value : Value} {b : UInt8} {tail : List UInt8}
    (shape : value.bytes = b :: tail) (visible : Cursor.isBlankByte b = false) (noList : b ≠ 0x5B)
    (noObject : b ≠ 0x7B)
    (read : ∀ rest, Reads (readScalar b) value.bytes rest value) : value.IsRead := by
  intro rest index
  obtain ⟨next, done⟩ := read rest index
  rw [shape] at done ⊢
  exact ⟨1, next, by simp, fun fuel parts => readFrom_scalar visible noList noObject done⟩

mutual

/-- Every value without numbers is read from its bytes. -/
theorem isRead : (value : Value) → value.isNumberless = true → value.IsRead
  | null, _ => isRead_scalar rfl (by decide) (by decide) (by decide) fun rest index => ⟨_, rfl⟩
  | boolean true, _ =>
    isRead_scalar rfl (by decide) (by decide) (by decide) fun rest index => ⟨_, rfl⟩
  | boolean false, _ =>
    isRead_scalar rfl (by decide) (by decide) (by decide) fun rest index => ⟨_, rfl⟩
  | text s, _ => by
    have shape : (text s).bytes = 0x22 :: (textBytes s.toList ++ [0x22]) := encode_writeText s
    refine isRead_scalar shape (by decide) (by decide) (by decide) fun rest index => ?_
    obtain ⟨next, read⟩ := @reads_text rest s (index + 1)
    refine ⟨next, ?_⟩
    rw [shape]
    change (readText ⟨textBytes s.toList ++ [0x22] ++ rest, index + 1⟩).map _ = _
    rw [read]
    rfl
  | list [], _ => fun rest index => ⟨1, index + 2, by decide, fun fuel parts => readFrom_emptyList⟩
  | list (first :: elements), numberless => by
    -- One step opens the list, then the first element is read, and then the others to the end.
    obtain ⟨one, more⟩ := Bool.and_eq_true_iff.mp numberless
    obtain ⟨b, tail, shape, visible, noEnd⟩ := head_bytes one
    intro rest index
    obtain ⟨steps, next, few, reads⟩ :=
      isRead first one (elementBytes elements ++ 0x5D :: rest) (index + 1)
    obtain ⟨others, last, fewer, ends⟩ := elements_read elements more rest next
    refine ⟨others + steps + 1, last, ?_, fun fuel parts => ?_⟩
    · simp only [bytes_list_cons, List.length_cons, List.length_append, List.length_nil]
      omega
    · have split : (list (first :: elements)).bytes ++ rest =
          0x5B :: (first.bytes ++ (elementBytes elements ++ 0x5D :: rest)) := by
        rw [bytes_list_cons, List.cons_append, List.append_assoc, List.append_assoc]
        rfl
      have count : fuel + (others + steps + 1) = fuel + others + steps + 1 := by omega
      calc readFrom (fuel + (others + steps + 1)) true parts
            ⟨(list (first :: elements)).bytes ++ rest, index⟩
          = readFrom (fuel + others + steps) true (.list [] :: parts)
              ⟨first.bytes ++ (elementBytes elements ++ 0x5D :: rest), index + 1⟩ := by
            rw [split, shape, count]
            exact readFrom_openList visible noEnd
        _ = readFrom (fuel + others) false (.list [first] :: parts)
              ⟨elementBytes elements ++ 0x5D :: rest, next⟩ := reads _ _
        _ = _ := ends fuel [first] parts
  | object [], _ =>
    fun rest index => ⟨1, index + 2, by decide, fun fuel parts => readFrom_emptyObject⟩
  | object ((key, value) :: members), numberless => by
    obtain ⟨one, more⟩ := Bool.and_eq_true_iff.mp numberless
    intro rest index
    obtain ⟨opened, opens⟩ := @readFrom_openObject index
      (value.bytes ++ (membersBytes members ++ 0x7D :: rest)) key
    obtain ⟨steps, next, few, reads⟩ := isRead value one (membersBytes members ++ 0x7D :: rest) opened
    obtain ⟨others, last, fewer, ends⟩ := members_read members more rest next
    refine ⟨others + steps + 1, last, ?_, fun fuel parts => ?_⟩
    · simp only [bytes_object_cons, memberBytes, List.length_cons, List.length_append,
        List.length_nil]
      omega
    · have split : (object ((key, value) :: members)).bytes ++ rest =
          0x7B :: (keyBytes key ++ (value.bytes ++ (membersBytes members ++ 0x7D :: rest))) := by
        rw [bytes_object_cons, memberBytes, List.cons_append, List.append_assoc, List.append_assoc,
          List.append_assoc]
        rfl
      have count : fuel + (others + steps + 1) = fuel + others + steps + 1 := by omega
      calc readFrom (fuel + (others + steps + 1)) true parts
            ⟨(object ((key, value) :: members)).bytes ++ rest, index⟩
          = readFrom (fuel + others + steps) true (.object [] key :: parts)
              ⟨value.bytes ++ (membersBytes members ++ 0x7D :: rest), opened⟩ := by
            rw [split, count]
            exact opens _ _
        _ = readFrom (fuel + others) false (.object [(key, value)] "" :: parts)
              ⟨membersBytes members ++ 0x7D :: rest, next⟩ := reads _ _
        _ = _ := ends fuel [(key, value)] "" parts

/-- The elements after the first one are read up to the end of their list. -/
theorem elements_read : (elements : List Value) → areNumberless elements = true →
    ∀ rest index, ∃ steps next, steps ≤ (elementBytes elements).length + 1 ∧ ∀ fuel done parts,
      readFrom (fuel + steps) false (.list done :: parts)
          ⟨elementBytes elements ++ 0x5D :: rest, index⟩ =
        (list (done.reverse ++ elements)).goOn fuel parts ⟨rest, next⟩
  | [], _ => fun rest index => ⟨1, index + 1, by decide, fun fuel done parts => by
      rw [List.append_nil]
      exact readFrom_closeList⟩
  | value :: elements, numberless => by
    obtain ⟨one, more⟩ := Bool.and_eq_true_iff.mp numberless
    intro rest index
    obtain ⟨steps, next, few, reads⟩ :=
      isRead value one (elementBytes elements ++ 0x5D :: rest) (index + 1)
    obtain ⟨others, last, fewer, ends⟩ := elements_read elements more rest next
    refine ⟨others + steps + 1, last, ?_, fun fuel done parts => ?_⟩
    · simp only [elementBytes, List.flatMap_cons, List.length_append, List.length_cons] at fewer ⊢
      omega
    · have split : elementBytes (value :: elements) ++ 0x5D :: rest =
          0x2C :: (value.bytes ++ (elementBytes elements ++ 0x5D :: rest)) := by
        rw [elementBytes, List.flatMap_cons, List.cons_append, List.cons_append, List.append_assoc]
        rfl
      have count : fuel + (others + steps + 1) = fuel + others + steps + 1 := by omega
      calc readFrom (fuel + (others + steps + 1)) false (.list done :: parts)
            ⟨elementBytes (value :: elements) ++ 0x5D :: rest, index⟩
          = readFrom (fuel + others + steps) true (.list done :: parts)
              ⟨value.bytes ++ (elementBytes elements ++ 0x5D :: rest), index + 1⟩ := by
            rw [split, count]
            exact readFrom_nextElement
        _ = readFrom (fuel + others) false (.list (value :: done) :: parts)
              ⟨elementBytes elements ++ 0x5D :: rest, next⟩ := reads _ _
        _ = (list ((value :: done).reverse ++ elements)).goOn fuel parts ⟨rest, last⟩ :=
            ends fuel (value :: done) parts
        _ = _ := by rw [List.reverse_cons, List.append_assoc, List.singleton_append]

/-- The members after the first one are read up to the end of their object. -/
theorem members_read : (members : List (String × Value)) → membersNumberless members = true →
    ∀ rest index, ∃ steps next, steps ≤ (membersBytes members).length + 1 ∧
      ∀ fuel done last parts,
        readFrom (fuel + steps) false (.object done last :: parts)
            ⟨membersBytes members ++ 0x7D :: rest, index⟩ =
          (object (done.reverse ++ members)).goOn fuel parts ⟨rest, next⟩
  | [], _ => fun rest index => ⟨1, index + 1, by decide, fun fuel done last parts => by
      rw [List.append_nil]
      exact readFrom_closeObject⟩
  | (key, value) :: members, numberless => by
    obtain ⟨one, more⟩ := Bool.and_eq_true_iff.mp numberless
    intro rest index
    obtain ⟨opened, opens⟩ := @readFrom_nextMember index
      (value.bytes ++ (membersBytes members ++ 0x7D :: rest)) key
    obtain ⟨steps, next, few, reads⟩ := isRead value one (membersBytes members ++ 0x7D :: rest) opened
    obtain ⟨others, last, fewer, ends⟩ := members_read members more rest next
    refine ⟨others + steps + 1, last, ?_, fun fuel done name parts => ?_⟩
    · simp only [membersBytes, List.flatMap_cons, memberBytes, List.length_append,
        List.length_cons] at fewer ⊢
      omega
    · have split : membersBytes ((key, value) :: members) ++ 0x7D :: rest =
          0x2C :: (keyBytes key ++ (value.bytes ++ (membersBytes members ++ 0x7D :: rest))) := by
        rw [membersBytes, List.flatMap_cons, memberBytes, List.cons_append, List.cons_append,
          List.append_assoc, List.append_assoc]
        rfl
      have count : fuel + (others + steps + 1) = fuel + others + steps + 1 := by omega
      calc readFrom (fuel + (others + steps + 1)) false (.object done name :: parts)
            ⟨membersBytes ((key, value) :: members) ++ 0x7D :: rest, index⟩
          = readFrom (fuel + others + steps) true (.object done key :: parts)
              ⟨value.bytes ++ (membersBytes members ++ 0x7D :: rest), opened⟩ := by
            rw [split, count]
            exact opens _ _ _ _
        _ = readFrom (fuel + others) false (.object ((key, value) :: done) "" :: parts)
              ⟨membersBytes members ++ 0x7D :: rest, next⟩ := reads _ _
        _ = (object (((key, value) :: done).reverse ++ members)).goOn fuel parts ⟨rest, last⟩ :=
            ends fuel ((key, value) :: done) "" parts
        _ = _ := by rw [List.reverse_cons, List.append_assoc, List.singleton_append]

end

/-- A document without numbers is read back as it was written. -/
theorem decode_write {value : Value} (numberless : value.isNumberless = true) :
    decode (Text.encode value.write) = .ok value := by
  obtain ⟨steps, next, few, reads⟩ := isRead value numberless [] 0
  obtain ⟨spare, enough⟩ := Nat.exists_eq_add_of_le' few
  have read : readFrom (value.bytes.length + 1) true [] (.start value.bytes) =
      .ok (value, ⟨[], next⟩) := by
    have all := reads (spare + 1) []
    rw [List.append_nil] at all
    rw [enough, Nat.add_right_comm]
    exact all
  change decode value.bytes = _
  rw [decode, read]
  rfl

end Steering.Json.Value
