import Steering.Proofs.PathSegments
import Steering.Proofs.RequestTarget
/-! Parameters of a query in every spelling: bytes may stand as they are or as two digits, a blank
as a plus sign, and the last parameter of a name decides. -/

namespace Steering.Http.Form

/-! ## Spellings -/

/-- The two bytes that a digit below sixteen may be written as. -/
def hexDigits (n : Nat) : List UInt8 :=
  [UInt8.ofNat n.digitChar.toNat, UInt8.ofNat n.digitChar.toUpper.toNat]

/-- Bytes of a query that spell the bytes of a name or a value. -/
inductive Spells : List UInt8 → List UInt8 → Prop
  | nil : Spells [] []
  /-- A byte that has no meaning of its own in a query stands for itself. -/
  | plain {b : UInt8} {written bytes : List UInt8} (meaningless : b ∉ [0x25, 0x26, 0x2B])
    (more : Spells written bytes) : Spells (b :: written) (b :: bytes)
  /-- A plus sign stands for a blank. -/
  | blank {written bytes : List UInt8} (more : Spells written bytes) :
    Spells (0x2B :: written) (0x20 :: bytes)
  /-- Any byte may be written in two digits after a percent sign, in both cases. -/
  | digits {b high low : UInt8} {written bytes : List UInt8}
    (first : high ∈ hexDigits (b.toNat / 16)) (second : low ∈ hexDigits (b.toNat % 16))
    (more : Spells written bytes) : Spells (0x25 :: high :: low :: written) (b :: bytes)

theorem hexValue?_of_mem_hexDigits {n : Nat} (digit : n < 16) {b : UInt8}
    (member : b ∈ hexDigits n) : Json.hexValue? b = some n := by
  have all : ∀ m : Fin 16, ∀ b ∈ hexDigits m, Json.hexValue? b = some m.val := by decide +kernel
  exact all ⟨n, digit⟩ b member

theorem mem_hexDigits_of_hexValue? {n : Nat} {b : UInt8} (value : Json.hexValue? b = some n) :
    n < 16 ∧ b ∈ hexDigits n := by
  have all : ∀ m : Fin 256, ∀ n ∈ Json.hexValue? (UInt8.ofNat m), n < 16 ∧
      UInt8.ofNat m ∈ hexDigits n := by decide +kernel
  have own := all ⟨b.toNat, b.toNat_lt⟩ n
  rw [UInt8.ofNat_toNat] at own
  exact own value

variable {written bytes : List UInt8}

/-- What is spelled is read. -/
theorem Spells.decodeBytes (spells : Spells written bytes) : decodeBytes written = bytes := by
  induction spells with
  | nil => rfl
  | plain meaningless more ih =>
    simp only [List.mem_cons, List.not_mem_nil, or_false, not_or] at meaningless
    rw [Form.decodeBytes, ih]
    · exact fun same => meaningless.2.2 same
    · exact fun a c rest same => absurd same meaningless.1
  | blank more ih => rw [Form.decodeBytes, ih]
  | @digits b high low written bytes first second more ih =>
    have bound := b.toNat_lt
    have value : b.toNat / 16 * 16 + b.toNat % 16 = b.toNat := by omega
    simp only [Form.decodeBytes, hexValue?_of_mem_hexDigits (by omega) first,
      hexValue?_of_mem_hexDigits (by omega) second, ih, value, UInt8.ofNat_toNat]

/-- What is read as bytes without a percent sign is spelled. -/
theorem spells_decodeBytes (one : 0x26 ∉ written) (noPercent : 0x25 ∉ Form.decodeBytes written) :
    Spells written (Form.decodeBytes written) := by
  induction written using Form.decodeBytes.induct with
  | case1 => exact .nil
  | case2 rest ih =>
    rw [Form.decodeBytes] at noPercent ⊢
    rw [List.mem_cons, not_or] at one noPercent
    exact .blank (ih one.2 noPercent.2)
  | case3 high low rest first second lowValue highValue ih =>
    obtain ⟨highBound, highDigit⟩ := mem_hexDigits_of_hexValue? highValue
    obtain ⟨lowBound, lowDigit⟩ := mem_hexDigits_of_hexValue? lowValue
    have value : (UInt8.ofNat (first * 16 + second)).toNat = first * 16 + second := by
      rw [UInt8.toNat_ofNat']
      exact Nat.mod_eq_of_lt (by omega)
    simp only [Form.decodeBytes, highValue, lowValue] at noPercent ⊢
    simp only [List.mem_cons, not_or] at one noPercent
    refine .digits ?_ ?_ (ih one.2.2.2 noPercent.2)
    · have quotient : (first * 16 + second) / 16 = first := by omega
      rwa [value, quotient]
    · have rest : (first * 16 + second) % 16 = second := by omega
      rwa [value, rest]
  | case4 high low rest broken ih =>
    refine absurd ?_ noPercent
    rw [Form.decodeBytes]
    split
    · rename_i first second
      exact absurd second (broken _ _ first)
    · exact List.mem_cons_self
  | case5 b rest noPlus noEscape ih =>
    rw [Form.decodeBytes] at noPercent ⊢
    · rw [List.mem_cons, not_or] at one noPercent
      refine .plain ?_ (ih one.2 noPercent.2)
      simp only [List.mem_cons, List.not_mem_nil, or_false, not_or]
      exact ⟨Ne.symm noPercent.1, Ne.symm one.1, noPlus⟩
    · exact noPlus
    · exact noEscape
    · exact noPlus
    · exact noEscape

/-! ## Names and values -/

/-- Whether a text is read from its own spellings only: nothing in it is what a broken spelling is
read as. -/
def IsFaithful (name : String) : Prop :=
  0x25 ∉ Text.encode name ∧ Char.ofNat 0xFFFD ∉ name.toList

theorem Spells.decodeText {s : String} (spells : Spells written (Text.encode s)) :
    decodeText written = s := by
  rw [Form.decodeText, spells.decodeBytes, Text.decodeLossy_encode]

theorem spells_of_decodeText {name : String} (faithful : IsFaithful name) (one : 0x26 ∉ written)
    (read : decodeText written = name) : Spells written (Text.encode name) := by
  have bytes := Text.eq_encode_of_decodeLossy read faithful.2
  have spells := @spells_decodeBytes written one (bytes ▸ faithful.1)
  rwa [bytes] at spells

/-- Whether a part of a query is a parameter of a name. -/
def Names (part : List UInt8) (name : String) : Prop :=
  Spells (part.takeWhile (· != 0x3D)) (Text.encode name)

theorem names_iff {part : List UInt8} {name : String} (faithful : IsFaithful name)
    (one : 0x26 ∉ part) : (decodePair part).1 = name ↔ Names part name := by
  constructor
  · intro read
    exact spells_of_decodeText faithful
      (fun member => one ((List.takeWhile_prefix _).subset member)) read
  · intro named
    exact named.decodeText

/-- What a query says a parameter is: the last part that has its name spells the value. -/
structure Gives (query : List UInt8) (name value : String) : Prop where
  exists_parts : ∃ earlier later key written,
    query.splitOn 0x26 = earlier ++ (key ++ 0x3D :: written) :: later ∧ 0x3D ∉ key ∧
      Spells key (Text.encode name) ∧ Spells written (Text.encode value) ∧
      ∀ part ∈ later, ¬ Names part name

/-- Whether a query has no parameter of a name. -/
def Lacks (query : List UInt8) (name : String) : Prop :=
  ∀ part ∈ query.splitOn 0x26, ¬ Names part name

section Deciding

variable {query : List UInt8} {name value : String} (faithful : IsFaithful name)
include faithful

/-- The parameter that a query gives is the one that is taken. -/
theorem value?_of_gives (gives : Gives query name value) :
    value? (decode query) name = some value := by
  obtain ⟨earlier, later, key, written, parts, bare, named, valued, others⟩ := gives.exists_parts
  have kept : ((key ++ 0x3D :: written) :: later).filter (· != []) =
      (key ++ 0x3D :: written) :: later.filter (· != []) := by
    rw [List.filter_cons, if_pos]
    exact bne_iff_ne.mpr (List.append_ne_nil_of_right_ne_nil key (List.cons_ne_nil _ _))
  have pair : decodePair (key ++ 0x3D :: written) = (name, value) := by
    rw [decodePair_append bare, named.decodeText, valued.decodeText]
  have none : ((later.filter (· != [])).map decodePair).reverse.find? (·.1 == name) = none := by
    refine List.find?_eq_none.mpr fun found member => ?_
    obtain ⟨part, kept, rfl⟩ := List.mem_map.mp (List.mem_reverse.mp member)
    have inside := (List.mem_filter.mp kept).1
    have one : 0x26 ∉ part := by
      have own : part ∈ query.splitOn 0x26 := by
        rw [parts]
        exact List.mem_append_right _ (List.mem_cons_of_mem _ inside)
      exact notMem_of_mem_splitOn own
    rw [beq_iff_eq, names_iff faithful one]
    exact others part inside
  rw [value?, decode, parts, List.filter_append, kept, List.map_append,
    List.map_cons, pair, List.reverse_append, List.reverse_cons, List.find?_append,
    List.find?_append, none, Option.none_or, List.find?_singleton, beq_self_eq_true, if_pos rfl]
  rfl

theorem value?_of_lacks (lacks : Lacks query name) : value? (decode query) name = none := by
  refine Option.map_eq_none_iff.mpr (List.find?_eq_none.mpr fun found member => ?_)
  obtain ⟨part, kept, rfl⟩ := List.mem_map.mp (List.mem_reverse.mp member)
  have inside := (List.mem_filter.mp kept).1
  rw [beq_iff_eq, names_iff faithful (notMem_of_mem_splitOn inside)]
  exact lacks part inside

end Deciding

/-- What is read of a query without percent signs is given by it. -/
theorem gives_of_read {query key written : List UInt8} {earlier later : List (List UInt8)}
    {name value : String}
    (parts : query.splitOn 0x26 = earlier ++ (key ++ 0x3D :: written) :: later)
    (bare : 0x3D ∉ key) (faithful : IsFaithful name ∧ IsFaithful value)
    (named : decodeText key = name) (valued : decodeText written = value)
    (others : ∀ part ∈ later, (decodePair part).1 ≠ name) : Gives query name value := by
  have inside {part : List UInt8}
      (member : part ∈ earlier ++ (key ++ 0x3D :: written) :: later) : 0x26 ∉ part :=
    notMem_of_mem_splitOn (parts ▸ member)
  have one := inside (List.mem_append_right _ List.mem_cons_self)
  rw [List.mem_append, List.mem_cons, not_or, not_or] at one
  refine ⟨earlier, later, key, written, parts, bare, spells_of_decodeText faithful.1 one.1 named,
    spells_of_decodeText faithful.2 one.2.2 valued, fun part member => ?_⟩
  rw [← names_iff faithful.1 (inside (List.mem_append_right _ (List.mem_cons_of_mem _ member)))]
  exact others part member

/-! ## A spelling for every text -/

/-- A byte in two digits. -/
def escapeByte (b : UInt8) : List Char :=
  ['%', (b.toNat / 16).digitChar, (b.toNat % 16).digitChar]

/-- A text with each of its bytes in two digits. -/
def escaped (s : String) : String :=
  String.ofList ((Text.encode s).flatMap escapeByte)

theorem mem_escapeByte {b : UInt8} {c : Char} (member : c ∈ escapeByte b) :
    c = '%' ∨ ∃ n < 16, c = n.digitChar := by
  have bound := b.toNat_lt
  simp only [escapeByte, List.mem_cons, List.not_mem_nil, or_false] at member
  rcases member with rfl | rfl | rfl
  · exact .inl rfl
  · exact .inr ⟨_, by omega, rfl⟩
  · exact .inr ⟨_, by omega, rfl⟩

/-- The characters of an escaped text are plain. -/
theorem mem_escaped {s : String} {c : Char} (member : c ∈ (escaped s).toList) :
    c.toNat < 0x80 ∧ Net.Uri.isQueryChar c = true ∧ c ≠ '=' ∧ c ≠ '&' := by
  rw [escaped, String.toList_ofList] at member
  obtain ⟨b, -, inside⟩ := List.mem_flatMap.mp member
  rcases mem_escapeByte inside with rfl | ⟨n, bound, rfl⟩
  · decide
  · have all : ∀ n : Fin 16, (n : Nat).digitChar.toNat < 0x80 ∧
        Net.Uri.isQueryChar (n : Nat).digitChar = true ∧ (n : Nat).digitChar ≠ '=' ∧
        (n : Nat).digitChar ≠ '&' := by decide +kernel
    exact all ⟨n, bound⟩

theorem encode_escaped (s : String) : Text.encode (escaped s) =
    (Text.encode s).flatMap fun b =>
      [0x25, UInt8.ofNat (b.toNat / 16).digitChar.toNat,
        UInt8.ofNat (b.toNat % 16).digitChar.toNat] := by
  rw [Text.encode, Text.encodeChars_ascii fun c member => (mem_escaped member).1, escaped,
    String.toList_ofList, List.map_flatMap]
  rfl

/-- An escaped text is three times as long. -/
theorem utf8ByteSize_escaped (s : String) : (escaped s).utf8ByteSize = 3 * s.utf8ByteSize := by
  rw [← Text.length_encode, ← Text.length_encode, encode_escaped]
  induction Text.encode s with
  | nil => rfl
  | cons b bytes ih =>
    rw [List.flatMap_cons, List.length_append, ih]
    simp only [List.length_cons, List.length_nil]
    omega

/-- An escaped text spells it. -/
theorem spells_escaped (s : String) : Spells (Text.encode (escaped s)) (Text.encode s) := by
  rw [encode_escaped]
  induction Text.encode s with
  | nil => exact .nil
  | cons b bytes ih => exact .digits List.mem_cons_self List.mem_cons_self ih

/-- No byte of an escaped text parts names and values. -/
theorem notMem_encode_escaped (s : String) :
    0x3D ∉ Text.encode (escaped s) ∧ 0x26 ∉ Text.encode (escaped s) := by
  have chars : ∀ b ∈ Text.encode (escaped s), ∃ c ∈ (escaped s).toList, b.toNat = c.toNat := by
    rw [Text.encode, Text.encodeChars_ascii fun c member => (mem_escaped member).1]
    intro b member
    obtain ⟨c, inside, rfl⟩ := List.mem_map.mp member
    exact ⟨c, inside, Text.toNat_ofNat_ascii (mem_escaped inside).1⟩
  constructor
  · intro member
    obtain ⟨c, inside, same⟩ := chars _ member
    exact (mem_escaped inside).2.2.1 (Char.toNat_inj.mp same.symm)
  · intro member
    obtain ⟨c, inside, same⟩ := chars _ member
    exact (mem_escaped inside).2.2.2 (Char.toNat_inj.mp same.symm)

/-- Every value can be given, with the name and the value both escaped. -/
theorem gives_escaped (name value : String) :
    Gives (Text.encode (escaped name ++ "=" ++ escaped value)) name value := by
  obtain ⟨bare, one⟩ := notMem_encode_escaped name
  obtain ⟨-, oneToo⟩ := notMem_encode_escaped value
  have split : Text.encode (escaped name ++ "=" ++ escaped value) =
      Text.encode (escaped name) ++ 0x3D :: Text.encode (escaped value) := by
    have equals : Text.encode "=" = [0x3D] := rfl
    rw [Text.encode_append, Text.encode_append, equals, List.append_assoc, List.singleton_append]
  have whole : 0x26 ∉ Text.encode (escaped name) ++ 0x3D :: Text.encode (escaped value) := by
    simp [one, oneToo]
  refine ⟨[], [], _, _, ?_, bare, spells_escaped name, spells_escaped value, List.forall_mem_nil _⟩
  rw [split, List.splitOn_eq_singleton whole]
  rfl

end Steering.Http.Form
