import Steering.Dashboard.Routes
import Steering.Proofs.TextBytes
/-! How the dashboard takes a target apart: a path with a query is an identifier, and a parameter
that is written plainly is read as it was written. -/

namespace Steering

namespace Text

theorem length_encode (s : String) : (encode s).length = s.utf8ByteSize := by
  have bytes : s.toByteArray = (encode s).toByteArray := by
    rw [← String.ofList_toList (s := s), String.toByteArray_ofList, encode_ofList]
    rfl
  rw [String.utf8ByteSize, bytes, List.size_toByteArray]

/-- A character takes at most four bytes. -/
theorem utf8ByteSize_le (s : String) : s.utf8ByteSize ≤ 4 * s.toList.length := by
  rw [← length_encode, encode]
  induction s.toList with
  | nil => exact Nat.le_refl _
  | cons c cs ih =>
    have size := Char.utf8Size_le_four c
    rw [encodeChars_cons, List.length_append, String.length_utf8EncodeChar, List.length_cons]
    omega

end Text

namespace Http.Form

/-- Bytes without escapes stand for themselves. -/
theorem decodeBytes_of_plain {bytes : List UInt8} (noPlus : 0x2B ∉ bytes)
    (noPercent : 0x25 ∉ bytes) : decodeBytes bytes = bytes := by
  induction bytes with
  | nil => rfl
  | cons b rest ih =>
    rw [List.mem_cons, not_or] at noPlus noPercent
    rw [decodeBytes, ih noPlus.2 noPercent.2]
    · exact fun same => noPlus.1 same.symm
    · exact fun a c more same => absurd same.symm noPercent.1

/-- A text without escapes is read from its bytes. -/
theorem decodeText_encode {s : String} (noPlus : 0x2B ∉ Text.encode s)
    (noPercent : 0x25 ∉ Text.encode s) : decodeText (Text.encode s) = s := by
  rw [decodeText, decodeBytes_of_plain noPlus noPercent, Text.decodeLossy_encode]

theorem decodePair_append {name value : List UInt8} (bare : 0x3D ∉ name) :
    decodePair (name ++ 0x3D :: value) = (decodeText name, decodeText value) := by
  have kept : ∀ b ∈ name, (b != 0x3D) = true := by
    intro b member
    exact bne_iff_ne.mpr fun same => bare (same ▸ member)
  rw [decodePair, List.takeWhile_append_of_pos kept, List.dropWhile_append_of_pos kept]
  simp

/-- A query of one pair. -/
theorem decode_pair {name value : List UInt8} (bare : 0x3D ∉ name) (one : 0x26 ∉ name)
    (oneToo : 0x26 ∉ value) :
    decode (name ++ 0x3D :: value) = [(decodeText name, decodeText value)] := by
  have whole : 0x26 ∉ name ++ 0x3D :: value := by
    simp [one, oneToo]
  rw [decode, List.splitOn_eq_singleton whole]
  simp [decodePair_append bare]

end Http.Form

namespace Dashboard

theorem not_hash_of_isPathChar {c : Char} (plain : Net.Uri.isPathChar c = true) :
    c ≠ '#' ∧ c ≠ '?' := by
  constructor
  · rintro rfl
    exact absurd plain (by decide)
  · rintro rfl
    exact absurd plain (by decide)

theorem not_hash_of_isQueryChar {c : Char} (plain : Net.Uri.isQueryChar c = true) : c ≠ '#' := by
  rintro rfl
  exact absurd plain (by decide)

/-- A text splits at its first question mark. -/
theorem takeWhile_path {path query : List Char} (plain : ∀ c ∈ path, Net.Uri.isPathChar c = true) :
    (path ++ '?' :: query).takeWhile (· ≠ '?') = path ∧
      ((path ++ '?' :: query).dropWhile (· ≠ '?')).drop 1 = query := by
  have before : ∀ c ∈ path, decide (c ≠ '?') = true := fun c member =>
    decide_eq_true (not_hash_of_isPathChar (plain c member)).2
  rw [List.takeWhile_append_of_pos before, List.dropWhile_append_of_pos before]
  simp

theorem checkPath_query {path query : List Char}
    (plain : ∀ c ∈ path, Net.Uri.isPathChar c = true)
    (plainToo : ∀ c ∈ query, Net.Uri.isQueryChar c = true) :
    Net.Uri.checkPath (path ++ '?' :: query) = .ok (String.ofList (path ++ '?' :: query)) := by
  have kept : ∀ c ∈ path ++ '?' :: query, decide (c ≠ '#') = true := by
    intro c member
    apply decide_eq_true
    rcases List.mem_append.mp member with inPath | inQuery
    · exact (not_hash_of_isPathChar (plain c inPath)).1
    · rcases List.mem_cons.mp inQuery with rfl | later
      · decide
      · exact not_hash_of_isQueryChar (plainToo c later)
  obtain ⟨before, after⟩ := @takeWhile_path path query plain
  have valid : (path.all Net.Uri.isPathChar && query.all Net.Uri.isQueryChar) = true := by
    rw [List.all_eq_true.mpr plain, List.all_eq_true.mpr plainToo]
    rfl
  have whole : (path ++ '?' :: query).takeWhile (· ≠ '#') = path ++ '?' :: query := by
    simpa using @List.takeWhile_append_of_pos _ _ _ [] kept
  simp only [Net.Uri.checkPath, whole, before, after, valid, if_true]

/-- A path with a query is an identifier. -/
theorem parse_query {path query : String} (rooted : path.toList.head? = some '/')
    (plain : ∀ c ∈ path.toList, Net.Uri.isPathChar c = true)
    (plainToo : ∀ c ∈ query.toList, Net.Uri.isQueryChar c = true)
    (short : (path ++ "?" ++ query).utf8ByteSize ≤ Net.Uri.maxLength) :
    Net.Uri.parse (path ++ "?" ++ query) = .ok ⟨none, none, path ++ "?" ++ query⟩ := by
  have chars : (path ++ "?" ++ query).toList = path.toList ++ '?' :: query.toList := by
    simp
  have head : (path.toList ++ '?' :: query.toList).head? = some '/' := by
    rw [List.head?_append, rooted]
    rfl
  have other (c : Char) (not : c ≠ '/') : path.toList ++ '?' :: query.toList ≠ [c] := by
    intro same
    rw [same] at head
    exact not (Option.some.inj head)
  have empty : path.toList ++ '?' :: query.toList ≠ [] := by simp
  have star := other '*' (by decide)
  have question := other '?' (by decide)
  have hash := other '#' (by decide)
  rw [Net.Uri.parse, chars, if_neg (Nat.not_lt.mpr short), if_neg empty, if_neg star]
  simp only [question, hash, decide_false, Bool.or_self, Bool.false_eq_true, if_false, head,
    if_true, checkPath_query plain plainToo, bind, Except.bind]
  rw [← chars, String.ofList_toList]

/-- A path and its query name this path and the parameters of this query. -/
theorem ofUri_query {path query : String} {uri : Net.Uri}
    (written : uri.path = path ++ "?" ++ query)
    (plain : ∀ c ∈ path.toList, Net.Uri.isPathChar c = true) :
    Target.ofUri uri = ⟨path, Http.Form.decode (Text.encode query)⟩ := by
  have chars : (path ++ "?" ++ query).toList = path.toList ++ '?' :: query.toList := by
    simp
  obtain ⟨before, after⟩ := @takeWhile_path path.toList query.toList plain
  rw [Target.ofUri, written, chars]
  simp only [before, after, String.ofList_toList, Text.encode]

/-- A path without a query names this path and no parameters. -/
theorem ofUri_bare {path : String} {uri : Net.Uri} (written : uri.path = path)
    (plain : ∀ c ∈ path.toList, Net.Uri.isPathChar c = true) : Target.ofUri uri = ⟨path, []⟩ := by
  have kept : ∀ c ∈ path.toList, decide (c ≠ '?') = true := fun c member =>
    decide_eq_true (not_hash_of_isPathChar (plain c member)).2
  have whole : path.toList.takeWhile (· ≠ '?') = path.toList := by
    simpa using @List.takeWhile_append_of_pos _ _ _ [] kept
  have none : path.toList.dropWhile (· ≠ '?') = [] := by
    simpa using @List.dropWhile_append_of_pos _ _ _ [] kept
  rw [Target.ofUri, written]
  simp only [whole, none, String.ofList_toList]
  rfl

/-- A path with a query is an identifier that names this path and the parameters of this query. -/
theorem target_of_query {path query : String} (rooted : path.toList.head? = some '/')
    (plain : ∀ c ∈ path.toList, Net.Uri.isPathChar c = true)
    (plainToo : ∀ c ∈ query.toList, Net.Uri.isQueryChar c = true)
    (short : (path ++ "?" ++ query).utf8ByteSize ≤ Net.Uri.maxLength) :
    ∃ uri, Net.Uri.parse (path ++ "?" ++ query) = .ok uri ∧
      Target.ofUri uri = ⟨path, Http.Form.decode (Text.encode query)⟩ :=
  ⟨_, parse_query rooted plain plainToo short, ofUri_query rfl plain⟩

end Dashboard

end Steering
