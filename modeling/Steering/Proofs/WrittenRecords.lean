import Steering.Proofs.ReadByName
import Steering.Proofs.WrittenDocument
import Steering.Proofs.WrittenNumber
/-! Records are read again from the documents that are written for them, as far as numbers are exact. A
number that is not finite is lost in its document, and this document is refused. -/

namespace Steering

namespace Json

open Value (memberBytes membersBytes keyBytes)

/-! ## Written objects as documents -/

section Written

/-- The members of an object. -/
def Value.members : Value → List (String × Value)
  | .object members => members
  | _ => []

/-- A member as it is written, without blanks. -/
def Member.written (member : String × Value) : Member :=
  ⟨[], textBytes member.1.toList, [], [], member.2.bytes, []⟩

theorem Member.spaced_written (member : String × Value) : (Member.written member).Spaced where
  before := isBlank_nil
  key := (spells_text _).isText
  between := isBlank_nil
  after := isBlank_nil
  behind := isBlank_nil

theorem Member.bytes_written (member : String × Value) :
    (Member.written member).bytes = memberBytes member := by
  simp [Member.bytes, Member.tail, Member.written, memberBytes, keyBytes]

@[simp] theorem Member.name?_written (member : String × Value) :
    (Member.written member).name? = some member.1 :=
  (spelled?_eq_some_iff (spells_text _).isText).mpr (spells_text _)

/-- The document that is written for an object. -/
def Document.written (members : List (String × Value))
    (values : ∀ member ∈ members, IsValue member.2.bytes) : Document where
  before := []
  members := members.map Member.written
  inner := []
  behind := []
  blank_before := isBlank_nil
  blank_inner := isBlank_nil
  blank_behind := isBlank_nil
  spaced := List.forall_mem_map.mpr fun member _ => Member.spaced_written member
  values := List.forall_mem_map.mpr values

variable {members : List (String × Value)} (values : ∀ member ∈ members, IsValue member.2.bytes)

theorem Document.bytes_written : (Document.written members values).bytes =
    Text.encode (Value.object members).write := by
  change _ = (Value.object members).bytes
  cases members with
  | nil => rfl
  | cons first members =>
    have others : members.map (Member.bytes ∘ Member.written) = members.map memberBytes :=
      List.map_congr_left fun member _ => Member.bytes_written member
    rw [Value.bytes_object_cons, Document.bytes]
    simp [Document.written, objectBytes, separated, others, Member.bytes_written, membersBytes,
      List.flatMap_map]

theorem Document.isNamed_written : (Document.written members values).IsNamed := by
  rw [Document.isNamed_iff]
  exact List.forall_mem_map.mpr fun member _ => by rw [Member.name?_written, Option.isSome_some]

/-- A written object gives all its members, if their names are asked for. -/
theorem Document.known_written {names : List String} (listed : ∀ member ∈ members, member.1 ∈ names) :
    (Document.written members values).known names =
      members.map fun member => (member.1, member.2.bytes) := by
  rw [Document.known, Json.known, Document.written, List.filterMap_map, ← List.filterMap_eq_map]
  refine List.filterMap_congr fun member own => ?_
  rw [Function.comp, Member.name?_written, Option.bind_some]
  exact if_pos (listed member own)

/-- Members that make up a document of a kind of record: each has a name that is asked for, no two have
the same one, and no required one is missing. -/
structure Suits {α : Type} (schema : Schema α) (members : List (String × Value)) : Prop where
  values : ∀ member ∈ members, IsValue member.2.bytes
  listed : ∀ member ∈ members, member.1 ∈ schema.names
  once : (members.map Prod.fst).Nodup
  complete : ∀ field ∈ schema.fields, field.required = true → field.name ∈ members.map Prod.fst

/-- A record is read from such members exactly if each has a value of its type. -/
theorem decode_written_iff {α : Type} {schema : Schema α} {record : Entries → α}
    (reads : schema.ReadsFields record) (suits : Suits schema members) (r : α) :
    schema.decode (Text.encode (Value.object members).write) = .ok r ↔
      (∀ member ∈ members, schema.fits member.1 member.2.bytes = true) ∧
        r = record (members.map fun member => (member.1, member.2.bytes)) := by
  have known := Document.known_written suits.values suits.listed
  rw [Document.known] at known
  have names : (members.map fun member => (member.1, member.2.bytes)).map Prod.fst =
      members.map Prod.fst := by
    rw [List.map_map]
    rfl
  rw [← Document.bytes_written suits.values, decode_document_iff reads, ← Document.isNamed_iff, known,
    names, List.forall_mem_map]
  constructor
  · rintro ⟨-, fits, -, -, same⟩
    exact ⟨fits, same⟩
  · rintro ⟨fits, same⟩
    exact ⟨Document.isNamed_written _, fits, suits.once, suits.complete, same⟩

end Written

/-! ## Written values -/

section Values

theorem IsInteger.isNumber {value : List UInt8} {n : Int} (form : IsInteger value n) :
    IsNumber value := by
  have magnitude {digits : List UInt8} (integral : IsIntegral digits) : IsMagnitude digits := by
    have form := IsMagnitude.parts integral .none .none
    rwa [List.append_nil, List.append_nil] at form
  cases form with
  | natural integral => exact .unsigned (magnitude integral)
  | negative integral => exact .negative (magnitude integral)

theorem isValue_text (s : String) : IsValue (Value.text s).bytes := by
  rw [Value.bytes, Value.write, encode_writeText]
  exact .text (spells_text _).isText

@[simp] theorem whole_text (s : String) : whole? readTextValue (Value.text s).bytes = some s :=
  ((judges_readTextValue (isValue_text s)).2 s).mpr ⟨_, encode_writeText s, spells_text _⟩

theorem isValue_double (x : Binary64) : IsValue (Value.double x).bytes := by
  cases finite : x.isFinite with
  | true => exact .number (isNumber_bytes finite).1
  | false =>
    rw [Value.double, finite, if_neg Bool.false_ne_true]
    exact .isNull

/-- A double is read again as one exactly if it is finite. -/
theorem isSome_double_iff (x : Binary64) :
    (whole? readDouble (Value.double x).bytes).isSome = true ↔ x.isFinite = true := by
  constructor
  · intro given
    cases finite : x.isFinite with
    | true => rfl
    | false =>
      rw [Value.double, finite, if_neg Bool.false_ne_true] at given
      exact absurd given (by decide +kernel)
  · exact fun finite => (isNumber_bytes finite).2

/-! Written values are of the types of the fields that they are written for. -/

variable {α : Type} {schema : Schema α} {types : List (String × FieldType)}
  (typed : schema.HasTypes types) {name : String}
include typed

theorem Schema.HasTypes.fits_text (own : (name, .text) ∈ types) (s : String) :
    schema.fits name (Value.text s).bytes = true := by
  refine (typed.fits _ own _ (isValue_text s)).mpr ((holds_text (isValue_text s)).mp ?_)
  rw [whole_text, Option.isSome_some]

theorem Schema.HasTypes.fits_integer {low high n : Int} (own : (name, .integer low high) ∈ types)
    {value : List UInt8} (form : IsInteger value n) (least : low ≤ n) (most : n ≤ high) :
    schema.fits name value = true :=
  (typed.fits _ own _ (.number form.isNumber)).mpr ⟨n, form, least, most⟩

theorem Schema.HasTypes.fits_double_iff (own : (name, .double) ∈ types) (x : Binary64) :
    schema.fits name (Value.double x).bytes = true ↔ x.isFinite = true := by
  rw [typed.fits _ own _ (isValue_double x), ← holds_double (isValue_double x), isSome_double_iff]

end Values

end Json

open Json (Value IsValue IsInteger whole? isValue_text isValue_double decode_written_iff)

namespace ProbeArgs

theorem suits (args : ProbeArgs) : Json.Suits schema args.toValue.members where
  values := List.forall_mem_singleton.mpr (isValue_text _)
  listed := List.forall_mem_singleton.mpr List.mem_cons_self
  once := List.nodup_singleton _
  complete := List.forall_mem_singleton.mpr fun _ => List.mem_cons_self

theorem decode_toValue (args : ProbeArgs) : decode (Text.encode args.toValue.write) = .ok args := by
  refine (decode_written_iff readsFields (suits args) args).mpr
    ⟨List.forall_mem_singleton.mpr (hasTypes.fits_text List.mem_cons_self _), ?_⟩
  simp [toValue, Value.members, ofEntries, Json.Entries.get_cons]

end ProbeArgs

namespace ProbeResult

theorem isInteger_integerValue (n : Int) : IsInteger (integerValue n).bytes n := by
  have same : (integerValue n).bytes = Text.encode (toString n) := by
    rw [integerValue]
    split_ifs with negative
    · rfl
    · have natural : toString n.toNat = toString n := by
        obtain ⟨m, rfl⟩ := Int.eq_ofNat_of_zero_le (Int.not_lt.mp negative)
        rfl
      rw [← natural]
      rfl
  rw [same]
  exact Json.isInteger_encode n

theorem isInteger_natural (n : Nat) : IsInteger (Value.natural n).bytes n :=
  Json.isInteger_encode n

@[simp] theorem whole_milestone (x : Int64) :
    whole? readMilestone (integerValue x.toInt).bytes = some x :=
  (whole_readMilestone_iff (.number (isInteger_integerValue _).isNumber) x).mpr
    (isInteger_integerValue _)

@[simp] theorem whole_code (code : UInt16) :
    whole? (Json.readInteger "u16" 0 0xFFFF) (Value.natural code.toNat).bytes =
      some (code.toNat : Int) := by
  have form := isInteger_natural code.toNat
  have most := code.toNat_lt
  exact ((Json.judges_readInteger (.number form.isNumber) "u16" (by decide) (by decide)).2 _).mpr
    ⟨form, by omega, by omega⟩

theorem fits_milestone {name : String} (own : (name, milestoneType) ∈ types) (x : Int64) :
    schema.fits name (integerValue x.toInt).bytes = true := by
  have least := x.le_toInt
  have most := x.toInt_lt
  exact hasTypes.fits_integer own (isInteger_integerValue _) (by omega) (by omega)

theorem fits_code {name : String} (own : (name, .integer 0 0xFFFF) ∈ types) (code : UInt16) :
    schema.fits name (Value.natural code.toNat).bytes = true := by
  have most := code.toNat_lt
  exact hasTypes.fits_integer own (isInteger_natural _) (by omega) (by omega)

theorem suits (r : ProbeResult) : Json.Suits schema r.toValue.members where
  values := by
    have text := Json.isValue_text
    have milestone (x : Int64) : IsValue (integerValue x.toInt).bytes :=
      .number (isInteger_integerValue _).isNumber
    have code (n : Nat) : IsValue (Value.natural n).bytes := .number (isInteger_natural n).isNumber
    simp [toValue, Value.members, text, milestone, code]
  listed := by simp [toValue, Value.members, Json.Schema.names, schema, textField, milestoneField,
    codeField]
  once := by
    have names : r.toValue.members.map Prod.fst = schema.names := rfl
    rw [names]
    decide
  complete field own _ := List.mem_map_of_mem own

theorem fits_toValue (r : ProbeResult) :
    ∀ member ∈ r.toValue.members, schema.fits member.1 member.2.bytes = true := by
  have text {name : String} (own : (name, .text) ∈ types) (s : String) :=
    hasTypes.fits_text own s
  simp only [toValue, Value.members, List.forall_mem_cons]
  refine ⟨text ?_ _, text ?_ _, fits_milestone ?_ _, fits_milestone ?_ _, fits_milestone ?_ _,
    fits_milestone ?_ _, fits_milestone ?_ _, fits_milestone ?_ _, fits_code ?_ _,
    List.forall_mem_nil _⟩ <;> simp [types]

/-- What is reported of a measurement is read again as it is. -/
theorem decode_toValue (r : ProbeResult) : decode (Text.encode r.toValue.write) = .ok r := by
  refine (decode_written_iff readsFields (suits r) r).mpr ⟨fits_toValue r, ?_⟩
  simp [toValue, Value.members, ofEntries, Json.Entries.get_cons]

end ProbeResult

namespace PopStatus

/-- An empty error is left out of the document of a status. -/
theorem members_toValue (s : PopStatus) : s.toValue.members =
    ("id", .text s.id) :: ("uptime", .double s.uptime) :: ("load", .double s.load) ::
      if s.error = "" then [] else [("error", .text s.error)] := rfl

theorem suits (s : PopStatus) : Json.Suits schema s.toValue.members where
  values := by
    have text := isValue_text
    have double := isValue_double
    rw [members_toValue]
    split_ifs <;> simp [text, double]
  listed := by
    rw [members_toValue]
    split_ifs <;> simp [Json.Schema.names, schema]
  once := by
    rw [members_toValue]
    split_ifs <;> simp
  complete field own required := by
    simp only [schema, List.mem_cons, List.not_mem_nil, or_false] at own
    rcases own with rfl | rfl | rfl | rfl <;> cases required

/-- A status is written with values of the types of its fields exactly if its numbers are finite. -/
theorem fits_toValue_iff (s : PopStatus) :
    (∀ member ∈ s.toValue.members, schema.fits member.1 member.2.bytes = true) ↔
      s.uptime.isFinite = true ∧ s.load.isFinite = true := by
  have uptime : schema.fits "uptime" (Value.double s.uptime).bytes = true ↔
      s.uptime.isFinite = true := hasTypes.fits_double_iff (by simp [types]) _
  have load : schema.fits "load" (Value.double s.load).bytes = true ↔
      s.load.isFinite = true := hasTypes.fits_double_iff (by simp [types]) _
  have id : schema.fits "id" (Value.text s.id).bytes = true :=
    hasTypes.fits_text (by simp [types]) _
  have error : schema.fits "error" (Value.text s.error).bytes = true :=
    hasTypes.fits_text (by simp [types]) _
  rw [members_toValue]
  split_ifs <;> simp only [List.forall_mem_cons, List.not_mem_nil, false_imp_iff, implies_true, uptime,
    load, id, error, true_and, and_true]

/-- A status with finite numbers is read again, with its identifier and its error. -/
theorem decode_toValue (s : PopStatus) (uptime : s.uptime.isFinite = true)
    (load : s.load.isFinite = true) :
    ∃ s', decode (Text.encode s.toValue.write) = .ok s' ∧ s'.id = s.id ∧ s'.error = s.error := by
  refine ⟨_, (decode_written_iff readsFields (suits s) _).mpr
    ⟨(fits_toValue_iff s).mpr ⟨uptime, load⟩, rfl⟩, ?_⟩
  rw [members_toValue]
  split_ifs with none <;> simp [ofEntries, Json.Entries.get_cons, none]

/-- A status with a number that is not finite is not read again. -/
theorem decode_toValue_error (s : PopStatus)
    (infinite : s.uptime.isFinite = false ∨ s.load.isFinite = false) :
    ∃ fault, decode (Text.encode s.toValue.write) = .error fault := by
  cases decoded : decode (Text.encode s.toValue.write) with
  | error fault => exact ⟨fault, rfl⟩
  | ok r =>
    obtain ⟨uptime, load⟩ := (fits_toValue_iff s).mp
      ((decode_written_iff readsFields (suits s) r).mp decoded).1
    rw [uptime, load] at infinite
    simp at infinite

end PopStatus

/-- Records are read again from the documents that are written for them: measurements and what is asked of
a prober as they are, and statuses up to their numbers if these are finite. A status of which one is not
is refused. -/
theorem written_records_read_back :
    (∀ r : ProbeResult, ProbeResult.decode (Text.encode r.toValue.write) = .ok r) ∧
    (∀ args : ProbeArgs, ProbeArgs.decode (Text.encode args.toValue.write) = .ok args) ∧
    (∀ s : PopStatus, s.uptime.isFinite = true → s.load.isFinite = true →
      ("error" ∈ s.toValue.members.map Prod.fst ↔ s.error ≠ "") ∧
      ∃ s', PopStatus.decode (Text.encode s.toValue.write) = .ok s' ∧
        s'.id = s.id ∧ s'.error = s.error ∧ s'.isHealthy = s.isHealthy) ∧
    ∀ s : PopStatus, s.uptime.isFinite = false ∨ s.load.isFinite = false →
      ∃ fault, PopStatus.decode (Text.encode s.toValue.write) = .error fault := by
  refine ⟨ProbeResult.decode_toValue, ProbeArgs.decode_toValue, fun s uptime load => ⟨?_, ?_⟩,
    PopStatus.decode_toValue_error⟩
  · rw [PopStatus.members_toValue]
    split_ifs with none <;> simp [none]
  · obtain ⟨s', decoded, id, error⟩ := PopStatus.decode_toValue s uptime load
    exact ⟨s', decoded, id, error, by rw [PopStatus.isHealthy, PopStatus.isHealthy, error]⟩

/-- A status whose identifier has a quote, a backslash, a line feed and a clef in it and whose load is the
greatest double, and one that has been up for an infinite time. -/
theorem written_statuses_read_back :
    let id := String.ofList ([0x22, 0x5C, 0x0A, 0x1D11E].map Char.ofNat)
    (∃ s, PopStatus.decode (Text.encode
        (⟨id, .ofNat 86400, ⟨0x7FEFFFFFFFFFFFFF⟩, ""⟩ : PopStatus).toValue.write) = .ok s ∧
      s.id = id ∧ s.error = "" ∧ s.isHealthy = true) ∧
    ∃ fault, PopStatus.decode (Text.encode
      (⟨id, .infinity false, .zero, "down"⟩ : PopStatus).toValue.write) = .error fault := by
  obtain ⟨-, -, finite, infinite⟩ := written_records_read_back
  exact ⟨(finite _ (by decide +kernel) (by decide)).2, infinite _ (.inl (by decide))⟩

end Steering
