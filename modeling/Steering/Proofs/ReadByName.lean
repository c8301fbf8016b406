import Steering.Proofs.RecordFields
/-! Documents are read by name and not by layout: the order of the members, the blanks between them and
members that nobody asked for do not matter. What a record has no member for is at its default, and what
it has two members for is refused. -/

namespace Steering.Json

/-- A name that a kind of record has no field for. -/
def Member.IsUnknown (names : List String) (m : Member) : Prop :=
  ∃ name, SpellsText m.key (String.toList name) ∧ name ∉ names

/-- Documents that differ in their layout: in blanks, in the order of their members, or in members with
unknown names and whatever values. -/
inductive Rearranged (names : List String) : Document → Document → Prop
  | respaced {d d' : Document}
      (same : d.members.map (fun m => (m.key, m.value)) = d'.members.map fun m => (m.key, m.value)) :
      Rearranged names d d'
  | reordered {d d' : Document} (perm : d.members.Perm d'.members) : Rearranged names d d'
  | inserted {d d' : Document} {m : Member} {front back : List Member} (unknown : m.IsUnknown names)
      (without : d.members = front ++ back) (within : d'.members = front ++ m :: back) :
      Rearranged names d d'
  | symm {d d' : Document} (other : Rearranged names d d') : Rearranged names d' d
  | trans {d d' d'' : Document} (first : Rearranged names d d') (second : Rearranged names d' d'') :
      Rearranged names d d''

/-- Whether every key of a document spells a name. -/
def Document.IsNamed (d : Document) : Prop :=
  ∀ m ∈ d.members, ∃ name, SpellsText m.key (String.toList name)

/-- What a document gives for given names. -/
def Document.known (names : List String) (d : Document) : Entries :=
  Json.known names d.members

theorem isSome_name?_iff {m : Member} (spaced : m.Spaced) :
    m.name?.isSome = true ↔ ∃ name, SpellsText m.key (String.toList name) := by
  simp only [Option.isSome_iff_exists, Member.name?, spelled?_eq_some_iff spaced.key]

theorem Document.isNamed_iff (d : Document) :
    d.IsNamed ↔ ∀ m ∈ d.members, m.name?.isSome = true := by
  constructor
  · exact fun named m member => (isSome_name?_iff (d.spaced m member)).mpr (named m member)
  · exact fun named m member => (isSome_name?_iff (d.spaced m member)).mp (named m member)

/-- A member with an unknown name gives nothing. -/
theorem Member.IsUnknown.known {names : List String} {m : Member} (unknown : m.IsUnknown names)
    (spaced : m.Spaced) : known names [m] = [] := by
  obtain ⟨name, spells, other⟩ := unknown
  have named : m.name? = some name := (spelled?_eq_some_iff spaced.key).mpr spells
  simp [Json.known, named, other]

/-- Documents that differ in their layout only have the same names and give the same. -/
theorem Rearranged.keeps {names : List String} {d d' : Document} (rearranged : Rearranged names d d') :
    (d.IsNamed ↔ d'.IsNamed) ∧ (d.known names).Perm (d'.known names) := by
  induction rearranged with
  | @respaced d d' same =>
    -- Both depend on the keys and values of the members only.
    have named (d : Document) : d.IsNamed ↔ ∀ entry ∈ d.members.map fun m => (m.key, m.value),
        ∃ name, SpellsText entry.1 (String.toList name) := by
      rw [List.forall_mem_map]
      rfl
    have given (d : Document) : d.known names =
        (d.members.map fun m => (m.key, m.value)).filterMap fun entry => (spelled? entry.1).bind
          fun name => if name ∈ names then some (name, entry.2) else none := by
      rw [List.filterMap_map]
      rfl
    rw [named, named, given, given, same]
    exact ⟨Iff.rfl, .refl _⟩
  | @reordered d d' perm =>
    exact ⟨forall_congr' fun m => imp_congr_left perm.mem_iff, perm.filterMap _⟩
  | @inserted d d' m front back unknown without within =>
    have spaced : m.Spaced := d'.spaced m (within ▸ List.mem_append_right _ List.mem_cons_self)
    have nothing := unknown.known spaced
    obtain ⟨name, spells, -⟩ := unknown
    constructor
    · simp only [Document.IsNamed, without, within, List.forall_mem_append, List.forall_mem_cons]
      exact ⟨fun named => ⟨named.1, ⟨name, spells⟩, named.2⟩, fun named => ⟨named.1, named.2.2⟩⟩
    · rw [Document.known, Document.known, without, within, ← List.singleton_append, known_append,
        known_append, known_append, nothing, List.nil_append]
  | symm _ ih => exact ⟨ih.1.symm, ih.2.symm⟩
  | trans _ _ first second => exact ⟨first.1.trans second.1, first.2.trans second.2⟩

variable {α : Type}

/-- How a kind of record is read from documents, given the names and types of its fields, the names that
are required and the record that some entries make. -/
structure ReadsByName (decode : List UInt8 → Except Fault α) (types : List (String × FieldType))
    (required : List String) (record : Entries → α) : Prop where
  /-- Layout does not matter. -/
  layout : ∀ d d', Rearranged (types.map Prod.fst) d d' →
    ∀ r, decode d.bytes = .ok r → decode d'.bytes = .ok r
  /-- If no field is given again and each has a value of its type, a document with names for keys is read
  exactly if what is required is there. A key that names nothing is refused. -/
  once : ∀ d : Document, ((d.known (types.map Prod.fst)).map Prod.fst).Nodup →
    (∀ entry ∈ d.known (types.map Prod.fst), ∀ type, (entry.1, type) ∈ types → type.Holds entry.2) →
      ((∃ r, decode d.bytes = .ok r) ↔ d.IsNamed ∧
        ∀ name ∈ required, name ∈ (d.known (types.map Prod.fst)).map Prod.fst) ∧
      ∀ r, decode d.bytes = .ok r → r = record (d.known (types.map Prod.fst))
  /-- A field that is given again is refused. -/
  again : ∀ d : Document, ¬ ((d.known (types.map Prod.fst)).map Prod.fst).Nodup →
    ∃ fault, decode d.bytes = .error fault

theorem exists_of_mem_known {names : List String} {members : List Member}
    {entry : String × List UInt8} (given : entry ∈ known names members) :
    entry.1 ∈ names ∧ ∃ m ∈ members, entry.2 = m.value := by
  obtain ⟨m, member, its⟩ := List.mem_filterMap.mp given
  obtain ⟨name, -, its⟩ := Option.bind_eq_some_iff.mp its
  rw [Option.ite_none_right_eq_some, Option.some.injEq] at its
  obtain ⟨listed, rfl⟩ := its
  exact ⟨listed, m, member, rfl⟩

section Schema

variable {schema : Schema α} {record : Entries → α} {types : List (String × FieldType)}
  (reads : schema.ReadsFields record) (typed : schema.HasTypes types)
include typed

/-- What a document gives for a field is of the field's type if it is of each type listed for it. -/
theorem fits_iff_holds (d : Document) {entry : String × List UInt8}
    (given : entry ∈ d.known (types.map Prod.fst)) :
    schema.fits entry.1 entry.2 = true ↔
      ∀ type, (entry.1, type) ∈ types → type.Holds entry.2 := by
  obtain ⟨listed, m, member, its⟩ := exists_of_mem_known given
  have form : IsValue entry.2 := its ▸ d.values m member
  obtain ⟨⟨name, type⟩, own, rfl⟩ := List.mem_map.mp listed
  constructor
  · exact fun fits type own => (typed.fits _ own _ form).mp fits
  · exact fun holds => (typed.fits _ own _ form).mpr (holds _ own)

include reads

/-- What has to hold of a document for a record to be read from it. -/
theorem decode_known_iff (d : Document) (r : α) :
    schema.decode d.bytes = .ok r ↔ d.IsNamed ∧
      (∀ entry ∈ d.known (types.map Prod.fst), schema.fits entry.1 entry.2 = true) ∧
      ((d.known (types.map Prod.fst)).map Prod.fst).Nodup ∧
      (∀ name ∈ (schema.fields.filter (·.required)).map (·.name),
        name ∈ (d.known (types.map Prod.fst)).map Prod.fst) ∧
      r = record (d.known (types.map Prod.fst)) := by
  rw [decode_document_iff reads, ← Document.isNamed_iff, typed.names, List.forall_mem_map,
    List.forall_mem_filter]
  rfl

/-- A kind of record that is read field by field is read by name. -/
theorem readsByName :
    ReadsByName schema.decode types ((schema.fields.filter (·.required)).map (·.name)) record where
  layout d d' rearranged r decoded := by
    obtain ⟨named, perm⟩ := rearranged.keeps
    obtain ⟨names, fits, once, complete, rfl⟩ := (decode_known_iff reads typed d r).mp decoded
    refine (decode_known_iff reads typed d' _).mpr ⟨named.mp names, ?_, ?_, ?_, ?_⟩
    · exact fun entry given => fits entry (perm.mem_iff.mpr given)
    · exact (perm.map Prod.fst).nodup_iff.mp once
    · exact fun name required => (perm.map Prod.fst).mem_iff.mp (complete name required)
    · exact reads.same _ _ perm once
  once d once holds := by
    have fits := fun entry given => (fits_iff_holds typed d given).mpr (holds entry given)
    constructor
    · constructor
      · rintro ⟨r, decoded⟩
        obtain ⟨named, -, -, complete, -⟩ := (decode_known_iff reads typed d r).mp decoded
        exact ⟨named, complete⟩
      · rintro ⟨named, complete⟩
        exact ⟨_, (decode_known_iff reads typed d _).mpr ⟨named, fits, once, complete, rfl⟩⟩
    · intro r decoded
      exact ((decode_known_iff reads typed d r).mp decoded).2.2.2.2
  again d twice := by
    cases decoded : schema.decode d.bytes with
    | error fault => exact ⟨fault, rfl⟩
    | ok r => exact absurd ((decode_known_iff reads typed d r).mp decoded).2.2.1 twice

end Schema

end Steering.Json

namespace Steering

/-- Measurements and statuses are read by name and not by layout, from every text of an object. -/
theorem documents_read_by_name :
    (∀ before value behind, Json.IsBlank before → Json.IsValue value → value.head? = some 0x7B →
      Json.IsBlank behind → ∃ d : Json.Document, d.bytes = before ++ (value ++ behind)) ∧
    Json.ReadsByName ProbeResult.decode ProbeResult.types ["start", "first_byte"]
      ProbeResult.ofEntries ∧
    Json.ReadsByName PopStatus.decode PopStatus.types [] PopStatus.ofEntries :=
  ⟨fun _ _ _ before form opens behind => Json.exists_document before form opens behind,
    Json.readsByName ProbeResult.readsFields ProbeResult.hasTypes,
    Json.readsByName PopStatus.readsFields PopStatus.hasTypes⟩

-- The same two milestones, in the other order, with blanks and behind a list that nobody asked for.
example :
    (ProbeResult.decode (Text.encode "\x7b\"start\":1,\"first_byte\":5\x7d")).toOption =
        some { ProbeResult.blank with start := 1, firstByte := 5 } ∧
      (ProbeResult.decode (Text.encode
        "\x7b \"notes\" : [\x7b\x7d, null] , \"first_byte\" : 5 , \"start\":1 \x7d\n")).toOption =
          some { ProbeResult.blank with start := 1, firstByte := 5 } := by
  decide +kernel

end Steering
