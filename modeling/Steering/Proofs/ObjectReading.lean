import Mathlib.Tactic.Common
import Steering.Proofs.ValueReading
/-! Records are read from objects by name. What is read depends on the names and values of the members
that the record has a field for, and on nothing else in the document. -/

namespace Steering.Json

/-- An object with everything around it: the whole text of a document. -/
structure Document where
  before : List UInt8
  members : List Member
  inner : List UInt8
  behind : List UInt8
  blank_before : IsBlank before
  blank_inner : IsBlank inner
  blank_behind : IsBlank behind
  spaced : ∀ m ∈ members, m.Spaced
  values : ∀ m ∈ members, IsValue m.value

/-- The text of a document. -/
def Document.bytes (d : Document) : List UInt8 :=
  d.before ++ (objectBytes d.members d.inner ++ d.behind)

/-- Every object with blanks around it is the text of a document. -/
theorem exists_document {before value behind : List UInt8} (before_blank : IsBlank before)
    (form : IsValue value) (opens : value.head? = some 0x7B) (behind_blank : IsBlank behind) :
    ∃ d : Document, d.bytes = before ++ (value ++ behind) := by
  cases form with
  | object blank spaced values =>
    exact ⟨⟨before, _, _, behind, before_blank, blank, behind_blank, spaced, values⟩, rfl⟩
  | number number =>
    cases number with
    | unsigned magnitude =>
      obtain ⟨b, tail, rfl, digit⟩ := magnitude.exists_cons
      cases opens
      cases digit
    | negative => cases opens
  | _ => cases opens

/-- The name of a member. A key that spells no text names nothing. -/
def Member.name? (m : Member) : Option String :=
  spelled? m.key

/-- Names and the bytes of their values. -/
abbrev Entries := List (String × List UInt8)

/-- What some members give for given names, in their order. -/
def known (names : List String) (members : List Member) : Entries :=
  members.filterMap fun m => m.name?.bind fun name =>
    if name ∈ names then some (name, m.value) else none

variable {α : Type}

namespace Schema

variable (schema : Schema α)

/-- The names of the fields of a kind of record. -/
def names : List String :=
  schema.fields.map (·.name)

theorem isSome_field?_iff {name : String} :
    (schema.field? name).isSome = true ↔ name ∈ schema.names := by
  simp [field?, names]

/-- Whether a value is of the type of the field that has a given name. -/
def fits (name : String) (value : List UInt8) : Bool :=
  (schema.field? name).any fun field => (whole? (field.read schema.initial) value).isSome

/-- Adds what a member gives to what others gave before it, unless it is to be refused. -/
def take? (done : Entries) (m : Member) : Option Entries :=
  m.name?.bind fun name =>
    if name ∈ schema.names then
      if name ∈ done.map Prod.fst then none
      else if schema.fits name m.value then some ((name, m.value) :: done)
      else none
    else some done

/-- Adds what some members give, one after another. -/
def takeAll? (done : Entries) : List Member → Option Entries
  | [] => some done
  | m :: members => (schema.take? done m).bind fun done => takeAll? done members

/-- A kind of record that is read field by field: what is read depends on the fields that are given. -/
structure ReadsFields (schema : Schema α) (record : Entries → α) : Prop where
  initial : record [] = schema.initial
  judges : ∀ field ∈ schema.fields, ∀ value, IsValue value → ∀ done,
    JudgesValue (field.read (record done)) value
      (if (whole? (field.read schema.initial) value).isSome then some (record ((field.name, value) :: done))
        else none)
  same : ∀ some other : Entries, some.Perm other → (some.map Prod.fst).Nodup → record some = record other

/-- The record that some fields make, if none is missing. -/
def finish? (record : Entries → α) (done : Entries) : Option α :=
  if (schema.missing? (done.map Prod.fst)).isNone then some (record done) else none

end Schema

/-! ## Members -/

/-- What is known of reading a member: which fields are given after it, or a fault. -/
def Gives (record : Entries → α) (result : Except Fault (α × List String × Cursor))
    (rest : List UInt8) : Option Entries → Prop
  | some done => ∃ next, result = .ok (record done, done.map Prod.fst, ⟨rest, next⟩)
  | none => ∃ fault, result = .error fault

section Member

variable {schema : Schema α} {record : Entries → α} {m : Member} (spaced : m.Spaced)
  {rest : List UInt8}
include spaced

theorem Member.Spaced.readColon (rest : List UInt8) (index : Nat) :
    ∃ next, Schema.readColon ⟨m.tail ++ rest, index⟩ =
      .ok ⟨m.after ++ (m.value ++ (m.behind ++ rest)), next⟩ := by
  refine ⟨index + m.between.length + 1, ?_⟩
  rw [Schema.readColon, spaced.skipBlanks_tail]
  rfl

/-- What becomes of a member is decided by the field that its name stands for. -/
theorem readMember_named {name : String} (named : m.name? = some name) (index : Nat) :
    ∃ quoted colon, ∀ record seen, schema.readMember record seen
        ⟨m.key ++ 0x22 :: (m.tail ++ rest), index⟩ =
      match schema.field? name with
      | some field =>
        if seen.contains name then .error (Schema.repeated name ⟨m.tail ++ rest, quoted⟩)
        else (field.read record ⟨m.after ++ (m.value ++ (m.behind ++ rest)), colon⟩).map
          fun (record, c) => (record, name :: seen, c)
      | none =>
        (skipValue ⟨m.after ++ (m.value ++ (m.behind ++ rest)), colon⟩).map (record, seen, ·) := by
  have key := yields_readText spaced.key (m.tail ++ rest) index
  rw [Member.name?] at named
  rw [named] at key
  obtain ⟨quoted, key⟩ := key
  obtain ⟨colon, separated⟩ := spaced.readColon rest quoted
  refine ⟨quoted, colon, fun record seen => ?_⟩
  simp only [Schema.readMember, key, bind, Except.bind, separated, pure, Except.pure]
  cases schema.field? name with
  | none =>
    cases skipValue ⟨m.after ++ (m.value ++ (m.behind ++ rest)), colon⟩ <;> rfl
  | some field =>
    split_ifs
    · rfl
    · cases field.read record ⟨m.after ++ (m.value ++ (m.behind ++ rest)), colon⟩ <;> rfl

omit spaced in
/-- A field is read from a value that fits it, and from no other. -/
theorem Schema.ReadsFields.judges_fits (reads : schema.ReadsFields record) {name : String}
    {field : Field α} (known : schema.field? name = some field) (form : IsValue m.value)
    (done : Entries) : JudgesValue (field.read (record done)) m.value
      (if schema.fits name m.value = true then some (record ((name, m.value) :: done)) else none) := by
  have own : field ∈ schema.fields := List.mem_of_find?_eq_some known
  have same : field.name = name := by simpa using List.find?_some known
  have judged := reads.judges field own m.value form done
  rwa [same, ← Option.any_some (p := fun field : Field α =>
    (whole? (field.read schema.initial) m.value).isSome), ← known, ← Schema.fits] at judged

/-- A member is read for what it gives to the record. -/
theorem gives_readMember (reads : schema.ReadsFields record) (form : IsValue m.value)
    (ends : Ends rest) (done : Entries) (index : Nat) :
    Gives record (schema.readMember (record done) (done.map Prod.fst)
      ⟨m.key ++ 0x22 :: (m.tail ++ rest), index⟩) (m.behind ++ rest) (schema.take? done m) := by
  cases named : m.name? with
  | none =>
    have key := yields_readText spaced.key (m.tail ++ rest) index
    rw [Member.name?] at named
    rw [named] at key
    obtain ⟨fault, key⟩ := key
    rw [Schema.take?, Member.name?, named]
    exact ⟨fault, by rw [Schema.readMember, key]; rfl⟩
  | some name =>
    have follows : Ends (m.behind ++ rest) := ends_append spaced.behind ends
    obtain ⟨quoted, colon, step⟩ := @readMember_named _ schema m spaced rest name named index
    rw [step, Schema.take?, named, Option.bind_some]
    cases known : schema.field? name with
    | none =>
      have unknown : name ∉ schema.names := by simp [← Schema.isSome_field?_iff, known]
      obtain ⟨next, skipped⟩ := form.skipValue spaced.after follows colon
      rw [if_neg unknown]
      exact ⟨next, by rw [skipped]; rfl⟩
    | some field =>
      have listed : name ∈ schema.names := by simp [← Schema.isSome_field?_iff, known]
      have judged := reads.judges_fits known form done m.after (m.behind ++ rest) spaced.after
        follows colon
      simp only [listed, if_true, List.contains_iff_mem]
      by_cases again : name ∈ done.map Prod.fst
      · rw [if_pos again, if_pos again]
        exact ⟨_, rfl⟩
      · rw [if_neg again, if_neg again]
        by_cases typed : schema.fits name m.value = true
        · rw [if_pos typed] at judged ⊢
          obtain ⟨next, judged⟩ := judged
          exact ⟨next, by rw [judged]; rfl⟩
        · rw [if_neg typed] at judged ⊢
          obtain ⟨fault, judged⟩ := judged
          exact ⟨fault, by rw [judged]; rfl⟩

end Member

/-! ## Objects -/

section Object

variable {schema : Schema α} {record : Entries → α} (reads : schema.ReadsFields record)
  {rest inner : List UInt8} {fuel : Nat}

/-- The key of a member, after the comma before it if it is not the first one. -/
theorem Member.Spaced.nextKey {m : Member} (spaced : m.Spaced) (tail : List UInt8) (index : Nat) :
    (∃ next, Schema.nextKey true ⟨m.bytes ++ tail, index⟩ =
      .ok (some ⟨m.key ++ 0x22 :: (m.tail ++ tail), next⟩)) ∧
    ∀ behind, IsBlank behind → ∃ next,
      Schema.nextKey false ⟨behind ++ 0x2C :: (m.bytes ++ tail), index⟩ =
        .ok (some ⟨m.key ++ 0x22 :: (m.tail ++ tail), next⟩) := by
  have split : m.bytes ++ tail = m.before ++ 0x22 :: (m.key ++ 0x22 :: (m.tail ++ tail)) := by
    simp only [bytes, List.append_assoc, List.cons_append]
  have ahead (index : Nat) :
      (⟨m.before ++ 0x22 :: (m.key ++ 0x22 :: (m.tail ++ tail)), index⟩ : Cursor).skipBlanks =
        ⟨0x22 :: (m.key ++ 0x22 :: (m.tail ++ tail)), index + m.before.length⟩ :=
    skipBlanks_visible spaced.before (by decide)
  rw [split]
  refine ⟨⟨index + m.before.length + 1, ?_⟩, fun behind blanks =>
    ⟨index + behind.length + 1 + m.before.length + 1, ?_⟩⟩
  · rw [Schema.nextKey, ahead]
    rfl
  · rw [Schema.nextKey, skipBlanks_visible blanks (by decide)]
    simp only [Cursor.peek?, List.head?_cons, Cursor.advance, ahead]
    rfl

theorem nextKey_closing (first : Bool) {blank : List UInt8} (blanks : IsBlank blank) (index : Nat) :
    Schema.nextKey first ⟨blank ++ 0x7D :: rest, index⟩ = .ok none := by
  rw [Schema.nextKey, skipBlanks_visible blanks (by decide)]
  rfl

theorem yields_finishObject (record : Entries → α) (done : Entries) {blank : List UInt8}
    (blanks : IsBlank blank) (index : Nat) :
    Yields (schema.finishObject (record done) (done.map Prod.fst) ⟨blank ++ 0x7D :: rest, index⟩) rest
      (schema.finish? record done) := by
  rw [Schema.finishObject, skipBlanks_visible blanks (by decide), Schema.finish?]
  cases schema.missing? (done.map Prod.fst) with
  | none => exact ⟨_, rfl⟩
  | some field => exact ⟨_, rfl⟩

include reads

/-- One member is read, and then the others are. -/
theorem yields_member {m : Member} {others : List Member} {tail : List UInt8} {first : Bool}
    {c : Cursor} {index : Nat} (spaced : m.Spaced) (form : IsValue m.value) (ends : Ends tail)
    (next : Schema.nextKey first c = .ok (some ⟨m.key ++ 0x22 :: (m.tail ++ tail), index⟩))
    (goes : ∀ done index, Yields (schema.readMembers fuel false (record done) (done.map Prod.fst)
      ⟨m.behind ++ tail, index⟩) rest ((schema.takeAll? done others).bind (schema.finish? record)))
    (done : Entries) :
    Yields (schema.readMembers (fuel + 1) first (record done) (done.map Prod.fst) c) rest
      ((schema.takeAll? done (m :: others)).bind (schema.finish? record)) := by
  have given := gives_readMember spaced reads form ends done index
  rw [Schema.readMembers, next, Schema.takeAll?]
  cases taken : schema.take? done m with
  | none =>
    rw [taken] at given
    obtain ⟨fault, given⟩ := given
    simp only [given]
    exact ⟨fault, rfl⟩
  | some more =>
    rw [taken] at given
    obtain ⟨after, given⟩ := given
    simp only [given, Option.bind_some]
    exact goes more after

/-- The members after the first one are read up to the end of their object. -/
theorem yields_others (blanks : IsBlank inner) {others : List Member}
    (spaced : ∀ m ∈ others, m.Spaced) (values : ∀ m ∈ others, IsValue m.value)
    (enough : others.length < fuel) (done : Entries) {behind : List UInt8} (gap : IsBlank behind)
    (index : Nat) :
    Yields (schema.readMembers fuel false (record done) (done.map Prod.fst)
      ⟨behind ++ ((others.map Member.bytes).flatMap (0x2C :: ·) ++ (inner ++ 0x7D :: rest)), index⟩)
      rest ((schema.takeAll? done others).bind (schema.finish? record)) := by
  induction others generalizing fuel done behind index with
  | nil =>
    obtain ⟨fuel, rfl⟩ := Nat.exists_eq_add_of_lt enough
    have all : IsBlank (behind ++ inner) := fun b member =>
      (List.mem_append.mp member).elim (gap b) (blanks b)
    rw [List.map_nil, List.flatMap_nil, List.nil_append, ← List.append_assoc, Schema.readMembers,
      nextKey_closing false all]
    exact yields_finishObject record done all index
  | cons m others ih =>
    obtain ⟨fuel, rfl⟩ : ∃ less, fuel = less + 1 := ⟨fuel - 1, by omega⟩
    obtain ⟨own, others'⟩ := List.forall_mem_cons.mp spaced
    obtain ⟨form, forms⟩ := List.forall_mem_cons.mp values
    obtain ⟨-, key⟩ := own.nextKey
      ((others.map Member.bytes).flatMap (0x2C :: ·) ++ (inner ++ 0x7D :: rest)) index
    obtain ⟨next, key⟩ := key behind gap
    rw [List.map_cons, List.flatMap_cons, List.cons_append, List.cons_append, List.append_assoc]
    exact yields_member reads own form (ends_others blanks (.inr rfl) _) key
      (fun done index => ih others' forms (Nat.lt_of_succ_lt_succ enough) done own.behind index) done

/-- The members of an object are read up to its end. -/
theorem yields_members (blanks : IsBlank inner) {members : List Member}
    (spaced : ∀ m ∈ members, m.Spaced) (values : ∀ m ∈ members, IsValue m.value)
    (enough : members.length < fuel) (index : Nat) :
    Yields (schema.readMembers fuel true schema.initial []
      ⟨separated (members.map Member.bytes) ++ (inner ++ 0x7D :: rest), index⟩)
      rest ((schema.takeAll? [] members).bind (schema.finish? record)) := by
  rw [← reads.initial]
  cases members with
  | nil =>
    obtain ⟨fuel, rfl⟩ := Nat.exists_eq_add_of_lt enough
    rw [List.map_nil, separated, List.nil_append, Schema.readMembers, nextKey_closing true blanks]
    exact yields_finishObject record [] blanks index
  | cons m others =>
    obtain ⟨fuel, rfl⟩ : ∃ less, fuel = less + 1 := ⟨fuel - 1, by omega⟩
    obtain ⟨own, others'⟩ := List.forall_mem_cons.mp spaced
    obtain ⟨form, forms⟩ := List.forall_mem_cons.mp values
    obtain ⟨⟨next, key⟩, -⟩ := own.nextKey
      ((others.map Member.bytes).flatMap (0x2C :: ·) ++ (inner ++ 0x7D :: rest)) index
    rw [List.map_cons, separated, List.append_assoc]
    exact yields_member reads own form (ends_others blanks (.inr rfl) _) key
      (fun done index => yields_others reads blanks others' forms (Nat.lt_of_succ_lt_succ enough) done
        own.behind index) []

omit reads in
theorem length_le_separated (parts : List (List UInt8)) :
    parts.length ≤ (separated parts).length + 1 := by
  have others (parts : List (List UInt8)) : parts.length ≤ (parts.flatMap (0x2C :: ·)).length := by
    induction parts with
    | nil => exact Nat.le_refl _
    | cons part parts ih =>
      rw [List.flatMap_cons, List.length_append, List.length_cons, List.length_cons]
      omega
  cases parts with
  | nil => exact Nat.zero_le _
  | cons part parts =>
    have few := others parts
    rw [separated, List.length_append, List.length_cons]
    omega

/-- A document is read exactly if its members are all taken and no field is missing. -/
theorem decode_eq_ok_iff (d : Document) (r : α) :
    schema.decode d.bytes = .ok r ↔
      (schema.takeAll? [] d.members).bind (schema.finish? record) = some r := by
  obtain ⟨text, its⟩ : ∃ text, text = separated (d.members.map Member.bytes) ++
    (d.inner ++ 0x7D :: d.behind) := ⟨_, rfl⟩
  have enough : d.members.length < (0x7B :: text).length + 1 := by
    have few := length_le_separated (d.members.map Member.bytes)
    rw [List.length_map] at few
    rw [its, List.length_cons, List.length_append]
    omega
  have yields := @yields_members _ _ _ reads d.behind _ _ d.blank_inner _ d.spaced d.values enough
    (0 + d.before.length + 1)
  have split : d.bytes = d.before ++ 0x7B :: text := by
    simp only [its, Document.bytes, objectBytes, List.cons_append, List.append_assoc,
      List.nil_append]
  have read : schema.read (.start d.bytes) = schema.readMembers ((0x7B :: text).length + 1) true
      schema.initial [] ⟨text, 0 + d.before.length + 1⟩ := by
    rw [Schema.read, Cursor.start, split, skipBlanks_visible d.blank_before (by decide)]
    rfl
  rw [← its, ← read] at yields
  rw [Schema.decode]
  cases verdict : (schema.takeAll? [] d.members).bind (schema.finish? record) with
  | none =>
    rw [verdict] at yields
    obtain ⟨fault, read⟩ := yields
    rw [read]
    constructor
    · intro decoded
      cases decoded
    · intro finished
      cases finished
  | some x =>
    rw [verdict] at yields
    obtain ⟨next, read⟩ := yields
    have ended := @skipBlanks_append d.behind [] next d.blank_behind (by simp)
    rw [List.append_nil] at ended
    rw [read, Option.some.injEq]
    simp only [bind, Except.bind, ended, if_true, Except.ok.injEq]

end Object

/-! ## What is taken -/

section Taken

variable {schema : Schema α} {m : Member} {members : List Member} {done : Entries}

theorem known_append (names : List String) (some others : List Member) :
    known names (some ++ others) = known names some ++ known names others :=
  List.filterMap_append

theorem known_singleton (names : List String) (m : Member) :
    known names [m] = [] ∨ ∃ entry, known names [m] = [entry] := by
  rw [known, List.filterMap_cons]
  split
  · exact .inl rfl
  · exact .inr ⟨_, rfl⟩

/-- A member is taken if it has a name, and if this is a field's, then for the first time and with a value
of the field's type. -/
theorem take?_eq_some_iff {more : Entries} : schema.take? done m = some more ↔
    m.name?.isSome = true ∧ (∀ entry ∈ known schema.names [m], schema.fits entry.1 entry.2 = true) ∧
      (∀ entry ∈ known schema.names [m], entry.1 ∉ done.map Prod.fst) ∧
        more = known schema.names [m] ++ done := by
  rw [Schema.take?]
  cases named : m.name? with
  | none => exact ⟨nofun, fun taken => absurd taken.1 Bool.false_ne_true⟩
  | some name =>
    rw [Option.bind_some]
    by_cases listed : name ∈ schema.names
    · have own : known schema.names [m] = [(name, m.value)] := by
        simp [known, named, listed]
      rw [own, if_pos listed, Option.ite_none_left_eq_some, Option.ite_none_right_eq_some,
        Option.some.injEq, List.forall_mem_singleton, List.forall_mem_singleton]
      constructor
      · rintro ⟨new, typed, rfl⟩
        exact ⟨rfl, typed, new, rfl⟩
      · rintro ⟨-, typed, new, rfl⟩
        exact ⟨new, typed, rfl⟩
    · have own : known schema.names [m] = [] := by simp [known, named, listed]
      rw [own, if_neg listed, Option.some.injEq]
      constructor
      · rintro rfl
        exact ⟨rfl, List.forall_mem_nil _, List.forall_mem_nil _, rfl⟩
      · rintro ⟨-, -, -, rfl⟩
        rfl

/-- Members are taken if each is, and no two of them for the same field. -/
theorem takeAll?_eq_some_iff {all : Entries} : schema.takeAll? done members = some all ↔
    (∀ m ∈ members, m.name?.isSome = true) ∧
      (∀ entry ∈ known schema.names members, schema.fits entry.1 entry.2 = true) ∧
        ((known schema.names members).map Prod.fst).Nodup ∧
          (∀ entry ∈ known schema.names members, entry.1 ∉ done.map Prod.fst) ∧
            all = (known schema.names members).reverse ++ done := by
  induction members generalizing done with
  | nil =>
    rw [Schema.takeAll?, Option.some.injEq]
    constructor
    · rintro rfl
      exact ⟨List.forall_mem_nil _, List.forall_mem_nil _, List.nodup_nil, List.forall_mem_nil _, rfl⟩
    · rintro ⟨-, -, -, -, rfl⟩
      rfl
  | cons m members ih =>
    rw [Schema.takeAll?, Option.bind_eq_some_iff, ← List.singleton_append, known_append]
    simp only [take?_eq_some_iff, ih]
    rcases known_singleton schema.names m with none | ⟨entry, one⟩
    · rw [none, List.nil_append, List.singleton_append, List.forall_mem_cons]
      constructor
      · rintro ⟨_, ⟨named, -, -, rfl⟩, names, others⟩
        exact ⟨⟨named, names⟩, others⟩
      · rintro ⟨⟨named, names⟩, others⟩
        exact ⟨done, ⟨named, List.forall_mem_nil _, List.forall_mem_nil _, rfl⟩, names, others⟩
    · -- That the name is new among the others is said once on either side.
      rw [one]
      simp only [List.singleton_append, List.map_cons, List.nodup_cons, List.forall_mem_cons,
        List.not_mem_nil, false_imp_iff, implies_true, and_true]
      constructor
      · rintro ⟨_, ⟨named, typed, new, rfl⟩, names, types, once, apart, rfl⟩
        refine ⟨⟨named, names⟩, ⟨typed, types⟩, ⟨fun again => ?_, once⟩, ⟨new, ?_⟩, ?_⟩
        · obtain ⟨other, member, same⟩ := List.mem_map.mp again
          exact apart other member (same ▸ List.mem_cons_self)
        · exact fun other member again => apart other member (List.mem_cons_of_mem _ again)
        · rw [List.reverse_cons, List.append_assoc, List.singleton_append]
      · rintro ⟨⟨named, names⟩, ⟨typed, types⟩, ⟨first, once⟩, ⟨new, apart⟩, rfl⟩
        refine ⟨entry :: done, ⟨named, typed, new, rfl⟩, names, types, once, ?_, ?_⟩
        · intro other member again
          rcases List.mem_cons.mp again with same | again
          · exact first (same ▸ List.mem_map_of_mem member)
          · exact apart other member again
        · rw [List.reverse_cons, List.append_assoc, List.singleton_append]

theorem isNone_missing?_iff {seen : List String} : (schema.missing? seen).isNone = true ↔
    ∀ field ∈ schema.fields, field.required = true → field.name ∈ seen := by
  rw [Option.isNone_iff_eq_none, Schema.missing?, List.find?_eq_none]
  simp only [Bool.and_eq_true, Bool.not_eq_true', not_and, Bool.not_eq_false,
    List.contains_iff_mem]

variable {record : Entries → α} (reads : schema.ReadsFields record)
include reads

/-- A document is read exactly if each key names something, no field is given again, each given one has a
value of its type and no required one is missing. -/
theorem decode_document_iff (d : Document) (r : α) :
    schema.decode d.bytes = .ok r ↔
      (∀ m ∈ d.members, m.name?.isSome = true) ∧
      (∀ entry ∈ known schema.names d.members, schema.fits entry.1 entry.2 = true) ∧
      ((known schema.names d.members).map Prod.fst).Nodup ∧
      (∀ field ∈ schema.fields, field.required = true →
        field.name ∈ (known schema.names d.members).map Prod.fst) ∧
      r = record (known schema.names d.members) := by
  rw [decode_eq_ok_iff reads, Option.bind_eq_some_iff]
  constructor
  · rintro ⟨all, taken, finished⟩
    obtain ⟨named, typed, once, -, rfl⟩ := takeAll?_eq_some_iff.mp taken
    rw [List.append_nil, Schema.finish?, Option.ite_none_right_eq_some, isNone_missing?_iff,
      Option.some.injEq] at finished
    obtain ⟨complete, rfl⟩ := finished
    refine ⟨named, typed, once, fun field own required => ?_, ?_⟩
    · have given := complete field own required
      rwa [List.map_reverse, List.mem_reverse] at given
    · exact (reads.same _ _ (List.reverse_perm _).symm once).symm
  · rintro ⟨named, typed, once, complete, rfl⟩
    refine ⟨_, takeAll?_eq_some_iff.mpr ⟨named, typed, once, by simp, rfl⟩, ?_⟩
    rw [List.append_nil, Schema.finish?, Option.ite_none_right_eq_some, isNone_missing?_iff]
    refine ⟨fun field own required => ?_, ?_⟩
    · rw [List.map_reverse, List.mem_reverse]
      exact complete field own required
    · exact congrArg some (reads.same _ _ (List.reverse_perm _).symm once).symm

end Taken

end Steering.Json
