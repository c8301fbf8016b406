import Mathlib.Data.List.Nodup
import Steering.Proofs.ObjectReading
import Steering.Report.PopStatus
import Steering.Report.Probe
/-! The records of status documents and of measurements, field by field: what each is read from, what type
it has and what it is if nothing is given for it. -/

namespace Steering

open Json (Entries JudgesValue IsValue IsInteger IsNumber SpellsText whole?)

/-! ## Fields -/

section Field

variable {α β : Type}

/-- What a field is read as, or its default if it is not given. -/
def Json.Entries.get (entries : Entries) (read : Json.Reader β) (default : β) (name : String) : β :=
  ((entries.lookup name).bind (whole? read)).getD default

theorem Json.Entries.lookup_eq {some other : Entries} (same : some.Perm other)
    (once : (some.map Prod.fst).Nodup) (name : String) : some.lookup name = other.lookup name := by
  induction same with
  | nil => rfl
  | cons entry _ ih =>
    rw [List.lookup_cons, List.lookup_cons, ih (List.nodup_cons.mp once).2]
  | swap first second rest =>
    have apart : second.1 ≠ first.1 := fun same =>
      (List.nodup_cons.mp once).1 (same ▸ List.mem_cons_self)
    rw [List.lookup_cons, List.lookup_cons, List.lookup_cons, List.lookup_cons]
    by_cases one : name = first.1
    · have other : (name == second.1) = false := beq_eq_false_iff_ne.mpr fun two =>
        apart (two.symm.trans one)
      rw [other, beq_iff_eq.mpr one]
    · rw [beq_eq_false_iff_ne.mpr one]
  | trans first _ ih ih' => exact (ih once).trans (ih' ((first.map Prod.fst).nodup_iff.mp once))

theorem Json.Entries.get_eq {some other : Entries} (same : some.Perm other)
    (once : (some.map Prod.fst).Nodup) (read : Json.Reader β) (default : β) (name : String) :
    some.get read default name = other.get read default name := by
  rw [get, get, Json.Entries.lookup_eq same once]

@[simp] theorem Json.Entries.get_nil (read : Json.Reader β) (default : β) (name : String) :
    Entries.get [] read default name = default := rfl

theorem Json.Entries.get_cons (read : Json.Reader β) (default : β) (name : String)
    (entry : String × List UInt8) (rest : Entries) :
    Entries.get (entry :: rest) read default name =
      if name = entry.1 then (whole? read entry.2).getD default else rest.get read default name := by
  rw [get, List.lookup_cons]
  by_cases same : name = entry.1
  · rw [if_pos same, beq_iff_eq.mpr same]
    rfl
  · rw [if_neg same, beq_eq_false_iff_ne.mpr same]
    rfl

/-- A field whose values are read by one reader and then put into the record. -/
def Json.Field.Carries (field : Json.Field α) (read : Json.Reader β) (set : α → β → α) : Prop :=
  ∀ r c, field.read r c = (read c).map fun (x, c) => (set r x, c)

variable {schema : Json.Schema α} {field : Json.Field α} {read : Json.Reader β} (set : α → β → α)
  {value : List UInt8}

variable {set} in
theorem Json.Field.Carries.judges (carries : field.Carries read set)
    (judges : JudgesValue read value (whole? read value)) (r : α) :
    JudgesValue (field.read r) value ((whole? read value).map (set r)) := by
  rw [funext (carries r)]
  exact judges.map (set r)

/-- Whether a value is of the type of a field does not depend on the record. -/
theorem fits_field {name : String} (own : schema.field? name = some field)
    (carries : field.Carries read set) (judges : JudgesValue read value (whole? read value)) :
    schema.fits name value = (whole? read value).isSome := by
  rw [Json.Schema.fits, own, Option.any_some, (carries.judges judges _).whole, Option.isSome_map]

theorem judges_field {record : Entries → α} (carries : field.Carries read set)
    (judges : JudgesValue read value (whole? read value))
    (keeps : ∀ done x, whole? read value = some x →
      set (record done) x = record ((field.name, value) :: done)) (done : Entries) :
    JudgesValue (field.read (record done)) value
      (if (whole? (field.read schema.initial) value).isSome then
        some (record ((field.name, value) :: done)) else none) := by
  have judged := carries.judges judges (record done)
  rw [(carries.judges judges schema.initial).whole, Option.isSome_map]
  cases verdict : whole? read value with
  | none =>
    rw [verdict] at judged
    exact judged
  | some x =>
    rw [verdict, Option.map_some, keeps done x verdict] at judged
    exact judged

end Field

/-! ## Types -/

namespace Json

/-- The types that fields have. -/
inductive FieldType where
  | text
  | integer (low high : Int)
  | double

/-- Whether a value is of a type: a string that spells a text, an integer within its bounds, or a number
that is not too large for a double. -/
def FieldType.Holds : FieldType → List UInt8 → Prop
  | text, value => ∃ body cs, value = 0x22 :: (body ++ [0x22]) ∧ SpellsText body cs
  | integer low high, value => ∃ n, IsInteger value n ∧ low ≤ n ∧ n ≤ high
  | double, value => IsNumber value ∧ (whole? readDouble value).isSome = true

variable {value : List UInt8} (form : IsValue value)
include form

theorem holds_text : (whole? readTextValue value).isSome = true ↔ FieldType.text.Holds value := by
  simp only [Option.isSome_iff_exists, (judges_readTextValue form).2, FieldType.Holds]
  constructor
  · rintro ⟨s, body, shape, spells⟩
    exact ⟨body, _, shape, spells⟩
  · rintro ⟨body, cs, shape, spells⟩
    exact ⟨String.ofList cs, body, shape, by rwa [String.toList_ofList]⟩

theorem holds_integer (expected : String) {low high : Int} (least : -0x8000000000000000 ≤ low)
    (most : high < 0x10000000000000000) :
    (whole? (readInteger expected low high) value).isSome = true ↔
      (FieldType.integer low high).Holds value := by
  simp only [Option.isSome_iff_exists, (judges_readInteger form expected least most).2,
    FieldType.Holds]

theorem holds_double : (whole? readDouble value).isSome = true ↔ FieldType.double.Holds value :=
  ⟨fun given => ⟨(judges_readDouble form).2 given, given⟩, And.right⟩

/-- The fields of a kind of record have the given names and types. -/
structure Schema.HasTypes {α : Type} (schema : Schema α) (types : List (String × FieldType)) : Prop where
  names : schema.names = types.map Prod.fst
  fits : ∀ entry ∈ types, ∀ value, IsValue value →
    (schema.fits entry.1 value = true ↔ entry.2.Holds value)

end Json

namespace ProbeArgs

/-- What some fields ask for. -/
def ofEntries (entries : Entries) : ProbeArgs :=
  ⟨entries.get Json.readTextValue "" "target_url"⟩

theorem readsFields : schema.ReadsFields ofEntries where
  initial := rfl
  judges field own value form done := by
    obtain rfl := List.mem_singleton.mp own
    refine judges_field (fun _ x => ⟨x⟩) (fun _ _ => rfl) (Json.judges_readTextValue form).1
      (fun done x verdict => ?_) done
    simp [ofEntries, Entries.get_cons, verdict]
  same some other perm once := by
    rw [ofEntries, ofEntries, Entries.get_eq perm once]

/-- The fields of a request for a measurement and their types. -/
def types : List (String × Json.FieldType) :=
  [("target_url", .text)]

theorem hasTypes : schema.HasTypes types where
  names := rfl
  fits entry member value form := by
    obtain rfl := List.mem_singleton.mp member
    rw [fits_field (fun _ x => ⟨x⟩) rfl (fun _ _ => rfl) (Json.judges_readTextValue form).1]
    exact Json.holds_text form

end ProbeArgs

namespace PopStatus

/-- The status that some fields make. -/
def ofEntries (entries : Entries) : PopStatus where
  id := entries.get Json.readTextValue "" "id"
  uptime := entries.get Json.readDouble .zero "uptime"
  load := entries.get Json.readDouble .zero "load"
  error := entries.get Json.readTextValue "" "error"

theorem readsFields : schema.ReadsFields ofEntries where
  initial := rfl
  judges field own value form done := by
    have text := (Json.judges_readTextValue form).1
    have double := (Json.judges_readDouble form).1
    simp only [schema, List.mem_cons, List.not_mem_nil, or_false] at own
    rcases own with rfl | rfl | rfl | rfl
    · refine judges_field (fun (s : PopStatus) x => { s with id := x }) (fun _ _ => rfl) text
        (fun done x verdict => ?_) done
      simp [ofEntries, Entries.get_cons, verdict]
    · refine judges_field (fun (s : PopStatus) x => { s with uptime := x }) (fun _ _ => rfl) double
        (fun done x verdict => ?_) done
      simp [ofEntries, Entries.get_cons, verdict]
    · refine judges_field (fun (s : PopStatus) x => { s with load := x }) (fun _ _ => rfl) double
        (fun done x verdict => ?_) done
      simp [ofEntries, Entries.get_cons, verdict]
    · refine judges_field (fun (s : PopStatus) x => { s with error := x }) (fun _ _ => rfl) text
        (fun done x verdict => ?_) done
      simp [ofEntries, Entries.get_cons, verdict]
  same some other perm once := by
    simp only [ofEntries, Entries.get_eq perm once]

/-- The fields of a status and their types. -/
def types : List (String × Json.FieldType) :=
  [("id", .text), ("uptime", .double), ("load", .double), ("error", .text)]

theorem hasTypes : schema.HasTypes types where
  names := rfl
  fits entry member value form := by
    have text := (Json.judges_readTextValue form).1
    have double := (Json.judges_readDouble form).1
    simp only [types, List.mem_cons, List.not_mem_nil, or_false] at member
    rcases member with rfl | rfl | rfl | rfl
    · rw [fits_field (fun (s : PopStatus) x => { s with id := x }) rfl (fun _ _ => rfl) text]
      exact Json.holds_text form
    · rw [fits_field (fun (s : PopStatus) x => { s with uptime := x }) rfl (fun _ _ => rfl) double]
      exact Json.holds_double form
    · rw [fits_field (fun (s : PopStatus) x => { s with load := x }) rfl (fun _ _ => rfl) double]
      exact Json.holds_double form
    · rw [fits_field (fun (s : PopStatus) x => { s with error := x }) rfl (fun _ _ => rfl) text]
      exact Json.holds_text form

end PopStatus

namespace ProbeResult

/-- The result that some fields make. -/
def ofEntries (entries : Entries) : ProbeResult where
  proberNodeId := entries.get Json.readTextValue "" "prober_node_id"
  url := entries.get Json.readTextValue "" "url"
  start := entries.get readMilestone 0 "start"
  dnsEnd := entries.get readMilestone 0 "dns_end"
  connectEnd := entries.get readMilestone 0 "connect_end"
  requestEnd := entries.get readMilestone 0 "request_end"
  firstByte := entries.get readMilestone 0 "first_byte"
  responseEnd := entries.get readMilestone 0 "response_end"
  responseCode := .ofNat (entries.get (Json.readInteger "u16" 0 0xFFFF) 0 "response_code").toNat

/-- The type of a milestone. -/
def milestoneType : Json.FieldType :=
  .integer (-0x8000000000000000) 0x7FFFFFFFFFFFFFFF

/-- The fields of a probe result and their types. -/
def types : List (String × Json.FieldType) :=
  [("prober_node_id", .text), ("url", .text), ("start", milestoneType), ("dns_end", milestoneType),
    ("connect_end", milestoneType), ("request_end", milestoneType), ("first_byte", milestoneType),
    ("response_end", milestoneType), ("response_code", .integer 0 0xFFFF)]

section Kinds

variable {value : List UInt8} (form : IsValue value) {name : String}
include form

theorem whole_readMilestone : whole? readMilestone value =
    (whole? (Json.readInteger "i64" (-0x8000000000000000) 0x7FFFFFFFFFFFFFFF) value).map
      Int64.ofInt :=
  JudgesValue.whole
    ((Json.judges_readInteger form "i64" (by decide) (by decide)).1.map Int64.ofInt)

theorem judges_readMilestone : JudgesValue readMilestone value (whole? readMilestone value) :=
  JudgesValue.alone
    ((Json.judges_readInteger form "i64" (by decide) (by decide)).1.map Int64.ofInt)

/-- A milestone is read from a value if it is one, and nothing else is. -/
theorem whole_readMilestone_iff (x : Int64) :
    whole? readMilestone value = some x ↔ IsInteger value x.toInt := by
  have read := (@Json.judges_readInteger _ form "i64" (-0x8000000000000000) 0x7FFFFFFFFFFFFFFF
    (by decide) (by decide)).2
  rw [whole_readMilestone form, Option.map_eq_some_iff]
  constructor
  · rintro ⟨n, given, rfl⟩
    obtain ⟨integer, least, most⟩ := (read n).mp given
    rwa [Int64.toInt_ofInt_of_le least (by omega)]
  · intro integer
    have least := x.le_toInt
    have most := x.toInt_lt
    exact ⟨x.toInt, (read _).mpr ⟨integer, by omega, by omega⟩, Int64.ofInt_toInt x⟩

theorem judges_textField {set : ProbeResult → String → ProbeResult}
    (keeps : ∀ done x, whole? Json.readTextValue value = some x →
      set (ofEntries done) x = ofEntries ((name, value) :: done)) (done : Entries) :
    JudgesValue ((textField name set).read (ofEntries done)) value
      (if (whole? ((textField name set).read schema.initial) value).isSome then
        some (ofEntries ((name, value) :: done)) else none) :=
  judges_field set (fun _ _ => rfl) (Json.judges_readTextValue form).1 keeps done

theorem judges_milestoneField {required : Bool} {set : ProbeResult → Int64 → ProbeResult}
    (keeps : ∀ done x, whole? readMilestone value = some x →
      set (ofEntries done) x = ofEntries ((name, value) :: done)) (done : Entries) :
    JudgesValue ((milestoneField name required set).read (ofEntries done)) value
      (if (whole? ((milestoneField name required set).read schema.initial) value).isSome then
        some (ofEntries ((name, value) :: done)) else none) :=
  judges_field set (fun _ _ => rfl) (judges_readMilestone form) keeps done

theorem judges_codeField {set : ProbeResult → UInt16 → ProbeResult}
    (keeps : ∀ done x, whole? (Json.readInteger "u16" 0 0xFFFF) value = some x →
      set (ofEntries done) (.ofNat x.toNat) = ofEntries ((name, value) :: done)) (done : Entries) :
    JudgesValue ((codeField name set).read (ofEntries done)) value
      (if (whole? ((codeField name set).read schema.initial) value).isSome then
        some (ofEntries ((name, value) :: done)) else none) :=
  judges_field (fun r x => set r (.ofNat (Int.toNat x))) (fun _ _ => rfl)
    (Json.judges_readInteger form "u16" (by decide) (by decide)).1 keeps done

theorem fits_textField {set : ProbeResult → String → ProbeResult}
    (own : schema.field? name = some (textField name set)) :
    schema.fits name value = true ↔ Json.FieldType.text.Holds value := by
  rw [fits_field set own (fun _ _ => rfl) (Json.judges_readTextValue form).1]
  exact Json.holds_text form

theorem fits_milestoneField {required : Bool} {set : ProbeResult → Int64 → ProbeResult}
    (own : schema.field? name = some (milestoneField name required set)) :
    schema.fits name value = true ↔ milestoneType.Holds value := by
  rw [fits_field set own (fun _ _ => rfl) (judges_readMilestone form),
    whole_readMilestone form, Option.isSome_map]
  exact Json.holds_integer form "i64" (by decide) (by decide)

theorem fits_codeField {set : ProbeResult → UInt16 → ProbeResult}
    (own : schema.field? name = some (codeField name set)) :
    schema.fits name value = true ↔ (Json.FieldType.integer 0 0xFFFF).Holds value := by
  rw [fits_field (fun r x => set r (.ofNat (Int.toNat x))) own (fun _ _ => rfl)
    (Json.judges_readInteger form "u16" (by decide) (by decide)).1]
  exact Json.holds_integer form "u16" (by decide) (by decide)

end Kinds

theorem readsFields : schema.ReadsFields ofEntries where
  initial := rfl
  judges field own value form done := by
    simp only [schema, List.mem_cons, List.not_mem_nil, or_false] at own
    -- What a field puts into the record is what its entry makes of the record.
    rcases own with rfl | rfl | rfl | rfl | rfl | rfl | rfl | rfl | rfl
    case inl | inr.inl =>
      exact judges_textField form (fun done x verdict => by
        simp [ofEntries, Entries.get_cons, verdict]) done
    case inr.inr.inr.inr.inr.inr.inr.inr =>
      exact judges_codeField form (fun done x verdict => by
        simp [ofEntries, Entries.get_cons, verdict]) done
    all_goals
      exact judges_milestoneField form (fun done x verdict => by
        simp [ofEntries, Entries.get_cons, verdict]) done
  same some other perm once := by
    simp only [ofEntries, Entries.get_eq perm once]

theorem hasTypes : schema.HasTypes types where
  names := rfl
  fits entry member value form := by
    simp only [types, List.mem_cons, List.not_mem_nil, or_false] at member
    rcases member with rfl | rfl | rfl | rfl | rfl | rfl | rfl | rfl | rfl
    case inl | inr.inl => exact fits_textField form rfl
    case inr.inr.inr.inr.inr.inr.inr.inr => exact fits_codeField form rfl
    all_goals exact fits_milestoneField form rfl

end ProbeResult

end Steering
