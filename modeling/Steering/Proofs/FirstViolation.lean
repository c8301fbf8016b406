import Mathlib.Data.List.Forall2
import Steering.Config.Validate
import Steering.Proofs.RankingOrder
/-! Which configurations are accepted, and what is reported of the others. The rules are said of a
configuration itself, each with its place in the order in which they are looked at; a configuration
is refused for the rule at the first place that it breaks. -/

namespace Steering

namespace Text

/-- Two characters are the same but for the case of an ASCII letter. -/
def SameLetter (a b : Char) : Prop :=
  a = b ∨ a.isAlpha = true ∧ b.isAlpha = true ∧ a.toNat % 32 = b.toNat % 32

theorem toNat_asciiLower (c : Char) :
    (asciiLower c).toNat = if 65 ≤ c.toNat ∧ c.toNat ≤ 90 then c.toNat + 32 else c.toNat := by
  have range : (c.val ≥ 'A'.val ∧ c.val ≤ 'Z'.val) ↔ 65 ≤ c.toNat ∧ c.toNat ≤ 90 := Iff.rfl
  unfold asciiLower Char.toLower
  simp only [range]
  split
  · rename_i upper
    have few : c.val.toNat ≤ 90 := upper.2
    change (c.val + 32).toNat = c.val.toNat + 32
    rw [UInt32.toNat_add]
    exact Nat.mod_eq_of_lt (Nat.lt_of_le_of_lt (Nat.add_le_add_right few 32) (by decide))
  · rfl

theorem asciiLower_eq_iff {a b : Char} : asciiLower a = asciiLower b ↔ SameLetter a b := by
  have alpha (c : Char) : c.isAlpha = true ↔
      (65 ≤ c.toNat ∧ c.toNat ≤ 90) ∨ (97 ≤ c.toNat ∧ c.toNat ≤ 122) := by
    unfold Char.isAlpha Char.isUpper Char.isLower
    simp only [Bool.or_eq_true, decide_eq_true_eq, Bool.and_eq_true]
    exact Iff.rfl
  rw [SameLetter, alpha, alpha, ← Char.toNat_inj, toNat_asciiLower, toNat_asciiLower,
    ← Char.toNat_inj]
  split <;> split <;> omega

theorem sameIgnoringCase_iff {s t : String} :
    sameIgnoringCase s t = true ↔ List.Forall₂ SameLetter s.toList t.toList := by
  rw [sameIgnoringCase, beq_iff_eq, ← List.forall₂_eq_eq_eq, List.forall₂_map_left_iff,
    List.forall₂_map_right_iff]
  simp only [asciiLower_eq_iff]

end Text

namespace Config

/-! ## The rules -/

/-- A text is one of some names but for the case of ASCII letters. -/
def IsOneOf (names : List String) (s : String) : Prop :=
  ∃ name ∈ names, List.Forall₂ Text.SameLetter name.toList s.toList

/-- A text is an identifier with a scheme and an authority. -/
def HasOrigin (url : String) : Prop :=
  ∃ uri, Net.Uri.parse url = .ok uri ∧ uri.scheme ≠ none ∧ uri.authority ≠ none

/-- A text resolves to an endpoint that can be listened on, as far as a name service knows. -/
def Resolves (names : Net.NameService) (address : String) : Prop :=
  ∃ endpoint others, Net.Endpoint.resolve names address = .ok (endpoint :: others)

/-- Where a rule stands among all of them: the settings come first, then the dashboard, then whether
there is a PoP at all, then the PoPs and then the regions, one entry after another. -/
structure Place where
  part : Nat
  entry : Nat
  rule : Nat

/-- A place is looked at before another. -/
def Place.Before (one other : Place) : Prop :=
  one.part < other.part ∨ one.part = other.part ∧
    (one.entry < other.entry ∨ one.entry = other.entry ∧ one.rule < other.rule)

/-- A setting breaks a rule. -/
inductive SettingBreaks (config : Config) : Nat → Violation → Prop
  | logLevel (unknown : ¬ IsOneOf logLevels config.log.level) :
    SettingBreaks config 0 (.logLevel config.log.level)
  | ranking (unknown : ¬ IsOneOf rankings (Text.trim config.ranking)) :
    SettingBreaks config 1 (.ranking config.ranking)
  | statusTimeout (zero : config.refresh.statusTimeout = 0) : SettingBreaks config 2 .statusTimeout
  | latencyTimeout (zero : config.refresh.latencyTimeout = 0) :
    SettingBreaks config 3 .latencyTimeout
  | interval (zero : config.refresh.interval = 0) : SettingBreaks config 4 .interval
  | statusPort (zero : config.refresh.statusPort = 0) : SettingBreaks config 5 .statusPort

/-- The dashboard breaks a rule. -/
inductive ObservabilityBreaks (names : Net.NameService) (o : Observability) :
    Nat → Violation → Prop
  | missing (empty : o.address = "") : ObservabilityBreaks names o 0 .listenAddressMissing
  | unresolved (fails : ¬ Resolves names o.bindAddress) :
    ObservabilityBreaks names o 1 (.listenAddress o.address)

/-- A PoP breaks a rule, given the PoPs before it. -/
inductive PopBreaks (earlier : List Pop) (pop : Pop) : Nat → Violation → Prop
  | idMissing (empty : pop.id = "") : PopBreaks earlier pop 0 (.popIdMissing pop.ip4)
  | idRepeated (repeated : ∃ other ∈ earlier, other.id = pop.id) :
    PopBreaks earlier pop 1 (.popIdRepeated pop.id)
  | endpointMissing (empty : pop.latencyEndpointUrl = "") :
    PopBreaks earlier pop 2 (.endpointMissing pop.id)
  | endpointInvalid (fails : ¬ HasOrigin pop.latencyEndpointUrl) :
    PopBreaks earlier pop 3 (.endpointInvalid pop.latencyEndpointUrl pop.id)

/-- A region breaks a rule, given the regions before it. -/
inductive RegionBreaks (earlier : List Region) (region : Region) : Nat → Violation → Prop
  | idMissing (empty : region.id = "") : RegionBreaks earlier region 0 .regionIdMissing
  | idRepeated (repeated : ∃ other ∈ earlier, other.id = region.id) :
    RegionBreaks earlier region 1 (.regionIdRepeated region.id)
  | noPrefixes (empty : region.prefixes = []) :
    RegionBreaks earlier region 2 (.noPrefixes region.id)
  | proberMissing (empty : region.proberUrl = "") :
    RegionBreaks earlier region 3 (.proberMissing region.id)
  | proberInvalid (fails : ¬ HasOrigin region.proberUrl) :
    RegionBreaks earlier region 4 (.proberInvalid region.proberUrl region.id)

/-- A configuration breaks the rule at a place, which makes a violation. -/
inductive Breaks (config : Config) (names : Net.NameService) : Place → Violation → Prop
  | setting {rule : Nat} {violation : Violation} (broken : config.SettingBreaks rule violation) :
    Breaks config names ⟨0, 0, rule⟩ violation
  | observability {o : Observability} {rule : Nat} {violation : Violation}
      (configured : config.observability = some o)
      (broken : ObservabilityBreaks names o rule violation) :
    Breaks config names ⟨1, 0, rule⟩ violation
  | noPops (none : config.pops = []) : Breaks config names ⟨2, 0, 0⟩ .noPops
  | pop {entry rule : Nat} {pop : Pop} {violation : Violation}
      (found : config.pops[entry]? = some pop)
      (broken : PopBreaks (config.pops.take entry) pop rule violation) :
    Breaks config names ⟨3, entry, rule⟩ violation
  | region {entry rule : Nat} {region : Region} {violation : Violation}
      (found : config.regions[entry]? = some region)
      (broken : RegionBreaks (config.regions.take entry) region rule violation) :
    Breaks config names ⟨4, entry, rule⟩ violation

/-- What a configuration has to be like to break no rule. -/
structure IsValid (config : Config) (names : Net.NameService) : Prop where
  logLevel : IsOneOf logLevels config.log.level
  ranking : IsOneOf rankings (Text.trim config.ranking)
  statusTimeout : config.refresh.statusTimeout ≠ 0
  latencyTimeout : config.refresh.latencyTimeout ≠ 0
  interval : config.refresh.interval ≠ 0
  statusPort : config.refresh.statusPort ≠ 0
  observability : ∀ o, config.observability = some o →
    o.address ≠ "" ∧ Resolves names o.bindAddress
  somePop : config.pops ≠ []
  popIds : (config.pops.map (·.id)).Nodup
  pops : ∀ pop ∈ config.pops, pop.id ≠ "" ∧ pop.latencyEndpointUrl ≠ "" ∧
    HasOrigin pop.latencyEndpointUrl
  regionIds : (config.regions.map (·.id)).Nodup
  regions : ∀ region ∈ config.regions, region.id ≠ "" ∧ region.prefixes ≠ [] ∧
    region.proberUrl ≠ "" ∧ HasOrigin region.proberUrl

/-! ## The checks decide the rules -/

theorem any_sameIgnoringCase_iff {names : List String} {s : String} :
    names.any (Text.sameIgnoringCase · s) = true ↔ IsOneOf names s := by
  simp only [List.any_eq_true, Text.sameIgnoringCase_iff, IsOneOf]

theorem isLogLevel_eq_false_iff {s : String} :
    isLogLevel s = false ↔ ¬ IsOneOf logLevels s := by
  rw [← Bool.not_eq_true, isLogLevel, any_sameIgnoringCase_iff]

theorem isRanking_eq_false_iff {s : String} :
    isRanking s = false ↔ ¬ IsOneOf rankings (Text.trim s) := by
  rw [← Bool.not_eq_true, isRanking, any_sameIgnoringCase_iff]

theorem isListenable_eq_false_iff {names : Net.NameService} {address : String} :
    isListenable names address = false ↔ ¬ Resolves names address := by
  rw [← Bool.not_eq_true, isListenable, Resolves]
  rcases Net.Endpoint.resolve names address with detail | _ | ⟨endpoint, others⟩ <;> simp

/-- A host name can stand in a listening address where it is known. -/
example : isListenable (fun _ => .ok [.v4 (.ofOctets 192 0 2 9)]) "gslb.internal:8080" = true := by
  decide +kernel

theorem isAbsolute_eq_false_iff {url : String} :
    Net.Uri.isAbsolute url = false ↔ ¬ HasOrigin url := by
  rw [← Bool.not_eq_true, Net.Uri.isAbsolute, HasOrigin]
  cases Net.Uri.parse url with
  | error fault => simp
  | ok uri => simp [Option.isSome_iff_ne_none]

theorem not_contains_eq_false_iff {α : Type} {id : α → String} {entries : List α} {own : String} :
    (!((entries.map id).reverse.contains own)) = false ↔ ∃ other ∈ entries, id other = own := by
  simp

section Decide

variable {config : Config} {names : Net.NameService} {rule : Nat} {violation : Violation}

theorem settingBreaks_iff : config.SettingBreaks rule violation ↔
    config.settingChecks[rule]? = some (false, violation) := by
  constructor
  · intro broken
    cases broken <;>
      simp [settingChecks, isLogLevel_eq_false_iff, isRanking_eq_false_iff, *]
  · intro failed
    rcases rule with _ | _ | _ | _ | _ | _ | rule <;>
      simp only [settingChecks, List.getElem?_cons_succ, List.getElem?_cons_zero, Option.some.injEq,
        Prod.mk.injEq, isLogLevel_eq_false_iff, isRanking_eq_false_iff, bne_eq_false_iff_eq,
        List.getElem?_nil, reduceCtorEq, Nat.zero_add] at failed
    all_goals obtain ⟨broken, rfl⟩ := failed
    · exact .logLevel broken
    · exact .ranking broken
    · exact .statusTimeout broken
    · exact .latencyTimeout broken
    · exact .interval broken
    · exact .statusPort broken

theorem observabilityBreaks_iff {o : Observability} :
    ObservabilityBreaks names o rule violation ↔
      (observabilityChecks names (some o))[rule]? = some (false, violation) := by
  constructor
  · intro broken
    cases broken <;> simp [observabilityChecks, isListenable_eq_false_iff, *]
  · intro failed
    rcases rule with _ | _ | rule <;>
      simp only [observabilityChecks, List.getElem?_cons_succ, List.getElem?_cons_zero,
        Option.some.injEq, Prod.mk.injEq, isListenable_eq_false_iff, bne_eq_false_iff_eq,
        List.getElem?_nil, reduceCtorEq, Nat.zero_add] at failed
    all_goals obtain ⟨broken, rfl⟩ := failed
    · exact .missing broken
    · exact .unresolved broken

theorem popBreaks_iff {earlier : List Pop} {pop : Pop} : PopBreaks earlier pop rule violation ↔
    (popChecks (earlier.map (·.id)).reverse pop)[rule]? = some (false, violation) := by
  constructor
  · intro broken
    cases broken <;> simp_all [popChecks, isAbsolute_eq_false_iff]
  · intro failed
    rcases rule with _ | _ | _ | _ | rule <;>
      simp only [popChecks, List.getElem?_cons_succ, List.getElem?_cons_zero, Option.some.injEq,
        Prod.mk.injEq, isAbsolute_eq_false_iff, not_contains_eq_false_iff, bne_eq_false_iff_eq,
        List.getElem?_nil, reduceCtorEq, Nat.zero_add] at failed
    all_goals obtain ⟨broken, rfl⟩ := failed
    · exact .idMissing broken
    · exact .idRepeated broken
    · exact .endpointMissing broken
    · exact .endpointInvalid broken

theorem regionBreaks_iff {earlier : List Region} {region : Region} :
    RegionBreaks earlier region rule violation ↔
      (regionChecks (earlier.map (·.id)).reverse region)[rule]? = some (false, violation) := by
  constructor
  · intro broken
    cases broken <;> simp_all [regionChecks, isAbsolute_eq_false_iff]
  · intro failed
    rcases rule with _ | _ | _ | _ | _ | rule <;>
      simp only [regionChecks, List.getElem?_cons_succ, List.getElem?_cons_zero, Option.some.injEq,
        Prod.mk.injEq, isAbsolute_eq_false_iff, not_contains_eq_false_iff, bne_eq_false_iff_eq,
        List.getElem?_nil, reduceCtorEq, Nat.zero_add] at failed
    all_goals obtain ⟨broken, rfl⟩ := failed
    · exact .idMissing broken
    · exact .idRepeated broken
    · exact .noPrefixes broken
    · exact .proberMissing broken
    · exact .proberInvalid broken

end Decide

/-! ## The checks with their places -/

/-- The checks of one entry of a part with their places. -/
def placed (part entry : Nat) (checks : List Check) : List (Place × Check) :=
  checks.zipIdx.map fun (check, rule) => (⟨part, entry, rule⟩, check)

/-- The checks of all entries of a part with their places. -/
def placedEntries {α : Type} (part : Nat) (id : α → String)
    (checks : List String → α → List Check) (entries : List α) : List (Place × Check) :=
  entries.zipIdx.flatMap fun (entry, index) =>
    placed part index (checks ((entries.take index).map id).reverse entry)

/-- All checks of a configuration with their places. -/
def placedChecks (config : Config) (names : Net.NameService) : List (Place × Check) :=
  placed 0 0 config.settingChecks ++ placed 1 0 (observabilityChecks names config.observability)
    ++ placed 2 0 [(config.pops != [], .noPops)]
    ++ placedEntries 3 Pop.id popChecks config.pops
    ++ placedEntries 4 Region.id regionChecks config.regions

section Placed

variable {α : Type} {part entry : Nat} {id : α → String} {list : List Check}
  {checks : List String → α → List Check} {entries : List α} {place : Place} {check : Check}

theorem map_snd_placed : (placed part entry list).map Prod.snd = list := by
  rw [placed, List.map_map]
  exact List.zipIdx_map_fst 0 list

theorem mem_placed_iff : (place, check) ∈ placed part entry list ↔
    place.part = part ∧ place.entry = entry ∧ list[place.rule]? = some check := by
  rw [placed, List.mem_map]
  constructor
  · rintro ⟨⟨own, rule⟩, member, same⟩
    cases same
    exact ⟨rfl, rfl, List.mem_zipIdx_iff_getElem?.mp member⟩
  · rintro ⟨rfl, rfl, found⟩
    exact ⟨(check, place.rule), List.mem_zipIdx_iff_getElem?.mpr found, rfl⟩

theorem pairwise_placed : (placed part entry list).Pairwise fun a b => a.1.Before b.1 :=
  List.pairwise_map.mpr ((pairwise_zipIdx list).imp fun less => .inr ⟨rfl, .inr ⟨rfl, less⟩⟩)

/-- Entries are checked one after another, each against the ids of those before it. -/
theorem entryChecks_eq (earlier : List String) : entryChecks id checks earlier entries =
    entries.zipIdx.flatMap fun (entry, index) =>
      checks (((entries.take index).map id).reverse ++ earlier) entry := by
  induction entries generalizing earlier with
  | nil => rfl
  | cons first rest ih =>
    rw [entryChecks, ih, List.zipIdx_cons', List.flatMap_cons, List.flatMap_map]
    simp

theorem map_snd_placedEntries :
    (placedEntries part id checks entries).map Prod.snd = entryChecks id checks [] entries := by
  simp only [entryChecks_eq, placedEntries, List.map_flatMap, map_snd_placed, List.append_nil]

theorem mem_placedEntries_iff : (place, check) ∈ placedEntries part id checks entries ↔
    place.part = part ∧ ∃ entry, entries[place.entry]? = some entry ∧
      (checks ((entries.take place.entry).map id).reverse entry)[place.rule]? = some check := by
  simp only [placedEntries, List.mem_flatMap, Prod.exists, List.mem_zipIdx_iff_getElem?,
    mem_placed_iff]
  constructor
  · rintro ⟨entry, _, found, rfl, rfl, its⟩
    exact ⟨rfl, entry, found, its⟩
  · rintro ⟨rfl, entry, found, its⟩
    exact ⟨entry, place.entry, found, rfl, rfl, its⟩

theorem pairwise_placedEntries :
    (placedEntries part id checks entries).Pairwise fun a b => a.1.Before b.1 := by
  refine List.pairwise_flatMap.mpr ⟨fun _ _ => pairwise_placed, ?_⟩
  refine (pairwise_zipIdx entries).imp fun less one member other memberToo => ?_
  obtain ⟨part, entry, -⟩ := mem_placed_iff.mp member
  obtain ⟨partToo, entryToo, -⟩ := mem_placed_iff.mp memberToo
  exact .inr ⟨part.trans partToo.symm, .inl (by omega)⟩

end Placed

section All

variable {config : Config} {names : Net.NameService} {place : Place} {violation : Violation}

theorem map_snd_placedChecks :
    (config.placedChecks names).map Prod.snd = config.checks names := by
  simp only [placedChecks, checks, List.map_append, map_snd_placed, map_snd_placedEntries]

/-- A part may follow what is in order and belongs to parts before it. -/
theorem pairwise_append_part {one other : List (Place × Check)} {part : Nat}
    (sorted : one.Pairwise (fun a b => a.1.Before b.1) ∧ ∀ x ∈ one, x.1.part < part)
    (sortedToo : other.Pairwise fun a b => a.1.Before b.1) (own : ∀ x ∈ other, x.1.part = part) :
    (one ++ other).Pairwise (fun a b => a.1.Before b.1) ∧
      ∀ x ∈ one ++ other, x.1.part < part + 1 := by
  refine ⟨List.pairwise_append.mpr ⟨sorted.1, sortedToo, fun x first y second => ?_⟩,
    fun x member => ?_⟩
  · exact .inl (own y second ▸ sorted.2 x first)
  · rcases List.mem_append.mp member with first | second
    · exact Nat.lt_succ_of_lt (sorted.2 x first)
    · exact own x second ▸ Nat.lt_succ_self _

theorem pairwise_placedChecks :
    (config.placedChecks names).Pairwise fun a b => a.1.Before b.1 := by
  have own (part entry : Nat) (list : List Check) : ∀ x ∈ placed part entry list, x.1.part = part :=
    fun _ member => (mem_placed_iff.mp member).1
  have ownToo {α : Type} (part : Nat) (id : α → String) (checks : List String → α → List Check)
      (entries : List α) : ∀ x ∈ placedEntries part id checks entries, x.1.part = part :=
    fun _ member => (mem_placedEntries_iff.mp member).1
  have settings : (placed 0 0 config.settingChecks).Pairwise (fun a b => a.1.Before b.1) ∧
      ∀ x ∈ placed 0 0 config.settingChecks, x.1.part < 1 :=
    ⟨pairwise_placed, fun x member => own 0 0 _ x member ▸ Nat.zero_lt_one⟩
  have dashboard := pairwise_append_part settings pairwise_placed
    (own 1 0 (observabilityChecks names config.observability))
  have somePop := pairwise_append_part dashboard pairwise_placed
    (own 2 0 [(config.pops != [], .noPops)])
  have pops := pairwise_append_part somePop pairwise_placedEntries
    (ownToo 3 Pop.id popChecks config.pops)
  exact (pairwise_append_part pops pairwise_placedEntries
    (ownToo 4 Region.id regionChecks config.regions)).1

/-- The configuration breaks the rules whose checks fail. -/
theorem breaks_iff :
    config.Breaks names place violation ↔
      (place, false, violation) ∈ config.placedChecks names := by
  simp only [placedChecks, List.mem_append, mem_placed_iff, mem_placedEntries_iff]
  constructor
  · intro broken
    cases broken with
    | setting broken => exact .inl (.inl (.inl (.inl ⟨rfl, rfl, settingBreaks_iff.mp broken⟩)))
    | observability configured broken =>
      rw [configured]
      exact .inl (.inl (.inl (.inr ⟨rfl, rfl, observabilityBreaks_iff.mp broken⟩)))
    | noPops none => exact .inl (.inl (.inr ⟨rfl, rfl, by simp [none]⟩))
    | pop found broken => exact .inl (.inr ⟨rfl, _, found, popBreaks_iff.mp broken⟩)
    | region found broken => exact .inr ⟨rfl, _, found, regionBreaks_iff.mp broken⟩
  · obtain ⟨part, entry, rule⟩ := place
    rintro ((((⟨rfl, rfl, failed⟩ | ⟨rfl, rfl, failed⟩) | ⟨rfl, rfl, failed⟩) |
      ⟨rfl, pop, found, failed⟩) | ⟨rfl, region, found, failed⟩)
    · exact .setting (settingBreaks_iff.mpr failed)
    · cases configured : config.observability with
      | none => simp [configured, observabilityChecks] at failed
      | some o =>
        exact .observability configured (observabilityBreaks_iff.mpr (configured ▸ failed))
    · rcases rule with _ | rule
      · simp at failed
        exact failed.2 ▸ .noPops failed.1
      · simp at failed
    · exact .pop found (popBreaks_iff.mpr failed)
    · exact .region found (regionBreaks_iff.mpr failed)

/-- Of checks in order the first that fails is before all others that do. -/
theorem find?_eq_some_iff_first {list : List (Place × Check)}
    (sorted : list.Pairwise fun a b => a.1.Before b.1) :
    ((list.map Prod.snd).find? (!·.1)).map Prod.snd = some violation ↔
      ∃ place, (place, false, violation) ∈ list ∧ ∀ other otherViolation,
        (other, false, otherViolation) ∈ list → other = place ∨ place.Before other := by
  induction list with
  | nil => simp
  | cons first rest ih =>
    obtain ⟨head, holds, its⟩ := first
    obtain ⟨ahead, sortedRest⟩ := List.pairwise_cons.mp sorted
    cases holds with
    | true =>
      rw [List.map_cons, List.find?_cons_of_neg (by simp), ih sortedRest]
      simp
    | false =>
      rw [List.map_cons, List.find?_cons_of_pos (by simp), Option.map_some, Option.some.injEq]
      constructor
      · rintro rfl
        refine ⟨head, List.mem_cons_self, fun other otherViolation member => ?_⟩
        rcases List.mem_cons.mp member with same | later
        · exact .inl (congrArg Prod.fst same)
        · exact .inr (ahead _ later)
      · rintro ⟨place, member, first⟩
        rcases List.mem_cons.mp member with same | later
        · exact (congrArg (·.2.2) same).symm
        · -- The head would have to come after a place that it comes before.
          have before : head.Before place := ahead _ later
          rcases first head its List.mem_cons_self with rfl | after
          · simp only [Place.Before] at before
            omega
          · simp only [Place.Before] at before after
            omega

theorem validate_eq_ok_iff :
    config.validate names = .ok () ↔ ∀ place violation, ¬ config.Breaks names place violation := by
  have accepted : config.validate names = .ok () ↔ (config.checks names).find? (!·.1) = none := by
    rw [validate]
    split
    · rename_i failed
      simp [failed]
    · rename_i none
      simp [none]
  rw [accepted, ← map_snd_placedChecks, List.find?_eq_none]
  simp only [breaks_iff]
  constructor
  · intro holds place violation member
    exact holds _ (List.mem_map_of_mem member) rfl
  · intro holds check member failed
    obtain ⟨⟨place, holding, violation⟩, listed, rfl⟩ := List.mem_map.mp member
    cases holding with
    | true => cases failed
    | false => exact holds place violation listed

theorem validate_eq_error_iff : config.validate names = .error violation ↔
    ∃ place, config.Breaks names place violation ∧ ∀ other otherViolation,
      config.Breaks names other otherViolation → other = place ∨ place.Before other := by
  have refused : config.validate names = .error violation ↔
      ((config.checks names).find? (!·.1)).map Prod.snd = some violation := by
    rw [validate]
    split
    · rename_i failed
      simp [failed]
    · rename_i none
      simp [none]
  rw [refused, ← map_snd_placedChecks, find?_eq_some_iff_first pairwise_placedChecks]
  simp only [breaks_iff]

/-- The first setting that breaks a rule comes before whatever else does. -/
theorem validate_eq_setting {rule : Nat} (broken : config.SettingBreaks rule violation)
    (first : ∀ other otherViolation, config.SettingBreaks other otherViolation → rule ≤ other) :
    config.validate names = .error violation := by
  refine validate_eq_error_iff.mpr ⟨⟨0, 0, rule⟩, .setting broken, fun other _ later => ?_⟩
  cases later with
  | setting later =>
    rcases Nat.eq_or_lt_of_le (first _ _ later) with same | after
    · exact .inl (same ▸ rfl)
    · exact .inr (.inr ⟨rfl, .inr ⟨rfl, after⟩⟩)
  | observability | noPops | pop | region => simp [Place.Before]

/-- No two entries have the same id exactly if none repeats that of an entry before it. -/
theorem nodup_iff_not_repeated {α : Type} {id : α → String} {entries : List α} :
    (entries.map id).Nodup ↔ ∀ index entry, entries[index]? = some entry →
      ¬ ∃ other ∈ entries.take index, id other = id entry := by
  rw [List.Nodup, List.pairwise_map, List.pairwise_iff_getElem]
  constructor
  · rintro distinct index entry found ⟨other, member, same⟩
    obtain ⟨inside, rfl⟩ := List.getElem?_eq_some_iff.mp found
    obtain ⟨place, before, rfl⟩ := List.mem_take_iff_getElem.mp member
    exact distinct place index (by omega) inside (by omega) same
  · intro fresh place index within inside before same
    refine fresh index entries[index] (List.getElem?_eq_getElem inside) ⟨entries[place], ?_, same⟩
    exact List.mem_take_iff_getElem.mpr ⟨place, by omega, rfl⟩

theorem isValid_iff :
    config.IsValid names ↔ ∀ place violation, ¬ config.Breaks names place violation := by
  constructor
  · intro valid place violation broken
    cases broken with
    | setting broken =>
      cases broken with
      | logLevel unknown => exact unknown valid.logLevel
      | ranking unknown => exact unknown valid.ranking
      | statusTimeout zero => exact valid.statusTimeout zero
      | latencyTimeout zero => exact valid.latencyTimeout zero
      | interval zero => exact valid.interval zero
      | statusPort zero => exact valid.statusPort zero
    | observability configured broken =>
      cases broken with
      | missing empty => exact (valid.observability _ configured).1 empty
      | unresolved fails => exact fails (valid.observability _ configured).2
    | noPops none => exact valid.somePop none
    | pop found broken =>
      have its := valid.pops _ (List.mem_of_getElem? found)
      cases broken with
      | idMissing empty => exact its.1 empty
      | idRepeated repeated => exact nodup_iff_not_repeated.mp valid.popIds _ _ found repeated
      | endpointMissing empty => exact its.2.1 empty
      | endpointInvalid fails => exact fails its.2.2
    | region found broken =>
      have its := valid.regions _ (List.mem_of_getElem? found)
      cases broken with
      | idMissing empty => exact its.1 empty
      | idRepeated repeated => exact nodup_iff_not_repeated.mp valid.regionIds _ _ found repeated
      | noPrefixes empty => exact its.2.1 empty
      | proberMissing empty => exact its.2.2.1 empty
      | proberInvalid fails => exact fails its.2.2.2
  · intro unbroken
    have setting {rule : Nat} {violation : Violation} :
        ¬ config.SettingBreaks rule violation := fun broken => unbroken _ _ (.setting broken)
    have dashboard {o : Observability} (configured : config.observability = some o) {rule : Nat}
        {violation : Violation} : ¬ ObservabilityBreaks names o rule violation :=
      fun broken => unbroken _ _ (.observability configured broken)
    have pop {entry : Nat} {pop : Pop} (found : config.pops[entry]? = some pop) {rule : Nat}
        {violation : Violation} : ¬ PopBreaks (config.pops.take entry) pop rule violation :=
      fun broken => unbroken _ _ (.pop found broken)
    have region {entry : Nat} {region : Region} (found : config.regions[entry]? = some region)
        {rule : Nat} {violation : Violation} :
        ¬ RegionBreaks (config.regions.take entry) region rule violation :=
      fun broken => unbroken _ _ (.region found broken)
    exact {
      logLevel := of_not_not fun unknown => setting (.logLevel unknown)
      ranking := of_not_not fun unknown => setting (.ranking unknown)
      statusTimeout := fun zero => setting (.statusTimeout zero)
      latencyTimeout := fun zero => setting (.latencyTimeout zero)
      interval := fun zero => setting (.interval zero)
      statusPort := fun zero => setting (.statusPort zero)
      observability := fun o configured => ⟨fun empty => dashboard configured (.missing empty),
        of_not_not fun fails => dashboard configured (.unresolved fails)⟩
      somePop := fun none => unbroken _ _ (.noPops none)
      popIds := nodup_iff_not_repeated.mpr fun index entry found repeated =>
        pop found (.idRepeated repeated)
      pops := fun own member => by
        obtain ⟨entry, found⟩ := List.mem_iff_getElem?.mp member
        exact ⟨fun empty => pop found (.idMissing empty),
          fun empty => pop found (.endpointMissing empty),
          of_not_not fun fails => pop found (.endpointInvalid fails)⟩
      regionIds := nodup_iff_not_repeated.mpr fun index entry found repeated =>
        region found (.idRepeated repeated)
      regions := fun own member => by
        obtain ⟨entry, found⟩ := List.mem_iff_getElem?.mp member
        exact ⟨fun empty => region found (.idMissing empty),
          fun empty => region found (.noPrefixes empty),
          fun empty => region found (.proberMissing empty),
          of_not_not fun fails => region found (.proberInvalid fails)⟩ }

end All

/-- Of all host names only that of the dashboard matters, and of this only whether it resolves. -/
theorem validate_congr {config : Config} {names other : Net.NameService}
    (alike : ∀ o, config.observability = some o →
      (Resolves names o.bindAddress ↔ Resolves other o.bindAddress)) :
    config.validate names = config.validate other := by
  have same : observabilityChecks names config.observability =
      observabilityChecks other config.observability := by
    cases configured : config.observability with
    | none => rfl
    | some o =>
      have listenable : isListenable names o.bindAddress = isListenable other o.bindAddress := by
        rw [Bool.eq_iff_iff, ← not_iff_not, Bool.not_eq_true, Bool.not_eq_true,
          isListenable_eq_false_iff, isListenable_eq_false_iff, alike o configured]
      rw [observabilityChecks, observabilityChecks, listenable]
  rw [validate, validate, checks, checks, same]

/-- Whatever is known of host names, a configuration is accepted exactly if it is valid, and otherwise
refused with the violation of the first rule that it breaks, and so in the words of this violation. -/
theorem first_violation (config : Config) (names : Net.NameService) :
    (config.validate names = .ok () ↔ config.IsValid names) ∧
    (∀ violation, config.validate names = .error violation ↔
      ∃ place, config.Breaks names place violation ∧ ∀ other otherViolation,
        config.Breaks names other otherViolation → other = place ∨ place.Before other) ∧
    ∀ text, (config.validate names).mapError Violation.message = .error text ↔
      ∃ place violation, config.Breaks names place violation ∧ violation.message = text ∧
        ∀ other otherViolation, config.Breaks names other otherViolation →
          other = place ∨ place.Before other := by
  refine ⟨?_, fun violation => validate_eq_error_iff, fun text => ?_⟩
  · rw [validate_eq_ok_iff, isValid_iff]
  · have worded : (config.validate names).mapError Violation.message = .error text ↔
        ∃ violation, config.validate names = .error violation ∧ violation.message = text := by
      cases config.validate names with
      | error violation =>
        simp only [Except.error.injEq, exists_eq_left']
        exact ⟨Except.error.inj, congrArg _⟩
      | ok accepted => exact ⟨nofun, nofun⟩
    rw [worded]
    simp only [validate_eq_error_iff]
    constructor
    · rintro ⟨violation, ⟨place, broken, first⟩, words⟩
      exact ⟨place, violation, broken, words, first⟩
    · rintro ⟨place, violation, broken, words, first⟩
      exact ⟨violation, ⟨place, broken, first⟩, words⟩

end Config

end Steering
