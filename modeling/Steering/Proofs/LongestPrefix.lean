import Steering.RegionTable
/-! Longest prefix match, said of the prefixes of the regions themselves, and that the table finds
exactly this match. -/

namespace Steering.RegionTable

/-- A region has a prefix of a length that contains an address. -/
def Covers (regions : List (List Net.Prefix)) (address : Net.Ipv4) (index length : Nat) : Prop :=
  ∃ prefixes, regions[index]? = some prefixes ∧
    ∃ p ∈ prefixes, p.contains address = true ∧ p.length = length

/-- A region contains an address with a prefix that no prefix of any region is longer than, and no
region before it does so with a prefix of the same length. -/
def IsLongestMatch (regions : List (List Net.Prefix)) (address : Net.Ipv4) (index : Nat) : Prop :=
  ∃ length, Covers regions address index length ∧
    ∀ other otherLength, Covers regions address other otherLength →
      otherLength < length ∨ otherLength = length ∧ index ≤ other

/-- What region a client belongs to: the one with the longest match for the IPv4 address that it
is or maps, and none if there is no such address or no prefix that contains it. -/
def BelongsTo (regions : List (List Net.Prefix)) (client : Net.Address) : Option Nat → Prop
  | some index => ∃ address, client.ipv4? = some address ∧ IsLongestMatch regions address index
  | none => ∀ address, client.ipv4? = some address →
      ∀ index length, ¬ Covers regions address index length

theorem entryLe_iff (a b : Net.Prefix × Nat) :
    entryLe a b = true ↔ b.1.length < a.1.length ∨ b.1.length = a.1.length ∧ a.2 ≤ b.2 := by
  unfold entryLe
  split
  · rename_i same
    simp only [decide_eq_true_eq]
    omega
  · rename_i different
    simp only [decide_eq_true_eq]
    omega

private theorem entryLe_trans (a b c : Net.Prefix × Nat) (first : entryLe a b = true)
    (second : entryLe b c = true) : entryLe a c = true := by
  rw [entryLe_iff] at *
  omega

private theorem entryLe_total (a b : Net.Prefix × Nat) :
    (entryLe a b || entryLe b a) = true := by
  rw [Bool.or_eq_true, entryLe_iff, entryLe_iff]
  omega

variable {regions : List (List Net.Prefix)} {address : Net.Ipv4}

theorem mem_entries_iff {p : Net.Prefix} {index : Nat} :
    (p, index) ∈ (ofPrefixes regions).entries ↔
      ∃ prefixes, regions[index]? = some prefixes ∧ p ∈ prefixes := by
  simp only [ofPrefixes, List.mem_mergeSort, List.mem_flatMap, List.mem_map, Prod.mk.injEq]
  constructor
  · rintro ⟨⟨prefixes, place⟩, listed, q, member, rfl, rfl⟩
    exact ⟨prefixes, List.mem_zipIdx_iff_getElem?.mp listed, member⟩
  · rintro ⟨prefixes, found, member⟩
    exact ⟨(prefixes, index), List.mem_zipIdx_iff_getElem?.mpr found, p, member, rfl, rfl⟩

theorem covers_iff {index length : Nat} :
    Covers regions address index length ↔
      ∃ p, (p, index) ∈ (ofPrefixes regions).entries ∧ p.contains address = true ∧
        p.length = length := by
  simp only [mem_entries_iff]
  constructor
  · rintro ⟨prefixes, found, p, member, contains, same⟩
    exact ⟨p, ⟨prefixes, found, member⟩, contains, same⟩
  · rintro ⟨p, ⟨prefixes, found, member⟩, contains, same⟩
    exact ⟨prefixes, found, p, member, contains, same⟩

/-- The first entry that contains an address belongs to the longest match. -/
theorem isLongestMatch_of_resolve {index : Nat}
    (found : (ofPrefixes regions).resolveIpv4? address = some index) :
    IsLongestMatch regions address index := by
  obtain ⟨⟨p, place⟩, first, rfl⟩ := Option.map_eq_some_iff.mp found
  obtain ⟨contains, before, after, split, skipped⟩ := List.find?_eq_some_iff_append.mp first
  have sorted : (ofPrefixes regions).entries.Pairwise fun a b => entryLe a b = true :=
    List.pairwise_mergeSort entryLe_trans entryLe_total _
  rw [split] at sorted
  have least := (List.pairwise_cons.mp (List.pairwise_append.mp sorted).2.1).1
  have member : (p, place) ∈ (ofPrefixes regions).entries := by
    rw [split]
    exact List.mem_append_right _ (List.mem_cons_self ..)
  refine ⟨p.length, covers_iff.mpr ⟨p, member, contains, rfl⟩, ?_⟩
  intro other otherLength covered
  obtain ⟨q, listed, holds, rfl⟩ := covers_iff.mp covered
  rw [split] at listed
  rcases List.mem_append.mp listed with early | late
  · have rejected := skipped (q, other) early
    simp [holds] at rejected
  · rcases List.mem_cons.mp late with same | later
    · cases same
      exact .inr ⟨rfl, Nat.le_refl _⟩
    · exact (entryLe_iff _ _).mp (least (q, other) later)

theorem not_covers_of_resolve (missing : (ofPrefixes regions).resolveIpv4? address = none)
    (index length : Nat) : ¬ Covers regions address index length := by
  intro covered
  obtain ⟨p, member, contains, _⟩ := covers_iff.mp covered
  have rejected := List.find?_eq_none.mp (Option.map_eq_none_iff.mp missing) (p, index) member
  exact rejected contains

/-- The table gives every client the region that it belongs to. -/
theorem belongsTo_resolve (client : Net.Address) :
    BelongsTo regions client ((ofPrefixes regions).resolve? client) := by
  cases resolved : (ofPrefixes regions).resolve? client with
  | some index =>
    obtain ⟨address, isIpv4, found⟩ := Option.bind_eq_some_iff.mp resolved
    exact ⟨address, isIpv4, isLongestMatch_of_resolve found⟩
  | none =>
    intro address isIpv4
    have missing : (ofPrefixes regions).resolveIpv4? address = none := by
      simpa [resolve?, isIpv4] using resolved
    exact not_covers_of_resolve missing

/-- The region that a client belongs to is one that there is. -/
theorem BelongsTo.lt_length {client : Net.Address} {index : Nat}
    (belongs : BelongsTo regions client (some index)) : index < regions.length := by
  obtain ⟨_, _, _, ⟨_, found, _⟩, _⟩ := belongs
  exact (List.getElem?_eq_some_iff.mp found).1

/-- A client belongs to no two regions, and not to a region and to none. -/
theorem BelongsTo.unique {client : Net.Address} {first second : Option Nat}
    (one : BelongsTo regions client first) (two : BelongsTo regions client second) :
    first = second := by
  cases first with
  | none =>
    cases second with
    | none => rfl
    | some index =>
      obtain ⟨address, isIpv4, length, covered, _⟩ := two
      exact absurd covered (one address isIpv4 index length)
  | some index =>
    obtain ⟨address, isIpv4, length, covered, longest⟩ := one
    cases second with
    | none => exact absurd covered (two address isIpv4 index length)
    | some other =>
      obtain ⟨same, isSame, otherLength, otherCovered, otherLongest⟩ := two
      have equal := Option.some.inj (isIpv4.symm.trans isSame)
      subst equal
      have less := longest other otherLength otherCovered
      have more := otherLongest index length covered
      exact congrArg some (by omega)

end Steering.RegionTable
