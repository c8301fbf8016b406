import Mathlib.Data.List.Forall2
import Steering.Proofs.LongestPrefix
/-! The region of a client, said bit by bit: whether a prefix holds a client is a matter of the
first bits of two addresses, and the region is decided by the longest prefix that does. -/

namespace Steering.Net

/-- Whether two addresses agree in their first bits. -/
def Ipv4.SameLeading (count : Nat) (a b : Ipv4) : Prop :=
  ∀ bit < count, a.bits.getMsbD bit = b.bits.getMsbD bit

/-- The address `::ffff:a.b.c.d` that maps an IPv4 address. -/
def Ipv6.ofIpv4 (address : Ipv4) : Ipv6 :=
  ⟨(0xFFFF : BitVec 96) ++ address.bits⟩

/-- An address is an IPv4 address or maps it. -/
inductive Address.Stands : Address → Ipv4 → Prop
  | itself (address : Ipv4) : Stands (.v4 address) address
  | mapped (address : Ipv4) : Stands (.v6 (.ofIpv4 address)) address

namespace Prefix

/-- A prefix holds a client that stands for an IPv4 address with the same first bits, as many as
the prefix is long. -/
def Holds (p : Prefix) (client : Address) : Prop :=
  ∃ address, client.Stands address ∧ p.address.SameLeading p.length address

/-- Two prefixes differ at most in the bits of their addresses below their length. -/
def SameNetwork (p q : Prefix) : Prop :=
  p.length = q.length ∧ p.address.SameLeading p.length q.address

end Prefix

theorem Ipv4.SameLeading.symm {count : Nat} {a b : Ipv4} (same : a.SameLeading count b) :
    b.SameLeading count a :=
  fun bit inside => (same bit inside).symm

theorem Ipv4.SameLeading.trans {count : Nat} {a b c : Ipv4} (first : a.SameLeading count b)
    (second : b.SameLeading count c) : a.SameLeading count c :=
  fun bit inside => (first bit inside).trans (second bit inside)

/-- A bit that a prefix looks at is a bit of the number that the leading bits make. -/
theorem Prefix.testBit_leadingBits {length bit : Nat} (le : length ≤ 32) (inside : bit < length)
    (address : Ipv4) :
    (leadingBits length address).testBit (length - 1 - bit) = address.bits.getMsbD bit := by
  have place : length - 1 - bit + (32 - length) = 32 - 1 - bit := by omega
  have known : bit < 32 := Nat.lt_of_lt_of_le inside le
  rw [leadingBits, Nat.pow_eq, Nat.testBit_div_two_pow, place, BitVec.testBit_toNat,
    BitVec.getMsbD]
  simp [known]

/-- The leading bits of two addresses make one number exactly if they are the same. -/
theorem Prefix.leadingBits_eq_iff {length : Nat} (le : length ≤ 32) {a b : Ipv4} :
    leadingBits length a = leadingBits length b ↔ a.SameLeading length b := by
  constructor
  · intro same bit inside
    rw [← testBit_leadingBits le inside, ← testBit_leadingBits le inside, same]
  · intro same
    refine Nat.eq_of_testBit_eq fun place => ?_
    by_cases inside : place < length
    · have mirrored : length - 1 - (length - 1 - place) = place := by omega
      have its := same (length - 1 - place) (by omega)
      rwa [← testBit_leadingBits le (by omega), ← testBit_leadingBits le (by omega),
        mirrored] at its
    · have beyond (address : Ipv4) : (leadingBits length address).testBit place = false := by
        rw [leadingBits, Nat.pow_eq, Nat.testBit_div_two_pow, BitVec.testBit_toNat]
        exact BitVec.getLsbD_of_ge _ _ (by omega)
      rw [beyond, beyond]

theorem Prefix.contains_iff {p : Prefix} {address : Ipv4} :
    p.contains address = true ↔ p.address.SameLeading p.length address := by
  rw [contains, beq_iff_eq, leadingBits_eq_iff p.length_le]

theorem Ipv6.toNat_ofIpv4 (address : Ipv4) :
    (ofIpv4 address).bits.toNat = 0xFFFF * 0x100000000 + address.bits.toNat := by
  have shifted := Nat.shiftLeft_add_eq_or_of_lt address.bits.isLt 0xFFFF
  rw [Nat.shiftLeft_eq] at shifted
  rw [ofIpv4, BitVec.toNat_append]
  exact shifted.symm

theorem Ipv6.mapped?_eq_some_iff {address : Ipv6} {ip4 : Ipv4} :
    address.mapped? = some ip4 ↔ address = .ofIpv4 ip4 := by
  have bound := ip4.bits.isLt
  constructor
  · intro mapped
    rw [mapped?] at mapped
    split at mapped
    · rename_i leading
      cases mapped
      have whole : address.bits =
          (ofIpv4 ⟨BitVec.ofNat 32 (address.bits.toNat % 0x100000000)⟩).bits := by
        apply BitVec.eq_of_toNat_eq
        rw [toNat_ofIpv4, BitVec.toNat_ofNat]
        omega
      cases address
      exact congrArg mk whole
    · cases mapped
  · rintro rfl
    have number := toNat_ofIpv4 ip4
    have leading : (ofIpv4 ip4).bits.toNat / 0x100000000 = 0xFFFF := by omega
    have rest : (ofIpv4 ip4).bits.toNat % 0x100000000 = ip4.bits.toNat := by omega
    rw [mapped?, if_pos leading, rest, BitVec.ofNat_toNat, BitVec.setWidth_eq]

theorem Address.ipv4?_eq_some_iff {client : Address} {address : Ipv4} :
    client.ipv4? = some address ↔ client.Stands address := by
  cases client with
  | v4 own =>
    rw [ipv4?, Option.some.injEq]
    constructor
    · rintro rfl
      exact .itself own
    · rintro ⟨⟩
      rfl
  | v6 own =>
    rw [ipv4?, Ipv6.mapped?_eq_some_iff]
    constructor
    · rintro rfl
      exact .mapped address
    · rintro ⟨⟩
      rfl

end Steering.Net

namespace Steering.RegionTable

open Net (Address Ipv4 Ipv6 Prefix)

/-- The regions hold a client by a prefix of some length of the region at some place. -/
def HeldBy (regions : List (List Prefix)) (client : Address) (index length : Nat) : Prop :=
  ∃ prefixes p, regions[index]? = some prefixes ∧ p ∈ prefixes ∧ p.Holds client ∧ p.length = length

/-- Two lists of prefixes are for the same networks, in whatever order and however often they name
them, and whatever addresses they name them by. -/
def SameNetworks (prefixes others : List Prefix) : Prop :=
  (∀ p ∈ prefixes, ∃ q ∈ others, p.SameNetwork q) ∧ ∀ q ∈ others, ∃ p ∈ prefixes, p.SameNetwork q

variable {regions others : List (List Prefix)} {client : Address} {address : Ipv4}

theorem covers_iff_heldBy (stands : client.Stands address) {index length : Nat} :
    Covers regions address index length ↔ HeldBy regions client index length := by
  have holds {p : Prefix} : p.contains address = true ↔ p.Holds client := by
    rw [Prefix.contains_iff]
    constructor
    · exact fun same => ⟨address, stands, same⟩
    · rintro ⟨other, standsToo, same⟩
      have first := Address.ipv4?_eq_some_iff.mpr stands
      cases first.symm.trans (Address.ipv4?_eq_some_iff.mpr standsToo)
      exact same
  simp only [Covers, HeldBy, holds, exists_and_left]

theorem resolve_eq_iff {answer : Option Nat} :
    (ofPrefixes regions).resolve? client = answer ↔ BelongsTo regions client answer := by
  have belongs := @belongsTo_resolve regions client
  constructor
  · rintro rfl
    exact belongs
  · exact fun also => belongs.unique also

theorem HeldBy.exists_stands {index length : Nat} (held : HeldBy regions client index length) :
    ∃ address, client.Stands address := by
  obtain ⟨_, _, _, _, ⟨address, stands, _⟩, _⟩ := held
  exact ⟨address, stands⟩

theorem belongsTo_some_iff {index : Nat} :
    BelongsTo regions client (some index) ↔ ∃ length, HeldBy regions client index length ∧
      ∀ other otherLength, HeldBy regions client other otherLength →
        otherLength < length ∨ otherLength = length ∧ index ≤ other := by
  constructor
  · rintro ⟨address, its, length, covered, longest⟩
    have stands := Address.ipv4?_eq_some_iff.mp its
    refine ⟨length, (covers_iff_heldBy stands).mp covered, fun other otherLength held => ?_⟩
    exact longest other otherLength ((covers_iff_heldBy stands).mpr held)
  · rintro ⟨length, held, longest⟩
    obtain ⟨address, stands⟩ := held.exists_stands
    refine ⟨address, Address.ipv4?_eq_some_iff.mpr stands, length,
      (covers_iff_heldBy stands).mpr held, fun other otherLength covered => ?_⟩
    exact longest other otherLength ((covers_iff_heldBy stands).mp covered)

theorem belongsTo_none_iff :
    BelongsTo regions client none ↔ ∀ index length, ¬ HeldBy regions client index length := by
  constructor
  · intro none index length held
    obtain ⟨address, stands⟩ := held.exists_stands
    exact none address (Address.ipv4?_eq_some_iff.mpr stands) index length
      ((covers_iff_heldBy stands).mpr held)
  · intro none address its index length covered
    have stands := Address.ipv4?_eq_some_iff.mp its
    exact none index length ((covers_iff_heldBy stands).mp covered)

theorem SameNetworks.symm {prefixes others : List Prefix} (same : SameNetworks prefixes others) :
    SameNetworks others prefixes := by
  constructor
  · intro q member
    obtain ⟨p, listed, length, leading⟩ := same.2 q member
    exact ⟨p, listed, length.symm, length ▸ leading.symm⟩
  · intro p member
    obtain ⟨q, listed, length, leading⟩ := same.1 p member
    exact ⟨q, listed, length.symm, length ▸ leading.symm⟩

theorem HeldBy.of_sameNetworks (same : List.Forall₂ SameNetworks regions others)
    {index length : Nat} (held : HeldBy regions client index length) :
    HeldBy others client index length := by
  induction same generalizing index with
  | nil => exact held
  | cons here _ ih =>
    cases index with
    | zero =>
      obtain ⟨prefixes, p, found, member, ⟨address, stands, leading⟩, rfl⟩ := held
      cases found
      obtain ⟨q, listed, equal, alike⟩ := here.1 p member
      have its := alike.symm.trans leading
      rw [equal] at its
      exact ⟨_, q, rfl, listed, ⟨address, stands, its⟩, equal.symm⟩
    | succ index => exact @ih index held

/-- Regions that are named differently hold the same clients. -/
theorem heldBy_iff_of_sameNetworks (same : List.Forall₂ SameNetworks regions others)
    {index length : Nat} :
    HeldBy regions client index length ↔ HeldBy others client index length := by
  have back : List.Forall₂ SameNetworks others regions :=
    same.flip.imp fun _ _ alike => SameNetworks.symm alike
  exact ⟨HeldBy.of_sameNetworks same, HeldBy.of_sameNetworks back⟩

theorem resolve_congr (same : List.Forall₂ SameNetworks regions others) :
    (ofPrefixes others).resolve? client = (ofPrefixes regions).resolve? client := by
  rw [resolve_eq_iff]
  have belongs := @belongsTo_resolve regions client
  generalize (ofPrefixes regions).resolve? client = answer at belongs ⊢
  cases answer with
  | some index =>
    rw [belongsTo_some_iff] at belongs ⊢
    simpa only [heldBy_iff_of_sameNetworks same] using belongs
  | none =>
    rw [belongsTo_none_iff] at belongs ⊢
    simpa only [heldBy_iff_of_sameNetworks same] using belongs

theorem resolve_eq_some_iff {index : Nat} :
    (ofPrefixes regions).resolve? client = some index ↔
      ∃ prefixes p, regions[index]? = some prefixes ∧ p ∈ prefixes ∧ p.Holds client ∧
        (∀ others ∈ regions, ∀ q ∈ others, q.Holds client → q.length ≤ p.length) ∧
        ∀ earlier < index, ∀ others, regions[earlier]? = some others →
          ∀ q ∈ others, q.Holds client → q.length ≠ p.length := by
  rw [resolve_eq_iff, belongsTo_some_iff]
  constructor
  · rintro ⟨_, ⟨prefixes, p, found, member, holds, rfl⟩, longest⟩
    refine ⟨prefixes, p, found, member, holds, fun others listed q its holdsToo => ?_,
      fun earlier before others listed q its holdsToo equal => ?_⟩
    · obtain ⟨other, place⟩ := List.mem_iff_getElem?.mp listed
      have against := longest other q.length ⟨others, q, place, its, holdsToo, rfl⟩
      omega
    · have against := longest earlier q.length ⟨others, q, listed, its, holdsToo, rfl⟩
      omega
  · rintro ⟨prefixes, p, found, member, holds, longest, first⟩
    refine ⟨p.length, ⟨prefixes, p, found, member, holds, rfl⟩, ?_⟩
    rintro other _ ⟨others, q, listed, its, holdsToo, rfl⟩
    have most := longest others (List.mem_of_getElem? listed) q its holdsToo
    have tie (before : other < index) := first other before others listed q its holdsToo
    omega

theorem resolve_eq_none_iff :
    (ofPrefixes regions).resolve? client = none ↔
      ∀ prefixes ∈ regions, ∀ p ∈ prefixes, ¬ p.Holds client := by
  rw [resolve_eq_iff, belongsTo_none_iff]
  constructor
  · intro none prefixes listed p member holds
    obtain ⟨index, found⟩ := List.mem_iff_getElem?.mp listed
    exact none index p.length ⟨prefixes, p, found, member, holds, rfl⟩
  · rintro none index _ ⟨prefixes, p, found, member, holds, -⟩
    exact none prefixes (List.mem_of_getElem? found) p member holds

theorem resolve_mapped (table : RegionTable) (address : Ipv4) :
    table.resolve? (.v6 (.ofIpv4 address)) = table.resolve? (.v4 address) := by
  have maps := Ipv6.mapped?_eq_some_iff.mpr (rfl : Ipv6.ofIpv4 address = _)
  rw [resolve?, resolve?, Address.ipv4?, Address.ipv4?, maps]

theorem resolve_unmapped (table : RegionTable) {client : Ipv6}
    (other : ∀ address, client ≠ .ofIpv4 address) : table.resolve? (.v6 client) = none := by
  have maps : client.mapped? = none := by
    refine Option.eq_none_iff_forall_ne_some.mpr fun address maps => ?_
    exact other address (Ipv6.mapped?_eq_some_iff.mp maps)
  rw [resolve?, Address.ipv4?, maps, Option.bind_none]

/-- A client belongs to the first of the regions that hold it by the longest prefix, and to none
exactly if no prefix holds it. An address that maps an IPv4 address belongs where this does, and
any other IPv6 address nowhere. How a region names its networks does not matter. -/
theorem client_region (regions : List (List Prefix)) :
    let table := ofPrefixes regions
    (∀ client index, table.resolve? client = some index ↔
      ∃ prefixes p, regions[index]? = some prefixes ∧ p ∈ prefixes ∧ p.Holds client ∧
        (∀ others ∈ regions, ∀ q ∈ others, q.Holds client → q.length ≤ p.length) ∧
        ∀ earlier < index, ∀ others, regions[earlier]? = some others →
          ∀ q ∈ others, q.Holds client → q.length ≠ p.length) ∧
    (∀ client, table.resolve? client = none ↔
      ∀ prefixes ∈ regions, ∀ p ∈ prefixes, ¬ p.Holds client) ∧
    (∀ address, table.resolve? (.v6 (.ofIpv4 address)) = table.resolve? (.v4 address)) ∧
    (∀ client, (∀ address, client ≠ .ofIpv4 address) → table.resolve? (.v6 client) = none) ∧
    ∀ others, List.Forall₂ SameNetworks regions others →
      ∀ client, (ofPrefixes others).resolve? client = table.resolve? client := by
  intro table
  refine ⟨fun client index => resolve_eq_some_iff, fun client => resolve_eq_none_iff,
    resolve_mapped table, fun client => resolve_unmapped table, ?_⟩
  exact fun others same client => resolve_congr same

end Steering.RegionTable
