import Steering.Net.Prefix
/-! Which region a client belongs to: the one with the longest prefix that contains the client,
and of two such prefixes of one length the one whose region is configured first. -/

namespace Steering

/-- The prefixes of all regions with the index of their region, longest prefix first. -/
structure RegionTable where
  entries : List (Net.Prefix × Nat)
deriving Repr

namespace RegionTable

/-- Whether an entry may stand before another: a longer prefix first, then the earlier region. -/
def entryLe (a b : Net.Prefix × Nat) : Bool :=
  if a.1.length = b.1.length then a.2 ≤ b.2 else b.1.length < a.1.length

/-- The table of regions that are given by their prefixes. -/
def ofPrefixes (regions : List (List Net.Prefix)) : RegionTable :=
  let entries := regions.zipIdx.flatMap fun (prefixes, index) => prefixes.map (·, index)
  ⟨entries.mergeSort entryLe⟩

/-- The region of an IPv4 address. -/
def resolveIpv4? (table : RegionTable) (address : Net.Ipv4) : Option Nat :=
  (table.entries.find? (·.1.contains address)).map (·.2)

/-- The region of a client. -/
def resolve? (table : RegionTable) (client : Net.Address) : Option Nat :=
  client.ipv4?.bind table.resolveIpv4?

end RegionTable

end Steering
