import Steering.Engine.Basic
/-! What can be asked of an engine. Every answer is made from one snapshot of its state. -/

namespace Steering.Engine

/-- The region of a client. -/
def resolveRegion? (engine : Engine) (client : Net.Address) : Option Region :=
  (engine.table.resolve? client).bind fun index => engine.regions[index]?

/-- What is known of each PoP for the clients of a region, or for clients without one. -/
def candidates (snapshot : Snapshot) (region : Option Nat) : List Candidate :=
  let latency := region.bind fun index => snapshot.regionLatency[index]?
  snapshot.popStatus.zipIdx.map fun (status, index) =>
    ⟨index, status.isHealthy, status.load, latency.bind fun l => l[index]?⟩

/-- The PoPs for the clients of a region, or for clients without one, best first. -/
def rank (engine : Engine) (region : Option Nat) : List Pop :=
  (engine.ranking.rank (candidates engine.store.state region)).filterMap fun index =>
    engine.pops[index]?

/-- The addresses of the PoPs for a client, best first. Without a healthy PoP there are none. -/
def query (engine : Engine) (client : Net.Address) : List Net.Ipv4 :=
  (engine.rank (engine.table.resolve? client)).map (·.ip4)

/-- The addresses for clients outside every region. -/
def defaultRanking (engine : Engine) : List Net.Ipv4 :=
  (engine.rank none).map (·.ip4)

/-- What is answered for an address that no PoP has. -/
def popNotFound : String := "<not found>"

/-- The id of the first PoP with an address. -/
def popIdOf (engine : Engine) (address : Net.Address) : String :=
  match address.ipv4?.bind fun ip4 => engine.pops.find? (·.ip4 == ip4) with
  | some pop => pop.id
  | none => popNotFound

/-- Adds an entry to a list of entries in ascending order of their keys, in the place of one
with the same key. -/
def insertByKey {α : Type} (key : String) (value : α) :
    List (String × α) → List (String × α)
  | [] => [(key, value)]
  | (k, v) :: rest =>
    if key < k then (key, value) :: (k, v) :: rest
    else if key = k then (key, value) :: rest
    else (k, v) :: insertByKey key value rest

/-- Entries in ascending order of their keys; of those with one key, the last. -/
def sortByKey {α : Type} (entries : List (String × α)) : List (String × α) :=
  entries.foldl (fun sorted entry => insertByKey entry.1 entry.2 sorted) []

/-- The latency from every region to a PoP, by the ids of the regions. -/
def latencyToPop? (engine : Engine) (popId : String) : Option (List (String × Binary64)) := do
  let index ← engine.pops.findIdx? (·.id == popId)
  return sortByKey ((engine.regions.zip engine.store.state.regionLatency).filterMap
    fun (region, latency) => latency[index]?.map (region.id, ·))

/-- The latency from a region to every PoP, by the ids of the PoPs. -/
def latencyToRegion? (engine : Engine) (regionId : String) :
    Option (List (String × Binary64)) := do
  let index ← engine.regions.findIdx? (·.id == regionId)
  let latency ← engine.store.regionLatency? index
  return sortByKey ((engine.pops.zip latency).map fun (pop, x) => (pop.id, x))

end Steering.Engine
