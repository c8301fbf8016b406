import Steering.Report.PopStatus
/-! The state of an engine: one status record per PoP, one latency vector per region, and a
version that counts the commits. A commit replaces a whole collection or nothing. -/

namespace Steering

/-- The latency that every region starts with. -/
def initialLatency : Binary64 := .ofNat 10000000

/-- The latency that stands for a failed measurement. -/
def unreachableLatency : Binary64 := .ofNat 20000000

/-- The state at one moment. -/
structure Snapshot where
  version : UInt32
  /-- One record per PoP, in the order of the configuration. -/
  popStatus : List PopStatus
  /-- One vector per region, each with one latency per PoP. -/
  regionLatency : List (List Binary64)
deriving DecidableEq, Repr

/-- The state with the number of PoPs that it is for. -/
structure Store where
  popCount : Nat
  state : Snapshot
deriving DecidableEq, Repr

/-- What is committed: a record for every PoP, or the latency vector of one region. -/
inductive Commit where
  | status (statuses : List PopStatus)
  | latency (region : Nat) (latencies : List Binary64)
deriving DecidableEq, Repr

/-- Why a commit is refused. -/
inductive StoreFault where
  | lengthMismatch (expected actual : Nat)
  | unknownRegion (index count : Nat)
deriving DecidableEq, Repr

/-- The wording of a refused commit. -/
def StoreFault.message : StoreFault → String
  | lengthMismatch expected actual =>
    "expected " ++ toString expected ++ " entries, one per PoP, got " ++ toString actual
  | unknownRegion index count =>
    "region index " ++ toString index ++ " out of range (" ++ toString count ++ " regions)"

namespace Store

/-- The state before the first commit. -/
def initial (popCount regionCount : Nat) : Store where
  popCount := popCount
  state := {
    version := 0
    popStatus := List.replicate popCount .notYetAvailable
    regionLatency := List.replicate regionCount (List.replicate popCount initialLatency) }

/-- The number of commits so far. -/
def version (store : Store) : UInt32 := store.state.version

/-- Commits a status record for every PoP. -/
def replaceStatus (store : Store) (statuses : List PopStatus) : Except StoreFault Store :=
  if statuses.length ≠ store.popCount then
    .error (.lengthMismatch store.popCount statuses.length)
  else
    .ok { store with
      state := { store.state with
        version := store.state.version + 1
        popStatus := statuses } }

/-- Commits the latency vector of one region. -/
def replaceLatency (store : Store) (region : Nat) (latency : List Binary64) :
    Except StoreFault Store :=
  if latency.length ≠ store.popCount then
    .error (.lengthMismatch store.popCount latency.length)
  else if store.state.regionLatency.length ≤ region then
    .error (.unknownRegion region store.state.regionLatency.length)
  else
    .ok { store with
      state := { store.state with
        version := store.state.version + 1
        regionLatency := store.state.regionLatency.set region latency } }

/-- Makes a commit. -/
def commit (store : Store) : Commit → Except StoreFault Store
  | .status statuses => store.replaceStatus statuses
  | .latency region latencies => store.replaceLatency region latencies

/-- The latency vector of a region. -/
def regionLatency? (store : Store) (region : Nat) : Option (List Binary64) :=
  store.state.regionLatency[region]?

end Store

end Steering
