import Steering.Binary64.Basic
import Steering.Text.Blank
import Steering.Text.Lowercase
/-! Ranking: how the healthy PoPs are ordered for a client. Every policy sorts stably by a key,
so PoPs with equal keys keep the order of the configuration. -/

namespace Steering

/-- What the order of PoPs for a client goes by. -/
inductive RankingPolicy where
  | lowestLatency
  | configOrder
  | leastLoad
deriving DecidableEq, Repr

/-- What is known of one PoP when it is ranked. -/
structure Candidate where
  /-- Its place in the configuration. -/
  index : Nat
  healthy : Bool
  load : Binary64
  /-- Its latency from the region of the client, if the client has a region. -/
  latency : Option Binary64
deriving DecidableEq, Repr

namespace RankingPolicy

/-- The name of a policy in messages. -/
def name : RankingPolicy → String
  | lowestLatency => "LowestLatency"
  | configOrder => "ConfigOrder"
  | leastLoad => "LeastLoad"

/-- The policy of a configured text: blanks around it and the case of its letters do not
count. -/
def ofText? (s : String) : Option RankingPolicy :=
  match Text.lower (Text.trim s) with
  | "lowest-latency" | "lowest_latency" | "latency" => some lowestLatency
  | "config-order" | "config_order" | "health-only" => some configOrder
  | "least-load" | "least_load" => some leastLoad
  | _ => none

/-- The message for a text that names no policy. -/
def unsupported (s : String) : String :=
  "unsupported ranking type: " ++ s

/-- Whether a latency is at most another in the total order of doubles; an absent one comes
after all others. -/
def latencyLe : Option Binary64 → Option Binary64 → Bool
  | some x, some y => x.orderKey ≤ y.orderKey
  | some _, none => true
  | none, some _ => false
  | none, none => true

/-- Whether one candidate may stand before another. -/
def le : RankingPolicy → Candidate → Candidate → Bool
  | lowestLatency, a, b => latencyLe a.latency b.latency
  | configOrder, _, _ => true
  | leastLoad, a, b => a.load.orderKey ≤ b.load.orderKey

/-- The indices of the healthy candidates, best first. -/
def rank (policy : RankingPolicy) (candidates : List Candidate) : List Nat :=
  ((candidates.filter (·.healthy)).mergeSort policy.le).map (·.index)

end RankingPolicy

end Steering
