import Steering.Proofs.RankedPlaces
/-! Failover: what happens to one PoP does not reorder the others. -/

namespace Steering

/-- Two states agree on everything that is known of PoPs other than the one at a place. -/
structure Snapshot.AgreeBut (place : Nat) (first second : Snapshot) : Prop where
  healths : ∀ other, other ≠ place → first.isHealthyAt other = second.isHealthyAt other
  loads : ∀ other, other ≠ place → first.loadAt other = second.loadAt other
  latencies : ∀ region other, other ≠ place →
    first.latencyAt region other = second.latencyAt region other

theorem Snapshot.AgreeBut.symm {place : Nat} {first second : Snapshot}
    (agree : first.AgreeBut place second) : second.AgreeBut place first where
  healths other different := (agree.healths other different).symm
  loads other different := (agree.loads other different).symm
  latencies region other different := (agree.latencies region other different).symm

namespace RankingPolicy

/-- A ranking of fewer candidates is the ranking of all of them without the others. -/
theorem ranked_filter {candidates : List Candidate} (policy : RankingPolicy)
    (ordered : candidates.Pairwise fun a b => a.index < b.index) (keep : Candidate → Bool) :
    (policy.ranked candidates).filter keep = policy.ranked (candidates.filter keep) := by
  -- Both sides hold the same candidates, and in both they stand in the one strict order that the
  -- policy and the indices give.
  refine List.Perm.eq_of_pairwise ?_ ((pairwise_ranked ordered).filter keep)
    (pairwise_ranked (ordered.filter keep)) ?_
  · intro a b _ _ ⟨less, tie⟩ ⟨lessToo, tieToo⟩
    exact absurd (tie lessToo) (Nat.lt_asymm (tieToo less))
  · refine ((List.mergeSort_perm _ _).filter keep).trans ?_
    rw [List.filter_filter, ranked, List.filter_filter]
    simp only [Bool.and_comm]
    exact (List.mergeSort_perm _ _).symm

end RankingPolicy

namespace Engine

variable {place : Nat} {first second : Snapshot}

/-- What is known of another PoP in one state is known of it in the other. -/
theorem mem_candidates_of_agree (agree : first.AgreeBut place second) {region : Option Nat}
    {candidate : Candidate} (member : candidate ∈ candidates first region)
    (other : candidate.index ≠ place) : candidate ∈ candidates second region := by
  obtain ⟨status, found, same⟩ := mem_candidates_iff.mp member
  have load := agree.loads _ other
  simp only [Snapshot.loadAt, found, Option.map_some] at load
  obtain ⟨statusToo, foundToo, loadToo⟩ := Option.map_eq_some_iff.mp load.symm
  have health := agree.healths _ other
  simp only [Snapshot.isHealthyAt, found, foundToo, Option.any_some] at health
  refine mem_candidates_iff.mpr ⟨statusToo, foundToo, ?_⟩
  have latency : (region.bind fun region => first.latencyAt region candidate.index) =
      region.bind fun region => second.latencyAt region candidate.index := by
    cases region with
    | none => rfl
    | some region => exact agree.latencies region _ other
  rw [same, loadToo]
  simp only [PopStatus.isHealthy, health, latency]

/-- Without one PoP, the candidates are the same in states that agree on the others. -/
theorem candidates_filter_of_agree (agree : first.AgreeBut place second) (region : Option Nat) :
    (candidates first region).filter (·.index ≠ place) =
      (candidates second region).filter (·.index ≠ place) := by
  have one := (pairwise_candidates first region).filter (·.index ≠ place)
  have two := (pairwise_candidates second region).filter (·.index ≠ place)
  have distinct {list : List Candidate} (ordered : list.Pairwise fun a b => a.index < b.index) :
      list.Nodup := by
    refine ordered.imp fun less same => ?_
    exact Nat.ne_of_lt less (congrArg Candidate.index same)
  refine List.Perm.eq_of_pairwise (fun a b _ _ less more => ?_) one two ?_
  · exact absurd less (Nat.lt_asymm more)
  · refine (List.perm_ext_iff_of_nodup (distinct one) (distinct two)).mpr fun candidate => ?_
    simp only [List.mem_filter, decide_eq_true_eq]
    constructor
    · exact fun ⟨member, other⟩ => ⟨mem_candidates_of_agree agree member other, other⟩
    · exact fun ⟨member, other⟩ => ⟨mem_candidates_of_agree agree.symm member other, other⟩

theorem places_filter (engine : Engine) (region : Option Nat) (place : Nat) :
    (engine.places region).filter (· ≠ place) =
      engine.ranking.rank ((candidates engine.store.state region).filter (·.index ≠ place)) := by
  rw [places, RankingPolicy.rank_eq, List.filter_map, RankingPolicy.rank_eq,
    ← RankingPolicy.ranked_filter engine.ranking (pairwise_candidates _ _)]
  rfl

/-- Whatever becomes of one PoP, its health, its load and the latencies to it: without this PoP, the
ranking for a client is the same as before. -/
theorem failover_stability (engine : Engine) (client : Net.Address) (place : Nat)
    (first second : Store) (agree : first.state.AgreeBut place second.state) :
    let before := { engine with store := first }
    let after := { engine with store := second }
    (before.places (before.table.resolve? client)).filter (· ≠ place) =
      (after.places (after.table.resolve? client)).filter (· ≠ place) := by
  intro before after
  rw [places_filter, places_filter]
  exact congrArg engine.ranking.rank (candidates_filter_of_agree agree _)

/-- Two PoPs that are both healthy. -/
def bothHealthy : Store :=
  (Store.initial 2 1).replay [.status [.blank, .blank], .latency 0 [.ofNat 20, .ofNat 10]]

/-- The same after the first has failed and has been measured again. -/
def firstDown : Store :=
  bothHealthy.replay [.status [.failed "PoP is down.", .blank], .latency 0 [.ofNat 5, .ofNat 10]]

theorem agreeBut_firstDown : bothHealthy.state.AgreeBut 0 firstDown.state where
  healths
    | 0, different => absurd rfl different
    | 1, _ => rfl
    | _ + 2, _ => rfl
  loads
    | 0, different => absurd rfl different
    | 1, _ => rfl
    | _ + 2, _ => rfl
  latencies
    | _, 0, different => absurd rfl different
    | 0, 1, _ => rfl
    | 0, _ + 2, _ => rfl
    | _ + 1, _ + 1, _ => rfl

theorem failover_stability_twoPops : ∃ engine, build twoPops true = .ok engine ∧
    bothHealthy.state.AgreeBut 0 firstDown.state ∧
    let client : Net.Address := .v4 (.ofOctets 198 51 100 12)
    let before := { engine with store := bothHealthy }
    let after := { engine with store := firstDown }
    (before.places (before.table.resolve? client)).filter (· ≠ 0) =
      (after.places (after.table.resolve? client)).filter (· ≠ 0) := by
  obtain ⟨engine, built⟩ := build_twoPops
  exact ⟨engine, built, agreeBut_firstDown,
    failover_stability engine _ 0 bothHealthy firstDown agreeBut_firstDown⟩

end Engine

end Steering
