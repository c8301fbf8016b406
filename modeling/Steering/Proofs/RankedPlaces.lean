import Steering.Proofs.QueryAnswer
/-! The places of the PoPs in a ranking: which they are, and which of two comes first. -/

namespace Steering

/-- Of two elements of a list, one comes before the other. -/
theorem sublist_pair_or {α : Type} {list : List α} {a b : α} (first : a ∈ list) (second : b ∈ list)
    (different : a ≠ b) : [a, b].Sublist list ∨ [b, a].Sublist list := by
  obtain ⟨early, late, rfl⟩ := List.append_of_mem first
  rcases List.mem_append.mp second with sooner | later
  · right
    exact (List.singleton_sublist.mpr sooner).append
      (List.singleton_sublist.mpr (List.mem_cons_self ..))
  · left
    have after : b ∈ late := (List.mem_cons.mp later).resolve_left different.symm
    exact ((List.singleton_sublist.mpr after).cons_cons a).trans (List.sublist_append_right _ _)

theorem RankingPolicy.Precedes.asymm {policy : RankingPolicy} {snapshot : Snapshot}
    {region : Option Nat} {first second : Nat}
    (precedes : policy.Precedes snapshot region first second) :
    ¬ policy.Precedes snapshot region second first := by
  rintro (⟨x, y, later, earlier, less⟩ | ⟨same, above⟩)
  · rcases precedes with ⟨v, w, one, two, lessToo⟩ | ⟨same, -⟩
    · cases one.symm.trans earlier
      cases two.symm.trans later
      omega
    · rw [later, earlier] at same
      cases same
      exact Int.lt_irrefl _ less
  · rcases precedes with ⟨v, w, one, two, less⟩ | ⟨-, below⟩
    · rw [one, two] at same
      cases same
      exact Int.lt_irrefl _ less
    · exact Nat.lt_asymm above below

namespace Engine

/-- The places of the PoPs for the clients of a region, or for clients without one, best first. -/
def places (engine : Engine) (region : Option Nat) : List Nat :=
  engine.ranking.rank (candidates engine.store.state region)

variable {engine : Engine} {region : Option Nat} {place other : Nat}

/-- What is answered to a client are the addresses at these places. -/
theorem query_eq_places (engine : Engine) (client : Net.Address) :
    engine.query client =
      (engine.places (engine.table.resolve? client)).filterMap fun place =>
        engine.pops[place]?.map (·.ip4) :=
  List.map_filterMap

theorem defaultRanking_eq_places (engine : Engine) :
    engine.defaultRanking =
      (engine.places none).filterMap fun place => engine.pops[place]?.map (·.ip4) :=
  List.map_filterMap

theorem mem_places_iff :
    place ∈ engine.places region ↔ engine.store.state.isHealthyAt place = true := by
  rw [places, RankingPolicy.rank_eq, List.mem_map, ← @healthy_candidate_iff _ region]
  simp only [RankingPolicy.mem_ranked_iff, and_assoc]

theorem pairwise_places {pops regions : Nat} (shaped : engine.store.Shaped pops regions)
    (known : ∀ index ∈ region, index < regions) :
    (engine.places region).Pairwise (engine.ranking.Precedes engine.store.state region) := by
  have sorted := @RankingPolicy.pairwise_ranked engine.ranking _
    (pairwise_candidates engine.store.state region)
  refine List.pairwise_map.mpr (sorted.imp_of_mem fun first second stands => ?_)
  exact precedes_of_le shaped known (RankingPolicy.mem_ranked_iff.mp first).1
    (RankingPolicy.mem_ranked_iff.mp second).1 stands

/-- Of two healthy PoPs that one comes first that the policy puts first. -/
theorem sublist_places_iff {pops regions : Nat} (shaped : engine.store.Shaped pops regions)
    (known : ∀ index ∈ region, index < regions)
    (healthy : engine.store.state.isHealthyAt place = true)
    (healthyToo : engine.store.state.isHealthyAt other = true) :
    [place, other].Sublist (engine.places region) ↔
      engine.ranking.Precedes engine.store.state region place other := by
  have sorted := pairwise_places shaped known
  constructor
  · exact fun before => sorted.forall_sublist before
  · intro precedes
    have different : place ≠ other := by
      rintro rfl
      exact precedes.asymm precedes
    refine (sublist_pair_or (mem_places_iff.mpr healthy) (mem_places_iff.mpr healthyToo)
      different).resolve_right fun after => ?_
    exact precedes.asymm (sorted.forall_sublist after)

end Engine

end Steering
