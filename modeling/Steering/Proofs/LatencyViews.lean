import Mathlib.Data.List.Perm.Basic
import Steering.Proofs.AcceptedEntries
import Steering.Proofs.QueryAnswer
import Steering.Proofs.SortedKeys
import Steering.Proofs.TextBytes
/-! The two views of the latencies: by region for one PoP, and by PoP for one region. Both show what
the state holds, and each is the transpose of the other. -/

namespace Steering

/-- The state has a latency from every region to every PoP. -/
theorem Store.Shaped.exists_latencyAt {pops regions : Nat} {store : Store}
    (shaped : store.Shaped pops regions) {region place : Nat} (known : region < regions)
    (inside : place < pops) :
    ∃ latency x, store.state.regionLatency[region]? = some latency ∧ latency[place]? = some x ∧
      store.state.latencyAt region place = some x := by
  have bound : region < store.state.regionLatency.length := shaped.regions ▸ known
  have length := shaped.latencies _ (List.getElem_mem bound)
  have place_lt : place < store.state.regionLatency[region].length := length ▸ inside
  have found := List.getElem?_eq_getElem bound
  refine ⟨_, _, found, List.getElem?_eq_getElem place_lt, ?_⟩
  rw [Snapshot.latencyAt, found, Option.bind_some, List.getElem?_eq_getElem place_lt]

/-- A view of latencies by id: each of some ids once, in the order of their bytes, with the value
that belongs to the place of the id. -/
structure IsLatencyView (ids : List String) (value : Nat → Option Binary64)
    (view : List (String × Binary64)) : Prop where
  ascending : view.Pairwise fun first second => Text.encode first.1 < Text.encode second.1
  keys : (view.map (·.1)).Perm ids
  values : ∀ {place : Nat} {id : String}, ids[place]? = some id →
    ∃ x, value place = some x ∧ view.lookup id = some x

namespace Engine

/-- What is made of the first parts of pairs is made of the list that they come from. -/
private theorem map_zip_fst {α β γ : Type} {xs : List α} {ys : List β} (f : α → γ)
    (enough : xs.length ≤ ys.length) : (xs.zip ys).map (fun pair => f pair.1) = xs.map f := by
  have firsts := List.map_fst_zip enough
  calc (xs.zip ys).map (fun pair => f pair.1)
      = ((xs.zip ys).map Prod.fst).map f := List.map_map.symm
    _ = xs.map f := by rw [firsts]

/-- Sorting entries that belong to different ids makes a view. -/
theorem isLatencyView_sortByKey {ids : List String} {value : Nat → Option Binary64}
    {entries : List (String × Binary64)} (distinct : ids.Nodup)
    (keys : entries.map (·.1) = ids)
    (values : ∀ {place : Nat} {id : String}, ids[place]? = some id →
      ∃ x, value place = some x ∧ (id, x) ∈ entries) :
    IsLatencyView ids value (sortByKey entries) := by
  have kept := perm_sortByKey (keys ▸ distinct)
  have ascending := ascending_sortByKey entries
  refine ⟨ascending.imp Text.encode_lt, keys ▸ kept.map _, fun found => ?_⟩
  obtain ⟨x, held, member⟩ := values found
  exact ⟨x, held, ascending.lookup (kept.mem_iff.mpr member)⟩

variable {config : Config} {engine : Engine} {store : Store}

/-- The view for the PoP at a place. -/
theorem isLatencyView_latencyToPop (built : BuiltFrom config engine)
    (shaped : store.Shaped config.pops.length config.regions.length) {place : Nat} {pop : Pop}
    (found : config.pops[place]? = some pop) :
    ∃ view, { engine with store }.latencyToPop? pop.id = some view ∧
      IsLatencyView (config.regions.map (·.id))
        (fun region => store.state.latencyAt region place) view := by
  have located := findIdx?_id (Config.nodup_popIds built.accepted) found
  have inside : place < config.pops.length := (List.getElem?_eq_some_iff.mp found).1
  simp only [latencyToPop?, built.pops, located, built.regions]
  refine ⟨_, rfl, isLatencyView_sortByKey (Config.nodup_regionIds built.accepted) ?_ ?_⟩
  · have present : ∀ pair ∈ config.regions.zip store.state.regionLatency,
        ((pair.2[place]?.map (pair.1.id, ·)).map (·.1)) = some pair.1.id := by
      intro pair member
      have length := shaped.latencies pair.2 (List.of_mem_zip member).2
      rw [List.getElem?_eq_getElem (length.symm ▸ inside)]
      rfl
    rw [List.map_filterMap, List.filterMap_congr present, List.filterMap_eq_map']
    exact map_zip_fst (·.id) (Nat.le_of_eq shaped.regions.symm)
  · intro region id named
    rw [List.getElem?_map] at named
    obtain ⟨configured, here, rfl⟩ := Option.map_eq_some_iff.mp named
    have known : region < config.regions.length := (List.getElem?_eq_some_iff.mp here).1
    obtain ⟨latency, x, vector, entry, held⟩ := shaped.exists_latencyAt known inside
    have paired : (configured, latency) ∈ config.regions.zip store.state.regionLatency :=
      List.mem_of_getElem? (List.getElem?_zip_eq_some.mpr ⟨here, vector⟩)
    refine ⟨x, held, List.mem_filterMap.mpr ⟨_, paired, ?_⟩⟩
    rw [entry]
    rfl

/-- The view for the region at a place. -/
theorem isLatencyView_latencyToRegion (built : BuiltFrom config engine)
    (shaped : store.Shaped config.pops.length config.regions.length) {place : Nat}
    {region : Region} (found : config.regions[place]? = some region) :
    ∃ view, { engine with store }.latencyToRegion? region.id = some view ∧
      IsLatencyView (config.pops.map (·.id)) (store.state.latencyAt place) view := by
  have located := findIdx?_id (Config.nodup_regionIds built.accepted) found
  have known : place < config.regions.length := (List.getElem?_eq_some_iff.mp found).1
  have bound : place < store.state.regionLatency.length := shaped.regions ▸ known
  have vector := List.getElem?_eq_getElem bound
  have length := shaped.latencies _ (List.getElem_mem bound)
  refine ⟨sortByKey ((config.pops.zip store.state.regionLatency[place]).map
    fun entry => (entry.1.id, entry.2)), ?_, ?_⟩
  · simp only [latencyToRegion?, built.regions, located, built.pops, Store.regionLatency?]
    simp [vector]
  refine isLatencyView_sortByKey (Config.nodup_popIds built.accepted) ?_ ?_
  · rw [List.map_map]
    exact map_zip_fst (·.id) (Nat.le_of_eq length.symm)
  · intro index id named
    rw [List.getElem?_map] at named
    obtain ⟨pop, here, rfl⟩ := Option.map_eq_some_iff.mp named
    have inside : index < config.pops.length := (List.getElem?_eq_some_iff.mp here).1
    obtain ⟨latency, x, also, entry, held⟩ := shaped.exists_latencyAt known inside
    cases vector.symm.trans also
    refine ⟨x, held, List.mem_map.mpr ⟨(pop, x), ?_, rfl⟩⟩
    exact List.mem_of_getElem? (List.getElem?_zip_eq_some.mpr ⟨here, entry⟩)

theorem mem_of_latencyToPop {popId : String} (present : (engine.latencyToPop? popId).isSome) :
    popId ∈ engine.pops.map (·.id) := by
  obtain ⟨view, shown⟩ := Option.isSome_iff_exists.mp present
  obtain ⟨place, located, -⟩ := Option.bind_eq_some_iff.mp shown
  obtain ⟨inside, same, -⟩ := List.findIdx?_eq_some_iff_getElem.mp located
  exact List.mem_map.mpr ⟨_, List.getElem_mem inside, beq_iff_eq.mp same⟩

theorem mem_of_latencyToRegion {regionId : String}
    (present : (engine.latencyToRegion? regionId).isSome) :
    regionId ∈ engine.regions.map (·.id) := by
  obtain ⟨view, shown⟩ := Option.isSome_iff_exists.mp present
  obtain ⟨index, located, -⟩ := Option.bind_eq_some_iff.mp shown
  obtain ⟨inside, same, -⟩ := List.findIdx?_eq_some_iff_getElem.mp located
  exact List.mem_map.mpr ⟨_, List.getElem_mem inside, beq_iff_eq.mp same⟩

/-- Whatever has been committed, there is a view for the id of every PoP and of every region and
for no other id. The view for a PoP shows every region, that for a region every PoP, and both show
the same latency for the two, which is the one that the state holds. -/
theorem latency_views {config : Config} {ownProbers : Bool} {names : Net.NameService}
    {engine : Engine} (built : build config ownProbers names = .ok engine) (commits : List Commit) :
    let store := engine.store.replay commits
    let served : Engine := { engine with store }
    (∀ popId, (served.latencyToPop? popId).isSome ↔ popId ∈ config.pops.map (·.id)) ∧
    (∀ regionId,
      (served.latencyToRegion? regionId).isSome ↔ regionId ∈ config.regions.map (·.id)) ∧
    (∀ place pop, config.pops[place]? = some pop →
      ∃ view, served.latencyToPop? pop.id = some view ∧ view.length = config.regions.length ∧
        IsLatencyView (config.regions.map (·.id))
          (fun region => store.state.latencyAt region place) view) ∧
    (∀ index region, config.regions[index]? = some region →
      ∃ view, served.latencyToRegion? region.id = some view ∧ view.length = config.pops.length ∧
        IsLatencyView (config.pops.map (·.id)) (store.state.latencyAt index) view) ∧
    ∀ place pop index region, config.pops[place]? = some pop →
      config.regions[index]? = some region →
      ∃ x, store.state.latencyAt index place = some x ∧
        (served.latencyToPop? pop.id).bind (·.lookup region.id) = some x ∧
        (served.latencyToRegion? region.id).bind (·.lookup pop.id) = some x := by
  intro store served
  have owes := builtFrom_of_build built
  have shaped := owes.shaped_replay commits
  have toPop {place : Nat} {pop : Pop} (found : config.pops[place]? = some pop) :=
    isLatencyView_latencyToPop owes shaped found
  have toRegion {index : Nat} {region : Region} (found : config.regions[index]? = some region) :=
    isLatencyView_latencyToRegion owes shaped found
  refine ⟨fun popId => ⟨fun present => ?_, fun member => ?_⟩,
    fun regionId => ⟨fun present => ?_, fun member => ?_⟩, fun place pop found => ?_,
    fun index region found => ?_, fun place pop index region found foundToo => ?_⟩
  · have member := mem_of_latencyToPop present
    exact owes.pops ▸ member
  · obtain ⟨pop, configured, rfl⟩ := List.mem_map.mp member
    obtain ⟨place, found⟩ := List.mem_iff_getElem?.mp configured
    obtain ⟨view, shown, -⟩ := toPop found
    exact Option.isSome_of_eq_some shown
  · have member := mem_of_latencyToRegion present
    exact owes.regions ▸ member
  · obtain ⟨region, configured, rfl⟩ := List.mem_map.mp member
    obtain ⟨index, found⟩ := List.mem_iff_getElem?.mp configured
    obtain ⟨view, shown, -⟩ := toRegion found
    exact Option.isSome_of_eq_some shown
  · obtain ⟨view, shown, complete⟩ := toPop found
    exact ⟨view, shown, by simpa using complete.keys.length_eq, complete⟩
  · obtain ⟨view, shown, complete⟩ := toRegion found
    exact ⟨view, shown, by simpa using complete.keys.length_eq, complete⟩
  · obtain ⟨view, shown, complete⟩ := toPop found
    obtain ⟨other, shownToo, completeToo⟩ := toRegion foundToo
    have named : (config.regions.map (·.id))[index]? = some region.id := by
      rw [List.getElem?_map, foundToo, Option.map_some]
    have namedToo : (config.pops.map (·.id))[place]? = some pop.id := by
      rw [List.getElem?_map, found, Option.map_some]
    obtain ⟨x, held, listed⟩ := complete.values named
    obtain ⟨y, heldToo, listedToo⟩ := completeToo.values namedToo
    have same : x = y := Option.some.inj (held.symm.trans heldToo)
    refine ⟨x, held, ?_, ?_⟩
    · rw [shown, Option.bind_some, listed]
    · rw [shownToo, Option.bind_some, listedToo, same]

theorem latency_views_twoPops : ∃ engine, build twoPops true = .ok engine ∧
    (engine.store.replay [.latency 0 [.ofNat 5, .ofNat 7]]).state.latencyAt 0 1 =
      some (.ofNat 7) ∧
    (({ engine with store := engine.store.replay [.latency 0 [.ofNat 5, .ofNat 7]] } :
      Engine).latencyToPop? "osaka").bind (·.lookup "us-west") = some (.ofNat 7) := by
  obtain ⟨engine, built⟩ := build_twoPops
  refine ⟨engine, built, ?_⟩
  obtain ⟨-, -, -, -, transposed⟩ := latency_views built [.latency 0 [.ofNat 5, .ofNat 7]]
  obtain ⟨x, held, shown, -⟩ := transposed 1 _ 0 _ rfl rfl
  have kept : (engine.store.replay [.latency 0 [.ofNat 5, .ofNat 7]]).state.latencyAt 0 1 =
      some (.ofNat 7) := by
    rw [(builtFrom_of_build built).store]
    rfl
  exact ⟨kept, (Option.some.inj (held.symm.trans kept)) ▸ shown⟩

end Engine

end Steering
