import Steering.Proofs.AcceptedEntries
import Steering.Proofs.AddressText
import Steering.Proofs.QueryAnswer
import Steering.Proofs.RequestTarget
import Steering.Proofs.WrittenDocument
/-! Lookups through the dashboard: each address of an answer stands beside the id of its PoP. The id is
found by the address, so it is that of the PoP as long as no two PoPs share one. -/

namespace Steering

namespace Engine

variable {config : Config} {engine : Engine}

/-- The PoP that an address is found to belong to is the first one that has it. -/
theorem popIdOf_of_find {ip4 : Net.Ipv4} {pop : Pop}
    (found : engine.pops.find? (·.ip4 == ip4) = some pop) : engine.popIdOf (.v4 ip4) = pop.id := by
  simp only [popIdOf, Net.Address.ipv4?, Option.bind_some, found]

/-- Where the addresses of the PoPs differ, each belongs to its own PoP. -/
theorem find?_ip4 {pops : List Pop} (distinct : (pops.map (·.ip4)).Nodup) {pop : Pop}
    (member : pop ∈ pops) : pops.find? (·.ip4 == pop.ip4) = some pop := by
  induction pops with
  | nil => cases member
  | cons first rest ih =>
    obtain ⟨fresh, later⟩ := List.nodup_cons.mp distinct
    rcases List.mem_cons.mp member with rfl | inside
    · exact List.find?_cons_of_pos (beq_self_eq_true _)
    · have other : (first.ip4 == pop.ip4) = false :=
        beq_eq_false_iff_ne.mpr fun same => fresh (List.mem_map.mpr ⟨pop, inside, same.symm⟩)
      rw [List.find?_cons, other]
      exact ih later inside

/-- The ids that are found by the addresses are those of the PoPs themselves exactly if the addresses
differ. -/
theorem popIdOf_iff (built : BuiltFrom config engine) {store : Store} :
    (∀ pop ∈ config.pops, ({ engine with store } : Engine).popIdOf (.v4 pop.ip4) = pop.id) ↔
      (config.pops.map (·.ip4)).Nodup := by
  constructor
  · -- The ids differ, and they are all found by the addresses.
    intro named
    have ids : (config.pops.map (·.ip4)).map
        (fun ip4 => ({ engine with store } : Engine).popIdOf (.v4 ip4)) = config.pops.map (·.id) := by
      rw [List.map_map]
      exact List.map_congr_left named
    exact .of_map _ (ids ▸ Config.nodup_popIds built.accepted)
  · intro distinct pop member
    have found := built.pops ▸ find?_ip4 distinct member
    exact @popIdOf_of_find { engine with store } pop.ip4 pop found

end Engine

namespace Dashboard

/-- What is shown of a PoP in an answer. -/
def annotation (pop : Pop) : Json.Value :=
  .object [("ip", .text pop.ip4.text), ("pop_id", .text pop.id)]

/-- A page shows some PoPs in their order, each with its address and its id. -/
structure ShowsPops (page : Page) (pops : List Pop) : Prop where
  code : page.code = 200
  content : Json.Value.decode page.content = .ok (.list (pops.map annotation))
  /-- The addresses are read back, and none is shown twice. -/
  addresses : ∀ pop ∈ pops, Net.Ipv4.parse? pop.ip4.text = some pop.ip4
  once : (pops.map (·.ip4)).Nodup

/-- The characters of an address are bytes of their own, and none of them means anything in a
query. -/
theorem isAddressChar_cases {c : Char} (plain : Net.isAddressChar c = true) :
    c.toNat < 0x80 ∧ Net.Uri.isQueryChar c = true ∧ c.toNat ∉ [0x25, 0x26, 0x2B, 0x3D] := by
  have ascii : c.toNat < 0x80 := by
    by_contra wide
    have none : Net.digitValue? 16 c = none := by
      have above (bound : Char) (small : bound.toNat < 0x80) : ¬ c ≤ bound := fun le =>
        wide (Nat.lt_of_le_of_lt le small)
      simp [Net.digitValue?, above '9' (by decide), above 'f' (by decide), above 'F' (by decide)]
    have colon : c ≠ ':' := by
      rintro rfl
      exact wide (by decide)
    have point : c ≠ '.' := by
      rintro rfl
      exact wide (by decide)
    simp [Net.isAddressChar, none, colon, point] at plain
  have all : ∀ n : Fin 0x80, Net.isAddressChar (Char.ofNat n) = true →
      Net.Uri.isQueryChar (Char.ofNat n) = true ∧ n.val ∉ [0x25, 0x26, 0x2B, 0x3D] := by
    decide +kernel
  have its := all ⟨c.toNat, ascii⟩
  rw [Char.ofNat_toNat] at its
  exact ⟨ascii, its plain⟩

theorem not_mem_encode_address {s : String} (plain : ∀ c ∈ s.toList, Net.isAddressChar c = true)
    {b : UInt8} (mark : b ∈ [0x25, 0x26, 0x2B, 0x3D]) : b ∉ Text.encode s := by
  intro member
  obtain ⟨c, inside, part⟩ := List.mem_flatMap.mp member
  obtain ⟨ascii, -, free⟩ := isAddressChar_cases (plain c inside)
  rw [Text.utf8EncodeChar_ascii ascii, List.mem_singleton] at part
  have same : b.toNat = c.toNat := by rw [part, Text.toNat_ofNat_ascii ascii]
  exact free (same ▸ List.mem_map_of_mem (f := UInt8.toNat) mark)

/-- A client is read from a query as it was written. -/
theorem target_of_client {client : String} {address : Net.Address}
    (parsed : Net.Address.parse? client = some address) :
    ∃ uri, Net.Uri.parse ("/query?srcip=" ++ client) = .ok uri ∧
      Target.ofUri uri = ⟨"/query", [("srcip", client)]⟩ := by
  obtain ⟨short, plain⟩ := Net.Address.plain_of_parse parsed
  have query : ∀ c ∈ ("srcip=" ++ client).toList, Net.Uri.isQueryChar c = true := by
    intro c member
    rw [String.toList_append, List.mem_append] at member
    rcases member with name | inside
    · exact List.all_eq_true.mp (by decide : "srcip=".toList.all Net.Uri.isQueryChar = true) c name
    · exact (isAddressChar_cases (plain c inside)).2.1
  have size : ("/query" ++ "?" ++ ("srcip=" ++ client)).utf8ByteSize ≤ Net.Uri.maxLength := by
    have client_le := Text.utf8ByteSize_le client
    have rest : ("/query" ++ "?" ++ "srcip=").utf8ByteSize = 13 := by decide +kernel
    rw [← String.append_assoc, String.utf8ByteSize_append, rest, Net.Uri.maxLength]
    omega
  have path : "/query".toList.all Net.Uri.isPathChar = true := by decide +kernel
  obtain ⟨uri, its, target⟩ :=
    target_of_query (by decide) (List.all_eq_true.mp path) query size
  have joined : "/query" ++ "?" ++ ("srcip=" ++ client) = "/query?srcip=" ++ client := by
    rw [← String.append_assoc]
    rfl
  have without {b : UInt8} (mark : b ∈ [0x25, 0x26, 0x2B, 0x3D]) : b ∉ Text.encode client :=
    not_mem_encode_address plain mark
  have pair : Http.Form.decode (Text.encode ("srcip=" ++ client)) = [("srcip", client)] := by
    have bytes : Text.encode ("srcip=" ++ client) = Text.encode "srcip" ++ 0x3D :: Text.encode client := by
      rw [Text.encode_append]
      rfl
    rw [bytes, Http.Form.decode_pair (by decide) (by decide) (without (by decide)),
      Http.Form.decodeText_encode (by decide) (by decide),
      Http.Form.decodeText_encode (without (by decide)) (without (by decide))]
  rw [joined] at its
  rw [pair] at target
  exact ⟨uri, its, target⟩

theorem target_of_nobody :
    (∃ uri, Net.Uri.parse "/query" = .ok uri ∧ Target.ofUri uri = ⟨"/query", []⟩) ∧
    ∃ uri, Net.Uri.parse "/query?srcip=" = .ok uri ∧ Target.ofUri uri = ⟨"/query", [("srcip", "")]⟩ :=
  ⟨⟨⟨none, none, "/query"⟩, by decide +kernel, by decide +kernel⟩,
    ⟨none, none, "/query?srcip="⟩, by decide +kernel, by decide +kernel⟩

/-- A request for a lookup is answered with the page for the client in it. -/
theorem answer_lookup (engine : Engine) (files : Option FileTree) {target client : String}
    {parameters : List (String × String)}
    (names : ∃ uri, Net.Uri.parse target = .ok uri ∧ Target.ofUri uri = ⟨"/query", parameters⟩)
    (asked : (⟨"/query", parameters⟩ : Target).value "srcip" = client) :
    answer engine files "GET" target = lookupPage engine client := by
  obtain ⟨uri, parsed, its⟩ := names
  rw [answer, parsed]
  have routed : page engine files ⟨"/query", parameters⟩ =
      lookupPage engine ((⟨"/query", parameters⟩ : Target).value "srcip") := rfl
  simp only [true_or, if_true, its, routed, asked]

/-- The document of an answer has no numbers, so that it is read back. -/
theorem decode_lookupDocument (engine : Engine) (addresses : List Net.Ipv4) :
    Json.Value.decode (Text.encode (lookupDocument engine addresses).write) =
      .ok (lookupDocument engine addresses) := by
  apply Json.Value.decode_write
  rw [lookupDocument, Json.Value.isNumberless]
  induction addresses with
  | nil => rfl
  | cons ip4 rest ih => exact ih

end Dashboard

namespace Engine

open Dashboard

variable {config : Config} {engine : Engine}

/-- Where the addresses of the PoPs differ, no PoP is ranked beside another with its address. -/
theorem nodup_rank (region : Option Nat) (distinct : (engine.pops.map (·.ip4)).Nodup) :
    ((engine.rank region).map (·.ip4)).Nodup ∧ ∀ pop ∈ engine.rank region, pop ∈ engine.pops := by
  rw [rank_eq_standing, List.map_map]
  constructor
  · refine (nodup_standing engine region).map_on ?_
    rintro ⟨first, place⟩ here ⟨second, other⟩ there same
    obtain ⟨found, -⟩ := mem_standing_iff.mp here
    obtain ⟨foundToo, -⟩ := mem_standing_iff.mp there
    have address : (engine.pops.map (·.ip4))[place]? = (engine.pops.map (·.ip4))[other]? := by
      rw [List.getElem?_map, List.getElem?_map, found, foundToo]
      exact congrArg some same
    have inside : place < (engine.pops.map (·.ip4)).length := by
      rw [List.length_map]
      exact (List.getElem?_eq_some_iff.mp found).1
    obtain rfl := (List.getElem?_inj inside distinct).mp address
    cases found.symm.trans foundToo
    rfl
  · intro pop member
    obtain ⟨⟨_, place⟩, stands, rfl⟩ := List.mem_map.mp member
    exact List.mem_of_getElem? (mem_standing_iff.mp stands).1

/-- The page of a ranking. -/
theorem showsPops_lookupDocument (region : Option Nat)
    (distinct : (engine.pops.map (·.ip4)).Nodup) :
    ShowsPops (.document (lookupDocument engine ((engine.rank region).map (·.ip4))))
      (engine.rank region) := by
  obtain ⟨once, known⟩ := nodup_rank region distinct
  refine ⟨rfl, ?_, fun pop _ => pop.ip4.parse?_text, once⟩
  have named : lookupDocument engine ((engine.rank region).map (·.ip4)) =
      .list ((engine.rank region).map annotation) := by
    rw [lookupDocument, List.map_map]
    refine congrArg _ (List.map_congr_left fun pop member => ?_)
    have own := popIdOf_of_find (find?_ip4 distinct (known pop member))
    simp only [Function.comp_apply, own, annotation]
  rw [← named]
  exact decode_lookupDocument engine _

/-- Whatever has been committed, each address is found to belong to its own PoP exactly if no two PoPs
share one. Then the pages for lookups show the PoPs that are ranked for the client, or for nobody in
particular, each with its own id. -/
theorem annotated_lookups {config : Config} {ownProbers : Bool} {names : Net.NameService}
    {engine : Engine} (built : build config ownProbers names = .ok engine) (commits : List Commit)
    (files : Option FileTree) :
    let served : Engine := { engine with store := engine.store.replay commits }
    ((∀ pop ∈ config.pops, served.popIdOf (.v4 pop.ip4) = pop.id) ↔
      (config.pops.map (·.ip4)).Nodup) ∧
    ((config.pops.map (·.ip4)).Nodup →
      (∀ client address, Net.Address.parse? client = some address →
        served.query address = (served.rank (served.table.resolve? address)).map (·.ip4) ∧
        ShowsPops (answer served files "GET" ("/query?srcip=" ++ client))
          (served.rank (served.table.resolve? address))) ∧
      ShowsPops (answer served files "GET" "/query") (served.rank none) ∧
      ShowsPops (answer served files "GET" "/query?srcip=") (served.rank none)) := by
  intro served
  have parts := builtFrom_of_build built
  refine ⟨popIdOf_iff parts, fun distinct => ?_⟩
  have apart : (served.pops.map (·.ip4)).Nodup := parts.pops ▸ distinct
  have shows (region : Option Nat) := @showsPops_lookupDocument served region apart
  obtain ⟨bare, empty⟩ := target_of_nobody
  refine ⟨fun client address parsed => ⟨rfl, ?_⟩, ?_, ?_⟩
  · have value : Target.value ⟨"/query", [("srcip", client)]⟩ "srcip" = client := by
      simp [Target.value, Http.Form.value?]
    have some : client ≠ "" := by
      rintro rfl
      have none : Net.Address.parse? "" = none := by decide +kernel
      cases none.symm.trans parsed
    rw [answer_lookup served files (target_of_client parsed) value, lookupPage, if_neg some, parsed]
    exact shows _
  · rw [answer_lookup served files bare rfl]
    exact shows none
  · rw [answer_lookup served files empty rfl]
    exact shows none

/-- Without a region, the lowest latency leaves the PoPs in the order of the configuration. -/
theorem rank_none (engine : Engine) (policy : engine.ranking = .lowestLatency) :
    engine.rank none =
      ((candidates engine.store.state none).filter (·.healthy)).filterMap fun candidate =>
        engine.pops[candidate.index]? := by
  have unmeasured : ∀ candidate ∈ (candidates engine.store.state none).filter (·.healthy),
      candidate.latency = none := by
    intro candidate member
    obtain ⟨status, -, same⟩ := mem_candidates_iff.mp (List.mem_filter.mp member).1
    rw [same]
    rfl
  have sorted : ((candidates engine.store.state none).filter (·.healthy)).Pairwise fun a b =>
      RankingPolicy.lowestLatency.le a b = true := by
    refine List.pairwise_of_forall_mem_list fun a here b there => ?_
    rw [RankingPolicy.le, unmeasured a here, unmeasured b there, RankingPolicy.latencyLe]
  rw [rank, policy, RankingPolicy.rank, List.mergeSort_of_pairwise sorted, List.filterMap_map]
  rfl

theorem annotated_lookups_twoPops : ∃ engine, build twoPops true = .ok engine ∧
    (twoPops.pops.map (·.ip4)).Nodup ∧
    let served : Engine := { engine with store := engine.store.replay [.status [.blank, .blank]] }
    (∀ pop ∈ twoPops.pops, served.popIdOf (.v4 pop.ip4) = pop.id) ∧
    ShowsPops (answer served none "GET" "/query?srcip=198.51.100.12")
      (served.rank (served.table.resolve? (.v4 (.ofOctets 198 51 100 12)))) ∧
    ShowsPops (answer served none "GET" "/query") twoPops.pops := by
  obtain ⟨engine, built⟩ := build_twoPops
  have distinct : (twoPops.pops.map (·.ip4)).Nodup := by decide
  refine ⟨engine, built, distinct, ?_⟩
  intro served
  obtain ⟨named, shows⟩ := annotated_lookups built [.status [.blank, .blank]] none
  obtain ⟨asked, nobody, -⟩ := shows distinct
  have parts := builtFrom_of_build built
  have ranked : served.rank none = twoPops.pops := by
    rw [rank_none served (parts.lowestLatency rfl)]
    simp only [served, parts.store, parts.pops]
    decide +kernel
  exact ⟨named.mpr distinct, (asked "198.51.100.12" _ (by decide +kernel)).2, ranked ▸ nobody⟩

/-- A configuration of two PoPs with one address. -/
def sharedAddress : Config :=
  { twoPops with pops := [
      ⟨"tokyo", .ofOctets 192 0 2 1, "http://192.0.2.1/latencyz", "left: 1px"⟩,
      ⟨"osaka", .ofOctets 192 0 2 1, "http://192.0.2.1/latencyz", "left: 2px"⟩] }

/-- Where two PoPs share an address, both are ranked, and the second is shown with the id of the
first. -/
theorem annotated_lookups_shared : ∃ engine, build sharedAddress true = .ok engine ∧
    let served : Engine := { engine with store := engine.store.replay [.status [.blank, .blank]] }
    served.rank none = sharedAddress.pops ∧
    Json.Value.decode (answer served none "GET" "/query").content = .ok (.list [
      .object [("ip", .text "192.0.2.1"), ("pop_id", .text "tokyo")],
      .object [("ip", .text "192.0.2.1"), ("pop_id", .text "tokyo")]]) ∧
    served.popIdOf (.v4 (.ofOctets 192 0 2 1)) = "tokyo" := by
  obtain ⟨engine, built⟩ := @exists_build sharedAddress true .offline (by decide +kernel)
  refine ⟨engine, built, ?_⟩
  intro served
  have parts := builtFrom_of_build built
  have ranked : served.rank none = sharedAddress.pops := by
    rw [rank_none served (parts.lowestLatency rfl)]
    simp only [served, parts.store, parts.pops]
    decide +kernel
  have first : served.popIdOf (.v4 (.ofOctets 192 0 2 1)) = "tokyo" := by
    have found : served.pops.find? (·.ip4 == .ofOctets 192 0 2 1) = sharedAddress.pops.head? := by
      simp only [served, parts.pops]
      rfl
    exact popIdOf_of_find found
  refine ⟨ranked, ?_, first⟩
  obtain ⟨bare, -⟩ := target_of_nobody
  rw [answer_lookup served none bare rfl]
  change Json.Value.decode (Text.encode
    (lookupDocument served ((served.rank none).map (·.ip4))).write) = _
  have shown : (Net.Ipv4.ofOctets 192 0 2 1).text = "192.0.2.1" := by decide +kernel
  rw [decode_lookupDocument, ranked, lookupDocument]
  simp only [sharedAddress, List.map_cons, List.map_nil, first, shown]

end Engine

end Steering
