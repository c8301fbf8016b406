import Steering.Proofs.LatencyViews
import Steering.Proofs.NumberDocument
import Steering.Proofs.QuerySpelling
import Steering.Proofs.UsableLatencies
/-! The pages for latencies. Every configured id can be asked for in every spelling, and the page
shows exactly the latencies of this id; for anything else there is a refusal. -/

namespace Steering.Dashboard

open Http.Form (Gives Lacks IsFaithful escaped)

/-- What decides a request by a parameter: its last value in the query, which is empty if the query
lacks the parameter or if there is no query. -/
inductive Decides (uri : Net.Uri) (path name : String) : String → Prop
  | given {query value : String} (written : uri.path = path ++ "?" ++ query)
    (gives : Gives (Text.encode query) name value) : Decides uri path name value
  | lacking {query : String} (written : uri.path = path ++ "?" ++ query)
    (lacks : Lacks (Text.encode query) name) : Decides uri path name ""
  | bare (written : uri.path = path) : Decides uri path name ""

/-- How a page answers requests for one of some ids, of which each has a view. -/
structure AnswersById (engine : Engine) (files : Option FileTree) (path name refusal : String)
    (ids : List String) (view? : String → Option (List (String × Binary64))) : Prop where
  /-- Every id can be asked for, as long as the request stays short enough for an identifier. -/
  askable : ∀ id ∈ ids, path.utf8ByteSize + 3 * name.utf8ByteSize + 3 * id.utf8ByteSize + 2 ≤
      Net.Uri.maxLength →
    ∃ target uri, Net.Uri.parse target = .ok uri ∧ Decides uri path name id
  /-- What decides a request is what the page is asked for. -/
  asked : ∀ uri value, Decides uri path name value →
    (Target.ofUri uri).path = path ∧ (Target.ofUri uri).value name = value
  /-- If an id decides, its view is shown: read back, the keys ascend and each has its number. -/
  shown : ∀ target uri id, Net.Uri.parse target = .ok uri → Decides uri path name id → id ∈ ids →
    ∃ view, view? id = some view ∧
      (view.Pairwise fun first second => Text.encode first.1 < Text.encode second.1) ∧
      (answer engine files "GET" target).code = 200 ∧
      (answer engine files "GET" target).contentType = some Page.documentType ∧
      Json.numberMembers? (answer engine files "GET" target).content = some view
  /-- If anything else decides, there is the refusal. -/
  refused : ∀ target uri value, Net.Uri.parse target = .ok uri → Decides uri path name value →
    value ∉ ids → answer engine files "GET" target = .message 400 refusal
  /-- Also a request with broken spellings is answered with the view of an id or refused. -/
  code : ∀ target uri, Net.Uri.parse target = .ok uri → (Target.ofUri uri).path = path →
    (answer engine files "GET" target).code =
      if (Target.ofUri uri).value name ∈ ids then 200 else 400

section ById

variable {engine : Engine} {files : Option FileTree} {path name refusal : String}
  {ids : List String} {view? : String → Option (List (String × Binary64))}

/-- What decides a request is the value that its target has. -/
theorem Decides.value {uri : Net.Uri} {value : String} (decides : Decides uri path name value)
    (faithful : IsFaithful name) (plain : ∀ c ∈ path.toList, Net.Uri.isPathChar c = true) :
    (Target.ofUri uri).path = path ∧ (Target.ofUri uri).value name = value := by
  cases decides with
  | given written gives =>
    rw [ofUri_query written plain, Target.value, Http.Form.value?_of_gives faithful gives]
    exact ⟨rfl, rfl⟩
  | lacking written lacks =>
    rw [ofUri_query written plain, Target.value, Http.Form.value?_of_lacks faithful lacks]
    exact ⟨rfl, rfl⟩
  | bare written =>
    rw [ofUri_bare written plain]
    exact ⟨rfl, rfl⟩

/-- A page that shows the views of some ids, and only of these, answers by ids. -/
theorem answersById_of_views (faithful : IsFaithful name) (rooted : path.toList.head? = some '/')
    (plain : ∀ c ∈ path.toList, Net.Uri.isPathChar c = true)
    (paged : ∀ target, target.path = path →
      page engine files target = latencyPage (view? (target.value name)) refusal)
    (known : ∀ id, (view? id).isSome ↔ id ∈ ids)
    (ascending : ∀ id view, view? id = some view →
      view.Pairwise fun first second => Text.encode first.1 < Text.encode second.1)
    (finite : ∀ id view, view? id = some view → ∀ entry ∈ view, entry.2.isFinite = true) :
    AnswersById engine files path name refusal ids view? := by
  have answered {target : String} {uri : Net.Uri} (parsed : Net.Uri.parse target = .ok uri)
      (here : (Target.ofUri uri).path = path) : answer engine files "GET" target =
        latencyPage (view? ((Target.ofUri uri).value name)) refusal := by
    simp only [answer, parsed, true_or, if_true, paged _ here]
  have absent {id : String} (unknown : id ∉ ids) : view? id = none := by
    rw [← Option.not_isSome_iff_eq_none, known]
    exact unknown
  refine ⟨fun id member short => ?_, fun uri value decides => decides.value faithful plain,
    fun target uri id parsed decides member => ?_,
    fun target uri value parsed decides unknown => ?_, fun target uri parsed here => ?_⟩
  · have visible : ∀ c ∈ (escaped name ++ "=" ++ escaped id).toList,
        Net.Uri.isQueryChar c = true := by
      intro c inside
      simp only [String.toList_append, List.mem_append] at inside
      rcases inside with (first | equals) | second
      · exact (Http.Form.mem_escaped first).2.1
      · rw [List.mem_singleton.mp equals]
        decide
      · exact (Http.Form.mem_escaped second).2.1
    have size : (path ++ "?" ++ (escaped name ++ "=" ++ escaped id)).utf8ByteSize ≤
        Net.Uri.maxLength := by
      have question : "?".utf8ByteSize = 1 := rfl
      have equals : "=".utf8ByteSize = 1 := rfl
      simp only [String.utf8ByteSize_append, Http.Form.utf8ByteSize_escaped, question, equals]
      omega
    exact ⟨_, _, parse_query rooted plain visible size,
      .given rfl (Http.Form.gives_escaped name id)⟩
  · obtain ⟨here, same⟩ := decides.value faithful plain
    obtain ⟨view, found⟩ := Option.isSome_iff_exists.mp ((known id).mpr member)
    rw [answered parsed here, same, found]
    exact ⟨view, rfl, ascending id view found, rfl, rfl,
      Json.numberMembers?_latencyDocument (finite id view found)⟩
  · obtain ⟨here, same⟩ := decides.value faithful plain
    rw [answered parsed here, same, absent unknown]
    rfl
  · rw [answered parsed here]
    split
    · rename_i member
      obtain ⟨view, found⟩ := Option.isSome_iff_exists.mp ((known _).mpr member)
      rw [found]
      rfl
    · rename_i unknown
      rw [absent unknown]
      rfl

end ById

end Steering.Dashboard

namespace Steering.Engine

open Refresh
open Dashboard (AnswersById answersById_of_views Decides)

section Views

variable {engine : Engine} {view : List (String × Binary64)}

theorem ascending_of_latencyToPop {popId : String}
    (shown : engine.latencyToPop? popId = some view) :
    view.Pairwise fun first second => Text.encode first.1 < Text.encode second.1 := by
  obtain ⟨place, located, made⟩ := Option.bind_eq_some_iff.mp shown
  rw [← Option.some.inj made]
  exact (ascending_sortByKey _).imp Text.encode_lt

theorem ascending_of_latencyToRegion {regionId : String}
    (shown : engine.latencyToRegion? regionId = some view) :
    view.Pairwise fun first second => Text.encode first.1 < Text.encode second.1 := by
  obtain ⟨index, located, rest⟩ := Option.bind_eq_some_iff.mp shown
  obtain ⟨latency, vector, made⟩ := Option.bind_eq_some_iff.mp rest
  rw [← Option.some.inj made]
  exact (ascending_sortByKey _).imp Text.encode_lt

end Views

section Pages

variable {config : Config} {engine : Engine} {store : Store} (built : BuiltFrom config engine)
  (shaped : store.Shaped config.pops.length config.regions.length)
  (numbers : ∀ latency ∈ store.state.regionLatency, ∀ x ∈ latency, IsLatency x)
include built shaped numbers

theorem answersById_latencyToPop (files : Option FileTree) :
    AnswersById { engine with store } files "/latency_to_pop" "pop_id" "Invalid pop_id"
      (config.pops.map (·.id)) { engine with store }.latencyToPop? := by
  have faithful : Http.Form.IsFaithful "pop_id" := ⟨by decide +kernel, by decide +kernel⟩
  have plain : "/latency_to_pop".toList.all Net.Uri.isPathChar = true := by decide +kernel
  refine answersById_of_views faithful rfl (List.all_eq_true.mp plain) ?_ ?_
    (fun id view => ascending_of_latencyToPop) ?_
  · rintro ⟨path, parameters⟩ rfl
    rfl
  · intro id
    constructor
    · intro present
      have member := mem_of_latencyToPop present
      exact built.pops ▸ member
    · intro member
      obtain ⟨pop, configured, rfl⟩ := List.mem_map.mp member
      obtain ⟨place, found⟩ := List.mem_iff_getElem?.mp configured
      obtain ⟨view, shown, -⟩ := isLatencyView_latencyToPop built shaped found
      exact Option.isSome_of_eq_some shown
  · intro id view shown entry member
    obtain ⟨latency, stored, inside⟩ := kept_of_latencyToPop shown member
    exact (numbers latency stored _ inside).1

theorem answersById_latencyToRegion (files : Option FileTree) :
    AnswersById { engine with store } files "/latency_to_region" "region_id" "Invalid region_id"
      (config.regions.map (·.id)) { engine with store }.latencyToRegion? := by
  have faithful : Http.Form.IsFaithful "region_id" := ⟨by decide +kernel, by decide +kernel⟩
  have plain : "/latency_to_region".toList.all Net.Uri.isPathChar = true := by decide +kernel
  refine answersById_of_views faithful rfl (List.all_eq_true.mp plain) ?_ ?_
    (fun id view => ascending_of_latencyToRegion) ?_
  · rintro ⟨path, parameters⟩ rfl
    rfl
  · intro id
    constructor
    · intro present
      have member := mem_of_latencyToRegion present
      exact built.regions ▸ member
    · intro member
      obtain ⟨region, configured, rfl⟩ := List.mem_map.mp member
      obtain ⟨place, found⟩ := List.mem_iff_getElem?.mp configured
      obtain ⟨view, shown, -⟩ := isLatencyView_latencyToRegion built shaped found
      exact Option.isSome_of_eq_some shown
  · intro id view shown entry member
    obtain ⟨latency, stored, inside⟩ := kept_of_latencyToRegion shown member
    exact (numbers latency stored _ inside).1

end Pages

/-- At every instant of every history, the dashboard answers by the ids of the PoPs with the
latencies to them, and by the ids of the regions with the latencies from them. -/
theorem latency_pages {config : Config} {ownProbers : Bool} {names : Net.NameService}
    {engine : Engine} (built : build config ownProbers names = .ok engine)
    (t : Responder) (channel : Shutdown.Channel)
    (events : List (Nat × Event)) (files : Option FileTree) :
    let course := (Course.start engine.store channel).run t engine.plan events
    course.loop.store = stateAfter engine.store course.history ∧
    ∀ seen, seen <+: course.history →
      let served : Engine := { engine with store := stateAfter engine.store seen }
      AnswersById served files "/latency_to_pop" "pop_id" "Invalid pop_id"
        (config.pops.map (·.id)) served.latencyToPop? ∧
      AnswersById served files "/latency_to_region" "region_id" "Invalid region_id"
        (config.regions.map (·.id)) served.latencyToRegion? := by
  intro course
  have parts := builtFrom_of_build built
  have fits : engine.plan.Fits engine.store := parts.fits []
  have starts : (Course.start engine.store channel).Sound t engine.plan engine.store :=
    Course.sound_start _ channel
  have sound : course.Sound t engine.plan engine.store := Course.sound_run fits starts events
  clear_value course
  refine ⟨sound.logged.state, fun seen part => ?_⟩
  have shaped := parts.shaped_replay (commits (seen.map Deed.entry))
  have numbers := isLatency_stateAfter parts sound.logged part
  exact ⟨answersById_latencyToPop parts shaped numbers files,
    answersById_latencyToRegion parts shaped numbers files⟩

/-- A configuration with a blank, separators and quotes in the ids of its PoPs. -/
def quotedIds : Config :=
  { twoPops with
    pops := [
      ⟨"t & k", .ofOctets 192 0 2 1, "http://192.0.2.1/latencyz", ""⟩,
      ⟨"ō = \"1\"", .ofOctets 192 0 2 2, "http://192.0.2.2/latencyz", ""⟩] }

/-- The number nearest to a tenth. -/
def tenth : Binary64 := ⟨0x3FB999999999999A⟩

/-- A name and a value in mixed spellings, between two other parameters of which one is broken. -/
def mixedQuery : String := "pop_id=%zz&p%6Fp_id=ō+%3d%20%221%22&pop"

theorem gives_mixedQuery :
    Http.Form.Gives (Text.encode mixedQuery) "pop_id" "ō = \"1\"" := by
  have parts : (Text.encode mixedQuery).splitOn 0x26 = [Text.encode "pop_id=%zz"] ++
      (Text.encode "p%6Fp_id" ++ 0x3D :: Text.encode "ō+%3d%20%221%22") :: [Text.encode "pop"] := by
    decide +kernel
  have faithful : Http.Form.IsFaithful "pop_id" ∧ Http.Form.IsFaithful "ō = \"1\"" :=
    ⟨⟨by decide +kernel, by decide +kernel⟩, ⟨by decide +kernel, by decide +kernel⟩⟩
  refine Http.Form.gives_of_read parts (by decide +kernel) faithful (by decide +kernel)
    (by decide +kernel) (List.forall_mem_singleton.mpr (by decide +kernel))

theorem lacks_nameQuery : Http.Form.Lacks (Text.encode "name=osaka") "pop_id" := by
  have parts : (Text.encode "name=osaka").splitOn 0x26 = [Text.encode "name=osaka"] := by
    decide +kernel
  intro part member
  rw [parts, List.mem_singleton] at member
  have faithful : Http.Form.IsFaithful "pop_id" := ⟨by decide +kernel, by decide +kernel⟩
  rw [member, ← Http.Form.names_iff faithful (by decide +kernel)]
  decide +kernel

theorem latency_pages_quotedIds : ∃ engine, build quotedIds true = .ok engine ∧
    let course := (Course.start engine.store .initial).run (.reachingSecond tenth) engine.plan
      [(0, .beginLatency)]
    let served : Engine := { engine with store := course.loop.store }
    let shown := Dashboard.answer served none "GET" ("/latency_to_pop?" ++ mixedQuery)
    shown.code = 200 ∧ Json.numberMembers? shown.content = some [("us-west", tenth)] ∧
      Dashboard.answer served none "GET" "/latency_to_pop?name=osaka" =
        .message 400 "Invalid pop_id" := by
  obtain ⟨engine, built⟩ := @exists_build quotedIds true .offline (by decide +kernel)
  refine ⟨engine, built, ?_⟩
  have parts := builtFrom_of_build built
  obtain ⟨state, answers⟩ := latency_pages built (.reachingSecond tenth) .initial
    [(0, .beginLatency)] none
  obtain ⟨popsAnswered, -⟩ := answers _ (List.prefix_refl _)
  rw [← state] at popsAnswered
  have parsed : Net.Uri.parse ("/latency_to_pop?" ++ mixedQuery) =
      .ok ⟨none, none, "/latency_to_pop?" ++ mixedQuery⟩ := by decide +kernel
  have written : ("/latency_to_pop?" ++ mixedQuery) = "/latency_to_pop" ++ "?" ++ mixedQuery := by
    decide +kernel
  obtain ⟨view, found, -, code, -, content⟩ := popsAnswered.shown _ _ _ parsed
    (.given written gives_mixedQuery) (by decide +kernel)
  have computed : ({ engine with store := ((Course.start engine.store .initial).run
      (.reachingSecond tenth) engine.plan [(0, .beginLatency)]).loop.store } :
        Engine).latencyToPop? "ō = \"1\"" = some [("us-west", tenth)] := by
    simp only [latencyToPop?, parts.pops, parts.regions, parts.store, parts.plan]
    decide +kernel
  refine ⟨code, content.trans (found.symm.trans computed), ?_⟩
  have parsedToo : Net.Uri.parse "/latency_to_pop?name=osaka" =
      .ok ⟨none, none, "/latency_to_pop?name=osaka"⟩ := by decide +kernel
  have writtenToo : "/latency_to_pop?name=osaka" = "/latency_to_pop" ++ "?" ++ "name=osaka" := by
    decide +kernel
  exact popsAnswered.refused _ _ _ parsedToo (.lacking writtenToo lacks_nameQuery)
    (by decide +kernel)

end Steering.Engine
