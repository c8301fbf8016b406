import Steering.Dashboard.Routes
import Steering.Proofs.AddressText
import Steering.Proofs.Construction
import Steering.Proofs.WrittenDocument
/-! The lists of PoPs and regions. What they say is read back entry by entry, each address and each
prefix by the reader that the configuration is read with, and it is what is configured. -/

namespace Steering.Dashboard

open Json (Value)

section Reading

variable {α β : Type}

/-- The values of an object that has members of exactly these names, in this order. -/
def record? (names : List String) : Value → Option (List Value)
  | .object members => if members.map (·.1) = names then some (members.map (·.2)) else none
  | _ => none

/-- The id, the address and the style of a PoP, from its entry. -/
def readPop? (entry : Value) : Option (String × Net.Ipv4 × String) :=
  match record? ["id", "ip4", "ui_popup_css"] entry with
  | some [.text id, .text ip4, .text css] => do
    let address ← Net.Ipv4.parse? ip4
    return (id, address, css)
  | _ => none

/-- A prefix, from its text. -/
def readPrefix? : Value → Option Net.Prefix
  | .text written => Net.Prefix.parse? written
  | _ => none

/-- The id, the prefixes and the style of a region, from its entry. -/
def readRegion? (entry : Value) : Option (String × List Net.Prefix × String) :=
  match record? ["id", "prefices", "ui_popup_css"] entry with
  | some [.text id, .list written, .text css] => do
    let prefixes ← written.mapM readPrefix?
    return (id, prefixes, css)
  | _ => none

/-- What the entries of a page say, if its content is a list and each of them is read. -/
def Page.rows? (page : Page) (read : Value → Option β) : Option (List β) :=
  match Value.decode page.content with
  | .ok (.list entries) => entries.mapM read
  | _ => none

/-- Entries are read one by one. -/
theorem mapM_read {xs : List α} {write : α → Value} {read : Value → Option β} {row : α → β}
    (back : ∀ x, read (write x) = some (row x)) : (xs.map write).mapM read = some (xs.map row) := by
  induction xs with
  | nil => rfl
  | cons x xs ih => rw [List.map_cons, List.mapM_cons, back, ih]; rfl

/-- A list without numbers is shown as it is. -/
theorem rows?_document {xs : List α} {write : α → Value} {read : Value → Option β} {row : α → β}
    (numberless : ∀ x, (write x).isNumberless = true)
    (back : ∀ x, read (write x) = some (row x)) :
    (Page.document (.list (xs.map write))).rows? read = some (xs.map row) := by
  have plain : (Value.list (xs.map write)).isNumberless = true := by
    rw [Value.isNumberless]
    induction xs with
    | nil => rfl
    | cons x xs ih => exact Bool.and_eq_true_iff.mpr ⟨numberless x, ih⟩
  rw [Page.rows?, Page.document, Value.decode_write plain]
  exact mapM_read back

end Reading

section Lists

variable (engine : Engine)

theorem rows?_popsDocument : (Page.document (popsDocument engine)).rows? readPop? =
    some (engine.pops.map fun pop => (pop.id, pop.ip4, pop.uiPopupCss)) := by
  refine rows?_document (fun pop => rfl) fun pop => ?_
  simp only [readPop?, record?, List.map_cons, List.map_nil, if_true, pop.ip4.parse?_text]
  rfl

theorem rows?_regionsDocument : (Page.document (regionsDocument engine)).rows? readRegion? =
    some (engine.regions.map fun region => (region.id, region.prefixes, region.uiPopupCss)) := by
  refine rows?_document (fun region => ?_) fun region => ?_
  · have texts : Value.areNumberless (region.prefixes.map fun p => .text p.text) = true := by
      induction region.prefixes with
      | nil => rfl
      | cons p rest ih => exact ih
    simp [Value.isNumberless, Value.membersNumberless, texts]
  · have prefixes : (region.prefixes.map fun p => Value.text p.text).mapM readPrefix? =
        some region.prefixes := by
      rw [mapM_read fun p => p.parse?_text, List.map_id']
    simp only [readRegion?, record?, List.map_cons, List.map_nil, if_true, prefixes]
    rfl

theorem answer_pops (files : Option FileTree) :
    answer engine files "GET" "/pops.json" = .document (popsDocument engine) := by
  have parsed : Net.Uri.parse "/pops.json" = .ok ⟨none, none, "/pops.json"⟩ := by decide +kernel
  have target : Target.ofUri ⟨none, none, "/pops.json"⟩ = ⟨"/pops.json", []⟩ := by decide +kernel
  simp only [answer, parsed, true_or, if_true, target]
  rfl

theorem answer_regions (files : Option FileTree) :
    answer engine files "GET" "/regions.json" = .document (regionsDocument engine) := by
  have parsed : Net.Uri.parse "/regions.json" = .ok ⟨none, none, "/regions.json"⟩ := by
    decide +kernel
  have target : Target.ofUri ⟨none, none, "/regions.json"⟩ = ⟨"/regions.json", []⟩ := by
    decide +kernel
  simp only [answer, parsed, true_or, if_true, target]
  rfl

end Lists

end Steering.Dashboard

namespace Steering.Engine

open Dashboard

/-- The dashboard lists every PoP and every region of the configuration in its order: the id, the
style, and the very address or prefixes that the configuration has. In every other state it gives
the same answers. -/
theorem dashboard_lists {config : Config} {ownProbers : Bool} {names : Net.NameService}
    {engine : Engine} (built : build config ownProbers names = .ok engine)
    (store : Store) (files : Option FileTree) :
    let served : Engine := { engine with store }
    let pops := answer served files "GET" "/pops.json"
    let regions := answer served files "GET" "/regions.json"
    (pops.code = 200 ∧ pops.contentType = some Page.documentType ∧
      pops.rows? readPop? =
        some (config.pops.map fun pop => (pop.id, pop.ip4, pop.uiPopupCss))) ∧
    (regions.code = 200 ∧ regions.contentType = some Page.documentType ∧
      regions.rows? readRegion? =
        some (config.regions.map fun region => (region.id, region.prefixes, region.uiPopupCss))) ∧
    ∀ other : Store,
      answer { engine with store := other } files "GET" "/pops.json" = pops ∧
      answer { engine with store := other } files "GET" "/regions.json" = regions := by
  intro served pops regions
  have parts := builtFrom_of_build built
  have popsShown : pops = .document (popsDocument engine) := answer_pops served files
  have regionsShown : regions = .document (regionsDocument engine) := answer_regions served files
  rw [popsShown, regionsShown]
  refine ⟨⟨rfl, rfl, ?_⟩, ⟨rfl, rfl, ?_⟩, fun other => ⟨?_, ?_⟩⟩
  · rw [rows?_popsDocument, parts.pops]
  · rw [rows?_regionsDocument, parts.regions]
  · exact answer_pops { engine with store := other } files
  · exact answer_regions { engine with store := other } files

/-- A configuration whose ids and styles have to be escaped and whose prefix has bits below its
length. -/
def escapedIds : Config :=
  { twoPops with
    pops := [⟨"tōkyō \"1\"", .ofOctets 192 0 2 1, "http://192.0.2.1/latencyz", "left:\t1px\n"⟩]
    regions := [
      ⟨"us\\west", [⟨.ofOctets 198 51 100 7, 27, by decide⟩], "http://203.0.113.1:8823/probe",
        "→"⟩] }

theorem dashboard_lists_escapedIds : ∃ engine, build escapedIds true = .ok engine ∧
    (answer engine none "GET" "/pops.json").rows? readPop? =
      some [("tōkyō \"1\"", .ofOctets 192 0 2 1, "left:\t1px\n")] ∧
    (answer engine none "GET" "/regions.json").rows? readRegion? =
      some [("us\\west", [⟨.ofOctets 198 51 100 7, 27, by decide⟩], "→")] := by
  obtain ⟨engine, built⟩ := @exists_build escapedIds true .offline (by decide +kernel)
  obtain ⟨⟨-, -, pops⟩, ⟨-, -, regions⟩, -⟩ := dashboard_lists built engine.store none
  exact ⟨engine, built, pops, regions⟩

end Steering.Engine
