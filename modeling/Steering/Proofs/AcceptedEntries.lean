import Mathlib.Data.List.Nodup
import Steering.Proofs.Construction
/-! What acceptance says of the entries of a configuration: every one of them has passed its own
checks, and no two have the same id. -/

namespace Steering

namespace Config

variable {α : Type} {id : α → String} {checks : List String → α → List Check}

/-- Every entry is checked against some ids before it. -/
theorem subset_entryChecks {earlier : List String} {entries : List α} {entry : α}
    (member : entry ∈ entries) :
    ∃ before, checks before entry ⊆ entryChecks id checks earlier entries := by
  induction entries generalizing earlier with
  | nil => cases member
  | cons first rest ih =>
    rcases List.mem_cons.mp member with rfl | later
    · exact ⟨earlier, fun check own => List.mem_append_left _ own⟩
    · obtain ⟨before, contained⟩ := @ih (id first :: earlier) later
      exact ⟨before, fun check own => List.mem_append_right _ (contained own)⟩

/-- Entries that are refused if their id has come before have different ids. -/
theorem nodup_of_entryChecks (violation : α → Violation)
    (unique : ∀ earlier entry, (!earlier.contains (id entry), violation entry) ∈ checks earlier entry)
    {earlier : List String} {entries : List α}
    (holds : ∀ check ∈ entryChecks id checks earlier entries, check.1 = true) :
    (entries.map id).Nodup ∧ ∀ entry ∈ entries, id entry ∉ earlier := by
  induction entries generalizing earlier with
  | nil => exact ⟨.nil, fun entry member => nomatch member⟩
  | cons first rest ih =>
    have fresh : id first ∉ earlier := by
      have checked := holds _ (List.mem_append_left _ (unique earlier first))
      simpa using checked
    obtain ⟨distinct, apart⟩ := ih fun check member => holds check (List.mem_append_right _ member)
    refine ⟨List.nodup_cons.mpr ⟨fun member => ?_, distinct⟩, fun entry member => ?_⟩
    · obtain ⟨entry, present, same⟩ := List.mem_map.mp member
      exact apart entry present (same ▸ List.mem_cons_self)
    · rcases List.mem_cons.mp member with rfl | later
      · exact fresh
      · exact fun old => apart entry later (List.mem_cons_of_mem _ old)

variable {config : Config} (accepted : ∃ names, config.validate names = .ok ())
include accepted

/-- The ids of the PoPs of an accepted configuration are different. -/
theorem nodup_popIds : (config.pops.map (·.id)).Nodup := by
  have unique (earlier : List String) (pop : Pop) :
      (!earlier.contains pop.id, Violation.popIdRepeated pop.id) ∈ popChecks earlier pop := by
    simp [popChecks]
  obtain ⟨names, accepted⟩ := accepted
  refine (@nodup_of_entryChecks _ _ _ _ unique [] _ ?_).1
  · intro check member
    refine Engine.holds_of_validate accepted ?_
    simp only [Config.checks, List.mem_append]
    exact .inl (.inr member)

theorem nodup_regionIds : (config.regions.map (·.id)).Nodup := by
  have unique (earlier : List String) (region : Region) :
      (!earlier.contains region.id, Violation.regionIdRepeated region.id) ∈
        regionChecks earlier region := by
    simp [regionChecks]
  obtain ⟨names, accepted⟩ := accepted
  refine (@nodup_of_entryChecks _ _ _ _ unique [] _ ?_).1
  · intro check member
    refine Engine.holds_of_validate accepted ?_
    simp only [Config.checks, List.mem_append]
    exact .inr member

/-- Every region of an accepted configuration names a prober by an absolute identifier. -/
theorem isAbsolute_proberUrl {region : Region} (member : region ∈ config.regions) :
    Net.Uri.isAbsolute region.proberUrl = true := by
  obtain ⟨names, accepted⟩ := accepted
  obtain ⟨before, contained⟩ := @subset_entryChecks _ Region.id regionChecks [] _ _ member
  have own : (Net.Uri.isAbsolute region.proberUrl,
      Violation.proberInvalid region.proberUrl region.id) ∈ regionChecks before region := by
    simp [regionChecks]
  exact @Engine.holds_of_validate config names accepted _ (List.mem_append_right _ (contained own))

end Config

/-- Among entries with different ids, an id belongs to one place only. -/
theorem findIdx?_id {α : Type} {id : α → String} {entries : List α}
    (distinct : (entries.map id).Nodup) {place : Nat} {entry : α}
    (found : entries[place]? = some entry) :
    (entries.findIdx? fun other => id other == id entry) = some place := by
  obtain ⟨inside, here⟩ := List.getElem?_eq_some_iff.mp found
  refine List.findIdx?_eq_some_iff_getElem.mpr ⟨inside, by simp [here], fun other before same => ?_⟩
  have bound : place < (entries.map id).length := by rwa [List.length_map]
  have earlier : other < (entries.map id).length := Nat.lt_trans before bound
  have equal : (entries.map id)[other] = (entries.map id)[place] := by
    simpa [here] using same
  exact Nat.ne_of_lt before (distinct.getElem_inj_iff.mp equal)

end Steering
