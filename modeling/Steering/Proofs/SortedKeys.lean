import Mathlib.Data.String.Basic
import Mathlib.Data.List.Nodup
import Steering.Engine.Query
/-! Entries in the order of their keys: sorting loses none of them as long as no two have the same
key. -/

namespace Steering.Engine

variable {α : Type} {key : String} {value : α} {entries : List (String × α)}

/-- The keys ascend. -/
def Ascending (entries : List (String × α)) : Prop :=
  entries.Pairwise fun first second => first.1 < second.1

theorem mem_of_mem_insertByKey {entry : String × α}
    (member : entry ∈ insertByKey key value entries) : entry = (key, value) ∨ entry ∈ entries := by
  induction entries with
  | nil => exact .inl (List.mem_singleton.mp member)
  | cons head rest ih =>
    rw [insertByKey] at member
    split at member
    · exact List.mem_cons.mp member
    · split at member
      · exact (List.mem_cons.mp member).imp_right (List.mem_cons_of_mem head)
      · rcases List.mem_cons.mp member with first | later
        · exact .inr (first ▸ List.mem_cons_self)
        · exact (ih later).imp_right (List.mem_cons_of_mem head)

theorem ascending_insertByKey (ascending : Ascending entries) :
    Ascending (insertByKey key value entries) := by
  induction entries with
  | nil => exact List.pairwise_singleton _ _
  | cons head rest ih =>
    obtain ⟨least, ordered⟩ := List.pairwise_cons.mp ascending
    rw [insertByKey]
    split
    · rename_i before
      refine List.pairwise_cons.mpr ⟨fun entry member => ?_, ascending⟩
      rcases List.mem_cons.mp member with rfl | later
      · exact before
      · exact before.trans (least entry later)
    · split
      · rename_i same
        exact List.pairwise_cons.mpr ⟨fun entry member => same ▸ least entry member, ordered⟩
      · rename_i notBefore different
        have after : head.1 < key := lt_of_le_of_ne (not_lt.mp notBefore) (Ne.symm different)
        refine List.pairwise_cons.mpr ⟨fun entry member => ?_, ih ordered⟩
        rcases mem_of_mem_insertByKey member with rfl | old
        · exact after
        · exact least entry old

/-- A new key takes no entry's place. -/
theorem perm_insertByKey (fresh : key ∉ entries.map (·.1)) :
    (insertByKey key value entries).Perm ((key, value) :: entries) := by
  induction entries with
  | nil => exact .refl _
  | cons head rest ih =>
    rw [List.map_cons, List.mem_cons, not_or] at fresh
    rw [insertByKey]
    split
    · exact .refl _
    · rw [if_neg fresh.1]
      exact ((ih fresh.2).cons head).trans (.swap _ _ _)

/-- Sorting adds no entry. -/
theorem mem_of_mem_sortByKey {entry : String × α} (member : entry ∈ sortByKey entries) :
    entry ∈ entries := by
  have grown (added sorted : List (String × α))
      (kept : entry ∈ added.foldl (fun sorted entry => insertByKey entry.1 entry.2 sorted) sorted) :
      entry ∈ added ∨ entry ∈ sorted := by
    induction added generalizing sorted with
    | nil => exact .inr kept
    | cons first rest ih =>
      rcases ih _ kept with later | inserted
      · exact .inl (List.mem_cons_of_mem _ later)
      · rcases mem_of_mem_insertByKey inserted with same | old
        · exact .inl (same ▸ List.mem_cons_self)
        · exact .inr old
  exact (grown entries [] member).resolve_right nofun

theorem ascending_sortByKey (entries : List (String × α)) : Ascending (sortByKey entries) := by
  have grown (sorted : List (String × α)) (ascending : Ascending sorted) :
      Ascending (entries.foldl (fun sorted entry => insertByKey entry.1 entry.2 sorted) sorted) := by
    induction entries generalizing sorted with
    | nil => exact ascending
    | cons entry rest ih => exact ih _ (ascending_insertByKey ascending)
  exact grown [] .nil

/-- Entries with different keys are all kept. -/
theorem perm_sortByKey (distinct : (entries.map (·.1)).Nodup) :
    (sortByKey entries).Perm entries := by
  have grown (sorted : List (String × α))
      (apart : (entries.map (·.1) ++ sorted.map (·.1)).Nodup) :
      (entries.foldl (fun sorted entry => insertByKey entry.1 entry.2 sorted) sorted).Perm
        (entries ++ sorted) := by
    induction entries generalizing sorted with
    | nil => exact .refl _
    | cons entry rest ih =>
      rw [List.map_cons, List.cons_append, List.nodup_cons, List.mem_append, not_or] at apart
      have inserted := @perm_insertByKey _ _ entry.2 _ apart.1.2
      have next : (rest.map (·.1) ++ (insertByKey entry.1 entry.2 sorted).map (·.1)).Nodup := by
        refine (List.perm_append_left_iff _ |>.mpr (inserted.map _) |>.nodup_iff).mpr ?_
        refine List.perm_middle.nodup_iff.mpr (List.nodup_cons.mpr ⟨?_, apart.2⟩)
        exact fun member => (List.mem_append.mp member).elim apart.1.1 apart.1.2
      refine (ih (List.nodup_cons.mp distinct).2 _ next).trans ?_
      exact (List.perm_append_left_iff _ |>.mpr inserted).trans List.perm_middle
  have whole := grown [] (by rwa [List.map_nil, List.append_nil])
  rwa [List.append_nil] at whole

/-- Where the keys ascend, the value of each entry is found by its key. -/
theorem Ascending.lookup (ascending : Ascending entries) (member : (key, value) ∈ entries) :
    entries.lookup key = some value := by
  induction entries with
  | nil => cases member
  | cons head rest ih =>
    obtain ⟨least, ordered⟩ := List.pairwise_cons.mp ascending
    rcases List.mem_cons.mp member with rfl | later
    · exact List.lookup_cons_self
    · have different : (key == head.1) = false := beq_eq_false_iff_ne.mpr (least _ later).ne'
      rw [List.lookup_cons, different]
      exact ih ordered later

end Steering.Engine
