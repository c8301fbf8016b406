import Steering.Proofs.FirstViolation
/-! Lower case in all of Unicode against lower case in ASCII alone. On ASCII characters the two are
the same, and of all others only the Kelvin sign becomes nothing but an ASCII character, a `k`. So
a name of lower-case ASCII characters without a `k` is found by either in the same texts. -/

namespace Steering.Text

/-- The Kelvin sign, which has the lower case of the letter `K`. -/
def kelvinSign : Nat := 0x212A

/-- A run of characters beyond ASCII that all become characters beyond ASCII. -/
structure CaseRun.StaysBeyond (run : CaseRun) : Prop where
  first : 128 ≤ run.first
  shifted : 128 ≤ run.first + run.shift
  valid : run.last + run.shift < 0xD800 ∨
    0xDFFF < run.first + run.shift ∧ run.last + run.shift < 0x110000

/-- Only the letters of ASCII and the Kelvin sign become ASCII characters. -/
theorem caseRun_cases {run : CaseRun} (member : run ∈ caseRuns) :
    run = ⟨0x41, 0x5A, 1, 32⟩ ∨ run = ⟨kelvinSign, kelvinSign, 1, -8383⟩ ∨ run.StaysBeyond := by
  have all : ∀ run ∈ caseRuns, run = ⟨0x41, 0x5A, 1, 32⟩ ∨
      run = ⟨kelvinSign, kelvinSign, 1, -8383⟩ ∨ 128 ≤ run.first ∧ 128 ≤ run.first + run.shift ∧
        (run.last + run.shift < 0xD800 ∨
          0xDFFF < run.first + run.shift ∧ run.last + run.shift < 0x110000) := by
    decide +kernel
  rcases all run member with letters | kelvin | ⟨first, shifted, valid⟩
  · exact .inl letters
  · exact .inr (.inl kelvin)
  · exact .inr (.inr ⟨first, shifted, valid⟩)

theorem CaseRun.covers_iff {run : CaseRun} {point : Nat} : run.covers point = true ↔
    run.first ≤ point ∧ point ≤ run.last ∧ (point - run.first) % run.step = 0 := by
  simp only [covers, Bool.and_eq_true, decide_eq_true_eq, beq_iff_eq, and_assoc]

theorem toNat_ofNat_of_isValidChar {point : Nat} (valid : point.isValidChar) :
    (Char.ofNat point).toNat = point := by
  rw [Char.ofNat, dif_pos valid]
  rfl

/-- A character of a run that stays beyond ASCII. -/
theorem CaseRun.StaysBeyond.le_lower {run : CaseRun} (stays : run.StaysBeyond) {point : Nat}
    (covers : run.covers point = true) :
    128 ≤ (Char.ofNat (point + run.shift).toNat).toNat := by
  obtain ⟨low, high, -⟩ := CaseRun.covers_iff.mp covers
  have shifted := stays.shifted
  have valid : (point + run.shift).toNat.isValidChar := by
    rcases stays.valid with below | ⟨above, small⟩
    · exact .inl (by omega)
    · exact .inr ⟨by omega, by omega⟩
  rw [toNat_ofNat_of_isValidChar valid]
  omega

/-- On ASCII characters both ways of lowering are the same. -/
theorem lowerChar_of_ascii {c : Char} (ascii : c.toNat < 128) : lowerChar c = [asciiLower c] := by
  rw [lowerChar, if_neg (by omega : c.toNat ≠ 0x130)]
  cases found : caseRuns.find? (·.covers c.toNat) with
  | some run =>
    have covers := List.find?_some found
    obtain ⟨low, high, -⟩ := CaseRun.covers_iff.mp covers
    rcases caseRun_cases (List.mem_of_find?_eq_some found) with rfl | rfl | stays
    · have letter : 65 ≤ c.toNat ∧ c.toNat ≤ 90 := ⟨low, high⟩
      have valid : (c.toNat + 32).isValidChar := .inl (by omega)
      refine congrArg (fun d => [d]) (Char.toNat_inj.mp ?_)
      rw [toNat_asciiLower, if_pos letter]
      exact toNat_ofNat_of_isValidChar valid
    · exact absurd (Nat.lt_of_le_of_lt low ascii) (by decide)
    · exact absurd (Nat.lt_of_le_of_lt low ascii) (Nat.not_lt.mpr stays.first)
  | none =>
    have uncovered : CaseRun.covers ⟨0x41, 0x5A, 1, 32⟩ c.toNat ≠ true :=
      List.find?_eq_none.mp found _ List.mem_cons_self
    have other : ¬ (65 ≤ c.toNat ∧ c.toNat ≤ 90) := fun letter =>
      uncovered (CaseRun.covers_iff.mpr ⟨letter.1, letter.2, Nat.mod_one _⟩)
    refine congrArg (fun d => [d]) (Char.toNat_inj.mp ?_)
    rw [toNat_asciiLower, if_neg other]

theorem lowerChar_kelvinSign {c : Char} (kelvin : c.toNat = kelvinSign) : lowerChar c = ['k'] := by
  rw [show c = Char.ofNat kelvinSign from Char.toNat_inj.mp kelvin]
  decide +kernel

/-- Beyond ASCII, only the Kelvin sign loses all that is not ASCII. -/
theorem exists_beyond_lowerChar {c : Char} (beyond : 128 ≤ c.toNat) (other : c.toNat ≠ kelvinSign) :
    ∃ d ∈ lowerChar c, 128 ≤ d.toNat := by
  rw [lowerChar]
  split
  · exact ⟨Char.ofNat 0x307, by simp, by decide⟩
  · split
    · rename_i run found
      have covers := List.find?_some found
      obtain ⟨low, high, -⟩ := CaseRun.covers_iff.mp covers
      refine ⟨_, List.mem_singleton_self _, ?_⟩
      rcases caseRun_cases (List.mem_of_find?_eq_some found) with rfl | rfl | stays
      · exact absurd (Nat.le_trans beyond high) (by decide)
      · exact absurd (Nat.le_antisymm high low) other
      · exact stays.le_lower covers
    · exact ⟨c, List.mem_singleton_self c, beyond⟩

/-- A lower-case ASCII character that no other character but its capital has as its lower case. -/
def isUnmistakable (c : Char) : Bool :=
  c.toNat < 128 && c != 'k' && asciiLower c == c

theorem flatMap_lowerChar {cs : List Char} (ascii : ∀ c ∈ cs, c.toNat < 128) :
    cs.flatMap lowerChar = cs.map asciiLower := by
  rw [List.map_eq_flatMap]
  exact List.flatMap_congr fun c member => lowerChar_of_ascii (ascii c member)

/-- Both ways of ignoring case find the same texts for a name of unmistakable characters. -/
theorem lower_eq_iff {name s : String} (plain : name.toList.all isUnmistakable = true) :
    lower s = name ↔ sameIgnoringCase name s = true := by
  have each (c : Char) (member : c ∈ name.toList) :
      c.toNat < 128 ∧ c ≠ 'k' ∧ asciiLower c = c := by
    simpa [isUnmistakable, and_assoc] using List.all_eq_true.mp plain c member
  have lowered : name.toList.map asciiLower = name.toList :=
    List.map_congr_left (fun c member => (each c member).2.2) |>.trans (List.map_id' _)
  rw [lower, ← String.toList_inj, String.toList_ofList, sameIgnoringCase, beq_iff_eq, lowered]
  constructor
  · intro same
    have ascii (c : Char) (member : c ∈ s.toList) : c.toNat < 128 := by
      have its (d : Char) (inside : d ∈ lowerChar c) : d ∈ name.toList :=
        same ▸ List.mem_flatMap.mpr ⟨c, member, inside⟩
      by_contra beyond
      by_cases kelvin : c.toNat = kelvinSign
      · exact (each 'k' (its 'k' (by simp [lowerChar_kelvinSign kelvin]))).2.1 rfl
      · obtain ⟨d, inside, far⟩ := exists_beyond_lowerChar (Nat.not_lt.mp beyond) kelvin
        exact absurd (each d (its d inside)).1 (Nat.not_lt.mpr far)
    rw [← same, flatMap_lowerChar ascii]
  · intro same
    have ascii (c : Char) (member : c ∈ s.toList) : c.toNat < 128 := by
      have small := (each (asciiLower c) (same ▸ List.mem_map_of_mem member)).1
      rw [toNat_asciiLower] at small
      split at small <;> omega
    rw [flatMap_lowerChar ascii, same]

end Steering.Text
