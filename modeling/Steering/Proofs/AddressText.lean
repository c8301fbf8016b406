import Steering.Net.Prefix
/-! Texts of addresses and prefixes: a dotted address and a prefix are read back as they were
written, and every text that is an address of either family is short and made of few characters. -/

namespace Steering.Net

variable {cs rest : List Char}

/-- Digits end where something else follows them. -/
theorem splitDigits_append {radix : Nat} {digits : List Nat}
    (all : splitDigits radix cs = (digits, []))
    (ends : ∀ c ∈ rest.head?, digitValue? radix c = none) :
    splitDigits radix (cs ++ rest) = (digits, rest) := by
  induction cs generalizing digits with
  | nil =>
    cases all
    cases rest with
    | nil => rfl
    | cons c rest => rw [List.nil_append, splitDigits, ends c rfl]
  | cons c cs ih =>
    rw [splitDigits] at all
    rw [List.cons_append, splitDigits]
    cases value : digitValue? radix c with
    | none => simp [value] at all
    | some d =>
      simp only [value, Prod.mk.injEq] at all
      obtain ⟨rfl, empty⟩ := all
      rw [ih (Prod.ext rfl empty)]

/-- A number is read where something else follows it just as it is read alone. -/
theorem readNumber_append {form : NumberForm} {n : Nat} (alone : readNumber form cs = some (n, []))
    (ends : ∀ c ∈ rest.head?, digitValue? form.radix c = none) :
    readNumber form (cs ++ rest) = some (n, rest) := by
  cases all : splitDigits form.radix cs with
  | mk digits left =>
    simp only [readNumber, all] at alone
    split at alone
    · cases alone
    split at alone
    · cases alone
    split at alone
    · cases alone
    split at alone
    · cases alone
    · cases alone
      simp only [readNumber, splitDigits_append all ends, *, if_false, Bool.false_eq_true]

/-- A number below 256 is read back as an octet. -/
theorem readNumber_toString {n : Nat} (octet : n < 256)
    (ends : ∀ c ∈ rest.head?, digitValue? 10 c = none) :
    readNumber octetForm ((toString n).toList ++ rest) = some (n, rest) := by
  have all : ∀ m : Fin 256, readNumber octetForm (toString m.val).toList = some (m.val, []) := by
    decide +kernel
  exact readNumber_append (all ⟨n, octet⟩) ends

namespace Ipv4

/-- The octets of an address are numbers below 256, and they make the address. -/
theorem octets_cases (address : Ipv4) : ∃ a b c d, a < 256 ∧ b < 256 ∧ c < 256 ∧ d < 256 ∧
    address.octets = [a, b, c, d] ∧ ofOctets a b c d = address := by
  obtain ⟨bits⟩ := address
  have bound : bits.toNat < 0x100000000 := bits.isLt
  refine ⟨_, _, _, _, ?_, ?_, ?_, ?_, rfl, ?_⟩
  · exact Nat.mod_lt _ (by decide)
  · exact Nat.mod_lt _ (by decide)
  · exact Nat.mod_lt _ (by decide)
  · exact Nat.mod_lt _ (by decide)
  · rw [ofOctets, Ipv4.mk.injEq]
    apply BitVec.eq_of_toNat_eq
    rw [BitVec.toNat_ofNat]
    dsimp only
    generalize bits.toNat = n at bound
    have nested : n / 0x10000 = n / 0x100 / 0x100 ∧ n / 0x1000000 = n / 0x100 / 0x100 / 0x100 := by
      simp only [Nat.div_div_eq_div_mul, and_self]
    rw [nested.1, nested.2]
    omega

/-- The text of an address has its octets in decimal with points between them. -/
theorem toList_text {address : Ipv4} {a b c d : Nat} (octets : address.octets = [a, b, c, d]) :
    address.text.toList = (toString a).toList ++ '.' :: ((toString b).toList ++
      '.' :: ((toString c).toList ++ '.' :: (toString d).toList)) := by
  rw [text, octets]
  simp [String.intercalate_cons_cons]

/-- A dotted address is read back as it was written. -/
theorem parse?_text (address : Ipv4) : parse? address.text = some address := by
  obtain ⟨a, b, c, d, first, second, third, fourth, octets, same⟩ := address.octets_cases
  have dot (more : List Char) : ∀ x ∈ ('.' :: more).head?, digitValue? 10 x = none := by
    intro x same
    cases same
    decide
  have last : readNumber octetForm (toString d).toList = some (d, []) := by
    have alone := @readNumber_toString [] d fourth fun x none => nomatch none
    rwa [List.append_nil] at alone
  have whole : read address.text.toList = some (address, []) := by
    rw [toList_text octets, read]
    simp only [readNumber_toString first (dot _), readNumber_toString second (dot _),
      readNumber_toString third (dot _), last, readChar, if_true, bind, Option.bind, pure, same]
  rw [parse?, whole]

end Ipv4

/-- Whether a character may stand in the text of an address. -/
def isAddressChar (c : Char) : Bool :=
  (digitValue? 16 c).isSome || c == ':' || c == '.'

/-- A reader takes a few characters that may stand in an address and leaves the rest. -/
def Takes (cs rest : List Char) (most : Nat) : Prop :=
  ∃ taken, cs = taken ++ rest ∧ taken.length ≤ most ∧ ∀ c ∈ taken, isAddressChar c = true

theorem Takes.trans {last : List Char} {most more : Nat} (first : Takes cs rest most)
    (second : Takes rest last more) : Takes cs last (most + more) := by
  obtain ⟨taken, rfl, few, plain⟩ := first
  obtain ⟨also, rfl, fewer, plainToo⟩ := second
  refine ⟨taken ++ also, by simp, by simp; omega, fun c member => ?_⟩
  exact (List.mem_append.mp member).elim (plain c) (plainToo c)

theorem Takes.mono {most more : Nat} (takes : Takes cs rest most) (le : most ≤ more) :
    Takes cs rest more := by
  obtain ⟨taken, split, few, plain⟩ := takes
  exact ⟨taken, split, Nat.le_trans few le, plain⟩

theorem takes_none : Takes cs cs 0 := ⟨[], rfl, Nat.le_refl _, nofun⟩

theorem digitValue?_mono {radix : Nat} (le : radix ≤ 16) {c : Char} {d : Nat}
    (value : digitValue? radix c = some d) : isAddressChar c = true := by
  rw [digitValue?] at value
  obtain ⟨written, small⟩ := Option.filter_eq_some_iff.mp value
  have digit : digitValue? 16 c = some d := by
    rw [digitValue?]
    exact Option.filter_eq_some_iff.mpr
      ⟨written, decide_eq_true (Nat.lt_of_lt_of_le (of_decide_eq_true small) le)⟩
  simp [isAddressChar, digit]

theorem takes_splitDigits {radix : Nat} (le : radix ≤ 16) (cs : List Char) :
    Takes cs (splitDigits radix cs).2 (splitDigits radix cs).1.length := by
  induction cs with
  | nil => exact takes_none
  | cons c cs ih =>
    rw [splitDigits]
    cases value : digitValue? radix c with
    | none => exact takes_none
    | some d =>
      obtain ⟨taken, split, few, plain⟩ := ih
      refine ⟨c :: taken, congrArg (c :: ·) split, Nat.succ_le_succ few, ?_⟩
      exact List.forall_mem_cons.mpr ⟨digitValue?_mono le value, plain⟩

theorem takes_readNumber {form : NumberForm} {most n : Nat} (le : form.radix ≤ 16)
    (few : form.maxDigits = some most) (read : readNumber form cs = some (n, rest)) :
    Takes cs rest most := by
  have takes := takes_splitDigits le cs
  simp only [readNumber, few, Option.any_some, decide_eq_true_eq] at read
  split at read
  · cases read
  split at read
  · cases read
  · rename_i short
    split at read
    · cases read
    split at read
    · cases read
    · cases read
      exact takes.mono (Nat.not_lt.mp short)

theorem takes_readChar {expected : Char} (plain : isAddressChar expected = true)
    (read : readChar expected cs = some rest) : Takes cs rest 1 := by
  cases cs with
  | nil => cases read
  | cons c cs =>
    rw [readChar] at read
    split at read
    · rename_i same
      cases read
      exact ⟨[c], rfl, Nat.le_refl _, List.forall_mem_singleton.mpr (same ▸ plain)⟩
    · cases read

theorem Ipv4.takes_read {address : Ipv4} (result : Ipv4.read cs = some (address, rest)) :
    Takes cs rest 15 := by
  obtain ⟨⟨a, one⟩, first, result⟩ := Option.bind_eq_some_iff.mp result
  obtain ⟨two, dotOne, result⟩ := Option.bind_eq_some_iff.mp result
  obtain ⟨⟨b, three⟩, second, result⟩ := Option.bind_eq_some_iff.mp result
  obtain ⟨four, dotTwo, result⟩ := Option.bind_eq_some_iff.mp result
  obtain ⟨⟨c, five⟩, third, result⟩ := Option.bind_eq_some_iff.mp result
  obtain ⟨six, dotThree, result⟩ := Option.bind_eq_some_iff.mp result
  obtain ⟨⟨d, last⟩, fourth, result⟩ := Option.bind_eq_some_iff.mp result
  cases result
  have octet {cs rest : List Char} {n : Nat} (read : readNumber octetForm cs = some (n, rest)) :
      Takes cs rest 3 := takes_readNumber (by decide) rfl read
  have dot {cs rest : List Char} (read : readChar '.' cs = some rest) : Takes cs rest 1 :=
    takes_readChar (by decide) read
  have firstTwo := ((octet first).trans (dot dotOne)).trans (octet second)
  have lastTwo := ((octet third).trans (dot dotThree)).trans (octet fourth)
  exact (firstTwo.trans (dot dotTwo)).trans lastTwo

theorem Ipv6.takes_readGroups (first : Bool) (room : Nat) (cs : List Char) :
    Takes cs (Ipv6.readGroups first room cs).2.2 (16 * room) := by
  induction room generalizing first cs with
  | zero => exact takes_none
  | succ room ih =>
    rw [Ipv6.readGroups]
    have nothing : Takes cs cs (16 * (room + 1)) := takes_none.mono (Nat.zero_le _)
    split
    · exact nothing
    · rename_i inner entered
      have colon : Takes cs inner 1 := by
        split at entered
        · cases entered
          exact takes_none.mono (Nat.zero_le _)
        · exact takes_readChar (by decide) entered
      split
      · rename_i dotted rest ended
        have four : Takes inner rest 15 := by
          split at ended
          · cases ended
          · exact Ipv4.takes_read ended
        exact (colon.trans four).mono (by omega)
      · split
        · exact nothing
        · rename_i group rest read
          have one : Takes inner rest 4 := takes_readNumber (by decide) rfl read
          exact ((colon.trans one).trans (ih false rest)).mono (by omega)

theorem Ipv6.takes_read {address : Ipv6} (result : Ipv6.read cs = some (address, rest)) :
    Takes cs rest 256 := by
  have head := Ipv6.takes_readGroups true 8 cs
  unfold Ipv6.read at result
  generalize Ipv6.readGroups true 8 cs = groups at head result
  obtain ⟨groups, dotted, left⟩ := groups
  dsimp only at result
  split at result
  · cases result
    exact head.mono (by decide)
  · split at result
    · cases result
    · obtain ⟨one, first, result⟩ := Option.bind_eq_some_iff.mp result
      obtain ⟨two, second, result⟩ := Option.bind_eq_some_iff.mp result
      cases result
      have colons := (takes_readChar (by decide) first).trans (takes_readChar (by decide) second)
      have tail := Ipv6.takes_readGroups true
        (7 - groups.length) two
      exact ((head.trans colons).trans tail).mono (by omega)

/-- The length of a prefix is read back as it was written. It is no mask, as it has no points. -/
theorem Prefix.parseLength?_toString {length : Nat} (inside : length ≤ 32) :
    parseLength? (toString length) = some length := by
  have all : ∀ n : Fin 33, parseLength? (toString n.val) = some n.val := by decide +kernel
  exact all ⟨length, Nat.lt_succ_of_le inside⟩

/-- No slash stands in the text of an address. -/
theorem Ipv4.slash_notMem_text (address : Ipv4) : ∀ c ∈ address.text.toList, c ≠ '/' := by
  have read : Ipv4.read address.text.toList = some (address, []) := by
    have parsed := address.parse?_text
    rw [parse?] at parsed
    split at parsed
    · rename_i same
      cases parsed
      exact same
    · cases parsed
  obtain ⟨taken, split, -, plain⟩ := Ipv4.takes_read read
  rw [List.append_nil] at split
  rintro c member rfl
  have slash := plain '/' (split ▸ member)
  exact absurd slash (by decide)

/-- A prefix is read back as it was written, with all bits of its address and with its length. -/
theorem Prefix.parse?_text (p : Prefix) : parse? p.text = some p := by
  have written : p.text.toList = p.address.text.toList ++ '/' :: (toString p.length).toList := by
    simp [text]
  have plain : ∀ c ∈ p.address.text.toList, decide (c ≠ '/') = true := fun c member =>
    decide_eq_true (p.address.slash_notMem_text c member)
  have before : p.text.toList.takeWhile (fun c => decide (c ≠ '/')) = p.address.text.toList := by
    rw [written, List.takeWhile_append_of_pos plain]
    simp
  have after : p.text.toList.dropWhile (fun c => decide (c ≠ '/')) =
      '/' :: (toString p.length).toList := by
    rw [written, List.dropWhile_append_of_pos plain]
    simp
  simp only [parse?, before, after, String.ofList_toList, p.address.parse?_text,
    parseLength?_toString p.length_le, p.length_le, dif_pos]

/-- The text of an address is short and made of digits, colons and points. -/
theorem Address.plain_of_parse {s : String} {address : Address} (parsed : parse? s = some address) :
    s.toList.length ≤ 256 ∧ ∀ c ∈ s.toList, isAddressChar c = true := by
  have whole : Takes s.toList [] 256 := by
    rw [parse?] at parsed
    split at parsed
    · rename_i dotted read
      exact (Ipv4.takes_read read).mono (by decide)
    · split at parsed
      · rename_i grouped read
        exact Ipv6.takes_read read
      · cases parsed
  obtain ⟨taken, split, few, plain⟩ := whole
  rw [List.append_nil] at split
  exact split ▸ ⟨few, plain⟩

end Steering.Net
