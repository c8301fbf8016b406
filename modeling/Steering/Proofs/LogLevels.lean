import Mathlib.Data.List.TakeWhile
import Steering.Program
import Steering.Proofs.CaseFolding
import Steering.Proofs.Construction
/-! The names of the log levels. The log understands a level with blanks around it too, the check of
a configuration does not; of texts without such blanks they understand the same. -/

namespace Steering

namespace Text

theorem trim_eq_self {s : String} (visible : ∀ c ∈ s.toList, isBlank c = false) : trim s = s := by
  have kept (cs : List Char) (none : ∀ c ∈ cs, isBlank c = false) : cs.dropWhile isBlank = cs :=
    List.dropWhile_eq_self_iff.mpr fun inside => by simp [none _ (List.getElem_mem inside)]
  rw [trim, trimChars, kept _ visible, kept _ (by simpa using visible), List.reverse_reverse,
    String.ofList_toList]

/-- A letter of ASCII in either case is no blank. -/
theorem isBlank_eq_false_of_letter {a c : Char} (letter : 97 ≤ a.toNat ∧ a.toNat ≤ 122)
    (same : asciiLower a = asciiLower c) : isBlank c = false := by
  have equal := congrArg Char.toNat same
  rw [toNat_asciiLower, toNat_asciiLower, if_neg (by omega)] at equal
  have range : 65 ≤ c.toNat ∧ c.toNat ≤ 122 := by split at equal <;> omega
  simp only [isBlank, blankRanges, List.any_cons, List.any_nil, Bool.or_false, Bool.or_eq_false_iff,
    Bool.and_eq_false_iff, decide_eq_false_iff_not]
  omega

end Text

namespace Log.Level

/-- The name that a level is configured by. -/
def word : Level → String
  | off => "off"
  | error => "error"
  | warn => "warn"
  | info => "info"
  | debug => "debug"
  | trace => "trace"

/-- All levels. -/
def all : List Level := [off, error, warn, info, debug, trace]

theorem mem_all (level : Level) : level ∈ all := by
  cases level <;> decide

theorem unmistakable_word (level : Level) : level.word.toList.all Text.isUnmistakable = true := by
  have each : ∀ level ∈ all, level.word.toList.all Text.isUnmistakable = true := by decide +kernel
  exact each level level.mem_all

theorem letters_word (level : Level) :
    ∀ c ∈ level.word.toList, 97 ≤ c.toNat ∧ c.toNat ≤ 122 := by
  have each : ∀ level ∈ all,
      level.word.toList.all (fun c => 97 ≤ c.toNat && c.toNat ≤ 122) = true := by decide +kernel
  simpa using each level level.mem_all

theorem ofText?_eq_some_iff_lower {s : String} {level : Level} :
    ofText? s = some level ↔ Text.lower (Text.trim s) = level.word := by
  rw [ofText?]
  split <;> cases level <;> simp_all [word]

theorem ofText?_eq_some_iff {s : String} {level : Level} :
    ofText? s = some level ↔
      List.Forall₂ Text.SameLetter level.word.toList (Text.trim s).toList := by
  rw [ofText?_eq_some_iff_lower, Text.lower_eq_iff level.unmistakable_word,
    Text.sameIgnoringCase_iff]

/-- A name of a level has no blanks, in whatever case it is written. -/
theorem trim_of_word {s : String} {level : Level}
    (same : List.Forall₂ Text.SameLetter level.word.toList s.toList) : Text.trim s = s := by
  have lowered : level.word.toList.map Text.asciiLower = s.toList.map Text.asciiLower :=
    beq_iff_eq.mp (Text.sameIgnoringCase_iff.mpr same)
  refine Text.trim_eq_self fun c member => ?_
  obtain ⟨d, inside, its⟩ := List.mem_map.mp (lowered ▸ List.mem_map_of_mem member)
  exact Text.isBlank_eq_false_of_letter (level.letters_word d inside) its

end Log.Level

namespace Config

open Log (Level)

theorem mem_logLevels_iff {name : String} :
    name ∈ logLevels ↔ ∃ level : Level, level.word = name := by
  constructor
  · intro member
    have each : ∀ name ∈ logLevels, ∃ level ∈ Level.all, level.word = name := by decide +kernel
    obtain ⟨level, -, its⟩ := each name member
    exact ⟨level, its⟩
  · rintro ⟨level, rfl⟩
    have each : ∀ level ∈ Level.all, level.word ∈ logLevels := by decide +kernel
    exact each level level.mem_all

/-- The check accepts the levels that the log understands, if there are no blanks around them. -/
theorem isLogLevel_iff {s : String} :
    isLogLevel s = true ↔ Text.trim s = s ∧ ∃ level, Level.ofText? s = some level := by
  rw [isLogLevel, any_sameIgnoringCase_iff, IsOneOf]
  simp only [mem_logLevels_iff, Level.ofText?_eq_some_iff]
  constructor
  · rintro ⟨_, ⟨level, rfl⟩, same⟩
    have plain := Level.trim_of_word same
    exact ⟨plain, level, plain.symm ▸ same⟩
  · rintro ⟨plain, level, same⟩
    exact ⟨_, ⟨level, rfl⟩, plain ▸ same⟩

/-- The rule of the log level is the first. -/
theorem validate_eq_logLevel_iff {config : Config} {names : Net.NameService} {text : String} :
    config.validate names = .error (.logLevel text) ↔
      isLogLevel config.log.level = false ∧ text = config.log.level := by
  rw [isLogLevel_eq_false_iff]
  constructor
  · intro refused
    obtain ⟨place, broken, -⟩ := validate_eq_error_iff.mp refused
    cases broken with
    | setting broken =>
      cases broken with
      | logLevel unknown => exact ⟨unknown, rfl⟩
    | observability configured broken => cases broken
    | pop found broken => cases broken
    | region found broken => cases broken
  · rintro ⟨unknown, rfl⟩
    exact validate_eq_setting (.logLevel unknown) fun other violation broken => Nat.zero_le other

end Config

namespace Program

open Log (Level)

/-- The log tells that it replaces a level that it does not understand, and then keeps what it keeps
at `info`. -/
def FallsBack (settings : LogSettings) : Prop :=
  logNotice settings ≠ "" ∧ logLevel settings = .info

theorem fallsBack_iff {settings : LogSettings} :
    FallsBack settings ↔ Level.ofText? settings.level = none := by
  rw [FallsBack, logNotice, logLevel]
  cases Level.ofText? settings.level with
  | some level => simp
  | none => simp [← String.toList_inj]

end Program

namespace Config

open Log (Level)
open Program (FallsBack)

/-- The check and the log differ about the levels that the log reads between blanks, and about no
other text. -/
theorem isLogLevel_agrees_iff {s : String} :
    (isLogLevel s = true ↔ ∃ level, Level.ofText? s = some level) ↔
      Text.trim s = s ∨ Level.ofText? s = none := by
  rw [isLogLevel_iff, ← Option.isSome_iff_exists, ← Option.not_isSome_iff_eq_none]
  constructor
  · intro agree
    by_cases understood : (Level.ofText? s).isSome = true
    · exact .inl (agree.mpr understood).1
    · exact .inr understood
  · rintro (plain | unknown)
    · exact and_iff_right plain
    · exact iff_of_false (fun both => unknown both.2) unknown

/-- Both the check and the log take a level in any case of ASCII letters, but only the log takes it
between blanks. So a configuration is refused for its level exactly if the log falls back from the
level or has read it between blanks. -/
theorem log_levels_agree_unpadded (s : String) (config : Config) (names : Net.NameService) :
    (isLogLevel s = true ↔ Text.trim s = s ∧ ∃ level, Level.ofText? s = some level) ∧
    ((isLogLevel s = true ↔ ∃ level, Level.ofText? s = some level) ↔
      Text.trim s = s ∨ Level.ofText? s = none) ∧
    (∀ level, Level.ofText? s = some level ↔
      List.Forall₂ Text.SameLetter level.word.toList (Text.trim s).toList) ∧
    (FallsBack config.log ↔ Level.ofText? config.log.level = none) ∧
    ((∃ text, config.validate names = .error (.logLevel text)) ↔
      FallsBack config.log ∨ Text.trim config.log.level ≠ config.log.level) := by
  refine ⟨isLogLevel_iff, isLogLevel_agrees_iff, fun level => Level.ofText?_eq_some_iff,
    Program.fallsBack_iff, ?_⟩
  have refused : (∃ text, config.validate names = .error (.logLevel text)) ↔
      ¬ isLogLevel config.log.level = true := by
    simp only [validate_eq_logLevel_iff, Bool.not_eq_true, exists_and_left, exists_eq, and_true]
  rw [refused, isLogLevel_iff, Program.fallsBack_iff, ← Option.not_isSome_iff_eq_none,
    Option.isSome_iff_exists, not_and_or, or_comm]

/-- A configuration whose level has blanks around it. -/
def paddedLevel : Config :=
  { Engine.twoPops with log := ⟨" warn ", none⟩ }

/-- The log takes a level between blanks and does not fall back, the check refuses it, although it
accepts the same configuration without the blanks. -/
theorem log_level_refused_padded :
    ¬ (isLogLevel " warn " = true ↔ ∃ level, Level.ofText? " warn " = some level) ∧
    ¬ FallsBack paddedLevel.log ∧ Program.logLevel paddedLevel.log = .warn ∧
    paddedLevel.validate = .error (.logLevel " warn ") ∧
    { paddedLevel with log := ⟨"warn", none⟩ }.validate = .ok () := by
  have understood : Level.ofText? " warn " = some .warn := by decide +kernel
  have unlisted : isLogLevel " warn " = false := by decide +kernel
  refine ⟨?_, ?_, ?_, validate_eq_logLevel_iff.mpr ⟨unlisted, rfl⟩, by decide +kernel⟩
  · simp [understood, unlisted]
  · rw [Program.fallsBack_iff]
    exact fun none => absurd (understood.symm.trans none) (by simp)
  · exact congrArg (·.getD .info) understood

end Config

end Steering
