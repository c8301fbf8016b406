import Steering.FileTree
/-! Paths as segments: how a path is put together from segments and taken apart again, and where
following it leads. Without a part that leads upwards, a path leads to its names and never leaves
the tree; and in a tree that the system can hold, every entry has a path that leads to it. -/

namespace Steering

/-- What stands between separators has none of them. -/
theorem notMem_of_mem_splitOn {α : Type} [BEq α] [LawfulBEq α] {a : α} {xs part : List α}
    (member : part ∈ xs.splitOn a) : a ∉ part := by
  induction xs generalizing part with
  | nil =>
    rw [List.splitOn_nil, List.mem_singleton] at member
    rw [member]
    exact List.not_mem_nil
  | cons x xs ih =>
    rw [List.splitOn_cons_eq_if_modifyHead] at member
    split at member
    · rcases List.mem_cons.mp member with rfl | later
      · exact List.not_mem_nil
      · exact ih later
    · rename_i other
      cases parts : xs.splitOn a with
      | nil => exact absurd parts (List.splitOn_ne_nil a xs)
      | cons first rest =>
        rw [parts, List.modifyHead_cons] at member
        rw [parts] at ih
        rcases List.mem_cons.mp member with rfl | later
        · rw [List.mem_cons, not_or]
          exact ⟨fun same => other (beq_iff_eq.mpr same.symm), ih List.mem_cons_self⟩
        · exact ih (List.mem_cons_of_mem _ later)

namespace FileTree

/-- The parts of a path that are not empty. -/
def segments (path : String) : List String :=
  (parts path).filter (· ≠ "")

/-- Names as a path, with a slash between them. -/
def joined (names : List String) : String := "/".intercalate names

/-- What can name an entry of a directory in a path: a part that leads on and downwards. -/
structure IsSegment (name : String) : Prop where
  nonempty : name ≠ ""
  moving : name ≠ "."
  downward : name ≠ ".."
  single : '/' ∉ name.toList

instance (name : String) : Decidable (IsSegment name) :=
  decidable_of_iff (name ≠ "" ∧ name ≠ "." ∧ name ≠ ".." ∧ '/' ∉ name.toList)
    ⟨fun ⟨a, b, c, d⟩ => ⟨a, b, c, d⟩, fun ⟨a, b, c, d⟩ => ⟨a, b, c, d⟩⟩

section Parts

theorem parts_ofList (cs : List Char) :
    parts (String.ofList cs) = (cs.splitOn '/').map String.ofList := by
  rw [parts, String.toList_ofList]

theorem parts_ne_nil (path : String) : parts path ≠ [] := by
  rw [parts, ne_eq, List.map_eq_nil_iff]
  exact List.splitOn_ne_nil _ _

theorem parts_slash (cs : List Char) :
    parts (String.ofList ('/' :: cs)) = "" :: parts (String.ofList cs) := by
  rw [parts_ofList, parts_ofList, List.splitOn_cons_eq_if_modifyHead, if_pos (beq_self_eq_true '/')]
  rfl

theorem parts_append_slash (cs ds : List Char) :
    parts (String.ofList (cs ++ '/' :: ds)) =
      parts (String.ofList cs) ++ parts (String.ofList ds) := by
  rw [parts_ofList, parts_ofList, parts_ofList, List.splitOn_append_cons_self, List.map_append]

/-- The parts of joined names are these names. -/
theorem parts_joined {names : List String} (some : names ≠ [])
    (single : ∀ name ∈ names, '/' ∉ name.toList) : parts (joined names) = names := by
  have slash : "/".toList = ['/'] := rfl
  have pieces : ∀ cs ∈ names.map String.toList, '/' ∉ cs := by
    intro cs member
    obtain ⟨name, written, rfl⟩ := List.mem_map.mp member
    exact single name written
  rw [parts, joined, String.toList_intercalate, slash,
    List.splitOn_intercalate '/' pieces (mt List.map_eq_nil_iff.mp some), List.map_map]
  exact List.map_id'' (fun name => String.ofList_toList) names

/-- What is written in front of the last of joined names. -/
theorem toList_joined (directory : List String) (name : String) :
    (joined (directory ++ [name])).toList =
      directory.flatMap (fun above => above.toList ++ ['/']) ++ name.toList := by
  rw [joined, String.toList_intercalate]
  induction directory with
  | nil => simp
  | cons above rest ih =>
    have some : rest ++ [name] ≠ [] := by simp
    obtain ⟨next, others, shape⟩ := List.exists_cons_of_ne_nil some
    rw [List.cons_append, shape, List.map_cons, List.map_cons, List.intercalate_cons_cons,
      ← List.map_cons, ← shape, ih, List.flatMap_cons, List.append_assoc, List.append_assoc,
      List.append_assoc]
    rfl

/-- No part of a path has a slash. -/
theorem slash_notMem_of_mem_parts {path part : String} (member : part ∈ parts path) :
    '/' ∉ part.toList := by
  rw [parts, List.mem_map] at member
  obtain ⟨cs, piece, rfl⟩ := member
  rw [String.toList_ofList]
  exact notMem_of_mem_splitOn piece

end Parts

section Segments

theorem segments_slash (cs : List Char) :
    segments (String.ofList ('/' :: cs)) = segments (String.ofList cs) := by
  rw [segments, parts_slash, List.filter_cons_of_neg (by simp), segments]

theorem segments_append_slash (cs ds : List Char) :
    segments (String.ofList (cs ++ '/' :: ds)) =
      segments (String.ofList cs) ++ segments (String.ofList ds) := by
  rw [segments, parts_append_slash, List.filter_append, segments, segments]

/-- Slashes in front of a path do not matter to its segments. -/
theorem segments_dropWhile (cs : List Char) :
    segments (String.ofList (cs.dropWhile (· = '/'))) = segments (String.ofList cs) := by
  induction cs with
  | nil => rfl
  | cons c rest ih =>
    by_cases slash : c = '/'
    · subst slash
      rw [List.dropWhile_cons_of_pos (by simp), ih, segments_slash]
    · rw [List.dropWhile_cons_of_neg (by simp [slash])]

/-- A path that begins with no slash begins with a segment. -/
theorem head?_parts {c : Char} (cs : List Char) (other : c ≠ '/') :
    (parts (String.ofList (c :: cs))).head? = (segments (String.ofList (c :: cs))).head? := by
  have apart : ¬((c == '/') = true) := fun same => other (eq_of_beq same)
  rw [segments, parts_ofList, List.splitOn_cons_eq_if_modifyHead, if_neg apart]
  cases shape : cs.splitOn '/' with
  | nil => exact absurd shape (List.splitOn_ne_nil _ _)
  | cons first others =>
    have solid : String.ofList (c :: first) ≠ "" := by
      intro empty
      rw [← String.toList_inj, String.toList_ofList, String.toList_empty] at empty
      cases empty
    rw [List.modifyHead_cons, List.map_cons, List.filter_cons_of_pos (by simp)]
    rfl

theorem names_eq (path : String) : names path = (segments path).filter (· ≠ ".") := by
  rw [names, segments, List.filter_filter]
  refine List.filter_congr fun part _ => ?_
  simp [bne, Bool.and_comm, Bool.beq_eq_decide_eq]

/-- The names in a path without upward parts. -/
theorem isSegment_of_mem_names {path name : String} (downward : ".." ∉ parts path)
    (member : name ∈ names path) : IsSegment name := by
  rw [names, List.mem_filter, Bool.and_eq_true, bne_iff_ne, bne_iff_ne] at member
  obtain ⟨part, nonempty, moving⟩ := member
  exact ⟨nonempty, moving, fun upward => downward (upward ▸ part),
    slash_notMem_of_mem_parts part⟩

/-- The segments of joined names are these names. -/
theorem segments_joined {names : List String} (some : names ≠ [])
    (valid : ∀ name ∈ names, IsSegment name) : segments (joined names) = names := by
  rw [segments, parts_joined some fun name member => (valid name member).single,
    List.filter_eq_self]
  exact fun name member => decide_eq_true (valid name member).nonempty

theorem names_joined {names : List String} (some : names ≠ [])
    (valid : ∀ name ∈ names, IsSegment name) : FileTree.names (joined names) = names := by
  rw [names_eq, segments_joined some valid, List.filter_eq_self]
  exact fun name member => decide_eq_true (valid name member).moving

/-- A path of names does not begin with a slash. -/
theorem head?_joined {directory : List String} {name : String}
    (above : ∀ part ∈ directory, IsSegment part) (single : '/' ∉ name.toList) :
    (joined (directory ++ [name])).toList.head? ≠ some '/' := by
  rw [toList_joined]
  intro slash
  cases directory with
  | nil => exact single (List.mem_of_head? slash)
  | cons first rest =>
    have segment := above first List.mem_cons_self
    cases written : first.toList with
    | nil => exact segment.nonempty (String.toList_inj.mp (written.trans String.toList_empty.symm))
    | cons c cs =>
      rw [List.flatMap_cons, written] at slash
      have same : c = '/' := Option.some.inj slash
      exact segment.single (written ▸ same ▸ List.mem_cons_self)

end Segments

section Walk

variable {tree : FileTree}

/-- Only from a directory can anything be followed. -/
theorem directory_of_walk {here : List String} {part : String} {rest : List String} {place : Place}
    (led : tree.walk (.inside here) (part :: rest) = .ok place) :
    tree.kind? here = some .directory := by
  rw [walk] at led
  split at led
  · cases led
  · cases led
  · assumption

/-- Parts that do not lead upwards lead to the names among them. -/
theorem walk_downward {here parts : List String} {place : Place} (downward : ".." ∉ parts)
    (led : tree.walk (.inside here) parts = .ok place) :
    place = .inside (here ++ parts.filter fun part => part != "" && part != ".") := by
  induction parts generalizing here with
  | nil =>
    rw [walk, Except.ok.injEq] at led
    rw [List.filter_nil, List.append_nil, led]
  | cons part rest ih =>
    rw [List.mem_cons, not_or] at downward
    have directory := directory_of_walk led
    simp only [walk, directory] at led
    split at led
    · rename_i staying
      rw [List.filter_cons_of_neg (by rcases staying with rfl | rfl <;> decide)]
      exact ih downward.2 led
    · rename_i moving
      rw [if_neg (Ne.symm downward.1)] at led
      split at led
      · cases led
      · rw [not_or] at moving
        rw [List.filter_cons_of_pos (by simp [moving]), ih downward.2 led, List.append_assoc]
        rfl

theorem follow_eq_ok_iff {path : String} {place : Place} :
    tree.follow path = .ok place ↔ checkPath path = .ok () ∧
      tree.walk (if path.toList.head? = some '/' then .outside else .inside []) (parts path) =
        .ok place := by
  rw [follow]
  cases checked : checkPath path with
  | error fault => simp [bind, Except.bind]
  | ok _ => simp [bind, Except.bind]

/-- What is read is the file that the path leads to. -/
theorem read_eq_ok_iff {path : String} {content : List UInt8} :
    tree.read path = .ok content ↔ ∃ found, tree.follow path = .ok (.inside found) ∧
      tree.kind? found = some (.file content) := by
  rw [read]
  cases followed : tree.follow path with
  | error fault => simp [bind, Except.bind]
  | ok place =>
    cases place with
    | outside => simp [bind, Except.bind, throw, throwThe, MonadExceptOf.throw]
    | inside found =>
      cases held : tree.kind? found with
      | none => simp [bind, Except.bind, throw, throwThe, MonadExceptOf.throw, held]
      | some kind =>
        cases kind with
        | directory => simp [bind, Except.bind, throw, throwThe, MonadExceptOf.throw, held]
        | file bytes => simp [bind, Except.bind, pure, Except.pure, held]

/-- A file that is read along a path without upward parts is the one at its names. -/
theorem kind?_of_read {path : String} {content : List UInt8} (below : path.toList.head? ≠ some '/')
    (downward : ".." ∉ parts path) (had : tree.read path = .ok content) :
    names path ≠ [] ∧ tree.kind? (names path) = some (.file content) := by
  obtain ⟨found, followed, file⟩ := read_eq_ok_iff.mp had
  obtain ⟨-, led⟩ := follow_eq_ok_iff.mp followed
  rw [if_neg below] at led
  have here : found = names path := Place.inside.inj (walk_downward downward led)
  rw [here] at file
  refine ⟨fun root => ?_, file⟩
  -- Of an empty path there is still an empty part, which is followed from the root.
  obtain ⟨part, rest, shape⟩ := List.exists_cons_of_ne_nil (parts_ne_nil path)
  rw [shape] at led
  rw [root, directory_of_walk led] at file
  cases file

end Walk

/-- What a tree of files on the system is like: below a file there is nothing, names are segments
of bounded length, and no entry is deeper than the longest path that the system opens. -/
structure Lawful (tree : FileTree) : Prop where
  leaf : ∀ above ∈ tree.entries, ∀ entry ∈ tree.entries,
    above.1 <+: entry.1 → above.1 ≠ entry.1 → above.2 = .directory
  named : ∀ entry ∈ tree.entries, ∀ name ∈ entry.1,
    IsSegment name ∧ '\x00' ∉ name.toList ∧ name.utf8ByteSize ≤ maxNameLength
  within : ∀ entry ∈ tree.entries, (joined entry.1).utf8ByteSize ≤ maxPathLength

theorem mem_entries_of_lookup {tree : FileTree} {names : List String} {kind : FileKind}
    (found : tree.entries.lookup names = some kind) : (names, kind) ∈ tree.entries := by
  obtain ⟨before, after, shape, -⟩ := List.lookup_eq_some_iff.mp found
  rw [shape]
  exact List.mem_append_right _ List.mem_cons_self

theorem mem_entries_of_file {tree : FileTree} {names : List String} {content : List UInt8}
    (found : tree.kind? names = some (.file content)) : (names, .file content) ∈ tree.entries := by
  rw [kind?] at found
  split at found
  · rename_i kind entry
    rw [Option.some.injEq] at found
    exact mem_entries_of_lookup (found ▸ entry)
  · split at found <;> cases found

namespace Lawful

variable {tree : FileTree} {content : List UInt8}

/-- Above a file there are directories. -/
theorem directory_above (lawful : Lawful tree) {above below : List String}
    (found : tree.kind? (above ++ below) = some (.file content)) (some : below ≠ []) :
    tree.kind? above = .some .directory := by
  have file := mem_entries_of_file found
  have lead : above <+: above ++ below := List.prefix_append above below
  rw [kind?]
  cases entry : tree.entries.lookup above with
  | some kind =>
    have apart : above ≠ above ++ below := fun same => some (List.self_eq_append_right.mp same)
    exact congrArg Option.some (lawful.leaf _ (mem_entries_of_lookup entry) _ file lead apart)
  | none =>
    have leads : tree.entries.any (fun entry => above.isPrefixOf entry.1) = true :=
      List.any_eq_true.mpr ⟨_, file, List.isPrefixOf_iff_prefix.mpr lead⟩
    simp only [leads, or_true, if_true]

/-- The names of a file are followed to it. -/
theorem walk_file (lawful : Lawful tree) {here rest : List String}
    (found : tree.kind? (here ++ rest) = some (.file content)) :
    tree.walk (.inside here) rest = .ok (.inside (here ++ rest)) := by
  induction rest generalizing here with
  | nil => rw [walk, List.append_nil]
  | cons name rest ih =>
    obtain ⟨segment, -, short⟩ :=
      lawful.named _ (mem_entries_of_file found) name (by simp)
    have directory := lawful.directory_above found (List.cons_ne_nil name rest)
    have regroup : here ++ name :: rest = here ++ [name] ++ rest := by simp
    simp only [walk, directory]
    rw [if_neg (not_or.mpr ⟨segment.nonempty, segment.moving⟩), if_neg segment.downward,
      if_neg (Nat.not_lt.mpr short), regroup]
    exact ih (regroup ▸ found)

/-- The system takes the path to a file. -/
theorem checkPath_joined (lawful : Lawful tree) {directory : List String} {name : String}
    (found : tree.kind? (directory ++ [name]) = some (.file content)) :
    checkPath (joined (directory ++ [name])) = .ok () := by
  have file := mem_entries_of_file found
  have clean : '\x00' ∉ (joined (directory ++ [name])).toList := by
    have named := fun part member => (lawful.named _ file part member).2.1
    rw [toList_joined, List.mem_append, List.mem_flatMap, not_or]
    refine ⟨?_, named name (by simp)⟩
    rintro ⟨above, member, inside⟩
    rcases List.mem_append.mp inside with inside | slash
    · exact named above (by simp [member]) inside
    · exact absurd (List.mem_singleton.mp slash) (by decide)
  have solid : joined (directory ++ [name]) ≠ "" := by
    intro empty
    have last := (lawful.named _ file name (by simp)).1.nonempty
    rw [← String.toList_inj, toList_joined, String.toList_empty, List.append_eq_nil_iff] at empty
    exact last (String.toList_inj.mp empty.2)
  have short := lawful.within _ file
  rw [checkPath, if_neg (by simpa using clean), if_neg solid, if_neg (Nat.not_lt.mpr short)]

/-- A file is read along the path to it. -/
theorem read_joined (lawful : Lawful tree) {directory : List String} {name : String}
    (found : tree.kind? (directory ++ [name]) = some (.file content)) :
    tree.read (joined (directory ++ [name])) = .ok content := by
  have segments : ∀ part ∈ directory ++ [name], IsSegment part :=
    fun part member => (lawful.named _ (mem_entries_of_file found) part member).1
  have below := head?_joined (fun part member => segments part (List.mem_append_left _ member))
    (segments name (by simp)).single
  have followed :
      tree.follow (joined (directory ++ [name])) = .ok (.inside (directory ++ [name])) := by
    rw [follow_eq_ok_iff, if_neg below,
      parts_joined (by simp) fun part member => (segments part member).single]
    exact ⟨lawful.checkPath_joined found, lawful.walk_file found⟩
  exact read_eq_ok_iff.mpr ⟨_, followed, found⟩

end Lawful

end FileTree

end Steering
