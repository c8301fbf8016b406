import Mathlib.Data.List.TakeWhile
import Steering.Dashboard.Routes
import Steering.Proofs.Construction
import Steering.Proofs.PathSegments
/-! The files that the dashboard answers with: none but those below the root, and each of them by
the path that spells it out. -/

namespace Steering.Dashboard

open FileTree (IsSegment segments parts joined)

/-- The paths that are answered without a file. -/
def documentPaths : List String :=
  ["/pops.json", "/regions.json", "/query", "/latency_to_pop", "/latency_to_region"]

/-- Whether a requested path is that of a directory. -/
def NamesDirectory (requested : String) : Prop :=
  requested.toList = [] ∨ requested.toList.getLast? = some '/'

instance (requested : String) : Decidable (NamesDirectory requested) :=
  inferInstanceAs (Decidable (_ ∨ _))

/-- Whether a requested path leads upwards anywhere or begins in place. -/
def IsAstray (requested : String) : Prop :=
  ".." ∈ segments requested ∨ (segments requested).head? = some "."

instance (requested : String) : Decidable (IsAstray requested) :=
  inferInstanceAs (Decidable (_ ∨ _))

/-- What is added to a requested path: the index of a directory. -/
def indexNames (requested : String) : List String :=
  if NamesDirectory requested then [indexName] else []

/-- The names below the root that a requested path stands for. -/
def fileNames (requested : String) : List String :=
  FileTree.names requested ++ indexNames requested

/-- What follows the last dot of a name, unless that dot begins the name. -/
def IsExtension (name extension : String) : Prop :=
  ∃ stem, stem ≠ "" ∧ name = stem ++ "." ++ extension ∧ '.' ∉ extension.toList

/-- The paths that a file is requested by: the one that spells it out, and for an index also that
of its directory. -/
def IsPathOf (directory : List String) (name requested : String) : Prop :=
  requested = "/" ++ joined (directory ++ [name]) ∨
    name = indexName ∧ requested = "/" ++ joined (directory ++ [""])

theorem page_of_other (engine : Engine) (files : Option FileTree) {target : Target}
    (other : target.path ∉ documentPaths) :
    page engine files target = filePage files target.path := by
  rw [page]
  split <;> rename_i path <;> first | rfl | exact absurd (by rw [path]; decide) other

section FileText

/-- The requested path without the slashes in front of it, and with its index. -/
def fileText (requested : String) : String :=
  let relative := requested.toList.dropWhile (· = '/')
  String.ofList <|
    if relative = [] ∨ relative.getLast? = some '/' then relative ++ indexName.toList
    else relative

/-- The slashes in front do not matter to whether a path is that of a directory. -/
theorem namesDirectory_iff (requested : String) :
    NamesDirectory requested ↔
      requested.toList.dropWhile (· = '/') = [] ∨
        (requested.toList.dropWhile (· = '/')).getLast? = some '/' := by
  rw [NamesDirectory]
  induction requested.toList with
  | nil => rfl
  | cons c rest ih =>
    by_cases slash : c = '/'
    · rw [List.dropWhile_cons_of_pos (by simp [slash]), ← ih, slash]
      cases rest <;> simp
    · rw [List.dropWhile_cons_of_neg (by simp [slash])]

theorem fileText_eq (requested : String) :
    fileText requested =
      String.ofList (requested.toList.dropWhile (· = '/') ++
        (indexNames requested).flatMap String.toList) := by
  rw [fileText, indexNames]
  by_cases directory : NamesDirectory requested
  · rw [if_pos directory, if_pos ((namesDirectory_iff requested).mp directory)]
    simp
  · rw [if_neg directory, if_neg (mt (namesDirectory_iff requested).mpr directory)]
    simp

/-- The path of the file does not begin with a slash, and it begins with something. -/
theorem exists_fileText (requested : String) :
    ∃ c cs, fileText requested = String.ofList (c :: cs) ∧ c ≠ '/' := by
  rw [fileText_eq]
  cases rest : requested.toList.dropWhile (· = '/') with
  | nil =>
    have directory : NamesDirectory requested := (namesDirectory_iff requested).mpr (.inl rest)
    exact ⟨'i', "ndex.html".toList, by rw [indexNames, if_pos directory]; rfl, by decide⟩
  | cons c cs =>
    have first := List.head?_dropWhile_not (· = '/') requested.toList
    rw [rest] at first
    exact ⟨c, _, rfl, of_decide_eq_false first⟩

/-- The segments of the path of the file are those of the requested path, and its index. -/
theorem segments_fileText (requested : String) :
    segments (fileText requested) = segments requested ++ indexNames requested := by
  have stripped : segments (String.ofList (requested.toList.dropWhile (· = '/'))) =
      segments requested := by
    rw [FileTree.segments_dropWhile, String.ofList_toList]
  have index : segments (String.ofList indexName.toList) = [indexName] := by decide +kernel
  have nothing : segments (String.ofList []) = [] := by decide +kernel
  rw [fileText_eq]
  by_cases directory : NamesDirectory requested
  · rw [indexNames, if_pos directory, List.flatMap_singleton, ← stripped]
    rcases (namesDirectory_iff requested).mp directory with bare | slash
    · rw [bare, List.nil_append, index]
      rfl
    · obtain ⟨before, shape⟩ := List.getLast?_eq_some_iff.mp slash
      rw [shape, List.append_assoc, List.singleton_append, FileTree.segments_append_slash,
        FileTree.segments_append_slash, index, nothing, List.append_nil]
  · rw [indexNames, if_neg directory, List.flatMap_nil, List.append_nil, List.append_nil, stripped]

theorem names_fileText (requested : String) :
    FileTree.names (fileText requested) = fileNames requested := by
  rw [FileTree.names_eq, segments_fileText, List.filter_append, ← FileTree.names_eq, fileNames,
    indexNames]
  split <;> rfl

end FileText

section Confinement

theorem mem_segments_iff {path part : String} (solid : part ≠ "") :
    part ∈ segments path ↔ part ∈ parts path := by
  rw [segments, List.mem_filter]
  exact and_iff_left (decide_eq_true solid)

/-- A path stands for no file exactly if it is astray. -/
theorem filePath?_eq (requested : String) :
    filePath? requested = if IsAstray requested then none else some (fileText requested) := by
  have leading : (parts (fileText requested)).head? = some "." ↔
      (segments requested).head? = some "." := by
    obtain ⟨c, cs, shape, other⟩ := exists_fileText requested
    rw [shape, FileTree.head?_parts cs other, ← shape, segments_fileText, indexNames]
    cases segments requested <;> split <;> simp [indexName]
  have upwards : (parts (fileText requested)).contains ".." = true ↔ ".." ∈ segments requested := by
    rw [List.contains_iff_mem, ← mem_segments_iff (by decide), segments_fileText, indexNames]
    split <;> simp [indexName]
  have unfolded : filePath? requested =
      if (parts (fileText requested)).head? = some "." ∨ (parts (fileText requested)).contains ".."
      then none else some (fileText requested) := rfl
  rw [unfolded]
  exact if_congr (by rw [leading, upwards, IsAstray, or_comm]) rfl rfl

/-- At a path that is astray no file is read. -/
theorem filePage_of_astray (files : Option FileTree) {requested : String}
    (astray : IsAstray requested) :
    filePath? requested = none ∧ filePage files requested = .notFound := by
  have nowhere : filePath? requested = none := by rw [filePath?_eq, if_pos astray]
  refine ⟨nowhere, ?_⟩
  unfold filePage
  cases files <;> simp only [nowhere]

theorem filePage_of_read {tree : FileTree} {requested path : String} {content : List UInt8}
    (stands : filePath? requested = some path) (had : tree.read path = .ok content) :
    filePage (some tree) requested = ⟨200, some (typeOfPath path), content⟩ := by
  unfold filePage
  simp only [stands, had]

theorem filePage_of_fault {tree : FileTree} {requested path : String} {fault : FileFault}
    (stands : filePath? requested = some path) (missed : tree.read path = .error fault) :
    filePage (some tree) requested = .notFound := by
  unfold filePage
  simp only [stands, missed]

/-- A page of a file shows the file at the names that the path stands for. -/
theorem file_of_filePage {files : Option FileTree} {requested : String}
    (answered : (filePage files requested).code = 200) :
    ∃ tree, files = some tree ∧ fileNames requested ≠ [] ∧
      (∀ name ∈ fileNames requested, IsSegment name) ∧
      tree.kind? (fileNames requested) = some (.file (filePage files requested).content) := by
  have missing : filePage files requested ≠ .notFound := by
    intro same
    rw [same] at answered
    cases answered
  cases files with
  | none => exact absurd rfl missing
  | some tree =>
    have straight : ¬IsAstray requested := fun astray => missing (filePage_of_astray _ astray).2
    have stands : filePath? requested = some (fileText requested) := by
      rw [filePath?_eq, if_neg straight]
    cases had : tree.read (fileText requested) with
    | error fault => exact absurd (filePage_of_fault stands had) missing
    | ok content =>
      obtain ⟨c, cs, shape, other⟩ := exists_fileText requested
      have below : (fileText requested).toList.head? ≠ some '/' := by
        rw [shape, String.toList_ofList]
        exact fun slash => other (Option.some.inj slash)
      have downward : ".." ∉ parts (fileText requested) := by
        rw [← mem_segments_iff (by decide), segments_fileText, indexNames, List.mem_append, not_or]
        exact ⟨fun upward => straight (.inl upward), by split <;> simp [indexName]⟩
      have file := FileTree.kind?_of_read below downward had
      have segment : ∀ name ∈ FileTree.names (fileText requested), IsSegment name :=
        fun _ member => FileTree.isSegment_of_mem_names downward member
      rw [names_fileText] at file segment
      rw [filePage_of_read stands had]
      exact ⟨tree, rfl, file.1, segment, file.2⟩

end Confinement

section Completeness

variable {directory : List String} {name : String}

/-- Joined names stay as they are where a slash in front of them is taken away. -/
theorem dropWhile_joined (above : ∀ part ∈ directory, IsSegment part) (single : '/' ∉ name.toList) :
    ("/" ++ joined (directory ++ [name])).toList.dropWhile (· = '/') =
      directory.flatMap (fun above => above.toList ++ ['/']) ++ name.toList := by
  have below := FileTree.head?_joined above single
  have shape : ("/" ++ joined (directory ++ [name])).toList =
      '/' :: (joined (directory ++ [name])).toList := by
    rw [String.toList_append]
    rfl
  rw [shape, List.dropWhile_cons_of_pos (by simp), ← FileTree.toList_joined]
  cases written : (joined (directory ++ [name])).toList with
  | nil => rfl
  | cons c cs =>
    rw [written] at below
    exact List.dropWhile_cons_of_neg (by simpa using below)

/-- A path that ends with a name is not that of a directory. -/
theorem not_namesDirectory (above : ∀ part ∈ directory, IsSegment part)
    (segment : IsSegment name) : ¬NamesDirectory ("/" ++ joined (directory ++ [name])) := by
  rw [namesDirectory_iff, dropWhile_joined above segment.single, List.append_eq_nil_iff, not_or]
  obtain ⟨before, last, shape⟩ := (List.eq_nil_or_concat name.toList).resolve_left
    fun empty => segment.nonempty (String.toList_inj.mp (empty.trans String.toList_empty.symm))
  have single := segment.single
  rw [shape] at single ⊢
  refine ⟨by simp, fun slash => single ?_⟩
  rw [List.concat_eq_append, ← List.append_assoc, List.getLast?_concat] at slash
  simp [Option.some.inj slash]

/-- A path that ends behind a directory is that of a directory. -/
theorem namesDirectory_joined (above : ∀ part ∈ directory, IsSegment part) :
    NamesDirectory ("/" ++ joined (directory ++ [""])) := by
  rw [namesDirectory_iff, dropWhile_joined above (by simp), String.toList_empty, List.append_nil]
  rcases List.eq_nil_or_concat directory with rfl | ⟨before, last, rfl⟩
  · exact .inl rfl
  · exact .inr (by simp)

/-- The path of a file stands for the names that lead to it. -/
theorem fileText_of_isPathOf {requested : String} (above : ∀ part ∈ directory, IsSegment part)
    (segment : IsSegment name) (path : IsPathOf directory name requested) :
    fileText requested = joined (directory ++ [name]) := by
  rw [← String.toList_inj, fileText_eq, String.toList_ofList, FileTree.toList_joined, indexNames]
  rcases path with rfl | ⟨rfl, rfl⟩
  · rw [if_neg (not_namesDirectory above segment), dropWhile_joined above segment.single,
      List.flatMap_nil, List.append_nil]
  · rw [if_pos (namesDirectory_joined above), dropWhile_joined above (by simp),
      List.flatMap_singleton, String.toList_empty, List.append_nil]

/-- The path of a file is not astray. -/
theorem filePath?_of_isPathOf {requested : String} (above : ∀ part ∈ directory, IsSegment part)
    (segment : IsSegment name) (path : IsPathOf directory name requested) :
    filePath? requested = some (joined (directory ++ [name])) := by
  have text := fileText_of_isPathOf above segment path
  have all : ∀ part ∈ directory ++ [name], IsSegment part := by
    intro part member
    rcases List.mem_append.mp member with member | member
    · exact above part member
    · exact List.mem_singleton.mp member ▸ segment
  have whole := segments_fileText requested
  rw [text, FileTree.segments_joined (by simp) all] at whole
  have valid : ∀ part ∈ segments requested, IsSegment part :=
    fun part member => all part (whole ▸ List.mem_append_left _ member)
  have straight : ¬IsAstray requested := by
    rintro (upwards | leading)
    · exact (valid _ upwards).downward rfl
    · exact (valid _ (List.mem_of_head? leading)).moving rfl
  rw [filePath?_eq, if_neg straight, text]

/-- The extension of a name is what follows its last dot. -/
theorem extension?_eq_some_iff {name extension : String} :
    extension? name = some extension ↔ IsExtension name extension := by
  have dot : ".".toList = ['.'] := rfl
  constructor
  · intro found
    have whole := @List.takeWhile_append_dropWhile _ (decide <| · ≠ '.') name.toList.reverse
    have first := List.head?_dropWhile_not (decide <| · ≠ '.') name.toList.reverse
    have last : '.' ∉ name.toList.reverse.takeWhile (decide <| · ≠ '.') :=
      fun member => by simpa using List.mem_takeWhile_imp member
    rw [extension?] at found
    split at found
    · rename_i c d stem shape
      rw [shape] at whole first
      have point : c = '.' := by simpa using first
      refine ⟨String.ofList (d :: stem).reverse, by simp [← String.toList_inj], ?_, ?_⟩
      · rw [← Option.some.inj found, ← String.toList_inj]
        have forwards := congrArg List.reverse whole
        rw [List.reverse_reverse, point] at forwards
        exact forwards.symm.trans (by simp [dot])
      · rw [← Option.some.inj found, String.toList_ofList]
        simpa using last
    · cases found
  · rintro ⟨stem, solid, rfl, last⟩
    obtain ⟨first, rest, shape⟩ : ∃ first rest, stem.toList.reverse = first :: rest :=
      List.exists_cons_of_ne_nil fun empty =>
        solid (String.toList_inj.mp (List.reverse_eq_nil_iff.mp empty))
    have written : (stem ++ "." ++ extension).toList.reverse =
        extension.toList.reverse ++ '.' :: first :: rest := by
      rw [String.toList_append, String.toList_append, dot, List.reverse_append, List.reverse_append,
        shape]
      rfl
    have kept : ∀ c ∈ extension.toList.reverse, (decide (c ≠ '.')) = true := by
      intro c member
      exact decide_eq_true fun same => last (same ▸ List.mem_reverse.mp member)
    rw [extension?, written, List.dropWhile_append_of_pos kept, List.takeWhile_append_of_pos kept]
    simp

/-- The file at some names is shown by each of its paths. -/
theorem filePage_of_isPathOf {tree : FileTree} {requested : String} {content : List UInt8}
    (lawful : tree.Lawful) (found : tree.kind? (directory ++ [name]) = some (.file content))
    (path : IsPathOf directory name requested) :
    filePage (some tree) requested =
      ⟨200, some (typeOfExtension (extension? name)), content⟩ := by
  have segment : ∀ part ∈ directory ++ [name], IsSegment part :=
    fun part member => (lawful.named _ (FileTree.mem_entries_of_file found) part member).1
  have stands := filePath?_of_isPathOf
    (fun part member => segment part (List.mem_append_left _ member)) (segment name (by simp)) path
  have names : FileTree.names (joined (directory ++ [name])) = directory ++ [name] :=
    FileTree.names_joined (by simp) segment
  rw [filePage_of_read stands (lawful.read_joined found), typeOfPath, names, List.getLast?_concat]
  rfl

end Completeness

/-- The files of the dashboard. What is answered at a path that is not that of a document is the
file at the names that the path stands for, below the root; a path that is astray is answered
without a file. In turn, each file of a tree that the system can hold is answered at its paths,
with the type of its extension. -/
theorem static_files (engine : Engine) (files : Option FileTree) (target : Target)
    (other : target.path ∉ documentPaths) :
    ((page engine files target).code = 200 →
      ∃ tree, files = some tree ∧ fileNames target.path ≠ [] ∧
        (∀ name ∈ fileNames target.path, IsSegment name) ∧
        tree.kind? (fileNames target.path) = some (.file (page engine files target).content)) ∧
    (IsAstray target.path →
      filePath? target.path = none ∧ page engine files target = .notFound) ∧
    ∀ tree directory name content, files = some tree → tree.Lawful →
      tree.kind? (directory ++ [name]) = some (.file content) →
      IsPathOf directory name target.path →
      ∃ extension, (∀ text, extension = some text ↔ IsExtension name text) ∧
        page engine files target = ⟨200, some (typeOfExtension extension), content⟩ := by
  rw [page_of_other engine files other]
  refine ⟨file_of_filePage, filePage_of_astray files, ?_⟩
  rintro tree directory name content rfl lawful found path
  exact ⟨extension? name, fun text => extension?_eq_some_iff,
    filePage_of_isPathOf lawful found path⟩

/-- A script and an index in a directory, and a file beside it. -/
def nestedFiles : FileTree where
  entries := [
    (["app", "map.min.js"], .file (Text.encode "draw()")),
    (["app", "index.html"], .file (Text.encode "<h1>map</h1>")),
    (["README"], .file (Text.encode "map"))]

theorem static_files_nested : ∃ engine, Engine.build Engine.twoPops true = .ok engine ∧
    nestedFiles.Lawful ∧
    page engine (some nestedFiles) ⟨"/app/map.min.js", []⟩ =
      ⟨200, some "text/javascript", Text.encode "draw()"⟩ ∧
    nestedFiles.kind? (fileNames "/app/map.min.js") = some (.file (Text.encode "draw()")) ∧
    (∃ type, page engine (some nestedFiles) ⟨"/app/", []⟩ =
      ⟨200, some type, Text.encode "<h1>map</h1>"⟩) ∧
    page engine (some nestedFiles) ⟨"/app/../README", []⟩ = .notFound := by
  obtain ⟨engine, built⟩ := Engine.build_twoPops
  have lawful : nestedFiles.Lawful := ⟨by decide +kernel, by decide +kernel, by decide +kernel⟩
  obtain ⟨confined, -, complete⟩ :=
    static_files engine (some nestedFiles) ⟨"/app/map.min.js", []⟩ (by decide)
  obtain ⟨-, -, ofDirectory⟩ :=
    static_files engine (some nestedFiles) ⟨"/app/", []⟩ (by decide)
  obtain ⟨-, astray, -⟩ :=
    static_files engine (some nestedFiles) ⟨"/app/../README", []⟩ (by decide)
  obtain ⟨extension, unique, script⟩ := complete nestedFiles ["app"] "map.min.js"
    (Text.encode "draw()") rfl lawful (by decide +kernel) (.inl (by decide +kernel))
  obtain ⟨_, -, index⟩ := ofDirectory nestedFiles ["app"] "index.html"
    (Text.encode "<h1>map</h1>") rfl lawful (by decide +kernel) (.inr ⟨rfl, by decide +kernel⟩)
  have js : extension = some "js" :=
    (unique "js").mpr ⟨"map.min", by decide, by decide +kernel, by decide⟩
  have shown := confined (by rw [script])
  rw [js] at script
  rw [script] at shown
  obtain ⟨tree, same, -, -, file⟩ := shown
  rw [← Option.some.inj same] at file
  exact ⟨engine, built, lawful, script, file, ⟨_, index⟩, (astray (.inl (by decide +kernel))).2⟩

end Steering.Dashboard
