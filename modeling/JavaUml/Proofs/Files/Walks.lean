import JavaUml.Proofs.Files.Locations
import Mathlib.Data.List.Forall2
import Mathlib.Data.List.Nodup

/-!
# The two walks over a folder

Both walks are compared with one list: the files of a folder in depth-first order, the
files and folders of each folder taken together in the order of their names.  A place in
that list is given by the names that lead to it, and the order is the order of these lists
of names.

The list of source files holds the paths of this list in another order.  The search for one
file gives the path of the first place of the wanted name.  So the two agree on what there
is, and both pass over the folders whose paths are too long to be listed.
-/

namespace JavaUml.Files

/-! ## The places that a walk comes to -/

mutual

/-- The places of the files under an entry in depth-first order, without those in folders
whose path is too long. -/
def placesUnder (path : String) : Entry → List Location
  | .file _ => []
  | .folder entries => if isLongPath path then [] else placesAmong path entries

/-- The places of the files among some entries and below. -/
def placesAmong (path : String) : List (String × Entry) → List Location
  | [] => []
  | (name, entry) :: rest =>
      (if entry.isFolder then (placesUnder (joinPath path name) entry).map (Location.under name)
        else [⟨[], name⟩]) ++ placesAmong path rest

end

/-- The places of the files that one entry of a folder gives. -/
def placesAt (path name : String) (entry : Entry) : List Location :=
  if entry.isFolder then (placesUnder (joinPath path name) entry).map (Location.under name)
  else [⟨[], name⟩]

theorem placesAmong_eq_flatMap (path : String) (entries : List (String × Entry)) :
    placesAmong path entries = entries.flatMap fun entry => placesAt path entry.1 entry.2 := by
  induction entries with
  | nil => rfl
  | cons first rest ih => rw [placesAmong, ih, List.flatMap_cons, placesAt]

theorem mem_placesAt_nil_iff {path name other : String} {entry : Entry} :
    ⟨[], name⟩ ∈ placesAt path other entry ↔ name = other ∧ entry.isFolder = false := by
  unfold placesAt
  split
  · rename_i isFolder
    simp [isFolder, Location.under]
  · rename_i isFile
    simp [isFile]

theorem mem_placesAt_cons_iff {path folder other name : String} {folders : List String}
    {entry : Entry} :
    ⟨folder :: folders, name⟩ ∈ placesAt path other entry ↔
      folder = other ∧ ⟨folders, name⟩ ∈ placesUnder (joinPath path other) entry := by
  unfold placesAt
  cases entry with
  | file content => simp [Entry.isFolder, placesUnder]
  | folder entries =>
      rw [Entry.isFolder, if_pos rfl, List.mem_map]
      constructor
      · rintro ⟨⟨inner, last⟩, mem, same⟩
        cases same
        exact ⟨rfl, mem⟩
      · rintro ⟨rfl, mem⟩
        exact ⟨_, mem, rfl⟩

theorem exists_cons_of_mem_placesAt {path name : String} {entry : Entry} {place : Location}
    (mem : place ∈ placesAt path name entry) : ∃ names, place.names = name :: names := by
  obtain ⟨_ | ⟨folder, folders⟩, last⟩ := place
  · exact ⟨[], by simp [Location.names, (mem_placesAt_nil_iff.1 mem).1]⟩
  · exact ⟨folders ++ [last], by simp [Location.names, (mem_placesAt_cons_iff.1 mem).1]⟩

/-- A walk comes to the files of a tree whose folders can be listed, and to nothing else. -/
theorem mem_placesUnder_iff {entry : Entry} (orderly : entry.IsOrderly) {path : String}
    {place : Location} :
    place ∈ placesUnder path entry ↔
      entry.HasFileAt place ∧ isLongPath (place.folderPath path) = false := by
  induction orderly generalizing path place with
  | file content =>
      obtain ⟨_ | ⟨folder, folders⟩, name⟩ := place <;>
        simp [placesUnder, Entry.HasFileAt, Location.names, Entry.at?]
  | @folder entries sorted plain below ih =>
      rw [placesUnder]
      split
      · rename_i long
        have deeper : isLongPath (place.folderPath path) = true := by
          simp only [isLongPath, decide_eq_true_eq] at long ⊢
          exact Nat.lt_of_lt_of_le long (utf8ByteSize_le_folderPath path place)
        simp [deeper]
      · rename_i short
        rw [placesAmong_eq_flatMap, List.mem_flatMap]
        obtain ⟨_ | ⟨folder, folders⟩, name⟩ := place
        · rw [hasFileAt_nil_iff]
          simp only [mem_placesAt_nil_iff, entryNamed?_eq_some_iff sorted]
          constructor
          · rintro ⟨⟨other, entry⟩, mem, rfl, isFile⟩
            exact ⟨⟨entry, mem, isFile⟩, Bool.eq_false_iff.2 short⟩
          · rintro ⟨⟨entry, mem, isFile⟩, -⟩
            exact ⟨(name, entry), mem, rfl, isFile⟩
        · rw [hasFileAt_cons_iff]
          simp only [mem_placesAt_cons_iff, entryNamed?_eq_some_iff sorted]
          constructor
          · rintro ⟨⟨other, entry⟩, mem, rfl, inside⟩
            obtain ⟨isFile, listed⟩ := (ih _ mem).1 inside
            exact ⟨⟨entry, mem, isFile⟩, listed⟩
          · rintro ⟨⟨entry, mem, isFile⟩, listed⟩
            exact ⟨(folder, entry), mem, rfl, (ih _ mem).2 ⟨isFile, listed⟩⟩

/-- A walk comes to the places in the order of their names. -/
theorem pairwise_placesUnder {entry : Entry} (orderly : entry.IsOrderly) (path : String) :
    (placesUnder path entry).Pairwise fun earlier later => earlier.names < later.names := by
  induction orderly generalizing path with
  | file content => exact .nil
  | @folder entries sorted plain below ih =>
      rw [placesUnder]
      split
      · exact .nil
      · rw [placesAmong_eq_flatMap, List.pairwise_flatMap]
        constructor
        -- Behind one name the order is that of the folder, with the name in front.
        · intro entry mem
          unfold placesAt
          split
          · rw [List.pairwise_map]
            apply (ih entry mem (joinPath path entry.1)).imp
            intro earlier later less
            rw [Location.names_under, Location.names_under]
            exact List.cons_lt_cons_iff.2 (.inr ⟨rfl, less⟩)
          · exact List.pairwise_singleton _ _
        -- Behind different names the names decide.
        · apply sorted.imp
          intro entry next less earlier earlier_mem later later_mem
          obtain ⟨names, names_eq⟩ := exists_cons_of_mem_placesAt earlier_mem
          obtain ⟨others, others_eq⟩ := exists_cons_of_mem_placesAt later_mem
          rw [names_eq, others_eq]
          exact List.cons_lt_cons_iff.2 (.inl less)

/-! ## Both walks come to these places -/

/-- The paths of the places whose names end with a suffix. -/
def pathsWith (suffix path : String) (places : List Location) : List String :=
  (places.filter fun place => hasSuffix suffix place.name).map (Location.path path)

theorem pathsWith_append (suffix path : String) (places others : List Location) :
    pathsWith suffix path (places ++ others) =
      pathsWith suffix path places ++ pathsWith suffix path others := by
  simp [pathsWith]

theorem pathsWith_map_under (suffix path name : String) (places : List Location) :
    pathsWith suffix path (places.map (Location.under name)) =
      pathsWith suffix (joinPath path name) places := by
  rw [pathsWith, List.filter_map, List.map_map]
  rfl

theorem filesHere_cons (suffix path name : String) (entry : Entry)
    (rest : List (String × Entry)) :
    filesHere suffix path ((name, entry) :: rest) =
      (if entry.isFolder then [] else pathsWith suffix path [⟨[], name⟩]) ++
        filesHere suffix path rest := by
  cases entry with
  | folder entries => simp [filesHere, Entry.isFolder]
  | file content =>
      by_cases ends : hasSuffix suffix name <;>
        simp [filesHere, Entry.isFolder, pathsWith, ends, Location.path, Location.folderPath]

mutual

/-- The list of source files holds the places of the walk in another order. -/
theorem perm_filesUnder (suffix path : String) :
    (entry : Entry) →
      (filesUnder suffix path entry).Perm (pathsWith suffix path (placesUnder path entry))
  | .file _ => .refl []
  | .folder entries => by
      rw [filesUnder, placesUnder]
      split
      · exact .refl []
      · exact perm_filesBelow suffix path entries

theorem perm_filesBelow (suffix path : String) :
    (entries : List (String × Entry)) →
      (filesHere suffix path entries ++ filesBelow suffix path entries).Perm
        (pathsWith suffix path (placesAmong path entries))
  | [] => .refl []
  | (name, entry) :: rest => by
      have inside := perm_filesUnder suffix (joinPath path name) entry
      have later := perm_filesBelow suffix path rest
      rw [filesHere_cons, filesBelow, placesAmong, pathsWith_append]
      cases entry with
      | file content =>
          rw [filesUnder, List.nil_append, List.append_assoc]
          exact later.append_left _
      | folder entries =>
          rw [Entry.isFolder, if_pos rfl, if_pos rfl, List.nil_append, pathsWith_map_under]
          -- The files of the folder around come first in the one list and last in the other.
          exact (List.perm_append_comm_assoc _ _ _).trans (inside.append later)

end

/-- The first place of a name. -/
def firstNamed? (target : String) (places : List Location) : Option Location :=
  places.find? fun place => place.name = target

mutual

/-- The search for a file stops at the first place of its name. -/
theorem fileUnder_eq_firstNamed? (target path : String) :
    (entry : Entry) →
      (fileUnder target path entry).1 =
        (firstNamed? target (placesUnder path entry)).map (Location.path path)
  | .file _ => by rw [fileUnder, placesUnder]; rfl
  | .folder entries => by
      rw [fileUnder, placesUnder]
      split
      · rfl
      · exact fileAmong_eq_firstNamed? target path entries

theorem fileAmong_eq_firstNamed? (target path : String) :
    (entries : List (String × Entry)) →
      (fileAmong target path entries).1 =
        (firstNamed? target (placesAmong path entries)).map (Location.path path)
  | [] => by rw [fileAmong, placesAmong]; rfl
  | (name, entry) :: rest => by
      have inside := fileUnder_eq_firstNamed? target (joinPath path name) entry
      have later := fileAmong_eq_firstNamed? target path rest
      rw [fst_fileAmong_cons, inside, later, placesAmong, firstNamed?, firstNamed?, firstNamed?,
        List.find?_append, Option.map_or]
      split
      · rw [List.find?_map, Option.map_map]
        rfl
      · split
        · rename_i same
          simp [same, Location.path, Location.folderPath]
        · rename_i other
          simp [other]

end

/-! ## What the search answers -/

/-- A file stands at a place below the folder at a path, and the folder that it lies in can
be listed. -/
def IsListed (disk : Disk) (path : String) (place : Location) : Prop :=
  ∃ entries, listFolder disk path = .ok entries ∧ (Entry.folder entries).HasFileAt place ∧
    isLongPath (place.folderPath path) = false

/-- A place is the first of its name on the depth-first way below a path: where the ways to
two places part, the lesser name is taken first. -/
def IsFirst (disk : Disk) (path name : String) (place : Location) : Prop :=
  IsListed disk path place ∧ place.name = name ∧
    ∀ other, IsListed disk path other → other.name = name → other ≠ place →
      place.names < other.names

/-- The places of the files below the folder at a path. -/
def placesFrom (disk : Disk) (path : String) : List Location :=
  match listFolder disk path with
  | .ok entries => placesUnder path (.folder entries)
  | .error _ => []

section

variable {disk : Disk} (orderly : disk.top.IsOrderly) {path : String}

include orderly

theorem mem_placesFrom_iff {place : Location} :
    place ∈ placesFrom disk path ↔ IsListed disk path place := by
  unfold placesFrom IsListed
  cases listed : listFolder disk path with
  | error problem => simp
  | ok entries => simp [mem_placesUnder_iff (orderly.listFolder listed)]

theorem pairwise_placesFrom :
    (placesFrom disk path).Pairwise fun earlier later => earlier.names < later.names := by
  unfold placesFrom
  cases listed : listFolder disk path with
  | error problem => exact .nil
  | ok entries => exact pairwise_placesUnder (orderly.listFolder listed) path

theorem IsListed.isPlain {place : Location} (listed : IsListed disk path place) :
    place.IsPlain := by
  obtain ⟨entries, at_path, held, -⟩ := listed
  exact isPlain_of_hasFileAt (orderly.listFolder at_path) held

theorem nodup_placesFrom : (placesFrom disk path).Nodup := by
  apply (pairwise_placesFrom orderly).imp
  rintro earlier later less rfl
  exact List.lt_irrefl _ less

/-- The first place of a name in the list comes before all others of that name. -/
theorem isFirst_of_firstNamed? {name : String} {place : Location}
    (found : firstNamed? name (placesFrom disk path) = some place) :
    IsFirst disk path name place := by
  obtain ⟨named, before, after, split_eq, skipped⟩ := List.find?_eq_some_iff_append.1 found
  have sorted : (placesFrom disk path).Pairwise _ := pairwise_placesFrom orderly
  have listed := (mem_placesFrom_iff orderly).1 (List.mem_of_find?_eq_some found)
  apply And.intro listed
  apply And.intro (of_decide_eq_true named)
  intro other other_listed other_named different
  have mem := (mem_placesFrom_iff orderly).2 other_listed
  rw [split_eq] at mem sorted
  rcases List.mem_append.1 mem with earlier | here
  · have unnamed := skipped other earlier
    simp [other_named] at unnamed
  · rcases List.mem_cons.1 here with same | later
    · exact absurd same different
    · exact List.rel_of_pairwise_cons (List.pairwise_append.1 sorted).2.1 later

/-- The paths of the places are told apart by the places themselves. -/
theorem nodup_pathsWith (suffix : String) :
    (pathsWith suffix path (placesFrom disk path)).Nodup := by
  apply List.Nodup.map_on _ ((nodup_placesFrom orderly).filter _)
  intro place mem other other_mem same
  have listed := (mem_placesFrom_iff orderly).1 (List.mem_of_mem_filter mem)
  have other_listed := (mem_placesFrom_iff orderly).1 (List.mem_of_mem_filter other_mem)
  exact path_inj (listed.isPlain orderly) (other_listed.isPlain orderly) same

end

theorem perm_sourceFiles (disk : Disk) (suffix path : String) :
    (sourceFiles disk suffix path).Perm (pathsWith suffix path (placesFrom disk path)) := by
  unfold sourceFiles placesFrom
  cases listFolder disk path with
  | error problem => exact .refl []
  | ok entries => exact perm_filesUnder suffix path (.folder entries)

theorem isLongPath_of_listFolder {disk : Disk} {path : String} {entries : List (String × Entry)}
    (listed : listFolder disk path = .ok entries) : isLongPath path = false := by
  have sound := (entryAt_eq_folder_iff.1 (listFolder_eq_ok_iff.1 listed)).1
  unfold pathProblem? at sound
  split_ifs at sound with unnamable empty long
  simpa [isLongPath] using long

theorem sourceFileOf_eq_firstNamed? (disk : Disk) (suffix path typeName : String) :
    (sourceFileOf disk suffix path typeName).1 =
      (firstNamed? (typeName ++ suffix) (placesFrom disk path)).map (Location.path path) := by
  unfold sourceFileOf placesFrom
  cases listed : listFolder disk path with
  | error problem => rfl
  | ok entries =>
      have under := fileUnder_eq_firstNamed? (typeName ++ suffix) path (.folder entries)
      rw [fileUnder, isLongPath_of_listFolder listed] at under
      exact under

theorem hasSuffix_append (typeName suffix : String) : hasSuffix suffix (typeName ++ suffix) := by
  simp [hasSuffix]

theorem mem_sourceFiles_iff {disk : Disk} (orderly : disk.top.IsOrderly)
    {suffix path found : String} :
    found ∈ sourceFiles disk suffix path ↔
      ∃ place, IsListed disk path place ∧ hasSuffix suffix place.name ∧
        place.path path = found := by
  rw [(perm_sourceFiles disk suffix path).mem_iff, pathsWith]
  simp only [List.mem_map, List.mem_filter, mem_placesFrom_iff orderly, and_assoc]

/-- What the search for the file of a type answers, given the list of all source files. -/
structure Answers (disk : Disk) (suffix path : String) (files : List String) (typeName : String)
    (answer : Option String) : Prop where
  found_iff : answer.isSome ↔ ∃ file ∈ files, baseName file = typeName ++ suffix
  first : ∀ file ∈ answer, file ∈ files ∧
    ∃ place, IsFirst disk path (typeName ++ suffix) place ∧ place.path path = file

theorem answers_sourceFileOf {disk : Disk} (orderly : disk.top.IsOrderly)
    (suffix path typeName : String) :
    Answers disk suffix path (sourceFiles disk suffix path) typeName
      (sourceFileOf disk suffix path typeName).1 := by
  rw [sourceFileOf_eq_firstNamed?]
  constructor
  · rw [Option.isSome_map, firstNamed?, List.find?_isSome]
    constructor
    · rintro ⟨place, mem, named⟩
      have listed := (mem_placesFrom_iff orderly).1 mem
      have place_name : place.name = typeName ++ suffix := of_decide_eq_true named
      have ends : hasSuffix suffix place.name := place_name ▸ hasSuffix_append typeName suffix
      exact ⟨_, (mem_sourceFiles_iff orderly).2 ⟨place, listed, ends, rfl⟩,
        (baseName_path (listed.isPlain orderly) path).trans place_name⟩
    · rintro ⟨file, mem, named⟩
      obtain ⟨place, listed, -, rfl⟩ := (mem_sourceFiles_iff orderly).1 mem
      rw [baseName_path (listed.isPlain orderly)] at named
      exact ⟨place, (mem_placesFrom_iff orderly).2 listed, decide_eq_true named⟩
  · intro file given
    obtain ⟨place, found, rfl⟩ := Option.map_eq_some_iff.1 given
    have isFirst := isFirst_of_firstNamed? orderly found
    have ends : hasSuffix suffix place.name := isFirst.2.1 ▸ hasSuffix_append typeName suffix
    exact ⟨(mem_sourceFiles_iff orderly).2 ⟨place, isFirst.1, ends, rfl⟩, place, isFirst, rfl⟩

theorem search_eq_ok {path : String} (namable : isUnnamable path = false) (disk : Disk)
    (suffix : String) (types : List String) :
    search disk suffix path types =
      .ok (sourceFiles disk suffix path, types.map (sourceFileOf disk suffix path)) := by
  have passed : listable path = .ok () := by simp [listable, namable]
  rw [search, passed]
  rfl

/-- Three files of one name, one of them in a folder that is named like a source file, in the
working folder `home`. -/
def namesakes : Disk where
  top := [["home", "src", "a", "T.java"], ["home", "src", "T.java"],
    ["home", "src", "A.java", "T.java"]].foldr (Entry.put (.file [])) .empty
  here := ["home"]

theorem isOrderly_namesakes : namesakes.top.IsOrderly :=
  .put (.file []) (by decide) (.put (.file []) (by decide)
    (.put (.file []) (by decide) isOrderly_empty))

/-- A path to the folder `src` with so many steps in front that lead nowhere. -/
def srcBehindDots : Nat → String
  | 0 => "src"
  | steps + 1 => "./" ++ srcBehindDots steps

theorem toList_srcBehindDots_succ (steps : Nat) :
    (srcBehindDots (steps + 1)).toList = '.' :: '/' :: (srcBehindDots steps).toList := by
  simp [srcBehindDots]

theorem utf8ByteSize_srcBehindDots (steps : Nat) :
    (srcBehindDots steps).utf8ByteSize = 2 * steps + 3 := by
  induction steps with
  | zero => rfl
  | succ steps ih =>
      have two : "./".utf8ByteSize = 2 := rfl
      rw [srcBehindDots, String.utf8ByteSize_append, ih, two]
      omega

theorem pathNames_srcBehindDots (steps : Nat) : pathNames (srcBehindDots steps) = ["src"] := by
  induction steps with
  | zero => decide
  | succ steps ih =>
      have cut : Text.splitAt '/' (['.'] ++ '/' :: (srcBehindDots steps).toList) =
          ['.'] :: Text.splitAt '/' (srcBehindDots steps).toList :=
        Text.splitAt_append_cons (by decide) _
      have dot : String.ofList ['.'] = "." := rfl
      rw [pathNames, Text.split, toList_srcBehindDots_succ]
      rw [List.cons_append, List.nil_append] at cut
      rw [cut, List.map_cons, dot, List.filter_cons_of_neg (by decide)]
      exact ih

theorem mem_srcBehindDots {steps : Nat} {c : Char} (mem : c ∈ (srcBehindDots steps).toList) :
    c ∈ ['.', '/', 's', 'r', 'c'] := by
  induction steps with
  | zero => exact List.mem_cons_of_mem _ (List.mem_cons_of_mem _ mem)
  | succ steps ih =>
      rw [toList_srcBehindDots_succ] at mem
      rcases List.mem_cons.1 mem with rfl | mem
      · decide
      · rcases List.mem_cons.1 mem with rfl | mem
        · decide
        · exact ih mem

theorem isUnnamable_srcBehindDots (steps : Nat) : isUnnamable (srcBehindDots steps) = false :=
  isFree_iff.1 fun mem => absurd (mem_srcBehindDots mem) (by decide)

theorem pathProblem?_srcBehindDots {steps : Nat} (short : 2 * steps + 3 ≤ greatestPath) :
    pathProblem? (srcBehindDots steps) = none := by
  have size := utf8ByteSize_srcBehindDots steps
  have filled : srcBehindDots steps ≠ "" := by
    intro none
    rw [none] at size
    cases size
  simp [pathProblem?, isUnnamable_srcBehindDots, filled, size, short]

/-- A file in a folder of the folder `src`, which lies in the top folder. -/
def nested : Disk where
  top := Entry.put (.file []) ["src", "deep", "T.java"] .empty
  here := []

theorem listFolder_nested {steps : Nat} (short : 2 * steps + 3 ≤ greatestPath) :
    listFolder nested (srcBehindDots steps) =
      .ok [("deep", .folder [("T.java", .file [])])] := by
  have start : nested.start (srcBehindDots steps) = [] := by
    unfold Disk.start
    split <;> rfl
  apply listFolder_eq_ok_iff.2
  apply entryAt_eq_folder_iff.2
  apply And.intro (pathProblem?_srcBehindDots short)
  rw [pathNames_srcBehindDots, start]
  exact ⟨["src"], rfl, rfl⟩

/-- A folder that can be listed may hold one that cannot, and both walks pass that one
over. -/
theorem search_nested {steps : Nat} (short : 2 * steps + 3 ≤ greatestPath)
    (long : greatestPath < 2 * steps + 7) :
    search nested ".java" (srcBehindDots steps) ["T"] =
      .ok ([], [(none,
        [unlistedWarning ⟨.tooLong, joinPath (srcBehindDots steps) "deep"⟩])]) := by
  have size := utf8ByteSize_srcBehindDots steps
  have here : isLongPath (srcBehindDots steps) = false := by
    simpa [isLongPath, size] using short
  have below : isLongPath (joinPath (srcBehindDots steps) "deep") = true := by
    have four : "deep".utf8ByteSize = 4 := rfl
    have grown : (srcBehindDots steps).utf8ByteSize ≤
        (joinPath (srcBehindDots steps) "").utf8ByteSize := utf8ByteSize_le_joinPath _ _
    rw [isLongPath, joinPath_eq_append, String.utf8ByteSize_append, four]
    exact decide_eq_true (by omega)
  have files : sourceFiles nested ".java" (srcBehindDots steps) = [] := by
    rw [sourceFiles, listFolder_nested short]
    simp [filesUnder, filesBelow, filesHere, here, below, Entry.isFolder]
  have answer : sourceFileOf nested ".java" (srcBehindDots steps) "T" =
      (none, [unlistedWarning ⟨.tooLong, joinPath (srcBehindDots steps) "deep"⟩]) := by
    rw [sourceFileOf, listFolder_nested short]
    simp [fileAmong, fileUnder, below, Entry.isFolder]
  rw [search_eq_ok (isUnnamable_srcBehindDots steps), List.map_singleton, files, answer]

end JavaUml.Files
