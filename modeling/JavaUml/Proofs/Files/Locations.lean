import JavaUml.Proofs.Files.Writing
import JavaUml.Proofs.Text.Splitting

/-!
# Places in a file tree

A tree is orderly if every folder has plain names, each once and in order.  Putting files
and folders at plain names keeps a tree orderly.

The place of a file below a folder is the list of names that lead to it.  In an orderly tree
the path that these names make tells the place: its last name can be read off, and no two
places have the same path.
-/

namespace JavaUml.Files

/-! ## Orderly trees -/

/-- A text that can be the name of a file in a folder. -/
def IsPlainName (name : String) : Prop :=
  name ≠ "" ∧ '/' ∉ name.toList

instance (name : String) : Decidable (IsPlainName name) :=
  inferInstanceAs (Decidable (name ≠ "" ∧ '/' ∉ name.toList))

/-- Trees in which every folder has plain names, each once and in order. -/
inductive Entry.IsOrderly : Entry → Prop
  | file (content : List UInt8) : IsOrderly (.file content)
  | folder {entries : List (String × Entry)}
      (sorted : entries.Pairwise fun earlier later => earlier.1 < later.1)
      (plain : ∀ entry ∈ entries, IsPlainName entry.1)
      (below : ∀ entry ∈ entries, entry.2.IsOrderly) : IsOrderly (.folder entries)

theorem mem_of_entryNamed? {name : String} {entries : List (String × Entry)} {entry : Entry}
    (found : entryNamed? name entries = some entry) : (name, entry) ∈ entries := by
  induction entries with
  | nil => cases found
  | cons first rest ih =>
      rw [entryNamed?] at found
      split at found
      · rename_i same
        obtain ⟨_, _⟩ := first
        cases found
        cases same
        exact List.mem_cons_self
      · exact List.mem_cons_of_mem _ (ih found)

theorem entryNamed?_eq_some_iff {name : String} {entries : List (String × Entry)} {entry : Entry}
    (sorted : entries.Pairwise fun earlier later => earlier.1 < later.1) :
    entryNamed? name entries = some entry ↔ (name, entry) ∈ entries := by
  constructor
  · exact mem_of_entryNamed?
  · intro mem
    induction entries with
    | nil => cases mem
    | cons first rest ih =>
        obtain ⟨least, rest_sorted⟩ := List.pairwise_cons.1 sorted
        rw [entryNamed?]
        rcases List.mem_cons.1 mem with rfl | later
        · exact if_pos rfl
        · rw [if_neg, ih rest_sorted later]
          intro same
          have less : first.1 < name := least _ later
          exact String.lt_irrefl name (same ▸ less)

theorem Entry.IsOrderly.at? {names : List String} {top entry : Entry} (orderly : top.IsOrderly)
    (found : top.at? names = some entry) : entry.IsOrderly := by
  induction names generalizing top with
  | nil => exact Option.some.inj found ▸ orderly
  | cons name names ih =>
      cases orderly with
      | file content => cases found
      | folder sorted plain below =>
          obtain ⟨next, next_found, deeper⟩ := Option.bind_eq_some_iff.1 found
          exact ih (below _ (mem_of_entryNamed? next_found)) deeper

theorem listFolder_eq_ok_iff {disk : Disk} {path : String} {entries : List (String × Entry)} :
    listFolder disk path = .ok entries ↔ entryAt disk path = .ok (.folder entries) := by
  unfold listFolder
  split
  · rename_i found
    simp [found]
  · rename_i found
    simp [found]
  · rename_i found
    simp [found]

theorem Entry.IsOrderly.listFolder {disk : Disk} {path : String}
    {entries : List (String × Entry)} (orderly : disk.top.IsOrderly)
    (listed : listFolder disk path = .ok entries) : (Entry.folder entries).IsOrderly := by
  obtain ⟨-, names, -, found⟩ := entryAt_eq_folder_iff.1 (listFolder_eq_ok_iff.1 listed)
  exact orderly.at? found

/-! ### Putting entries into a tree -/

theorem mem_setEntry {name : String} {entry : Entry} {entries : List (String × Entry)}
    {member : String × Entry} (mem : member ∈ setEntry name entry entries) :
    member = (name, entry) ∨ member ∈ entries := by
  induction entries with
  | nil => exact .inl (List.mem_singleton.1 mem)
  | cons first rest ih =>
      rw [setEntry] at mem
      split_ifs at mem
      · exact (List.mem_cons.1 mem).imp_right (List.mem_cons_of_mem _)
      · exact List.mem_cons.1 mem
      · rcases List.mem_cons.1 mem with rfl | later
        · exact .inr List.mem_cons_self
        · exact (ih later).imp_right (List.mem_cons_of_mem _)

theorem sorted_setEntry (name : String) (entry : Entry) {entries : List (String × Entry)}
    (sorted : entries.Pairwise fun earlier later => earlier.1 < later.1) :
    (setEntry name entry entries).Pairwise fun earlier later => earlier.1 < later.1 := by
  induction entries with
  | nil => exact List.pairwise_singleton _ _
  | cons first rest ih =>
      obtain ⟨least, rest_sorted⟩ := List.pairwise_cons.1 sorted
      rw [setEntry]
      split_ifs with same less
      · exact List.pairwise_cons.2 ⟨same ▸ least, rest_sorted⟩
      · apply List.Pairwise.cons _ sorted
        intro member mem
        rcases List.mem_cons.1 mem with rfl | later
        · exact less
        · exact String.lt_trans less (least member later)
      · apply List.Pairwise.cons _ (ih rest_sorted)
        intro member mem
        rcases mem_setEntry mem with rfl | later
        · exact String.not_le.1 fun back => same (String.le_antisymm (String.not_lt.1 less) back)
        · exact least member later

theorem Entry.IsOrderly.setEntry {name : String} {entry : Entry}
    {entries : List (String × Entry)} (plain : IsPlainName name) (orderly : entry.IsOrderly)
    (entries_orderly : (Entry.folder entries).IsOrderly) :
    (Entry.folder (setEntry name entry entries)).IsOrderly := by
  cases entries_orderly with
  | folder sorted plains below =>
      apply folder (sorted_setEntry name entry sorted)
      · intro member mem
        rcases mem_setEntry mem with rfl | old
        · exact plain
        · exact plains member old
      · intro member mem
        rcases mem_setEntry mem with rfl | old
        · exact orderly
        · exact below member old

theorem isOrderly_empty : Entry.empty.IsOrderly :=
  .folder .nil (by simp) (by simp)

/-- A tree stays orderly when a file or folder is put at a place with plain names. -/
theorem Entry.IsOrderly.put {new top : Entry} {names : List String} (new_orderly : new.IsOrderly)
    (plain : ∀ name ∈ names, IsPlainName name) (orderly : top.IsOrderly) :
    (Entry.put new names top).IsOrderly := by
  induction names generalizing top with
  | nil => exact new_orderly
  | cons name names ih =>
      rw [List.forall_mem_cons] at plain
      cases top with
      | file content => exact orderly
      | folder entries =>
          rw [Entry.put]
          apply Entry.IsOrderly.setEntry plain.1 _ orderly
          apply ih plain.2
          cases found : entryNamed? name entries with
          | none => exact isOrderly_empty
          | some old =>
              cases orderly with
              | folder sorted plains below => exact below _ (mem_of_entryNamed? found)

/-! ## Places of files -/

/-- The place of a file below a folder: the folders on the way and the file's own name. -/
@[ext]
structure Location where
  folders : List String
  name : String
  deriving DecidableEq

namespace Location

/-- All names on the way, the file's own name last. -/
def names (place : Location) : List String :=
  place.folders ++ [place.name]

/-- The path of the folder of a file, if the way starts at the given path. -/
def folderPath (start : String) (place : Location) : String :=
  place.folders.foldl joinPath start

/-- The path of a file, if the way starts at the given path. -/
def path (start : String) (place : Location) : String :=
  joinPath (place.folderPath start) place.name

/-- The same place seen from the folder around. -/
def under (folder : String) (place : Location) : Location :=
  ⟨folder :: place.folders, place.name⟩

theorem names_under (folder : String) (place : Location) :
    (place.under folder).names = folder :: place.names :=
  rfl

theorem names_inj {place other : Location} (same : place.names = other.names) : place = other := by
  obtain ⟨folders_eq, name_eq⟩ := List.append_inj' same rfl
  exact Location.ext folders_eq (List.singleton_inj.1 name_eq)

end Location

/-! ## Paths tell places apart -/

/-- The last name of a path. -/
def baseName (path : String) : String :=
  String.ofList (Text.afterLast '/' path.toList)

/-- What stands before a name in a folder does not depend on the name. -/
theorem joinPath_eq_append (folder name : String) :
    joinPath folder name = joinPath folder "" ++ name := by
  unfold joinPath
  split_ifs <;> simp

theorem joinPath_empty_cases (folder : String) :
    joinPath folder "" = "" ∨ (joinPath folder "").toList.getLast? = some '/' := by
  unfold joinPath
  split_ifs with none slash
  · exact .inl rfl
  · exact .inr (by simpa using slash)
  · exact .inr (by simp)

theorem joinPath_joinPath_empty {name : String} (plain : IsPlainName name) (folder : String) :
    joinPath (joinPath folder name) "" = joinPath folder "" ++ name ++ "/" := by
  rw [joinPath_eq_append folder name]
  have filled : joinPath folder "" ++ name ≠ "" := by
    intro none
    exact plain.1 (String.append_eq_empty_iff.1 none).2
  have last : (joinPath folder "" ++ name).toList.getLast? ≠ some '/' := by
    have letters : name.toList ≠ [] := fun none => plain.1 (String.toList_eq_nil_iff.1 none)
    rw [String.toList_append, List.getLast?_append, List.getLast?_eq_some_getLast letters,
      Option.some_or]
    intro slash
    exact plain.2 (Option.some.inj slash ▸ List.getLast_mem letters)
  rw [joinPath, if_neg filled, if_neg last, String.append_empty]

theorem afterLast_append {c : Char} {front word : List Char}
    (ended : front = [] ∨ front.getLast? = some c) (free : c ∉ word) :
    Text.afterLast c (front ++ word) = word := by
  have kept : ∀ d ∈ word.reverse, (d != c) = true := by
    intro d mem
    rw [bne_iff_ne]
    rintro rfl
    exact free (List.mem_reverse.1 mem)
  rw [Text.afterLast, Text.beforeFirst, List.reverse_append, List.takeWhile_append_of_pos kept]
  rcases ended with rfl | last
  · simp
  · obtain ⟨init, rfl⟩ := List.getLast?_eq_some_iff.1 last
    simp

/-- A place whose names are all plain. -/
def Location.IsPlain (place : Location) : Prop :=
  ∀ name ∈ place.names, IsPlainName name

theorem baseName_path {place : Location} (plain : place.IsPlain) (start : String) :
    baseName (place.path start) = place.name := by
  have free := (plain place.name (by simp [Location.names])).2
  rw [baseName, Location.path, joinPath_eq_append, String.toList_append, afterLast_append _ free,
    String.ofList_toList]
  rcases joinPath_empty_cases (place.folderPath start) with none | slash
  · exact .inl (by rw [none]; rfl)
  · exact .inr slash

theorem path_eq_intercalate {folders : List String} {name : String}
    (plain : ∀ folder ∈ folders, IsPlainName folder) (start : String) :
    Location.path start ⟨folders, name⟩ =
      joinPath start "" ++ "/".intercalate (folders ++ [name]) := by
  induction folders generalizing start with
  | nil => exact (joinPath_eq_append start name).trans (by simp)
  | cons folder folders ih =>
      rw [List.forall_mem_cons] at plain
      calc Location.path start ⟨folder :: folders, name⟩
          = Location.path (joinPath start folder) ⟨folders, name⟩ := rfl
        _ = joinPath start "" ++ folder ++ "/" ++ "/".intercalate (folders ++ [name]) := by
            rw [ih plain.2, joinPath_joinPath_empty plain.1]
        _ = joinPath start "" ++ "/".intercalate (folder :: folders ++ [name]) := by
            rw [List.cons_append, String.intercalate_cons_of_ne_nil (by simp)]
            simp only [String.append_assoc]

/-- Different places of plain names have different paths. -/
theorem path_inj {place other : Location} (plain : place.IsPlain) (other_plain : other.IsPlain)
    {start : String} (same : place.path start = other.path start) : place = other := by
  have split_names {place : Location} (plain : place.IsPlain) :
      Text.split '/' ("/".intercalate place.names) = place.names := by
    have free : ∀ name ∈ place.names, '/' ∉ name.toList := fun name mem => (plain name mem).2
    cases names_eq : place.names with
    | nil => exact absurd names_eq (by simp [Location.names])
    | cons first others => exact Text.split_intercalate_of_free rfl (names_eq ▸ free)
  have written {place : Location} (plain : place.IsPlain) :
      place.path start = joinPath start "" ++ "/".intercalate place.names :=
    path_eq_intercalate (fun name mem => plain name (List.mem_append_left _ mem)) start
  rw [written plain, written other_plain, String.append_right_inj] at same
  apply Location.names_inj
  rw [← split_names plain, ← split_names other_plain, same]

theorem utf8ByteSize_le_joinPath (folder name : String) :
    folder.utf8ByteSize ≤ (joinPath folder name).utf8ByteSize := by
  unfold joinPath
  split_ifs with none
  · simp [none]
  · simp
  · rw [String.utf8ByteSize_append, String.utf8ByteSize_append]
    omega

/-- No folder on the way has a longer path than the last one. -/
theorem utf8ByteSize_le_folderPath (start : String) (place : Location) :
    start.utf8ByteSize ≤ (place.folderPath start).utf8ByteSize := by
  obtain ⟨folders, name⟩ := place
  induction folders generalizing start with
  | nil => exact Nat.le_refl _
  | cons folder folders ih =>
      exact Nat.le_trans (utf8ByteSize_le_joinPath start folder) (ih (joinPath start folder))

/-! ## Files at places -/

/-- Whether a file stands at a place below an entry. -/
def Entry.HasFileAt (entry : Entry) (place : Location) : Prop :=
  ∃ content, entry.at? place.names = some (.file content)

theorem hasFileAt_nil_iff {entries : List (String × Entry)} {name : String} :
    (Entry.folder entries).HasFileAt ⟨[], name⟩ ↔
      ∃ entry, entryNamed? name entries = some entry ∧ entry.isFolder = false := by
  unfold Entry.HasFileAt
  simp only [Location.names, List.nil_append, Entry.at?]
  constructor
  · rintro ⟨content, found⟩
    obtain ⟨entry, named, same⟩ := Option.bind_eq_some_iff.1 found
    cases same
    exact ⟨_, named, rfl⟩
  · rintro ⟨entry, named, isFile⟩
    cases entry with
    | file content => exact ⟨content, by rw [named]; rfl⟩
    | folder inner => cases isFile

theorem hasFileAt_cons_iff {entries : List (String × Entry)} {folder name : String}
    {folders : List String} :
    (Entry.folder entries).HasFileAt ⟨folder :: folders, name⟩ ↔
      ∃ entry, entryNamed? folder entries = some entry ∧ entry.HasFileAt ⟨folders, name⟩ := by
  unfold Entry.HasFileAt
  simp only [Location.names, List.cons_append, Entry.at?, Option.bind_eq_some_iff]
  constructor
  · rintro ⟨content, entry, named, found⟩
    exact ⟨entry, named, content, found⟩
  · rintro ⟨entry, named, content, found⟩
    exact ⟨content, entry, named, found⟩

theorem isPlain_of_hasFileAt {entry : Entry} (orderly : entry.IsOrderly) {place : Location}
    (held : entry.HasFileAt place) : place.IsPlain := by
  obtain ⟨content, found⟩ := held
  unfold Location.IsPlain
  generalize place.names = names at found
  induction names generalizing entry with
  | nil => simp
  | cons name names ih =>
      cases orderly with
      | file content => cases found
      | folder sorted plain below =>
          obtain ⟨next, next_found, deeper⟩ := Option.bind_eq_some_iff.1 found
          have mem := mem_of_entryNamed? next_found
          exact List.forall_mem_cons.2 ⟨plain _ mem, ih (below _ mem) deeper⟩

end JavaUml.Files
