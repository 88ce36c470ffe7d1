import JavaUml.Files.Search
import Mathlib.Tactic.SplitIfs

/-!
# What writing leaves alone

A file that is written takes the place of a file or of nothing.  So every folder stays a
folder with the names that it has, and every path that leads to a folder still leads to one.
The working folder is never left.

A null character in a path is the one problem that no file system reports.  It never comes
up for a path without such a character, and neither writing nor searching brings one into
a tree that has none.
-/

namespace JavaUml

/-! ## Outcomes -/

/-- An outcome whose value or fault is as told. -/
structure Meets {ε α : Type} (gives : α → Prop) (fails : ε → Prop) (outcome : Except ε α) :
    Prop where
  given : ∀ {value}, outcome = .ok value → gives value
  failed : ∀ {fault}, outcome = .error fault → fails fault

namespace Meets

variable {ε δ α β : Type} {gives : α → Prop} {fails : ε → Prop} {outcome : Except ε α}

theorem ok {value : α} (held : gives value) : Meets gives fails (.ok value) :=
  ⟨fun same => Except.ok.inj same ▸ held, nofun⟩

theorem error {fault : ε} (held : fails fault) : Meets gives fails (.error fault) :=
  ⟨nofun, fun same => Except.error.inj same ▸ held⟩

theorem bind {next : α → Except ε β} {result : β → Prop} (met : Meets gives fails outcome)
    (rest : ∀ value, gives value → Meets result fails (next value)) :
    Meets result fails (outcome >>= next) := by
  cases outcome with
  | ok value => exact rest value (met.given rfl)
  | error fault => exact error (met.failed rfl)

theorem mapError {name : ε → δ} {named : δ → Prop} (met : Meets gives fails outcome)
    (carries : ∀ fault, fails fault → named (name fault)) :
    Meets gives named (outcome.mapError name) := by
  cases outcome with
  | ok value => exact ok (met.given rfl)
  | error fault => exact error (carries fault (met.failed rfl))

end Meets

namespace Files

/-! ## Texts that can be names -/

/-- A text without null characters. -/
def IsFree (text : String) : Prop :=
  '\x00' ∉ text.toList

instance (text : String) : Decidable (IsFree text) :=
  inferInstanceAs (Decidable ('\x00' ∉ text.toList))

theorem isFree_iff {text : String} : IsFree text ↔ isUnnamable text = false := by
  simp [IsFree, isUnnamable]

theorem IsFree.append {text other : String} (free : IsFree text) (other_free : IsFree other) :
    IsFree (text ++ other) := by
  simp only [IsFree, String.toList_append, List.mem_append, not_or] at *
  exact ⟨free, other_free⟩

theorem mem_of_mem_splitAt {separator c : Char} {text piece : List Char}
    (mem : piece ∈ Text.splitAt separator text) (inside : c ∈ piece) : c ∈ text := by
  induction text generalizing piece with
  | nil =>
      rw [List.mem_singleton.1 mem] at inside
      cases inside
  | cons first rest ih =>
      rw [Text.splitAt] at mem
      split at mem
      · rcases List.mem_cons.1 mem with rfl | later
        · cases inside
        · exact List.mem_cons_of_mem _ (ih later inside)
      · cases pieces_eq : Text.splitAt separator rest with
        | nil =>
            rw [pieces_eq, Text.consFirst, List.mem_singleton] at mem
            rw [mem, List.mem_singleton] at inside
            exact inside ▸ List.mem_cons_self
        | cons next pieces =>
            rw [pieces_eq] at ih mem
            rcases List.mem_cons.1 mem with rfl | later
            · rcases List.mem_cons.1 inside with rfl | deeper
              · exact List.mem_cons_self
              · exact List.mem_cons_of_mem _ (ih List.mem_cons_self deeper)
            · exact List.mem_cons_of_mem _ (ih (List.mem_cons_of_mem _ later) inside)

theorem IsFree.pathNames {path : String} (free : IsFree path) :
    ∀ name ∈ pathNames path, IsFree name := by
  intro name among inside
  obtain ⟨piece, piece_mem, rfl⟩ := List.mem_map.1 (List.mem_filter.1 among).1
  rw [String.toList_ofList] at inside
  exact free (mem_of_mem_splitAt piece_mem inside)

theorem isFree_intercalate {separator : String} (separator_free : IsFree separator)
    {names : List String} (free : ∀ name ∈ names, IsFree name) :
    IsFree (separator.intercalate names) := by
  induction names with
  | nil => simp [IsFree]
  | cons first rest ih =>
      rw [List.forall_mem_cons] at free
      cases rest with
      | nil => simpa using free.1
      | cons second rest =>
          rw [String.intercalate_cons_cons]
          exact (free.1.append separator_free).append (ih free.2)

theorem isFree_pathOf {lead : String} {names : List String} (lead_free : IsFree lead)
    (free : ∀ name ∈ names, IsFree name) : IsFree (pathOf lead names) := by
  unfold pathOf
  split
  · decide
  · exact lead_free.append (isFree_intercalate (by decide) free)

theorem isFree_leadOf (path : String) : IsFree (leadOf path) := by
  unfold leadOf
  split <;> decide

theorem IsFree.cleanPath {path : String} (free : IsFree path) : IsFree (cleanPath path) :=
  isFree_pathOf (isFree_leadOf path) free.pathNames

theorem IsFree.parentPath {path : String} (free : IsFree path) : IsFree (parentPath path) :=
  isFree_pathOf (isFree_leadOf path)
    fun name mem => free.pathNames name (List.dropLast_subset _ mem)

theorem IsFree.joinPath {folder name : String} (free : IsFree folder) (name_free : IsFree name) :
    IsFree (joinPath folder name) := by
  unfold Files.joinPath
  split
  · exact name_free
  · split
    · exact free.append name_free
    · exact (free.append (by decide)).append name_free

/-! ## Trees whose names can be names -/

mutual

/-- Whether no name in an entry has a null character. -/
def Entry.isNamable : Entry → Bool
  | .file _ => true
  | .folder entries => areNamable entries

/-- Whether no name among some entries has a null character. -/
def areNamable : List (String × Entry) → Bool
  | [] => true
  | (name, entry) :: rest => !isUnnamable name && entry.isNamable && areNamable rest

end

theorem areNamable_cons {name : String} {entry : Entry} {rest : List (String × Entry)} :
    areNamable ((name, entry) :: rest) = true ↔
      IsFree name ∧ entry.isNamable = true ∧ areNamable rest = true := by
  simp [areNamable, isFree_iff, and_assoc]

theorem isNamable_of_entryNamed? {name : String} {entries : List (String × Entry)} {entry : Entry}
    (namable : areNamable entries = true) (found : entryNamed? name entries = some entry) :
    entry.isNamable = true := by
  induction entries with
  | nil => cases found
  | cons first rest ih =>
      obtain ⟨-, first_namable, rest_namable⟩ := areNamable_cons.1 namable
      rw [entryNamed?] at found
      split at found
      · exact Option.some.inj found ▸ first_namable
      · exact ih rest_namable found

theorem areNamable_setEntry {name : String} {entry : Entry} {entries : List (String × Entry)}
    (free : IsFree name) (entry_namable : entry.isNamable = true)
    (namable : areNamable entries = true) : areNamable (setEntry name entry entries) = true := by
  induction entries with
  | nil => exact areNamable_cons.2 ⟨free, entry_namable, rfl⟩
  | cons first rest ih =>
      obtain ⟨first_free, first_namable, rest_namable⟩ := areNamable_cons.1 namable
      rw [setEntry]
      split
      · exact areNamable_cons.2 ⟨free, entry_namable, rest_namable⟩
      · split
        · exact areNamable_cons.2 ⟨free, entry_namable, namable⟩
        · exact areNamable_cons.2 ⟨first_free, first_namable, ih rest_namable⟩

theorem Entry.isNamable_of_at? {place : List String} {top entry : Entry}
    (namable : top.isNamable = true) (found : top.at? place = some entry) :
    entry.isNamable = true := by
  induction place generalizing top with
  | nil => exact Option.some.inj found ▸ namable
  | cons name names ih =>
      cases top with
      | file content => cases found
      | folder entries =>
          obtain ⟨next, next_found, deeper⟩ := Option.bind_eq_some_iff.1 found
          exact ih (isNamable_of_entryNamed? namable next_found) deeper

theorem Entry.isNamable_put {new top : Entry} {place : List String}
    (new_namable : new.isNamable = true) (free : ∀ name ∈ place, IsFree name)
    (namable : top.isNamable = true) : (Entry.put new place top).isNamable = true := by
  induction place generalizing top with
  | nil => exact new_namable
  | cons name names ih =>
      rw [List.forall_mem_cons] at free
      cases top with
      | file content => rfl
      | folder entries =>
          have old_namable : ((entryNamed? name entries).getD .empty).isNamable = true := by
            cases found : entryNamed? name entries with
            | none => rfl
            | some old => exact isNamable_of_entryNamed? namable found
          exact areNamable_setEntry free.1 (ih free.2 old_namable) namable

/-- Whether no name on a disk has a null character. -/
def Disk.isNamable (disk : Disk) : Bool :=
  disk.top.isNamable && disk.here.all (!isUnnamable ·)

theorem Disk.isNamable_iff {disk : Disk} :
    disk.isNamable = true ↔ disk.top.isNamable = true ∧ ∀ name ∈ disk.here, IsFree name := by
  simp [isNamable, isFree_iff]

theorem Disk.isFree_start {disk : Disk} (namable : disk.isNamable = true) (path : String) :
    ∀ name ∈ disk.start path, IsFree name := by
  unfold start
  split
  · simp
  · exact (isNamable_iff.1 namable).2

/-! ## What a change of the tree spares -/

theorem entryNamed?_setEntry (name other : String) (entry : Entry)
    (entries : List (String × Entry)) :
    entryNamed? other (setEntry name entry entries) =
      if name = other then some entry else entryNamed? other entries := by
  induction entries with
  | nil => simp [setEntry, entryNamed?]
  | cons first rest ih =>
      simp only [setEntry]
      split_ifs with same smaller here here here <;> simp_all [entryNamed?]

/-- A change of the files that keeps folders with their names, and with them the working
folder, and brings in no null character. -/
structure Spares (before after : Disk) : Prop where
  here : after.here = before.here
  folders : ∀ {place entries}, before.top.at? place = some (.folder entries) →
    ∃ later, after.top.at? place = some (.folder later) ∧
      ∀ name, (entryNamed? name entries).isSome → (entryNamed? name later).isSome
  namable : before.isNamable = true → after.isNamable = true

theorem Spares.refl (disk : Disk) : Spares disk disk :=
  ⟨rfl, fun found => ⟨_, found, fun _ => id⟩, id⟩

theorem Spares.trans {first second third : Disk} (start : Spares first second)
    (rest : Spares second third) : Spares first third where
  here := rest.here.trans start.here
  folders found := by
    obtain ⟨later, later_found, keeps⟩ := start.folders found
    obtain ⟨last, last_found, keeps_on⟩ := rest.folders later_found
    exact ⟨last, last_found, fun name held => keeps_on name (keeps name held)⟩
  namable := rest.namable ∘ start.namable

/-- An entry that is put where no folder is leaves the folders alone. -/
theorem folders_put {new top : Entry} {place : List String}
    (no_folder : ∀ entries, top.at? place ≠ some (.folder entries)) {other : List String}
    {entries : List (String × Entry)} (found : top.at? other = some (.folder entries)) :
    ∃ later, (Entry.put new place top).at? other = some (.folder later) ∧
      ∀ name, (entryNamed? name entries).isSome → (entryNamed? name later).isSome := by
  -- Both paths are followed together.  Where they part, nothing changes behind the other name;
  -- where the other one ends first, its folder gains a name at most.
  induction place generalizing top other with
  | nil =>
      cases top with
      | folder held => exact absurd rfl (no_folder held)
      | file content => cases other <;> cases found
  | cons name names ih =>
      cases top with
      | file content => exact ⟨entries, found, fun _ => id⟩
      | folder held =>
          cases other with
          | nil =>
              cases found
              refine ⟨_, rfl, fun wanted present => ?_⟩
              rw [entryNamed?_setEntry]
              split_ifs
              · rfl
              · exact present
          | cons step steps =>
              obtain ⟨next, next_found, deeper⟩ := Option.bind_eq_some_iff.1 found
              simp only [Entry.put, Entry.at?, entryNamed?_setEntry]
              by_cases same : name = step
              · subst same
                rw [if_pos rfl, next_found]
                refine ih (fun inner at_inner => no_folder inner ?_) deeper
                rw [Entry.at?, next_found]
                exact at_inner
              · rw [if_neg same, next_found]
                exact ⟨entries, deeper, fun _ => id⟩

theorem spares_put {new : Entry} {disk : Disk} {place : List String}
    (no_folder : ∀ entries, disk.top.at? place ≠ some (.folder entries))
    (new_namable : new.isNamable = true)
    (free : disk.isNamable = true → ∀ name ∈ place, IsFree name) :
    Spares disk (disk.put new place) where
  here := rfl
  folders := folders_put no_folder
  namable namable := by
    obtain ⟨top_namable, here_free⟩ := Disk.isNamable_iff.1 namable
    exact Disk.isNamable_iff.2
      ⟨Entry.isNamable_put new_namable (free namable) top_namable, here_free⟩

theorem Spares.start {before after : Disk} (spares : Spares before after) (path : String) :
    after.start path = before.start path := by
  rw [Disk.start, Disk.start, spares.here]

/-- A path that can be followed leads to the same place after a change. -/
theorem Spares.follow {before after : Disk} (spares : Spares before after)
    {names place result : List String} (followed : follow before.top place names = .ok result) :
    follow after.top place names = .ok result := by
  induction names generalizing place with
  | nil => exact followed
  | cons name names ih =>
      rw [Files.follow] at followed ⊢
      split at followed
      · rename_i entries found
        obtain ⟨later, later_found, keeps⟩ := spares.folders found
        simp only [later_found]
        split_ifs at followed ⊢
        · exact ih followed
        · split at followed
          · rename_i entry named
            obtain ⟨other, other_named⟩ :=
              Option.isSome_iff_exists.1 (keeps name (by rw [named]; rfl))
            rw [other_named]
            exact ih followed
          · cases followed
      · cases followed
      · cases followed

theorem entryAt_eq_folder_iff {disk : Disk} {path : String} {entries : List (String × Entry)} :
    entryAt disk path = .ok (.folder entries) ↔ pathProblem? path = none ∧
      ∃ place, follow disk.top (disk.start path) (pathNames path) = .ok place ∧
        disk.top.at? place = some (.folder entries) := by
  unfold entryAt
  cases pathProblem? path with
  | some problem => simp
  | none =>
      cases followed : follow disk.top (disk.start path) (pathNames path) with
      | error problem => simp [bind, Except.bind]
      | ok place =>
          cases found : disk.top.at? place with
          | none => simp [bind, Except.bind, found]
          | some entry =>
              cases entry with
              | folder held => simp [bind, Except.bind, found]
              | file content => cases endsAsFolder path <;> simp [bind, Except.bind, found]

theorem isFolderAt_iff {disk : Disk} {path : String} :
    isFolderAt disk path = true ↔ ∃ entries, entryAt disk path = .ok (.folder entries) := by
  unfold isFolderAt
  cases entryAt disk path with
  | error problem => simp
  | ok entry => cases entry <;> simp [Entry.isFolder]

theorem Spares.isFolderAt {before after : Disk} (spares : Spares before after) {path : String}
    (found : isFolderAt before path = true) : isFolderAt after path = true := by
  obtain ⟨entries, found⟩ := isFolderAt_iff.1 found
  obtain ⟨sound, place, followed, at_place⟩ := entryAt_eq_folder_iff.1 found
  obtain ⟨later, later_found, -⟩ := spares.folders at_place
  rw [← spares.start path] at followed
  exact isFolderAt_iff.2
    ⟨later, entryAt_eq_folder_iff.2 ⟨sound, place, spares.follow followed, later_found⟩⟩

/-! ## Places without null characters -/

theorem follow_ne_unnamable (top : Entry) (place names : List String) :
    follow top place names ≠ .error .unnamable := by
  induction names generalizing place with
  | nil => simp [follow]
  | cons name names ih =>
      rw [follow]
      split
      · split_ifs
        · exact ih _
        · simp
        · split
          · exact ih _
          · simp
      · simp
      · simp

theorem isFree_of_mem_concat {names : List String} {last : String}
    (free : ∀ name ∈ names, IsFree name) (last_free : IsFree last) :
    ∀ name ∈ names ++ [last], IsFree name := by
  intro name mem
  rcases List.mem_append.1 mem with before | here
  · exact free name before
  · exact List.mem_singleton.1 here ▸ last_free

theorem isFree_of_follow {top : Entry} {names place result : List String}
    (place_free : ∀ name ∈ place, IsFree name) (free : ∀ name ∈ names, IsFree name)
    (followed : follow top place names = .ok result) : ∀ name ∈ result, IsFree name := by
  induction names generalizing place with
  | nil =>
      cases followed
      exact place_free
  | cons name names ih =>
      rw [List.forall_mem_cons] at free
      rw [follow] at followed
      split at followed
      · split_ifs at followed
        · exact ih (fun other mem => place_free other (List.dropLast_subset _ mem)) free.2 followed
        · split at followed
          · exact ih (isFree_of_mem_concat place_free free.1) free.2 followed
          · cases followed
      · cases followed
      · cases followed

theorem isFree_of_pathProblem? {path : String} (sound : pathProblem? path = none) :
    IsFree path := by
  rw [isFree_iff, Bool.eq_false_iff]
  intro unnamable
  rw [pathProblem?, if_pos unnamable] at sound
  cases sound

theorem isFree_of_isFolderAt {disk : Disk} {path : String} (found : isFolderAt disk path = true) :
    IsFree path := by
  obtain ⟨entries, at_path⟩ := isFolderAt_iff.1 found
  exact isFree_of_pathProblem? (entryAt_eq_folder_iff.1 at_path).1

theorem pathProblem?_ne_unnamable {path : String} (free : IsFree path) :
    pathProblem? path ≠ some .unnamable := by
  rw [pathProblem?, if_neg (by rw [isFree_iff.1 free]; decide)]
  split_ifs <;> decide

/-- The place for a path: plain names without null characters, or a problem, which is reported
unless the path has a null character. -/
theorem meets_placeFor (disk : Disk) (path : String) :
    Meets (fun place => disk.isNamable = true → ∀ name ∈ place, IsFree name)
      (fun problem => IsFree path → problem ≠ .unnamable) (placeFor disk path) := by
  unfold placeFor
  split
  · rename_i problem problem_eq
    exact .error fun free same =>
      pathProblem?_ne_unnamable free (problem_eq.trans (congrArg some same))
  · rename_i sound
    have names_free := (isFree_of_pathProblem? sound).pathNames
    have follows {names : List String} (among : names ⊆ pathNames path) :
        Meets (fun place => disk.isNamable = true → ∀ name ∈ place, IsFree name)
          (fun problem => IsFree path → problem ≠ .unnamable)
          (follow disk.top (disk.start path) names) :=
      ⟨fun followed namable => isFree_of_follow (disk.isFree_start namable path)
          (fun name mem => names_free name (among mem)) followed,
        fun failed _ same => follow_ne_unnamable _ _ _ (same ▸ failed)⟩
    dsimp only
    split
    · exact .ok fun namable => disk.isFree_start namable path
    · rename_i last last_eq
      refine (follows (List.dropLast_subset _)).bind fun parent parent_free => ?_
      split
      · exact follows (List.Subset.refl _)
      · split
        · split
          · exact .error fun _ => Problem.noConfusion
          · exact .ok fun namable => isFree_of_mem_concat (parent_free namable) <|
              names_free last (List.mem_of_getLast? last_eq)
        · exact .error fun _ => Problem.noConfusion
        · exact .error fun _ => Problem.noConfusion

/-! ## Writing spares -/

theorem isReported_of_ne {problem : Problem} {path : String} (other : problem ≠ .unnamable) :
    (PathProblem.mk problem path).isReported = true := by
  cases problem with
  | unnamable => exact absurd rfl other
  | _ => rfl

/-- What comes of changing the tree at a path: a tree that spares what was there, or a problem,
which is reported unless the path has a null character. -/
abbrev IsGrowth (path : String) (before : Disk) (outcome : Except PathProblem Disk) : Prop :=
  Meets (Spares before) (fun problem => IsFree path → problem.isReported = true) outcome

theorem isGrowth_writeFile (disk : Disk) (path : String) (content : List UInt8) :
    IsGrowth path disk (writeFile disk path content) := by
  unfold writeFile
  split
  · rename_i problem placed
    exact .error fun free => isReported_of_ne ((meets_placeFor disk path).failed placed free)
  · rename_i place placed
    split
    · exact .error fun _ => rfl
    · rename_i no_folder
      exact .ok (spares_put no_folder rfl ((meets_placeFor disk path).given placed))

theorem spares_appendFile {before after : Disk} {path : String} {content : List UInt8}
    (wrote : appendFile before path content = .ok after) : Spares before after :=
  (isGrowth_writeFile before path _).given wrote

theorem isGrowth_makeFolder (disk : Disk) (path : String) :
    Meets (Spares disk) (fun problem => IsFree path → problem ≠ .unnamable)
      (makeFolder disk path) := by
  unfold makeFolder
  cases placed : placeFor disk path with
  | error problem => exact .error fun free => (meets_placeFor disk path).failed placed free
  | ok place =>
      simp only [bind, Except.bind]
      split
      · exact .error fun _ => Problem.noConfusion
      · rename_i nothing
        have met := (meets_placeFor disk path).given placed
        refine .ok (spares_put (fun entries found => ?_) rfl met)
        rw [nothing] at found
        cases found

/-- A folder that cannot be made may be there. -/
theorem isGrowth_orFound {before around : Disk} {path : String} {problem : Problem}
    (spares : Spares before around) (failed : makeFolder around path = .error problem) :
    IsGrowth path before
      (if isFolderAt around path then .ok around else .error ⟨problem, path⟩) := by
  split
  · exact .ok spares
  · exact .error fun free => isReported_of_ne ((isGrowth_makeFolder around path).failed failed free)

theorem isGrowth_makeFoldersIn (steps : Nat) (disk : Disk) (path : String) :
    IsGrowth path disk (makeFoldersIn steps disk path) := by
  induction steps generalizing path with
  | zero =>
      unfold makeFoldersIn
      split
      · rename_i made_eq
        exact .ok ((isGrowth_makeFolder disk path).given made_eq)
      · exact .error fun _ => rfl
      · rename_i failed
        exact isGrowth_orFound (.refl disk) failed
  | succ steps ih =>
      unfold makeFoldersIn
      split
      · rename_i made_eq
        exact .ok ((isGrowth_makeFolder disk path).given made_eq)
      · dsimp only
        cases around_eq : makeFoldersIn steps disk (parentPath path) with
        | error problem =>
            exact .error fun free => (ih _).failed around_eq (IsFree.parentPath free)
        | ok around =>
            have around_spares := (ih _).given around_eq
            simp only [bind, Except.bind]
            split
            · rename_i made_eq
              exact .ok (around_spares.trans ((isGrowth_makeFolder around path).given made_eq))
            · rename_i failed
              exact isGrowth_orFound around_spares failed
      · rename_i failed
        exact isGrowth_orFound (.refl disk) failed

theorem isGrowth_makeFolders (disk : Disk) (path : String) :
    IsGrowth path disk (makeFolders disk path) :=
  have growth := isGrowth_makeFoldersIn (pathNames path).length disk (cleanPath path)
  ⟨growth.given, fun failed free => growth.failed failed (IsFree.cleanPath free)⟩

/-! ## Searching -/

theorem isFree_filesHere {suffix path : String} {entries : List (String × Entry)}
    (free : IsFree path) (namable : areNamable entries = true) :
    ∀ found ∈ filesHere suffix path entries, IsFree found := by
  induction entries with
  | nil => simp [filesHere]
  | cons first rest ih =>
      obtain ⟨first_free, -, rest_namable⟩ := areNamable_cons.1 namable
      intro found mem
      obtain ⟨entry, entry_mem, rfl⟩ := List.mem_map.1 mem
      obtain ⟨entry_mem, kept⟩ := List.mem_filter.1 entry_mem
      rcases List.mem_cons.1 entry_mem with rfl | later
      · exact free.joinPath first_free
      · exact ih rest_namable _ (List.mem_map_of_mem (List.mem_filter.2 ⟨later, kept⟩))

mutual

theorem isFree_filesUnder {suffix path : String} (free : IsFree path) :
    (entry : Entry) → entry.isNamable = true →
      ∀ found ∈ filesUnder suffix path entry, IsFree found
  | .file _, _ => by simp [filesUnder]
  | .folder entries, namable => by
      intro found mem
      rw [filesUnder] at mem
      split at mem
      · cases mem
      · rcases List.mem_append.1 mem with here | below
        · exact isFree_filesHere free namable found here
        · exact isFree_filesBelow free entries namable found below

theorem isFree_filesBelow {suffix path : String} (free : IsFree path) :
    (entries : List (String × Entry)) → areNamable entries = true →
      ∀ found ∈ filesBelow suffix path entries, IsFree found
  | [], _ => by simp [filesBelow]
  | (name, entry) :: rest, namable => by
      obtain ⟨name_free, entry_namable, rest_namable⟩ := areNamable_cons.1 namable
      intro found mem
      rw [filesBelow] at mem
      rcases List.mem_append.1 mem with inside | later
      · exact isFree_filesUnder (free.joinPath name_free) entry entry_namable found inside
      · exact isFree_filesBelow free rest rest_namable found later

end

/-- What is found among entries is found in the first one, or else among the
others. -/
theorem fst_fileAmong_cons (target path name : String) (entry : Entry)
    (rest : List (String × Entry)) :
    (fileAmong target path ((name, entry) :: rest)).1 =
      if entry.isFolder then
        (fileUnder target (joinPath path name) entry).1.or (fileAmong target path rest).1
      else if name = target then some (joinPath path name)
      else (fileAmong target path rest).1 := by
  rw [fileAmong]
  split
  · rcases fileUnder target (joinPath path name) entry with ⟨_ | found, log⟩ <;> rfl
  · split <;> rfl

mutual

theorem isFree_fileUnder {target path found : String} (free : IsFree path) :
    (entry : Entry) → entry.isNamable = true → (fileUnder target path entry).1 = some found →
      IsFree found
  | .file _, _, under => by
      rw [fileUnder] at under
      cases under
  | .folder entries, namable, under => by
      rw [fileUnder] at under
      split at under
      · cases under
      · exact isFree_fileAmong free entries namable under

theorem isFree_fileAmong {target path found : String} (free : IsFree path) :
    (entries : List (String × Entry)) → areNamable entries = true →
      (fileAmong target path entries).1 = some found → IsFree found
  | [], _, among => by
      rw [fileAmong] at among
      cases among
  | (name, entry) :: rest, namable, among => by
      obtain ⟨name_free, entry_namable, rest_namable⟩ := areNamable_cons.1 namable
      have here_free := free.joinPath name_free
      rw [fst_fileAmong_cons] at among
      split_ifs at among
      · rcases Option.or_eq_some_iff.1 among with inside | ⟨-, later⟩
        · exact isFree_fileUnder here_free entry entry_namable inside
        · exact isFree_fileAmong free rest rest_namable later
      · exact Option.some.inj among ▸ here_free
      · exact isFree_fileAmong free rest rest_namable among

end

theorem isFree_of_listFolder {disk : Disk} {path : String} {entries : List (String × Entry)}
    (namable : disk.isNamable = true) (listed : listFolder disk path = .ok entries) :
    IsFree path ∧ areNamable entries = true := by
  unfold listFolder at listed
  split at listed
  · rename_i found
    cases listed
    obtain ⟨sound, place, -, at_place⟩ := entryAt_eq_folder_iff.1 found
    have top_namable := (Disk.isNamable_iff.1 namable).1
    exact ⟨isFree_of_pathProblem? sound, Entry.isNamable_of_at? top_namable at_place⟩
  · cases listed
  · cases listed

theorem isFree_sourceFiles {disk : Disk} {suffix path : String} (namable : disk.isNamable = true) :
    ∀ found ∈ sourceFiles disk suffix path, IsFree found := by
  unfold sourceFiles
  split
  · rename_i entries listed
    obtain ⟨free, entries_namable⟩ := isFree_of_listFolder namable listed
    exact isFree_filesUnder free _ entries_namable
  · simp

theorem isFree_sourceFileOf {disk : Disk} {suffix path typeName found : String}
    (namable : disk.isNamable = true)
    (found_eq : (sourceFileOf disk suffix path typeName).1 = some found) : IsFree found := by
  unfold sourceFileOf at found_eq
  split at found_eq
  · rename_i entries listed
    obtain ⟨free, entries_namable⟩ := isFree_of_listFolder namable listed
    exact isFree_fileAmong free _ entries_namable found_eq
  · cases found_eq

/-! ## Reading -/

/-- Where a path leads to no entry, it cannot be named or followed, or nothing of its kind
stands at its end. -/
theorem problem_of_entryAt {disk : Disk} {path : String} {problem : Problem}
    (failed : entryAt disk path = .error problem) :
    pathProblem? path = some problem ∨
      follow disk.top (disk.start path) (pathNames path) = .error problem ∨
        problem = .noFolder ∨ problem = .missing := by
  unfold entryAt at failed
  split at failed
  · rename_i found
    cases failed
    exact .inl found
  · cases followed : follow disk.top (disk.start path) (pathNames path) with
    | error cause =>
        rw [followed] at failed
        cases failed
        exact .inr (.inl rfl)
    | ok place =>
        simp only [followed, bind, Except.bind] at failed
        split at failed
        · split_ifs at failed
          cases failed
          exact .inr (.inr (.inl rfl))
        · cases failed
        · cases failed
          exact .inr (.inr (.inr rfl))

theorem entryAt_ne_unnamable {disk : Disk} {path : String} {problem : Problem} (free : IsFree path)
    (failed : entryAt disk path = .error problem) : problem ≠ .unnamable := by
  rcases problem_of_entryAt failed with found | followed | rfl | rfl
  · rintro rfl
    exact pathProblem?_ne_unnamable free found
  · rintro rfl
    exact follow_ne_unnamable _ _ _ followed
  · exact Problem.noConfusion
  · exact Problem.noConfusion

theorem isReported_of_readText {disk : Disk} {path : String} {problem : PathProblem}
    (free : IsFree path) (failed : readText disk path = .error (.path problem)) :
    problem.isReported = true := by
  unfold readText readBytes at failed
  cases found : entryAt disk path with
  | error cause =>
      rw [found] at failed
      cases failed
      exact isReported_of_ne (entryAt_ne_unnamable free found)
  | ok entry =>
      cases entry with
      | folder entries =>
          rw [found] at failed
          cases failed
          rfl
      | file content =>
          simp only [found, Except.mapError, bind, Except.bind] at failed
          cases decoded : Text.Utf8.decode content with
          | ok text =>
              rw [decoded] at failed
              cases failed
          | error fault =>
              rw [decoded] at failed
              cases failed

/-- Whether a path and its names are no longer than any can be. -/
def isShort (path : String) : Bool :=
  path.utf8ByteSize ≤ greatestPath && (pathNames path).all (!isLongName ·)

theorem exists_isLongName_of_follow {top : Entry} {place names : List String}
    (failed : follow top place names = .error .tooLong) :
    ∃ name ∈ names, isLongName name = true := by
  induction names generalizing place with
  | nil => cases failed
  | cons name names ih =>
      rw [follow] at failed
      split at failed
      · split_ifs at failed with back long
        · obtain ⟨other, mem, long⟩ := ih failed
          exact ⟨other, List.mem_cons_of_mem _ mem, long⟩
        · exact ⟨name, List.mem_cons_self, long⟩
        · split at failed
          · obtain ⟨other, mem, long⟩ := ih failed
            exact ⟨other, List.mem_cons_of_mem _ mem, long⟩
          · cases failed
      · cases failed
      · cases failed

theorem pathProblem?_ne_tooLong {path : String} (short : isShort path = true) :
    pathProblem? path ≠ some .tooLong := by
  have within := (Bool.and_eq_true_iff.1 short).1
  unfold pathProblem?
  split_ifs with unnamable empty long
  · decide
  · decide
  · exact absurd long (Nat.not_lt.2 (of_decide_eq_true within))
  · decide

theorem entryAt_ne_tooLong {disk : Disk} {path : String} (short : isShort path = true) :
    entryAt disk path ≠ .error .tooLong := by
  have all_short : ∀ name ∈ pathNames path, ¬isLongName name = true := by
    simpa using (Bool.and_eq_true_iff.1 short).2
  intro failed
  rcases problem_of_entryAt failed with found | followed | impossible | impossible
  · exact pathProblem?_ne_tooLong short found
  · obtain ⟨name, mem, long⟩ := exists_isLongName_of_follow followed
    exact all_short name mem long
  · cases impossible
  · cases impossible

theorem exists_isFileAt {path : String} (short : isShort path = true) (disk : Disk) :
    ∃ isFile, isFileAt disk path = .ok isFile := by
  have reachable : entryAt disk path ≠ .error .tooLong := entryAt_ne_tooLong short
  unfold isFileAt
  split
  · exact ⟨_, rfl⟩
  · rename_i failed
    exact absurd failed reachable
  · exact ⟨_, rfl⟩

end Files

end JavaUml
