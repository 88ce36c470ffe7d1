import JavaUml.Model.Index

/-!
# Looking up is scanning

An index answers from two tables, and which of them it opens depends on whether
the name has a dot in it.  The law has no tables: a name means every record whose
simple name or full name it is, and the first such record wins.

The two agree because full names differ, and because a simple name has no dot:
then a name with a dot can only be a full name, and a name without one can only
be a full name of the unnamed package, where it is the simple name as well.

Questions asked one after the other are treated at the end.  An answer is that of
the scan whatever was asked before, and an ambiguous name is reported at the first
question that decides on it.
-/

namespace JavaUml.Model

/-! ## The scan -/

/-- Whether a name is the simple name or the full name of a record. -/
def TypeRecord.isCalled (name : String) (record : TypeRecord) : Bool :=
  record.name == name || record.fullName == name

/-- The records that a name means, in extraction order. -/
def scan (records : List TypeRecord) (name : String) : List TypeRecord :=
  records.filter (TypeRecord.isCalled name)

/-- The answer of the scan to a question. -/
def scannedAnswer (records : List TypeRecord) : Query → Answer
  | .find name => .type (records.find? (TypeRecord.isCalled name))
  | .candidates name => .types (scan records name)
  | .hasSimpleName name => .truth (records.any fun record => record.name == name)
  | .component name =>
      .component ((records.find? (TypeRecord.isCalled name)).map TypeRecord.component)

/-- What a question leaves in the log after earlier ones: a message for a name
that means several records and was not decided on before. -/
def scannedLog (records : List TypeRecord) (earlier : List Query) (query : Query) :
    List LogEntry :=
  query.asked.flatMap fun name =>
    match scan records name with
    | first :: second :: rest =>
        if name ∈ earlier.flatMap Query.asked then []
        else [Index.ambiguityEntry name first (second :: rest)]
    | _ => []

/-! ## The tables -/

namespace Index

theorem get?_byFullName (index : Index) (name : String) :
    Ordered.get? name index.byFullName =
      index.types.records.find? fun record => record.fullName == name := by
  have keys : (index.types.records.map fun record => (record.fullName, record)).map Prod.fst =
      index.types.records.map TypeRecord.fullName := by
    rw [List.map_map]
    rfl
  rw [byFullName, Ordered.get?_ofList _ _ (keys ▸ index.types.distinct), List.find?_map,
    Option.map_map]
  simp only [Function.comp_def, Option.map_id']
  rfl

theorem get?_enroll (groups : List (String × List TypeRecord)) (record : TypeRecord)
    (name : String) :
    Ordered.get? name (enroll groups record) =
      if record.name = name then some ((Ordered.get? name groups).getD [] ++ [record])
      else Ordered.get? name groups := by
  rw [enroll, Ordered.get?_put]
  split
  · rename_i same
    rw [same]
  · rfl

theorem getD_foldl_enroll (records : List TypeRecord)
    (groups : List (String × List TypeRecord)) (name : String) :
    (Ordered.get? name (records.foldl enroll groups)).getD [] =
      (Ordered.get? name groups).getD [] ++
        records.filter fun record => record.name == name := by
  induction records generalizing groups with
  | nil => simp
  | cons record rest ih =>
      rw [List.foldl_cons, ih, get?_enroll]
      by_cases same : record.name = name <;> simp [same]

theorem isSome_foldl_enroll (records : List TypeRecord)
    (groups : List (String × List TypeRecord)) (name : String) :
    (Ordered.get? name (records.foldl enroll groups)).isSome =
      ((Ordered.get? name groups).isSome || records.any fun record => record.name == name) := by
  induction records generalizing groups with
  | nil => simp
  | cons record rest ih =>
      rw [List.foldl_cons, ih, get?_enroll, List.any_cons]
      by_cases same : record.name = name
      · simp [same]
      · have differ : (record.name == name) = false := beq_false_of_ne same
        simp [same, differ]

/-- The records listed under a simple name are those of that name. -/
theorem getD_bySimpleName (index : Index) (name : String) :
    (Ordered.get? name index.bySimpleName).getD [] =
      index.types.records.filter fun record => record.name == name := by
  rw [bySimpleName, getD_foldl_enroll]
  simp [Ordered.get?_nil]

theorem hasSimpleName_eq_any (index : Index) (name : String) :
    index.hasSimpleName name = index.types.records.any fun record => record.name == name := by
  rw [hasSimpleName, bySimpleName, isSome_foldl_enroll]
  simp [Ordered.get?_nil]

/-- The candidates of a name, without the tables. -/
theorem candidates_eq (index : Index) (name : String) :
    index.candidates name =
      if name = "" then []
      else if Java.isDotted name then
        (index.types.records.find? fun record => record.fullName == name).toList
      else index.types.records.filter fun record => record.name == name := by
  rw [candidates, get?_byFullName, getD_bySimpleName]

theorem mem_of_find? {index : Index} {name : String} {record : TypeRecord}
    (found : index.find? name = some record) : record ∈ index.types.records := by
  rw [find?, candidates_eq] at found
  split at found
  · simp at found
  · split at found
    · rw [Option.head?_toList] at found
      exact List.mem_of_find?_eq_some found
    · exact (List.mem_filter.1 (List.mem_of_head? found)).1

end Index

/-! ## Names with and without a dot -/

/-- A name of a type as it stands in a declaration. -/
def IsSimple (name : String) : Prop :=
  name ≠ "" ∧ Java.isDotted name = false

instance (name : String) : Decidable (IsSimple name) :=
  inferInstanceAs (Decidable (name ≠ "" ∧ Java.isDotted name = false))

theorem isDotted_nameIn {package : String} (named : package ≠ "") (name : String) :
    Java.isDotted (Java.nameIn package name) = true := by
  simp [Java.isDotted, Java.nameIn, named]

theorem TypeRecord.fullName_of_unnamed {record : TypeRecord} (unnamed : record.package = "") :
    record.fullName = record.name := by
  rw [fullName, Java.nameIn, if_pos unnamed]

/-- A full name without a dot is a simple name. -/
theorem TypeRecord.fullName_eq_name {record : TypeRecord}
    (undotted : Java.isDotted record.fullName = false) : record.fullName = record.name := by
  by_cases unnamed : record.package = ""
  · exact fullName_of_unnamed unnamed
  · rw [fullName, isDotted_nameIn unnamed] at undotted
    contradiction

theorem TypeRecord.fullName_ne_empty {record : TypeRecord} (simple : IsSimple record.name) :
    record.fullName ≠ "" := by
  intro empty
  have undotted : Java.isDotted record.fullName = false := by
    rw [empty]
    rfl
  exact simple.1 ((fullName_eq_name undotted).symm.trans empty)

theorem TypeRecord.isCalled_empty {record : TypeRecord} (simple : IsSimple record.name) :
    record.isCalled "" = false := by
  simp [isCalled, simple.1, fullName_ne_empty simple]

theorem TypeRecord.isCalled_dotted {record : TypeRecord} (simple : IsSimple record.name)
    {name : String} (dotted : Java.isDotted name = true) :
    record.isCalled name = (record.fullName == name) := by
  have differ : record.name ≠ name := by
    rintro rfl
    exact absurd dotted (by simp [simple.2])
  simp [isCalled, differ]

theorem TypeRecord.isCalled_undotted {record : TypeRecord} {name : String}
    (undotted : Java.isDotted name = false) :
    record.isCalled name = (record.name == name) := by
  by_cases called : record.fullName = name
  · have same : record.name = name := by
      rw [← called] at undotted
      exact (fullName_eq_name undotted).symm.trans called
    simp [isCalled, same]
  · simp [isCalled, called]

/-! ## Both agree -/

/-- Where the values of a key differ, at most one element has a given value. -/
theorem filter_eq_toList_find? {records : List TypeRecord}
    (distinct : (records.map TypeRecord.fullName).Nodup) (name : String) :
    records.filter (fun record => record.fullName == name) =
      (records.find? fun record => record.fullName == name).toList := by
  induction records with
  | nil => rfl
  | cons record rest ih =>
      simp only [List.map_cons, List.nodup_cons] at distinct
      by_cases called : record.fullName = name
      · have others : rest.filter (fun record => record.fullName == name) = [] := by
          simp only [List.filter_eq_nil_iff, beq_iff_eq]
          intro other mem same
          exact distinct.1 (List.mem_map.2 ⟨other, mem, same.trans called.symm⟩)
        simp [called, others]
      · simp [called, ih distinct.2]

namespace Index

variable {index : Index}

theorem candidates_eq_scan (simple : ∀ record ∈ index.types.records, IsSimple record.name)
    (name : String) : index.candidates name = scan index.types.records name := by
  rw [candidates_eq, scan]
  by_cases empty : name = ""
  · subst empty
    rw [if_pos rfl, eq_comm, List.filter_eq_nil_iff]
    intro record mem
    simp [TypeRecord.isCalled_empty (simple record mem)]
  · rw [if_neg empty]
    cases dotted : Java.isDotted name with
    | true =>
        rw [if_pos rfl, ← filter_eq_toList_find? index.types.distinct]
        apply List.filter_congr
        intro record mem
        exact (TypeRecord.isCalled_dotted (simple record mem) dotted).symm
    | false =>
        rw [if_neg Bool.false_ne_true]
        apply List.filter_congr
        intro record _
        exact (TypeRecord.isCalled_undotted dotted).symm

theorem find?_eq_scan (simple : ∀ record ∈ index.types.records, IsSimple record.name)
    (name : String) :
    index.find? name = index.types.records.find? (TypeRecord.isCalled name) := by
  rw [find?, candidates_eq_scan simple, scan, List.head?_filter]

theorem answer_eq_scannedAnswer
    (simple : ∀ record ∈ index.types.records, IsSimple record.name) (query : Query) :
    index.answer query = scannedAnswer index.types.records query := by
  cases query with
  | find name => rw [answer, find?_eq_scan simple, scannedAnswer]
  | candidates name => rw [answer, candidates_eq_scan simple, scannedAnswer]
  | hasSimpleName name => rw [answer, hasSimpleName_eq_any, scannedAnswer]
  | component name => rw [answer, componentOf?, find?_eq_scan simple, scannedAnswer]

/-! ## Questions in turn -/

theorem reports_single (reported : List String) (name : String) :
    index.reports reported [name] =
      match index.ambiguity? name with
      | none => ([], reported)
      | some entry =>
          if name ∈ reported then ([], reported) else ([entry], reported ++ [name]) := by
  rw [reports]
  cases index.ambiguity? name with
  | none => rfl
  | some entry =>
      by_cases known : name ∈ reported <;> simp [known, reports]

/-- The names reported so far are the ambiguous ones among those decided on. -/
def Remembers (index : Index) (reported : List String) (earlier : List Query) : Prop :=
  ∀ name, (index.ambiguity? name).isSome → (name ∈ reported ↔ name ∈ earlier.flatMap Query.asked)

theorem remembers_nil : index.Remembers [] [] := by
  intro name _
  simp

theorem Remembers.of_silent {reported : List String} {earlier : List Query} {query : Query}
    (remembers : index.Remembers reported earlier) (silent : query.asked = []) :
    index.Remembers reported (earlier ++ [query]) := by
  intro name ambiguous
  rw [remembers name ambiguous]
  simp [silent]

theorem Remembers.of_asked {reported : List String} {earlier : List Query} {query : Query}
    {name : String} (remembers : index.Remembers reported earlier)
    (asked : query.asked = [name]) :
    index.Remembers (index.reports reported [name]).2 (earlier ++ [query]) := by
  intro other ambiguous
  have before := remembers other ambiguous
  have after : other ∈ (earlier ++ [query]).flatMap Query.asked ↔
      other ∈ reported ∨ other = name := by
    rw [before]
    simp [asked]
  rw [after, reports_single]
  cases entry : index.ambiguity? name with
  | none =>
      have differ : other ≠ name := by
        rintro rfl
        simp [entry] at ambiguous
      simp [differ]
  | some message =>
      by_cases known : name ∈ reported
      · simp only [known, if_true]
        constructor
        · exact Or.inl
        · rintro (mem | rfl)
          · exact mem
          · exact known
      · simp [known]

theorem Remembers.step {reported : List String} {earlier : List Query}
    (remembers : index.Remembers reported earlier) (query : Query) :
    index.Remembers (index.reports reported query.asked).2 (earlier ++ [query]) := by
  cases query with
  | find name => exact remembers.of_asked rfl
  | candidates name => exact remembers.of_silent rfl
  | hasSimpleName name => exact remembers.of_silent rfl
  | component name => exact remembers.of_asked rfl

theorem reports_single_eq_scannedLog
    (simple : ∀ record ∈ index.types.records, IsSimple record.name)
    {reported : List String} {earlier : List Query} {query : Query} {name : String}
    (remembers : index.Remembers reported earlier) (asked : query.asked = [name]) :
    (index.reports reported [name]).1 = scannedLog index.types.records earlier query := by
  have known := remembers name
  rw [reports_single, scannedLog, asked]
  simp only [List.flatMap_cons, List.flatMap_nil, List.append_nil]
  rw [ambiguity?, candidates_eq_scan simple] at known ⊢
  match scanned : scan index.types.records name with
  | [] => rfl
  | [_] => rfl
  | first :: second :: rest =>
      have same := known (by rw [scanned]; rfl)
      by_cases mem : name ∈ reported
      · simp only [mem, if_true, if_pos (same.mp mem)]
      · simp only [mem, if_false, if_neg (mt same.mpr mem)]

theorem reports_eq_scannedLog
    (simple : ∀ record ∈ index.types.records, IsSimple record.name)
    {reported : List String} {earlier : List Query}
    (remembers : index.Remembers reported earlier) (query : Query) :
    (index.reports reported query.asked).1 = scannedLog index.types.records earlier query := by
  cases query with
  | find name => exact reports_single_eq_scannedLog simple remembers rfl
  | candidates name => rfl
  | hasSimpleName name => rfl
  | component name => exact reports_single_eq_scannedLog simple remembers rfl

theorem answers_after (simple : ∀ record ∈ index.types.records, IsSimple record.name)
    {reported : List String} {earlier : List Query}
    (remembers : index.Remembers reported earlier) (queries : List Query) :
    index.answers reported queries =
      queries.mapIdx fun position query =>
        (scannedAnswer index.types.records query,
          scannedLog index.types.records (earlier ++ queries.take position) query) := by
  induction queries generalizing reported earlier with
  | nil => rfl
  | cons query rest ih =>
      rw [answers, List.mapIdx_cons, answer_eq_scannedAnswer simple,
        reports_eq_scannedLog simple remembers, ih (remembers.step query)]
      simp

/-- Questions to one index are answered as the scan answers them, whatever was
asked before, and a name is reported at the first question that decides on it if
it means more than one record. -/
theorem answers_eq_scan (simple : ∀ record ∈ index.types.records, IsSimple record.name)
    (queries : List Query) :
    index.answers [] queries =
      queries.mapIdx fun position query =>
        (scannedAnswer index.types.records query,
          scannedLog index.types.records (queries.take position) query) := by
  simpa using answers_after simple remembers_nil queries

/-- Two types of one simple name in different packages, and one without a
package. -/
def twoItems : Index :=
  ⟨.ofRecords [{ TypeRecord.named "Item" with package := "a" },
    { TypeRecord.named "Item" with package := "b.c" }, TypeRecord.named "Box"]⟩

theorem answers_twoItems :
    (∀ record ∈ twoItems.types.records, IsSimple record.name) ∧
      twoItems.answers [] [.hasSimpleName "b.c.Item", .component "Item", .find "Item",
          .find "b.c.Item", .component "Box"] =
        [(.truth false, []),
          (.component (some "a"),
            [.debug "Ambiguous type name Item: a.Item, b.c.Item, using a.Item"]),
          (.type (some { TypeRecord.named "Item" with package := "a" }), []),
          (.type (some { TypeRecord.named "Item" with package := "b.c" }), []),
          (.component (some "(default)"), [])] := by
  have simple : ∀ record ∈ twoItems.types.records, IsSimple record.name := by decide
  exact ⟨simple, (answers_eq_scan simple _).trans (by decide)⟩

end Index

end JavaUml.Model
