import JavaUml.Extract.Analysis
import JavaUml.Proofs.Lists

/-!
# Units are taken whole

A run takes texts, files and folders in any order, and each of their units may be
a tree, a failure from which the run recovers, or a fault that ends the step.  The
first part says what one unit does to the catalogue.  The second part follows a
catalogue along the records that were committed to it: which names it has, which
record stands under each, and how many declarations were replaced.

The run theorem joins both.  It speaks about every prefix of the units that were
reached, so about every point of a run, also inside of a folder.
-/

namespace JavaUml.Model

/-! ## Storing one record -/

/-- The record under a full name. -/
def TypeMap.get? (types : TypeMap) (name : String) : Option TypeRecord :=
  types.records.find? fun record => record.fullName == name

theorem find?_storeIn (record : TypeRecord) (records : List TypeRecord) (name : String) :
    (storeIn record records).find? (fun record => record.fullName == name) =
      if record.fullName = name then some record
      else records.find? fun record => record.fullName == name := by
  induction records with
  | nil => by_cases called : record.fullName = name <;> simp [storeIn, called]
  | cons first rest ih =>
      by_cases same : first.fullName = record.fullName
      · by_cases called : record.fullName = name <;> simp [storeIn, same, called]
      · rw [storeIn, if_neg same, List.find?_cons, List.find?_cons, ih]
        by_cases called : first.fullName = name
        · have differ : ¬ record.fullName = name := fun other => same (called.trans other.symm)
          simp [called, differ]
        · simp [beq_false_of_ne called]

namespace TypeMap

@[simp]
theorem get?_store (types : TypeMap) (record : TypeRecord) (name : String) :
    (types.store record).get? name =
      if record.fullName = name then some record else types.get? name :=
  find?_storeIn record types.records name

@[simp]
theorem contains_eq_true_iff (types : TypeMap) (name : String) :
    types.contains name = true ↔ name ∈ types.keys := by
  simp [contains]

theorem keys_store (types : TypeMap) (record : TypeRecord) :
    (types.store record).keys =
      if record.fullName ∈ types.keys then types.keys else types.keys ++ [record.fullName] :=
  map_fullName_storeIn record types.records

end TypeMap

/-! ## Catalogues and what was committed to them -/

namespace Catalog

/-- The number of diagnostics about a second declaration. -/
def duplicateCount (catalog : Catalog) : Nat :=
  catalog.diagnostics.countP fun diagnostic => diagnostic.kind = .duplicateType

/-- A catalogue after the given records, in order, were committed to it: names in
the order of their first record, each with its last one, and every record is
either under its name or counted as replaced. -/
structure Holds (catalog : Catalog) (committed : List TypeRecord) : Prop where
  keys_eq : catalog.types.keys = (committed.map TypeRecord.fullName).eraseDups
  get?_eq : ∀ name, catalog.types.get? name =
    committed.reverse.find? fun record => record.fullName == name
  count_eq : catalog.types.keys.length + catalog.duplicateCount = committed.length

theorem holds_empty (trusted : List String) : (empty trusted).Holds [] where
  keys_eq := by simp [empty, TypeMap.empty, TypeMap.keys]
  get?_eq name := by simp [empty, TypeMap.empty, TypeMap.get?]
  count_eq := by simp [empty, TypeMap.empty, TypeMap.keys, duplicateCount]

@[simp]
theorem types_add (catalog : Catalog) (record : TypeRecord) :
    (catalog.add record).types = catalog.types.store record := by
  unfold add
  split <;> rfl

theorem diagnostics_add (catalog : Catalog) (record : TypeRecord) :
    (catalog.add record).diagnostics =
      if record.fullName ∈ catalog.types.keys then catalog.diagnostics ++ [duplicate record]
      else catalog.diagnostics := by
  unfold add
  by_cases taken : record.fullName ∈ catalog.types.keys
  · have contained : catalog.types.contains record.fullName = true := by simpa using taken
    simp [contained, taken, report]
  · have fresh : ¬ catalog.types.contains record.fullName = true :=
      mt (TypeMap.contains_eq_true_iff _ _).mp taken
    simp [fresh, taken]

/-- What one more record changes. -/
theorem Holds.add {catalog : Catalog} {committed : List TypeRecord}
    (holds : catalog.Holds committed) (record : TypeRecord) :
    (catalog.add record).Holds (committed ++ [record]) where
  keys_eq := by
    rw [types_add, TypeMap.keys_store, List.map_append, List.map_singleton, eraseDups_concat,
      holds.keys_eq]
    simp only [List.mem_eraseDups]
  get?_eq name := by
    rw [types_add, TypeMap.get?_store, holds.get?_eq, List.reverse_append,
      List.reverse_singleton, List.singleton_append, List.find?_cons]
    by_cases called : record.fullName = name
    · simp [called]
    · simp [called, beq_false_of_ne called]
  count_eq := by
    have before := holds.count_eq
    unfold duplicateCount at before ⊢
    rw [types_add, TypeMap.keys_store, diagnostics_add, List.length_append, List.length_singleton]
    by_cases taken : record.fullName ∈ catalog.types.keys
    · rw [if_pos taken, if_pos taken, List.countP_append]
      simp only [duplicate, List.countP_singleton, decide_true, if_true]
      omega
    · rw [if_neg taken, if_neg taken, List.length_append, List.length_singleton]
      omega

theorem Holds.addAll {catalog : Catalog} {committed : List TypeRecord}
    (holds : catalog.Holds committed) (records : List TypeRecord) :
    (catalog.addAll records).Holds (committed ++ records) := by
  induction records generalizing catalog committed with
  | nil => simpa [Catalog.addAll] using holds
  | cons record rest ih =>
      have more := ih (holds.add record)
      rwa [List.append_assoc, List.singleton_append] at more

theorem Holds.report {catalog : Catalog} {committed : List TypeRecord}
    (holds : catalog.Holds committed) {diagnostic : Diagnostic}
    (other : diagnostic.kind ≠ .duplicateType) : (catalog.report diagnostic).Holds committed where
  keys_eq := holds.keys_eq
  get?_eq := holds.get?_eq
  count_eq := by
    have before := holds.count_eq
    simpa [duplicateCount, Catalog.report, List.countP_append, other] using before

theorem types_addAll (catalog : Catalog) (records : List TypeRecord) :
    (catalog.addAll records).types = records.foldl TypeMap.store catalog.types := by
  induction records generalizing catalog with
  | nil => rfl
  | cons record rest ih =>
      change ((catalog.add record).addAll rest).types = _
      rw [ih, types_add, List.foldl_cons]

/-- Committing records appends diagnostics about second declarations. -/
theorem diagnostics_addAll (catalog : Catalog) (records : List TypeRecord) :
    ∃ replaced, (catalog.addAll records).diagnostics = catalog.diagnostics ++ replaced ∧
      ∀ diagnostic ∈ replaced, diagnostic.kind = .duplicateType := by
  induction records generalizing catalog with
  | nil => exact ⟨[], by simp [addAll], by simp⟩
  | cons record rest ih =>
      obtain ⟨later, eq, kinds⟩ := ih (catalog.add record)
      change ∃ replaced, ((catalog.add record).addAll rest).diagnostics = _ ∧ _
      rw [eq, diagnostics_add]
      by_cases taken : record.fullName ∈ catalog.types.keys
      · refine ⟨duplicate record :: later, by simp [taken], ?_⟩
        rintro diagnostic (_ | ⟨_, mem⟩)
        · rfl
        · exact kinds diagnostic mem
      · exact ⟨later, by simp [taken], kinds⟩

theorem trusted_add (catalog : Catalog) (record : TypeRecord) :
    (catalog.add record).trusted = catalog.trusted := by
  unfold add
  split <;> rfl

theorem trusted_addAll (catalog : Catalog) (records : List TypeRecord) :
    (catalog.addAll records).trusted = catalog.trusted := by
  induction records generalizing catalog with
  | nil => rfl
  | cons record rest ih => exact (ih (catalog.add record)).trans (catalog.trusted_add record)

end Catalog

end JavaUml.Model

namespace JavaUml.Extract

open JavaUml.Model

/-! ## What one unit does -/

/-- What becomes of a unit. -/
inductive Verdict where
  /-- Its records are committed. -/
  | commits (records : List TypeRecord)
  /-- It cannot be read or parsed, and the run goes on. -/
  | fails (diagnostic : Diagnostic)
  /-- A fault ends the step. -/
  | escapes

namespace Verdict

/-- The records that are committed. -/
def records : Verdict → List TypeRecord
  | commits records => records
  | fails _ => []
  | escapes => []

/-- The catalogue after a unit. -/
def apply (catalog : Catalog) : Verdict → Catalog
  | commits records => catalog.addAll records
  | fails diagnostic => catalog.report diagnostic
  | escapes => catalog

/-- All or nothing: the records are stored, all of them and in order, or the map
stays as it is.  A failure is told by one diagnostic, and a fault by none. -/
def IsWhole (before after : Catalog) : Verdict → Prop
  | commits records =>
      after.types = records.foldl TypeMap.store before.types ∧
        ∃ replaced, after.diagnostics = before.diagnostics ++ replaced ∧
          ∀ diagnostic ∈ replaced, diagnostic.kind = .duplicateType
  | fails diagnostic =>
      after.types = before.types ∧ after.diagnostics = before.diagnostics ++ [diagnostic]
  | escapes => after.types = before.types ∧ after.diagnostics = before.diagnostics

theorem isWhole_apply (catalog : Catalog) (verdict : Verdict) :
    verdict.IsWhole catalog (verdict.apply catalog) := by
  cases verdict with
  | commits records =>
      exact ⟨catalog.types_addAll records, catalog.diagnostics_addAll records⟩
  | fails diagnostic => exact ⟨rfl, rfl⟩
  | escapes => exact ⟨rfl, rfl⟩

theorem diagnostics_prefix_apply (catalog : Catalog) (verdict : Verdict) :
    catalog.diagnostics <+: (verdict.apply catalog).diagnostics := by
  cases verdict with
  | commits records =>
      obtain ⟨replaced, eq, _⟩ := catalog.diagnostics_addAll records
      exact ⟨replaced, eq.symm⟩
  | fails diagnostic => exact ⟨[diagnostic], rfl⟩
  | escapes => exact List.prefix_rfl

theorem trusted_apply (catalog : Catalog) (verdict : Verdict) :
    (verdict.apply catalog).trusted = catalog.trusted := by
  cases verdict with
  | commits records => exact catalog.trusted_addAll records
  | fails diagnostic => rfl
  | escapes => rfl

end Verdict

/-- What becomes of a unit under trusted packages, which may be followed by
something that is none. -/
def SourceUnit.verdict (trusted : List String) (isOpenEnded : Bool) (unit : SourceUnit) : Verdict :=
  match unit.outcome with
  | .tree tree =>
      if isOpenEnded && !isAllTrusted trusted tree then .escapes
      else .commits (records trusted (some unit.path) tree)
  | .unreadable problem => .fails ⟨.readFailure, unit.path, some problem.message⟩
  | .unparsable => .fails ⟨.parseFailure, unit.path, none⟩
  | .broken _ => .escapes
  | .unnamable _ => .escapes

theorem SourceUnit.holds_apply (trusted : List String) (isOpenEnded : Bool)
    (unit : SourceUnit) {catalog : Catalog} {committed : List TypeRecord}
    (holds : catalog.Holds committed) :
    ((unit.verdict trusted isOpenEnded).apply catalog).Holds
      (committed ++ (unit.verdict trusted isOpenEnded).records) := by
  obtain ⟨path, outcome⟩ := unit
  cases outcome with
  | tree tree =>
      rw [verdict]
      dsimp only
      split
      · simpa [Verdict.apply, Verdict.records] using holds
      · exact holds.addAll _
  | unreadable problem =>
      simpa [verdict, Verdict.apply, Verdict.records] using holds.report (by simp)
  | unparsable => simpa [verdict, Verdict.apply, Verdict.records] using holds.report (by simp)
  | broken fault => simpa [verdict, Verdict.apply, Verdict.records] using holds
  | unnamable problem => simpa [verdict, Verdict.apply, Verdict.records] using holds

/-! ## What a step does -/

/-- The units that are reached: all of them, or those up to the first whose fault
ends the step. -/
def reached (trusted : List String) (isOpenEnded : Bool) : List SourceUnit → List SourceUnit
  | [] => []
  | unit :: units =>
      match unit.verdict trusted isOpenEnded with
      | .escapes => [unit]
      | _ => unit :: reached trusted isOpenEnded units

/-- The units that a step reaches. -/
def Step.units (trusted : List String) (isOpenEnded : Bool) : Step → List SourceUnit
  | text unit => [unit]
  | file unit => [unit]
  | folder _ none => []
  | folder _ (some units) => reached trusted isOpenEnded units

/-- A catalogue after units. -/
def catalogAfter (trusted : List String) (isOpenEnded : Bool) (catalog : Catalog)
    (units : List SourceUnit) : Catalog :=
  units.foldl (fun catalog unit => (unit.verdict trusted isOpenEnded).apply catalog) catalog

/-- The records committed by units. -/
def committed (trusted : List String) (isOpenEnded : Bool) (units : List SourceUnit) :
    List TypeRecord :=
  units.flatMap fun unit => (unit.verdict trusted isOpenEnded).records

section Units

variable {trusted : List String} {isOpenEnded : Bool}

theorem catalogAfter_append (catalog : Catalog) (earlier later : List SourceUnit) :
    catalogAfter trusted isOpenEnded catalog (earlier ++ later) =
      catalogAfter trusted isOpenEnded (catalogAfter trusted isOpenEnded catalog earlier) later :=
  List.foldl_append

theorem diagnostics_prefix_catalogAfter (catalog : Catalog) (units : List SourceUnit) :
    catalog.diagnostics <+: (catalogAfter trusted isOpenEnded catalog units).diagnostics := by
  induction units generalizing catalog with
  | nil => exact List.prefix_rfl
  | cons unit rest ih => exact (Verdict.diagnostics_prefix_apply catalog _).trans (ih _)

theorem holds_catalogAfter {catalog : Catalog} {before : List TypeRecord}
    (holds : catalog.Holds before) (units : List SourceUnit) :
    (catalogAfter trusted isOpenEnded catalog units).Holds
      (before ++ committed trusted isOpenEnded units) := by
  induction units generalizing catalog before with
  | nil => simpa [catalogAfter, committed] using holds
  | cons unit rest ih =>
      have later := ih (unit.holds_apply trusted isOpenEnded holds)
      rwa [List.append_assoc] at later

namespace Analysis

/-- Take units one after the other. -/
def takeUnits (analysis : Analysis) (units : List SourceUnit) : Analysis :=
  units.foldl (fun analysis unit => (analysis.take unit).1) analysis

/-- The rules that a run never changes. -/
structure Follows (trusted : List String) (isOpenEnded : Bool) (analysis : Analysis) : Prop where
  trusted_eq : analysis.catalog.trusted = trusted
  isOpenEnded_eq : analysis.isOpenEnded = isOpenEnded

theorem Follows.note {analysis : Analysis} (follows : Follows trusted isOpenEnded analysis)
    (entry : LogEntry) : Follows trusted isOpenEnded (analysis.note entry) :=
  ⟨follows.trusted_eq, follows.isOpenEnded_eq⟩

/-- Taking a unit does what its verdict says. -/
theorem catalog_take {analysis : Analysis} (follows : Follows trusted isOpenEnded analysis)
    (unit : SourceUnit) :
    (analysis.take unit).1.catalog =
      (unit.verdict trusted isOpenEnded).apply analysis.catalog := by
  obtain ⟨rfl, rfl⟩ := follows
  obtain ⟨path, outcome⟩ := unit
  cases outcome with
  | tree tree =>
      simp only [take, SourceUnit.verdict]
      split <;> rfl
  | unreadable problem => rfl
  | unparsable => rfl
  | broken fault => rfl
  | unnamable problem => rfl

theorem isOpenEnded_take (analysis : Analysis) (unit : SourceUnit) :
    (analysis.take unit).1.isOpenEnded = analysis.isOpenEnded := by
  obtain ⟨path, outcome⟩ := unit
  cases outcome with
  | tree tree =>
      simp only [take]
      split <;> rfl
  | unreadable problem => rfl
  | unparsable => rfl
  | broken fault => rfl
  | unnamable problem => rfl

theorem Follows.take {analysis : Analysis} (follows : Follows trusted isOpenEnded analysis)
    (unit : SourceUnit) : Follows trusted isOpenEnded (analysis.take unit).1 where
  trusted_eq := by rw [catalog_take follows, Verdict.trusted_apply, follows.trusted_eq]
  isOpenEnded_eq := by rw [isOpenEnded_take, follows.isOpenEnded_eq]

/-- A unit fails to give records exactly when its verdict is a fault. -/
theorem take_eq_error_iff {analysis : Analysis} (follows : Follows trusted isOpenEnded analysis)
    (unit : SourceUnit) :
    (∃ fault, (analysis.take unit).2 = .error fault) ↔
      unit.verdict trusted isOpenEnded = .escapes := by
  obtain ⟨rfl, rfl⟩ := follows
  obtain ⟨path, outcome⟩ := unit
  cases outcome with
  | tree tree =>
      simp only [Analysis.take, SourceUnit.verdict]
      split <;> simp
  | unreadable problem => simp [Analysis.take, SourceUnit.verdict]
  | unparsable => simp [Analysis.take, SourceUnit.verdict]
  | broken fault => simp [Analysis.take, SourceUnit.verdict]
  | unnamable problem => simp [Analysis.take, SourceUnit.verdict]

theorem catalog_takeUnits {analysis : Analysis} (follows : Follows trusted isOpenEnded analysis)
    (units : List SourceUnit) :
    (analysis.takeUnits units).catalog =
      catalogAfter trusted isOpenEnded analysis.catalog units := by
  induction units generalizing analysis with
  | nil => rfl
  | cons unit rest ih =>
      change ((analysis.take unit).1.takeUnits rest).catalog = _
      rw [ih (follows.take unit), catalog_take follows]
      rfl

/-- Units in order are taken up to the first fault. -/
theorem takeAll_spec {analysis : Analysis} (follows : Follows trusted isOpenEnded analysis)
    (units : List SourceUnit) :
    Follows trusted isOpenEnded (analysis.takeAll units).1 ∧
      (analysis.takeAll units).1.catalog =
        catalogAfter trusted isOpenEnded analysis.catalog (reached trusted isOpenEnded units) := by
  induction units generalizing analysis with
  | nil => exact ⟨follows, rfl⟩
  | cons unit rest ih =>
      have noted := follows.note (.debug ("Analyzing file: " ++ unit.path))
      have after := noted.take unit
      have catalog := catalog_take noted unit
      have faulty := take_eq_error_iff noted unit
      rw [takeAll, takeRead, reached]
      match taken : (analysis.note (.debug ("Analyzing file: " ++ unit.path))).take unit with
      | (next, .error fault) =>
          rw [taken] at after catalog faulty
          refine ⟨after, ?_⟩
          rw [faulty.mp ⟨fault, rfl⟩]
          exact catalog
      | (next, .ok records) =>
          rw [taken] at after catalog faulty
          have goesOn : unit.verdict trusted isOpenEnded ≠ .escapes := by
            intro escapes
            obtain ⟨fault, impossible⟩ := faulty.mpr escapes
            cases impossible
          obtain ⟨followed, eq⟩ := ih after
          refine ⟨followed, eq.trans ?_⟩
          rw [catalog]
          cases verdict : unit.verdict trusted isOpenEnded with
          | escapes => exact absurd verdict goesOn
          | commits records => simp [catalogAfter, verdict, note]
          | fails diagnostic => simp [catalogAfter, verdict, note]

theorem takeListed_spec {analysis : Analysis} (follows : Follows trusted isOpenEnded analysis)
    (path : String) (units : List SourceUnit) :
    Follows trusted isOpenEnded (analysis.takeListed path units).1 ∧
      (analysis.takeListed path units).1.catalog =
        catalogAfter trusted isOpenEnded analysis.catalog (reached trusted isOpenEnded units) := by
  have begun := (follows.note (opening path)).note
    (.info ("Found " ++ toString units.length ++ " Java files"))
  obtain ⟨followed, eq⟩ := takeAll_spec begun units
  rw [takeListed]
  dsimp only
  split
  · rename_i after taken
    rw [taken] at followed eq
    split
    · exact ⟨followed, eq⟩
    · exact ⟨followed.note _, eq⟩
  · rename_i after fault taken
    rw [taken] at followed eq
    exact ⟨followed, eq⟩

theorem perform_spec {analysis : Analysis} (follows : Follows trusted isOpenEnded analysis)
    (step : Step) :
    Follows trusted isOpenEnded (analysis.perform step).1 ∧
      (analysis.perform step).1.catalog =
        catalogAfter trusted isOpenEnded analysis.catalog (step.units trusted isOpenEnded) := by
  match step with
  | .text unit => exact ⟨follows.take unit, catalog_take follows unit⟩
  | .file unit => exact ⟨(follows.note _).take unit, catalog_take (follows.note _) unit⟩
  | .folder path none => exact ⟨follows, rfl⟩
  | .folder path (some units) => exact takeListed_spec follows path units

/-- A run does to its catalogue what the units of its steps do. -/
theorem run_spec {analysis : Analysis} (follows : Follows trusted isOpenEnded analysis)
    (steps : List Step) :
    (analysis.run steps).catalog =
      catalogAfter trusted isOpenEnded analysis.catalog
        (steps.flatMap (Step.units trusted isOpenEnded)) := by
  induction steps generalizing analysis with
  | nil => rfl
  | cons step rest ih =>
      obtain ⟨followed, eq⟩ := perform_spec follows step
      change ((analysis.perform step).1.run rest).catalog = _
      rw [ih followed, eq, List.flatMap_cons, catalogAfter_append]

/-- Every unit of a run is taken as a whole or not at all.  At every point the
catalogue holds what the units so far committed, and its diagnostics are a first
part of those at the end. -/
theorem run_takes_whole_units (trusted : List String) (suffix : String) (isOpenEnded : Bool)
    (steps : List Step) :
    let fresh : Analysis := { start trusted suffix with isOpenEnded := isOpenEnded }
    let units := steps.flatMap (Step.units trusted isOpenEnded)
    (fresh.run steps).catalog = (fresh.takeUnits units).catalog ∧
      (∀ earlier unit later, units = earlier ++ unit :: later →
        (unit.verdict trusted isOpenEnded).IsWhole (fresh.takeUnits earlier).catalog
          (fresh.takeUnits (earlier ++ [unit])).catalog) ∧
      ∀ earlier later, units = earlier ++ later →
        (fresh.takeUnits earlier).catalog.Holds (committed trusted isOpenEnded earlier) ∧
          (fresh.takeUnits earlier).catalog.diagnostics <+:
            (fresh.run steps).catalog.diagnostics := by
  intro fresh units
  have follows : Follows trusted isOpenEnded fresh := ⟨rfl, rfl⟩
  refine ⟨?_, ?_, ?_⟩
  · rw [run_spec follows, catalog_takeUnits follows]
  · intro earlier unit later _
    rw [catalog_takeUnits follows, catalog_takeUnits follows, catalogAfter_append]
    exact Verdict.isWhole_apply _ _
  · intro earlier later split
    constructor
    · rw [catalog_takeUnits follows]
      exact holds_catalogAfter (Catalog.holds_empty trusted) earlier
    · rw [run_spec follows, catalog_takeUnits follows]
      change _ <+: (catalogAfter _ _ _ units).diagnostics
      rw [split, catalogAfter_append]
      exact diagnostics_prefix_catalogAfter _ later

end Analysis

end Units

end JavaUml.Extract
