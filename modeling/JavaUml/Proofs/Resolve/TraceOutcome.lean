import JavaUml.Proofs.Model.NameScan
import JavaUml.Resolve.Sequence
import Mathlib.Data.List.Forall2

/-!
# What a trace says about its call

Every call in the body of a traced method gives one trace, and every call that
cannot be bound gives one diagnostic.  A trace says that its call was not bound by
the name of its target.  A declared type may have that very name, and then a bound
call reads as unresolved.

Calls are bound to methods of types in the index only, so the two readings agree
wherever no type of the index has the name.
-/

namespace JavaUml.Resolve

open JavaUml.Model JavaUml.Extract

/-! ## What a look-up can return -/

section

variable {α β : Type} {first : Resolving α} {next : α → Resolving β}

/-- A look-up goes on with the value of its first part. -/
theorem value_bind (first : Resolving α) (next : α → Resolving β) :
    (first >>= next).run.value = first.run.value >>= fun result => (next result).run.value := by
  change (ExceptT.bindCont next first.run.value).value = _
  cases first.run.value with
  | error reason => rfl
  | ok result => rfl

theorem value_bind_of_ok {result : α} (given : first.run.value = .ok result) :
    (first >>= next).run.value = (next result).run.value := by
  rw [value_bind, given]
  rfl

theorem value_bind_of_error {reason : Unresolved} (failed : first.run.value = .error reason) :
    (first >>= next).run.value = .error reason := by
  rw [value_bind, failed]
  rfl

/-- A look-up returns something if its parts do. -/
theorem value_bind_eq_ok_iff {last : β} :
    (first >>= next).run.value = .ok last ↔
      ∃ result, first.run.value = .ok result ∧ (next result).run.value = .ok last := by
  cases value : first.run.value with
  | error reason =>
      rw [value_bind_of_error value]
      constructor
      · intro given
        cases given
      · rintro ⟨_, ⟨⟩, _⟩
  | ok result =>
      rw [value_bind_of_ok value]
      constructor
      · intro given
        exact ⟨result, rfl, given⟩
      · rintro ⟨_, ⟨⟩, given⟩
        exact given

end

/-- Whatever a look-up returns has a property. -/
def Yields {α : Type} (action : Resolving α) (good : α → Prop) : Prop :=
  ∀ result, action.run.value = .ok result → good result

namespace Yields

variable {α β : Type} {good : α → Prop} {fine : β → Prop}

theorem pure {result : α} (holds : good result) : Yields (Pure.pure result) good := by
  rintro _ ⟨⟩
  exact holds

theorem throw (reason : Unresolved) : Yields (MonadExcept.throw reason : Resolving α) good := by
  rintro _ ⟨⟩

theorem bind {first : Resolving α} {next : α → Resolving β} (start : Yields first good)
    (rest : ∀ result, good result → Yields (next result) fine) : Yields (first >>= next) fine := by
  intro last run
  obtain ⟨result, given, onward⟩ := value_bind_eq_ok_iff.1 run
  exact rest result (start result given) last onward

theorem andThen {first : Resolving α} {next : α → Resolving β}
    (rest : ∀ result, Yields (next result) fine) : Yields (first >>= next) fine :=
  bind (fun result _ => rest result) fun _ holds => holds

theorem foldlM {step : α → β → Resolving α} {items : List β} {start : α} (holds : good start)
    (keeps : ∀ state item, good state → Yields (step state item) good) :
    Yields (items.foldlM step start) good := by
  induction items generalizing start with
  | nil => exact .pure holds
  | cons item rest ih =>
      rw [List.foldlM_cons]
      exact .bind (keeps start item holds) fun _ kept => ih kept

end Yields

/-! ## Hierarchies stay in the index -/

theorem hierarchyFrom_subset {index : Index} {fuel : Nat} {queue visited : List TypeRecord}
    (waiting : queue ⊆ index.types.records) (seen : visited ⊆ index.types.records) :
    hierarchyFrom index fuel queue visited ⊆ index.types.records := by
  induction fuel generalizing queue visited with
  | zero => exact seen
  | succ fuel ih =>
      cases queue with
      | nil => exact seen
      | cons current rest =>
          rw [List.cons_subset] at waiting
          rw [hierarchyFrom]
          split
          · exact ih waiting.2 seen
          · -- What enters the queue was looked up in the index.
            apply ih
            · apply List.append_subset.2 ⟨waiting.2, _⟩
              intro parent member
              obtain ⟨name, _, found⟩ := List.mem_filterMap.1 member
              exact Index.mem_of_find? found
            · exact List.append_subset.2 ⟨seen, by simpa using waiting.1⟩

theorem hierarchy_subset {index : Index} {record : TypeRecord}
    (known : record ∈ index.types.records) : hierarchy index record ⊆ index.types.records :=
  hierarchyFrom_subset (by simpa using known) (List.nil_subset _)

/-! ## Receivers and bound methods stay in the index -/

section

variable {index : Index} {scope : Scope} {record : TypeRecord}

theorem yields_find (name : String) :
    Yields (find index name) fun found => ∀ record ∈ found, record ∈ index.types.records := by
  rintro _ ⟨⟩ record found
  exact Index.mem_of_find? found

theorem yields_ancestry (known : record ∈ index.types.records) :
    Yields (ancestry index record) fun records => records ⊆ index.types.records := by
  rintro _ ⟨⟩
  exact hierarchy_subset known

theorem yields_typeNamed (type : String) :
    Yields (typeNamed index type) (· ∈ index.types.records) := by
  unfold typeNamed
  split
  · exact .throw _
  · refine .bind (yields_find _) fun found inside => ?_
    cases found with
    | some record => exact .pure (inside record rfl)
    | none =>
        refine .bind (yields_find _) fun found inside => ?_
        cases found with
        | some record => exact .pure (inside record rfl)
        | none => exact .throw _

theorem yields_fieldRecord (record : TypeRecord) (name : String) :
    Yields (fieldRecord index record name) (· ∈ index.types.records) := by
  apply Yields.andThen
  rintro (_ | type)
  · exact .throw _
  · exact yields_typeNamed type

theorem yields_findMethod (known : record ∈ index.types.records) (name : String) (arity : Nat) :
    Yields (findMethod index record name arity) fun bound =>
      ∃ owner ∈ index.types.records, owner.name = bound.declaringType := by
  refine Yields.bind (yields_ancestry known) ?_
  intro records inside
  split
  · rename_i bound found
    apply Yields.pure
    obtain ⟨owner, member, declared⟩ := List.exists_of_findSome?_eq_some found
    obtain ⟨method, _, rfl⟩ := Option.map_eq_some_iff.1 declared
    exact ⟨owner, inside member, rfl⟩
  · exact .throw _

theorem yields_firstRecord (scope : Scope) (name : String) :
    Yields (firstRecord index scope name) (· ∈ index.types.records) := by
  unfold firstRecord
  split
  · exact yields_typeNamed _
  · apply Yields.andThen
    rintro (_ | type)
    · refine Yields.bind (yields_find name) ?_
      rintro (_ | record) inside
      · exact .throw _
      · exact .pure (inside record rfl)
    · exact yields_typeNamed type

theorem yields_pathRecord (scope : Scope) (path : String) :
    Yields (pathRecord index scope path) (· ∈ index.types.records) := by
  unfold pathRecord
  -- Both branches go on in one way, with a type of the whole path or without.
  extract_lets next
  have rest : ∀ whole : Option TypeRecord, (∀ record ∈ whole, record ∈ index.types.records) →
      Yields (next whole) (· ∈ index.types.records) := by
    rintro (_ | record) inside
    · dsimp only [next]
      split
      · exact .throw _
      · refine Yields.bind (yields_firstRecord scope _) ?_
        intro record known
        exact .foldlM known fun record name _ => yields_fieldRecord record name
    · exact .pure (inside record rfl)
  split
  · exact .bind (yields_find path) rest
  · exact .bind (.pure (by simp)) rest

variable (known : scope.current ∈ index.types.records)

include known

theorem yields_plainReceiver (call : Java.Call) :
    Yields (plainReceiver index scope call) (· ∈ index.types.records) := by
  unfold plainReceiver
  split
  · unfold superclassRecord
    split
    · exact yields_typeNamed _
    · exact .throw _
  · split
    · exact .pure known
    · exact yields_pathRecord scope _

theorem yields_headRecord (link : Java.Link) :
    Yields (headRecord index scope link) (· ∈ index.types.records) := by
  cases link with
  | this => exact .pure known
  | call call => exact .andThen fun bound => yields_typeNamed bound.returnType
  | create type => exact yields_typeNamed _
  | name qualifier member => exact yields_pathRecord scope _
  | other form => exact .throw _

omit known in
theorem yields_nextRecord (record : TypeRecord) (link : Java.Link) :
    Yields (nextRecord index record link) (· ∈ index.types.records) := by
  unfold nextRecord
  split
  · exact yields_fieldRecord record _
  · split
    · exact .throw _
    · exact .andThen fun bound => yields_typeNamed bound.returnType
  · exact .throw _

theorem yields_receiver (site : Java.CallSite) :
    Yields (receiver index scope site) (· ∈ index.types.records) := by
  unfold receiver
  split
  · exact yields_plainReceiver known _
  · rename_i head links _
    refine Yields.bind (yields_headRecord known head) ?_
    intro record inside
    exact .foldlM inside fun record link _ => yields_nextRecord record link

/-- A call is bound to a method that a type of the index declares. -/
theorem yields_bind (site : Java.CallSite) :
    Yields (bind index scope site) fun bound =>
      ∃ owner ∈ index.types.records, owner.name = bound.declaringType :=
  .bind (yields_receiver known site) fun _ inside => yields_findMethod inside _ _

end

/-! ## One call -/

/-- The method that a call is bound to, if any. -/
def bound? (index : Index) (scope : Scope) (site : Java.CallSite) : Option BoundMethod :=
  (bind index scope site).run.value.toOption

/-- Whether a call is bound to a method of a type with the name that stands for
unknown targets. -/
def IsMistakable (index : Index) (scope : Scope) (site : Java.CallSite) : Prop :=
  ∃ bound ∈ bound? index scope site, bound.declaringType = Diagram.unknownTarget

instance (index : Index) (scope : Scope) (site : Java.CallSite) :
    Decidable (IsMistakable index scope site) :=
  inferInstanceAs (Decidable (∃ bound ∈ bound? index scope site, _))

theorem bound?_eq_some_iff {index : Index} {scope : Scope} {site : Java.CallSite}
    {bound : BoundMethod} :
    bound? index scope site = some bound ↔ (bind index scope site).run.value = .ok bound := by
  unfold bound?
  cases (bind index scope site).run.value <;> simp [Except.toOption]

/-- Where no type of the index has the name for unknown targets, no call can be
mistaken. -/
theorem not_isMistakable {index : Index} {scope : Scope}
    (known : scope.current ∈ index.types.records)
    (unused : ∀ record ∈ index.types.records, record.name ≠ Diagram.unknownTarget)
    (site : Java.CallSite) : ¬IsMistakable index scope site := by
  rintro ⟨bound, isBound, same⟩
  obtain ⟨owner, member, named⟩ := yields_bind known site bound (bound?_eq_some_iff.1 isBound)
  exact unused owner member (named.trans same)

section

variable (index : Index) (scope : Scope) (typeName : String) (site : Java.CallSite)

/-- What one call can come to. -/
theorem traceSite_cases :
    (∃ bound, bound? index scope site = some bound ∧
      (traceSite index scope typeName site).failure = none ∧
      (traceSite index scope typeName site).trace =
        ⟨typeName, bound.declaringType, bound.name, bound.returnType, 0⟩) ∨
    (∃ reason, bound? index scope site = none ∧
      (traceSite index scope typeName site).failure = some reason ∧
      (traceSite index scope typeName site).trace =
        ⟨typeName, Diagram.unknownTarget, site.call.name, "void", 0⟩) := by
  cases value : (bind index scope site).run.value with
  | ok bound => simp [traceSite, bound?, value, Except.toOption]
  | error reason => simp [traceSite, bound?, value, Except.toOption]

theorem source_depth_traceSite :
    (traceSite index scope typeName site).trace.source = typeName ∧
      (traceSite index scope typeName site).trace.depth = 0 := by
  rcases traceSite_cases index scope typeName site with
    ⟨bound, _, _, trace_eq⟩ | ⟨reason, _, _, trace_eq⟩ <;> simp [trace_eq]

/-- A trace reads as resolved when its call is bound, mistakable targets apart. -/
theorem isResolved_traceSite :
    (traceSite index scope typeName site).trace.isResolved = true ↔
      (bound? index scope site).isSome ∧ ¬IsMistakable index scope site := by
  rcases traceSite_cases index scope typeName site with
    ⟨bound, isBound, _, trace_eq⟩ | ⟨reason, unbound, _, trace_eq⟩
  · simp [trace_eq, isBound, IsMistakable, Diagram.Trace.isResolved]
  · simp [trace_eq, unbound, Diagram.Trace.isResolved]

theorem length_unresolved_traceSite :
    (Tracer.unresolved typeName (traceSite index scope typeName site)).length =
      if (bound? index scope site).isSome then 0 else 1 := by
  rcases traceSite_cases index scope typeName site with
    ⟨bound, isBound, failed, _⟩ | ⟨reason, unbound, failed, _⟩
  · simp [Tracer.unresolved, isBound, failed]
  · simp [Tracer.unresolved, unbound, failed]

end

/-! ## The body of an entry method -/

/-- The entry method is there: the type has a file of its own, the file parses and
declares the method, and the index knows the type. -/
structure Tracer.Entry (tracer : Tracer) (typeName methodName : String) where
  path : String
  unit : Java.CompilationUnit
  method : Java.Node
  record : TypeRecord
  listable : Files.listable tracer.root = .ok ()
  isFile : (Files.sourceFileOf tracer.files tracer.suffix tracer.root typeName).1 = some path
  parses : UnitOutcome.ofFile tracer.files path = .tree unit
  declares : unit.findMethod typeName methodName = .found method
  known : (Tracer.entryRecord tracer.index unit typeName).value = some record

namespace Tracer

variable {tracer : Tracer} {typeName methodName : String}

/-- Look for the entry method. -/
def entryOf? (tracer : Tracer) (typeName methodName : String) :
    Option (tracer.Entry typeName methodName) :=
  match listable : Files.listable tracer.root,
    isFile : (Files.sourceFileOf tracer.files tracer.suffix tracer.root typeName).1 with
  | .ok (), some path =>
      match parses : UnitOutcome.ofFile tracer.files path with
      | .tree unit =>
          match declares : unit.findMethod typeName methodName,
            known : (Tracer.entryRecord tracer.index unit typeName).value with
          | .found method, some record =>
              some ⟨path, unit, method, record, listable, isFile, parses, declares, known⟩
          | _, _ => none
      | _ => none
  | _, _ => none

/-- What the calls of the entry method can see. -/
def Entry.scope (entry : tracer.Entry typeName methodName) : Scope :=
  ⟨entry.record, localsOf entry.method⟩

theorem Entry.record_mem (entry : tracer.Entry typeName methodName) :
    entry.record ∈ tracer.index.types.records := by
  have known := entry.known
  unfold entryRecord at known
  dsimp only at known
  split at known
  · rename_i found
    cases known
    exact Index.mem_of_find? found
  · exact Index.mem_of_find? known

theorem Entry.trace_eq (entry : tracer.Entry typeName methodName) :
    ∃ asked : Tracer, asked.limit = tracer.limit ∧ asked.index = tracer.index ∧
      asked.diagnostics = tracer.diagnostics ∧
      (tracer.trace typeName methodName).traces =
        (asked.traceBody typeName entry.record entry.method).traces ∧
      (tracer.trace typeName methodName).tracer =
        (asked.traceBody typeName entry.record entry.method).tracer := by
  let reported := (tracer.index.reports tracer.reported
    (entryRecord tracer.index entry.unit typeName).names).2
  refine ⟨{ tracer with reported := reported }, rfl, rfl, rfl, ?_, ?_⟩ <;>
    simp only [trace, traceListed, traceUnit, entry.listable, entry.isFile, entry.parses,
      entry.declares, entry.known, reported]

theorem length_reports (index : Index) (scope : Scope) (typeName : String)
    (sites : List Java.CallSite) :
    ((sites.map (traceSite index scope typeName)).flatMap (unresolved typeName)).length =
      sites.countP fun site => (bound? index scope site).isNone := by
  induction sites with
  | nil => rfl
  | cons site rest ih =>
      rw [List.map_cons, List.flatMap_cons, List.length_append, ih, List.countP_cons,
        length_unresolved_traceSite]
      cases bound? index scope site <;> simp [Nat.add_comm]

/-- Traces that read as resolved where their calls are bound, and as many reports
as traces that do not. -/
structure IsFaithful (index : Index) (scope : Scope) (sites : List Java.CallSite)
    (traces : List Diagram.Trace) (reports : List Diagnostic) : Prop where
  isResolved_iff : List.Forall₂
    (fun site trace => trace.isResolved = true ↔ (bound? index scope site).isSome) sites traces
  length_reports : (traces.countP fun trace => !trace.isResolved) = reports.length

theorem isFaithful_iff (index : Index) (scope : Scope) (typeName : String)
    (sites : List Java.CallSite) :
    IsFaithful index scope sites
        ((sites.map (traceSite index scope typeName)).map SiteOutcome.trace)
        ((sites.map (traceSite index scope typeName)).flatMap (unresolved typeName)) ↔
      ∀ site ∈ sites, ¬IsMistakable index scope site := by
  constructor
  · rintro ⟨isResolved_iff, _⟩ site member mistakable
    rw [List.forall₂_map_right_iff, List.forall₂_map_right_iff, List.forall₂_same] at isResolved_iff
    have read := isResolved_iff site member
    -- The call is bound, so its trace would have to read as resolved.
    obtain ⟨bound, isBound, _⟩ := id mistakable
    rw [isResolved_traceSite, Option.mem_def.1 isBound] at read
    exact (read.2 rfl).2 mistakable
  · intro plain
    have read : ∀ site ∈ sites, ((traceSite index scope typeName site).trace.isResolved = true ↔
        (bound? index scope site).isSome) := by
      intro site member
      rw [isResolved_traceSite, and_iff_left (plain site member)]
    constructor
    · rw [List.forall₂_map_right_iff, List.forall₂_map_right_iff, List.forall₂_same]
      exact read
    · rw [length_reports, List.countP_map, List.countP_map]
      apply List.countP_congr
      intro site member
      have read := read site member
      simp only [Function.comp_apply, Bool.not_eq_true', Bool.eq_false_iff, ne_eq, read]
      simp

/-- The calls of the entry method are traced one by one and reported where they
cannot be bound.  The traces show which these are, exactly if no call is bound to
a method of a type that has the name for unknown targets; so they do in every
model without such a type. -/
theorem trace_shows_bindings (tracer : Tracer) (typeName methodName : String)
    (entry : tracer.Entry typeName methodName) {limit : Int}
    (limited : tracer.limit = some limit) (deep : 1 ≤ limit) :
    ∃ traces reports,
      (tracer.trace typeName methodName).traces = .ok traces ∧
      (tracer.trace typeName methodName).tracer.diagnostics = tracer.diagnostics ++ reports ∧
      List.Forall₂ (fun site trace => trace.source = typeName ∧ trace.depth = 0 ∧
          (trace.isResolved = true ↔ (bound? tracer.index entry.scope site).isSome ∧
            ¬IsMistakable tracer.index entry.scope site))
        entry.method.bodySites traces ∧
      (∀ report ∈ reports, report.kind = .resolutionFailure ∧ report.path = typeName) ∧
      reports.length = (entry.method.bodySites.countP fun site =>
        (bound? tracer.index entry.scope site).isNone) ∧
      (IsFaithful tracer.index entry.scope entry.method.bodySites traces reports ↔
        ∀ site ∈ entry.method.bodySites, ¬IsMistakable tracer.index entry.scope site) ∧
      ((∀ record ∈ tracer.index.types.records, record.name ≠ Diagram.unknownTarget) →
        IsFaithful tracer.index entry.scope entry.method.bodySites traces reports) := by
  obtain ⟨asked, sameLimit, sameIndex, sameReports, traces_eq, tracer_eq⟩ := entry.trace_eq
  have positive : ¬limit ≤ 0 := by omega
  let outcomes := entry.method.bodySites.map (traceSite tracer.index entry.scope typeName)
  have faithful := isFaithful_iff tracer.index entry.scope typeName entry.method.bodySites
  refine ⟨outcomes.map SiteOutcome.trace, outcomes.flatMap (unresolved typeName), ?_, ?_, ?_, ?_,
    length_reports .., faithful, ?_⟩
  · rw [traces_eq]
    simp [traceBody, sameLimit, limited, positive, sameIndex, outcomes, Entry.scope]
  · rw [tracer_eq]
    simp [traceBody, sameLimit, limited, positive, sameIndex, sameReports, outcomes, Entry.scope]
  · rw [List.forall₂_map_right_iff, List.forall₂_map_right_iff, List.forall₂_same]
    intro site _
    have ⟨source_eq, depth_eq⟩ := source_depth_traceSite tracer.index entry.scope typeName site
    exact ⟨source_eq, depth_eq, isResolved_traceSite ..⟩
  · intro report member
    obtain ⟨outcome, _, among⟩ := List.mem_flatMap.1 member
    obtain ⟨reason, _, rfl⟩ := List.mem_map.1 among
    exact ⟨rfl, rfl⟩
  · intro unused
    exact faithful.2 fun site _ => not_isMistakable entry.record_mem unused site

/-- A source tree in which one type calls a method of another type, and one that
nobody declares. -/
def callingOther (other : String) : Tracer :=
  let caller := "class Main \x7b " ++ other ++ " o; void run() \x7b o.go(); lost(); \x7d \x7d"
  let called := "class " ++ other ++ " \x7b void go() \x7b \x7d \x7d"
  let sources : Files.Entry := .folder [
    ("Main.java", .file caller.toUTF8.toList), (other ++ ".java", .file called.toUTF8.toList)]
  let files : Files.Disk := ⟨.folder [("src", sources)], []⟩
  let analysis := (Analysis.start [] ".java").run [.ofFolder files ".java" "src"]
  .ofIndex files "src" ".java" (some 1) analysis.catalog.types analysis.catalog.diagnostics

/-- Of the two calls one cannot be bound, and it alone is reported.  In the first
model the traces show this, and in the second they show no bound call. -/
theorem trace_callingOther :
    (∃ (entry : (callingOther "Other").Entry "Main" "run") (traces : _) (reports : _),
      ((callingOther "Other").trace "Main" "run").traces = .ok traces ∧
      ((callingOther "Other").trace "Main" "run").tracer.diagnostics =
        (callingOther "Other").diagnostics ++ reports ∧ reports.length = 1 ∧
      IsFaithful (callingOther "Other").index entry.scope entry.method.bodySites traces reports) ∧
    (∃ (entry : (callingOther "Unknown").Entry "Main" "run") (traces : _) (reports : _),
      ((callingOther "Unknown").trace "Main" "run").traces = .ok traces ∧
      ((callingOther "Unknown").trace "Main" "run").tracer.diagnostics =
        (callingOther "Unknown").diagnostics ++ reports ∧ reports.length = 1 ∧
      ¬IsFaithful (callingOther "Unknown").index entry.scope entry.method.bodySites
        traces reports) := by
  constructor
  · have checked : ((callingOther "Other").entryOf? "Main" "run").any fun entry =>
        decide (∀ record ∈ (callingOther "Other").index.types.records,
          record.name ≠ Diagram.unknownTarget) &&
        (entry.method.bodySites.countP fun site =>
          (bound? (callingOther "Other").index entry.scope site).isNone) == 1 := by decide +kernel
    obtain ⟨entry, _, facts⟩ := (Option.any_eq_true _ _).1 checked
    simp only [Bool.and_eq_true, decide_eq_true_eq, beq_iff_eq] at facts
    obtain ⟨traces, reports, traces_eq, reports_eq, _, _, length_eq, _, faithful⟩ :=
      trace_shows_bindings (callingOther "Other") "Main" "run" entry rfl (by decide)
    exact ⟨entry, traces, reports, traces_eq, reports_eq, length_eq.trans facts.2,
      faithful facts.1⟩
  · have checked : ((callingOther "Unknown").entryOf? "Main" "run").any fun entry =>
        decide (∃ site ∈ entry.method.bodySites,
          IsMistakable (callingOther "Unknown").index entry.scope site) &&
        (entry.method.bodySites.countP fun site =>
          (bound? (callingOther "Unknown").index entry.scope site).isNone) == 1 := by decide +kernel
    obtain ⟨entry, _, facts⟩ := (Option.any_eq_true _ _).1 checked
    simp only [Bool.and_eq_true, decide_eq_true_eq, beq_iff_eq] at facts
    obtain ⟨⟨site, member, mistakable⟩, one⟩ := facts
    obtain ⟨traces, reports, traces_eq, reports_eq, _, _, length_eq, faithful_iff, _⟩ :=
      trace_shows_bindings (callingOther "Unknown") "Main" "run" entry rfl (by decide)
    exact ⟨entry, traces, reports, traces_eq, reports_eq, length_eq.trans one,
      fun faithful => faithful_iff.1 faithful site member mistakable⟩

end Tracer

end JavaUml.Resolve
