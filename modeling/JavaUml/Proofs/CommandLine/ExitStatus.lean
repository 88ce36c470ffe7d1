import JavaUml.CommandLine.Program
import JavaUml.Proofs.Extract.UnitCommit
import JavaUml.Proofs.Session.Endings

/-!
# Exit statuses

The program foresees that arguments do not fit, that a configuration file cannot be read,
that there is no source folder, that a Java text does not parse, that an image cannot be drawn
and that a file cannot be written.  It does not look at the kind of a setting before it is
used.  So it ends with a status whenever the settings that its options call for are of the
kind that is asked for there, and the log can be opened.
-/

namespace JavaUml

/-! ## Reading Java texts -/

/-- A failure of the parser on some text that is no rejection of the text. -/
def Java.IsCrash (cause : Java.Fault) : Prop :=
  cause ≠ .rejected ∧ ∃ text, Java.parse text = .error cause

namespace Extract

/-- An outcome of reading that ends an analysis only by a crash of the parser. -/
def UnitOutcome.IsFair : UnitOutcome → Prop
  | .broken cause => Java.IsCrash cause
  | .unnamable _ => False
  | _ => True

theorem UnitOutcome.isFair_ofText (text : String) : (UnitOutcome.ofText text).IsFair := by
  unfold ofText
  cases parsed : Java.parse text with
  | ok unit => trivial
  | error cause =>
      cases cause with
      | rejected => trivial
      | _ => exact ⟨Java.Fault.noConfusion, text, parsed⟩

theorem UnitOutcome.isFair_ofFile (files : Files.Disk) {path : String} (free : Files.IsFree path) :
    (UnitOutcome.ofFile files path).IsFair := by
  unfold ofFile
  split
  · exact isFair_ofText _
  · rename_i failed
    rw [if_pos (Files.isReported_of_readText free failed)]
    trivial
  · trivial

namespace Analysis

theorem take_eq_error (analysis : Analysis) {unit : SourceUnit} {fault : RunFault}
    (closed : analysis.isOpenEnded = false) (fair : unit.outcome.IsFair)
    (failed : (analysis.take unit).2 = .error fault) :
    ∃ cause, fault = .broken cause ∧ Java.IsCrash cause := by
  obtain ⟨path, outcome⟩ := unit
  cases outcome with
  | tree tree =>
      rw [take, closed] at failed
      cases failed
  | unreadable problem => cases failed
  | unparsable => cases failed
  | broken cause =>
      cases failed
      exact ⟨cause, rfl, fair⟩
  | unnamable problem => exact fair.elim

theorem takeAll_eq_error (analysis : Analysis) {units : List SourceUnit} {fault : RunFault}
    (closed : analysis.isOpenEnded = false) (fair : ∀ unit ∈ units, unit.outcome.IsFair)
    (failed : (analysis.takeAll units).2 = .error fault) :
    ∃ cause, fault = .broken cause ∧ Java.IsCrash cause := by
  induction units generalizing analysis with
  | nil => cases failed
  | cons unit units ih =>
      rw [List.forall_mem_cons] at fair
      have still_closed : (analysis.takeRead unit).1.isOpenEnded = false := by
        rw [takeRead, isOpenEnded_take]
        exact closed
      rw [takeAll] at failed
      split at failed
      · rename_i after records taken
        rw [taken] at still_closed
        exact ih after still_closed fair.2 failed
      · rename_i after cause taken
        cases failed
        exact take_eq_error (analysis.note _) closed fair.1 (congrArg Prod.snd taken)

/-- An analysis of a folder that is there fails only by a crash of the parser. -/
theorem meets_takeFolder {files : Files.Disk} (analysis : Analysis) {folder : String}
    (closed : analysis.isOpenEnded = false) (namable : files.isNamable = true)
    (found : Files.isFolderAt files folder = true) :
    Meets (fun _ => True) (fun fault => ∃ cause, fault = .broken cause ∧ Java.IsCrash cause)
      (analysis.takeFolder files folder).2 := by
  have fair : ∀ unit ∈ (Files.sourceFiles files analysis.suffix folder).map
      (SourceUnit.ofFile files), unit.outcome.IsFair := by
    intro unit mem
    obtain ⟨path, path_mem, rfl⟩ := List.mem_map.1 mem
    exact UnitOutcome.isFair_ofFile files (Files.isFree_sourceFiles namable path path_mem)
  refine ⟨fun _ => trivial, fun {fault} failed => ?_⟩
  rw [takeFolder, Step.ofFolder, if_pos found] at failed
  simp only [perform, takeListed] at failed
  split at failed
  · split_ifs at failed <;> cases failed
  · rename_i after cause taken
    cases failed
    exact takeAll_eq_error ((analysis.note _).note _) closed fair (congrArg Prod.snd taken)

end Analysis

end Extract

/-- Tracing with a limit below a root that can be named fails only by a crash of the
parser. -/
theorem Resolve.Tracer.meets_trace {tracer : Tracer} (typeName method : String)
    (limited : tracer.limit.isSome = true) (namable : tracer.files.isNamable = true)
    (free : Files.IsFree tracer.root) :
    Meets (fun _ => True) (fun fault => ∃ cause, fault = .broken cause ∧ Java.IsCrash cause)
      (tracer.trace typeName method).traces := by
  refine ⟨fun _ => trivial, fun {fault} failed => ?_⟩
  rw [trace, Files.listable, if_neg (by simp [Files.isFree_iff.1 free])] at failed
  simp only [traceListed] at failed
  split at failed
  · cases failed
  · rename_i path found
    have fair := Extract.UnitOutcome.isFair_ofFile tracer.files
      (Files.isFree_sourceFileOf namable found)
    split at failed
    · rw [traceUnit] at failed
      split at failed
      · dsimp only at failed
        split at failed
        · cases failed
        · obtain ⟨limit, limit_eq⟩ := Option.isSome_iff_exists.1 limited
          simp only [traceBody, limit_eq] at failed
          split_ifs at failed
      · cases failed
    · cases failed
    · cases failed
    · rename_i cause outcome_eq
      cases failed
      rw [outcome_eq] at fair
      exact ⟨cause, rfl, fair⟩
    · rename_i outcome_eq
      rw [outcome_eq] at fair
      exact fair.elim

open Session (Fault Action Outside World Sound Ends)
open Config (Setting)

theorem exists_ok_of_isSome {ε α : Type} {outcome : Except ε α}
    (met : outcome.toOption.isSome = true) : ∃ value, outcome = .ok value := by
  cases outcome with
  | ok value => exact ⟨value, rfl⟩
  | error fault => cases met

theorem exists_ok_of_any {ε α : Type} {outcome : Except ε α} {fits : α → Bool}
    (met : outcome.toOption.any fits = true) :
    ∃ value, outcome = .ok value ∧ fits value = true := by
  cases outcome with
  | ok value => exact ⟨value, rfl, met⟩
  | error fault => cases met

/-! ## Writing diagrams -/

/-- A fault that the program foresees where it writes. -/
def Session.Fault.isForgiven : Fault → Bool
  | .render _ => true
  | .path problem => problem.isReported
  | _ => false

namespace Render

variable {outside : Outside} {known : List String}

/-- A change of the tree at a path without null characters fails only as foreseen. -/
theorem ends_grow {path : String} {before : Files.Disk}
    {outcome : Except Files.PathProblem Files.Disk} (growth : Files.IsGrowth path before outcome)
    (free : Files.IsFree path) :
    Ends outside known (Action.ofExcept (outcome.mapError Fault.path)) (Files.Spares before)
      (·.isForgiven = true) :=
  .ofExcept (growth.mapError fun _ reported => reported free)

theorem ends_deliver {path : String} (free : Files.IsFree path) (content : List UInt8) :
    Ends outside known (deliver path content) (fun _ => True) (·.isForgiven = true) := by
  have clean_free := free.cleanPath
  unfold deliver
  dsimp only
  refine .get_bind fun world sound => ⟨known, List.Subset.refl _, sound, ?_⟩
  refine (ends_grow (Files.isGrowth_makeFolders _ _) clean_free.parentPath).bind
    fun made made_spares => ?_
  refine (Ends.change fun _ current => sound.setFiles made_spares current).bind fun _ _ => ?_
  refine (ends_grow (Files.isGrowth_writeFile _ _ _) clean_free).bind fun files spares => ?_
  exact .change fun _ current => sound.setFiles (made_spares.trans spares) current

theorem ends_image {α : Type} (image : Except Problem α) :
    Ends outside known (Action.ofExcept (image.mapError Fault.render)) (fun _ => True)
      (·.isForgiven = true) :=
  have met : Meets (fun _ => True) (fun _ => True) image := ⟨fun _ => trivial, fun _ => trivial⟩
  .ofExcept (met.mapError fun _ _ => rfl)

/-- The greatest number of seconds that can be waited for an image. -/
def greatestWait : Nat := 2147483

/-- Whether a setting says how long to wait for an image: a number of seconds, a truth value in
the place of one, or null, which sets no limit. -/
def isWait : Setting → Bool
  | .scalar .null => true
  | .scalar (.bool _) => true
  | .scalar (.number (.whole seconds)) => 0 ≤ seconds && seconds ≤ greatestWait
  | .scalar (.number (.floating seconds)) =>
      match seconds.read with
      | .finite negative significand power =>
          (!negative || significand = 0) &&
            significand * Decimal.twoTo power ≤ greatestWait * Decimal.twoTo 1074
      | _ => false
  | _ => false

/-- Surroundings that reply to every request which says how long to wait. -/
structure IsFair (outside : Outside) : Prop where
  java : ∀ {java}, outside.java = some java → ∀ run, isWait run.timeout = true →
    (java run).isSome = true
  server : ∀ query, isWait query.timeout = true → (outside.server query).isSome = true

/-- Whether a setting names a format of images. -/
def isKnownFormat (format : Setting) : Bool :=
  format.text?.any knownFormats.contains

theorem isFree_display {format : Setting} (is_known : isKnownFormat format = true) :
    Files.IsFree format.display := by
  have all_free : ∀ name ∈ knownFormats, Files.IsFree name := by decide
  unfold isKnownFormat Setting.text? at is_known
  split at is_known
  · exact all_free _ (List.contains_iff_mem.1 is_known)
  · cases is_known

namespace Renderer

variable (renderer : Renderer) (diagram : String)

theorem ends_drawLocally {run : LocalRun} {java : LocalRun → Option LocalReply}
    (replies : (java run).isSome = true) :
    Ends outside known (drawLocally run java) (fun _ => True) (·.isForgiven = true) := by
  obtain ⟨reply, reply_eq⟩ := Option.isSome_iff_exists.1 replies
  refine Ends.bind (Ends.change fun world sound => sound.change (.refl _) rfl) fun _ _ => ?_
  rw [reply_eq]
  exact ends_image _

theorem ends_drawOnServer {query : ServerQuery}
    (replies : (outside.server query).isSome = true) :
    Ends outside known (drawOnServer query) (fun _ => True) (·.isForgiven = true) := by
  obtain ⟨reply, reply_eq⟩ := Option.isSome_iff_exists.1 replies
  refine (Ends.note _).bind fun _ _ => ?_
  refine Ends.bind (Ends.change fun world sound => sound.change (.refl _) rfl) fun _ _ => ?_
  refine .read_bind ?_
  rw [reply_eq]
  exact ends_image _

variable (fair : IsFair outside)
include fair

theorem ends_draw (waits : isWait renderer.timeout = true) {format : Setting}
    (is_known : isKnownFormat format = true) :
    Ends outside known (renderer.draw diagram format) (fun _ => True) (·.isForgiven = true) := by
  unfold isKnownFormat at is_known
  unfold draw
  dsimp only
  rw [if_pos is_known]
  refine .read_bind ?_
  split
  · rename_i java_eq
    exact ends_drawLocally (fair.java java_eq _ waits)
  · split
    · exact .throw rfl
    · exact ends_drawOnServer (fair.server _ waits)
  · exact .throw rfl

theorem ends_writeImages (waits : isWait renderer.timeout = true) {base : String}
    (free : Files.IsFree base) {formats : List Setting}
    (all_known : formats.all isKnownFormat = true) :
    Ends outside known (renderer.writeImages diagram base formats) (fun _ => True)
      (·.isForgiven = true) := by
  induction formats with
  | nil => exact .pure trivial
  | cons format formats ih =>
      obtain ⟨is_known, rest_known⟩ := Bool.and_eq_true_iff.1 all_known
      have dot_free : Files.IsFree "." := by decide
      have path_free := (free.append dot_free).append (isFree_display is_known)
      have image : Ends outside known
          (renderer.writeImage diagram (base ++ "." ++ format.display) format) (fun _ => True)
          (·.isForgiven = true) :=
        (renderer.ends_draw diagram fair waits is_known).bind fun _ _ =>
          (ends_deliver path_free _).bind fun _ _ => (Ends.note _).bind fun _ _ => .pure trivial
      exact image.bind fun _ _ => (ih rest_known).bind fun _ _ => .pure trivial

/-- Whether a setting is the base of paths that can be written. -/
def isBase (base : Setting) : Bool :=
  base.text?.any (!Files.isUnnamable ·)

/-- Whether a setting lists formats of images and nothing else. -/
def areFormats (formats : Setting) : Bool :=
  (listed formats).toOption.any (·.all isKnownFormat)

theorem ends_writeDiagram {base formats : Setting} {withImages : Bool}
    (waits : withImages = true → isWait renderer.timeout = true)
    (is_base : isBase base = true) (are_formats : withImages = true → areFormats formats = true) :
    Ends outside known (renderer.writeDiagram diagram base formats withImages) (fun _ => True)
      (·.isForgiven = true) := by
  obtain ⟨name, name_eq, namable⟩ := (Option.any_eq_true _ _).1 is_base
  have free : Files.IsFree name := Files.isFree_iff.2 (by simpa using namable)
  have text : Ends outside known (writeText diagram (name ++ ".puml")) (fun _ => True)
      (·.isForgiven = true) :=
    (ends_deliver (free.append (by decide)) _).bind fun _ _ =>
      (Ends.note _).bind fun _ _ => .pure trivial
  unfold writeDiagram
  rw [name_eq]
  refine text.bind fun _ _ => ?_
  split
  · rename_i asked
    obtain ⟨items, items_eq, all_known⟩ := exists_ok_of_any (are_formats asked)
    refine (Ends.ofOk items_eq).bind fun _ same => ?_
    subst same
    exact (renderer.ends_writeImages diagram fair (waits asked) free all_known).bind
      fun _ _ => .pure trivial
  · exact .pure trivial

end Renderer

end Render

namespace CommandLine

variable {outside : Outside} {known : List String}

theorem ends_written (subject : String) {writes : Action (List String)} {never : Fault → Prop}
    (ends : Ends outside known writes (fun _ => True) (·.isForgiven = true)) :
    Ends outside known (written subject writes) (fun _ => True) never := by
  refine ends.attempt.bind fun outcome met => ?_
  split
  · exact .pure trivial
  · exact (Ends.note _).bind fun _ _ => .pure trivial
  · rename_i problem
    have reported : problem.isReported = true := met.failed rfl
    rw [if_pos reported]
    exact (Ends.note _).bind fun _ _ => .pure trivial
  · rename_i fault no_render no_path
    have forgiven : fault.isForgiven = true := met.failed rfl
    cases fault with
    | render problem => exact absurd rfl (no_render problem)
    | path problem => exact absurd rfl (no_path problem)
    | _ => cases forgiven

theorem ends_printPaths (paths : List String) {never : Fault → Prop} :
    Ends outside known (printPaths paths) (fun _ => True) never :=
  .forM fun _ _ => .print _

/-! ## What is asked of the settings -/

/-- What is asked of one setting. -/
structure Expectation where
  group : String
  key : String
  fits : Setting → Bool

namespace Expectation

/-- Whether a configuration has the setting as it is asked for. -/
def isMet (config : Setting) (expected : Expectation) : Bool :=
  (entryOf config expected.group >>= (entryOf · expected.key)).toOption.any expected.fits

variable {config : Setting} {expected : Expectation}

theorem isMet_eq {group value : Setting} (group_eq : entryOf config expected.group = .ok group)
    (value_eq : entryOf group expected.key = .ok value) :
    expected.isMet config = expected.fits value := by
  have found : entryOf config expected.group >>= (entryOf · expected.key) = .ok value := by
    rw [group_eq]
    exact value_eq
  rw [isMet, found]
  rfl

theorem group_of_isMet (met : expected.isMet config = true) :
    ∃ group, entryOf config expected.group = .ok group := by
  obtain ⟨value, found, -⟩ := exists_ok_of_any met
  cases group_eq : entryOf config expected.group with
  | ok group => exact ⟨group, rfl⟩
  | error fault =>
      rw [group_eq] at found
      cases found

theorem value_of_isMet (met : expected.isMet config = true) {group : Setting}
    (group_eq : entryOf config expected.group = .ok group) :
    ∃ value, entryOf group expected.key = .ok value ∧ expected.fits value = true := by
  obtain ⟨value, found, fits⟩ := exists_ok_of_any met
  rw [group_eq] at found
  exact ⟨value, found, fits⟩

end Expectation

/-- Whether the log can go where a setting says. -/
def opensLog (files : Files.Disk) (file : Setting) : Bool :=
  (Session.logPath files.here file).toOption.any fun path =>
    path.all fun path => (Files.appendFile files path []).toOption.isSome

/-- What is asked of the settings to open the log. -/
def logExpectations (files : Files.Disk) : List Expectation :=
  [⟨"logging", "level", fun level => (Session.thresholdOf level).toOption.isSome⟩,
   ⟨"logging", "file", opensLog files⟩]

/-- What is asked of the settings to set up the renderer. -/
def rendererExpectations (outside : Outside) (withImages : Bool) : List Expectation :=
  [⟨"plantuml", "jar_path", fun jar =>
      (Render.Renderer.jarCandidate outside.namedJar jar).toOption.any fun path =>
        Files.isShort (Files.cleanPath path)⟩,
   ⟨"plantuml", "server_url", fun server =>
      (Render.Renderer.serverAddress server).toOption.isSome⟩,
   ⟨"plantuml", "timeout", fun timeout => !withImages || Render.isWait timeout⟩]

/-- What is asked of the settings to analyse sources. -/
def analysisExpectations : List Expectation :=
  [⟨"analysis", "trusted_prefixes", fun trusted => (trustedOf trusted).toOption.any (!·.2)⟩,
   ⟨"analysis", "source_suffix", fun suffix => suffix.text?.isSome⟩,
   ⟨"analysis", "show_progress", fun _ => true⟩]

/-- What is asked of the settings for a class diagram. -/
def classExpectations (withImages withComponents : Bool) : List Expectation :=
  [⟨"output", "class_diagram", Render.Renderer.isBase⟩,
   ⟨"plantuml", "formats", fun formats => !withImages || Render.Renderer.areFormats formats⟩] ++
  if withComponents then [⟨"output", "component_diagram", Render.Renderer.isBase⟩] else []

/-- What is asked of the settings for a sequence diagram. -/
def sequenceExpectations : List Expectation :=
  [⟨"output", "sequence_diagram", Render.Renderer.isBase⟩,
   ⟨"sequence", "max_depth", fun depth => (limitOf depth).isSome⟩,
   ⟨"sequence", "actor", fun actor => (actorOf actor).toOption.isSome⟩]

/-- What is asked of the settings by the options. -/
def expectations (outside : Outside) (files : Files.Disk) (options : Options) :
    List Expectation :=
  logExpectations files ++ rendererExpectations outside (!options.noRender) ++
    analysisExpectations ++
    if options.sequence then sequenceExpectations
    else classExpectations (!options.noRender) options.components

/-- Whether a configuration has all settings as they are asked for. -/
def isUsable (outside : Outside) (files : Files.Disk) (options : Options) (config : Setting) :
    Bool :=
  (expectations outside files options).all (·.isMet config)

/-- The settings for the analysis of sources. -/
theorem exists_analysis {config : Setting}
    (met : ∀ expected ∈ analysisExpectations, expected.isMet config = true) :
    ∃ analysis trusted suffix progress, entryOf config "analysis" = .ok analysis ∧
      entryOf analysis "trusted_prefixes" = .ok trusted ∧
      entryOf analysis "source_suffix" = .ok suffix ∧
      entryOf analysis "show_progress" = .ok progress ∧
      (trustedOf trusted).toOption.any (!·.2) = true ∧ suffix.text?.isSome = true := by
  simp only [analysisExpectations, List.forall_mem_cons] at met
  obtain ⟨trusted_met, suffix_met, progress_met, -⟩ := met
  obtain ⟨analysis, analysis_eq⟩ := Expectation.group_of_isMet trusted_met
  obtain ⟨trusted, trusted_eq, closed⟩ := Expectation.value_of_isMet trusted_met analysis_eq
  obtain ⟨suffix, suffix_eq, is_text⟩ := Expectation.value_of_isMet suffix_met analysis_eq
  obtain ⟨progress, progress_eq, -⟩ := Expectation.value_of_isMet progress_met analysis_eq
  exact ⟨analysis, trusted, suffix, progress, analysis_eq, trusted_eq, suffix_eq, progress_eq,
    closed, is_text⟩

theorem demand_eq {group value : Setting} {key : String} (found : entryOf group key = .ok value) :
    demand group key = pure value :=
  congrArg Action.ofExcept found

/-! ## Generating diagrams -/

/-- A fault that is a crash of the parser. -/
def IsCrash (fault : Fault) : Prop :=
  ∃ cause, fault = .java cause ∧ Java.IsCrash cause

/-- The status of a run that has done its work or reports a failure. -/
def IsStatus (status : Int) : Prop :=
  status = 0 ∨ status = 1

theorem ends_beginAnalysis {trusted : Setting} {never : Fault → Prop}
    (closed : (trustedOf trusted).toOption.any (!·.2) = true) :
    Ends outside known (beginAnalysis trusted) (·.isOpenEnded = false) never := by
  obtain ⟨⟨packages, isOpenEnded⟩, trusted_eq, is_closed⟩ := exists_ok_of_any closed
  refine (Ends.ofOk trusted_eq).bind fun _ same => ?_
  subst same
  exact .pure (by simpa using is_closed)

theorem ends_analyse {begun : Extract.Analysis} {suffix : Setting} {folder : String}
    (closed : begun.isOpenEnded = false) (is_text : suffix.text?.isSome = true)
    (mem : folder ∈ known) :
    Ends outside known (analyse begun suffix folder) (fun _ => True) IsCrash := by
  unfold analyse
  refine .get_bind fun world sound => ⟨known, List.Subset.refl _, sound, ?_⟩
  dsimp only
  rw [if_neg (by simp [Option.isNone_eq_false_iff.2 is_text])]
  have taken := Extract.Analysis.meets_takeFolder { begun with suffix := suffix.text?.getD "" }
    closed sound.namable (sound.found folder mem)
  refine (Ends.noteAll _).bind fun _ _ => Ends.bind (.ofExcept (taken.mapError ?_))
    fun _ _ => .pure trivial
  rintro _ ⟨cause, rfl, crash⟩
  exact ⟨cause, rfl, crash⟩

theorem ends_traceCalls {tracer : Resolve.Tracer} {suffix : Setting} (typeName method : String)
    (is_text : suffix.text?.isSome = true) (limited : tracer.limit.isSome = true)
    (namable : tracer.files.isNamable = true) (free : Files.IsFree tracer.root) :
    Ends outside known (traceCalls tracer suffix typeName method) (fun _ => True) IsCrash := by
  unfold traceCalls
  rw [if_neg (by simp [Option.isNone_eq_false_iff.2 is_text])]
  have traced := tracer.meets_trace typeName method limited namable free
  refine (Ends.noteAll _).bind fun _ _ => Ends.bind (.ofExcept (traced.mapError ?_))
    fun _ _ => .pure trivial
  rintro _ ⟨cause, rfl, crash⟩
  exact ⟨cause, rfl, crash⟩

section Fair

variable (fair : Render.IsFair outside) (renderer : Render.Renderer) {withImages : Bool}
  (waits : withImages = true → Render.isWait renderer.timeout = true)
include fair waits

theorem ends_writeClassDiagrams (types : Model.TypeMap)
    {config output formats : Setting} {withComponents : Bool}
    (met : ∀ expected ∈ classExpectations withImages withComponents,
      expected.isMet config = true)
    (output_eq : entryOf config "output" = .ok output)
    (are_formats : withImages = true → Render.Renderer.areFormats formats = true) :
    Ends outside known
      (writeClassDiagrams renderer types output formats withImages withComponents)
      (fun _ => True) (·.isForgiven = true) := by
  simp only [classExpectations, List.forall_mem_append, List.forall_mem_cons] at met
  obtain ⟨⟨base_met, -, -⟩, components_met⟩ := met
  obtain ⟨base, base_eq, is_base⟩ := Expectation.value_of_isMet base_met output_eq
  unfold writeClassDiagrams
  rw [demand_eq base_eq, pure_bind]
  refine (renderer.ends_writeDiagram _ fair waits is_base are_formats).bind fun paths _ => ?_
  split
  · rename_i asked
    rw [if_pos asked] at components_met
    obtain ⟨other, other_eq, is_base⟩ :=
      Expectation.value_of_isMet (components_met _ List.mem_cons_self) output_eq
    refine (Ends.noteAll _).bind fun _ _ => ?_
    rw [demand_eq other_eq, pure_bind]
    exact (renderer.ends_writeDiagram _ fair waits is_base are_formats).bind
      fun _ _ => .pure trivial
  · exact .pure trivial

/-- Drawing the class diagram ends with a status where all settings are as asked for. -/
theorem ends_generateClassDiagrams (folder : String) {config : Setting} {withComponents : Bool}
    (analysis_met : ∀ expected ∈ analysisExpectations, expected.isMet config = true)
    (met : ∀ expected ∈ classExpectations withImages withComponents,
      expected.isMet config = true) :
    Ends outside known (generateClassDiagrams folder config renderer withImages withComponents)
      IsStatus IsCrash := by
  have met_each := met
  simp only [classExpectations, List.forall_mem_append, List.forall_mem_cons] at met_each
  obtain ⟨⟨base_met, formats_met, -⟩, -⟩ := met_each
  obtain ⟨analysis, trusted, suffix, progress, analysis_eq, trusted_eq, suffix_eq, progress_eq,
    closed, is_text⟩ := exists_analysis analysis_met
  obtain ⟨output, output_eq⟩ := Expectation.group_of_isMet base_met
  obtain ⟨base, base_eq, -⟩ := Expectation.value_of_isMet base_met output_eq
  obtain ⟨plantuml, plantuml_eq⟩ := Expectation.group_of_isMet formats_met
  obtain ⟨formats, formats_eq, fits⟩ := Expectation.value_of_isMet formats_met plantuml_eq
  have are_formats : withImages = true → Render.Renderer.areFormats formats = true := by
    rintro rfl
    exact fits
  unfold generateClassDiagrams
  simp only [demand_eq analysis_eq, demand_eq output_eq, demand_eq base_eq, demand_eq trusted_eq,
    demand_eq suffix_eq, demand_eq progress_eq, demand_eq plantuml_eq, demand_eq formats_eq,
    pure_bind]
  refine .get_bind fun world sound => ?_
  split
  · rename_i found
    -- The log may go to a file, so the folder is looked at again later in other files.
    refine ⟨folder :: known, List.subset_cons_self _ _, sound.learn found, ?_⟩
    refine (Ends.note _).bind fun _ _ => (Ends.note _).bind fun _ _ => ?_
    refine (ends_beginAnalysis closed).bind fun begun begun_closed => ?_
    refine ((ends_analyse begun_closed is_text List.mem_cons_self).phase _).bind fun found _ => ?_
    split
    · exact (Ends.note _).bind fun _ _ => .pure (.inl rfl)
    · refine (Ends.note _).bind fun _ _ => (Ends.noteAll _).bind fun _ _ => ?_
      refine (ends_written _ (ends_writeClassDiagrams fair renderer waits _ met output_eq
        are_formats)).bind fun paths _ => ?_
      split
      · exact .pure (.inr rfl)
      · refine (ends_printPaths _).bind fun _ _ => ?_
        split
        · exact (Ends.print _).bind fun _ _ => .pure (.inl rfl)
        · exact .pure (.inl rfl)
  · exact ⟨known, List.Subset.refl _, sound, (Ends.note _).bind fun _ _ => .pure (.inr rfl)⟩

/-- Drawing the sequence diagram ends with a status where all settings are as asked for. -/
theorem ends_generateSequenceDiagram (folder typeName method : String) {config : Setting}
    (analysis_met : ∀ expected ∈ analysisExpectations, expected.isMet config = true)
    (met : ∀ expected ∈ sequenceExpectations, expected.isMet config = true) :
    Ends outside known
      (generateSequenceDiagram folder typeName method config renderer withImages)
      IsStatus IsCrash := by
  simp only [sequenceExpectations, List.forall_mem_cons] at met
  obtain ⟨base_met, depth_met, actor_met, -⟩ := met
  obtain ⟨analysis, trusted, suffix, progress, analysis_eq, trusted_eq, suffix_eq, progress_eq,
    closed, is_text⟩ := exists_analysis analysis_met
  obtain ⟨output, output_eq⟩ := Expectation.group_of_isMet base_met
  obtain ⟨base, base_eq, is_base⟩ := Expectation.value_of_isMet base_met output_eq
  obtain ⟨sequence, sequence_eq⟩ := Expectation.group_of_isMet depth_met
  obtain ⟨depth, depth_eq, limited⟩ := Expectation.value_of_isMet depth_met sequence_eq
  obtain ⟨actor, actor_eq, is_actor⟩ := Expectation.value_of_isMet actor_met sequence_eq
  obtain ⟨name, name_eq⟩ := exists_ok_of_isSome is_actor
  unfold generateSequenceDiagram
  simp only [demand_eq analysis_eq, demand_eq output_eq, demand_eq sequence_eq, demand_eq base_eq,
    demand_eq trusted_eq, demand_eq suffix_eq, demand_eq progress_eq, demand_eq depth_eq,
    demand_eq actor_eq, pure_bind]
  refine .get_bind fun world sound => ?_
  split
  · rename_i found
    have folder_free := Files.isFree_of_isFolderAt found
    refine ⟨folder :: known, List.subset_cons_self _ _, sound.learn found, ?_⟩
    refine (Ends.note _).bind fun _ _ => (Ends.note _).bind fun _ _ => ?_
    refine (ends_beginAnalysis closed).bind fun begun begun_closed => ?_
    refine (ends_analyse begun_closed is_text List.mem_cons_self).bind fun found _ => ?_
    -- Calls are traced in the files as the log has left them.
    refine .get_bind fun world sound => ⟨_, List.Subset.refl _, sound, ?_⟩
    refine ((ends_traceCalls typeName method is_text limited sound.namable folder_free).phase
      _).bind fun traced _ => ?_
    refine (Ends.ofOk name_eq).bind fun _ _ => ?_
    refine (ends_written _ (renderer.ends_writeDiagram _ fair waits is_base
      fun _ => by decide)).bind fun paths _ => ?_
    split
    · exact .pure (.inr rfl)
    · refine (ends_printPaths _).bind fun _ _ => (Ends.print _).bind fun _ _ => ?_
      split
      · exact (Ends.print _).bind fun _ _ => .pure (.inl rfl)
      · exact .pure (.inl rfl)
  · exact ⟨known, List.Subset.refl _, sound, (Ends.note _).bind fun _ _ => .pure (.inr rfl)⟩

end Fair

/-! ## Running the program -/

/-- Entries that are logged before there is a log file leave the files alone. -/
theorem foldl_note (outside : Outside) (log : List LogEntry) {world : World}
    (no_file : world.logFile = none) :
    (log.foldl (fun world entry => world.note outside entry) world).files = world.files ∧
      (log.foldl (fun world entry => world.note outside entry) world).clock = world.clock := by
  induction log generalizing world with
  | nil => exact ⟨rfl, rfl⟩
  | cons entry log ih =>
      have noted : (world.note outside entry).logFile = none ∧
          (world.note outside entry).files = world.files ∧
            (world.note outside entry).clock = world.clock := by
        unfold World.note
        rw [no_file]
        split
        · exact ⟨rfl, rfl, rfl⟩
        · exact ⟨no_file, rfl, rfl⟩
      obtain ⟨files_eq, clock_eq⟩ := ih noted.1
      exact ⟨files_eq.trans noted.2.1, clock_eq.trans noted.2.2⟩

/-- A log with a threshold comes down to opening its file. -/
theorem perform_openLog_eq {world : World} {level file : Setting} {threshold : Nat}
    (level_eq : Session.thresholdOf level = .ok threshold) :
    (Session.openLog level file).perform outside world =
      (Action.ofExcept (Session.logPath world.files.here file) >>= Session.openFile).perform
        outside { world with threshold := threshold, logFile := none } := by
  rw [Session.openLog, level_eq]
  rfl

/-- Opening a log file comes down to adding nothing to it. -/
theorem perform_openFile_some (world : World) (path : String) :
    (Session.openFile (some path)).perform outside world =
      match Files.appendFile world.files path [] with
      | .ok files => (.ok (), { world with files := files, logFile := some path })
      | .error problem => (.error (.path problem), world) := by
  rw [Session.openFile, Action.perform_get_bind]
  cases Files.appendFile world.files path [] <;> rfl

/-- A log that can be opened is opened, and the world stays sound. -/
theorem perform_openLog {world : World} {level file : Setting} {threshold : Nat}
    (level_eq : Session.thresholdOf level = .ok threshold)
    (opens : opensLog world.files file = true) (sound : Sound known world) :
    ∃ after, (Session.openLog level file).perform outside world = (.ok (), after) ∧
      Sound known after := by
  obtain ⟨path?, path_eq, opens⟩ := exists_ok_of_any opens
  rw [perform_openLog_eq level_eq, path_eq]
  cases path? with
  | none => exact ⟨_, rfl, sound.change (.refl _) rfl⟩
  | some path =>
      obtain ⟨files, files_eq⟩ := exists_ok_of_isSome opens
      rw [Action.perform_bind_ok _ rfl, perform_openFile_some, files_eq]
      exact ⟨_, rfl, sound.change (Files.spares_appendFile files_eq) rfl⟩

/-- With a usable configuration the work ends with a status, or by a crash of the parser. -/
theorem meets_work (fair : Render.IsFair outside) {world : World} {options : Options}
    {config : Setting}
    (usable : isUsable outside world.files options config = true) (sound : Sound known world) :
    Meets IsStatus IsCrash ((work options config).perform outside world).1 := by
  simp only [isUsable, expectations, List.all_append, Bool.and_eq_true, List.all_eq_true] at usable
  obtain ⟨⟨⟨log_met, renderer_met⟩, analysis_met⟩, met⟩ := usable
  simp only [logExpectations, List.forall_mem_cons] at log_met
  obtain ⟨level_met, file_met, -⟩ := log_met
  simp only [rendererExpectations, List.forall_mem_cons] at renderer_met
  obtain ⟨jar_met, server_met, timeout_met, -⟩ := renderer_met
  obtain ⟨logging, logging_eq⟩ := Expectation.group_of_isMet level_met
  obtain ⟨level, level_eq, is_level⟩ := Expectation.value_of_isMet level_met logging_eq
  obtain ⟨file, file_eq, opens⟩ := Expectation.value_of_isMet file_met logging_eq
  obtain ⟨plantuml, plantuml_eq⟩ := Expectation.group_of_isMet jar_met
  obtain ⟨jar, jar_eq, is_jar⟩ := Expectation.value_of_isMet jar_met plantuml_eq
  obtain ⟨server, server_eq, is_server⟩ := Expectation.value_of_isMet server_met plantuml_eq
  obtain ⟨timeout, timeout_eq, is_wait⟩ := Expectation.value_of_isMet timeout_met plantuml_eq
  obtain ⟨threshold, threshold_eq⟩ := exists_ok_of_isSome is_level
  obtain ⟨opened, opened_eq, opened_sound⟩ := perform_openLog threshold_eq opens sound
  unfold work
  simp only [demand_eq logging_eq, demand_eq level_eq, demand_eq file_eq, demand_eq plantuml_eq,
    demand_eq jar_eq, demand_eq server_eq, demand_eq timeout_eq, pure_bind]
  -- Only the log depends on the files at the start; all that follows holds in any sound world.
  rw [Action.perform_bind_ok _ opened_eq]
  refine Ends.meets ?_ opened_sound
  refine (Ends.note _).bind fun _ _ => .read_bind (.get_bind fun world sound =>
    ⟨_, List.Subset.refl _, sound, ?_⟩)
  obtain ⟨renderer, renderer_eq, timeout_kept⟩ :
      ∃ renderer, Render.Renderer.ofSettings outside world.files jar server timeout =
        .ok renderer ∧ renderer.timeout = timeout := by
    obtain ⟨path, path_eq, short⟩ := exists_ok_of_any is_jar
    obtain ⟨address, address_eq⟩ := exists_ok_of_isSome is_server
    obtain ⟨isFile, isFile_eq⟩ := Files.exists_isFileAt short world.files
    rw [Render.Renderer.ofSettings, path_eq]
    simp only [bind, Except.bind, isFile_eq, address_eq, Except.mapError]
    exact ⟨_, rfl, rfl⟩
  have waits : (!options.noRender) = true → Render.isWait renderer.timeout = true := by
    intro asked
    rw [timeout_kept]
    simpa [asked] using is_wait
  refine (Ends.ofOk renderer_eq).bind fun made same => ?_
  subst same
  split
  · rename_i asked
    rw [if_pos asked] at met
    exact (ends_generateSequenceDiagram fair made waits _ _ _ analysis_met met).timed _
  · rename_i plain
    rw [if_neg plain] at met
    exact (ends_generateClassDiagrams fair made waits _ analysis_met met).timed _

/-- What a command line needs of its surroundings: a configuration file that does not surprise
and whose settings are as the options ask for. -/
structure IsServed (outside : Outside) (files : Files.Disk) (options : Options) : Prop where
  foreseen : ∀ {cause}, Config.load files options.config (overrides options) = .error cause →
    cause.isForeseen = true
  usable : ∀ {config log},
    Config.load files options.config (overrides options) = .ok (config, log) →
      isUsable outside files options config = true

/-! ## Runs without a configuration file -/

/-- The settings in force without a configuration file and without a base path. -/
def plainSettings (verbose : Bool) : Setting :=
  (Config.ofEntries [] ((.text "output", .fields []) ::
    if verbose then [(.text "logging", .fields [("level", .text "DEBUG")])] else [])).1

theorem load_plainSettings {files : Files.Disk} {options : Options}
    (no_file : options.config = "")
    (no_base : options.arguments[if options.sequence then 3 else 1]? = none) :
    ∃ log, Config.load files options.config (overrides options) =
      .ok (plainSettings options.verbose, log) := by
  have overrides_eq : overrides options = (.text "output", .fields []) ::
      if options.verbose then [(.text "logging", .fields [("level", .text "DEBUG")])] else [] := by
    split at no_base
    · rename_i asked
      simp only [overrides, if_pos asked, no_base]
      rfl
    · rename_i plain
      simp only [overrides, if_neg plain, no_base]
      rfl
  rw [no_file, overrides_eq]
  exact ⟨_, rfl⟩

/-- What the settings in force say whatever the files and the surroundings are. -/
def closedExpectations (withImages withComponents : Bool) : List Expectation :=
  [⟨"logging", "level", fun level => (Session.thresholdOf level).toOption.isSome⟩,
   ⟨"logging", "file", fun file => !file.isSet⟩,
   ⟨"plantuml", "jar_path", fun jar => !jar.isSet⟩,
   ⟨"plantuml", "server_url", fun server =>
      (Render.Renderer.serverAddress server).toOption.isSome⟩,
   ⟨"plantuml", "timeout", Render.isWait⟩] ++
  analysisExpectations ++ sequenceExpectations ++ classExpectations withImages withComponents

theorem isMet_plainSettings : ∀ verbose withImages withComponents,
    (closedExpectations withImages withComponents).all (·.isMet (plainSettings verbose)) =
      true := by
  decide +kernel

theorem Expectation.isMet_of_fits {config : Setting} {group key : String}
    {fits weaker : Setting → Bool} (weakens : ∀ value, fits value = true → weaker value = true)
    (met : Expectation.isMet config ⟨group, key, fits⟩ = true) :
    Expectation.isMet config ⟨group, key, weaker⟩ = true := by
  obtain ⟨held, held_eq⟩ := group_of_isMet met
  obtain ⟨value, value_eq, value_fits⟩ := value_of_isMet met held_eq
  have met_eq := @isMet_eq config ⟨group, key, weaker⟩ held value held_eq value_eq
  exact met_eq.trans (weakens value value_fits)

/-- The defaults are as every command line asks for, if the archive that the environment names
has a path of a usual length. -/
theorem isServed_of_defaults {options : Options} (files : Files.Disk)
    (no_file : options.config = "")
    (no_base : options.arguments[if options.sequence then 3 else 1]? = none)
    (short : Files.isShort (Files.cleanPath
      ((outside.namedJar.filter (!·.isEmpty)).getD "plantuml.jar")) = true) :
    IsServed outside files options := by
  have opens (file : Setting) (unset : (!file.isSet) = true) : opensLog files file = true := by
    have path_eq : Session.logPath files.here file = .ok none := by
      unfold Session.logPath
      exact if_pos unset
    rw [opensLog, path_eq]
    rfl
  have is_jar (jar : Setting) (unset : (!jar.isSet) = true) :
      ((Render.Renderer.jarCandidate outside.namedJar jar).toOption.any fun path =>
        Files.isShort (Files.cleanPath path)) = true := by
    rw [Render.Renderer.jarCandidate, if_neg (by simpa using unset)]
    exact short
  have is_wait (timeout : Setting) (waits : Render.isWait timeout = true) :
      (!!options.noRender || Render.isWait timeout) = true := by
    rw [waits, Bool.or_true]
  have met := List.all_eq_true.1
    (isMet_plainSettings options.verbose (!options.noRender) options.components)
  simp only [closedExpectations, List.forall_mem_append, List.forall_mem_cons] at met
  obtain ⟨⟨⟨⟨level_met, file_met, jar_met, server_met, timeout_met, none_left⟩, analysis_met⟩,
    sequence_met⟩, class_met⟩ := met
  obtain ⟨first_log, loaded⟩ := @load_plainSettings files options no_file no_base
  refine ⟨fun failed => ?_, fun {config log} succeeded => ?_⟩
  · rw [loaded] at failed
    cases failed
  · rw [loaded] at succeeded
    cases succeeded
    rw [isUsable, expectations, List.all_eq_true]
    simp only [logExpectations, rendererExpectations, List.forall_mem_append,
      List.forall_mem_cons]
    refine ⟨⟨⟨⟨level_met, Expectation.isMet_of_fits opens file_met, none_left⟩,
      Expectation.isMet_of_fits is_jar jar_met, server_met,
      Expectation.isMet_of_fits is_wait timeout_met, none_left⟩,
      analysis_met⟩, ?_⟩
    split
    · exact sequence_met
    · exact class_met

/-! ## The status of a run -/

/-- Surroundings with a Java that draws the same image for every diagram, and without a
server. -/
def drawingOutside : Outside where
  namedJar := none
  java := some fun _ => some (.finished 0 [0x3c] [])
  server _ := some (.unreachable "offline")
  stamp := ""

theorem isFair_drawingOutside : Render.IsFair drawingOutside where
  java java_eq run _ := by
    cases java_eq
    rfl
  server _ _ := rfl

/-- A working folder with a configuration file, an archive and the source of one class. -/
def catFiles : Files.Disk where
  top := .folder [("home", .folder [
    ("c.yaml", .file (Text.Utf8.encode "plantuml: \x7bformats: [svg], timeout: 5\x7d\n")),
    ("plantuml.jar", .file []),
    ("src", .folder [("Cat.java", .file (Text.Utf8.encode "class Cat \x7b Cat next; \x7d"))])])]
  here := ["home"]

/-- The source folder is named from the top, the base of the diagrams from the working folder. -/
def catOptions : Options :=
  ⟨false, false, "c.yaml", false, false, ["/home/src", "out/cat"]⟩

/-- The arguments of these options. -/
def catArguments : List String :=
  ["/home/src", "out/cat", "--config", "c.yaml"]

theorem parse_catArguments : parse catArguments = .ok catOptions :=
  rfl

theorem isServed_catOptions : IsServed drawingOutside catFiles catOptions := by
  have checked : (Config.load catFiles catOptions.config (overrides catOptions)).toOption.any
      fun loaded => isUsable drawingOutside catFiles catOptions loaded.1 := by
    decide +kernel
  obtain ⟨⟨config, log⟩, loaded, usable⟩ := exists_ok_of_any checked
  refine ⟨fun failed => ?_, fun succeeded => ?_⟩
  · cases loaded.symm.trans failed
  · cases loaded.symm.trans succeeded
    exact usable

/-- In a world an action ends with a fault. -/
def Fails {α : Type} (outside : Outside) (action : Action α) (world : World) : Prop :=
  ∃ fault after, action.perform outside world = (.error fault, after)

theorem Fails.bind {α β : Type} {action : Action α} {world : World}
    (fails : Fails outside action world) (next : α → Action β) :
    Fails outside (action >>= next) world := by
  obtain ⟨fault, after, performed⟩ := fails
  exact ⟨fault, after, Action.perform_bind_error next performed⟩

theorem fails_demand {world : World} {group : Setting} {key : String} {fault : Fault}
    (missing : entryOf group key = .error fault) : Fails outside (demand group key) world := by
  rw [demand, missing]
  exact ⟨fault, world, rfl⟩

theorem fails_openLog {world : World} {level file : Setting}
    (unmet : ¬((Session.thresholdOf level).toOption.isSome = true ∧
      opensLog world.files file = true)) :
    Fails outside (Session.openLog level file) world := by
  cases level_eq : Session.thresholdOf level with
  | error fault =>
      rw [Session.openLog, level_eq]
      exact ⟨fault, world, rfl⟩
  | ok threshold =>
      have is_level : (Session.thresholdOf level).toOption.isSome = true := by
        rw [level_eq]
        rfl
      rw [Fails, perform_openLog_eq level_eq]
      cases path_eq : Session.logPath world.files.here file with
      | error fault => exact ⟨fault, _, rfl⟩
      | ok path? =>
          cases path? with
          | none =>
              refine absurd ⟨is_level, ?_⟩ unmet
              rw [opensLog, path_eq]
              rfl
          | some path =>
              cases wrote : Files.appendFile world.files path [] with
              | error problem =>
                  rw [Action.perform_bind_ok _ rfl, perform_openFile_some, wrote]
                  exact ⟨.path problem, _, rfl⟩
              | ok files =>
                  refine absurd ⟨is_level, ?_⟩ unmet
                  rw [opensLog, path_eq]
                  exact congrArg (fun outcome => outcome.toOption.isSome) wrote

theorem fails_work {world : World} {options : Options} {config : Setting} {expected : Expectation}
    (mem : expected ∈ logExpectations world.files) (unmet : expected.isMet config = false) :
    Fails outside (work options config) world := by
  unfold work
  cases logging_eq : entryOf config "logging" with
  | error fault => exact (fails_demand logging_eq).bind _
  | ok logging =>
      rw [demand_eq logging_eq, pure_bind]
      cases level_eq : entryOf logging "level" with
      | error fault => exact (fails_demand level_eq).bind _
      | ok level =>
          rw [demand_eq level_eq, pure_bind]
          cases file_eq : entryOf logging "file" with
          | error fault => exact (fails_demand file_eq).bind _
          | ok file =>
              rw [demand_eq file_eq, pure_bind]
              refine (fails_openLog fun met => ?_).bind _
              have all_met : ∀ expected ∈ logExpectations world.files,
                  expected.isMet config = true := by
                simp only [logExpectations, List.forall_mem_cons]
                exact ⟨(Expectation.isMet_eq logging_eq level_eq).trans met.1,
                  (Expectation.isMet_eq logging_eq file_eq).trans met.2, by simp⟩
              rw [all_met expected mem] at unmet
              cases unmet

/-- The log is opened first: where its settings are not as asked for, no run has a status. -/
theorem status?_eq_none_of_unmet {files : Files.Disk} {clock : Timing.Clock}
    {arguments : List String} {options : Options} {config : Setting} {log : List LogEntry}
    {expected : Expectation} (parsed : parse arguments = .ok options)
    (loaded : Config.load files options.config (overrides options) = .ok (config, log))
    (mem : expected ∈ logExpectations files) (unmet : expected.isMet config = false) :
    (run outside files clock arguments).1.status? = none := by
  have files_eq := (foldl_note outside log
    (rfl : (World.start files clock firstThreshold).logFile = none)).1
  simp only [run, parsed, loaded]
  generalize List.foldl _ (World.start files clock firstThreshold) log = begun at files_eq ⊢
  obtain ⟨fault, after, performed⟩ : Fails outside (work options config) begun :=
    fails_work (by rw [files_eq]; exact mem) unmet
  rw [performed]
  rfl

end CommandLine

end JavaUml
