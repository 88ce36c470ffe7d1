import JavaUml.Diagram.SequenceDiagram
import JavaUml.Proofs.Text.Splitting
import Mathlib.Data.List.Basic

/-!
# Participants of a sequence diagram

A call whose target is unknown goes to a participant made up from the name of its
method.  Underscores are added to the name until nobody has it.  Each underscore
makes the name longer than one more of the names in use, so the search ends.  The
underscores at the end can be taken off again, up to the word that stands before
them, so methods of different names never share a made-up participant.
-/

namespace JavaUml.Diagram

/-! ## The search for a free name -/

/-- The search for a free name ends with a result: it stops at a free name, and
goes on from a taken one with an underscore more.  Nothing bounds it. -/
inductive Search (taken : List String) : String → String → Prop
  | free {name : String} (isFree : name ∉ taken) : Search taken name name
  | onward {name result : String} (isTaken : name ∈ taken)
      (later : Search taken (name ++ "_") result) : Search taken name result

theorem Search.not_mem {taken : List String} {name result : String}
    (search : Search taken name result) : result ∉ taken := by
  induction search with
  | free isFree => exact isFree
  | onward _ _ ih => exact ih

theorem Search.unique {taken : List String} {name result other : String}
    (search : Search taken name result) (another : Search taken name other) : result = other := by
  induction search with
  | free isFree =>
      cases another with
      | free => rfl
      | onward isTaken => exact absurd isTaken isFree
  | onward isTaken _ ih =>
      cases another with
      | free isFree => exact absurd isTaken isFree
      | onward _ later => exact ih later

/-- The result is the name that the search starts with, and underscores. -/
theorem Search.exists_underscores {taken : List String} {name result : String}
    (search : Search taken name result) :
    ∃ count, result.toList = name.toList ++ List.replicate count '_' := by
  induction search with
  | free => exact ⟨0, by simp⟩
  | onward _ _ ih =>
      rcases ih with ⟨count, result_eq⟩
      exact ⟨count + 1, by simp [result_eq, List.replicate_succ]⟩

/-- The number of names that are as long as the given one, or longer.  An
underscore more lowers it if the name is among them. -/
def asLong (taken : List String) (name : String) : Nat :=
  taken.countP fun other => name.length ≤ other.length

theorem asLong_lt {taken : List String} {name : String} (isTaken : name ∈ taken) :
    asLong taken (name ++ "_") < asLong taken name := by
  induction taken with
  | nil => cases isTaken
  | cons first rest ih =>
      have longer : (name ++ "_").length = name.length + 1 := String.length_append name "_"
      have rest_le : asLong rest (name ++ "_") ≤ asLong rest name := by
        apply List.countP_mono_left
        intro other _ fits
        simp only [decide_eq_true_eq] at fits ⊢
        omega
      simp only [asLong, List.countP_cons, decide_eq_true_eq] at ih rest_le ⊢
      rcases List.mem_cons.1 isTaken with rfl | inRest
      · rw [if_neg (by omega), if_pos (Nat.le_refl _)]
        omega
      · have lower := ih inRest
        split <;> split <;> omega

theorem search_freshFrom {taken : List String} {attempts : Nat} {name : String}
    (enough : asLong taken name ≤ attempts) :
    Search taken name (freshFrom taken attempts name) := by
  induction attempts generalizing name with
  | zero =>
      apply Search.free
      intro isTaken
      have lower := asLong_lt isTaken
      omega
  | succ attempts ih =>
      rw [freshFrom]
      by_cases isTaken : name ∈ taken
      · rw [if_pos (by simpa using isTaken)]
        have lower := asLong_lt isTaken
        exact .onward isTaken (ih (by omega))
      · rw [if_neg (by simpa using isTaken)]
        exact .free isTaken

/-- The search for a participant ends, and with the placeholder. -/
theorem search_placeholder_iff (taken : List String) (method result : String) :
    Search taken (method ++ "_Target") result ↔ result = placeholder method taken := by
  have search : Search taken (method ++ "_Target") (placeholder method taken) :=
    search_freshFrom List.countP_le_length
  constructor
  · intro another
    exact another.unique search
  · rintro rfl
    exact search

theorem placeholder_not_mem (method : String) (taken : List String) :
    placeholder method taken ∉ taken :=
  ((search_placeholder_iff taken method _).2 rfl).not_mem

/-! ## Methods of different names -/

theorem dropWhile_underscores (count : Nat) {rest : List Char} {last : Char} (word : last ≠ '_') :
    (List.replicate count '_' ++ last :: rest).dropWhile (· = '_') = last :: rest := by
  rw [List.dropWhile_append_of_pos (by simp)]
  exact List.dropWhile_cons_of_neg (by simpa using word)

/-- Made-up participants differ if the methods do. -/
theorem placeholder_inj {method other : String} {taken : List String} :
    placeholder method taken = placeholder other taken ↔ method = other := by
  constructor
  · intro same
    rcases ((search_placeholder_iff taken method _).2 rfl).exists_underscores with ⟨count, front⟩
    rcases ((search_placeholder_iff taken other _).2 rfl).exists_underscores with ⟨number, back⟩
    rw [same, back] at front
    -- Read from its end, the name has underscores up to the last letter of the word.
    have stripped := congrArg (fun text => text.reverse.dropWhile (· = '_')) front
    have word : "_Target".toList = ['_', 'T', 'a', 'r', 'g', 'e', 't'] := rfl
    simp only [String.toList_append, word, List.reverse_append, List.reverse_replicate,
      List.reverse_cons, List.reverse_nil, List.nil_append, List.cons_append] at stripped
    rw [dropWhile_underscores number (by decide), dropWhile_underscores count (by decide)] at stripped
    simp only [List.cons.injEq, true_and, List.reverse_inj] at stripped
    exact (String.toList_injective stripped).symm
  · rintro rfl
    rfl

/-! ## The lines of a diagram -/

/-- The participant that a call goes to. -/
def Trace.participant (taken : List String) (trace : Trace) : String :=
  if trace.isResolved then trace.target else placeholder trace.method taken

/-- The four lines of a call that one participant makes to another one. -/
def callLines (source target : String) (trace : Trace) : List String :=
  ["activate " ++ target,
    source ++ " -> " ++ target ++ " : " ++ trace.method ++ "()",
    target ++ " --> " ++ source ++ " : " ++ Java.simpleType trace.returnType,
    "deactivate " ++ target]

theorem traceLines_eq (taken : List String) (trace : Trace) :
    traceLines taken trace = callLines trace.source (trace.participant taken) trace :=
  rfl

theorem mem_takenNames_of_mem {entryType actor : String} {traces : List Trace} {trace : Trace}
    (mem : trace ∈ traces) (resolved : trace.isResolved = true) :
    trace.target ∈ takenNames entryType actor traces := by
  apply List.mem_cons_of_mem
  apply List.mem_cons_of_mem
  exact List.mem_map_of_mem (List.mem_filter.2 ⟨mem, resolved⟩)

/-- A text without a line feed. -/
def IsLine (text : String) : Prop :=
  '\n' ∉ text.toList

instance (text : String) : Decidable (IsLine text) :=
  inferInstanceAs (Decidable ('\n' ∉ text.toList))

theorem isLine_append {text other : String} :
    IsLine (text ++ other) ↔ IsLine text ∧ IsLine other := by
  rw [IsLine, String.toList_append, List.mem_append, not_or]
  rfl

theorem mem_unqualifyFrom {c : Char} {word : Option (List Char)} {text : List Char}
    (mem : c ∈ Java.unqualifyFrom word text) : c ∈ word.getD [] ∨ c ∈ text := by
  fun_induction Java.unqualifyFrom word text with
  | case1 word => exact .inl mem
  | _ => grind

theorem isLine_simpleType {type : String} (line : IsLine type) : IsLine (Java.simpleType type) := by
  intro mem
  rw [Java.simpleType, String.toList_ofList] at mem
  rcases mem_unqualifyFrom mem with inside | inside
  · cases inside
  · exact line inside

theorem isLine_placeholder {method : String} (line : IsLine method) (taken : List String) :
    IsLine (placeholder method taken) := by
  rcases ((search_placeholder_iff taken method _).2 rfl).exists_underscores with ⟨count, name_eq⟩
  rw [IsLine, name_eq, List.mem_append, not_or]
  constructor
  · exact isLine_append.2 ⟨line, by decide⟩
  · simp

/-- A text that ends each of its lines is cut into these lines, and nothing
behind them. -/
theorem split_textOf {first : String} {others : List String}
    (lines : ∀ line ∈ first :: others, IsLine line) :
    Text.split '\n' (textOf (first :: others)) = first :: others ++ [""] := by
  have pieces : Text.splitAt '\n' (textOf (first :: others)).toList =
      (first :: others).map String.toList ++ [[]] := by
    induction others generalizing first with
    | nil =>
        rw [List.forall_mem_cons] at lines
        simpa [textOf, Text.splitAt] using Text.splitAt_append_cons lines.1 []
    | cons next rest ih =>
        rw [List.forall_mem_cons] at lines
        rw [List.map_cons, List.cons_append, ← ih lines.2]
        simpa [textOf, String.intercalate_cons_cons] using
          Text.splitAt_append_cons lines.1 (textOf (next :: rest)).toList
  rw [Text.split, pieces]
  simp [Function.comp_def]

/-- The texts of a call do not break lines. -/
structure Trace.KeepsLines (trace : Trace) : Prop where
  source : IsLine trace.source
  target : IsLine trace.target
  method : IsLine trace.method
  returnType : IsLine trace.returnType

instance (trace : Trace) : Decidable trace.KeepsLines :=
  decidable_of_iff
    (IsLine trace.source ∧ IsLine trace.target ∧ IsLine trace.method ∧ IsLine trace.returnType)
    ⟨fun ⟨source, target, method, returnType⟩ => ⟨source, target, method, returnType⟩,
      fun keeps => ⟨keeps.source, keeps.target, keeps.method, keeps.returnType⟩⟩

theorem isLine_of_mem_traceLines {trace : Trace} (keeps : trace.KeepsLines) (taken : List String)
    {line : String} (mem : line ∈ traceLines taken trace) : IsLine line := by
  have participant : IsLine (trace.participant taken) := by
    unfold Trace.participant
    split
    · exact keeps.target
    · exact isLine_placeholder keeps.method taken
  have answer := isLine_simpleType keeps.returnType
  have word : IsLine "activate " ∧ IsLine "deactivate " ∧ IsLine " -> " ∧ IsLine " --> " ∧
      IsLine " : " ∧ IsLine "()" := by decide
  simp only [traceLines_eq, callLines, List.mem_cons, List.not_mem_nil, or_false] at mem
  rcases mem with rfl | rfl | rfl | rfl <;>
    simp only [isLine_append, word, participant, answer, keeps.source, keeps.method, and_self]

theorem isLine_of_mem_sequenceLines {entryType entryMethod actor : String} {traces : List Trace}
    (names : IsLine entryType ∧ IsLine entryMethod ∧ IsLine actor)
    (keeps : ∀ trace ∈ traces, trace.KeepsLines) {line : String}
    (mem : line ∈ sequenceLines entryType entryMethod actor traces) : IsLine line := by
  have word : IsLine "activate " ∧ IsLine "deactivate " ∧ IsLine "actor " ∧ IsLine " -> " ∧
      IsLine " : " ∧ IsLine "()" ∧ IsLine "@startuml" ∧ IsLine "@enduml" ∧
      IsLine "skinparam style strictuml" := by decide
  simp only [sequenceLines, List.mem_append, List.mem_cons, List.mem_flatMap, List.not_mem_nil,
    or_false] at mem
  rcases mem with ((rfl | rfl | rfl | rfl | rfl) | ⟨trace, trace_mem, mem⟩) | rfl | rfl
  case inl.inr => exact isLine_of_mem_traceLines (keeps trace trace_mem) _ mem
  all_goals simp only [isLine_append, word, names, and_self]

/-- The made-up participant of a call with an unknown target is found, and nobody
else has its name; two such calls share one exactly if their methods have the
same name.  Between its first five and its last two lines the diagram has four
lines for each call, in order, all with the participant that the call goes to.
These are the lines of the text, as long as no name breaks a line. -/
theorem calls_in_order {entryType : String} {traces : List Trace}
    (own : ∀ trace ∈ traces, trace.source = entryType) (entryMethod actor : String) :
    let taken := takenNames entryType actor traces
    (∀ trace ∈ traces, trace.isResolved = true → trace.participant taken = trace.target) ∧
    (∀ trace ∈ traces, trace.isResolved = false →
      (∀ result, Search taken (trace.method ++ "_Target") result ↔
        result = trace.participant taken) ∧
      trace.participant taken ≠ entryType ∧ trace.participant taken ≠ actor ∧
      ∀ other ∈ traces, other.isResolved = true → trace.participant taken ≠ other.target) ∧
    (∀ first ∈ traces, ∀ second ∈ traces, first.isResolved = false → second.isResolved = false →
      (first.participant taken = second.participant taken ↔ first.method = second.method)) ∧
    sequenceLines entryType entryMethod actor traces =
      ["@startuml", "skinparam style strictuml", "actor " ++ actor,
        actor ++ " -> " ++ entryType ++ " : " ++ entryMethod ++ "()", "activate " ++ entryType] ++
      traces.flatMap (fun trace => callLines entryType (trace.participant taken) trace) ++
      ["deactivate " ++ entryType, "@enduml"] ∧
    (IsLine entryType ∧ IsLine entryMethod ∧ IsLine actor → (∀ trace ∈ traces, trace.KeepsLines) →
      Text.split '\n' (sequenceDiagram entryType entryMethod actor traces) =
        sequenceLines entryType entryMethod actor traces ++ [""]) := by
  intro taken
  have made_up {trace : Trace} (unknown : trace.isResolved = false) :
      trace.participant taken = placeholder trace.method taken := by
    rw [Trace.participant, unknown]
    rfl
  constructor
  · intro trace _ resolved
    rw [Trace.participant, if_pos resolved]
  constructor
  · intro trace _ unknown
    have free := placeholder_not_mem trace.method taken
    rw [made_up unknown]
    constructor
    · exact search_placeholder_iff taken trace.method
    constructor
    · intro same
      exact free (same ▸ List.mem_cons_self)
    constructor
    · intro same
      exact free (same ▸ List.mem_cons_of_mem _ List.mem_cons_self)
    · intro other mem resolved same
      exact free (same ▸ mem_takenNames_of_mem mem resolved)
  constructor
  · intro first _ second _ first_unknown second_unknown
    rw [made_up first_unknown, made_up second_unknown]
    exact placeholder_inj
  constructor
  · rw [sequenceLines]
    congr 2
    apply List.flatMap_congr
    intro trace mem
    rw [traceLines_eq, own trace mem]
  · intro names keeps
    exact split_textOf fun line mem => isLine_of_mem_sequenceLines names keeps mem

/-- Calls of a shop, one of them to a type that is named like a made-up participant. -/
def shopTraces : List Trace :=
  [⟨"Shop", "Unknown", "pay", "void", 0⟩, ⟨"Shop", "pay_Target", "log", "a.Entry[]", 0⟩,
    ⟨"Shop", "Unknown", "pay_Target", "int", 0⟩, ⟨"Shop", "Unknown", "pay", "void", 1⟩]

/-- Here the actor is named like the next participant that would be made up. -/
theorem calls_in_order_shopTraces :
    (∀ trace ∈ shopTraces, trace.source = "Shop") ∧
      placeholder "pay" (takenNames "Shop" "pay_Target_" shopTraces) = "pay_Target__" ∧
      placeholder "pay_Target" (takenNames "Shop" "pay_Target_" shopTraces) ≠ "pay_Target__" ∧
      (Text.split '\n' (sequenceDiagram "Shop" "buy" "pay_Target_" shopTraces)).drop 5 =
        ["activate pay_Target__", "Shop -> pay_Target__ : pay()",
          "pay_Target__ --> Shop : void", "deactivate pay_Target__",
          "activate pay_Target", "Shop -> pay_Target : log()",
          "pay_Target --> Shop : Entry[]", "deactivate pay_Target",
          "activate pay_Target_Target", "Shop -> pay_Target_Target : pay_Target()",
          "pay_Target_Target --> Shop : int", "deactivate pay_Target_Target",
          "activate pay_Target__", "Shop -> pay_Target__ : pay()",
          "pay_Target__ --> Shop : void", "deactivate pay_Target__",
          "deactivate Shop", "@enduml", ""] := by
  have own : ∀ trace ∈ shopTraces, trace.source = "Shop" := by decide
  have keeps : ∀ trace ∈ shopTraces, trace.KeepsLines := by decide
  have made_up : placeholder "pay" (takenNames "Shop" "pay_Target_" shopTraces) =
      "pay_Target__" := by decide
  obtain ⟨-, -, shared, -, text⟩ := calls_in_order own "buy" "pay_Target_"
  constructor
  · exact own
  constructor
  · exact made_up
  constructor
  · intro same
    have methods := (shared ⟨"Shop", "Unknown", "pay_Target", "int", 0⟩ (by decide)
      ⟨"Shop", "Unknown", "pay", "void", 0⟩ (by decide) rfl rfl).1 (same.trans made_up.symm)
    exact absurd methods (by decide)
  · rw [text (by decide) keeps]
    decide

end JavaUml.Diagram
