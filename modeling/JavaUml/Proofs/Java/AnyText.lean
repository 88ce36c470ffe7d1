import JavaUml.Proofs.Java.TypePaths
import JavaUml.Proofs.Lists

/-!
# Names in any text

Nothing asks whether a text is a type before its names are taken out.  Brackets may be left
open or close nothing, arguments may be empty, and a wildcard may stand behind another one.

Reading ends all the same.  An argument stands between two brackets that are no part of it,
and dropping blanks and wildcards makes it shorter still, so readings inside of each other
are of shorter and shorter texts.  The names keep their shape as well, because each of them
is the base of some text: it ends before the first bracket and is trimmed last.
-/

namespace JavaUml.Java

open JavaUml.Text

namespace TypeText

/-! ## Readings inside of each other -/

/-- The names in a text, if at most `limit` readings stand inside of each other.  Inside of
the reading of a text stand those of its arguments. -/
def namesWithin : Nat → List Char → Option (List (List Char))
  | 0, _ => none
  | limit + 1, text => do
      let inner ← (arguments text).mapM (namesWithin limit)
      return ownName text ++ inner.flatten

/-- A limit above the length of a text is never reached. -/
theorem namesWithin_eq_some {limit : Nat} {text : List Char} (enough : text.length < limit) :
    namesWithin limit text = some (names text) := by
  induction limit generalizing text with
  | zero => exact absurd enough (Nat.not_lt_zero _)
  | succ limit ih =>
      -- An argument is shorter than the text, so one reading less is enough for it.
      have inner : (arguments text).mapM (namesWithin limit) =
          some ((arguments text).map names) :=
        mapM_eq_some_map fun argument mem =>
          ih (Nat.lt_of_lt_of_le (length_lt_of_mem_arguments mem) (Nat.le_of_lt_succ enough))
      rw [namesWithin, inner, names_eq_flatMap, List.flatMap_def]
      rfl

/-- What holds of the own name of every text holds of all names. -/
theorem forall_mem_names {holds : List Char → Prop}
    (own : ∀ text, ∀ name ∈ ownName text, holds name) (text : List Char) :
    ∀ name ∈ names text, holds name := by
  induction text using names.induct with
  | case1 text ih =>
      intro name mem
      rw [names_eq_flatMap, List.mem_append, List.mem_flatMap] at mem
      rcases mem with mem | ⟨argument, isArgument, mem⟩
      · exact own text name mem
      · exact ih ⟨argument, isArgument⟩ name mem

/-! ## The shape of a base -/

theorem eraseBrackets_subset (text : List Char) : eraseBrackets text ⊆ text := by
  fun_induction eraseBrackets text with
  | case1 rest ih => exact fun c mem => by simp [ih mem]
  | case2 c rest _ ih => exact List.cons_subset_cons c ih
  | case3 => simp

theorem eraseEllipses_subset (text : List Char) : eraseEllipses text ⊆ text := by
  fun_induction eraseEllipses text with
  | case1 rest ih => exact fun c mem => by simp [ih mem]
  | case2 c rest _ ih => exact List.cons_subset_cons c ih
  | case3 => simp

theorem not_mem_base (text : List Char) : '<' ∉ base text := by
  intro mem
  -- Erasing and trimming only take characters away from what stands before the bracket.
  have cut := eraseBrackets_subset _ (eraseEllipses_subset _ (trim_subset _ mem))
  simpa using List.mem_takeWhile_imp cut

/-- The own name of a text is its base, unless this is empty or a wildcard. -/
theorem mem_ownName_iff {text name : List Char} :
    name ∈ ownName text ↔ name = base text ∧ name ≠ [] ∧ ∀ rest, name ≠ '?' :: rest := by
  unfold ownName
  split
  · rename_i empty
    rw [empty]
    simpa using fun same some_left => absurd same some_left
  · rename_i rest wild
    rw [wild]
    simpa using fun same _ => ⟨rest, same⟩
  · rename_i some_left tame
    rw [List.mem_singleton]
    exact ⟨by rintro rfl; exact ⟨rfl, some_left, tame⟩, And.left⟩

/-- A name that opens no angle bracket, neither starts nor ends with white space and does
not start with a wildcard. -/
structure IsBareName (name : List Char) : Prop where
  ne_nil : name ≠ []
  unopened : '<' ∉ name
  starts : ∀ c ∈ name.head?, isBlank c = false ∧ c ≠ '?'
  ends : ∀ c ∈ name.getLast?, isBlank c = false

theorem isBareName_of_mem_ownName (text : List Char) :
    ∀ name ∈ ownName text, IsBareName name := by
  intro name mem
  obtain ⟨rfl, some_left, tame⟩ := mem_ownName_iff.1 mem
  refine ⟨some_left, not_mem_base text, fun c head => ⟨isBlank_of_mem_head_trim head, ?_⟩,
    fun c last => isBlank_of_mem_getLast_trim last⟩
  rintro rfl
  obtain ⟨rest, wild⟩ := List.head?_eq_some_iff.1 head
  exact tame rest wild

end TypeText

/-- Taking out names ends on every text, since each reading goes on with shorter texts only,
and every name that comes out is bare. -/
theorem typeNames_of_any_text (text : String) :
    (∀ argument ∈ TypeText.arguments text.toList, argument.length < text.length) ∧
      (∀ limit, text.length < limit →
        TypeText.namesWithin limit text.toList = some ((typeNames text).map String.toList)) ∧
        ∀ name ∈ typeNames text, TypeText.IsBareName name.toList := by
  have same : (typeNames text).map String.toList = TypeText.names text.toList := by
    simp [typeNames, Function.comp_def]
  refine ⟨fun argument mem => ?_, fun limit enough => ?_, fun name mem => ?_⟩
  · rw [← String.length_toList]
    exact TypeText.length_lt_of_mem_arguments mem
  · rw [same]
    exact TypeText.namesWithin_eq_some (by rwa [String.length_toList])
  · refine TypeText.forall_mem_names TypeText.isBareName_of_mem_ownName text.toList _ ?_
    rw [← same]
    exact List.mem_map_of_mem mem

/-- A text that is no type.  Brackets are closed that nothing opens, a pair of square brackets
stands in another one, and a wildcard is bounded by a wildcard. -/
def raggedText : String :=
  "> A<?? , B [[]] <, ?>..>,<C >"

theorem typeNames_of_raggedText :
    ("B [[]] <, ?>..>,<C".toList ∈ TypeText.arguments raggedText.toList ∧
        "B [[]] <, ?>..>,<C".toList.length < raggedText.length) ∧
      typeNames raggedText = ["> A", "B []", ">.."] ∧ TypeText.IsBareName "B []".toList := by
  obtain ⟨shorter, within, bare⟩ := typeNames_of_any_text raggedText
  have argument : "B [[]] <, ?>..>,<C".toList ∈ TypeText.arguments raggedText.toList := by
    decide +kernel
  have found : TypeText.namesWithin 30 raggedText.toList =
      some (["> A", "B []", ">.."].map String.toList) := by
    decide +kernel
  have names_eq : typeNames raggedText = ["> A", "B []", ">.."] :=
    (List.map_inj_right fun _ _ => String.toList_inj.1).1
      (Option.some.inj ((within 30 (by decide)).symm.trans found))
  exact ⟨⟨argument, shorter _ argument⟩, names_eq, bare "B []" (by simp [names_eq])⟩

end JavaUml.Java
