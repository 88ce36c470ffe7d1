import JavaUml.Text.Blank
import JavaUml.Text.Cut

/-!
# The text of a Java type

A type as it is written, such as `Map<String, List<Food>>[]`, is taken apart
without a parser: the base name in front of the first `<`, and the type
arguments between the first `<` and the last `>`, cut at the commas outside
any pair of angle brackets.  Nothing here fails on text that is no type.
-/

namespace JavaUml.Java.TypeText

open JavaUml.Text

/-- Remove every `[]`, from left to right. -/
def eraseBrackets : List Char → List Char
  | '[' :: ']' :: rest => eraseBrackets rest
  | c :: rest => c :: eraseBrackets rest
  | [] => []

/-- Remove every `...`, from left to right. -/
def eraseEllipses : List Char → List Char
  | '.' :: '.' :: '.' :: rest => eraseEllipses rest
  | c :: rest => c :: eraseEllipses rest
  | [] => []

/-- Whether `[]` occurs. -/
def hasBrackets : List Char → Bool
  | '[' :: ']' :: _ => true
  | _ :: rest => hasBrackets rest
  | [] => false

/-- The type without its arguments, array brackets and varargs dots. -/
def base (text : List Char) : List Char :=
  trim (eraseEllipses (eraseBrackets (beforeFirst '<' text)))

/-- Cut at the commas met at depth zero, where `<` goes one level down and `>`
one level up.  The depth may fall below zero. -/
def splitFrom (depth : Int) : List Char → List (List Char)
  | [] => [[]]
  | c :: rest =>
      if c = '<' then consFirst c (splitFrom (depth + 1) rest)
      else if c = '>' then consFirst c (splitFrom (depth - 1) rest)
      else if c = ',' ∧ depth = 0 then [] :: splitFrom depth rest
      else consFirst c (splitFrom depth rest)

/-- Cut at the commas outside angle brackets. -/
def splitTop (text : List Char) : List (List Char) :=
  splitFrom 0 text

/-- The text between the first `<` and the last `>`, if they stand in this
order. -/
def inner? (text : List Char) : Option (List Char) :=
  (afterFirst? '<' text).bind (beforeLast? '>')

/-- A type argument without the wildcard in front of its bound. -/
def bound (argument : List Char) : List Char :=
  match trim argument with
  | '?' :: rest => dropWord "super ".toList (dropWord "extends ".toList (trim rest))
  | text => text

/-- The type arguments, each without its wildcard. -/
def arguments (text : List Char) : List (List Char) :=
  match inner? text with
  | none => []
  | some inside => (splitTop inside).map bound

/-- The base name as a list: empty for a wildcard and for a missing name. -/
def ownName (text : List Char) : List (List Char) :=
  match base text with
  | [] => []
  | '?' :: _ => []
  | name => [name]

theorem length_le_of_mem_consFirst {c : Char} {n : Nat} {pieces : List (List Char)}
    (short : ∀ piece ∈ pieces, piece.length ≤ n) :
    ∀ piece ∈ consFirst c pieces, piece.length ≤ n + 1 := by
  intro piece mem
  cases pieces with
  | nil => simp_all [consFirst]
  | cons first others =>
      simp only [consFirst, List.mem_cons] at mem
      rcases mem with rfl | mem
      · simpa using short first (by simp)
      · exact Nat.le_succ_of_le (short piece (by simp [mem]))

theorem length_le_of_mem_splitFrom (text : List Char) :
    ∀ (depth : Int), ∀ piece ∈ splitFrom depth text, piece.length ≤ text.length := by
  induction text with
  | nil => simp [splitFrom]
  | cons c rest ih =>
      intro depth piece mem
      simp only [splitFrom] at mem
      split at mem
      · exact length_le_of_mem_consFirst (ih _) piece mem
      split at mem
      · exact length_le_of_mem_consFirst (ih _) piece mem
      split at mem
      · simp only [List.mem_cons] at mem
        rcases mem with rfl | mem
        · simp
        · exact Nat.le_succ_of_le (ih _ piece mem)
      · exact length_le_of_mem_consFirst (ih _) piece mem

theorem length_bound_le (argument : List Char) :
    (bound argument).length ≤ argument.length := by
  unfold bound
  have trimmed := length_trim_le argument
  split
  · rename_i rest eq
    rw [eq, List.length_cons] at trimmed
    have := length_dropWord_le "super ".toList (dropWord "extends ".toList (trim rest))
    have := length_dropWord_le "extends ".toList (trim rest)
    have := length_trim_le rest
    omega
  · exact trimmed

/-- Type arguments are shorter than the text they stand in. -/
theorem length_lt_of_mem_arguments {text argument : List Char}
    (mem : argument ∈ arguments text) : argument.length < text.length := by
  unfold arguments at mem
  split at mem
  · simp at mem
  · rename_i inside eq
    obtain ⟨piece, pieceMem, rfl⟩ := List.mem_map.1 mem
    obtain ⟨behind, after, before⟩ := Option.bind_eq_some_iff.1 eq
    have := length_lt_of_afterFirst? after
    have := length_lt_of_beforeLast? before
    have := length_le_of_mem_splitFrom inside 0 piece pieceMem
    have := length_bound_le piece
    omega

/-- All type names in the text of a type, the outer type first and then those
of each argument from left to right. -/
def names (text : List Char) : List (List Char) :=
  ownName text ++ (arguments text).attach.flatMap fun argument => names argument.1
termination_by text.length
decreasing_by exact length_lt_of_mem_arguments argument.2

end JavaUml.Java.TypeText

namespace JavaUml.Java

/-- The type without its arguments, array brackets and varargs dots:
`List<Food>[]` is based on `List`. -/
def typeBase (text : String) : String :=
  String.ofList (TypeText.base text.toList)

/-- All type names in the text of a type: `Map<String, List<Food>>` names
`Map`, `String`, `List` and `Food`. -/
def typeNames (text : String) : List String :=
  (TypeText.names text.toList).map String.ofList

/-- Cut at the commas outside angle brackets. -/
def splitTopLevel (text : String) : List String :=
  (TypeText.splitTop text.toList).map String.ofList

/-- Whether the text of a type has array brackets in it. -/
def isArrayType (text : String) : Bool :=
  TypeText.hasBrackets text.toList

end JavaUml.Java
