/-!
# Cutting text at a character

Texts are cut at every occurrence of a separator, before its first or last
occurrence, or after its last one.
-/

namespace JavaUml.Text

/-- Put a character in front of the first piece. -/
def consFirst (c : Char) : List (List Char) → List (List Char)
  | [] => [[c]]
  | piece :: pieces => (c :: piece) :: pieces

/-- Cut at every occurrence of a separator.  A text without it is one piece,
and the empty text is one empty piece. -/
def splitAt (separator : Char) : List Char → List (List Char)
  | [] => [[]]
  | c :: rest =>
      if c = separator then [] :: splitAt separator rest
      else consFirst c (splitAt separator rest)

/-- The text before the first occurrence of a character, or all of it. -/
def beforeFirst (c : Char) (text : List Char) : List Char :=
  text.takeWhile (· != c)

/-- The text after the first occurrence of a character, if it occurs. -/
def afterFirst? (c : Char) (text : List Char) : Option (List Char) :=
  match text.dropWhile (· != c) with
  | [] => none
  | _ :: rest => some rest

/-- The text before the last occurrence of a character, if it occurs. -/
def beforeLast? (c : Char) (text : List Char) : Option (List Char) :=
  (afterFirst? c text.reverse).map List.reverse

/-- The text after the last occurrence of a character, or all of it. -/
def afterLast (c : Char) (text : List Char) : List Char :=
  (beforeFirst c text.reverse).reverse

/-- Remove a word at the front, if the text starts with it. -/
def dropWord (word text : List Char) : List Char :=
  if word.isPrefixOf text then text.drop word.length else text

theorem length_dropWord_le (word text : List Char) :
    (dropWord word text).length ≤ text.length := by
  unfold dropWord
  split
  · simp
  · exact Nat.le_refl _

theorem length_lt_of_afterFirst? {c : Char} {text rest : List Char}
    (found : afterFirst? c text = some rest) : rest.length < text.length := by
  unfold afterFirst? at found
  have shorter := (List.dropWhile_sublist (· != c) (l := text)).length_le
  split at found
  · simp at found
  · rename_i dropped
    rw [dropped] at shorter
    simp only [Option.some.injEq] at found
    subst found
    exact shorter

theorem length_lt_of_beforeLast? {c : Char} {text rest : List Char}
    (found : beforeLast? c text = some rest) : rest.length < text.length := by
  unfold beforeLast? at found
  obtain ⟨behind, eq, rfl⟩ := Option.map_eq_some_iff.1 found
  simpa using length_lt_of_afterFirst? eq

/-- Join pieces with a separator between them. -/
def join (separator : List Char) : List (List Char) → List Char
  | [] => []
  | [piece] => piece
  | piece :: pieces => piece ++ separator ++ join separator pieces

/-- Cut a text at a separator. -/
def split (separator : Char) (text : String) : List String :=
  (splitAt separator text.toList).map String.ofList

end JavaUml.Text
