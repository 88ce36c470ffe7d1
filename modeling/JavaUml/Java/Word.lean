import JavaUml.Java.Naming
import JavaUml.Text.Category

/-!
# Words

What one identifier or reserved word of Java text reads.  A word is not empty and
has no dot in it, so it is never taken for a name with a package in front.
-/

namespace JavaUml.Java

open JavaUml.Text

/-- A name of one part. -/
structure Word where
  text : String
  text_ne_empty : text ≠ ""
  isDotted_text : isDotted text = false
  deriving DecidableEq, Repr

/-- The word that a character starts. -/
def Word.startingWith (c : Char) (starts : isIdentifierStart c = true) (rest : List Char) :
    Word where
  text := String.ofList (c :: rest.takeWhile isIdentifierPart)
  text_ne_empty := by simp
  isDotted_text := by
    have notStart : c ≠ '.' := by
      rintro rfl
      exact absurd starts (by decide)
    have notPart : ∀ part ∈ rest.takeWhile isIdentifierPart, part ≠ '.' := by
      rintro _ member rfl
      exact absurd (List.all_eq_true.1 List.all_takeWhile _ member) (by decide)
    simp only [isDotted, String.toList_ofList, List.contains_eq_mem, List.mem_cons,
      decide_eq_false_iff_not, not_or]
    exact ⟨notStart.symm, fun member => notPart _ member rfl⟩

end JavaUml.Java
