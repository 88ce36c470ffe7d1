/-!
# Lines of a diagram

Diagrams are lists of lines.  Their text ends every line with a line feed.
Names that a diagram lists without an order of its own are sorted by code
point.
-/

namespace JavaUml.Diagram

/-- The text of a diagram. -/
def textOf (lines : List String) : String :=
  "\n".intercalate lines ++ "\n"

/-- Names in the order of their code points. -/
def sorted (names : List String) : List String :=
  names.mergeSort fun first second => decide (first ≤ second)

end JavaUml.Diagram
