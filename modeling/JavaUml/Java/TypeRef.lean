import JavaUml.Java.Word

/-!
# Types as written

A type is a path of named segments, each with type arguments of its own, and a
number of array dimensions.  A basic type is a path of one segment.  The text of
a type is written in one fixed way: a comma and a blank between arguments, one
`[]` per dimension at the end.
-/

namespace JavaUml.Java

/-- On which side a wildcard is bounded. -/
inductive BoundKind where
  | upper
  | lower
  deriving DecidableEq, Repr

mutual

/-- A type. -/
inductive TypeRef where
  | mk (path : List Segment) (dimensions : Nat)

/-- A name in the path of a type, with its type arguments. -/
inductive Segment where
  | mk (name : Word) (arguments : List TypeArgument)

/-- A type argument. -/
inductive TypeArgument where
  | wildcard
  | bounded (kind : BoundKind) (type : TypeRef)
  | exactly (type : TypeRef)

end

instance : Inhabited TypeRef := ⟨.mk [] 0⟩

/-- The word of a bound. -/
def BoundKind.word : BoundKind → String
  | upper => "extends"
  | lower => "super"

/-- One pair of brackets per dimension. -/
def brackets (dimensions : Nat) : String :=
  String.join (List.replicate dimensions "[]")

mutual

/-- The text of a type. -/
def TypeRef.text : TypeRef → String
  | .mk path dimensions => ".".intercalate (segmentTexts path) ++ brackets dimensions

/-- The texts of the segments of a path. -/
def segmentTexts : List Segment → List String
  | [] => []
  | segment :: segments => segment.text :: segmentTexts segments

/-- The text of a segment.  No brackets are written around no arguments. -/
def Segment.text : Segment → String
  | .mk name [] => name.text
  | .mk name (first :: rest) =>
      name.text ++ "<" ++ ", ".intercalate (first.text :: argumentTexts rest) ++ ">"

/-- The texts of type arguments. -/
def argumentTexts : List TypeArgument → List String
  | [] => []
  | argument :: arguments => argument.text :: argumentTexts arguments

/-- The text of a type argument. -/
def TypeArgument.text : TypeArgument → String
  | .wildcard => "?"
  | .bounded kind type => "? " ++ kind.word ++ " " ++ type.text
  | .exactly type => type.text

end

namespace TypeRef

/-- Add array dimensions. -/
def addDimensions (more : Nat) : TypeRef → TypeRef
  | .mk path dimensions => .mk path (dimensions + more)

/-- The name of the last segment. -/
def lastName : TypeRef → String
  | .mk path _ =>
      match path.getLast? with
      | some (.mk name _) => name.text
      | none => ""

end TypeRef

/-- The text of an optional type, where a missing one is `void`. -/
def returnText (type : Option TypeRef) : String :=
  match type with
  | none => "void"
  | some type => type.text

end JavaUml.Java
