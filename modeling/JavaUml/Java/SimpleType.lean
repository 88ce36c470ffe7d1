import JavaUml.Text.Category

/-!
# Types without their qualifiers

In the text of a type every qualified name is cut to its last identifier:
`java.util.List<com.x.Food>` becomes `List<Food>`.  An identifier starts with
an ASCII letter, `_` or `$`, wherever in the text that character stands, and
goes on with the characters of a word and `$`.
-/

namespace JavaUml.Java

/-- Characters that start an identifier of a qualified name. -/
def isNameStart (c : Char) : Bool :=
  Text.isAsciiLetter c || c == '_' || c == '$'

/-- Characters that continue an identifier of a qualified name. -/
def isNamePart (c : Char) : Bool :=
  Text.isWordPart c || c == '$'

/-- Whether an identifier starts here. -/
def startsName : List Char → Bool
  | [] => false
  | c :: _ => isNameStart c

/-- Cut qualified names.  The first argument is the identifier that has been
read up to this point: it goes if a dot and another identifier follow, and is
kept otherwise. -/
def unqualifyFrom : Option (List Char) → List Char → List Char
  | word, [] => word.getD []
  | none, c :: rest =>
      if isNameStart c then unqualifyFrom (some [c]) rest else c :: unqualifyFrom none rest
  | some word, c :: rest =>
      if isNamePart c then unqualifyFrom (some (word ++ [c])) rest
      else if c = '.' ∧ startsName rest then unqualifyFrom none rest
      else word ++ c :: unqualifyFrom none rest

/-- Cut every qualified name in the text of a type to its last identifier. -/
def simpleType (text : String) : String :=
  String.ofList (unqualifyFrom none text.toList)

end JavaUml.Java
