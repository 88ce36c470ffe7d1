import JavaUml.Java.Grammar.Parser
import JavaUml.Java.TypeRef

/-!
# The grammar of types

Types, type arguments and type parameters.  A basic type stands alone or as an
array in type arguments and lists of types.
-/

namespace JavaUml.Java.Grammar

/-- The number of pairs of brackets that come next. -/
def dimensions : Parser Nat := do
  return (← whileHolds (accept ["[", "]"]) (pure ())).length

/-- Take the name of a basic type. -/
def basicName : Parser Word := do
  match ← next with
  | .basicType name => return name
  | _ => mismatch

/-- A type of a list or an argument: an array if it is basic. -/
def elementType (path : Parser (List Segment)) : Parser TypeRef := do
  if ← basicTypeAhead then
    let name ← basicName
    expect "["
    expect "]"
    return .mk [.mk name []] (1 + (← dimensions))
  else
    let path ← path
    return .mk path (← dimensions)

/-- A type argument. -/
def typeArgument (path : Parser (List Segment)) : Parser TypeArgument := do
  if ← accept ["?"] then
    if ← accept ["extends"] then return .bounded .upper (← elementType path)
    else if ← accept ["super"] then return .bounded .lower (← elementType path)
    else return .wildcard
  else return .exactly (← elementType path)

/-- Items in angle brackets. -/
def angled {α : Type} (item : Parser α) : Parser (List α) := do
  expect "<"
  let items ← separated "," item
  expect ">"
  return items

/-- A segment of a path, where the arguments follow an opening bracket. -/
def segment (arguments : Parser (List TypeArgument)) : Parser Segment := do
  let name ← word
  if ← ahead ["<"] then return .mk name (← arguments)
  else return .mk name []

/-- A path of segments whose arguments are nested at most so deep. -/
def pathIn : Nat → Parser (List Segment)
  | 0 => mismatch
  | depth + 1 => separated "." (segment (angled (typeArgument (pathIn depth))))

/-- The path of a reference type. -/
def path : Parser (List Segment) := do
  pathIn (← enoughRounds)

/-- Type arguments, wildcards included. -/
def typeArguments : Parser (List TypeArgument) :=
  angled (typeArgument path)

/-- A type with its dimensions. -/
def type : Parser TypeRef := do
  match ← peek with
  | some (.basicType _) =>
      let name ← basicName
      return .mk [.mk name []] (← dimensions)
  | some (.identifier _) =>
      let path ← path
      return .mk path (← dimensions)
  | _ => mismatch

/-- A list of types. -/
def typeList : Parser (List TypeRef) :=
  separated "," (elementType path)

/-- Type arguments of a call or constructor, which have no wildcards. -/
def plainArguments : Parser (List TypeArgument) := do
  return (← angled (elementType path)).map .exactly

/-- Whether an empty pair of angle brackets was taken. -/
def diamond : Parser Bool :=
  accept ["<", ">"]

/-- The path behind `new`, where arguments may be left out between brackets. -/
def createdPath : Parser (List Segment) :=
  separated "." (segment (do if ← diamond then return [] else typeArguments))

/-- A type parameter, of which the name is kept. -/
def typeParameter : Parser String := do
  let name ← identifier
  if ← accept ["extends"] then
    let _ ← separated "&" path
    return name
  else return name

/-- Type parameters if an opening bracket comes next. -/
def typeParameters? : Parser (List String) := do
  if ← ahead ["<"] then angled typeParameter else return []

end JavaUml.Java.Grammar
