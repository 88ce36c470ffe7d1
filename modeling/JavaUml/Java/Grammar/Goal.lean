import JavaUml.Java.Grammar.Types
import JavaUml.Java.Tree

/-!
# Goals of the recursive grammar

Expressions hold class bodies, these hold statements, and statements hold
expressions.  The rules of the grammar therefore name what they recur to as a
goal, and take as an argument how goals are met.  `Unit` ties the knot.
-/

namespace JavaUml.Java.Grammar

/-- What the rules recur to. -/
inductive Goal where
  /-- An expression, assignments included. -/
  | expression
  /-- An expression without an assignment. -/
  | conditional
  /-- An operand with the operators in front of it and behind it. -/
  | operand
  /-- An expression or an array in braces. -/
  | variableValue
  /-- An annotation. -/
  | annotationUse
  /-- The value of an annotation element. -/
  | elementValue
  /-- A statement. -/
  | statement
  /-- The statements of a block. -/
  | block
  /-- The members of a class in braces. -/
  | classBody
  /-- A type declaration with its modifiers. -/
  | typeDeclaration
  deriving DecidableEq, Repr

/-- What meeting a goal yields. -/
@[reducible]
def Goal.Result : Goal → Type
  | block => List Node
  | classBody => List Node
  | _ => Node

/-- How goals are met. -/
abbrev Rules := (goal : Goal) → Parser goal.Result

/-- Modifiers and annotations in front of a declaration. -/
structure Preamble where
  modifiers : List String
  annotations : List Node

/-- Whether an annotation comes next, and not the declaration of an annotation
type. -/
def annotationAhead : Parser Bool := do
  return (← ahead ["@"]) && !(← ahead ["@", "interface"])

/-- One annotation or more. -/
def annotations (rules : Rules) : Parser (List Node) := do
  return (← rules .annotationUse) :: (← whileHolds annotationAhead (rules .annotationUse))

/-- Modifiers and annotations in any order. -/
def preamble (rules : Rules) : Parser Preamble := do
  let found ← whileHolds (do return (← peek).any Token.isModifier || (← annotationAhead)) do
    match ← peek with
    | some (.modifier word) =>
        let _ ← next
        return Sum.inl word
    | _ => return Sum.inr (← rules .annotationUse)
  return {
    modifiers := found.filterMap Sum.getLeft?
    annotations := found.filterMap Sum.getRight? }

/-- The annotations in front of a variable; `final` is passed over. -/
def variableAnnotations (rules : Rules) : Parser (List Node) := do
  let found ← whileHolds (do return (← ahead ["final"]) || (← annotationAhead)) do
    if ← accept ["final"] then return none
    else return some (← rules .annotationUse)
  return found.filterMap id

/-- The value of an annotation element: an annotation, values in braces or an
expression. -/
def elementValue (rules : Rules) : Parser Node := do
  if ← annotationAhead then rules .annotationUse
  else if ← accept [openBrace] then
    if ← accept [closeBrace] then return .group .arrayValue []
    else
      let first ← rules .elementValue
      let others ← untilHolds (do return (← ahead [closeBrace]) || (← ahead [",", closeBrace])) do
        expect ","
        rules .elementValue
      let _ ← accept [","]
      expect closeBrace
      return .group .arrayValue (first :: others)
  else rules .conditional

/-- An annotation with its elements. -/
def annotationUse (rules : Rules) : Parser Node := do
  expect "@"
  let _ ← qualifiedName
  if ← accept ["("] then
    let values ←
      if ← ahead [")"] then pure []
      else if ← identifierAhead ["="] then
        separated "," do
          let _ ← identifier
          expect "="
          rules .elementValue
      else pure [← rules .elementValue]
    expect ")"
    return .group .annotationUse values
  else return .group .annotationUse []

/-- A parameter with a type. -/
def formalParameter (rules : Rules) : Parser (Node × Bool) := do
  let annotations ← variableAnnotations rules
  let declared ← type
  let isVariadic ← accept ["..."]
  let name ← identifier
  let more ← dimensions
  return (.parameter name (declared.addDimensions more) isVariadic annotations, isVariadic)

/-- Parameters behind the first one, for a bounded number of rounds.  None
follows a parameter of variable arity. -/
def parametersIn (rules : Rules) : Nat → Parser (List Node)
  | 0 => mismatch
  | rounds + 1 => do
      let (parameter, isVariadic) ← formalParameter rules
      if isVariadic then return [parameter]
      else if ← accept [","] then return parameter :: (← parametersIn rules rounds)
      else return [parameter]

/-- Parameters in parentheses. -/
def formalParameters (rules : Rules) : Parser (List Node) := do
  expect "("
  if ← accept [")"] then return []
  else
    let parameters ← parametersIn rules (← enoughRounds)
    expect ")"
    return parameters

/-- An array in braces.  A lone comma and a comma at the end are allowed. -/
def arrayValue (rules : Rules) : Parser Node := do
  expect openBrace
  if ← accept [","] then
    expect closeBrace
    return .group .arrayValue []
  else if ← accept [closeBrace] then return .group .arrayValue []
  else
    let values ← untilHolds (accept [closeBrace]) do
      let value ← rules .variableValue
      if !(← ahead [closeBrace]) then expect ","
      return value
    return .group .arrayValue values

/-- The initial value of a variable. -/
def variableValue (rules : Rules) : Parser Node := do
  if ← ahead [openBrace] then arrayValue rules else rules .expression

/-- What stands behind the name of a variable: dimensions of its own, and its
initial value. -/
def declaratorRest (rules : Rules) : Parser (List Node) := do
  let _ ← dimensions
  if ← accept ["="] then return [← rules .variableValue] else return []

/-- A variable with its initial value. -/
def declarator (rules : Rules) : Parser (String × List Node) := do
  let name ← identifier
  return (name, ← declaratorRest rules)

end JavaUml.Java.Grammar
