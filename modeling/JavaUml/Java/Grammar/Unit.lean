import JavaUml.Java.Grammar.Declarations
import JavaUml.Java.Tokens

/-!
# Compilation units

The rules of the grammar are tied together by a bound on how deep goals are
nested.  A goal never recurs to itself without taking a token, so a small
multiple of the number of tokens bounds the depth.

The text may end in three bad places.  Behind an operand the end is a fault of
its own.  Elsewhere inside a type declaration it is a plain rejection, and in
front of the type declarations it is another fault of its own.
-/

namespace JavaUml.Java.Grammar

/-- Meet a goal whose own goals are nested at most so deep. -/
def meet : Nat → Rules
  | 0, _ => mismatch
  | depth + 1, goal =>
      let rules := meet depth
      match goal with
      | .expression => expression rules
      | .conditional => conditional rules
      | .operand => operand rules
      | .variableValue => variableValue rules
      | .annotationUse => annotationUse rules
      | .elementValue => elementValue rules
      | .statement => statement rules (blockStatement rules)
      | .block => block rules
      | .classBody => anonymousBody rules
      | .typeDeclaration => typeDeclaration rules

/-- The rules for the tokens that are left. -/
def rulesHere : Parser ((goal : Goal) → Parser goal.Result) := do
  return meet (8 * (← enoughRounds))

/-- The names of an import, and whether a star ends them, for a bounded number
of rounds. -/
def importPathIn : Nat → Parser (List String × Bool)
  | 0 => mismatch
  | rounds + 1 => do
      let name ← identifier
      if ← accept ["."] then
        if ← accept ["*"] then
          expect ";"
          return ([name], true)
        else
          let (names, isWildcard) ← importPathIn rounds
          return (name :: names, isWildcard)
      else
        expect ";"
        return ([name], false)

/-- An import declaration. -/
def importDeclaration : Parser Import := do
  expect "import"
  let isStatic ← accept ["static"]
  let (names, isWildcard) ← importPathIn (← enoughRounds)
  return ⟨".".intercalate names, isStatic, isWildcard⟩

/-- The name of the package, if one is declared, with its annotations.
Annotations that no package declaration follows are given up, to be read with
the first type. -/
def packageDeclaration : Parser (String × List Node) := do
  let found ← if ← annotationAhead then annotations (← rulesHere) else pure []
  if ← accept ["package"] then
    let name ← qualifiedName
    expect ";"
    return (name, found)
  else
    goTo (← get).back
    return ("", [])

/-- The package, its annotations and the imports of a compilation unit. -/
def unitHeader : Parser (String × List Node × List Import) := do
  let (package, annotations) ← packageDeclaration
  let imports ← whileHolds (ahead ["import"]) importDeclaration
  return (package, annotations, imports)

/-- The types of a compilation unit.  Semicolons between them leave nothing. -/
def unitTypes : Parser (List Node) := do
  let rules ← rulesHere
  let types ← untilHolds (do return (← left).isEmpty) do
    if ← accept [";"] then return []
    else return [← typeDeclaration rules]
  return types.flatten

end JavaUml.Java.Grammar

namespace JavaUml.Java

open Grammar

/-- The fault of a failure in front of the type declarations. -/
def headerFault : Failure → Fault
  | .mismatch _ => .rejected
  | .exhausted => .endsInHeader
  | .abruptEnd => .endsAfterOperand

/-- The fault of a failure inside the type declarations. -/
def typeFault : Failure → Fault
  | .mismatch _ => .rejected
  | .exhausted => .rejected
  | .abruptEnd => .endsAfterOperand

/-- The tree of a list of tokens. -/
def unitOf (tokens : List Token) : Except Fault CompilationUnit := do
  let ((package, annotations, imports), rest) ←
    (unitHeader.run (.start tokens)).mapError headerFault
  let (types, _) ← (unitTypes.run rest).mapError typeFault
  return { package, annotations, imports, types }

/-- The tree of a Java text. -/
def parse (text : String) : Except Fault CompilationUnit := do
  unitOf (← tokens text)

end JavaUml.Java
