import JavaUml.Java.Grammar.Goal

/-!
# The grammar of expressions

Parentheses leave no node: what stands in them takes the selectors behind the
closing one in place of its own, if it is a primary, and drops them otherwise.
A type in parentheses is a cast whenever an operand follows.
-/

namespace JavaUml.Java.Grammar

/-- A primary without selectors. -/
def bare (link : Link) (parts : List Node) : Node :=
  .primary link parts []

/-- Replace the selectors of a primary.  Other nodes have none. -/
def withSelectors (selectors : List Node) : Node → Node
  | .primary link parts _ => .primary link parts selectors
  | node => node

/-- A call that is not made on `super`. -/
def callOf (qualifier name : String) (arguments : List Node) : Node :=
  bare (.call ⟨false, qualifier, name, arguments.length⟩) arguments

/-- An expression in parentheses. -/
def parenthesised (rules : Rules) : Parser Node := do
  expect "("
  let inside ← rules .expression
  expect ")"
  return inside

/-- Arguments in parentheses. -/
def arguments (rules : Rules) : Parser (List Node) := do
  expect "("
  if ← accept [")"] then return []
  else
    let inside ← separated "," (rules .expression)
    expect ")"
    return inside

/-- What follows `super`: a call, a field or the arguments of a constructor. -/
def superRest (rules : Rules) : Parser Node := do
  if ← accept ["."] then
    if ← ahead ["<"] then
      let _ ← plainArguments
    let name ← identifier
    if ← ahead ["("] then
      let given ← arguments rules
      return bare (.call ⟨true, "", name, given.length⟩) given
    else return bare (.other .superField) []
  else return bare (.other .superConstructor) (← arguments rules)

/-- What follows explicit type arguments: a call by name or on `super`.  The
names in front of the type arguments are the path, of which the last one takes
the place of the name that is called. -/
def genericCall (rules : Rules) (path : List String) : Parser Node := do
  if ← accept ["super"] then superRest rules
  else
    let name ← identifier
    let given ← arguments rules
    match path.getLast? with
    | none => return callOf "" name given
    | some last => return callOf (".".intercalate path.dropLast) last given

/-- The arguments of a constructor and the body of an anonymous class. -/
def creatorRest (rules : Rules) : Parser (List Node) := do
  let given ← arguments rules
  if ← ahead [openBrace] then return given ++ (← rules .classBody) else return given

/-- What follows the element type of a new array. -/
def newArrayRest (rules : Rules) : Parser Node := do
  if ← ahead ["[", "]"] then
    let _ ← dimensions
    return bare (.other .newArray) [← arrayValue rules]
  else
    let sizes ← whileHolds (do return (← ahead ["["]) && !(← ahead ["[", "]"])) do
      expect "["
      let size ← rules .expression
      expect "]"
      return size
    let _ ← dimensions
    return bare (.other .newArray) sizes

/-- What follows `new`. -/
def creator (rules : Rules) : Parser Node := do
  if ← basicTypeAhead then
    let _ ← basicName
    newArrayRest rules
  else
    let isGeneric ← ahead ["<"]
    if isGeneric then
      let _ ← plainArguments
    let created ← createdPath
    if ← ahead ["["] then
      if isGeneric then mismatch else newArrayRest rules
    else return bare (.create (.mk created 0)) (← creatorRest rules)

/-- What follows `new` behind the dot of an outer instance. -/
def innerCreator (rules : Rules) : Parser Node := do
  if ← ahead ["<"] then
    let _ ← plainArguments
  let _ ← identifier
  if ← ahead ["<"] then
    if !(← diamond) then
      let _ ← plainArguments
  return bare (.other .newInner) (← creatorRest rules)

/-- What follows a dotted path of identifiers. -/
def pathRest (rules : Rules) (path : List String) : Parser Node := do
  let qualifier := ".".intercalate path.dropLast
  let last := path.getLast?.getD ""
  if ← accept ["[", "]"] then
    let _ ← dimensions
    expect "."
    expect "class"
    return bare (.other .classLiteral) []
  else if ← ahead ["("] then return callOf qualifier last (← arguments rules)
  else if ← accept [".", "class"] then return bare (.other .classLiteral) []
  else if ← accept [".", "this"] then return bare .this []
  else if ← ahead [".", "<"] then
    expect "."
    let _ ← plainArguments
    genericCall rules path
  else if ← accept [".", "new"] then innerCreator rules
  else if ← ahead [".", "super", "("] then
    expect "."
    expect "super"
    return bare (.other .superConstructor) (← arguments rules)
  else return bare (.name qualifier last) []

/-- A primary, without the selectors behind it. -/
def primary (rules : Rules) : Parser Node := do
  match ← peek with
  | some .literal =>
      let _ ← next
      return bare (.other .literal) []
  | some (.identifier _) =>
      let first ← identifier
      let others ← whileHolds (dottedIdentifierAhead) do
        expect "."
        identifier
      pathRest rules (first :: others)
  | some (.basicType _) =>
      let _ ← basicName
      let _ ← dimensions
      expect "."
      expect "class"
      return bare (.other .classLiteral) []
  | some token =>
      match token.text with
      | "(" => parenthesised rules
      | "this" =>
          let _ ← next
          if ← ahead ["("] then return bare (.other .ownConstructor) (← arguments rules)
          else return bare .this []
      | "super" =>
          let _ ← next
          if ← ahead ["::"] then return bare (.other .superWord) [] else superRest rules
      | "new" =>
          let _ ← next
          creator rules
      | "<" =>
          let _ ← plainArguments
          if ← accept ["this"] then return bare (.other .ownConstructor) (← arguments rules)
          else genericCall rules []
      | "void" =>
          let _ ← next
          expect "."
          expect "class"
          return bare (.other .voidLiteral) []
      | _ => mismatch
  | none => mismatch
where
  /-- Whether a dot and an identifier come next. -/
  dottedIdentifierAhead : Parser Bool := do
    match ← left with
    | .sign "." :: .identifier _ :: _ => return true
    | _ => return false

/-- A selector: an index, or a dot with a name, a call or the like. -/
def selector (rules : Rules) : Parser Node := do
  if ← accept ["["] then
    let index ← rules .expression
    expect "]"
    return bare (.other .index) [index]
  else
    expect "."
    match ← peek with
    | some (.identifier name) =>
        let _ ← next
        if ← ahead ["("] then return callOf "" name.text (← arguments rules)
        else return bare (.name "" name.text) []
    | some token =>
        match token.text with
        | "super" =>
            let _ ← next
            if ← ahead ["::"] then return bare (.other .superWord) [] else superRest rules
        | "<" =>
            let _ ← plainArguments
            genericCall rules []
        | "this" =>
            let _ ← next
            return bare .this []
        | "new" =>
            let _ ← next
            innerCreator rules
        | _ => mismatch
    | none => mismatch

/-- Whether a selector comes next.  The text must not end here. -/
def selectorAhead : Parser Bool := do
  match ← peek with
  | none => throw .abruptEnd
  | some token => return token.text == "[" || token.text == "."

/-- The body of a lambda, from its arrow on: a block or an expression. -/
def lambdaBody (rules : Rules) : Parser (List Node) := do
  expect "->"
  if ← ahead [openBrace] then rules .block else return [← rules .expression]

/-- A lambda with its parameters in parentheses.  Parameters without a type
leave no node, and a comma is needed only behind the first of them. -/
def lambda (rules : Rules) : Parser Node := do
  let parameters ←
    if ← namesAhead then
      expect "("
      let _ ← untilHolds (ahead [")"]) do
        let name ← identifier
        let _ ← accept [","]
        return name
      expect ")"
      pure []
    else formalParameters rules
  return .group .lambda (parameters ++ (← lambdaBody rules))
where
  /-- Whether a name and a comma in parentheses come next. -/
  namesAhead : Parser Bool := do
    match ← left with
    | .sign "(" :: .identifier _ :: .sign "," :: _ => return true
    | _ => return false

/-- A cast. -/
def cast (rules : Rules) : Parser Node := do
  expect "("
  let _ ← type
  expect ")"
  return .group .cast [← rules .operand]

/-- An operand: a lambda, a cast, or a primary with its selectors. -/
def operand (rules : Rules) : Parser Node := do
  let _ ← whileHolds (oneOfAhead leadingOperators) next
  let chain : Parser Node := do
    let head ← primary rules
    let selectors ← whileHolds selectorAhead (selector rules)
    let _ ← whileHolds (oneOfAhead trailingOperators) next
    return withSelectors selectors head
  if ← ahead ["("] then orElse (lambda rules) (orElse (cast rules) chain) else chain

/-- Operands with operators between them.  A shift to the right is written with
two or three signs. -/
def operation (rules : Rules) : Parser Node := do
  let first ← rules .operand
  let others ← whileHolds (oneOfAhead ("instanceof" :: binaryOperators)) do
    if ← accept ["instanceof"] then
      let _ ← type
      return none
    else
      let sign ← next
      if sign.text = ">" then
        if ← accept [">"] then
          let _ ← accept [">"]
      return some (← rules .operand)
  if others.isEmpty then return first
  else return .group .operation (first :: others.filterMap id)

/-- An expression without an assignment. -/
def conditional (rules : Rules) : Parser Node := do
  let first ← operation rules
  if ← accept ["?"] then
    let whenTrue ← rules .expression
    expect ":"
    return .group .conditional [first, whenTrue, ← rules .conditional]
  else if ← ahead ["->"] then return .group .lambda (first :: (← lambdaBody rules))
  else if ← accept ["::"] then
    if ← ahead ["<"] then
      let _ ← plainArguments
    if ← accept ["new"] then return .group .methodReference [first, bare (.name "" "new") []]
    else return .group .methodReference [first, ← rules .expression]
  else return first

/-- An expression. -/
def expression (rules : Rules) : Parser Node := do
  let target ← conditional rules
  if ← oneOfAhead assignmentOperators then
    let _ ← next
    return .group .assignment [target, ← rules .expression]
  else return target

end JavaUml.Java.Grammar
