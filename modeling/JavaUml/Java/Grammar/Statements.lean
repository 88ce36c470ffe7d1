import JavaUml.Java.Grammar.Expressions

/-!
# The grammar of statements

A statement in a block may turn out to be a declaration.  What it is is decided
by looking past the modifiers and annotations in front of it; where an
identifier comes next, a variable declaration is tried first.
-/

namespace JavaUml.Java.Grammar

/-! ## Variables -/

/-- A local variable declaration with its semicolon. -/
def localVariables (rules : Rules) : Parser Node := do
  let annotations ← variableAnnotations rules
  let declared ← type
  let declarators ← separated "," (declarator rules)
  expect ";"
  return .variables declared (declarators.map Prod.fst)
    (annotations ++ declarators.flatMap Prod.snd)

/-! ## Loops -/

/-- A list of expressions. -/
def expressions (rules : Rules) : Parser (List Node) :=
  separated "," (rules .expression)

/-- The condition and the steps of a loop, from the first semicolon on. -/
def loopRest (rules : Rules) : Parser (List Node) := do
  expect ";"
  let condition ← if ← ahead [";"] then pure [] else pure [← rules .expression]
  expect ";"
  let steps ← if ← ahead [")"] then pure [] else expressions rules
  return condition ++ steps

/-- The control of a loop that declares variables.  Dimensions behind the first
name belong to the type. -/
def declaringControl (rules : Rules) : Parser (List Node) := do
  let annotations ← variableAnnotations rules
  let declared ← type
  let name ← identifier
  let declared := declared.addDimensions (← dimensions)
  if ← accept [":"] then
    return [.variables declared [name] annotations, ← rules .expression]
  else
    let initial ← if ← accept ["="] then pure [← rules .variableValue] else pure []
    let others ← whileHolds (accept [","]) (declarator rules)
    let rest ← loopRest rules
    return .variables declared (name :: others.map Prod.fst)
      (annotations ++ initial ++ others.flatMap Prod.snd) :: rest

/-- The control of a loop that starts with expressions. -/
def plainControl (rules : Rules) : Parser (List Node) := do
  let initial ← if ← ahead [";"] then pure [] else expressions rules
  return initial ++ (← loopRest rules)

/-! ## Switches -/

/-- The statements that a rule of this module nests, apart from goals. -/
abbrev BlockStatement := Parser Node

/-- The labels in front of a group of statements.  A name alone leaves no
node. -/
def caseLabel (rules : Rules) : Parser (List Node) := do
  let word ← next
  let label ←
    if word.text = "case" then
      if ← identifierAhead [":"] then
        let _ ← identifier
        pure []
      else pure [← rules .expression]
    else if word.text = "default" then pure []
    else mismatch
  expect ":"
  return label

/-- The word in front of a label comes next. -/
def labelAhead : Parser Bool :=
  oneOfAhead ["case", "default"]

/-- Labels and the statements behind them. -/
def caseGroup (rules : Rules) (blockStatement : BlockStatement) : Parser Node := do
  let labels := (← caseLabel rules) :: (← whileHolds labelAhead (caseLabel rules))
  let statements ← untilHolds (oneOfAhead ["case", "default", closeBrace]) blockStatement
  return .group .caseGroup (labels.flatten ++ statements)

/-! ## Exceptions -/

/-- A catch clause.  The annotations of its parameter are dropped. -/
def catchClause (rules : Rules) : Parser Node := do
  expect "catch"
  expect "("
  let _ ← variableAnnotations rules
  let types ← separated "|" qualifiedName
  let name ← identifier
  expect ")"
  return .group .catchClause (.caught types name :: (← rules .block))

/-- A resource with its initial value. -/
def resource (rules : Rules) : Parser Node := do
  let annotations ← variableAnnotations rules
  let _ ← path
  let _ ← dimensions
  let _ ← identifier
  let _ ← dimensions
  expect "="
  return .group .resource (annotations ++ [← rules .expression])

/-- Resources in parentheses.  A semicolon may stand at the end. -/
def resources (rules : Rules) : Parser (List Node) := do
  expect "("
  let first ← resourceStep
  let others ← untilHolds (accept [")"]) resourceStep
  return first :: others
where
  /-- A resource, and the semicolon behind it unless it is the last one. -/
  resourceStep : Parser Node := do
    let found ← resource rules
    if !(← ahead [")"]) then expect ";"
    return found

/-- What follows `try`.  Without resources there must be a handler. -/
def tryRest (rules : Rules) : Parser Node := do
  let isPlain ← ahead [openBrace]
  let opened ← if isPlain then pure [] else resources rules
  let body ← rules .block
  let catches ← whileHolds (ahead ["catch"]) (catchClause rules)
  let hasFinally ← accept ["finally"]
  let final ← if hasFinally then rules .block else pure []
  if isPlain && catches.isEmpty && !hasFinally then mismatch
  else return .group .tryStatement (opened ++ body ++ catches ++ final)

/-! ## Statements -/

/-- A statement that starts with the given word, which has been taken. -/
def wordStatement (rules : Rules) (blockStatement : BlockStatement) (word : String) :
    Parser Node := do
  match word with
  | "if" =>
      let condition ← parenthesised rules
      let whenTrue ← rules .statement
      if ← accept ["else"] then
        return .group .ifStatement [condition, whenTrue, ← rules .statement]
      else return .group .ifStatement [condition, whenTrue]
  | "assert" =>
      let condition ← rules .expression
      let value ← if ← accept [":"] then pure [← rules .expression] else pure []
      expect ";"
      return .group .assertStatement (condition :: value)
  | "switch" =>
      let subject ← parenthesised rules
      expect openBrace
      let groups ← whileHolds labelAhead (caseGroup rules blockStatement)
      expect closeBrace
      return .group .switchStatement (subject :: groups)
  | "while" =>
      let condition ← parenthesised rules
      return .group .whileStatement [condition, ← rules .statement]
  | "do" =>
      let body ← rules .statement
      expect "while"
      let condition ← parenthesised rules
      expect ";"
      return .group .doStatement [condition, body]
  | "for" =>
      expect "("
      let control ← orElse (declaringControl rules) (plainControl rules)
      expect ")"
      return .group .forStatement (control ++ [← rules .statement])
  | "return" =>
      let value ← if ← ahead [";"] then pure [] else pure [← rules .expression]
      expect ";"
      return .group .returnStatement value
  | "throw" =>
      let value ← rules .expression
      expect ";"
      return .group .throwStatement [value]
  | "synchronized" =>
      let lock ← parenthesised rules
      return .group .synchronizedStatement (lock :: (← rules .block))
  | "try" => tryRest rules
  | _ =>
      if ← identifierAhead [] then
        let _ ← identifier
      expect ";"
      return .group .jump []

/-- The words that start a statement. -/
def statementWords : List String :=
  ["if", "assert", "switch", "while", "do", "for", "break", "continue", "return", "throw",
    "synchronized", "try"]

/-- A statement. -/
def statement (rules : Rules) (blockStatement : BlockStatement) : Parser Node := do
  if ← ahead [openBrace] then return .group .block (← rules .block)
  else if ← accept [";"] then return .group .emptyStatement []
  else if ← identifierAhead [":"] then
    let _ ← identifier
    expect ":"
    rules .statement
  else if ← oneOfAhead statementWords then
    let word ← next
    wordStatement rules blockStatement word.text
  else
    let value ← rules .expression
    expect ";"
    return .group .expressionStatement [value]

/-! ## Statements of a block -/

/-- What a statement of a block starts with. -/
inductive Opening where
  /-- A modifier of a declaration. -/
  | declaration
  /-- Another token, or the end; and whether annotations came before it. -/
  | token (first : Option Token) (isAnnotated : Bool)

/-- The tokens behind the rest of a dotted name. -/
def behindName : List Token → List Token
  | .sign "." :: _ :: rest => behindName rest
  | .sign "." :: [] => []
  | tokens => tokens

/-- The tokens behind the parenthesis that closes the given number of open
ones. -/
def behindParenthesis : Nat → List Token → List Token
  | 0, tokens => tokens
  | _ + 1, [] => []
  | depth + 1, .sign "(" :: rest => behindParenthesis (depth + 2) rest
  | depth + 1, .sign ")" :: rest => behindParenthesis depth rest
  | depth + 1, _ :: rest => behindParenthesis (depth + 1) rest

/-- Look past `final` and annotations.  Behind an annotation without
parentheses one token more is passed over. -/
def openingIn : Nat → Bool → List Token → Opening
  | 0, isAnnotated, tokens => .token tokens.head? isAnnotated
  | fuel + 1, isAnnotated, tokens =>
      match tokens with
      | .modifier word :: rest =>
          if word = "final" then openingIn fuel isAnnotated rest else .declaration
      | .sign "@" :: rest =>
          if rest.head?.map Token.text = some "interface" then .token tokens.head? isAnnotated
          else
            match behindName (rest.drop 1) with
            | .sign "(" :: inside => openingIn fuel true (behindParenthesis 1 inside)
            | behind => openingIn fuel true (behind.drop 1)
      | _ => .token tokens.head? isAnnotated

/-- What the tokens of a statement of a block open. -/
def opening (tokens : List Token) : Opening :=
  openingIn tokens.length false tokens

/-- A statement of a block. -/
def blockStatement (rules : Rules) : Parser Node := do
  if (← identifierAhead [":"]) || (← ahead ["synchronized"]) then rules .statement
  else
    match opening (← left) with
    | .declaration => rules .typeDeclaration
    | .token first isAnnotated =>
        if first.any fun token => ["class", "enum", "interface", "@"].contains token.text then
          rules .typeDeclaration
        else if isAnnotated || first.any Token.isBasicType then localVariables rules
        else if first.any Token.isIdentifier then
          orElse (localVariables rules) (rules .statement)
        else rules .statement

/-- The statements of a block in braces. -/
def block (rules : Rules) : Parser (List Node) := do
  expect openBrace
  let statements ← untilHolds (ahead [closeBrace]) (blockStatement rules)
  expect closeBrace
  return statements

end JavaUml.Java.Grammar
