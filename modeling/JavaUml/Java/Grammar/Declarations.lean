import JavaUml.Java.Grammar.Statements

/-!
# The grammar of declarations

Classes, interfaces, enums and annotation types with their members.  Dimensions
behind the parameters of a method belong to its return type, except for generic
methods of an interface, where they are dropped.
-/

namespace JavaUml.Java.Grammar

/-! ## Methods and fields -/

/-- The exceptions that a method may throw, if it names any. -/
def thrown : Parser Unit := do
  if ← accept ["throws"] then
    let _ ← separated "," qualifiedName

/-- The body of a method, or a semicolon in its place. -/
def methodBody (rules : Rules) : Parser (List Node) := do
  if ← ahead [openBrace] then rules .block
  else
    expect ";"
    return []

/-- What follows the name of a constructor. -/
def constructorRest (rules : Rules) (before : Preamble) (typeVariables : List String)
    (name : String) : Parser Node := do
  let parameters ← formalParameters rules
  thrown
  let body ← rules .block
  let header : MethodHeader := ⟨true, before.modifiers, typeVariables, none, name⟩
  return .method header before.annotations parameters body

/-- What follows the name of a method without a return type. -/
def voidMethodRest (rules : Rules) (before : Preamble) (typeVariables : List String)
    (name : String) : Parser Node := do
  let parameters ← formalParameters rules
  thrown
  let body ← methodBody rules
  let header : MethodHeader := ⟨false, before.modifiers, typeVariables, none, name⟩
  return .method header before.annotations parameters body

/-- What follows the name of a method with a return type. -/
def methodRest (rules : Rules) (before : Preamble) (typeVariables : List String)
    (name : String) (returned : TypeRef) : Parser Node := do
  let parameters ← formalParameters rules
  let more ← dimensions
  thrown
  let body ← methodBody rules
  let header : MethodHeader :=
    ⟨false, before.modifiers, typeVariables, some (returned.addDimensions more), name⟩
  return .method header before.annotations parameters body

/-- A field declaration from its first name on, where the rule for what follows
a name is given. -/
def fieldNode (before : Preamble) (declared : TypeRef) (declarators : List (String × List Node)) :
    Node :=
  .field before.modifiers declared (declarators.map Prod.fst)
    (before.annotations ++ declarators.flatMap Prod.snd)

/-- What follows the type and the first name of a field. -/
def fieldRest (rules : Rules) (before : Preamble) (declared : TypeRef) (name : String) :
    Parser Node := do
  let initial ← declaratorRest rules
  let others ← whileHolds (accept [","]) (declarator rules)
  expect ";"
  return fieldNode before declared ((name, initial) :: others)

/-- What follows the name of a constant, which needs a value. -/
def constantRest (rules : Rules) : Parser (List Node) := do
  let _ ← dimensions
  expect "="
  return [← rules .variableValue]

/-- What follows the type and the first name of a constant, up to the
semicolon. -/
def constantsRest (rules : Rules) (before : Preamble) (declared : TypeRef) (name : String) :
    Parser Node := do
  let initial ← constantRest rules
  let others ← whileHolds (accept [","]) do
    let name ← identifier
    return (name, ← constantRest rules)
  return fieldNode before declared ((name, initial) :: others)

/-! ## Members of a class -/

/-- A method or constructor with type parameters. -/
def genericMember (rules : Rules) (before : Preamble) : Parser Node := do
  let typeVariables ← typeParameters?
  if ← identifierAhead ["("] then constructorRest rules before typeVariables (← identifier)
  else if ← accept ["void"] then voidMethodRest rules before typeVariables (← identifier)
  else
    let returned ← type
    let name ← identifier
    methodRest rules before typeVariables name returned

/-- A method or field with its type. -/
def typedMember (rules : Rules) (before : Preamble) : Parser Node := do
  let declared ← type
  let name ← identifier
  if ← ahead ["("] then methodRest rules before [] name declared
  else fieldRest rules before declared name

/-- How a nested type is read from behind its modifiers, where there is one. -/
abbrev NestedType := Preamble → Parser Node

/-- Whether a type declaration comes next, from behind its modifiers. -/
def typeAhead : Parser Bool := do
  return (← oneOfAhead ["class", "enum", "interface"]) || (← ahead ["@", "interface"])

/-- A member of a class.  Semicolons leave nothing, and blocks run when an
instance or the class is set up. -/
def classMember (rules : Rules) (nested : NestedType) : Parser (List Node) := do
  if ← accept [";"] then return []
  else if ← ahead ["static", openBrace] then
    expect "static"
    return [.group .initializer (← rules .block)]
  else if ← ahead [openBrace] then return [.group .initializer (← rules .block)]
  else
    let before ← preamble rules
    if ← accept ["void"] then return [← voidMethodRest rules before [] (← identifier)]
    else if ← ahead ["<"] then return [← genericMember rules before]
    else if ← typeAhead then return [← nested before]
    else if ← identifierAhead ["("] then return [← constructorRest rules before [] (← identifier)]
    else return [← typedMember rules before]

/-- The members of a class in braces. -/
def classBody (rules : Rules) (nested : NestedType) : Parser (List Node) := do
  expect openBrace
  let members ← untilHolds (ahead [closeBrace]) (classMember rules nested)
  expect closeBrace
  return members.flatten

/-! ## Members of an interface -/

/-- A generic method of an interface.  Dimensions behind its parameters are
dropped. -/
def genericInterfaceMethod (rules : Rules) (before : Preamble) : Parser Node := do
  let typeVariables ← typeParameters?
  let returned ← if ← accept ["void"] then pure none else pure (some (← type))
  let name ← identifier
  let parameters ← formalParameters rules
  let _ ← dimensions
  thrown
  let body ← methodBody rules
  let header : MethodHeader := ⟨false, before.modifiers, typeVariables, returned, name⟩
  return .method header before.annotations parameters body

/-- A member of an interface. -/
def interfaceMember (rules : Rules) (nested : NestedType) : Parser (List Node) := do
  if ← accept [";"] then return []
  else
    let before ← preamble rules
    if ← typeAhead then return [← nested before]
    else if ← ahead ["<"] then return [← genericInterfaceMethod rules before]
    else if ← accept ["void"] then return [← voidMethodRest rules before [] (← identifier)]
    else
      let declared ← type
      let name ← identifier
      if ← ahead ["("] then return [← methodRest rules before [] name declared]
      else
        let constants ← constantsRest rules before declared name
        expect ";"
        return [constants]

/-- The members of an interface in braces. -/
def interfaceBody (rules : Rules) (nested : NestedType) : Parser (List Node) := do
  expect openBrace
  let members ← untilHolds (ahead [closeBrace]) (interfaceMember rules nested)
  expect closeBrace
  return members.flatten

/-! ## Members of an annotation type -/

/-- A member of an annotation type: an element, a constant or a type. -/
def annotationMember (rules : Rules) (nested : NestedType) : Parser Node := do
  let before ← preamble rules
  if ← typeAhead then nested before
  else
    let declared ← type
    let name ← identifier
    let member ←
      if ← accept ["("] then
        expect ")"
        let _ ← dimensions
        let value ← if ← accept ["default"] then pure [← rules .elementValue] else pure []
        pure (Node.group .annotationMethod (before.annotations ++ value))
      else constantsRest rules before declared name
    expect ";"
    return member

/-- The members of an annotation type in braces. -/
def annotationBody (rules : Rules) (nested : NestedType) : Parser (List Node) := do
  expect openBrace
  let members ← untilHolds (ahead [closeBrace]) (annotationMember rules nested)
  expect closeBrace
  return members

/-! ## Enums -/

/-- An enum constant with its arguments and body. -/
def enumConstant (rules : Rules) : Parser Node := do
  let annotations ← if ← ahead ["@"] then annotations rules else pure []
  let name ← identifier
  let given ← if ← ahead ["("] then arguments rules else pure []
  let body ← if ← ahead [openBrace] then rules .classBody else pure []
  return .constant name (annotations ++ given ++ body)

/-- The constants of an enum, for a bounded number of rounds.  A comma may stand
behind the last one. -/
def enumConstantsIn (rules : Rules) : Nat → Parser (List Node)
  | 0 => mismatch
  | rounds + 1 => do
      if ← oneOfAhead [";", closeBrace] then return []
      else
        let constant ← enumConstant rules
        if ← accept [","] then return constant :: (← enumConstantsIn rules rounds)
        else return [constant]

/-- The constants of an enum.  A lone comma stands for none. -/
def enumConstants (rules : Rules) : Parser (List Node) := do
  if ← accept [","] then return []
  else enumConstantsIn rules (← enoughRounds)

/-- The constants and members of an enum in braces. -/
def enumBody (rules : Rules) (nested : NestedType) : Parser (List Node × List Node) := do
  expect openBrace
  let constants ← enumConstants rules
  let members ←
    if ← accept [";"] then untilHolds (ahead [closeBrace]) (classMember rules nested) else pure []
  expect closeBrace
  return (constants, members.flatten)

/-! ## Types -/

/-- The types behind a word, if the word comes next. -/
def typesBehind (word : String) : Parser (List TypeRef) := do
  if ← accept [word] then typeList else return []

/-- A class from behind its modifiers. -/
def classDeclaration (rules : Rules) (nested : NestedType) (before : Preamble) :
    Parser Node := do
  expect "class"
  let name ← word
  let typeVariables ← typeParameters?
  let extended ← if ← accept ["extends"] then pure [← type] else pure []
  let implemented ← typesBehind "implements"
  let members ← classBody rules nested
  let header : TypeHeader :=
    ⟨.classType, before.modifiers, name, typeVariables, extended, implemented⟩
  return .type header before.annotations [] members

/-- An interface from behind its modifiers. -/
def interfaceDeclaration (rules : Rules) (nested : NestedType) (before : Preamble) :
    Parser Node := do
  expect "interface"
  let name ← word
  let typeVariables ← typeParameters?
  let extended ← typesBehind "extends"
  let members ← interfaceBody rules nested
  let header : TypeHeader := ⟨.interfaceType, before.modifiers, name, typeVariables, extended, []⟩
  return .type header before.annotations [] members

/-- An enum from behind its modifiers. -/
def enumDeclaration (rules : Rules) (nested : NestedType) (before : Preamble) :
    Parser Node := do
  expect "enum"
  let name ← word
  let implemented ← typesBehind "implements"
  let (constants, members) ← enumBody rules nested
  let header : TypeHeader := ⟨.enumType, before.modifiers, name, [], [], implemented⟩
  return .type header before.annotations constants members

/-- An annotation type from behind its modifiers. -/
def annotationDeclaration (rules : Rules) (nested : NestedType) (before : Preamble) :
    Parser Node := do
  expect "@"
  expect "interface"
  let name ← word
  let members ← annotationBody rules nested
  let header : TypeHeader := ⟨.annotationType, before.modifiers, name, [], [], []⟩
  return .type header before.annotations [] members

/-- A type of any kind from behind its modifiers, nested at most so deep. -/
def typeIn (rules : Rules) : Nat → NestedType
  | 0, _ => mismatch
  | depth + 1, before => do
      let nested := typeIn rules depth
      match (← peek).map Token.text with
      | some "class" => classDeclaration rules nested before
      | some "enum" => enumDeclaration rules nested before
      | some "interface" => interfaceDeclaration rules nested before
      | some "@" =>
          if ← ahead ["@", "interface"] then annotationDeclaration rules nested before
          else mismatch
      | _ => mismatch

/-- A type declaration with its modifiers. -/
def typeDeclaration (rules : Rules) : Parser Node := do
  let before ← preamble rules
  typeIn rules (← enoughRounds) before

/-- The members of a class in braces, with types of any kind among them. -/
def anonymousBody (rules : Rules) : Parser (List Node) := do
  classBody rules (typeIn rules (← enoughRounds))

end JavaUml.Java.Grammar
