import JavaUml.Java.Word

/-!
# Tokens of Java text

The words and signs that Java text is made of.  The value of a literal never
matters, so a literal is a token without content.  The closing signs `>>` and
`>>>` never occur as one token: type arguments end in `>` after `>`, and the
grammar puts shift operators together again.
-/

namespace JavaUml.Java

/-- Why a text is not taken for a compilation unit. -/
inductive Fault where
  /-- The text breaks a rule of the lexis or of the grammar. -/
  | rejected
  /-- The text ends inside a package or import declaration. -/
  | endsInHeader
  /-- The text ends right behind an operand or inside a number. -/
  | endsAfterOperand
  /-- The text ends inside a hexadecimal fraction, where its exponent has to
  follow. -/
  | endsInFraction
  /-- A Unicode escape stands for a negative number. -/
  | negativeEscape
  deriving DecidableEq, Repr

/-- A word or sign. -/
inductive Token where
  | identifier (name : Word)
  | modifier (word : String)
  | basicType (name : Word)
  | keyword (word : String)
  | literal
  | sign (text : String)
  deriving DecidableEq, Repr

namespace Token

/-- The text that a token is recognised by. -/
def text : Token → String
  | identifier name => name.text
  | modifier word => word
  | basicType name => name.text
  | keyword word => word
  | literal => ""
  | sign text => text

def isIdentifier : Token → Bool
  | identifier _ => true
  | _ => false

def isModifier : Token → Bool
  | modifier _ => true
  | _ => false

def isBasicType : Token → Bool
  | basicType _ => true
  | _ => false

end Token

/-- Words that modify a declaration. -/
def modifierWords : List String :=
  ["abstract", "default", "final", "native", "private", "protected", "public", "static",
    "strictfp", "synchronized", "transient", "volatile"]

/-- Names of the basic types. -/
def basicTypeWords : List String :=
  ["boolean", "byte", "char", "double", "float", "int", "long", "short"]

/-- The other reserved words. -/
def keywordWords : List String :=
  ["assert", "break", "case", "catch", "class", "const", "continue", "do", "else", "enum",
    "extends", "finally", "for", "goto", "if", "implements", "import", "instanceof",
    "interface", "new", "package", "return", "super", "switch", "this", "throw", "throws",
    "try", "void", "while"]

/-- Words that are literals. -/
def literalWords : List String :=
  ["true", "false", "null"]

/-- The token of a word. -/
def Token.ofWord (word : Word) : Token :=
  if modifierWords.contains word.text then modifier word.text
  else if basicTypeWords.contains word.text then basicType word
  else if keywordWords.contains word.text then keyword word.text
  else if literalWords.contains word.text then literal
  else identifier word

/-- The characters that are a sign of their own wherever they stand. -/
def separators : List Char :=
  ['(', ')', '{', '}', '[', ']', ';', ',', '.']

/-- The sign that opens a body. -/
def openBrace : String :=
  "\x7b"

/-- The sign that closes a body. -/
def closeBrace : String :=
  "\x7d"

/-- The operators of more than one character and of one, longest first. -/
def operators : List String :=
  [">>>=", ">>=", "<<=", "...", "%=", "^=", "|=", "&=", "/=", "*=", "-=", "+=", "<<", "--",
    "++", "||", "&&", "!=", ">=", "<=", "==", "->", "::", "%", "^", "|", "&", "/", "*", "-",
    "+", ":", "?", "~", "!", "<", ">", "="]

/-- The operators between two operands. -/
def binaryOperators : List String :=
  ["||", "&&", "|", "^", "&", "==", "!=", "<", ">", "<=", ">=", "<<", "+", "-", "*", "/", "%"]

/-- The operators in front of an operand. -/
def leadingOperators : List String :=
  ["++", "--", "!", "~", "+", "-"]

/-- The operators behind an operand. -/
def trailingOperators : List String :=
  ["++", "--"]

/-- The operators that assign. -/
def assignmentOperators : List String :=
  ["=", "+=", "-=", "*=", "/=", "&=", "|=", "^=", "%=", "<<=", ">>=", ">>>="]

end JavaUml.Java
