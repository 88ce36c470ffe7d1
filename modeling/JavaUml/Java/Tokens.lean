import JavaUml.Java.Escape

/-!
# From text to tokens

Text is cut from the left.  White space and comments separate tokens, names and
operators are as long as they can be, and a character that starts no token makes
the whole text unreadable.  Character and string literals are alike: either
quote, any length, line feeds included.
-/

namespace JavaUml.Java

open JavaUml.Text

/-! ## Numbers -/

/-- Skip digits, also behind underscores.  The first argument is the text behind
the last digit. -/
def skipDigitsFrom (isDigit : Char → Bool) (kept : List Char) : List Char → List Char
  | [] => kept
  | c :: rest =>
      if isDigit c then skipDigitsFrom isDigit rest rest
      else if c = '_' then skipDigitsFrom isDigit kept rest
      else kept

/-- Skip digits and, if an `l` ends them, one more character.  A text that ends
before its first digit is cut off inside a number. -/
def skipDigits (isDigit : Char → Bool) (text : List Char) : Except Fault (List Char) :=
  match text with
  | [] => .error .endsAfterOperand
  | _ =>
      let rest := skipDigitsFrom isDigit text text
      match rest.dropWhile (· == '_') with
      | 'l' :: _ => .ok (rest.drop 1)
      | 'L' :: _ => .ok (rest.drop 1)
      | _ => .ok rest

/-- Whether the text starts with one of the given characters. -/
def startsWithOneOf (chars : List Char) : List Char → Bool
  | [] => false
  | c :: _ => chars.contains c

/-- Skip one character if it is one of those given. -/
def skipOneOf (chars text : List Char) : List Char :=
  if startsWithOneOf chars text then text.drop 1 else text

def isHexDigit (c : Char) : Bool :=
  isAsciiDigit c || ('a' ≤ c && c ≤ 'f') || ('A' ≤ c && c ≤ 'F')

def isOctalDigit (c : Char) : Bool :=
  '0' ≤ c && c ≤ '7'

def isBinaryDigit (c : Char) : Bool :=
  c == '0' || c == '1'

/-- Skip an exponent and the suffix of a fraction. -/
def skipExponent (text : List Char) : Except Fault (List Char) := do
  let text ←
    if startsWithOneOf ['e', 'E'] text then
      skipDigits isAsciiDigit (skipOneOf ['+', '-'] (text.drop 1))
    else .ok text
  .ok (skipOneOf ['f', 'F', 'd', 'D'] text)

/-- Skip a decimal integer or fraction. -/
def skipDecimal (text : List Char) : Except Fault (List Char) := do
  let whole ← skipDigits isAsciiDigit text
  if startsWithOneOf ['.', 'e', 'E', 'f', 'F', 'd', 'D'] whole then
    let fraction ←
      if startsWithOneOf ['.'] whole then skipDigits isAsciiDigit (whole.drop 1) else .ok whole
    skipExponent fraction
  else .ok whole

/-- Skip a hexadecimal integer or fraction, from behind its `0x`.  A fraction
needs an exponent. -/
def skipHexadecimal (text : List Char) : Except Fault (List Char) := do
  let whole ← skipDigits isHexDigit text
  if startsWithOneOf ['.', 'p', 'P'] whole then
    let fraction ←
      if startsWithOneOf ['.'] whole then skipDigits isHexDigit (whole.drop 1) else .ok whole
    match fraction with
    | [] => .error .endsInFraction
    | mark :: exponent =>
        if mark ≠ 'p' ∧ mark ≠ 'P' then .error .rejected
        else if exponent.isEmpty then .error .endsInFraction
        else
          let behind ← skipDigits isAsciiDigit (skipOneOf ['+', '-'] exponent)
          .ok (skipOneOf ['f', 'F', 'd', 'D'] behind)
  else .ok whole

/-- Skip a number that starts with a digit. -/
def skipNumber (text : List Char) : Except Fault (List Char) :=
  match text with
  | ['0'] => .error .endsAfterOperand
  | '0' :: c :: rest =>
      if c = 'x' ∨ c = 'X' then skipHexadecimal rest
      else if c = 'b' ∨ c = 'B' then skipDigits isBinaryDigit rest
      else if isOctalDigit c then skipDigits isOctalDigit (c :: rest)
      else skipDecimal text
  | _ => skipDecimal text

/-! ## Literals and comments -/

/-- The characters that may follow a backslash in a literal. -/
def escapable : List Char :=
  ['b', 't', 'n', 'f', 'r', 'u', '"', '\'', '\\', '0', '1', '2', '3', '4', '5', '6', '7']

/-- The text behind the quote that closes a literal. -/
def skipQuoted (quote : Char) : List Char → Except Fault (List Char)
  | [] => .error .rejected
  | '\\' :: [] => .error .rejected
  | '\\' :: c :: rest => if escapable.contains c then skipQuoted quote rest else .error .rejected
  | c :: rest => if c = quote then .ok rest else skipQuoted quote rest

/-- The text behind a line comment. -/
def skipLine : List Char → List Char
  | [] => []
  | c :: rest => if c = '\n' then rest else skipLine rest

/-- The text behind a block comment. -/
def skipComment : List Char → Except Fault (List Char)
  | [] => .error .rejected
  | '*' :: '/' :: rest => .ok rest
  | _ :: rest => skipComment rest

/-! ## Tokens -/

/-- The longest operator at the front, and the text behind it. -/
def operator? (text : List Char) : Option (Token × List Char) :=
  (operators.find? fun operator => operator.toList.isPrefixOf text).map fun operator =>
    (.sign operator, text.drop operator.toList.length)

/-- Take a token, or nothing for a stretch between tokens, off the front. -/
def takeToken (c : Char) (rest : List Char) : Except Fault (Option Token × List Char) :=
  let text := c :: rest
  if isBlank c then .ok (none, rest.dropWhile isBlank)
  else if c = '/' ∧ startsWithOneOf ['/'] rest then .ok (none, skipLine (rest.drop 1))
  else if c = '/' ∧ startsWithOneOf ['*'] rest then do .ok (none, ← skipComment (rest.drop 1))
  else if ['.', '.', '.'].isPrefixOf text then .ok (some (.sign "..."), rest.drop 2)
  else if c = '@' then .ok (some (.sign "@"), rest)
  else if c = '.' ∧ (rest.head?.any isDigit) then do .ok (some .literal, ← skipDecimal text)
  else if separators.contains c then .ok (some (.sign (String.singleton c)), rest)
  else if c = '\'' ∨ c = '"' then do .ok (some .literal, ← skipQuoted c rest)
  else if isAsciiDigit c then do .ok (some .literal, ← skipNumber text)
  else if starts : isIdentifierStart c then
    .ok (some (.ofWord (.startingWith c starts rest)), rest.dropWhile isIdentifierPart)
  else match operator? text with
    | some (token, behind) => .ok (some token, behind)
    | none => .error .rejected

/-- The tokens of a text.  Each step takes at least one character, so the number
of characters bounds the number of steps. -/
def tokensFrom : Nat → List Char → Except Fault (List Token)
  | 0, _ => .ok []
  | _ + 1, [] => .ok []
  | fuel + 1, c :: rest => do
      let (token, behind) ← takeToken c rest
      let later ← tokensFrom fuel behind
      .ok (token.toList ++ later)

/-- The tokens of a Java text. -/
def tokens (text : String) : Except Fault (List Token) := do
  let decoded ← Escape.decode text.toList
  tokensFrom decoded.length decoded

end JavaUml.Java
