import JavaUml.Java.Token

/-!
# Parsers over tokens

A parser takes tokens off the front of a list and may fail in three ways.  A
mismatch can be mended by another alternative.  Running out of tokens and the
abrupt end behind an operand cannot: they end the parse.

An alternative that is given up goes back, but not always to where it started.
If a choice inside of it was decided, it goes back only to where the last such
choice went back to, so what was read before that stays read.

Repetitions take at least one token per round, so the number of tokens bounds
the number of rounds.
-/

namespace JavaUml.Java.Grammar

/-- How a parser fails. -/
inductive Failure where
  /-- The next tokens do not fit; another alternative may be tried on the tokens
  given. -/
  | mismatch (back : List Token)
  /-- A token is needed and there is none. -/
  | exhausted
  /-- The text ends right behind an operand. -/
  | abruptEnd
  deriving DecidableEq, Repr

/-- A place in a text. -/
structure Place where
  /-- The tokens that are left. -/
  tokens : List Token
  /-- The tokens to go back to if the alternative under way is given up. -/
  back : List Token
  deriving DecidableEq, Repr

/-- The start of a text. -/
def Place.start (tokens : List Token) : Place :=
  ⟨tokens, tokens⟩

/-- A parser: from a place to a result and the place behind it. -/
abbrev Parser := StateT Place (Except Failure)

/-- Fail with a mismatch. -/
def mismatch {α : Type} : Parser α := do
  throw (.mismatch (← get).back)

/-- The tokens that are left. -/
def left : Parser (List Token) := do
  return (← get).tokens

/-- Go on with the given tokens. -/
def goTo (tokens : List Token) : Parser Unit :=
  modify fun place => { place with tokens := tokens }

/-- A number of rounds that is enough for whatever takes a token per round. -/
def enoughRounds : Parser Nat := do
  return (← left).length + 1

/-- The next token, which stays where it is. -/
def peek : Parser (Option Token) := do
  return (← left).head?

/-- Take the next token. -/
def next : Parser Token := do
  match ← left with
  | [] => throw .exhausted
  | token :: rest =>
      goTo rest
      return token

/-- Whether the next tokens have the given texts. -/
def ahead (texts : List String) : Parser Bool := do
  let found := (← left).take texts.length
  return found.map Token.text == texts

/-- Whether an identifier and then tokens of the given texts come next. -/
def identifierAhead (texts : List String) : Parser Bool := do
  match ← left with
  | .identifier _ :: rest => return (rest.take texts.length).map Token.text == texts
  | _ => return false

/-- Whether a basic type comes next. -/
def basicTypeAhead : Parser Bool := do
  return (← peek).any Token.isBasicType

/-- Whether the text of the next token is one of those given. -/
def oneOfAhead (texts : List String) : Parser Bool := do
  return (← peek).any fun token => texts.contains token.text

/-- Take a token of the given text. -/
def expect (text : String) : Parser Unit := do
  let token ← next
  unless token.text = text do mismatch

/-- Take tokens of the given texts if they all come next. -/
def accept (texts : List String) : Parser Bool := do
  if ← ahead texts then
    goTo ((← left).drop texts.length)
    return true
  else return false

/-- Take an identifier as a word. -/
def word : Parser Word := do
  match ← next with
  | .identifier name => return name
  | _ => mismatch

/-- Take an identifier. -/
def identifier : Parser String := do
  return (← word).text

/-- Try a parser, and go back to try another one after a mismatch.  Once the
first one fits, the choice around this one goes back no further than the first
one would have. -/
def orElse {α : Type} (first second : Parser α) : Parser α := fun place =>
  match first { place with back := place.tokens } with
  | .error (.mismatch back) => second { place with tokens := back }
  | outcome => outcome

/-- Repeat a parser until a condition holds, for a bounded number of rounds. -/
def untilIn {α : Type} (stop : Parser Bool) (item : Parser α) : Nat → Parser (List α)
  | 0 => mismatch
  | rounds + 1 => do
      if ← stop then return []
      else return (← item) :: (← untilIn stop item rounds)

/-- Repeat a parser until a condition holds. -/
def untilHolds {α : Type} (stop : Parser Bool) (item : Parser α) : Parser (List α) := do
  untilIn stop item (← enoughRounds)

/-- Repeat a parser as long as a condition holds. -/
def whileHolds {α : Type} (condition : Parser Bool) (item : Parser α) : Parser (List α) :=
  untilHolds (do return !(← condition)) item

/-- One item or more with a separator between them. -/
def separated {α : Type} (separator : String) (item : Parser α) : Parser (List α) := do
  return (← item) :: (← whileHolds (accept [separator]) item)

/-- A dotted name. -/
def qualifiedName : Parser String := do
  return ".".intercalate (← separated "." identifier)

end JavaUml.Java.Grammar
