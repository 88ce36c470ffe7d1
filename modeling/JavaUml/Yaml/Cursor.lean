import JavaUml.Calendar
import JavaUml.Text.Numeral
import JavaUml.Text.Quoted
import JavaUml.Text.Utf8

/-!
# Places in a YAML text

A cursor is what is left of a text, with the number of characters, lines and
columns before it.  A text may stop being readable at some character.  Looking
at that character or behind it is a fault, and so is moving there, but what
stands before it can be read.
-/

namespace JavaUml.Yaml

/-- Why a text is no YAML document. -/
inductive Fault where
  /-- Bytes that are no text. -/
  | bytes (fault : Text.Utf8.Fault)
  /-- A character that may not occur in a text. -/
  | character
  /-- A character that starts no token. -/
  | noToken
  /-- A scalar that is not closed, or an escape that does not exist. -/
  | scalar
  /-- An escape with a code beyond those of characters. -/
  | codeBeyondText
  /-- An escape with a code beyond thirty-one bits. -/
  | codeBeyondWord
  /-- An escape with the code of half a surrogate pair, which is no character. -/
  | halfCharacter
  /-- A key that no colon follows. -/
  | keyWithoutColon
  /-- An entry or a key where none may stand. -/
  | misplaced
  /-- A name that is empty or runs into other characters. -/
  | name
  /-- A directive that cannot be read or used. -/
  | directive
  /-- Tokens that form no document. -/
  | arrangement
  /-- An anchor defined twice, or an alias without an anchor. -/
  | anchor
  /-- A second document. -/
  | severalDocuments
  /-- A value or key that cannot be built. -/
  | value
  /-- A truth value written with a word that stands for none. -/
  | unknownWord (word : String)
  /-- A number without any character. -/
  | noNumber
  /-- A text that is no whole number to a base. -/
  | notWhole (base : Nat) (text : String)
  /-- A whole number with too many digits. -/
  | tooLong (digits : Nat)
  /-- A text that is no floating-point number. -/
  | notFloating (text : String)
  /-- A text that has not the form of a date. -/
  | notDate
  /-- A mapping in the place of the text of a date. -/
  | mappingAsDate
  /-- A date that is not in the calendar. -/
  | date (fault : Calendar.Fault)
  /-- A node that is the text of itself. -/
  | endless
  deriving DecidableEq, Repr

/-- The first characters of a text. -/
def shortened (count : Nat) (text : String) : String :=
  String.ofList (text.toList.take count)

/-- What is reported about a fault, where there are words for it. -/
def Fault.message? : Fault → Option String
  | bytes fault => some fault.message
  | codeBeyondText => some "chr() arg not in range(0x110000)"
  | unknownWord word => some word
  | notWhole base text =>
      some ("invalid literal for int() with base " ++ toString base ++ ": " ++
        shortened 200 (Text.quoted text))
  | tooLong digits => some (Text.tooLongMessage digits)
  | notFloating text => some ("could not convert string to float: " ++ Text.quoted text)
  | date fault => some fault.message
  | _ => none

/-- Whether a character ends a line. -/
def isBreak (c : Char) : Bool :=
  c = '\n' || c = '\r' || c = '\x85' || c = '\u2028' || c = '\u2029'

/-- Whether a line or the text ends. -/
def endsLine : Option Char → Bool
  | none => true
  | some c => isBreak c

/-- Whether a space, a line end or the end of the text follows. -/
def endsWord : Option Char → Bool
  | none => true
  | some c => c = ' ' || isBreak c

/-- Whether a blank, a line end or the end of the text follows. -/
def endsToken : Option Char → Bool
  | none => true
  | some c => c = ' ' || c = '\t' || isBreak c

/-- A text as far as it can be read, and the fault behind that. -/
structure Source where
  text : List Char
  fault : Option Fault

/-- What is left of a text and where it starts. -/
structure Cursor where
  rest : List Char
  /-- The fault behind the rest, if the text cannot be read further. -/
  fault : Option Fault
  index : Nat
  line : Nat
  column : Nat

namespace Cursor

/-- The start of a text. -/
def start (source : Source) : Cursor :=
  ⟨source.text, source.fault, 0, 0, 0⟩

/-- The character after that many others. -/
def peekAt (cursor : Cursor) (n : Nat) : Except Fault (Option Char) :=
  match cursor.rest.drop n, cursor.fault with
  | c :: _, _ => .ok (some c)
  | [], none => .ok none
  | [], some fault => .error fault

/-- The next character. -/
def peek (cursor : Cursor) : Except Fault (Option Char) :=
  cursor.peekAt 0

/-- Whether the next character is the given one. -/
def sees (cursor : Cursor) (c : Char) : Except Fault Bool := do
  return (← cursor.peek) = some c

/-- One character on.  A byte order mark has no width. -/
def step (cursor : Cursor) : Cursor :=
  match cursor.rest with
  | [] => cursor
  | c :: rest =>
      let moved := { cursor with rest := rest, index := cursor.index + 1 }
      if isBreak c && !(c = '\r' && rest.head? = some '\n') then
        { moved with line := cursor.line + 1, column := 0 }
      else if c = '\ufeff' then moved
      else { moved with column := cursor.column + 1 }

/-- That many characters on. -/
def steps : Nat → Cursor → Cursor
  | 0, cursor => cursor
  | n + 1, cursor => steps n cursor.step

/-- Go past that many characters, to a place that can be read. -/
def skip (n : Nat) (cursor : Cursor) : Except Fault Cursor := do
  let _ ← cursor.peekAt n
  return cursor.steps n

/-- Go past the next character. -/
def next (cursor : Cursor) : Except Fault Cursor :=
  cursor.skip 1

/-- The characters of a class at the front. -/
def span (p : Char → Bool) (cursor : Cursor) : Except Fault (List Char) := do
  let chars := cursor.rest.takeWhile p
  let _ ← cursor.peekAt chars.length
  return chars

/-- The characters of a class at the front, and the cursor past them. -/
def takeWhile (p : Char → Bool) (cursor : Cursor) : Except Fault (List Char × Cursor) := do
  let chars ← cursor.span p
  return (chars, cursor.steps chars.length)

/-- Past the characters of a class. -/
def skipWhile (p : Char → Bool) (cursor : Cursor) : Except Fault Cursor := do
  return (← cursor.takeWhile p).2

/-- Past spaces. -/
def skipSpaces (cursor : Cursor) : Except Fault Cursor :=
  cursor.skipWhile (· = ' ')

/-- Past a comment, up to the end of its line. -/
def skipComment (cursor : Cursor) : Except Fault Cursor := do
  if ← cursor.sees '#' then cursor.skipWhile (!isBreak ·) else return cursor

/-- A line end as text, and the cursor past it. -/
def lineBreak? (cursor : Cursor) : Except Fault (Option (Char × Cursor)) := do
  match ← cursor.peek with
  | none => return none
  | some c =>
      if !isBreak c then return none
      else if c = '\u2028' || c = '\u2029' then return some (c, ← cursor.next)
      else
        let width := if c = '\r' && (← cursor.peekAt 1) = some '\n' then 2 else 1
        return some ('\n', ← cursor.skip width)

/-- Whether a line that divides documents starts here. -/
def seesDivider (cursor : Cursor) : Except Fault Bool := do
  let _ ← cursor.peekAt 2
  let mark := cursor.rest.take 3
  if mark = ['-', '-', '-'] || mark = ['.', '.', '.'] then
    return endsToken (← cursor.peekAt 3)
  else return false

/-- To the end of the line, over spaces and a comment, and past the line end.
Nothing else may stand there. -/
def finishLine (fault : Fault) (cursor : Cursor) : Except Fault Cursor := do
  let cursor ← (← cursor.skipSpaces).skipComment
  if endsLine (← cursor.peek) then
    return ((← cursor.lineBreak?).map (·.2)).getD cursor
  else .error fault

end Cursor

end JavaUml.Yaml
