import JavaUml.Yaml.Cursor

/-!
# The texts of scalars

Plain, quoted and block scalars as they stand in a YAML text.  A single line end
inside a plain, quoted or folded scalar becomes a space, and further ones are
kept.
-/

namespace JavaUml.Yaml

/-- A scalar that was read: its text, the cursor behind it, and whether a line
end came after the text. -/
structure ScalarText where
  text : List Char
  cursor : Cursor
  brokeLine : Bool

/-- The text of line ends: `first` and the empty lines after it. -/
def folded (first : Char) (more : List Char) : List Char :=
  if first ≠ '\n' then first :: more
  else if more.isEmpty then [' ']
  else more

/-! ## Plain scalars -/

/-- Whether a character ends a plain scalar inside brackets. -/
def endsInBrackets (c : Char) : Bool :=
  c = ',' || c = '[' || c = ']' || c = '\x7b' || c = '\x7d'

/-- Whether a colon before this character is not part of a plain scalar. -/
def endsKey (inFlow : Bool) : Option Char → Bool
  | none => true
  | some c => endsToken (some c) || (inFlow && endsInBrackets c)

/-- The characters of a plain scalar up to the next blank. -/
def plainRun (inFlow : Bool) : List Char → List Char
  | [] => []
  | c :: rest =>
      if endsToken (some c) then []
      else if c = ':' && endsKey inFlow rest.head? then []
      else if inFlow && (c = '?' || endsInBrackets c) then []
      else c :: plainRun inFlow rest

/-- The characters of a plain scalar up to the next blank, and the cursor past
them.  Behind a colon at their end one more character is looked at. -/
def plainChars (inFlow : Bool) (cursor : Cursor) : Except Fault (List Char × Cursor) := do
  let chars := plainRun inFlow cursor.rest
  if (← cursor.peekAt chars.length) = some ':' then
    let _ ← cursor.peekAt (chars.length + 1)
  return (chars, cursor.steps chars.length)

/-- Past spaces and empty lines after a line end, with the line ends met; `none`
at a line that divides documents. -/
def plainBreaks :
    Nat → Cursor → List Char → Except Fault (Option (List Char) × Cursor)
  | 0, cursor, breaks => .ok (some breaks, cursor)
  | steps + 1, cursor, breaks => do
      if ← cursor.sees ' ' then plainBreaks steps (← cursor.next) breaks
      else
        match ← cursor.lineBreak? with
        | some (c, after) =>
            if ← after.seesDivider then return (none, after)
            else plainBreaks steps after (breaks ++ [c])
        | none => return (some breaks, cursor)

/-- What stands between two parts of a plain scalar. -/
def plainSpaces (cursor : Cursor) : Except Fault ScalarText := do
  let (spaces, cursor) ← cursor.takeWhile (· = ' ')
  match ← cursor.lineBreak? with
  | none => return ⟨spaces, cursor, false⟩
  | some (first, after) =>
      if ← after.seesDivider then return ⟨[], after, true⟩
      else
        match ← plainBreaks (after.rest.length + 1) after [] with
        | (some more, behind) => return ⟨folded first more, behind, true⟩
        | (none, behind) => return ⟨[], behind, true⟩

/-- A plain scalar whose further lines are indented at least by `indent`. -/
def plainFrom (inFlow : Bool) (indent : Int) :
    Nat → ScalarText → List Char → Except Fault ScalarText
  | 0, done, _ => .ok done
  | steps + 1, done, spaces => do
      if ← done.cursor.sees '#' then return done
      else
        let (chars, behind) ← plainChars inFlow done.cursor
        if chars.isEmpty then return done
        else
          let text := done.text ++ spaces ++ chars
          let between ← plainSpaces behind
          let done := ⟨text, between.cursor, between.brokeLine⟩
          if between.text.isEmpty then return done
          else if ← between.cursor.sees '#' then return done
          else if !inFlow && between.cursor.column < indent then return done
          else plainFrom inFlow indent steps done between.text

/-- The plain scalar at a cursor. -/
def plainText (inFlow : Bool) (indent : Int) (cursor : Cursor) : Except Fault ScalarText :=
  plainFrom inFlow indent (cursor.rest.length + 1) ⟨[], cursor, false⟩ []

/-! ## Quoted scalars -/

/-- Whether a character is a blank. -/
def isBlankChar (c : Char) : Bool :=
  c = ' ' || c = '\t'

/-- Past blanks and empty lines inside quotes, with the line ends met. -/
def quotedBreaks : Nat → Cursor → List Char → Except Fault (List Char × Cursor)
  | 0, cursor, breaks => .ok (breaks, cursor)
  | steps + 1, cursor, breaks => do
      if ← cursor.seesDivider then .error .scalar
      else
        let cursor ← cursor.skipWhile isBlankChar
        match ← cursor.lineBreak? with
        | some (c, after) => quotedBreaks steps after (breaks ++ [c])
        | none => return (breaks, cursor)

/-- The character that a letter after a backslash stands for. -/
def escaped? (c : Char) : Option Char :=
  match c with
  | '0' => some '\x00'
  | 'a' => some '\x07'
  | 'b' => some '\x08'
  | 't' => some '\t'
  | '\t' => some '\t'
  | 'n' => some '\n'
  | 'v' => some '\x0b'
  | 'f' => some '\x0c'
  | 'r' => some '\r'
  | 'e' => some '\x1b'
  | ' ' => some ' '
  | '"' => some '"'
  | '\\' => some '\\'
  | '/' => some '/'
  | 'N' => some '\x85'
  | '_' => some '\xa0'
  | 'L' => some '\u2028'
  | 'P' => some '\u2029'
  | _ => none

/-- The number of hexadecimal digits after a letter that opens a code. -/
def codeLength? (c : Char) : Option Nat :=
  match c with
  | 'x' => some 2
  | 'u' => some 4
  | 'U' => some 8
  | _ => none

/-- The value of a hexadecimal digit. -/
def hexValue? (c : Char) : Option Nat :=
  if '0' ≤ c ∧ c ≤ '9' then some (c.toNat - 48)
  else if 'a' ≤ c ∧ c ≤ 'f' then some (c.toNat - 87)
  else if 'A' ≤ c ∧ c ≤ 'F' then some (c.toNat - 55)
  else none

/-- The number at a cursor that is written with that many digits. -/
def codeAt (cursor : Cursor) : Nat → Nat → Nat → Except Fault Nat
  | 0, _, value => .ok value
  | missing + 1, position, value => do
      match (← cursor.peekAt position).bind hexValue? with
      | some digit => codeAt cursor missing (position + 1) (value * 16 + digit)
      | none => .error .scalar

/-- The character with a code.  Half of a surrogate pair is none. -/
def codedChar (code : Nat) : Except Fault Char :=
  if 0x80000000 ≤ code then .error .codeBeyondWord
  else if 0x110000 ≤ code then .error .codeBeyondText
  else if code.isValidChar then .ok (Char.ofNat code)
  else .error .halfCharacter

/-- The escape after a backslash: its text and the cursor past it. -/
def escape (cursor : Cursor) : Except Fault (List Char × Cursor) := do
  match ← cursor.peek with
  | none => .error .scalar
  | some c =>
      match escaped? c, codeLength? c with
      | some value, _ => return ([value], ← cursor.next)
      | none, some length => do
          let digits ← cursor.next
          let value ← codedChar (← codeAt digits length 0 0)
          return ([value], ← digits.skip length)
      | none, none => do
          match ← cursor.lineBreak? with
          | some (_, after) => quotedBreaks (after.rest.length + 1) after []
          | none => .error .scalar

/-- Blanks and line ends inside quotes: their text and the cursor past them. -/
def quotedSpaces (cursor : Cursor) : Except Fault (List Char × Cursor) := do
  let (blanks, cursor) ← cursor.takeWhile isBlankChar
  match ← cursor.peek with
  | none => .error .scalar
  | some _ =>
      match ← cursor.lineBreak? with
      | none => return (blanks, cursor)
      | some (first, after) => do
          let (more, behind) ← quotedBreaks (after.rest.length + 1) after []
          return (folded first more, behind)

/-- Whether a character stands for itself inside any quotes. -/
def isPlainInQuotes (c : Char) : Bool :=
  c ≠ '\'' && c ≠ '"' && c ≠ '\\' && !endsToken (some c)

/-- The rest of a quoted scalar and the cursor past its closing quote. -/
def quotedFrom (quote : Char) : Nat → Cursor → List Char → Except Fault (List Char × Cursor)
  | 0, _, _ => .error .scalar
  | steps + 1, cursor, text => do
      let (chars, cursor) ← cursor.takeWhile isPlainInQuotes
      let text := text ++ chars
      match ← cursor.peek with
      | none => .error .scalar
      | some c =>
          if c = quote then
            if quote = '\'' && (← cursor.peekAt 1) = some '\'' then
              quotedFrom quote steps (← cursor.skip 2) (text ++ ['\''])
            else return (text, ← cursor.next)
          else if quote = '"' && c = '\\' then do
            let (value, after) ← escape (← cursor.next)
            quotedFrom quote steps after (text ++ value)
          else if endsToken (some c) then do
            let (value, after) ← quotedSpaces cursor
            quotedFrom quote steps after (text ++ value)
          else quotedFrom quote steps (← cursor.next) (text ++ [c])

/-- The quoted scalar at a cursor. -/
def quotedText (quote : Char) (cursor : Cursor) : Except Fault (List Char × Cursor) := do
  quotedFrom quote (cursor.rest.length + 1) (← cursor.next) []

/-! ## Block scalars -/

/-- What becomes of the line ends behind a block scalar. -/
inductive Chomping where
  | strip
  | clip
  | keep
  deriving DecidableEq, Repr

/-- The chomping that a sign stands for. -/
def chomping? : Option Char → Option Chomping
  | some '+' => some .keep
  | some '-' => some .strip
  | _ => none

/-- A digit that gives an indentation, and the cursor past it. -/
def indentDigit (cursor : Cursor) : Except Fault (Option Nat × Cursor) := do
  match ← cursor.peek with
  | some c =>
      if c = '0' then .error .scalar
      else if '1' ≤ c ∧ c ≤ '9' then return (some (c.toNat - 48), ← cursor.next)
      else return (none, cursor)
  | none => return (none, cursor)

/-- The signs behind the mark of a block scalar: chomping and indentation. -/
def blockSigns (cursor : Cursor) : Except Fault (Chomping × Option Nat × Cursor) := do
  let (chomping, increment, cursor) ← match chomping? (← cursor.peek) with
    | some chomping => do
        let (increment, cursor) ← indentDigit (← cursor.next)
        pure (chomping, increment, cursor)
    | none => do
        match ← indentDigit cursor with
        | (some increment, cursor) =>
            match chomping? (← cursor.peek) with
            | some chomping => pure (chomping, some increment, ← cursor.next)
            | none => pure (.clip, some increment, cursor)
        | (none, cursor) => pure (.clip, none, cursor)
  if endsWord (← cursor.peek) then return (chomping, increment, cursor) else .error .scalar

/-- Past at most the spaces of an indentation. -/
def skipIndent (indent : Nat) (cursor : Cursor) : Except Fault Cursor := do
  let spaces := (cursor.rest.takeWhile (· = ' ')).length
  let missing := indent - cursor.column
  if spaces < missing then cursor.skip spaces else return ← cursor.skip missing

/-- Past empty lines, with the line ends met. -/
def blockBreaks (indent : Nat) :
    Nat → Cursor → List Char → Except Fault (List Char × Cursor)
  | 0, cursor, breaks => .ok (breaks, cursor)
  | steps + 1, cursor, breaks => do
      let cursor ← skipIndent indent cursor
      match ← cursor.lineBreak? with
      | some (c, after) => blockBreaks indent steps after (breaks ++ [c])
      | none => return (breaks, cursor)

/-- Past the empty lines before a block scalar, with the line ends met and the
greatest column. -/
def blockIndentation :
    Nat → Cursor → List Char → Nat → Except Fault (List Char × Nat × Cursor)
  | 0, cursor, breaks, greatest => .ok (breaks, greatest, cursor)
  | steps + 1, cursor, breaks, greatest => do
      if ← cursor.sees ' ' then
        let cursor ← cursor.next
        blockIndentation steps cursor breaks (max greatest cursor.column)
      else
        match ← cursor.lineBreak? with
        | some (c, after) => blockIndentation steps after (breaks ++ [c]) greatest
        | none => return (breaks, greatest, cursor)

/-- Whether a line of a block scalar starts at a cursor. -/
def startsLine (indent : Nat) (cursor : Cursor) : Except Fault Bool := do
  if cursor.column = indent then return (← cursor.peek).isSome else return false

/-- The lines of a block scalar: its text without the last line ends, the line
end of its last line, the line ends behind that, and the cursor. -/
def blockLines (isFolded : Bool) (indent : Nat) :
    Nat → Cursor → List Char → List Char →
      Except Fault (List Char × Option Char × List Char × Cursor)
  | 0, cursor, text, breaks => .ok (text, none, breaks, cursor)
  | steps + 1, cursor, text, breaks => do
      if ← startsLine indent cursor then
        let startsBlank := (← cursor.peek).any isBlankChar
        let (line, cursor) ← cursor.takeWhile (!isBreak ·)
        let text := text ++ breaks ++ line
        let (ending, cursor) := match ← cursor.lineBreak? with
          | some (c, after) => (some c, after)
          | none => (none, cursor)
        let (breaks, cursor) ← blockBreaks indent (cursor.rest.length + 1) cursor []
        if ← startsLine indent cursor then
          let nextBlank := (← cursor.peek).any isBlankChar
          let joint :=
            if isFolded && ending = some '\n' && !startsBlank && !nextBlank then
              if breaks.isEmpty then [' '] else []
            else ending.toList
          blockLines isFolded indent steps cursor (text ++ joint) breaks
        else return (text, ending, breaks, cursor)
      else return (text, none, breaks, cursor)

/-- The block scalar at a cursor inside a block of the given indentation. -/
def blockText (isFolded : Bool) (outer : Int) (cursor : Cursor) :
    Except Fault (List Char × Cursor) := do
  let (chomping, increment, cursor) ← blockSigns (← cursor.next)
  let cursor ← cursor.finishLine .scalar
  let least := (max 1 (outer + 1)).toNat
  let steps := cursor.rest.length + 1
  let (indent, breaks, cursor) ← match increment with
    | some increment => do
        let indent := least + increment - 1
        let (breaks, cursor) ← blockBreaks indent steps cursor []
        pure (indent, breaks, cursor)
    | none => do
        let (breaks, greatest, cursor) ← blockIndentation steps cursor [] 0
        pure (max least greatest, breaks, cursor)
  let (text, ending, breaks, cursor) ← blockLines isFolded indent steps cursor [] breaks
  let tail := match chomping with
    | .strip => []
    | .clip => ending.toList
    | .keep => ending.toList ++ breaks
  return (text ++ tail, cursor)

end JavaUml.Yaml
