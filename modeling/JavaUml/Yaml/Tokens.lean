import JavaUml.Yaml.ScalarText

/-!
# YAML tokens

A text is cut into tokens, no further than they are asked for.  Indentation and
line ends show themselves as tokens that open and close blocks.  A key in front
of a colon is marked where it starts once the colon is met, so a token that may
be a key waits until that is decided.
-/

namespace JavaUml.Yaml

/-- A tag as it is written: a handle, if any, and what follows it. -/
structure TagName where
  handle : Option String
  suffix : String
  deriving DecidableEq, Repr

/-- A token of a text. -/
inductive Token where
  | versionDirective (major : Nat)
  | tagDirective (handle target : String)
  | otherDirective
  | documentStart
  | documentEnd
  | blockSequenceStart
  | blockMappingStart
  | blockEnd
  | flowSequenceStart
  | flowSequenceEnd
  | flowMappingStart
  | flowMappingEnd
  | flowEntry
  | blockEntry
  | key
  | value
  | aliasOf (name : String)
  | anchor (name : String)
  | tag (name : TagName)
  | scalar (text : String) (isPlain : Bool)
  deriving DecidableEq, Repr

/-- A token that turns out to be a key if a colon follows on its line. -/
structure PossibleKey where
  /-- The number of tokens before it. -/
  position : Nat
  /-- Whether a colon has to follow. -/
  required : Bool
  index : Nat
  line : Nat
  column : Nat

/-- The state between two tokens. -/
structure Scan where
  cursor : Cursor
  /-- The tokens that were read and not yet taken. -/
  waiting : List Token
  /-- The number of tokens that were taken. -/
  taken : Nat
  /-- Whether the end of the text was met. -/
  isFinished : Bool
  /-- The depth of brackets. -/
  depth : Nat
  /-- The column of the present block, `-1` outside of blocks. -/
  indent : Int
  /-- The columns of the blocks around it. -/
  outer : List Int
  keyAllowed : Bool
  /-- The possible keys by depth. -/
  keys : List (Nat × PossibleKey)

namespace Scan

/-- The start of a text. -/
def start (source : Source) : Scan :=
  { cursor := .start source, waiting := [], taken := 0, isFinished := false, depth := 0,
    indent := -1, outer := [], keyAllowed := true, keys := [] }

def inFlow (scan : Scan) : Bool :=
  0 < scan.depth

/-- Add a token. -/
def emit (token : Token) (scan : Scan) : Scan :=
  { scan with waiting := scan.waiting ++ [token] }

/-- The number of tokens that were read. -/
def position (scan : Scan) : Nat :=
  scan.taken + scan.waiting.length

/-- Put a token in front of the one with a number. -/
def insert (position : Nat) (token : Token) (scan : Scan) : Scan :=
  { scan with waiting := scan.waiting.insertIdx (position - scan.taken) token }

/-- Go on behind a token. -/
def moveTo (cursor : Cursor) (scan : Scan) : Scan :=
  { scan with cursor := cursor }

def allowKey (allowed : Bool) (scan : Scan) : Scan :=
  { scan with keyAllowed := allowed }

/-- Go to the next token, over spaces, comments and line ends. -/
def skipToToken : Nat → Scan → Except Fault Scan
  | 0, scan => .ok scan
  | steps + 1, scan => do
      let cursor ← (← scan.cursor.skipSpaces).skipComment
      match ← cursor.lineBreak? with
      | some (_, after) =>
          skipToToken steps
            { scan with cursor := after, keyAllowed := scan.keyAllowed || !scan.inFlow }
      | none => return { scan with cursor := cursor }

/-- Go to the next token; a byte order mark at the start of the text is skipped. -/
def toNextToken (scan : Scan) : Except Fault Scan := do
  let isMarked := scan.cursor.index = 0 && (← scan.cursor.peek) = some '\ufeff'
  let cursor ← if isMarked then scan.cursor.next else pure scan.cursor
  skipToToken (cursor.rest.length + 1) { scan with cursor := cursor }

/-- Whether the colon of a possible key can no longer come: it has to stand on
the same line, at most that many characters on. -/
def isStale (cursor : Cursor) (key : PossibleKey) : Bool :=
  key.line ≠ cursor.line || 1024 < cursor.index - key.index

/-- Forget the possible keys whose colon can no longer come. -/
def dropStaleKeys (scan : Scan) : Except Fault Scan :=
  if scan.keys.any fun (_, key) => isStale scan.cursor key && key.required then
    .error .keyWithoutColon
  else .ok { scan with keys := scan.keys.filter fun (_, key) => !isStale scan.cursor key }

/-- The possible key at the present depth. -/
def key? (scan : Scan) : Option PossibleKey :=
  scan.keys.lookup scan.depth

/-- Forget the possible key at the present depth. -/
def dropKey (scan : Scan) : Except Fault Scan :=
  if scan.key?.any (·.required) then .error .keyWithoutColon
  else .ok { scan with keys := scan.keys.filter (·.1 ≠ scan.depth) }

/-- Remember that the next token may be a key. -/
def markKey (scan : Scan) : Except Fault Scan := do
  if scan.keyAllowed then
    let cleared ← scan.dropKey
    let cursor := scan.cursor
    let key : PossibleKey :=
      { position := scan.position, required := !scan.inFlow && scan.indent = cursor.column,
        index := cursor.index, line := cursor.line, column := cursor.column }
    return { cleared with keys := (scan.depth, key) :: cleared.keys }
  else return scan

/-- Close the blocks that are indented deeper than a column. -/
def closeBlocks (column : Int) : List Int → Scan → Scan
  | [], scan => scan
  | next :: rest, scan =>
      if scan.indent > column then
        closeBlocks column rest { scan.emit .blockEnd with indent := next, outer := rest }
      else scan

/-- Close the blocks that end before a column; brackets hide the indentation. -/
def unwind (column : Int) (scan : Scan) : Scan :=
  if scan.inFlow then scan else closeBlocks column scan.outer scan

/-- Open a block at a column if the present one starts before it. -/
def openBlock (column : Nat) (scan : Scan) : Option Scan :=
  if scan.indent < column then
    some { scan with indent := column, outer := scan.indent :: scan.outer }
  else none

/-- Open a block at the cursor if need be, with a token in front. -/
def openHere (token : Token) (scan : Scan) : Scan :=
  match scan.openBlock scan.cursor.column with
  | some opened => opened.emit token
  | none => scan

/-- The names of anchors and directives. -/
def isNameChar (c : Char) : Bool :=
  ('0' ≤ c && c ≤ '9') || ('A' ≤ c && c ≤ 'Z') || ('a' ≤ c && c ≤ 'z') || c = '-' || c = '_'

/-! ## Directives and tags -/

/-- A natural number. -/
def number (cursor : Cursor) : Except Fault (Nat × Cursor) := do
  let (digits, behind) ← cursor.takeWhile fun c => '0' ≤ c && c ≤ '9'
  if digits.isEmpty then .error .directive
  else
    match Text.readWhole 10 digits with
    | .ok value => return (value.toNat, behind)
    | .error (.tooLong length) => .error (.tooLong length)
    | .error .malformed => .error .directive

/-- Whether a character may stand in a tag. -/
def isTagChar (c : Char) : Bool :=
  isNameChar c || "-;/?:@&=+$,_.!~*'()[]".toList.contains c

/-- The bytes of a run of escapes, and the cursor past them. -/
def tagBytes : Nat → Cursor → List UInt8 → Except Fault (List UInt8 × Cursor)
  | 0, cursor, bytes => .ok (bytes, cursor)
  | steps + 1, cursor, bytes => do
      if ← cursor.sees '%' then
        let digits ← cursor.next
        match (← digits.peek).bind hexValue? with
        | none => .error .name
        | some high =>
            match (← digits.peekAt 1).bind hexValue? with
            | none => .error .name
            | some low =>
                tagBytes steps (← digits.skip 2) (bytes ++ [UInt8.ofNat (high * 16 + low)])
      else return (bytes, cursor)

/-- The characters of a tag from a place on; escapes stand for bytes in UTF-8. -/
def tagCharsFrom : Nat → Cursor → List Char → Except Fault (List Char × Cursor)
  | 0, cursor, chars => .ok (chars, cursor)
  | steps + 1, cursor, chars => do
      let (plain, cursor) ← cursor.takeWhile isTagChar
      let chars := chars ++ plain
      if ← cursor.sees '%' then
        let (bytes, cursor) ← tagBytes (cursor.rest.length + 1) cursor []
        match Text.Utf8.decode bytes with
        | .ok text => tagCharsFrom steps cursor (chars ++ text.toList)
        | .error _ => .error .name
      else return (chars, cursor)

/-- The characters of a tag. -/
def tagChars (cursor : Cursor) : Except Fault (String × Cursor) := do
  let (chars, behind) ← tagCharsFrom (cursor.rest.length + 1) cursor []
  if chars.isEmpty then .error .name
  else return (String.ofList chars, behind)

/-- A tag handle: an exclamation mark, or a name between two. -/
def tagHandle (cursor : Cursor) : Except Fault (String × Cursor) := do
  if !(← cursor.sees '!') then .error .name
  else
    let (name, behind) ← (← cursor.next).takeWhile isNameChar
    if ← behind.sees '!' then return (String.ofList ('!' :: name ++ ['!']), ← behind.next)
    else if name.isEmpty && (← behind.sees ' ') then return ("!", behind)
    else .error .name

/-- The rest of a directive of the given name, and what it says. -/
def directiveValue (name : List Char) (cursor : Cursor) : Except Fault (Token × Cursor) := do
  if name = "YAML".toList then
    let (major, cursor) ← number (← cursor.skipSpaces)
    if !(← cursor.sees '.') then .error .directive
    let (_, cursor) ← number (← cursor.next)
    if !endsWord (← cursor.peek) then .error .directive
    return (.versionDirective major, cursor)
  else if name = "TAG".toList then
    let (handle, cursor) ← tagHandle (← cursor.skipSpaces)
    if !(← cursor.sees ' ') then .error .directive
    let (target, cursor) ← tagChars (← cursor.skipSpaces)
    if !endsWord (← cursor.peek) then .error .directive
    return (.tagDirective handle target, cursor)
  else return (.otherDirective, ← cursor.skipWhile (!isBreak ·))

/-- A directive line. -/
def directive (scan : Scan) : Except Fault Scan := do
  let (name, cursor) ← (← scan.cursor.next).takeWhile isNameChar
  if name.isEmpty || !endsWord (← cursor.peek) then .error .directive
  else
    let (token, cursor) ← directiveValue name cursor
    return (scan.moveTo (← cursor.finishLine .directive)).emit token

/-- A tag. -/
def tagAt (cursor : Cursor) : Except Fault (TagName × Cursor) := do
  let second ← cursor.peekAt 1
  let (name, cursor) ←
    if second = some '<' then do
      let (suffix, cursor) ← tagChars (← cursor.skip 2)
      if ← cursor.sees '>' then pure (TagName.mk none suffix, ← cursor.next)
      else .error .name
    else if endsToken second then pure (TagName.mk none "!", ← cursor.next)
    else do
      let behind ← cursor.next
      let word ← behind.span fun c => c ≠ '!' && !endsWord (some c)
      if (← behind.peekAt word.length) = some '!' then
        let (handle, cursor) ← tagHandle cursor
        let (suffix, cursor) ← tagChars cursor
        pure (TagName.mk (some handle) suffix, cursor)
      else
        let (suffix, cursor) ← tagChars behind
        pure (TagName.mk (some "!") suffix, cursor)
  if endsWord (← cursor.peek) then return (name, cursor) else .error .name

/-- The name of an anchor or an alias, behind its sign. -/
def anchorName (cursor : Cursor) : Except Fault (String × Cursor) := do
  let (name, behind) ← (← cursor.next).takeWhile isNameChar
  let ends := match ← behind.peek with
    | none => true
    | some c => endsToken (some c) || "?:,]\x7d%@`".toList.contains c
  if name.isEmpty || !ends then .error .name else return (String.ofList name, behind)

/-! ## One token -/

/-- A mark between documents. -/
def documentMark (token : Token) (scan : Scan) : Except Fault Scan := do
  let cleared ← (scan.unwind (-1)).dropKey
  return ((cleared.allowKey false).moveTo (← scan.cursor.skip 3)).emit token

/-- An opening bracket. -/
def openFlow (token : Token) (scan : Scan) : Except Fault Scan := do
  let marked ← scan.markKey
  return (({ marked with depth := marked.depth + 1 }.allowKey true).moveTo
    (← scan.cursor.next)).emit token

/-- A closing bracket. -/
def closeFlow (token : Token) (scan : Scan) : Except Fault Scan := do
  let cleared ← scan.dropKey
  return (({ cleared with depth := cleared.depth - 1 }.allowKey false).moveTo
    (← scan.cursor.next)).emit token

/-- A comma between the entries in brackets. -/
def flowEntry (scan : Scan) : Except Fault Scan := do
  let cleared ← scan.dropKey
  return ((cleared.allowKey true).moveTo (← scan.cursor.next)).emit .flowEntry

/-- The dash of an entry. -/
def blockEntry (scan : Scan) : Except Fault Scan := do
  if !scan.inFlow && !scan.keyAllowed then .error .misplaced
  let opened := if scan.inFlow then scan else scan.openHere .blockSequenceStart
  let cleared ← (opened.allowKey true).dropKey
  return (cleared.moveTo (← scan.cursor.next)).emit .blockEntry

/-- The question mark of a key. -/
def explicitKey (scan : Scan) : Except Fault Scan := do
  if !scan.inFlow && !scan.keyAllowed then .error .misplaced
  let opened := if scan.inFlow then scan else scan.openHere .blockMappingStart
  let cleared ← (opened.allowKey (!scan.inFlow)).dropKey
  return (cleared.moveTo (← scan.cursor.next)).emit .key

/-- The colon of a value.  The key before it is marked where it starts. -/
def colon (scan : Scan) : Except Fault Scan := do
  match scan.key? with
  | some key =>
      let cleared := { scan with keys := scan.keys.filter (·.1 ≠ scan.depth) }
      let marked := cleared.insert key.position .key
      let opened := match (if scan.inFlow then none else marked.openBlock key.column) with
        | some opened => opened.insert key.position .blockMappingStart
        | none => marked
      return ((opened.allowKey false).moveTo (← scan.cursor.next)).emit .value
  | none =>
      if !scan.inFlow && !scan.keyAllowed then .error .misplaced
      let opened := if scan.inFlow then scan else scan.openHere .blockMappingStart
      let cleared ← (opened.allowKey (!scan.inFlow)).dropKey
      return (cleared.moveTo (← scan.cursor.next)).emit .value

/-- A token that may be a key: its text is read by `read`. -/
def keyLike {α : Type} (read : Cursor → Except Fault (α × Cursor)) (token : α → Token)
    (scan : Scan) : Except Fault Scan := do
  let marked ← scan.markKey
  let (value, cursor) ← read scan.cursor
  return ((marked.allowKey false).moveTo cursor).emit (token value)

/-- A block scalar. -/
def blockScalar (isFolded : Bool) (scan : Scan) : Except Fault Scan := do
  let cleared ← (scan.allowKey true).dropKey
  let (text, cursor) ← blockText isFolded scan.indent scan.cursor
  return (cleared.moveTo cursor).emit (.scalar (String.ofList text) false)

/-- A plain scalar. -/
def plainScalar (scan : Scan) : Except Fault Scan := do
  let marked ← scan.markKey
  let read ← plainText scan.inFlow (scan.indent + 1) scan.cursor
  return ((marked.allowKey read.brokeLine).moveTo read.cursor).emit
    (.scalar (String.ofList read.text) true)

/-- Whether a plain scalar starts at a cursor with the given character. -/
def startsPlain (scan : Scan) (c : Char) : Except Fault Bool := do
  if endsToken (some c) || ",[]\x7b\x7d#&*!|>'\"%@`".toList.contains c then return false
  else if c = '-' || c = '?' || c = ':' then
    let following ← scan.cursor.peekAt 1
    return !endsToken following && (c = '-' || !scan.inFlow)
  else return true

/-- Whether a sign stands alone: in brackets, or before a blank. -/
def standsAlone (scan : Scan) : Except Fault Bool := do
  if scan.inFlow then return true else return endsToken (← scan.cursor.peekAt 1)

/-- Whether a line that divides documents starts with the given character. -/
def divides (scan : Scan) : Except Fault Bool := do
  if scan.cursor.column = 0 then scan.cursor.seesDivider else return false

/-- Read a token that starts with a dash, a question mark or a colon, or a plain
scalar that does. -/
def signAt (c : Char) (scan : Scan) : Except Fault Scan := do
  if c = '-' && endsToken (← scan.cursor.peekAt 1) then scan.blockEntry
  else if c = '?' && (← scan.standsAlone) then scan.explicitKey
  else if c = ':' && (← scan.standsAlone) then scan.colon
  else if ← scan.startsPlain c then scan.plainScalar
  else .error .noToken

/-- Read the token at the cursor, which starts with the given character. -/
def tokenAt (c : Char) (scan : Scan) : Except Fault Scan := do
  if c = '%' && scan.cursor.column = 0 then
    ((← (scan.unwind (-1)).dropKey).allowKey false).directive
  else if c = '-' || c = '.' then
    if ← scan.divides then
      scan.documentMark (if c = '-' then .documentStart else .documentEnd)
    else scan.signAt c
  else if c = '[' then scan.openFlow .flowSequenceStart
  else if c = '\x7b' then scan.openFlow .flowMappingStart
  else if c = ']' then scan.closeFlow .flowSequenceEnd
  else if c = '\x7d' then scan.closeFlow .flowMappingEnd
  else if c = ',' then scan.flowEntry
  else if c = '*' then scan.keyLike anchorName .aliasOf
  else if c = '&' then scan.keyLike anchorName .anchor
  else if c = '!' then scan.keyLike tagAt .tag
  else if c = '|' && !scan.inFlow then scan.blockScalar false
  else if c = '>' && !scan.inFlow then scan.blockScalar true
  else if c = '\'' || c = '"' then
    scan.keyLike (quotedText c) fun text => .scalar (String.ofList text) false
  else scan.signAt c

/-- Read on to the next token. -/
def readToken (scan : Scan) : Except Fault Scan := do
  let ready ← (← scan.toNextToken).dropStaleKeys
  let ready := ready.unwind ready.cursor.column
  match ← ready.cursor.peek with
  | none =>
      let closed ← (ready.unwind (-1)).dropKey
      return { closed with isFinished := true, keyAllowed := false, keys := [] }
  | some c => ready.tokenAt c

/-- Whether the first waiting token may turn out to be a key. -/
def isUndecided (scan : Scan) : Bool :=
  (scan.keys.map (·.2.position)).min? = some scan.taken

/-- Read on until the first waiting token is decided, or the text ends.  Each
step takes a character at least. -/
def settle : Nat → Scan → Except Fault Scan
  | 0, scan => .ok scan
  | steps + 1, scan => do
      if scan.isFinished then return scan
      else if scan.waiting.isEmpty then settle steps (← scan.readToken)
      else
        let fresh ← scan.dropStaleKeys
        if fresh.isUndecided then settle steps (← fresh.readToken) else return fresh

/-- The next token, if there is one. -/
def peek (scan : Scan) : Except Fault (Option Token × Scan) := do
  let settled ← scan.settle (scan.cursor.rest.length + 2)
  return (settled.waiting.head?, settled)

/-- Take the next token. -/
def take (scan : Scan) : Scan :=
  match scan.waiting with
  | [] => scan
  | _ :: rest => { scan with waiting := rest, taken := scan.taken + 1 }

end Scan

end JavaUml.Yaml
