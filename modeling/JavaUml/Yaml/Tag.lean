import JavaUml.Text.Cut
import JavaUml.Yaml.Cursor

/-!
# Tags

A tag says what a node stands for.  It is written in front of a node, or follows
from the kind of the node and, for a plain scalar, from its text.

The rules for plain texts look at lines: a line end at the very end of a text is
overlooked.
-/

namespace JavaUml.Yaml

/-- What a node stands for. -/
inductive Tag where
  | null
  | bool
  | whole
  | floating
  | binary
  | timestamp
  | orderedMap
  | pairs
  | set
  | text
  | sequence
  | mapping
  /-- The key that merges other mappings. -/
  | merge
  /-- The key of a default value. -/
  | defaultValue
  /-- A tag that nothing can be built for. -/
  | other
  deriving DecidableEq, Repr

/-- The names of the tags that have a meaning. -/
def Tag.names : List (String × Tag) :=
  [("null", .null), ("bool", .bool), ("int", .whole), ("float", .floating),
    ("binary", .binary), ("timestamp", .timestamp), ("omap", .orderedMap), ("pairs", .pairs),
    ("set", .set), ("str", .text), ("seq", .sequence), ("map", .mapping), ("merge", .merge),
    ("value", .defaultValue)]

/-- The start of the full names of these tags. -/
def tagStart : String := "tag:yaml.org,2002:"

/-- The tag with a full name. -/
def Tag.ofName (name : String) : Tag :=
  ((Tag.names.find? fun entry => tagStart ++ entry.1 = name).map (·.2)).getD .other

/-! ## Plain texts -/

/-- The words for the absent value. -/
def nullWords : List String :=
  ["", "~", "null", "Null", "NULL"]

/-- The words for truth values. -/
def boolWords : List String :=
  ["yes", "Yes", "YES", "true", "True", "TRUE", "on", "On", "ON",
    "no", "No", "NO", "false", "False", "FALSE", "off", "Off", "OFF"]

def isDigit (c : Char) : Bool :=
  '0' ≤ c && c ≤ '9'

/-- A digit or an underscore. -/
def isGrouped (c : Char) : Bool :=
  isDigit c || c = '_'

/-- Whether a text is not empty and made of a class of characters. -/
def isRun (p : Char → Bool) (text : List Char) : Bool :=
  !text.isEmpty && text.all p

/-- Whether a text starts with a digit and has only digits and underscores. -/
def isGroupedNumber : List Char → Bool
  | [] => false
  | c :: rest => isDigit c && rest.all isGrouped

/-- Whether a text is a decimal number that starts with no zero. -/
def isPlainDecimal (text : List Char) : Bool :=
  isGroupedNumber text && text.head? ≠ some '0'

/-- Whether a text is a number below sixty. -/
def isSixtieth : List Char → Bool
  | [c] => isDigit c
  | [a, b] => '0' ≤ a && a ≤ '5' && isDigit b
  | _ => false

/-- Whether a text looks like a whole number without its sign: to a base, or in
groups that count in sixties. -/
def looksWhole (text : List Char) : Bool :=
  match text with
  | ['0'] => true
  | '0' :: 'b' :: digits => isRun (fun c => c = '0' || c = '1' || c = '_') digits
  | '0' :: 'x' :: digits =>
      isRun (fun c => isGrouped c || ('a' ≤ c && c ≤ 'f') || ('A' ≤ c && c ≤ 'F')) digits
  | '0' :: digits => digits.all fun c => ('0' ≤ c && c ≤ '7') || c = '_'
  | _ =>
      match Text.splitAt ':' text with
      | first :: groups => isPlainDecimal first && groups.all isSixtieth
      | [] => false

/-- Whether a text is an exponent with a sign, or nothing. -/
def isSignedExponent : List Char → Bool
  | [] => true
  | mark :: sign :: digits =>
      (mark = 'e' || mark = 'E') && (sign = '-' || sign = '+') && isRun isDigit digits
  | _ => false

/-- Whether a text looks like a floating-point number.  It needs a point. -/
def looksFloating (text : List Char) : Bool :=
  let unsigned := (Text.signed text).2
  if [".inf", ".Inf", ".INF"].contains (String.ofList unsigned) then true
  else if [".nan", ".NaN", ".NAN"].contains (String.ofList text) then true
  else
    let whole := unsigned.takeWhile (· ≠ '.')
    match unsigned.dropWhile (· ≠ '.') with
    | [] => false
    | _ :: after =>
        let part := after.takeWhile isGrouped
        let behind := after.dropWhile isGrouped
        match Text.splitAt ':' whole with
        | [only] =>
            (isGroupedNumber only || (text.head? = some '.' && isGroupedNumber part)) &&
              isSignedExponent behind
        | first :: groups => isGroupedNumber first && groups.all isSixtieth && behind.isEmpty
        | [] => false

/-- The digits at the front of a text, if their number lies in a range, and the
rest.  As many are taken as can be. -/
def someDigits (least most : Nat) (text : List Char) : Option (List Char × List Char) :=
  let digits := (text.takeWhile isDigit).take most
  if least ≤ digits.length then some (digits, text.drop digits.length) else none

/-- The rest of a text behind a character. -/
def behindChar (c : Char) : List Char → Option (List Char)
  | [] => none
  | first :: rest => if first = c then some rest else none

/-- The parts of a date and of the time behind it, as they are written. -/
structure DateParts where
  year : List Char
  month : List Char
  day : List Char
  /-- Hour, minute and second. -/
  time : Option (List Char × List Char × List Char)
  fraction : List Char
  /-- The distance from universal time: its sign, hours and minutes. -/
  offset : Option (Char × List Char × List Char)
  /-- Whether the time is universal time. -/
  isUniversal : Bool

/-- The zone behind a time: the mark of universal time, or a distance from it. -/
def zone? (text : List Char) : Option (Option (Char × List Char × List Char) × Bool) :=
  match text.dropWhile fun c => c = ' ' || c = '\t' with
  | [] => if text.isEmpty then some (none, false) else none
  | ['Z'] => some (none, true)
  | sign :: rest => do
      guard (sign = '-' || sign = '+')
      let (hours, rest) ← someDigits 1 2 rest
      match rest with
      | [] => return (some (sign, hours, []), false)
      | _ => do
          let (minutes, rest) ← someDigits 2 2 (← behindChar ':' rest)
          guard rest.isEmpty
          return (some (sign, hours, minutes), false)

/-- The time behind a date. -/
def time? (date : DateParts) (text : List Char) : Option DateParts := do
  let (hour, rest) ← someDigits 1 2 text
  let (minute, rest) ← someDigits 2 2 (← behindChar ':' rest)
  let (second, rest) ← someDigits 2 2 (← behindChar ':' rest)
  let (fraction, rest) := match rest with
    | '.' :: after => (after.takeWhile isDigit, after.dropWhile isDigit)
    | _ => ([], rest)
  let (offset, isUniversal) ← zone? rest
  return { date with time := some (hour, minute, second), fraction, offset, isUniversal }

/-- The parts of a date, with a time or without. -/
def dateParts? (text : List Char) : Option DateParts := do
  let (year, rest) ← someDigits 4 4 text
  let (month, rest) ← someDigits 1 2 (← behindChar '-' rest)
  let (day, rest) ← someDigits 1 2 (← behindChar '-' rest)
  let date : DateParts :=
    { year, month, day, time := none, fraction := [], offset := none, isUniversal := false }
  match rest with
  | [] => return date
  | mark :: after =>
      if mark = 'T' || mark = 't' then time? date after
      else do
        guard (mark = ' ' || mark = '\t')
        time? date (after.dropWhile fun c => c = ' ' || c = '\t')

/-- Whether a text looks like a date.  Without a time, month and day have two
digits. -/
def looksDated (text : List Char) : Bool :=
  match dateParts? text with
  | some parts => parts.time.isSome || (parts.month.length = 2 && parts.day.length = 2)
  | none => false

/-- A text without a line end at its very end. -/
def firstLines (text : List Char) : List Char :=
  if text.getLast? = some '\n' then text.dropLast else text

/-- The tag of a plain text. -/
def Tag.ofPlain (text : String) : Tag :=
  let chars := firstLines text.toList
  let line := String.ofList chars
  if text = "\n" then .text
  else if boolWords.contains line then .bool
  else if looksFloating chars then .floating
  else if looksWhole (Text.signed chars).2 then .whole
  else if line = "<<" then .merge
  else if nullWords.contains line then .null
  else if looksDated chars then .timestamp
  else if line = "=" then .defaultValue
  else if ["!", "&", "*"].contains line then .other
  else .text

end JavaUml.Yaml
