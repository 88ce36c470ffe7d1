import JavaUml.Config.Setting
import JavaUml.Decimal.FloatText
import JavaUml.Yaml.Tag

/-!
# What a scalar stands for

The tag of a scalar says how its text is to be read.  The text may still be none
of the kind, since a tag can be written in front of any text.

Underscores in numbers count for nothing, and groups of digits between colons
count in sixties.
-/

namespace JavaUml.Yaml

open Config (Scalar)
open Decimal (Binary64)

/-! ## Words and numbers -/

/-- The truth value of a word in small letters. -/
def truthOf? (word : String) : Option Bool :=
  if ["yes", "true", "on"].contains word then some true
  else if ["no", "false", "off"].contains word then some false
  else none

/-- A truth value. -/
def boolValue (text : String) : Except Fault Bool :=
  let word := text.toLower
  match truthOf? word with
  | some value => .ok value
  | none => .error (.unknownWord word)

/-- The characters of a number, of which underscores are none. -/
def numberChars (text : String) : Except Fault (List Char) :=
  match text.toList.filter (· ≠ '_') with
  | [] => .error .noNumber
  | chars => .ok chars

/-- A whole number to a base. -/
def wholeOf (base : Nat) (text : List Char) : Except Fault Int :=
  match Text.readWhole base text with
  | .ok value => .ok value
  | .error .malformed => .error (.notWhole base (String.ofList text))
  | .error (.tooLong digits) => .error (.tooLong digits)

/-- A whole number without the first of its signs. -/
def unsignedWhole (text : List Char) : Except Fault Int :=
  match text with
  | [] => .error .noNumber
  | ['0'] => .ok 0
  | '0' :: 'b' :: digits => wholeOf 2 digits
  | '0' :: 'x' :: digits => wholeOf 16 digits
  | '0' :: _ => wholeOf 8 text
  | _ =>
      if text.contains ':' then do
        let groups ← (Text.splitAt ':' text).mapM (wholeOf 10)
        return groups.foldl (fun sum group => sum * 60 + group) 0
      else wholeOf 10 text

/-- A whole number. -/
def wholeValue (text : String) : Except Fault Int := do
  let (negative, unsigned) := Text.signed (← numberChars text)
  let value ← unsignedWhole unsigned
  return if negative then -value else value

/-- A floating-point number in digits. -/
def floatingOf (text : List Char) : Except Fault Float :=
  match Binary64.ofText? text with
  | some value => .ok value.toFloat
  | none => .error (.notFloating (String.ofList text))

/-- A floating-point number without the first of its signs. -/
def unsignedFloating (text : List Char) : Except Fault Float :=
  if text = ".inf".toList then .ok (1.0 / 0.0)
  else if text = ".nan".toList then .ok (0.0 / 0.0)
  else if text.contains ':' then do
    let groups ← (Text.splitAt ':' text).mapM floatingOf
    let (sum, _) := groups.reverse.foldl
      (fun (sum, scale) group => (sum + group * scale, scale * 60.0)) (0.0, 1.0)
    return sum
  else floatingOf text

/-- A floating-point number. -/
def floatingValue (text : String) : Except Fault Binary64 := do
  let (negative, unsigned) := Text.signed (← numberChars text.toLower)
  let value ← unsignedFloating unsigned
  return .ofFloat (if negative then -value else value)

/-! ## Bytes -/

/-- The value of a character of the base-64 alphabet. -/
def sextet? (c : Char) : Option Nat :=
  if 'A' ≤ c ∧ c ≤ 'Z' then some (c.toNat - 'A'.toNat)
  else if 'a' ≤ c ∧ c ≤ 'z' then some (c.toNat - 'a'.toNat + 26)
  else if '0' ≤ c ∧ c ≤ '9' then some (c.toNat - '0'.toNat + 52)
  else if c = '+' then some 62
  else if c = '/' then some 63
  else none

/-- The bytes of a text in base 64, from a place in a group of four on.  Other
characters are passed over.  The text ends where padding fills a group of at
least two. -/
def bytesFrom (place held padding : Nat) : List Char → Option (List UInt8)
  | [] => if place = 0 then some [] else none
  | c :: rest =>
      if c = '=' then
        if 2 ≤ place ∧ 4 ≤ place + (padding + 1) then some []
        else bytesFrom place held (if 2 ≤ place then padding + 1 else padding) rest
      else
        match sextet? c with
        | none => bytesFrom place held padding rest
        | some value =>
            let whole := held * 64 + value
            match place with
            | 0 => bytesFrom 1 value 0 rest
            | 1 => (bytesFrom 2 (value % 16) 0 rest).map (UInt8.ofNat (whole / 16) :: ·)
            | 2 => (bytesFrom 3 (value % 4) 0 rest).map (UInt8.ofNat (whole / 4) :: ·)
            | _ => (bytesFrom 0 0 0 rest).map (UInt8.ofNat whole :: ·)

/-- Bytes in base 64.  The text is ASCII. -/
def bytesValue (text : String) : Except Fault (List UInt8) :=
  if text.toList.all (·.toNat < 0x80) then
    match bytesFrom 0 0 0 text.toList with
    | some bytes => .ok bytes
    | none => .error .value
  else .error .value

/-! ## Dates -/

/-- The number that digits stand for. -/
def digitsValue (digits : List Char) : Nat :=
  digits.foldl (fun number digit => number * 10 + (digit.toNat - '0'.toNat)) 0

/-- The microseconds of a fraction of a second; further digits are cut off. -/
def microseconds (fraction : List Char) : Nat :=
  let digits := fraction.take 6
  digitsValue (digits ++ List.replicate (6 - digits.length) '0')

/-- A distance from universal time in minutes. -/
def offsetMinutes : Char × List Char × List Char → Int
  | (sign, hours, minutes) =>
      let size : Int := digitsValue hours * 60 + digitsValue minutes
      if sign = '-' then -size else size

/-- The date or moment that parts stand for. -/
def DateParts.value (parts : DateParts) : Except Calendar.Fault Scalar := do
  let year := digitsValue parts.year
  let month := digitsValue parts.month
  let day := digitsValue parts.day
  match parts.time with
  | none => return .date (← Calendar.Date.ofNumbers year month day)
  | some (hour, minute, second) =>
      let offset :=
        if parts.isUniversal then some 0 else parts.offset.map offsetMinutes
      let moment ← Calendar.Moment.ofNumbers year month day (digitsValue hour)
        (digitsValue minute) (digitsValue second) (microseconds parts.fraction) offset
      return .moment moment

/-- A date or a moment. -/
def dateValue (text : String) : Except Fault Scalar :=
  match dateParts? (firstLines text.toList) with
  | some parts => parts.value.mapError .date
  | none => .error .notDate

/-! ## Scalars -/

/-- The scalar that a text with a tag stands for, if the tag is one for scalars. -/
def scalarValue (tag : Tag) (text : String) : Except Fault Scalar :=
  match tag with
  | .null => .ok .null
  | .bool => do return .bool (← boolValue text)
  | .whole => do return .number (.whole (← wholeValue text))
  | .floating => do return .number (.floating (← floatingValue text))
  | .binary => do return .bytes (← bytesValue text)
  | .timestamp => dateValue text
  | .text => .ok (.text text)
  | _ => .error .value

end JavaUml.Yaml
