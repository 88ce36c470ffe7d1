import JavaUml.Text.Blank
import JavaUml.Text.Category

/-!
# Numerals

Whole numbers as they may be written to a base: white space around them, a sign,
the mark of the base and single underscores between digits are allowed, and the
digits may be those of any script.

Reading a number to a base that is no power of two takes more than linear time,
so such numerals are refused beyond a number of digits.
-/

namespace JavaUml.Text

/-- Why a text is no numeral. -/
inductive NumeralFault where
  | malformed
  | tooLong (digits : Nat)
  deriving DecidableEq, Repr

/-- White space around a numeral: all but the information separators. -/
def isNumeralBlank (c : Char) : Bool :=
  isBlank c && !(0x1C ≤ c.toNat && c.toNat ≤ 0x1F)

/-- The value of a digit to a base; letters go on behind the nine. -/
def digitValue? (base : Nat) (c : Char) : Option Nat :=
  let value :=
    if 'a' ≤ c ∧ c ≤ 'z' then some (c.toNat - 'a'.toNat + 10)
    else if 'A' ≤ c ∧ c ≤ 'Z' then some (c.toNat - 'A'.toNat + 10)
    else decimalValue? c
  value.filter (· < base)

/-- The digits at the front of a text and what follows them.  One underscore may
stand before each. -/
def digitRun (base : Nat) : List Char → List Nat × List Char
  | '_' :: c :: rest =>
      match digitValue? base c with
      | some value =>
          let (values, behind) := digitRun base rest
          (value :: values, behind)
      | none => ([], '_' :: c :: rest)
  | c :: rest =>
      match digitValue? base c with
      | some value =>
          let (values, behind) := digitRun base rest
          (value :: values, behind)
      | none => ([], c :: rest)
  | [] => ([], [])

/-- The number that digits stand for. -/
def valueOfDigits (base : Nat) (digits : List Nat) : Nat :=
  digits.foldl (fun number digit => number * base + digit) 0

/-- A sign at the front, and whether it is a minus. -/
def signed : List Char → Bool × List Char
  | '-' :: rest => (true, rest)
  | '+' :: rest => (false, rest)
  | text => (false, text)

/-- The letters that mark a base behind a zero. -/
def baseMarks (base : Nat) : List Char :=
  if base = 2 then ['b', 'B']
  else if base = 8 then ['o', 'O']
  else if base = 16 then ['x', 'X']
  else []

/-- A text without the mark of the base and an underscore behind it. -/
def behindBaseMark (base : Nat) (text : List Char) : List Char :=
  match text with
  | zero :: mark :: rest =>
      if decimalValue? zero = some 0 ∧ mark ∈ baseMarks base then
        match rest with
        | '_' :: digits => digits
        | digits => digits
      else text
  | _ => text

/-- Whether the time to read a numeral grows with its length only. -/
def isEasyBase (base : Nat) : Bool :=
  [2, 4, 8, 16, 32].contains base

/-- The greatest number of digits to a base that is no power of two. -/
def greatestDigits : Nat := 4300

/-- The whole number that a text stands for. -/
def readWhole (base : Nat) (text : List Char) : Except NumeralFault Int :=
  let (negative, unsigned) := signed (text.dropWhile isNumeralBlank)
  let digits := behindBaseMark base unsigned
  let (values, behind) := digitRun base digits
  if values.isEmpty || digits.head? = some '_' || behind.head? = some '_' then .error .malformed
  else if !isEasyBase base && greatestDigits < values.length then
    .error (.tooLong values.length)
  else if behind.all isNumeralBlank then
    let magnitude : Int := valueOfDigits base values
    .ok (if negative then -magnitude else magnitude)
  else .error .malformed

/-- What is said about a numeral that is refused for its length. -/
def tooLongMessage (digits : Nat) : String :=
  "Exceeds the limit (" ++ toString greatestDigits ++
    " digits) for integer string conversion: value has " ++ toString digits ++
    " digits; use sys.set_int_max_str_digits() to increase the limit"

end JavaUml.Text
