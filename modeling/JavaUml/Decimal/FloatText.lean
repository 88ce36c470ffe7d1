import JavaUml.Decimal.Binary64
import JavaUml.Text.Numeral

/-!
# Floating-point numbers from text

A floating-point number may be written with white space around it, a sign,
digits before or behind a point and an exponent, or as a word for infinity or
for no number.
-/

namespace JavaUml.Decimal

open JavaUml.Text

/-- The digits at the front of a text, and the rest. -/
def decimalDigits (text : List Char) : List Nat × List Char :=
  match text with
  | [] => ([], [])
  | c :: rest =>
      match decimalValue? c with
      | some value =>
          let (values, behind) := decimalDigits rest
          (value :: values, behind)
      | none => ([], c :: rest)

/-- The value of an exponent: a mark, a sign if need be and digits, or nothing. -/
def exponentValue? (text : List Char) : Option Int :=
  match text with
  | [] => some 0
  | mark :: after =>
      let (negative, digits) := signed after
      match decimalDigits digits with
      | (values, []) =>
          if (mark = 'e' || mark = 'E') && !values.isEmpty then
            let size : Int := valueOfDigits 10 values
            some (if negative then -size else size)
          else none
      | _ => none

/-- A number without its sign, as digits with a point and an exponent. -/
def Binary64.ofDigits? (negative : Bool) (text : List Char) : Option Binary64 :=
  let (whole, behind) := decimalDigits text
  let (part, rest) := match behind with
    | '.' :: after => decimalDigits after
    | _ => ([], behind)
  if whole.isEmpty && part.isEmpty then none
  else (exponentValue? rest).map fun exponent =>
    .ofDecimal negative (valueOfDigits 10 (whole ++ part)) (exponent - part.length)

/-- The number that a text stands for. -/
def Binary64.ofText? (text : List Char) : Option Binary64 :=
  let front := text.dropWhile isNumeralBlank
  let (negative, unsigned) := signed (front.reverse.dropWhile isNumeralBlank).reverse
  let word := String.ofList (unsigned.map Char.toLower)
  if word = "inf" || word = "infinity" then
    some (.ofFloat (if negative then -(1.0 / 0.0) else 1.0 / 0.0))
  else if word = "nan" then some (.ofFloat (0.0 / 0.0))
  else Binary64.ofDigits? negative unsigned

end JavaUml.Decimal
