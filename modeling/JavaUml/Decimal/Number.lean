import JavaUml.Decimal.Shortest

/-!
# Whole and floating-point numbers

A number is whole or floating.  Arithmetic on whole numbers is exact, and a
floating operand makes the result floating; there is none if the other operand
is a whole number beyond the range of floating-point numbers.  Amounts have two
places, a half goes to the even neighbour.
-/

namespace JavaUml.Decimal

/-- A number of either kind. -/
inductive Number where
  | whole (value : Int)
  | floating (value : Binary64)
  deriving DecidableEq, Repr

namespace Number

def isZero : Number → Bool
  | whole value => value = 0
  | floating value => value.isZero

/-- A number as a floating-point one.  A whole number beyond their range is none. -/
def floating? : Number → Option Binary64
  | whole value =>
      let rounded := Binary64.ofInt value
      if rounded.isInfinite then none else some rounded
  | floating value => some value

/-- The result of an operation on floating-point numbers. -/
def combine (operation : Float → Float → Float) (a b : Number) : Option Number := do
  let a ← a.floating?
  let b ← b.floating?
  return floating (.ofFloat (operation a.toFloat b.toFloat))

/-- The difference of two numbers, if a whole one beside a floating one is in
range. -/
def sub : Number → Number → Option Number
  | whole a, whole b => some (whole (a - b))
  | a, b => combine (· - ·) a b

/-- The product of two numbers, if a whole one beside a floating one is in
range. -/
def mul : Number → Number → Option Number
  | whole a, whole b => some (whole (a * b))
  | a, b => combine (· * ·) a b

/-- The text of a number. -/
def text : Number → String
  | whole value => toString value
  | floating value => value.text

end Number

/-- A quotient rounded to the nearest whole number, a half to the even one. -/
def roundedQuotient (n d : Nat) : Nat :=
  let floor := n / d
  match compare (2 * (n % d)) d with
  | .lt => floor
  | .gt => floor + 1
  | .eq => if floor % 2 = 0 then floor else floor + 1

/-- A number of hundredths, written out. -/
def hundredths (negative : Bool) (n : Nat) : String :=
  let cents := n % 100
  (if negative then "-" else "") ++ toString (n / 100) ++ "." ++
    (if cents < 10 then "0" else "") ++ toString cents

/-- A floating-point number with two places. -/
def Binary64.twoPlaces (value : Binary64) : String :=
  match value.read with
  | .notANumber => "nan"
  | .infinite negative => if negative then "-inf" else "inf"
  | .finite negative significand power =>
      hundredths negative (roundedQuotient (significand * twoTo power * 100) (twoTo 1074))

/-- A number with two places, if it is in the range of floating-point numbers. -/
def Number.twoPlaces? (number : Number) : Option String :=
  number.floating?.map Binary64.twoPlaces

end JavaUml.Decimal
