/-!
# Floating-point numbers as exact values

A floating-point number is kept as its 64 bits, so that two numbers can be told
apart.  A finite one is a fraction of natural numbers with a sign.
-/

namespace JavaUml.Decimal

/-- A power of two. -/
def twoTo (n : Nat) : Nat :=
  Nat.pow 2 n

/-- A power of ten. -/
def tenTo (n : Nat) : Nat :=
  Nat.pow 10 n

/-- A double-precision number. -/
structure Binary64 where
  bits : UInt64
  deriving DecidableEq, Repr

/-- What the bits stand for. -/
inductive Reading where
  /-- The number `±significand · 2 ^ (power - 1074)`. -/
  | finite (negative : Bool) (significand power : Nat)
  | infinite (negative : Bool)
  | notANumber
  deriving DecidableEq, Repr

namespace Binary64

def ofFloat (value : Float) : Binary64 :=
  ⟨value.toBits⟩

def toFloat (value : Binary64) : Float :=
  Float.ofBits value.bits

def ofInt (n : Int) : Binary64 :=
  ofFloat (Float.ofInt n)

/-- The zero without a sign. -/
def zero : Binary64 :=
  ⟨0⟩

/-- A number times a power of ten, rounded to the nearest double.  Powers far
beyond the range of doubles are cut to ones that give the same result. -/
def ofDecimal (negative : Bool) (digits : Nat) (exponent : Int) : Binary64 :=
  let width : Int := (Nat.toDigits 10 digits).length
  let exponent := max (-400 - width) (min 400 exponent)
  let magnitude := match exponent with
    | .ofNat n => Float.ofScientific digits false n
    | .negSucc n => Float.ofScientific digits true (n + 1)
  ofFloat (if negative then -magnitude else magnitude)

/-- Sign, significand and exponent of a number. -/
def read (value : Binary64) : Reading :=
  let n := value.bits.toNat
  let negative := twoTo 63 ≤ n
  let exponent := n / twoTo 52 % twoTo 11
  let fraction := n % twoTo 52
  if exponent = 2047 then
    if fraction = 0 then .infinite negative else .notANumber
  else if exponent = 0 then .finite negative fraction 0
  else .finite negative (twoTo 52 + fraction) (exponent - 1)

def isInfinite (value : Binary64) : Bool :=
  match value.read with
  | .infinite _ => true
  | _ => false

/-- Whether a number is zero, of either sign. -/
def isZero (value : Binary64) : Bool :=
  match value.read with
  | .finite _ 0 _ => true
  | _ => false

/-- The whole number that a number is equal to. -/
def whole? (value : Binary64) : Option Int :=
  match value.read with
  | .finite negative significand power =>
      let scaled := significand * twoTo power
      let size : Int := (scaled / twoTo 1074 : Nat)
      if scaled % twoTo 1074 = 0 then some (if negative then -size else size) else none
  | _ => none

end Binary64

end JavaUml.Decimal
