import JavaUml.Decimal.Binary64

/-!
# The shortest decimal text of a floating-point number

The digits are the fewest that read back as the number, and of those the
nearest to it.  Numbers from `0.0001` up to `10 ^ 16` are written out with a
point, the others with an exponent.
-/

namespace JavaUml.Decimal

/-- The fractions that read back as a number: from `low` to `high` over
`scale`, ends included or not, and the number itself as `middle` over `scale`. -/
structure Neighbourhood where
  low : Nat
  middle : Nat
  high : Nat
  scale : Nat
  closed : Bool

/-- The neighbourhood of `significand · 2 ^ (power - 1074)`.  Below the least
significand of a power the numbers lie twice as dense. -/
def neighbourhood (significand power : Nat) : Neighbourhood :=
  let unit := twoTo power
  let below := if significand = twoTo 52 ∧ 0 < power then 1 else 2
  { low := (4 * significand - below) * unit
    middle := 4 * significand * unit
    high := (4 * significand + 2) * unit
    scale := 4 * twoTo 1074
    closed := significand % 2 = 0 }

/-- Whether `digits · 10 ^ exponent` lies in a neighbourhood. -/
def Neighbourhood.holds (n : Neighbourhood) (digits : Nat) (exponent : Int) : Bool :=
  let (value, low, high) := match exponent with
    | .ofNat e => (digits * tenTo e * n.scale, n.low, n.high)
    | .negSucc e => (digits * n.scale, n.low * tenTo (e + 1), n.high * tenTo (e + 1))
  if n.closed then low ≤ value ∧ value ≤ high else low < value ∧ value < high

/-- The largest `digits` with `digits · 10 ^ exponent` not above the middle, and
whether twice the remainder is below, at or above one step. -/
def Neighbourhood.floor (n : Neighbourhood) (exponent : Int) : Nat × Ordering :=
  let (value, step) := match exponent with
    | .ofNat e => (n.middle, n.scale * tenTo e)
    | .negSucc e => (n.middle * tenTo (e + 1), n.scale)
  (value / step, compare (2 * (value % step)) step)

/-- The nearest multiple of a power of ten that reads back.  Of two multiples
that are equally near the even one is taken. -/
def Neighbourhood.onGrid? (n : Neighbourhood) (exponent : Int) : Option Nat :=
  let (floor, rest) := n.floor exponent
  let nearer := match rest with
    | .lt => floor
    | .gt => floor + 1
    | .eq => if floor % 2 = 0 then floor else floor + 1
  let farther := if nearer = floor then floor + 1 else floor
  [nearer, farther].find? fun digits => n.holds digits exponent

/-- The first grid, from the coarsest one on, with a number that reads back. -/
def Neighbourhood.firstGrid (n : Neighbourhood) : Nat → Int → Nat × Int
  | 0, exponent => ((n.floor exponent).1, exponent)
  | steps + 1, exponent =>
      match n.onGrid? exponent with
      | some digits => if digits = 0 then firstGrid n steps (exponent - 1) else (digits, exponent)
      | none => firstGrid n steps (exponent - 1)

/-- The number of decimal digits. -/
def digitCount (n : Nat) : Nat :=
  (Nat.toDigits 10 n).length

/-- The digits of `significand · 2 ^ (power - 1074)` and the power of ten of the
last one.  The coarsest grid is that of the number's first digit. -/
def shortestDigits (significand power : Nat) : Nat × Int :=
  let n := neighbourhood significand power
  let first : Int :=
    if n.scale ≤ n.middle then digitCount (n.middle / n.scale)
    else 1 - digitCount (n.scale / n.middle)
  n.firstGrid 20 first

/-- Digits with zeros at the end dropped, and the power of ten of the last one. -/
def withoutZeros : Nat → Nat → Int → Nat × Int
  | 0, digits, exponent => (digits, exponent)
  | steps + 1, digits, exponent =>
      if digits % 10 = 0 ∧ digits ≠ 0 then withoutZeros steps (digits / 10) (exponent + 1)
      else (digits, exponent)

/-- Digits and the power of ten of the last one, written out. -/
def decimalText (digits : Nat) (exponent : Int) : String :=
  let chars := Nat.toDigits 10 digits
  let point : Int := chars.length + exponent
  let written :=
    if -4 < point ∧ point ≤ 16 then
      if point ≤ 0 then '0' :: '.' :: (List.replicate (-point).toNat '0' ++ chars)
      else
        let whole := chars.take point.toNat ++ List.replicate (point.toNat - chars.length) '0'
        let rest := chars.drop point.toNat
        whole ++ '.' :: (if rest.isEmpty then ['0'] else rest)
    else
      let power := point - 1
      let digits := Nat.toDigits 10 power.natAbs
      let mantissa := match chars with
        | [only] => [only]
        | first :: rest => first :: '.' :: rest
        | [] => []
      mantissa ++ 'e' :: (if power < 0 then '-' else '+') ::
        (List.replicate (2 - digits.length) '0' ++ digits)
  String.ofList written

/-- The text of a floating-point number. -/
def Binary64.text (value : Binary64) : String :=
  match value.read with
  | .notANumber => "nan"
  | .infinite negative => if negative then "-inf" else "inf"
  | .finite negative significand power =>
      let sign := if negative then "-" else ""
      if significand = 0 then sign ++ "0.0"
      else
        let (digits, exponent) := shortestDigits significand power
        let (digits, exponent) := withoutZeros 20 digits exponent
        sign ++ decimalText digits exponent

end JavaUml.Decimal
