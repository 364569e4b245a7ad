import Vouch.Decimal.Double

namespace Vouch.Decimal

/-- A positive decimal `0.d₁d₂… * 10 ^ point`, its digits without zeros at either end. -/
structure Digits where
  digits : List Char
  point : Int

/-- Where the leading digit of a positive quotient stands: the greatest `e` with `10 ^ e` at most
the quotient. -/
def leadingPlace (numerator denominator : Nat) : Int :=
  if denominator ≤ numerator then
    ((Nat.toDigits 10 (numerator / denominator)).length : Int) - 1
  else
    let zeros := (List.range 400).find? fun k => denominator ≤ numerator * Nat.pow 10 (k + 1)
    Int.negSucc (zeros.getD 0)

/-- The decimals that read back as a given double lie between its two midpoints. Both midpoints are
counted in, when the mantissa is even, since halves go to the even mantissa. All numbers are
quarters of the last place of the mantissa, over one denominator. -/
structure Interval where
  low : Nat
  value : Nat
  high : Nat
  closed : Bool

/-- The interval of a positive double. Below a power of two the neighbour is only half as far. -/
def Interval.around (mantissa : Nat) (exponent : Int) : Interval where
  low := 4 * mantissa - if mantissa = 0x10000000000000 ∧ -1074 < exponent then 1 else 2
  value := 4 * mantissa
  high := 4 * mantissa + 2
  closed := mantissa % 2 == 0

/-- Looks for a multiple of `10 ^ place` in the interval. Only the two multiples beside the value
can be the nearest. The interval is counted in units of `2 ^ unit`. -/
def Interval.multiple? (i : Interval) (unit place : Int) : Option Nat :=
  let (two, twoDen) := scaled 1 2 unit
  let (ten, tenDen) := scaled 1 10 place
  let step := ten * twoDen
  let measure := fun n : Nat => n * two * tenDen
  let inside := fun c : Nat =>
    if i.closed then measure i.low ≤ c * step ∧ c * step ≤ measure i.high
    else measure i.low < c * step ∧ c * step < measure i.high
  let below := measure i.value / step
  let above := below + 1
  if inside below ∧ inside above then some (roundHalfEven (measure i.value) step)
  else if inside below then some below
  else if inside above then some above
  else none

/-- The fewest digits that read back as the double, and of those the nearest to it, the even ones
of two. Seventeen digits always suffice. -/
def shortest (mantissa : Nat) (exponent : Int) : Digits :=
  let i := Interval.around mantissa exponent
  let (numerator, denominator) := scaled mantissa 2 exponent
  let lead := leadingPlace numerator denominator
  let found := (List.range 17).findSome? fun (n : Nat) =>
    (i.multiple? (exponent - 2) (lead - n)).map fun c => (c, lead - n)
  let (c, place) := found.getD (0, 0)
  let digits := Nat.toDigits 10 c
  ⟨(digits.reverse.dropWhile (· = '0')).reverse, digits.length + place⟩

/-- Writes a decimal: positional from `10 ^ -4` up to below `10 ^ 16`, with at least one place
after the point, else with one digit before the point and an exponent of at least two digits. -/
def Digits.write (d : Digits) : String :=
  let n : Int := d.digits.length
  if -4 < d.point ∧ d.point ≤ 16 then
    if d.point ≤ 0 then
      "0." ++ String.ofList (List.replicate (-d.point).toNat '0' ++ d.digits)
    else if n ≤ d.point then
      String.ofList (d.digits ++ List.replicate (d.point - n).toNat '0') ++ ".0"
    else
      String.ofList (d.digits.take d.point.toNat ++ '.' :: d.digits.drop d.point.toNat)
  else
    let power := d.point - 1
    let mark := if power < 0 then "e-" else "e+"
    let size := Nat.toDigits 10 power.natAbs
    let size := List.replicate (2 - size.length) '0' ++ size
    let rest := d.digits.drop 1
    String.ofList (d.digits.take 1 ++ if rest = [] then [] else '.' :: rest) ++ mark ++
      String.ofList size

/-- The text of a double: the fewest digits that read back as it. -/
def writeDouble (x : Float) : String :=
  match parts x with
  | .nan => "nan"
  | .infinite negative => if negative then "-inf" else "inf"
  | .finite negative mantissa exponent =>
    let sign := if negative then "-" else ""
    if mantissa = 0 then sign ++ "0.0" else sign ++ (shortest mantissa exponent).write

end Vouch.Decimal
