import Vouch.Decimal.Double

namespace Vouch.Decimal

/-- A natural number of units of the last place, written with that many places. -/
def placed (places n : Nat) : String :=
  let digits := Nat.toDigits 10 n
  let digits := List.replicate (places + 1 - digits.length) '0' ++ digits
  let whole := digits.length - places
  String.ofList (digits.take whole ++ if places = 0 then [] else '.' :: digits.drop whole)

/-- A double to a fixed number of places. Its exact value is rounded, a half to the even digit. The
sign of a number that rounds to zero stays. -/
def writeFixed (places : Nat) (x : Float) : String :=
  match parts x with
  | .nan => "nan"
  | .infinite negative => if negative then "-inf" else "inf"
  | .finite negative mantissa exponent =>
    let (numerator, denominator) := scaled mantissa 2 exponent
    (if negative then "-" else "") ++
      placed places (roundHalfEven (numerator * Nat.pow 10 places) denominator)

end Vouch.Decimal
