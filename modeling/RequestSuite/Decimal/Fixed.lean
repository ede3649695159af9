/-
Numbers with a set count of decimal places.

* `Binary64.fixed`: the exact value rounded to some places, a tie going to the even digit.
-/
import RequestSuite.Decimal.Binary64

namespace RequestSuite

/-- A natural number in at least `width` digits. -/
def paddedDigits (width n : Nat) : List Char :=
  let digits := Nat.toDigits 10 n
  List.replicate (width - digits.length) '0' ++ digits

/-- A number with `places` decimal places, at least one, rounded from its exact value. -/
def Binary64.fixed (places : Nat) : Binary64 → List Char
  | .nan => "nan".toList
  | .infinite negative => (if negative then ['-'] else []) ++ "inf".toList
  | .finite negative m e =>
    let one := power 10 places
    let units := roundQuotient (m * power 2 e * one) (power 2 (-e))
    let whole := Nat.toDigits 10 (units / one)
    (if negative then ['-'] else []) ++ whole ++ '.' :: paddedDigits places (units % one)

end RequestSuite
