/-
Decimal numbers in text.

* `takeSign`: the sign of a number;
* `digitsValue`: the number that some digits name;
* `maxDigits`, `digitsMessage`: the greatest number of digits of a whole number, and what is said of
  a longer one;
* `Binary64.ofParts`: the number of whole digits, digits after the point, and an exponent.
-/
import RequestSuite.Decimal.Binary64

namespace RequestSuite

/-- Whether a text starts with a minus sign, and the text after its sign. -/
def takeSign : List Char → Bool × List Char
  | '-' :: cs => (true, cs)
  | '+' :: cs => (false, cs)
  | cs => (false, cs)

/-- A natural number, or its opposite. -/
def signed (negative : Bool) (n : Nat) : Int := if negative then -n else n

/-- The number that some decimal digits name. -/
def digitsValue (digits : List Char) : Nat :=
  digits.foldl (fun n c => n * 10 + (c.toNat - 48)) 0

/-- The greatest number of digits of a whole number that is read. -/
def maxDigits : Nat := 4300

/-- What is said of a whole number of more digits than are read. -/
def digitsMessage (count : Nat) : String :=
  "Exceeds the limit (" ++ toString maxDigits ++
    " digits) for integer string conversion: value has " ++ toString count ++
    " digits; use sys.set_int_max_str_digits() to increase the limit"

/-- The number nearest to `whole.fraction · 10 ^ exponent`. -/
def Binary64.ofParts (negative : Bool) (whole fraction : List Char) (exponent : Int) : Binary64 :=
  .ofDecimal negative (digitsValue (whole ++ fraction)) (exponent - fraction.length)

end RequestSuite
