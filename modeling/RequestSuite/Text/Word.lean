/-
Word characters and digits.

* `isAlphanumeric`, `isWord`: letters and numbers of every script, with `_` for words;
* `isDecimalDigit`: the decimal digits of every script.
-/
import RequestSuite.Text.WordTable

namespace RequestSuite.Text

/-- A letter or a number of any script. -/
def isAlphanumeric (c : Char) : Bool :=
  if c.toNat < 0x80 then c.isAlphanum else inRanges alphanumericRanges c.toNat

/-- A letter, a number or the low line. -/
def isWord (c : Char) : Bool := isAlphanumeric c || c == '_'

/-- A decimal digit of any script. -/
def isDecimalDigit (c : Char) : Bool :=
  if c.toNat < 0x80 then c.isDigit else inRanges decimalDigitRanges c.toNat

end RequestSuite.Text
