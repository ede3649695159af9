/-
Numbers in text.

* `Numeral`: what a text comes to that should be a whole number;
* `plainNumeral`: digits behind an optional minus sign;
* `normalNumeral?`: a number without blanks, plus sign, leading zeros, grouping low lines and a
  fraction of zeros;
* `wholeOfText`: the whole number of a text, in its plain form or by way of the normal one;
* `floatOfText?`: a number, an infinity, or not a number.
-/
import RequestSuite.Decimal.Reader

namespace RequestSuite.Shape

/-- White space around a number: that of Unicode. -/
def isSpace (c : Char) : Bool :=
  let n := c.toNat
  (9 ≤ n && n ≤ 13) || n == 32 || n == 0x85 || n == 0xa0 || n == 0x1680 ||
    (0x2000 ≤ n && n ≤ 0x200a) || n == 0x2028 || n == 0x2029 || n == 0x202f || n == 0x205f ||
    n == 0x3000

/-- A text without white space at both ends. -/
def trimSpace (cs : List Char) : List Char :=
  ((cs.dropWhile isSpace).reverse.dropWhile isSpace).reverse

/-- Whether a text holds two low lines in a row. -/
def hasDoubleUnderscore : List Char → Bool
  | '_' :: '_' :: _ => true
  | _ :: cs => hasDoubleUnderscore cs
  | [] => false

/-- A text without its low lines, each of which must stand between two other characters. -/
def stripUnderscores? (cs : List Char) : Option (List Char) :=
  if cs.head? == some '_' || cs.getLast? == some '_' || hasDoubleUnderscore cs then none
  else some (cs.filter (· != '_'))

/-- A text without a point that zeros follow, and nothing else. -/
def dropZeroFraction (cs : List Char) : List Char :=
  let fraction := (cs.dropWhile (· != '.')).drop 1
  if !fraction.isEmpty && fraction.all (· == '0') then cs.takeWhile (· != '.') else cs

/-- What a text comes to that should be a whole number. -/
inductive Numeral
  | whole (n : Int)
  /-- It has more than `maxDigits` digits, a sign counted as one of them. -/
  | tooLong
  | malformed
  deriving DecidableEq, Repr

/-- The number of digits behind an optional minus sign. A zero at their start stands alone. -/
def plainNumeral (cs : List Char) : Numeral :=
  let negative := cs.head? == some '-'
  let unsigned := if negative then cs.drop 1 else cs
  match unsigned with
  | '0' :: rest => if rest.isEmpty then .whole 0 else .malformed
  | _ =>
    let digits := unsigned.takeWhile Char.isDigit
    if digits.isEmpty then .malformed
    else if maxDigits < digits.length + (if negative then 1 else 0) then .tooLong
    else if digits.length = unsigned.length then .whole (signed negative (digitsValue digits))
    else .malformed

/-- A number without the zeros before its first other digit, its sign, or its point; low lines
between the zeros are dropped with them. The last character remains in any case, and so does the
one before a point. The first argument is the character before the text. -/
def dropZeros? (last : Char) : List Char → Option (List Char)
  | [] => some [last]
  | c :: cs =>
    if c == '0' || c == '_' then dropZeros? c cs
    else if c.isDigit || c == '-' then some (c :: cs)
    else if c == '.' then some (last :: c :: cs)
    else none

/-- A number without leading zeros. It starts with a digit or a minus sign. -/
def dropLeadingZeros? : List Char → Option (List Char)
  | [] => none
  | c :: cs =>
    if c == '0' then dropZeros? c cs
    else if c.isDigit || c == '-' then some (c :: cs)
    else none

/-- A number without blanks around it, plus sign, leading zeros, a fraction of zeros, and the low
lines that group its digits. -/
def normalNumeral? (cs : List Char) : Option (List Char) :=
  let cs := trimSpace cs
  let unsigned :=
    if cs.head? == some '+' then
      if cs[1]? == some '-' then none else some (cs.drop 1)
    else some cs
  (unsigned.bind dropLeadingZeros?).map fun cs =>
    let cs := dropZeroFraction cs
    (stripUnderscores? cs).getD cs

/-- The whole number that a text names, in its plain form or by way of the normal one. -/
def wholeOfText (cs : List Char) : Numeral :=
  match plainNumeral cs, normalNumeral? cs with
  | .malformed, some normal => plainNumeral normal
  | numeral, _ => numeral

/-- The number that an unsigned text without low lines names. -/
def unsignedFloat? (negative : Bool) (cs : List Char) : Option Binary64 :=
  let word := cs.map Char.toLower
  if word == "inf".toList || word == "infinity".toList then some (.infinite negative)
  else if word == "nan".toList then some .nan
  else
    let whole := cs.takeWhile Char.isDigit
    let rest := cs.dropWhile Char.isDigit
    let (fraction, rest) := match rest with
      | '.' :: rest => (rest.takeWhile Char.isDigit, rest.dropWhile Char.isDigit)
      | rest => ([], rest)
    if whole.isEmpty && fraction.isEmpty then none
    else
      match rest with
      | [] => some (.ofParts negative whole fraction 0)
      | mark :: rest =>
        let (negativeExponent, digits) := takeSign rest
        if (mark == 'e' || mark == 'E') && !digits.isEmpty && digits.all Char.isDigit then
          let e : Int := digitsValue digits
          some (.ofParts negative whole fraction (if negativeExponent then -e else e))
        else none

/-- The number that a text without low lines names. -/
def plainFloat? (cs : List Char) : Option Binary64 :=
  let (negative, rest) := takeSign cs
  unsignedFloat? negative rest

/-- The number that a text names. Blanks may stand around it, or low lines may group its
characters. -/
def floatOfText? (cs : List Char) : Option Binary64 :=
  (plainFloat? (trimSpace cs)).orElse fun _ => (stripUnderscores? cs).bind plainFloat?

end RequestSuite.Shape
