/-
The shortest decimal text of a number.

* `Digits`: a decimal number as its digits and a power of ten;
* `shortest`: the fewest digits that read back, and of those the nearest;
* `NumberStyle`, `NumberStyle.text`: how the digits are laid out.
-/
import RequestSuite.Decimal.Binary64

namespace RequestSuite

/-- The decimal number `digits · 10 ^ scale`. -/
structure Digits where
  digits : Nat
  scale : Int
  deriving DecidableEq, Repr

namespace Binary64

/-- The number of places before the decimal point of a positive quotient: the least `k` with
`num / den < 10 ^ k`. The search starts from the binary logarithm, at most two below it. -/
def places (num den : Nat) : Int :=
  let start := floorLog2 num den * 30103 / 100000
  let below (k : Int) : Bool := num * power 10 (-k) < den * power 10 k
  if below start then start
  else if below (start + 1) then start + 1
  else start + 2

/-- The two neighbours of a quotient on the grid of multiples of `10 ^ scale`, the nearer first. Of
two equally near the even one comes first. -/
def neighbours (num den : Nat) (scale : Int) : List Digits :=
  let n := num * power 10 (-scale)
  let d := den * power 10 scale
  let low := n / d
  let near := roundQuotient n d
  [⟨near, scale⟩, ⟨if near = low then low + 1 else low, scale⟩]

/-- The digits of a positive number `mantissa · 2 ^ exponent`: on the coarsest grid, of one to
seventeen digits, that holds a decimal reading back as the number, the nearer such decimal. The
exact value, which always reads back, stands behind the grids. -/
def shortest (mantissa : Nat) (exponent : Int) : Digits :=
  let num := mantissa * power 2 exponent
  let den := power 2 (-exponent)
  let k := places num den
  let grids := (List.range 17).flatMap fun i => neighbours num den (k - (i + 1 : Nat))
  let reads (d : Digits) : Bool :=
    ofDecimal false d.digits d.scale == .finite false mantissa exponent
  (grids.find? reads).getD
    (if exponent ≥ 0 then ⟨num, 0⟩ else ⟨mantissa * power 5 (-exponent), exponent⟩)

end Binary64

/-- How a number is written. -/
structure NumberStyle where
  /-- The least position of the decimal point, counted from the first digit, that is written out
  in zeros. -/
  leastPoint : Int
  /-- The greatest position of the decimal point that is written out. -/
  greatestPoint : Int
  /-- What follows the digits of a whole number. -/
  wholeEnd : String
  exponentMark : Char
  /-- The least number of digits in an exponent, which always has a sign. -/
  exponentDigits : Nat
  nan : String
  infinity : String
  deriving Repr

/-- Zeros. -/
def zeros (n : Nat) : List Char := List.replicate n '0'

/-- The text of digits that stand before the power of ten `point`, as `0.digits · 10 ^ point`. -/
def NumberStyle.layout (style : NumberStyle) (digits : List Char) (point : Int) : List Char :=
  if point < style.leastPoint || style.greatestPoint < point then
    let e := point - 1
    let digitsOfE := Nat.toDigits 10 e.natAbs
    digits.take 1 ++ (if digits.length ≤ 1 then [] else '.' :: digits.drop 1) ++
      [style.exponentMark, if e < 0 then '-' else '+'] ++
      zeros (style.exponentDigits - digitsOfE.length) ++ digitsOfE
  else if point ≤ 0 then '0' :: '.' :: zeros (-point).toNat ++ digits
  else if digits.length ≤ point.toNat then
    digits ++ zeros (point.toNat - digits.length) ++ style.wholeEnd.toList
  else digits.take point.toNat ++ '.' :: digits.drop point.toNat

/-- The text of a number. -/
def NumberStyle.text (style : NumberStyle) : Binary64 → List Char
  | .nan => style.nan.toList
  | .infinite negative => (if negative then ['-'] else []) ++ style.infinity.toList
  | .finite negative m e =>
    let sign := if negative then ['-'] else []
    if m = 0 then sign ++ '0' :: style.wholeEnd.toList
    else
      let d := Binary64.shortest m e
      let digits := Nat.toDigits 10 d.digits
      let kept := (digits.reverse.dropWhile (· == '0')).reverse
      sign ++ style.layout kept (digits.length + d.scale)

end RequestSuite
