/-
Binary floating-point numbers of 64 bits, in exact integer arithmetic.

* `power`: the two sides of a power with a whole exponent;
* `Binary64`: not a number, an infinity, or a sign, a mantissa and a power of two;
* `Binary64.ofRatio`, `Binary64.ofDyadic`, `Binary64.ofDecimal`: the number nearest to an exact
  value, a tie going to the even mantissa;
* `Binary64.scale`: a number times a power of two;
* `Binary64.isNaN`, `Binary64.lt`: values that are no number, and the order of numbers;
* `roundQuotient_exact`: a quotient without remainder is not rounded.
-/
namespace RequestSuite

/-- A power whose exponent counts as zero if it is negative. A number times `base ^ e` is it times
`power base e`, divided by `power base (-e)`. -/
def power (base : Nat) (e : Int) : Nat := Nat.pow base e.toNat

/-- A number of 64 bits. A finite one is `± mantissa · 2 ^ exponent` with a mantissa below `2 ^ 53`
and the least exponent, from -1074 on, that allows it. -/
inductive Binary64
  | nan
  | infinite (negative : Bool)
  | finite (negative : Bool) (mantissa : Nat) (exponent : Int)
  deriving DecidableEq, Repr

/-- A quotient rounded to the nearest natural number, a tie going to the even one. -/
def roundQuotient (num den : Nat) : Nat :=
  let q := num / den
  let twice := 2 * (num % den)
  if den < twice || (twice == den && q % 2 == 1) then q + 1 else q

theorem roundQuotient_exact {n den : Nat} (h : 0 < den) : roundQuotient (n * den) den = n := by
  have h1 : n * den / den = n := Nat.mul_div_cancel n h
  have h2 : n * den % den = 0 := Nat.mul_mod_left n den
  have h3 : ¬ (0 = den) := by omega
  simp [roundQuotient, h1, h2, h3]

namespace Binary64

/-- The exponent of the least numbers. -/
def leastExponent : Int := -1074

/-- Zero of either sign. -/
def zero (negative : Bool) : Binary64 := .finite negative 0 leastExponent

/-- A finite number, or an infinity if the exponent is beyond the range. -/
def ofMantissa (negative : Bool) (mantissa : Nat) (exponent : Int) : Binary64 :=
  if 971 < exponent then .infinite negative else .finite negative mantissa exponent

/-- The greatest `e` with `2 ^ e ≤ num / den`, for a positive quotient. -/
def floorLog2 (num den : Nat) : Int :=
  let e : Int := num.log2 - den.log2
  if den * power 2 e ≤ num * power 2 (-e) then e else e - 1

/-- The number nearest to a quotient. -/
def ofRatio (negative : Bool) (num den : Nat) : Binary64 :=
  if num = 0 then zero negative
  else
    let e := max (floorLog2 num den - 52) leastExponent
    let m := roundQuotient (num * power 2 (-e)) (den * power 2 e)
    if m = power 2 53 then ofMantissa negative (power 2 52) (e + 1) else ofMantissa negative m e

/-- The number nearest to `m · 2 ^ e`. -/
def ofDyadic (negative : Bool) (m : Nat) (e : Int) : Binary64 :=
  ofRatio negative (m * power 2 e) (power 2 (-e))

/-- The number nearest to `digits · 10 ^ scale`. Values far out of range are not computed: they
are infinite or zero. -/
def ofDecimal (negative : Bool) (digits : Nat) (scale : Int) : Binary64 :=
  let size : Int := (Nat.toDigits 10 digits).length
  if digits = 0 then zero negative
  else if 310 < size + scale then .infinite negative
  else if size + scale < -330 then zero negative
  else ofRatio negative (digits * power 10 scale) (power 10 (-scale))

/-- A number times `2 ^ k`. -/
def scale (k : Nat) : Binary64 → Binary64
  | .finite negative m e => ofDyadic negative m (e + k)
  | x => x

/-- A finite number as a multiple of `2 ^ e`, for an exponent `e` no greater than its own. -/
def unitsOf (e : Int) (negative : Bool) (mantissa : Nat) (exponent : Int) : Int :=
  let n : Int := (mantissa * power 2 (exponent - e) : Nat)
  if negative then -n else n

/-- Whether a value is not a number. -/
def isNaN : Binary64 → Bool
  | .nan => true
  | _ => false

/-- The order of numbers. A value that is not a number is neither less nor greater. -/
def lt : Binary64 → Binary64 → Bool
  | .nan, _ | _, .nan => false
  | .infinite n, .infinite n' => n && !n'
  | .infinite n, .finite .. => n
  | .finite .., .infinite n => !n
  | .finite n m e, .finite n' m' e' =>
    unitsOf (min e e') n m e < unitsOf (min e e') n' m' e'

/-- The number of an integer. -/
def ofInt (n : Int) : Binary64 := ofRatio (n < 0) n.natAbs 1

/-- Whether a number is zero, of either sign. -/
def isZero : Binary64 → Bool
  | .finite _ 0 _ => true
  | _ => false

end Binary64

end RequestSuite
