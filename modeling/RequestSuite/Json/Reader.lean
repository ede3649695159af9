/-
Reading JSON.

* `stringBody`: the rest of a string after its opening quote;
* `number`: a number;
* `value`, `elements`, `members`: a value at the start of a text, within a bound on the number of
  steps;
* `Json.read`: a whole text. Of two steps in a row one reads at least one character, so a bound of
  one more than twice the length of the text is never reached.

Numbers with a point or an exponent are read as the nearest binary number, and the words `NaN`,
`Infinity` and `-Infinity` are read as what they name. A surrogate that belongs to no pair is kept.
A repeated key keeps its first place and takes its last value.
-/
import RequestSuite.Decimal.Reader
import RequestSuite.Json.Fault
import RequestSuite.Json.Value
import RequestSuite.Text.Hex
import RequestSuite.Text.Points

namespace RequestSuite.Json

open Text (hexValue? ofPoint)

/-- The white space of JSON. -/
def isSpace (c : Char) : Bool := c == ' ' || c == '\t' || c == '\n' || c == '\r'

/-- A text without the white space at its start. -/
def skipSpace (cs : List Char) : List Char := cs.dropWhile isSpace

/-- What is read at the start of a text, and the rest, or what is wrong there. -/
abbrev Step (α : Type) := Except Fault (α × List Char)

/-- The character of an escape of one letter. -/
def simpleEscape? : Char → Option Char
  | '"' => some '"'
  | '\\' => some '\\'
  | '/' => some '/'
  | 'b' => some '\x08'
  | 'f' => some '\x0c'
  | 'n' => some '\n'
  | 'r' => some '\r'
  | 't' => some '\t'
  | _ => none

/-- The number of four hexadecimal digits. -/
def hex4? (a b c d : Char) : Option Nat := do
  let a ← hexValue? a
  let b ← hexValue? b
  let c ← hexValue? c
  let d ← hexValue? d
  return ((a * 16 + b) * 16 + c) * 16 + d

/-- The code point of two surrogates. -/
def ofSurrogates (high low : Nat) : Nat := 0x10000 + (high - 0xd800) * 0x400 + (low - 0xdc00)

/-- A string read so far, backwards, and a code point after it. -/
def putPoint (n : Nat) (acc : List Char) : List Char := (ofPoint n).reverse ++ acc

/-- A string read so far, backwards, with the high surrogate that waits for its partner put to the
characters. -/
def settle (acc : List Char) : Option Nat → List Char
  | some high => putPoint high acc
  | none => acc

/-- The rest of a string after its opening quote. At that quote `opened` characters were left. So
far the characters `acc` have been read, backwards, and after them perhaps a high surrogate. A
number in an escape must have something after it. -/
def stringBody (opened : Nat) (high : Option Nat) (acc : List Char) : List Char → Step String
  | [] => .error ⟨.stringUnclosed, opened⟩
  | '\\' :: 'u' :: a :: b :: c :: d :: cs =>
    if cs.isEmpty then .error ⟨.badUnicodeEscape, cs.length + 5⟩
    else
      match hex4? a b c d with
      | none => .error ⟨.badUnicodeEscape, cs.length + 5⟩
      | some n =>
        if 0xd800 ≤ n && n ≤ 0xdbff then stringBody opened (some n) (settle acc high) cs
        else
          match high with
          | some h =>
            if 0xdc00 ≤ n && n ≤ 0xdfff then
              stringBody opened none (putPoint (ofSurrogates h n) acc) cs
            else stringBody opened none (putPoint n (putPoint h acc)) cs
          | none => stringBody opened none (putPoint n acc) cs
  | '\\' :: c :: cs =>
    if c = 'u' then .error ⟨.badUnicodeEscape, cs.length + 1⟩
    else
      match simpleEscape? c with
      | some e => stringBody opened none (e :: settle acc high) cs
      | none => .error ⟨.badEscape, cs.length + 2⟩
  | c :: cs =>
    if c = '"' then .ok (String.ofList (settle acc high).reverse, cs)
    else if c = '\\' then .error ⟨.stringUnclosed, opened⟩
    else if c.toNat < 0x20 then .error ⟨.controlCharacter, cs.length + 1⟩
    else stringBody opened none (c :: settle acc high) cs

/-- The digits at the start of a text, and the rest. -/
def takeDigits (cs : List Char) : List Char × List Char :=
  (cs.takeWhile Char.isDigit, cs.dropWhile Char.isDigit)

/-- The digits after a point, and the rest; a point without digits is not read. -/
def takeFraction : List Char → List Char × List Char
  | '.' :: cs =>
    let (digits, rest) := takeDigits cs
    if digits.isEmpty then ([], '.' :: cs) else (digits, rest)
  | cs => ([], cs)

/-- The exponent at the start of a text, and the rest; a mark without digits is not read. -/
def takeExponent (cs : List Char) : Option Int × List Char :=
  match cs with
  | mark :: rest =>
    if mark = 'e' || mark = 'E' then
      let negative := rest.head? = some '-'
      let unsigned := if negative || rest.head? = some '+' then rest.drop 1 else rest
      let (digits, after) := takeDigits unsigned
      if digits.isEmpty then (none, cs)
      else
        let n : Int := digitsValue digits
        (some (if negative then -n else n), after)
    else (none, cs)
  | [] => (none, cs)

/-- A number after its sign. At the sign, or the first digit, `opened` characters were left. -/
def number (opened : Nat) (negative : Bool) (cs : List Char) : Step Json :=
  let (whole, rest) := match cs with
    | '0' :: rest => (['0'], rest)
    | _ => takeDigits cs
  if whole.isEmpty then .error ⟨.valueExpected, opened⟩
  else
    let (fraction, rest) := takeFraction rest
    let (exponent?, rest) := takeExponent rest
    if fraction.isEmpty && exponent?.isNone then
      if maxDigits < whole.length then .error ⟨.tooManyDigits whole.length, opened⟩
      else
        let n : Int := digitsValue whole
        .ok (.int (if negative then -n else n), rest)
    else .ok (.float (.ofParts negative whole fraction (exponent?.getD 0)), rest)

mutual

/-- A value at the start of a text. -/
def value : (steps : Nat) → List Char → Step Json
  | 0, cs => .error ⟨.valueExpected, cs.length⟩
  | steps + 1, cs =>
    match cs with
    | '"' :: rest => (stringBody cs.length none [] rest).map fun (s, rest) => (.str s, rest)
    | '{' :: rest =>
      match skipSpace rest with
      | '}' :: rest => .ok (.obj [], rest)
      | rest => members steps [] rest
    | '[' :: rest =>
      match skipSpace rest with
      | ']' :: rest => .ok (.arr [], rest)
      | rest => elements steps [] rest
    | 'n' :: 'u' :: 'l' :: 'l' :: rest => .ok (.null, rest)
    | 't' :: 'r' :: 'u' :: 'e' :: rest => .ok (.bool true, rest)
    | 'f' :: 'a' :: 'l' :: 's' :: 'e' :: rest => .ok (.bool false, rest)
    | 'N' :: 'a' :: 'N' :: rest => .ok (.float .nan, rest)
    | 'I' :: 'n' :: 'f' :: 'i' :: 'n' :: 'i' :: 't' :: 'y' :: rest =>
      .ok (.float (.infinite false), rest)
    | '-' :: 'I' :: 'n' :: 'f' :: 'i' :: 'n' :: 'i' :: 't' :: 'y' :: rest =>
      .ok (.float (.infinite true), rest)
    | '-' :: rest => number cs.length true rest
    | _ => number cs.length false cs

/-- The items of a list from an item on, to its closing bracket. -/
def elements : (steps : Nat) → (acc : List Json) → List Char → Step Json
  | 0, _, cs => .error ⟨.valueExpected, cs.length⟩
  | steps + 1, acc, cs =>
    match value steps cs with
    | .error fault => .error fault
    | .ok (item, rest) =>
      match skipSpace rest with
      | ']' :: rest => .ok (.arr (item :: acc).reverse, rest)
      | ',' :: rest => elements steps (item :: acc) (skipSpace rest)
      | rest => .error ⟨.commaExpected, rest.length⟩

/-- The members of an object from a member on, to its closing brace. -/
def members : (steps : Nat) → (acc : List (String × Json)) → List Char → Step Json
  | 0, _, cs => .error ⟨.valueExpected, cs.length⟩
  | steps + 1, acc, cs =>
    match cs with
    | '"' :: rest =>
      match stringBody cs.length none [] rest with
      | .error fault => .error fault
      | .ok (key, rest) =>
        match skipSpace rest with
        | ':' :: rest =>
          match value steps (skipSpace rest) with
          | .error fault => .error fault
          | .ok (item, rest) =>
            match skipSpace rest with
            | '}' :: rest => .ok (.obj (Keyed.ofList ((key, item) :: acc).reverse), rest)
            | ',' :: rest => members steps ((key, item) :: acc) (skipSpace rest)
            | rest => .error ⟨.commaExpected, rest.length⟩
        | rest => .error ⟨.colonExpected, rest.length⟩
    | _ => .error ⟨.nameExpected, cs.length⟩

end

/-- The value of a whole text, white space around it allowed. -/
def read (text : List Char) : Except Fault Json :=
  if text.head? = some '\ufeff' then .error ⟨.byteOrderMark, text.length⟩
  else
    match value (2 * text.length + 1) (skipSpace text) with
    | .error fault => .error fault
    | .ok (result, rest) =>
      match skipSpace rest with
      | [] => .ok result
      | rest => .error ⟨.extraData, rest.length⟩

end RequestSuite.Json
