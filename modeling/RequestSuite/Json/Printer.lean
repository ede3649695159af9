/-
Writing JSON.

* `numberStyle`: how numbers are written;
* `quote`: a string between quotes;
* `Json.compact`: a value on one line;
* `Json.pretty`: a value with one item to a line, behind a margin.
-/
import RequestSuite.Decimal.Shortest
import RequestSuite.Json.Value
import RequestSuite.Text.Hex

namespace RequestSuite.Json

open Text (hex)

/-- Numbers have the fewest digits that read back. They are written in full from `0.0001` to below
`10 ^ 16`, whole ones with `.0`, and with an exponent of two digits at least beyond. -/
def numberStyle : NumberStyle where
  leastPoint := -3
  greatestPoint := 16
  wholeEnd := ".0"
  exponentMark := 'e'
  exponentDigits := 2
  nan := "NaN"
  infinity := "Infinity"

/-- A character of a string. Only quotes, backslashes and control characters are escaped. -/
def quoteChar (c : Char) : List Char :=
  if c = '"' then ['\\', '"']
  else if c = '\\' then ['\\', '\\']
  else if c = '\n' then ['\\', 'n']
  else if c = '\r' then ['\\', 'r']
  else if c = '\t' then ['\\', 't']
  else if c = '\x08' then ['\\', 'b']
  else if c = '\x0c' then ['\\', 'f']
  else if c.toNat < 0x20 then '\\' :: 'u' :: hex 4 c.toNat
  else [c]

/-- A string between quotes. -/
def quote (s : String) : List Char := '"' :: s.toList.flatMap quoteChar ++ ['"']

/-- A whole number in decimal. -/
def intText (n : Int) : List Char :=
  (if n < 0 then ['-'] else []) ++ Nat.toDigits 10 n.natAbs

mutual

/-- A value on one line, with a space after each comma and colon. -/
def compact : Json → List Char
  | null => "null".toList
  | bool true => "true".toList
  | bool false => "false".toList
  | int n => intText n
  | float x => numberStyle.text x
  | str s => quote s
  | arr items => '[' :: compactItems items ++ [']']
  | obj fields => '\x7b' :: compactFields fields ++ ['\x7d']

/-- Items with a comma between each two. -/
def compactItems : List Json → List Char
  | [] => []
  | [item] => compact item
  | item :: items => compact item ++ ',' :: ' ' :: compactItems items

/-- Members with a comma between each two. -/
def compactFields : List (String × Json) → List Char
  | [] => []
  | [(key, item)] => quote key ++ ':' :: ' ' :: compact item
  | (key, item) :: fields =>
    quote key ++ ':' :: ' ' :: compact item ++ ',' :: ' ' :: compactFields fields

end

/-- A line break and the spaces before the next line. -/
def newLine (margin : Nat) : List Char := '\n' :: List.replicate margin ' '

mutual

/-- A value with one item to a line, each level two spaces further in, every line but the first
behind a margin. -/
def pretty (margin : Nat) : Json → List Char
  | arr [] => ['[', ']']
  | obj [] => ['\x7b', '\x7d']
  | arr items => '[' :: prettyItems (margin + 2) items ++ newLine margin ++ [']']
  | obj fields => '\x7b' :: prettyFields (margin + 2) fields ++ newLine margin ++ ['\x7d']
  | null => "null".toList
  | bool true => "true".toList
  | bool false => "false".toList
  | int n => intText n
  | float x => numberStyle.text x
  | str s => quote s

/-- Items, each on a line of its own. -/
def prettyItems (margin : Nat) : List Json → List Char
  | [] => []
  | [item] => newLine margin ++ pretty margin item
  | item :: items => newLine margin ++ pretty margin item ++ ',' :: prettyItems margin items

/-- Members, each on a line of its own. -/
def prettyFields (margin : Nat) : List (String × Json) → List Char
  | [] => []
  | [(key, item)] => newLine margin ++ quote key ++ ':' :: ' ' :: pretty margin item
  | (key, item) :: fields =>
    newLine margin ++ quote key ++ ':' :: ' ' :: pretty margin item ++
      ',' :: prettyFields margin fields

end

end RequestSuite.Json
