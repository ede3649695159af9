/-
The quoted form in which error messages show a path.

* `isPrintable`: the characters shown as they are;
* `quoted`: the text between quotes, with everything else escaped.
-/
import RequestSuite.Text.Hex
import RequestSuite.Text.PrintTable
import RequestSuite.Text.WordTable

namespace RequestSuite.Text

/-- A character with a visible form, or the space. -/
def isPrintable (c : Char) : Bool :=
  if c.toNat < 0x7f then 0x20 ≤ c.toNat else !inRanges unprintableRanges c.toNat

/-- One character between quotes of the kind `quote`. The escape of a character without a visible
form has two, four or eight hexadecimal digits, the fewest that hold it. -/
def quotedChar (quote c : Char) : List Char :=
  if c = quote || c = '\\' then ['\\', c]
  else if c = '\t' then ['\\', 't']
  else if c = '\n' then ['\\', 'n']
  else if c = '\r' then ['\\', 'r']
  else if isPrintable c then [c]
  else if c.toNat < 0x100 then '\\' :: 'x' :: hex 2 c.toNat
  else if c.toNat < 0x10000 then '\\' :: 'u' :: hex 4 c.toNat
  else '\\' :: 'U' :: hex 8 c.toNat

/-- A text between single quotes, or between double quotes if it holds single quotes and no double
ones. -/
def quoted (text : String) : String :=
  let cs := text.toList
  let quote := if cs.contains '\'' && !cs.contains '"' then '"' else '\''
  String.ofList (quote :: cs.flatMap (quotedChar quote) ++ [quote])

end RequestSuite.Text
