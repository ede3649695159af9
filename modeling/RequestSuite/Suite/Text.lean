/-
Pieces of the generated scripts.

* `literal`: the string literal of a text;
* `indentation`, `indentBlock`: lines moved to a level;
* `objectLiteral`: an object with one member to a line;
* `joinedLines`: the text of some lines.
-/
import RequestSuite.Collection.Basic
import RequestSuite.Script.Literal
import RequestSuite.Text.Lines

namespace RequestSuite.Suite

open Text (splitLines allBlank)

/-- The string literal of a text. -/
def literal (text : String) : String := String.ofList (Script.quote text.toList)

/-- The spaces before a line of some level. -/
def indentation (level : Nat) : String := String.ofList (List.replicate (2 * level) ' ')

/-- Lines with a line feed between each two. -/
def joinedLines (lines : List String) : String := String.intercalate "\n" lines

/-- The lines of a text moved to a level, blank ones left empty. -/
def indentBlock (level : Nat) (text : List Char) : String :=
  joinedLines ((splitLines text).map fun line =>
    if allBlank line then "" else indentation level ++ String.ofList line)

/-- An object literal with one member to a line, its closing brace at a level. -/
def objectLiteral (level : Nat) (members : List (String × String)) : String :=
  if members.isEmpty then "\x7b\x7d"
  else
    let member (m : String × String) : String :=
      indentation (level + 1) ++ literal m.1 ++ ": " ++ literal m.2 ++ ","
    "\x7b\n" ++ joinedLines (members.map member) ++ "\n" ++ indentation level ++ "\x7d"

end RequestSuite.Suite
