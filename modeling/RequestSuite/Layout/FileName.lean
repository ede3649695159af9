/-
File names made from the names of requests and groups.

* `splitsBefore`, `spaced`: where a capital letter starts a word inside a name;
* `words`: the words of a name in lower case;
* `hyphenate`: the words with hyphens between them;
* `importPath`: the way from a directory up to a file at the root.
-/
import RequestSuite.Text.Fields
import RequestSuite.Text.Lower
import RequestSuite.Text.Word

namespace RequestSuite.Layout

open Text (fields isAlphanumeric lower)

/-- Whether a capital starts a word: after a small letter or a digit, and after another capital if
a small letter follows. -/
def splitsBefore (last : Option Char) (c : Char) (next : Option Char) : Bool :=
  match last with
  | some l =>
    c.isUpper && (l.isLower || l.isDigit || (l.isUpper && (next.map Char.isLower).getD false))
  | none => false

/-- A name that follows `last`, with a hyphen before each capital that starts a word. -/
def spacedFrom (last : Option Char) : List Char → List Char
  | [] => []
  | c :: cs =>
    if splitsBefore last c cs.head? then '-' :: c :: spacedFrom (some c) cs
    else c :: spacedFrom (some c) cs

/-- A name with a hyphen before each capital that starts a word. -/
def spaced (name : List Char) : List Char := spacedFrom none name

/-- The words of a name: its runs of letters and numbers, in lower case. -/
def words (name : List Char) : List (List Char) :=
  (fields (fun c => !isAlphanumeric c) (lower (spaced name))).filter fun word => !word.isEmpty

/-- The words of a name with hyphens between them, or the default for a name without words. -/
def hyphenate (name default : List Char) : List Char :=
  match words name with
  | [] => default
  | ws => List.intercalate ['-'] ws

/-- The path of a file at the root, as seen from a directory `depth` levels below it. -/
def importPath (depth : Nat) (file : List Char) : List Char :=
  if depth = 0 then "./".toList ++ file
  else (List.replicate depth "../".toList).flatten ++ file

end RequestSuite.Layout
