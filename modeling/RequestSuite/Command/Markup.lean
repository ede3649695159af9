/-
A console that interprets style tags.

* `Piece`, `pieces`: a text taken apart into plain text and tags;
* `plainText?`: a text with all tags hidden, unless it closes a tag that is not open;
* `terminal`: the console.

A tag is a small letter or one of `#/@` after an opening bracket, and whatever follows up to the
closing bracket, no opening bracket among it. A backslash before a tag makes it text. A tag that
starts with a slash closes the latest open tag, or the latest one of a name, and there has to be
one.
-/
import RequestSuite.Command.Message

namespace RequestSuite.Command

open Text (lower trim)

/-- A piece of a text. -/
inductive Piece
  | text (cs : List Char)
  | tag (cs : List Char)
  deriving DecidableEq, Repr

/-- The characters that start a tag after its bracket. -/
def startsTag (c : Char) : Bool := c.isLower || c == '#' || c == '/' || c == '@'

/-- The tag whose opening bracket has just been read, and the rest. -/
def takeTag? (cs : List Char) : Option (List Char × List Char) :=
  let inside (c : Char) := c != '[' && c != ']'
  if (cs.head?.map startsTag).getD false then
    match cs.dropWhile inside with
    | ']' :: rest => some (cs.takeWhile inside, rest)
    | _ => none
  else none

/-- Plain text. A backslash before a bracket that starts no tag is not shown. -/
def unescapeBrackets : List Char → List Char
  | '\\' :: '[' :: cs => '[' :: unescapeBrackets cs
  | c :: cs => c :: unescapeBrackets cs
  | [] => []

/-- What stands for some backslashes and a tag: every two backslashes are one, and one that is left
over makes the tag text. -/
def escapedTag (backslashes : Nat) (tag : List Char) : List Piece :=
  let shown := Piece.text (List.replicate (backslashes / 2) '\\')
  if backslashes % 2 = 1 then [shown, .text ('[' :: tag ++ [']'])] else [shown, .tag tag]

/-- The pieces of a text, `acc` being the plain text before it, read backwards. -/
def piecesFrom : (steps : Nat) → (acc : List Char) → List Char → List Piece
  | 0, acc, _ => [.text (unescapeBrackets acc.reverse)]
  | _, acc, [] => [.text (unescapeBrackets acc.reverse)]
  | steps + 1, acc, c :: cs =>
    match if c = '[' then takeTag? cs else none with
    | some (tag, rest) =>
      let before := acc.dropWhile (· == '\\')
      .text (unescapeBrackets before.reverse) ::
        (escapedTag (acc.length - before.length) tag ++ piecesFrom steps [] rest)
    | none => piecesFrom steps (c :: acc) cs

/-- The pieces of a text. -/
def pieces (text : List Char) : List Piece := piecesFrom text.length [] text

/-- The short names of styles. -/
def shortStyles : List (String × String) :=
  [("b", "bold"), ("d", "dim"), ("i", "italic"), ("u", "underline"), ("uu", "underline2"),
    ("r", "reverse"), ("c", "conceal"), ("s", "strike"), ("o", "overline")]

/-- The style of a name. -/
def styleName (cs : List Char) : String :=
  let name := String.ofList (lower (trim cs))
  (shortStyles.lookup name).getD name

/-- The open tags after a closing one. -/
def closeTag? (name : List Char) (opened : List String) : Option (List String) :=
  if (trim name).isEmpty then if opened.isEmpty then none else some (opened.drop 1)
  else if opened.contains (styleName name) then some (opened.erase (styleName name))
  else none

/-- What is shown of some pieces, given the tags that are open, the latest first. -/
def shown? (opened : List String) : List Piece → Option (List Char)
  | [] => some []
  | .text cs :: rest => (shown? opened rest).map (cs ++ ·)
  | .tag ('/' :: tag) :: rest =>
    (closeTag? (tag.takeWhile (· != '=')) opened).bind fun opened => shown? opened rest
  | .tag tag :: rest => shown? (styleName (tag.takeWhile (· != '=')) :: opened) rest

/-- Characters that move the cursor and are not shown. -/
def isHidden (c : Char) : Bool := [7, 8, 11, 12, 13].contains c.toNat

/-- A text with its tabs filled up to every eighth column. -/
def expandTabs (column : Nat) : List Char → List Char
  | [] => []
  | '\t' :: cs =>
    List.replicate (8 - column % 8) ' ' ++ expandTabs (column + (8 - column % 8)) cs
  | '\n' :: cs => '\n' :: expandTabs 0 cs
  | c :: cs => c :: expandTabs (column + 1) cs

/-- What is shown of a text, unless it closes a tag that is not open. -/
def plainText? (text : List Char) : Option (List Char) := shown? [] (pieces text)

/-- A console without colors, on which lines have no end. -/
def terminal : Console := fun text =>
  (plainText? text.toList).map fun cs =>
    String.ofList (expandTabs 0 (cs.filter fun c => !isHidden c))

end RequestSuite.Command
