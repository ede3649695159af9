/-
Places in a YAML text.

* `isBreak`, `endsWord`: the characters that end a line or a word;
* `Cursor`: the text left to read, with its line, column and offset;
* `Cursor.next`, `Cursor.forward`, `Cursor.span`: reading characters;
* `Cursor.lineBreak?`: reading a line break;
* `Cursor.atMark`: whether a document starts or ends here.
-/
namespace RequestSuite.Yaml

/-- The characters that end a line. -/
def isBreak (c : Char) : Bool :=
  c == '\n' || c == '\r' || c == '\x85' || c == '\u2028' || c == '\u2029'

/-- The characters that separate words on a line. -/
def isGap (c : Char) : Bool := c == ' ' || c == '\t'

/-- Whether a word ends before a text. -/
def endsWord : List Char → Bool
  | [] => true
  | c :: _ => isGap c || isBreak c

/-- A place in a text. Lines and columns are counted from zero. -/
structure Cursor where
  rest : List Char
  line : Nat := 0
  column : Nat := 0
  offset : Nat := 0
  deriving DecidableEq, Repr

namespace Cursor

/-- The place after the next character. A byte order mark takes no column. -/
def next (here : Cursor) : Cursor :=
  match here.rest with
  | [] => here
  | c :: rest =>
    if isBreak c && !(c == '\r' && rest.head? == some '\n') then
      ⟨rest, here.line + 1, 0, here.offset + 1⟩
    else ⟨rest, here.line, if c = '\ufeff' then here.column else here.column + 1, here.offset + 1⟩

/-- The place some characters later. -/
def forward : Nat → Cursor → Cursor
  | 0, here => here
  | n + 1, here => forward n here.next

/-- The longest run of characters of a class, and the place after it. -/
def span (p : Char → Bool) (here : Cursor) : List Char × Cursor :=
  let run := here.rest.takeWhile p
  (run, here.forward run.length)

/-- What a line break stands for, and the place after it. All breaks but the line and paragraph
separators stand for a line feed. -/
def lineBreak? (here : Cursor) : Option (Char × Cursor) :=
  match here.rest with
  | '\r' :: '\n' :: _ => some ('\n', here.forward 2)
  | c :: _ =>
    if isBreak c then some (if c = '\u2028' || c = '\u2029' then c else '\n', here.next) else none
  | [] => none

/-- Whether a text starts with the mark of a document's start. -/
def startsDocument : List Char → Bool
  | '-' :: '-' :: '-' :: rest => endsWord rest
  | _ => false

/-- Whether a text starts with the mark of a document's end. -/
def endsDocument : List Char → Bool
  | '.' :: '.' :: '.' :: rest => endsWord rest
  | _ => false

/-- Whether a document starts or ends here. -/
def atMark (here : Cursor) : Bool := startsDocument here.rest || endsDocument here.rest

end Cursor

end RequestSuite.Yaml
