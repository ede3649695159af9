/-
The texts of scalars.

* `plainText`: a scalar without quotes, over as many lines as belong to it;
* `quotedText`: a scalar in single or double quotes;
* `blockText`: a scalar behind `|` or `>`.

Between two lines of a plain or quoted scalar a single line break is read as a space, and of more
breaks all but the first are kept.
-/
import RequestSuite.Text.Hex
import RequestSuite.Yaml.Cursor
import RequestSuite.Yaml.Token

namespace RequestSuite.Yaml

open Text (hexValue?)

/-- A line break and the breaks of the blank lines after it, as they count inside a scalar. -/
def foldedBreak (first : Char) (others : List Char) : List Char :=
  (if first != '\n' then [first] else if others.isEmpty then [' '] else []) ++ others

/-! Plain scalars -/

/-- The characters that end a plain scalar inside a flow list or map. -/
def flowEnds : List Char := [',', '?', '[', ']', '\x7b', '\x7d']

/-- The characters that end a plain scalar after a colon inside a flow list or map. -/
def flowValueEnds : List Char := [',', '[', ']', '\x7b', '\x7d']

/-- Whether a plain scalar ends before a text. -/
def endsPlain (flow : Bool) : List Char → Bool
  | [] => true
  | c :: rest =>
    endsWord [c] || (flow && flowEnds.contains c) ||
      (c == ':' && (endsWord rest || (flow && (rest.head?.map flowValueEnds.contains).getD false)))

/-- The number of characters up to the end of a plain scalar or the next white space. -/
def plainLength (flow : Bool) : List Char → Nat
  | [] => 0
  | c :: rest => if endsPlain flow (c :: rest) then 0 else plainLength flow rest + 1

/-- The breaks of blank lines, and the place after the spaces that follow them, unless a document
starts or ends there. -/
def blankLines : (steps : Nat) → (acc : List Char) → Cursor → Option (List Char) × Cursor
  | 0, acc, here => (some acc.reverse, here)
  | steps + 1, acc, here =>
    if here.rest.head? = some ' ' then blankLines steps acc here.next
    else
      match here.lineBreak? with
      | some (b, here) => if here.atMark then (none, here) else blankLines steps (b :: acc) here
      | none => (some acc.reverse, here)

/-- What stands between two words of a plain scalar. -/
structure PlainGap where
  /-- What is read for it; nothing where the scalar has to end. -/
  text : List Char
  /-- Whether a line ends in it. -/
  breaks : Bool
  after : Cursor

/-- The gap at a place. -/
def plainGap (here : Cursor) : PlainGap :=
  let (spaces, here) := here.span (· == ' ')
  match here.lineBreak? with
  | none => ⟨spaces, false, here⟩
  | some (first, here) =>
    if here.atMark then ⟨[], true, here⟩
    else
      match blankLines here.rest.length [] here with
      | (none, here) => ⟨[], true, here⟩
      | (some others, here) => ⟨foldedBreak first others, true, here⟩

/-- The text of a plain scalar, the place after it, and whether a line has ended last. Its further
lines start at column `indent` or later, unless it stands inside a flow list or map. -/
def plainFrom (flow : Bool) (indent : Nat) :
    (steps : Nat) → (acc gap : List Char) → (broken : Bool) → Cursor → List Char × Bool × Cursor
  | 0, acc, _, broken, here => (acc, broken, here)
  | steps + 1, acc, gap, broken, here =>
    let n := plainLength flow here.rest
    if here.rest.head? = some '#' || n = 0 then (acc, broken, here)
    else
      let acc := acc ++ gap ++ here.rest.take n
      let ⟨gap, broken, here⟩ := plainGap (here.forward n)
      if gap.isEmpty || here.rest.head? = some '#' || (!flow && here.column < indent) then
        (acc, broken, here)
      else plainFrom flow indent steps acc gap broken here

/-- The plain scalar at a place. -/
def plainText (flow : Bool) (indent : Nat) (here : Cursor) : List Char × Bool × Cursor :=
  plainFrom flow indent here.rest.length [] [] false here

/-! Quoted scalars -/

/-- What a character stands for after a backslash. -/
def escapes : List (Char × Char) :=
  [('0', '\x00'), ('a', '\x07'), ('b', '\x08'), ('t', '\t'), ('\t', '\t'), ('n', '\n'),
    ('v', '\x0b'), ('f', '\x0c'), ('r', '\r'), ('e', '\x1b'), (' ', ' '), ('"', '"'),
    ('\\', '\\'), ('/', '/'), ('N', '\x85'), ('_', '\xa0'), ('L', '\u2028'), ('P', '\u2029')]

/-- The number of digits of a numeric escape. -/
def escapeWidth? (c : Char) : Option Nat :=
  if c = 'x' then some 2 else if c = 'u' then some 4 else if c = 'U' then some 8 else none

/-- The number that hexadecimal digits name. -/
def ofHex? (digits : List Char) : Option Nat :=
  (digits.mapM hexValue?).map fun values => values.foldl (fun n v => n * 16 + v) 0

/-- The character with a code. Half a surrogate pair is no character, and is read as U+FFFD. -/
def ofCode (n : Nat) : Except ScalarFault Char :=
  if 0x7fffffff < n then .error .codeTooLarge
  else if 0x10ffff < n then .error .noCharacter
  else .ok (if 0xd800 ≤ n && n ≤ 0xdfff then '\ufffd' else Char.ofNat n)

/-- The breaks of blank lines inside quotes, where no document may start or end. -/
def quotedBreaks :
    (steps : Nat) → (acc : List Char) → Cursor → Except Fault (List Char × Cursor)
  | 0, acc, here => .ok (acc.reverse, here)
  | steps + 1, acc, here =>
    if here.atMark then .error .unclosedQuote
    else
      let (_, here) := here.span isGap
      match here.lineBreak? with
      | some (b, here) => quotedBreaks steps (b :: acc) here
      | none => .ok (acc.reverse, here)

/-- What an escape stands for, from the character after the backslash on. -/
def escape (here : Cursor) : Except Fault (List Char × Cursor) :=
  match here.rest with
  | [] => .error .badEscape
  | c :: rest =>
    match escapes.lookup c, escapeWidth? c, here.lineBreak? with
    | some d, _, _ => .ok ([d], here.next)
    | none, some width, _ =>
      match ofHex? (rest.take width) with
      | some n =>
        if rest.length < width then .error .badEscape
        else ((ofCode n).map fun d => ([d], here.forward (width + 1))).mapError .scalar
      | none => .error .badEscape
    | none, none, some (_, here) => quotedBreaks (here.rest.length + 1) [] here
    | none, none, none => .error .badEscape

/-- The characters inside quotes up to white space or a closing quote. -/
def quotedWord (double : Bool) :
    (steps : Nat) → (acc : List Char) → Cursor → Except Fault (List Char × Cursor)
  | 0, acc, here => .ok (acc, here)
  | steps + 1, acc, here =>
    match here.rest with
    | [] => .ok (acc, here)
    | c :: rest =>
      if endsWord [c] then .ok (acc, here)
      else if c = '\'' && !double then
        if rest.head? = some '\'' then quotedWord double steps (acc ++ ['\'']) (here.forward 2)
        else .ok (acc, here)
      else if c = '"' && double then .ok (acc, here)
      else if c = '\\' && double then
        match escape here.next with
        | .ok (text, here) => quotedWord double steps (acc ++ text) here
        | .error fault => .error fault
      else quotedWord double steps (acc ++ [c]) here.next

/-- The white space inside quotes. -/
def quotedGap (here : Cursor) : Except Fault (List Char × Cursor) :=
  let (spaces, here) := here.span isGap
  if here.rest.isEmpty then .error .unclosedQuote
  else
    match here.lineBreak? with
    | none => .ok (spaces, here)
    | some (first, here) =>
      (quotedBreaks (here.rest.length + 1) [] here).map fun (others, here) =>
        (foldedBreak first others, here)

/-- The rest of a quoted scalar. -/
def quotedFrom (double : Bool) :
    (steps : Nat) → (acc : List Char) → Cursor → Except Fault (List Char × Cursor)
  | 0, _, _ => .error .unclosedQuote
  | steps + 1, acc, here => do
    let (acc, here) ← quotedWord double here.rest.length acc here
    if here.rest.head? = some (if double then '"' else '\'') then .ok (acc, here.next)
    else
      let (gap, here) ← quotedGap here
      quotedFrom double steps (acc ++ gap) here

/-- The quoted scalar whose opening quote stands at a place. -/
def quotedText (double : Bool) (here : Cursor) : Except Fault (List Char × Cursor) :=
  quotedFrom double (here.rest.length + 1) [] here.next

/-! Block scalars -/

/-- What becomes of the line breaks at the end of a block scalar: all but one are dropped, or all,
or none. -/
inductive Chomping
  | clip
  | strip
  | keep
  deriving DecidableEq, Repr

/-- What the header of a block scalar says: the chomping, and the indentation if it is given. -/
structure BlockHeader where
  chomping : Chomping := .clip
  indent : Option Nat := none

/-- The chomping that a character stands for. -/
def chomping? (c : Char) : Option Chomping :=
  if c = '+' then some .keep else if c = '-' then some .strip else none

/-- The indentation that a character stands for. -/
def indentOf? (c : Char) : Option Nat :=
  if c.isDigit && c != '0' then some (c.toNat - 48) else none

/-- The header of a block scalar, from the character after `|` or `>` on. -/
def blockHeader (here : Cursor) : BlockHeader × Cursor :=
  match here.rest with
  | [] => ({}, here)
  | c :: rest =>
    let second := rest.head?
    match chomping? c, indentOf? c with
    | some chomping, _ =>
      match second.bind indentOf? with
      | some n => (⟨chomping, some n⟩, here.forward 2)
      | none => (⟨chomping, none⟩, here.next)
    | none, some n =>
      match second.bind chomping? with
      | some chomping => (⟨chomping, some n⟩, here.forward 2)
      | none => (⟨.clip, some n⟩, here.next)
    | none, none => ({}, here)

/-- The place after the rest of a block scalar's first line, which may hold a comment only. -/
def blockFirstLine (here : Cursor) : Except Fault Cursor :=
  if !endsWord here.rest || here.rest.head? = some '\t' then .error .badBlockHeader
  else
    let (_, here) := here.span (· == ' ')
    let here := if here.rest.head? = some '#' then (here.span fun c => !isBreak c).2 else here
    match here.lineBreak? with
    | some (_, here) => .ok here
    | none => if here.rest.isEmpty then .ok here else .error .badBlockHeader

/-- The breaks of the blank lines before a block scalar, its widest indentation so far, and the
place after them. -/
def blockLead : (steps : Nat) → (acc : List Char) → (widest : Nat) → Cursor →
    List Char × Nat × Cursor
  | 0, acc, widest, here => (acc.reverse, widest, here)
  | steps + 1, acc, widest, here =>
    if here.rest.head? = some ' ' then
      blockLead steps acc (max widest here.next.column) here.next
    else
      match here.lineBreak? with
      | some (b, here) => blockLead steps (b :: acc) widest here
      | none => (acc.reverse, widest, here)

/-- The place after the indentation of a line, up to a column. -/
def blockMargin (indent : Nat) (here : Cursor) : Cursor :=
  here.forward (min (here.rest.takeWhile (· == ' ')).length (indent - here.column))

/-- The breaks of blank lines inside a block scalar, and the place after the indentation that
follows them. -/
def blockBreaks (indent : Nat) : (steps : Nat) → (acc : List Char) → Cursor → List Char × Cursor
  | 0, acc, here => (acc.reverse, here)
  | steps + 1, acc, here =>
    let here := blockMargin indent here
    match here.lineBreak? with
    | some (b, here) => blockBreaks indent steps (b :: acc) here
    | none => (acc.reverse, here)

/-- The end of a block scalar with a last break and the breaks of blank lines after it. -/
def Chomping.ending (last others : List Char) : Chomping → List Char
  | .clip => last
  | .strip => []
  | .keep => last ++ others

/-- The lines of a block scalar. -/
def blockLines (folded : Bool) (chomping : Chomping) (indent : Nat) :
    (steps : Nat) → (acc breaks : List Char) → Cursor → List Char × Cursor
  | 0, acc, _, here => (acc, here)
  | steps + 1, acc, breaks, here =>
    if here.column != indent || here.rest.isEmpty then (acc ++ chomping.ending [] breaks, here)
    else
      let flush := (here.rest.head?.map fun c => !isGap c).getD false
      let (line, here) := here.span fun c => !isBreak c
      let (last, here) := match here.lineBreak? with
        | some (b, here) => ([b], here)
        | none => ([], here)
      let acc := acc ++ breaks ++ line
      let (breaks, here) := blockBreaks indent (here.rest.length + 1) [] here
      if here.column != indent || here.rest.isEmpty then (acc ++ chomping.ending last breaks, here)
      else
        let folds := folded && last == ['\n'] && flush &&
          (here.rest.head?.map fun c => !isGap c).getD false
        let joint := if folds then (if breaks.isEmpty then [' '] else []) else last
        blockLines folded chomping indent steps (acc ++ joint) breaks here

/-- The block scalar whose mark stands at a place, in a block that is indented to a column. -/
def blockText (folded : Bool) (indent : Int) (here : Cursor) : Except Fault (List Char × Cursor) :=
  let (header, here) := blockHeader here.next
  (blockFirstLine here).map fun here =>
    let least := max 1 (indent + 1).toNat
    match header.indent with
    | none =>
      let (breaks, widest, here) := blockLead here.rest.length [] 0 here
      blockLines folded header.chomping (max least widest) (here.rest.length + 1) [] breaks here
    | some n =>
      let indent := least + n - 1
      let (breaks, here) := blockBreaks indent (here.rest.length + 1) [] here
      blockLines folded header.chomping indent (here.rest.length + 1) [] breaks here

end RequestSuite.Yaml
