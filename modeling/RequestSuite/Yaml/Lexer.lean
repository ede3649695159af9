/-
From a YAML text to its tokens.

* `KeyMark`: a place where a key may have started, to be known when its colon is met;
* `Lexer`: the tokens so far, the blocks and flow collections that are open, and the text left;
* `Lexer.step`: the next token;
* `Lexer.settled`: the tokens that no later text can change;
* `tokens`: the tokens of a text, up to where it cannot be read on.

A key has to stand on one line, and its colon at most 1024 characters after its start. The column of
a block's first entry is the indentation of the block, and a lesser column ends it.
-/
import RequestSuite.Yaml.ScalarText

namespace RequestSuite.Yaml

/-- A place where a key may have started. -/
structure KeyMark where
  /-- The number of tokens before it. -/
  place : Nat
  start : Cursor
  /-- Whether nothing but a key can stand there. -/
  required : Bool
  deriving DecidableEq, Repr

/-- A text read up to some place. -/
structure Lexer where
  cursor : Cursor
  /-- The tokens so far, the latest first. -/
  tokens : List Token := []
  /-- Where a key may have started, for each open flow collection from the innermost on, and for
  what stands outside all of them. -/
  marks : List (Option KeyMark) := [none]
  /-- The column of the innermost block, and -1 outside all blocks. -/
  indent : Int := -1
  /-- The columns of the blocks around it. -/
  outer : List Int := []
  /-- Whether a key may start here. -/
  keyAllowed : Bool := true
  deriving Repr

/-- The greatest distance between a key's start and its colon. -/
def maxKeyLength : Nat := 1024

namespace Lexer

/-- Whether a flow collection is open. -/
def inFlow (lx : Lexer) : Bool := 1 < lx.marks.length

/-- Adds a token. -/
def emit (token : Token) (lx : Lexer) : Lexer := { lx with tokens := token :: lx.tokens }

/-- Adds a token that some characters stand for. -/
def take (width : Nat) (token : Token) (lx : Lexer) : Lexer :=
  { lx with tokens := token :: lx.tokens, cursor := lx.cursor.forward width }

/-- Adds tokens, the latest first, behind the first `place` ones. -/
def insert (place : Nat) (added : List Token) (lx : Lexer) : Lexer :=
  let later := lx.tokens.length - place
  { lx with tokens := lx.tokens.take later ++ added ++ lx.tokens.drop later }

/-- Whether a key that starts at a mark can still be finished. -/
def isLive (lx : Lexer) (mark : KeyMark) : Bool :=
  mark.start.line == lx.cursor.line && lx.cursor.offset - mark.start.offset ≤ maxKeyLength

/-- Gives up a mark. -/
def giveUp (mark : Option KeyMark) : Except Fault (Option KeyMark) :=
  if (mark.map KeyMark.required).getD false then .error .keyUnfinished else .ok none

/-- Gives up all marks that have been left behind. -/
def expireMarks (lx : Lexer) : Except Fault Lexer := do
  let marks ← lx.marks.mapM fun mark =>
    if (mark.map lx.isLive).getD true then .ok mark else giveUp mark
  return { lx with marks }

/-- Gives up the innermost mark. -/
def dropMark (lx : Lexer) : Except Fault Lexer := do
  match lx.marks with
  | [] => return lx
  | mark :: marks => return { lx with marks := (← giveUp mark) :: marks }

/-- Marks the start of a key, if one may start here. -/
def mark (lx : Lexer) : Except Fault Lexer := do
  if lx.keyAllowed then
    let required := !lx.inFlow && lx.indent == lx.cursor.column
    let lx ← lx.dropMark
    return { lx with marks := some ⟨lx.tokens.length, lx.cursor, required⟩ :: lx.marks.drop 1 }
  else return lx

/-- Skips white space, comments and line breaks. Outside flow collections a key may start on every
new line. -/
def skipGap : (steps : Nat) → Lexer → Lexer
  | 0, lx => lx
  | steps + 1, lx =>
    let (_, here) := lx.cursor.span (· == ' ')
    let here := if here.rest.head? = some '#' then (here.span fun c => !isBreak c).2 else here
    match here.lineBreak? with
    | some (_, here) =>
      skipGap steps { lx with cursor := here, keyAllowed := lx.keyAllowed || !lx.inFlow }
    | none => { lx with cursor := here }

/-- Ends the blocks that are indented further than a column, given the columns of the blocks around
the innermost one. -/
def endBlocks (column : Int) (lx : Lexer) : (outer : List Int) → Lexer
  | [] => lx
  | indent :: outer =>
    if column < lx.indent then endBlocks column ({ lx with indent, outer }.emit .blockEnd) outer
    else lx

/-- Ends the blocks that are indented further than a column. -/
def unwind (column : Int) (lx : Lexer) : Lexer :=
  if lx.inFlow then lx else lx.endBlocks column lx.outer

/-- Starts a block at a column unless the innermost one has that column or a greater one. The token
of its start is put behind the first `place` tokens. -/
def openBlock (token : Token) (column place : Nat) (lx : Lexer) : Lexer :=
  if lx.indent < column then
    { lx with indent := column, outer := lx.indent :: lx.outer }.insert place [token]
  else lx

/-- The mark of a document's start or end. -/
def documentMark (token : Token) (lx : Lexer) : Except Fault Lexer := do
  let lx ← (lx.unwind (-1)).dropMark
  return { lx.take 3 token with keyAllowed := false }

/-- The opening bracket of a flow collection. -/
def openFlow (token : Token) (lx : Lexer) : Except Fault Lexer := do
  let lx ← lx.mark
  return { lx.take 1 token with marks := none :: lx.marks, keyAllowed := true }

/-- The closing bracket of a flow collection. -/
def closeFlow (token : Token) (lx : Lexer) : Except Fault Lexer := do
  if lx.inFlow then
    let lx ← lx.dropMark
    return { lx.take 1 token with marks := lx.marks.drop 1, keyAllowed := false }
  else throw .unexpectedToken

/-- A comma. -/
def comma (lx : Lexer) : Except Fault Lexer := do
  let lx ← lx.dropMark
  return { lx.take 1 .comma with keyAllowed := true }

/-- The mark before an entry of a block list. -/
def entry (lx : Lexer) : Except Fault Lexer := do
  if !lx.inFlow && !lx.keyAllowed then throw .entryMisplaced
  let lx :=
    if lx.inFlow then lx else lx.openBlock .blockList lx.cursor.column lx.tokens.length
  let lx ← lx.dropMark
  return { lx.take 1 .entry with keyAllowed := true }

/-- A question mark before a key. -/
def key (lx : Lexer) : Except Fault Lexer := do
  if !lx.inFlow && !lx.keyAllowed then throw .keyMisplaced
  let lx :=
    if lx.inFlow then lx else lx.openBlock .blockMap lx.cursor.column lx.tokens.length
  let lx ← lx.dropMark
  return { lx.take 1 .key with keyAllowed := !lx.inFlow }

/-- A colon before a value. What stands before it back to the innermost mark is the key. -/
def value (lx : Lexer) : Except Fault Lexer := do
  match lx.marks with
  | some mark :: marks =>
    let lx := { lx with marks := none :: marks }.insert mark.place [.key]
    let lx := if lx.inFlow then lx else lx.openBlock .blockMap mark.start.column mark.place
    return { lx.take 1 .value with keyAllowed := false }
  | _ =>
    if !lx.inFlow && !lx.keyAllowed then throw .valueMisplaced
    let lx :=
      if lx.inFlow then lx else lx.openBlock .blockMap lx.cursor.column lx.tokens.length
    let lx ← lx.dropMark
    return { lx.take 1 .value with keyAllowed := !lx.inFlow }

/-- A quoted scalar. -/
def quoted (double : Bool) (lx : Lexer) : Except Fault Lexer := do
  let lx ← lx.mark
  let (text, cursor) ← quotedText double lx.cursor
  return { lx.emit (.scalar text false) with cursor, keyAllowed := false }

/-- A block scalar. -/
def block (folded : Bool) (lx : Lexer) : Except Fault Lexer := do
  let lx ← lx.dropMark
  let (text, cursor) ← blockText folded lx.indent lx.cursor
  return { lx.emit (.scalar text false) with cursor, keyAllowed := true }

/-- A plain scalar. After one that a line break has ended a key may start. -/
def plain (lx : Lexer) : Except Fault Lexer := do
  let lx ← lx.mark
  let (text, broken, cursor) := plainText lx.inFlow (lx.indent + 1).toNat lx.cursor
  return { lx.emit (.scalar text true) with cursor, keyAllowed := broken }

/-- The marks at which no plain scalar starts. -/
def indicators : List Char :=
  ['-', '?', ':', ',', '[', ']', '\x7b', '\x7d', '#', '&', '*', '!', '|', '>', '\'', '"', '%', '@',
    '\x60']

/-- Whether a plain scalar starts with a character that `rest` follows. -/
def startsPlain (flow : Bool) (c : Char) (rest : List Char) : Bool :=
  (!endsWord [c] && !indicators.contains c) ||
    (!endsWord rest && (c == '-' || (!flow && (c == '?' || c == ':'))))

/-- The token that starts with a character. -/
def read (lx : Lexer) (c : Char) (rest : List Char) : Except Fault Lexer :=
  let flow := lx.inFlow
  if c = '%' && lx.cursor.column = 0 then .error .unsupported
  else if lx.cursor.column = 0 && Cursor.startsDocument (c :: rest) then
    lx.documentMark .documentStart
  else if lx.cursor.column = 0 && Cursor.endsDocument (c :: rest) then lx.documentMark .documentEnd
  else if c = '[' then lx.openFlow .flowList
  else if c = '\x7b' then lx.openFlow .flowMap
  else if c = ']' then lx.closeFlow .flowListEnd
  else if c = '\x7d' then lx.closeFlow .flowMapEnd
  else if c = ',' then lx.comma
  else if c = '-' && endsWord rest then lx.entry
  else if c = '?' && (flow || endsWord rest) then lx.key
  else if c = ':' && (flow || endsWord rest) then lx.value
  else if c = '*' || c = '&' || c = '!' then .error .unsupported
  else if c = '|' && !flow then lx.block false
  else if c = '>' && !flow then lx.block true
  else if c = '\'' then lx.quoted false
  else if c = '"' then lx.quoted true
  else if startsPlain flow c rest then lx.plain
  else .error .unexpectedCharacter

/-- Reads on to the next token. -/
def advance (lx : Lexer) : Except Fault Lexer := do
  let lx ← (lx.skipGap (lx.cursor.rest.length + 1)).expireMarks
  return lx.unwind lx.cursor.column

/-- The next token, or nothing at the end of the text. -/
def step (lx : Lexer) : Except Fault (Option Lexer) := do
  let lx ← lx.advance
  match lx.cursor.rest with
  | [] => return none
  | c :: rest => return some (← lx.read c rest)

/-- The tokens at the end of the text: all blocks end there. -/
def finish (lx : Lexer) : Except Fault (List Token) := do
  let lx ← lx.advance
  return (← (lx.unwind (-1)).dropMark).tokens.reverse

/-- The tokens before the first one that may still turn out to be a key. -/
def settled (lx : Lexer) : List Token :=
  let marks := match lx.expireMarks with
    | .ok lx => lx.marks.filterMap id
    | .error _ => []
  lx.tokens.reverse.take (marks.foldl (fun n mark => min n mark.place) lx.tokens.length)

/-- The settled tokens, with what keeps the text from being read on. -/
def halt (lx : Lexer) (fault : Fault) : List Token := lx.settled ++ [.unreadable fault]

/-- The tokens of the text. -/
def run : (steps : Nat) → Lexer → List Token
  | 0, lx => lx.halt .unexpectedCharacter
  | steps + 1, lx =>
    match lx.step with
    | .ok (some next) => run steps next
    | .ok none =>
      match lx.finish with
      | .ok tokens => tokens
      | .error fault => lx.halt fault
    | .error fault => lx.halt fault

end Lexer

/-- The characters that a text may hold. -/
def isPrintable (c : Char) : Bool :=
  let n := c.toNat
  c == '\t' || c == '\n' || c == '\r' || (0x20 ≤ n && n ≤ 0x7e) || n == 0x85 ||
    (0xa0 ≤ n && n ≤ 0xfffd) || 0x10000 ≤ n

/-- The tokens of a text. A byte order mark at its start does not count. -/
def tokens (text : List Char) : List Token :=
  if text.all isPrintable then
    let start : Cursor := ⟨text, 0, 0, 0⟩
    let start := if text.head? = some '\ufeff' then start.next else start
    Lexer.run (text.length + 1) { cursor := start }
  else [.unreadable .unprintable]

end RequestSuite.Yaml
