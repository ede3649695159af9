/-
The lexical structure of a script: which of its characters are code, and which stand in a string,
a template, a comment or a regular expression.

* `Mode`, `State`: where in that structure the next character stands;
* `State.step`: the state after a character;
* `State.isCode`: whether a character is code outside every template;
* `codeFrom`, `code`: the characters of a script that are code, each with its position;
* `mem_codeFrom`, `pairwise_codeFrom`: these positions increase, lie in the text, and hold the
  characters they are listed with.
-/
import RequestSuite.Text.Blank

namespace RequestSuite.Script

open Text (isBlank)

/-- What the next character belongs to. The modes of code and of comments carry the last character
of code that was not white space, which decides whether a slash divides or opens a regular
expression. -/
inductive Mode
  | code (last : Option Char)
  | quoted (quote : Char)
  | quotedEscape (quote : Char)
  | template
  | templateEscape
  /-- After the dollar sign of a substitution, before its brace. -/
  | templateDollar
  | lineComment (last : Option Char)
  /-- After the slash of a block comment, before its star. -/
  | commentOpen (last : Option Char)
  | comment (last : Option Char)
  /-- After the star that closes a block comment, before its slash. -/
  | commentClose (last : Option Char)
  | regex (inClass : Bool)
  | regexEscape (inClass : Bool)
  deriving DecidableEq, Repr

/-- A mode, and for each template whose substitution is being read, innermost first, the number of
brackets open in that substitution. -/
structure State where
  mode : Mode := .code none
  depths : List Nat := []
  deriving DecidableEq, Repr

/-- An opening bracket. -/
def isOpener (c : Char) : Bool := c == '(' || c == '[' || c == '{'

/-- A closing bracket. -/
def isCloser (c : Char) : Bool := c == ')' || c == ']' || c == '}'

/-- The characters after which a slash opens a regular expression. -/
def regexLeads : List Char := "(,=:[!&|?\x7b\x7d;+-*%<>~^".toList

/-- A slash opens a regular expression at the start of the code and after an operator, an opening
bracket or a separator. -/
def regexMayFollow : Option Char → Bool
  | none => true
  | some c => regexLeads.contains c

/-- The mode that a character read in code opens, if it opens a literal or a comment. -/
def opened? (last : Option Char) (c : Char) (next : Option Char) : Option Mode :=
  if c = '\'' || c = '"' then some (.quoted c)
  else if c = '`' then some .template
  else if c = '/' then
    if next = some '/' then some (.lineComment last)
    else if next = some '*' then some (.commentOpen last)
    else if regexMayFollow last then some (.regex false)
    else none
  else none

/-- The last code character before a character that is read in code, if it is. The line feed that
ends a line comment or cuts a regular expression short is code itself. -/
def Mode.readsCode? (c : Char) : Mode → Option (Option Char)
  | .code last => some last
  | .lineComment last => if c = '\n' then some last else none
  | .regex _ => if c = '\n' then some (some '/') else none
  | _ => none

/-- The last code character once a character of code has been read. White space does not count. -/
def lastAfter (last : Option Char) (c : Char) : Option Char := if isBlank c then last else some c

/-- The state after a character of code. In a substitution brackets are counted, and the closing
bracket without a partner ends it. -/
def afterCode (depths : List Nat) (last : Option Char) (c : Char) : State :=
  match depths with
  | [] => ⟨.code (lastAfter last c), []⟩
  | d :: ds =>
    if isOpener c then ⟨.code (lastAfter last c), (d + 1) :: ds⟩
    else if isCloser c then
      match d with
      | 0 => ⟨.template, ds⟩
      | d + 1 => ⟨.code (lastAfter last c), d :: ds⟩
    else ⟨.code (lastAfter last c), d :: ds⟩

/-- The mode after a character inside a literal or a comment. -/
def Mode.inside (c : Char) (next : Option Char) : Mode → Mode
  | .code last => .code last
  | .quoted q =>
    if c = '\\' then .quotedEscape q
    else if c = q || c = '\n' then .code (some q)
    else .quoted q
  | .quotedEscape q => .quoted q
  | .template =>
    if c = '\\' then .templateEscape
    else if c = '`' then .code (some '`')
    else if c = '$' && next = some '{' then .templateDollar
    else .template
  | .templateEscape => .template
  | .templateDollar => .code none
  | .lineComment last => .lineComment last
  | .commentOpen last => .comment last
  | .comment last => if c = '*' && next = some '/' then .commentClose last else .comment last
  | .commentClose last => .code last
  | .regex inClass =>
    if c = '\\' then .regexEscape inClass
    else if inClass then .regex (c != ']')
    else if c = '[' then .regex true
    else if c = '/' then .code (some '/')
    else .regex false
  | .regexEscape inClass => .regex inClass

/-- The state after a character, given the one that follows it. -/
def State.step (s : State) (c : Char) (next : Option Char) : State :=
  match s.mode.readsCode? c with
  | some last =>
    match opened? last c next with
    | some mode => ⟨mode, s.depths⟩
    | none => afterCode s.depths last c
  | none =>
    let depths := if s.mode = .templateDollar then 0 :: s.depths else s.depths
    ⟨s.mode.inside c next, depths⟩

/-- Whether a character is code and no part of a template's substitution. -/
def State.isCode (s : State) (c : Char) (next : Option Char) : Bool :=
  match s.mode.readsCode? c with
  | some last => s.depths.isEmpty && (opened? last c next).isNone
  | none => false

/-- The code characters of a text read from a given state, with their positions when the text
starts at `start`. -/
def codeFrom (start : Nat) (s : State) : List Char → List (Nat × Char)
  | [] => []
  | c :: cs =>
    let rest := codeFrom (start + 1) (s.step c cs.head?) cs
    if s.isCode c cs.head? then (start, c) :: rest else rest

/-- The code characters of a script with their positions. -/
def code (text : List Char) : List (Nat × Char) := codeFrom 0 {} text

/-- A listed position lies in the text and holds the character it is listed with. -/
theorem mem_codeFrom {start : Nat} {s : State} {text : List Char} {p : Nat × Char}
    (h : p ∈ codeFrom start s text) :
    start ≤ p.1 ∧ p.1 < start + text.length ∧ text[p.1 - start]? = some p.2 := by
  induction text generalizing start s with
  | nil => simp [codeFrom] at h
  | cons c cs ih =>
    have later (h' : p ∈ codeFrom (start + 1) (s.step c cs.head?) cs) :
        start ≤ p.1 ∧ p.1 < start + (c :: cs).length ∧ (c :: cs)[p.1 - start]? = some p.2 := by
      obtain ⟨h1, h2, h3⟩ := ih h'
      refine ⟨by omega, by simp only [List.length_cons]; omega, ?_⟩
      rw [show p.1 - start = (p.1 - (start + 1)) + 1 by omega]
      simpa using h3
    simp only [codeFrom] at h
    split at h
    · rcases List.mem_cons.1 h with rfl | h
      · simp
      · exact later h
    · exact later h

/-- The positions of the code characters increase. -/
theorem pairwise_codeFrom (start : Nat) (s : State) (text : List Char) :
    (codeFrom start s text).Pairwise fun p q => p.1 < q.1 := by
  induction text generalizing start s with
  | nil => simp [codeFrom]
  | cons c cs ih =>
    simp only [codeFrom]
    split
    · refine List.pairwise_cons.2 ⟨fun q hq => ?_, ih _ _⟩
      have := (mem_codeFrom hq).1
      simp only
      omega
    · exact ih _ _

end RequestSuite.Script
