/-
Files of variables: a name, an equals sign and a value on each line.

* `Assignment`: a name with its value, or without one;
* `takeAssignment`: reading one line, or more where a quoted value spans them;
* `assignments`: all that a text assigns, lines of any other form left out;
* `expand`: a value with `${NAME}` and `${NAME:-default}` filled in;
* `variablesOfText`: the variables of a text.
-/
import RequestSuite.Keyed
import RequestSuite.Text.Blank

namespace RequestSuite.Config

open Text (isBlank trim trimStart)

/-- White space within a line. -/
def isInlineBlank (c : Char) : Bool := isBlank c && c != '\n' && c != '\r'

/-- The characters at which a line of the file ends. -/
def isLineEnd (c : Char) : Bool := c == '\n' || c == '\r'

/-- A name with its value, or without one. -/
structure Assignment where
  name : String
  value : Option String
  deriving DecidableEq, Repr

/-- A text without the word `export` and the white space after it. -/
def skipExport (cs : List Char) : List Char :=
  match cs with
  | 'e' :: 'x' :: 'p' :: 'o' :: 'r' :: 't' :: rest =>
    if (rest.head?.map isInlineBlank).getD false then rest.dropWhile isInlineBlank else cs
  | _ => cs

/-- The name at the start of a text, in single quotes or plain, and the rest. -/
def takeName? (cs : List Char) : Option (List Char × List Char) :=
  match cs with
  | '\'' :: rest =>
    let name := rest.takeWhile (· != '\'')
    match rest.dropWhile (· != '\'') with
    | '\'' :: rest => if name.isEmpty then none else some (name, rest)
    | _ => none
  | _ =>
    let inName (c : Char) := c != '=' && c != '#' && !isBlank c
    if (cs.head?.map inName).getD false then some (cs.takeWhile inName, cs.dropWhile inName)
    else none

/-- A quoted value, from the character after its opening quote on, and the text after its closing
quote. A backslash and the character after it belong to the value. -/
def takeQuoted? (quote : Char) : List Char → Option (List Char × List Char)
  | [] => none
  | '\\' :: c :: cs => (takeQuoted? quote cs).map fun (value, rest) => ('\\' :: c :: value, rest)
  | c :: cs =>
    if c = quote then some ([], cs)
    else (takeQuoted? quote cs).map fun (value, rest) => (c :: value, rest)

/-- What a character stands for after a backslash inside double quotes. -/
def doubleEscapes : List (Char × Char) :=
  [('\\', '\\'), ('\'', '\''), ('"', '"'), ('a', '\x07'), ('b', '\x08'), ('f', '\x0c'),
    ('n', '\n'), ('r', '\r'), ('t', '\t'), ('v', '\x0b')]

/-- What a character stands for after a backslash inside single quotes. -/
def singleEscapes : List (Char × Char) := [('\\', '\\'), ('\'', '\'')]

/-- A text with its escapes decoded. -/
def unescape (escapes : List (Char × Char)) : List Char → List Char
  | '\\' :: c :: cs =>
    match escapes.lookup c with
    | some d => d :: unescape escapes cs
    | none => '\\' :: unescape escapes (c :: cs)
  | c :: cs => c :: unescape escapes cs
  | [] => []

/-- A text up to the white space before a `#`. -/
def dropComment (cs : List Char) : List Char :=
  match cs with
  | [] => []
  | c :: rest =>
    if isBlank c && (trimStart rest).head? = some '#' then [] else c :: dropComment rest

/-- A value, from the character after the equals sign on, and the rest. -/
def takeValue? (cs : List Char) : Option (List Char × List Char) :=
  match cs.dropWhile isInlineBlank with
  | '\'' :: rest => (takeQuoted? '\'' rest).map fun (v, rest) => (unescape singleEscapes v, rest)
  | '"' :: rest => (takeQuoted? '"' rest).map fun (v, rest) => (unescape doubleEscapes v, rest)
  | _ =>
    some (trim (dropComment (cs.takeWhile fun c => !isLineEnd c)),
      cs.dropWhile fun c => !isLineEnd c)

/-- The text after the end of a line, on which only a comment may stand. -/
def takeLineEnd? (cs : List Char) : Option (List Char) :=
  let rest := cs.dropWhile isInlineBlank
  let rest := if rest.head? = some '#' then rest.dropWhile fun c => !isLineEnd c else rest
  match rest with
  | [] => some []
  | '\r' :: '\n' :: rest => some rest
  | c :: rest => if isLineEnd c then some rest else none

/-- The text after the current line, whatever it holds. -/
def skipLine (cs : List Char) : List Char := (cs.dropWhile fun c => !isLineEnd c).drop 1

/-- What an attempt to read a line comes to: an assignment if there is one, and the rest. -/
abbrev Attempt := Option Assignment × List Char

/-- The rest of a line, after a name if it has one. -/
def finishLine (name value : Option (List Char)) (cs : List Char) : Attempt :=
  match takeLineEnd? cs with
  | some rest => (name.map fun n => ⟨String.ofList n, value.map String.ofList⟩, rest)
  | none => (none, skipLine cs)

/-- The rest of a line, from the end of its name on. -/
def takeAssigned (name : Option (List Char)) (cs : List Char) : Attempt :=
  match cs.dropWhile isInlineBlank with
  | '=' :: rest =>
    match takeValue? rest with
    | some (value, rest) => finishLine name (some value) rest
    | none => (none, skipLine rest)
  | rest => finishLine name none rest

/-- A line, past the white space before it. -/
def takeAssignment (cs : List Char) : Attempt :=
  let rest := skipExport (trimStart cs)
  if rest.head? = some '#' then takeAssigned none rest
  else
    match takeName? rest with
    | some (name, rest) => takeAssigned (some name) rest
    | none => (none, skipLine rest)

/-- All that a text assigns. -/
def assignmentsWithin : (steps : Nat) → List Char → List Assignment
  | 0, _ => []
  | steps + 1, cs =>
    if (trimStart cs).isEmpty then []
    else
      let (assignment, rest) := takeAssignment cs
      assignment.toList ++ assignmentsWithin steps rest

/-- All that a text assigns. Every line holds a character, so the length of the text bounds their
number. -/
def assignments (text : List Char) : List Assignment := assignmentsWithin text.length text

/-- The name and the default of a reference, from the character after its opening brace on, and the
rest. -/
def takeReference? (cs : List Char) : Option (String × String × List Char) :=
  let name := String.ofList (cs.takeWhile fun c => c != '\x7d' && c != ':')
  match cs.dropWhile fun c => c != '\x7d' && c != ':' with
  | '\x7d' :: rest => some (name, "", rest)
  | ':' :: '-' :: rest =>
    let default := String.ofList (rest.takeWhile (· != '\x7d'))
    match rest.dropWhile (· != '\x7d') with
    | '\x7d' :: rest => some (name, default, rest)
    | _ => none
  | _ => none

/-- The names in the references of a text. -/
def references : List Char → List String
  | '$' :: '\x7b' :: rest =>
    (takeReference? rest).toList.map Prod.fst ++ references ('\x7b' :: rest)
  | _ :: rest => references rest
  | [] => []

/-- A value with its references filled in. -/
def expandWithin (fill : String → String → String) : (steps : Nat) → List Char → List Char
  | 0, cs => cs
  | steps + 1, cs =>
    match cs with
    | [] => []
    | '$' :: '\x7b' :: rest =>
      match takeReference? rest with
      | some (name, default, rest) => (fill name default).toList ++ expandWithin fill steps rest
      | none => '$' :: expandWithin fill steps ('\x7b' :: rest)
    | c :: rest => c :: expandWithin fill steps rest

/-- A value with its references filled in from the variables assigned before it and, behind them,
those of the environment. -/
def expand (environment : Keyed String) (assigned : Keyed (Option String)) (value : String) :
    String :=
  let fill (name default : String) : String :=
    match assigned.get? name with
    | some value => value.getD ""
    | none => (environment.get? name).getD default
  String.ofList (expandWithin fill value.length value.toList)

/-- A text without a byte order mark at its start. -/
def dropMark : List Char → List Char
  | '\ufeff' :: cs => cs
  | cs => cs

/-- The variables of a text. A name without a value is remembered as such. -/
def variablesOfText (environment : Keyed String) (text : List Char) : Keyed (Option String) :=
  (assignments (dropMark text)).foldl
    (fun assigned a => assigned.put a.name (a.value.map (expand environment assigned))) []

end RequestSuite.Config
