/-
The arguments of the command line.

* `Arguments`: what a conversion is told;
* `Setting`, `longOption?`, `shortOption?`: the options, and what each of them tells;
* `readArguments`: the options of a conversion, in any order; of an option that is repeated the last
  one counts;
* `Invocation`, `invocation?`: what a whole command line asks for, if it is well formed.

A long option takes its value from the text after `=` or from the next argument. Short options may
share one argument, the rest of which is the value of the first that takes one. Whatever follows an
option that takes a value is its value, be it an option or not.
-/
import RequestSuite.Build.Options
import RequestSuite.Text.Fields

namespace RequestSuite.Command

open Text (breakAt?)

/-- What a conversion is told. -/
structure Arguments where
  collection : Option String := none
  output : Option String := none
  environment : Option String := none
  options : Option String := none
  emitSetup : Option Bool := none
  flatten : Option Bool := none
  enhanced : Option Bool := none
  debug : Bool := false
  silent : Bool := false
  help : Bool := false
  /-- Whether there are arguments that belong to no option. -/
  surplus : Bool := false
  deriving DecidableEq, Repr

/-- What an option tells, perhaps with a value. -/
inductive Setting
  | flag (set : Arguments → Arguments)
  | value (set : String → Arguments → Arguments)

/-- The path of the collection. -/
def collectionSetting : Setting := .value fun path a => { a with collection := some path }

/-- The directory for the suite. -/
def outputSetting : Setting := .value fun path a => { a with output := some path }

/-- The path of the environment. -/
def environmentSetting : Setting := .value fun path a => { a with environment := some path }

/-- More is logged. -/
def debugSetting : Setting := .flag fun a => { a with debug := true }

/-- The options with a long name. -/
def longOptions : List (String × Setting) :=
  [("--collection", collectionSetting),
    ("--output", outputSetting),
    ("--environment", environmentSetting),
    ("--config", .value fun path a => { a with options := some path }),
    ("--setup", .flag fun a => { a with emitSetup := some true }),
    ("--no-setup", .flag fun a => { a with emitSetup := some false }),
    ("--flat", .flag fun a => { a with flatten := some true }),
    ("--nested", .flag fun a => { a with flatten := some false }),
    ("--enhanced", .flag fun a => { a with enhanced := some true }),
    ("--plain", .flag fun a => { a with enhanced := some false }),
    ("--debug", debugSetting),
    ("--silent", .flag fun a => { a with silent := true }),
    ("--help", .flag fun a => { a with help := true })]

/-- The option with a long name. -/
def longOption? (name : String) : Option Setting := longOptions.lookup name

/-- The option with a short name. -/
def shortOption? (c : Char) : Option Setting :=
  [('c', collectionSetting), ('o', outputSetting), ('e', environmentSetting),
    ('d', debugSetting)].lookup c

/-- Arguments read so far, and the option that still needs a value. -/
abbrev Pending := Arguments × Option (String → Arguments → Arguments)

/-- Reads short options that share an argument. -/
def readCluster (a : Arguments) : List Char → Option Pending
  | [] => some (a, none)
  | c :: cs =>
    match shortOption? c with
    | none => none
    | some (.flag set) => readCluster (set a) cs
    | some (.value set) =>
      if cs.isEmpty then some (a, some set) else some (set (String.ofList cs) a, none)

/-- Whether an argument is an option, known or not. -/
def isOption (arg : List Char) : Bool := arg.head? == some '-' && 1 < arg.length

/-- Reads an argument that is an option. -/
def readOption (a : Arguments) (arg : List Char) : Option Pending :=
  let (name, value?) := match breakAt? '=' arg with
    | some (name, value) => (name, some value)
    | none => (arg, none)
  match longOption? (String.ofList name), value? with
  | some (.value set), some value => some (set (String.ofList value) a, none)
  | some (.value set), none => some (a, some set)
  | some (.flag set), none => some (set a, none)
  | some (.flag _), some _ => none
  | none, _ => if arg.take 2 = ['-', '-'] then none else readCluster a (arg.drop 1)

/-- Reads the options of a conversion. After `--` there are none. -/
def readArguments (a : Arguments) : List String → Option Arguments
  | [] => some a
  | arg :: args =>
    if arg = "--" then some { a with surplus := a.surplus || !args.isEmpty }
    else if isOption arg.toList then
      match readOption a arg.toList, args with
      | none, _ => none
      | some (a, none), args => readArguments a args
      | some (_, some _), [] => none
      | some (a, some set), value :: args => readArguments (set value a) args
    else readArguments { a with surplus := true } args

/-- What a command line asks for. -/
inductive Invocation
  | help
  | version
  | convert (collection : String) (arguments : Arguments)
  deriving DecidableEq, Repr

/-- What the arguments of a conversion ask for. The path of the collection must be given. -/
def convert? (args : List String) : Option Invocation := do
  let a ← readArguments {} args
  if a.help then some .help
  else if a.surplus then none
  else a.collection.map fun collection => .convert collection a

/-- The end of the arguments of a command without options: whether they ask for help, if they are
well formed. -/
def endHelp (help surplus : Bool) : Option Bool := if surplus && !help then none else some help

/-- Whether the arguments of a command without options ask for help, if they are well formed. -/
def readHelp (help surplus : Bool) : List String → Option Bool
  | [] => endHelp help surplus
  | arg :: args =>
    if arg = "--" then endHelp help (surplus || !args.isEmpty)
    else if arg = "--help" then readHelp true surplus args
    else if isOption arg.toList then none
    else readHelp help true args

/-- What a command and its arguments ask for. Of the command that serves only the help is to be had
here. -/
def command? (name : String) (args : List String) : Option Invocation :=
  if name = "convert" then convert? args
  else if name = "version" then
    (readHelp false false args).map fun help => if help then .help else .version
  else if name = "serve" then
    (readHelp false false args).bind fun help => if help then some .help else none
  else none

/-- What a command line asks for. The help of the whole program is asked for in front of the
command, which then does not matter. -/
def invocationFrom (help : Bool) : List String → Option Invocation
  | [] => if help then some .help else none
  | arg :: args =>
    if arg = "--help" then invocationFrom true args
    else if isOption arg.toList && arg != "--" then none
    else if help then some .help
    else if arg = "--" then
      match args with
      | [] => none
      | name :: args => command? name args
    else command? arg args

/-- What a command line asks for, if it is well formed. -/
def invocation? (args : List String) : Option Invocation := invocationFrom false args

/-- The choices that are told, over those of the options file. -/
def Arguments.over (a : Arguments) (options : Options) : Options where
  flatten := a.flatten.getD options.flatten
  emitSetup := a.emitSetup.getD options.emitSetup
  enhanced := a.enhanced.getD options.enhanced

end RequestSuite.Command
