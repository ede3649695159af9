/-
The command line on a file system.

* `Host`: what a run is started on;
* `Failure`: what ends a run besides a failed conversion;
* `Transcript`: what a run prints, and how it ends;
* `convertAt`: a conversion with its choices made;
* `runConvert`: a conversion, from its arguments to its transcript;
* `run`: a whole command line.
-/
import RequestSuite.Command.Arguments
import RequestSuite.Command.Message
import RequestSuite.Config.Logging
import RequestSuite.Config.OptionsFile
import RequestSuite.Config.Settings

namespace RequestSuite.Command

/-- The version of the program. -/
def version : String := "0.1.0"

/-- What a run is started on: a stack and a console, in a directory. -/
structure Host where
  stack : Stack
  console : Console
  directory : FilePath

/-- What ends a run besides a failed conversion. -/
inductive Failure
  | settings (faults : List ShapeFault)
  | options (fault : Yaml.ScalarFault)
  | logLevel (fault : LevelFault)
  /-- A call on the file system that no message reports. -/
  | store (error : StoreError)
  /-- A message cannot be printed. -/
  | unprintable
  | overflow (overflow : Overflow)
  deriving DecidableEq, Repr

/-- What is said of a failure. -/
def Failure.message : Failure → String
  | .settings faults =>
    String.intercalate "\n" (faults.map fun f => f.place ++ ": " ++ f.kind.code)
  | .options fault => fault.message
  | .logLevel fault => fault.message
  | .store error => error.message
  | .unprintable => "closing tag without an open one"
  | .overflow o => o.message

/-- What a run prints, text by text, and how it ends. -/
structure Transcript where
  exitCode : Nat := 0
  printed : List String := []
  failure : Option Failure := none
  deriving DecidableEq, Repr

/-- A run that ends with a failure. -/
def Transcript.ofFailure (printed : List String) (failure : Failure) : Transcript :=
  ⟨1, printed, some failure⟩

/-- Messages after what has been printed, and an end of the run if they can be printed. -/
def Transcript.say (console : Console) (printed : List String) (messages : List Message)
    (exitCode : Nat) : Transcript :=
  match printAll console messages with
  | (more, true) => ⟨exitCode, printed ++ more, none⟩
  | (more, false) => .ofFailure (printed ++ more) .unprintable

/-- Where a conversion reads and writes. -/
def placesOf (settings : Config.Settings) (collection : String) (a : Arguments) : Places where
  collection := .parse collection
  output := .parse (a.output.getD settings.outputDirectory)
  environment := a.environment.map .parse

/-- The path of the log file, if there is to be one. -/
def logPath? (settings : Config.Settings) : Option FilePath :=
  match settings.logFile with
  | none | some "" => none
  | some path => some (.parse path)

/-- How a conversion ends. -/
def conclude (console : Console) (silent : Bool) (output : FilePath) (printed : List String) :
    Except BuildError Outcome → Transcript
  | .ok outcome => .say console printed (if silent then [] else closingMessages output outcome) 0
  | .error (.stopped error) => .ofFailure printed (.store error)
  | .error (.overflow overflow) => .ofFailure printed (.overflow overflow)
  | .error e => .say console printed [failureMessage e] 1

/-- Whether an error ends the reading of the options file: its name is too long to look for it, or
what it holds is no text. -/
def endsOptions (e : StoreError) : Bool :=
  match e with
  | .undecodable _ => true
  | e => e.errno? = some 36

/-- The choices of the options file. Most files that cannot be read make none. -/
def readOptions (d : Disk) (path : String) : Except Failure Options :=
  match d.fileText (.parse path) with
  | .ok text => (Config.optionsOfText text.toList).mapError .options
  | .error e => if endsOptions e then .error (.store e) else .ok {}

/-- The start of a conversion. -/
def openingOf (host : Host) (places : Places) (silent : Bool) : Transcript :=
  .say host.console [] (if silent then [] else openingMessages host.directory places) 0

/-- A conversion with its choices made. -/
def convertAt (host : Host) (policy : RetryPolicy) (options : Options) (places : Places)
    (silent : Bool) (d : Disk) : Transcript × Disk :=
  let opening := openingOf host places silent
  if opening.failure.isSome then (opening, d)
  else
    let (result, s) := convert host.stack (retrying policy disk) options places.collection.text
      (places.environment.map FilePath.text) places.output.text { store := d }
    (conclude host.console silent places.output opening.printed result, s.store)

/-- What is wrong with the level at which a conversion logs. -/
def levelFault? (settings : Config.Settings) (a : Arguments) : Option LevelFault :=
  if a.debug || a.silent then none
  else
    match levelOf settings.logLevel with
    | .ok _ => none
    | .error fault => some fault

/-- The start of the log: its file, if it has one, and its level. -/
def startLog (settings : Config.Settings) (a : Arguments) (d : Disk) : Option Failure × Disk :=
  match logPath? settings with
  | some path =>
    match d.openLog path with
    | (some e, d) => (some (.store e), d)
    | (none, d) => ((levelFault? settings a).map .logLevel, d)
  | none => ((levelFault? settings a).map .logLevel, d)

/-- A conversion, from its arguments to its transcript. -/
def runConvert (host : Host) (environment : Keyed String) (settings : Config.Settings)
    (collection : String) (a : Arguments) (d : Disk) : Transcript × Disk :=
  match startLog settings a d with
  | (some failure, d) => (.ofFailure [] failure, d)
  | (none, d) =>
    match readOptions d (Config.optionsPath a.options environment) with
    | .error failure => (.ofFailure [] failure, d)
    | .ok options =>
      convertAt host settings.retry (a.over options) (placesOf settings collection a) a.silent d

/-- The file of variables in the working directory. None are made by a file that is not there. -/
def variablesFile (environment : Keyed String) (d : Disk) :
    Except StoreError (Keyed (Option String)) :=
  match d.fileText (.parse ".env") with
  | .ok text => .ok (Config.variablesOfText environment text.toList)
  | .error (.undecodable fault) => .error (.undecodable fault)
  | .error _ => .ok []

/-- The settings of a run. -/
def readSettings (environment : Keyed String) (d : Disk) : Except Failure Config.Settings :=
  match variablesFile environment d with
  | .error e => .error (.store e)
  | .ok file => (Config.Settings.read environment file).mapError .settings

/-- A whole command line. Settings that are wrong end every run, even one that asks for help. -/
def run (host : Host) (environment : Keyed String) (args : List String) (d : Disk) :
    Transcript × Disk :=
  match readSettings environment d, invocation? args with
  | .error failure, _ => (.ofFailure [] failure, d)
  | .ok _, none => ({ exitCode := 2 }, d)
  | .ok _, some .help => ({}, d)
  | .ok _, some .version => (⟨0, [version], none⟩, d)
  | .ok settings, some (.convert collection a) =>
    runConvert host environment settings collection a d

end RequestSuite.Command
