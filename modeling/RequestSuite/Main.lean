/-
The program on the real file system.

* `readText`, `callSystem`: a file, and a call on the file system;
* `callRepeatedly`: a call made again as a policy says;
* `convertSystem`: a conversion, on a stack that is taken to have room for it;
* `main`: the command line.

All that is decided is decided by the definitions this module calls.
-/
import RequestSuite.Command.Markup
import RequestSuite.Command.Run

namespace RequestSuite.Program

open Command

/-- The number and the reason of a system error. -/
def causeOf : IO.Error → UInt32 × String
  | .alreadyExists _ code details | .invalidArgument _ code details
  | .permissionDenied _ code details | .resourceExhausted _ code details
  | .inappropriateType _ code details | .noSuchThing _ code details
  | .interrupted _ code details
  | .otherError code details | .resourceBusy code details | .resourceVanished code details
  | .unsupportedOperation code details | .hardwareFault code details
  | .unsatisfiedConstraints code details | .illegalOperation code details
  | .protocolError code details | .timeExpired code details => (code, details)
  | .noFileOrDirectory _ code _ => (code, "No such file or directory")
  | .unexpectedEof => (5, "Input/output error")
  | .userError details => (5, details)

/-- The failure that a system error stands for. -/
def failureOf (path : String) (e : IO.Error) : OsError :=
  let (code, reason) := causeOf e
  ⟨code.toNat, reason, path⟩

/-- The text of a file, each line break read as a line feed. -/
def readText (path : String) : IO (Except StoreError String) := do
  match Text.decode (← IO.FS.readBinFile path).toList with
  | .ok text => return .ok (String.ofList (Text.unifyBreaks text))
  | .error fault => return .error (.undecodable fault)

/-- Writes a file. Of a text without bytes only the empty file is left. -/
def writeText (path text : String) : IO (Except StoreError Unit) := do
  match Text.encodeFault? text.toList with
  | some fault => IO.FS.writeFile path ""; return .error (.unencodable fault)
  | none =>
    IO.FS.writeFile path (String.ofList ((Text.points text.toList).map Char.ofNat))
    return .ok ()

/-- The answer to a call on the file system. -/
def callSystem (call : Call) : IO Answer := do
  if (FilePath.parse call.path).hasNul then return .error .nulInPath
  try
    match call with
    | .read path => return (← readText path).map some
    | .mkdir path => IO.FS.createDirAll path; return .ok none
    | .write path text =>
      IO.FS.createDirAll (FilePath.parse path).parent.text
      return (← writeText path text).map fun _ => none
  catch e => return .error (.os (failureOf call.path e))

/-- Makes a call that has failed `tried` times already, and up to `left` times again. -/
def callRepeatedly (policy : RetryPolicy) (call : Call) : (left tried : Nat) → IO Answer
  | 0, _ => callSystem call
  | left + 1, tried => do
    match policy.next call tried (← callSystem call) with
    | .finish answer => return answer
    | .again pause =>
      IO.sleep pause.milliseconds.toUInt32
      callRepeatedly policy call left (tried + 1)

/-- Makes a call, and makes it again as a policy says. -/
def callWith (policy : RetryPolicy) (call : Call) : IO Answer :=
  callRepeatedly policy call policy.maxRetries.toNat 0

/-- Makes calls one after another, up to the first that fails. -/
def performSystem (policy : RetryPolicy) : List Step → IO (Except BuildError Unit)
  | [] => return .ok ()
  | step :: steps => do
    match ← callWith policy step.call with
    | .ok _ => performSystem policy steps
    | .error e => return .error (step.failure e)

/-- Builds the suite of documents that have been read. -/
def buildSystem (policy : RetryPolicy) (options : Options) (root : String)
    (collection environment : Json) : IO (Except BuildError Outcome) := do
  match prepare .ample options collection environment root with
  | .error halt => return .error halt.error
  | .ok o => return (← performSystem policy (o.opening ++ o.files)).bind fun _ => o.result

/-- Reads a document. -/
def readSystem (policy : RetryPolicy) (path : FilePath) : IO (Except BuildError Json) :=
  return documentOf .ample path.text (← callWith policy (.read path.text))

/-- Reads a collection, and an environment if there is one, and builds their suite. -/
def convertSystem (policy : RetryPolicy) (options : Options) (places : Places) :
    IO (Except BuildError Outcome) := do
  match ← readSystem policy places.collection with
  | .error e => return .error e
  | .ok collection =>
    let environment ← match places.environment with
      | some path => readSystem policy path
      | none => pure (.ok .null)
    match environment with
    | .error e => return .error e
    | .ok environment => buildSystem policy options places.output.text collection environment

/-- Prints the end of a run, past what has been printed already. -/
def finish (printed : Nat) (t : Transcript) : IO UInt32 := do
  for text in t.printed.drop printed do
    IO.println text
  match t.failure with
  | some failure => IO.eprintln failure.message
  | none => pure ()
  return t.exitCode.toUInt32

/-- The choices of the options file. -/
def readOptionsFile (path : String) : IO (Except Failure Options) := do
  let text ← try readText path catch e => pure (.error (.os (failureOf path e)))
  match text with
  | .ok text => return (Config.optionsOfText text.toList).mapError .options
  | .error e => return if endsOptions e then .error (.store e) else .ok {}

/-- Creates the file for the log. -/
def openLog (path : FilePath) : IO Unit := do
  IO.FS.createDirAll path.parent.text
  let _ ← IO.FS.Handle.mk path.text .append

/-- A conversion, from its arguments to the end of the run. -/
def runConversion (environment : Keyed String) (settings : Config.Settings) (collection : String)
    (a : Arguments) : IO UInt32 := do
  let host : Host := ⟨.ample, terminal, .parse (← IO.currentDir).toString⟩
  let places := placesOf settings collection a
  if let some path := logPath? settings then
    try openLog path
    catch e => return ← finish 0 (.ofFailure [] (.store (.os (failureOf path.text e))))
  if let some fault := levelFault? settings a then
    return ← finish 0 (.ofFailure [] (.logLevel fault))
  match ← readOptionsFile (Config.optionsPath a.options environment) with
  | .error failure => finish 0 (.ofFailure [] failure)
  | .ok options =>
    let opening := openingOf host places a.silent
    let exitCode ← finish 0 opening
    if opening.failure.isSome then return exitCode
    let result ← convertSystem settings.retry (a.over options) places
    finish opening.printed.length
      (conclude host.console a.silent places.output opening.printed result)

/-- The variables of the environment that can matter, given a file of variables. -/
def readEnvironment (file : String) : IO (Keyed String) := do
  let names := Config.optionsVariable ::
    Config.settingNames.map (Config.settingsPrefix ++ ·) ++ Config.references file.toList
  names.filterMapM fun name => do return (← IO.getEnv name).map (name, ·)

/-- The file of variables in the working directory, or the empty text. -/
def readVariables : IO (Except StoreError String) := do
  try readText ".env" catch _ => return .ok ""

/-- The command line. -/
def run (args : List String) : IO UInt32 := do
  let file ← match ← readVariables with
    | .ok file => pure file
    | .error e => return ← finish 0 (.ofFailure [] (.store e))
  let environment ← readEnvironment file
  match Config.Settings.read environment (Config.variablesOfText environment file.toList),
      invocation? args with
  | .error faults, _ => finish 0 (.ofFailure [] (.settings faults))
  | .ok _, none => finish 0 { exitCode := 2 }
  | .ok _, some .help => finish 0 {}
  | .ok _, some .version => finish 0 { printed := [version] }
  | .ok settings, some (.convert collection a) => runConversion environment settings collection a

end RequestSuite.Program

/-- The command line. -/
def main (args : List String) : IO UInt32 := RequestSuite.Program.run args
