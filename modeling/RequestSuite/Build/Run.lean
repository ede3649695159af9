/-
Builds.

* `BuildError`: the ways in which a build fails, and what is said of them;
* `Phase`: what a build is doing;
* `perform`: calls one after another, up to the first that fails;
* `Halt`, `prepare`: the outline of a build, or what ends it before its first call;
* `Execution`, `build`: a build with its report or error, the phases it went through, and the file
  system it leaves;
* `convert`: a build of documents read from the file system.
-/
import RequestSuite.Build.Outline
import RequestSuite.Json.Reader

namespace RequestSuite

/-- The ways in which a build fails. -/
inductive BuildError
  /-- The collection is unusable. -/
  | collection (report : Report)
  /-- The environment is unusable. -/
  | environment (report : Report)
  /-- A call that creates or writes something has failed. -/
  | emission (path : String) (request : Option String) (cause : OsError)
  /-- A document cannot be read. -/
  | unreadable (path reason : String)
  /-- A call could not be made, or not again, or what it came to is no text. -/
  | stopped (error : StoreError)
  /-- There was no room on the stack. -/
  | overflow (overflow : Overflow)
  deriving DecidableEq, Repr

/-- The messages of a report's errors in one line. -/
def Report.errorLine (r : Report) : String :=
  String.intercalate ", " (r.errors.map DocumentError.message)

/-- What is said of a failed build. -/
def BuildError.message : BuildError → String
  | .collection report => "Invalid collection: " ++ report.errorLine
  | .environment report => "Invalid environment: " ++ report.errorLine
  | .emission path request cause =>
    match request with
    | none | some "" => "Failed to write " ++ path ++ ": " ++ cause.message
    | some name => "Failed to write " ++ path ++ " for \"" ++ name ++ "\": " ++ cause.message
  | .unreadable path reason => "Cannot read " ++ path ++ ": " ++ reason
  | .stopped error => error.message
  | .overflow o => o.message

/-- What a build is doing. -/
inductive Phase
  | idle
  | validating
  | failed
  | extracting
  | emitting
  | walking
  | done
  deriving DecidableEq, Repr

/-- The name of a phase. -/
def Phase.name : Phase → String
  | .idle => "IDLE"
  | .validating => "VALIDATING"
  | .failed => "FAILED"
  | .extracting => "EXTRACTING"
  | .emitting => "EMITTING"
  | .walking => "WALKING"
  | .done => "DONE"

/-- Makes calls one after another. The first that fails is the last that is made. -/
def perform {σ : Type} (backend : Backend σ) : List Step → σ → Option (Step × StoreError) × σ
  | [], s => (none, s)
  | step :: steps, s =>
    match backend step.call s with
    | (.ok _, s) => perform backend steps s
    | (.error error, s) => (some (step, error), s)

/-- A build that has ended. -/
structure Execution (σ : Type) where
  result : Except BuildError Outcome
  phases : List Phase
  store : σ

/-- The error of a build whose step has failed. -/
def Step.failure (step : Step) : StoreError → BuildError
  | .os cause => .emission step.call.path step.request cause
  | error => .stopped error

/-- A build that ends with a failed call. Only failures of the file system itself count as a phase
of the build. -/
def Execution.ofFailure {σ : Type} (phases : List Phase) (step : Step) (error : StoreError)
    (store : σ) : Execution σ :=
  match error with
  | .os _ => ⟨.error (step.failure error), phases ++ [.failed], store⟩
  | _ => ⟨.error (step.failure error), phases, store⟩

/-- What a build comes to that has made all the calls of its outline. -/
def Outline.result (o : Outline) : Except BuildError Outcome :=
  match o.obstacle with
  | some overflow => .error (.overflow overflow)
  | none => .ok o.outcome

/-- Makes the calls of an outline. A build that cannot go on after them ends in the phase of the
last one. -/
def Outline.execute {σ : Type} (o : Outline) (backend : Backend σ) (s : σ) : Execution σ :=
  let opening : List Phase := [.idle, .validating, .extracting, .emitting]
  match perform backend o.opening s with
  | (some (step, error), s) => .ofFailure opening step error s
  | (none, s) =>
    match perform backend o.files s with
    | (some (step, error), s) => .ofFailure (opening ++ [.walking]) step error s
    | (none, s) =>
      ⟨o.result, opening ++ [.walking] ++ (if o.obstacle.isNone then [.done] else []), s⟩

/-- What ends a build before its first call, and the phases it has gone through. -/
structure Halt where
  error : BuildError
  phases : List Phase
  deriving DecidableEq, Repr

/-- Checks the documents of a build and works out its outline. There may be no room on the stack to
read the items of the collection, or to take from the documents what the shared module needs. -/
def prepare (stack : Stack) (options : Options) (collection environment : Json) (root : String) :
    Except Halt Outline :=
  if !(checkCollection collection).ok then
    .error ⟨.collection (checkCollection collection), [.idle, .validating, .failed]⟩
  else if !(checkEnvironment environment).ok then
    .error ⟨.environment (checkEnvironment environment), [.idle, .validating, .failed]⟩
  else
    match stack.overflow? (.items collection),
        stack.overflow? (.extraction collection environment) with
    | some overflow, _ => .error ⟨.overflow overflow, [.idle, .validating]⟩
    | none, some overflow => .error ⟨.overflow overflow, [.idle, .validating, .extracting]⟩
    | none, none => .ok (outline stack options collection environment (FilePath.parse root))

/-- Builds the suite of a collection below a directory. A null environment is none at all. -/
def build {σ : Type} (stack : Stack) (backend : Backend σ) (options : Options)
    (collection environment : Json) (root : String) (s : σ) : Execution σ :=
  match prepare stack options collection environment root with
  | .error halt => ⟨.error halt.error, halt.phases, s⟩
  | .ok o => o.execute backend s

/-- The document in the answer to a call that reads it. -/
def documentOf (stack : Stack) (path : String) : Answer → Except BuildError Json
  | .ok text =>
    let cs := (text.getD "").toList
    match stack.overflow? (.document cs), Json.read cs with
    | some overflow, _ => .error (.overflow overflow)
    | none, .ok document => .ok document
    | none, .error fault => .error (.unreadable path ("invalid JSON - " ++ fault.message cs))
  | .error (.os error) => .error (.unreadable path error.reasonText)
  | .error error => .error (.stopped error)

/-- Reads a document. -/
def readDocument {σ : Type} (stack : Stack) (backend : Backend σ) (path : String) (s : σ) :
    Except BuildError Json × σ :=
  let (answer, s) := backend (.read path) s
  (documentOf stack path answer, s)

/-- Reads the document at the path of an environment. Without a path, and with an empty one, there
is none. -/
def readEnvironmentAt {σ : Type} (stack : Stack) (backend : Backend σ) :
    Option String → σ → Except BuildError Json × σ
  | none, s | some "", s => (.ok .null, s)
  | some path, s => readDocument stack backend path s

/-- Builds the suite of a collection, and perhaps an environment, read from the file system. -/
def convert {σ : Type} (stack : Stack) (backend : Backend σ) (options : Options)
    (collectionPath : String) (environmentPath : Option String) (root : String) (s : σ) :
    Except BuildError Outcome × σ :=
  match readDocument stack backend collectionPath s with
  | (.error e, s) => (.error e, s)
  | (.ok collection, s) =>
    match readEnvironmentAt stack backend environmentPath s with
    | (.error e, s) => (.error e, s)
    | (.ok environment, s) =>
      let execution := build stack backend options collection environment root s
      (execution.result, execution.store)

end RequestSuite
