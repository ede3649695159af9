/-
What a build does, worked out before anything is written.

* `Warning`: everything a build can warn of;
* `Step`: a call on the file system, and the request it is for;
* `Outline`, `outline`: the calls of a build in order, and what is reported if all succeed.
-/
import RequestSuite.Build.Options
import RequestSuite.Collection.BaseUrl
import RequestSuite.Collection.Check
import RequestSuite.Collection.Reading
import RequestSuite.Layout.Plan
import RequestSuite.Store.Backend
import RequestSuite.Store.Path
import RequestSuite.Suite.TestFile

namespace RequestSuite

/-- What a build can warn of. -/
inductive Warning
  | document (warning : DocumentWarning)
  | reading (warning : ReadingWarning)
  | noBaseUrl
  | collision (collision : Layout.Collision)
  deriving DecidableEq, Repr

/-- What a warning says. -/
def Warning.message : Warning → String
  | .document w => w.message
  | .reading w => w.message
  | .noBaseUrl => noBaseUrlMessage
  | .collision c => c.message

/-- A call on the file system. The call that writes a test file carries the name of its request. -/
structure Step where
  call : Call
  request : Option String := none
  deriving DecidableEq, Repr

/-- What a build reports when it has succeeded. -/
structure Outcome where
  files : Nat
  folders : Nat
  baseUrl : String
  environment : Option Variables
  warnings : List Warning
  /-- The number of requests whose script no rule has changed. -/
  fallbacks : Nat
  /-- The paths of all files in the order in which they were written. -/
  written : List String
  deriving DecidableEq, Repr

/-- The calls of a build, and its report. -/
structure Outline where
  /-- The root directory and the shared module. -/
  opening : List Step
  /-- The directories and the test files. -/
  files : List Step
  /-- What is said if the stack has no room for what is to follow these calls. -/
  obstacle : Option Overflow
  outcome : Outcome
  deriving Repr

/-- The adaptation of a request's script. -/
def adaptationOf (request : Request) : Script.Adaptation :=
  Script.adapt (request.script.map String.toList)

/-- The base URL of a collection, and the warning that no request names a host. -/
def baseUrlOf (collection : Collection) : String × List Warning :=
  match baseUrl? collection.requests with
  | some url => (url, [])
  | none => (defaultBaseUrl, [.noBaseUrl])

/-- The path of the shared module. -/
def setupPath (root : FilePath) : String := (root.join [Suite.setupFileName]).text

/-- The path of an entry's file. -/
def entryPath (root : FilePath) (entry : Layout.Entry) : String :=
  (root.join (entry.directory ++ [Layout.fileName entry.request.name])).text

/-- The text of an entry's file. -/
def entryText (options : Options) (entry : Layout.Entry) : String :=
  Suite.testText options.enhanced entry.request entry.depth entry.parent
    (adaptationOf entry.request)

/-- The steps that create the root and write the shared module. -/
def openingSteps (options : Options) (root : FilePath) (baseUrl : String)
    (environment : Option Variables) : List Step :=
  ⟨.mkdir root.text, none⟩ ::
    if options.emitSetup then
      [⟨.write (setupPath root) (Suite.setupText baseUrl environment options.enhanced), none⟩]
    else []

/-- What is said if there is no room on the stack for an entry's file. -/
def entryOverflow? (stack : Stack) (entry : Layout.Entry) : Option Overflow :=
  Suite.testOverflow? stack entry.request (adaptationOf entry.request)

/-- The entries of a plan before the first for which there is no room on the stack. -/
def writable (stack : Stack) (plan : Layout.Plan) : List Layout.Entry :=
  plan.entries.takeWhile fun entry => (entryOverflow? stack entry).isNone

/-- The steps that create the directories of a plan and write its files, up to the first entry that
cannot be written. -/
def fileSteps (stack : Stack) (options : Options) (root : FilePath) (plan : Layout.Plan) :
    List Step :=
  plan.directories.map (fun directory => ⟨.mkdir (root.join directory).text, none⟩) ++
    (writable stack plan).map fun entry =>
      ⟨.write (entryPath root entry) (entryText options entry), some entry.request.name⟩

/-- Works out a build from documents that have passed their checks. There may be no room on the
stack to lay out its files, or for one of them. -/
def outline (stack : Stack) (options : Options) (collection environment : Json)
    (root : FilePath) : Outline :=
  let (c, readingWarnings) := readCollection collection
  let bindings := mergeEnvironment environment c.bindings
  let (baseUrl, urlWarnings) := baseUrlOf c
  let plan := Layout.plan options.flatten c.children
  let unplanned := stack.overflow? (.layout collection)
  { opening := openingSteps options root baseUrl bindings
    files := if unplanned.isSome then [] else fileSteps stack options root plan
    obstacle := unplanned.or (plan.entries.findSome? (entryOverflow? stack))
    outcome :=
      { files := plan.entries.length
        folders := plan.folders
        baseUrl
        environment := bindings
        warnings :=
          (checkCollection collection).warnings.map .document ++
            (checkEnvironment environment).warnings.map .document ++
            readingWarnings.map .reading ++ urlWarnings ++ plan.collisions.map .collision
        fallbacks := plan.entries.countP fun entry => (adaptationOf entry.request).fellBack
        written :=
          (if options.emitSetup then [setupPath root] else []) ++
            plan.entries.map (entryPath root) } }

end RequestSuite
