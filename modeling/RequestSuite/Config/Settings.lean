/-
The settings of the program, made from the environment and a file of variables.

* `Settings`: where the output goes, what is logged, and how often calls are made again;
* `settingOf?`: the value of a setting, the environment before the file;
* `Settings.read`: all settings, or all that is wrong with them.
-/
import RequestSuite.Config.VariableFile
import RequestSuite.Shape.Field
import RequestSuite.Store.Retry
import RequestSuite.Text.Lower

namespace RequestSuite.Config

open Text (lower)

/-- The settings of the program. -/
structure Settings where
  outputDirectory : String := "./test"
  logLevel : String := "INFO"
  logFile : Option String := none
  retry : RetryPolicy := {}
  deriving Repr

/-- The start of the names of all variables that are settings. -/
def settingsPrefix : String := "PM_"

/-- The first value of a name, in whatever case it is written. -/
def valueOf? {α : Type} (name : String) (bindings : Keyed α) : Option α :=
  (bindings.find? fun v => lower v.1.toList == lower name.toList).map Prod.snd

/-- The value of a setting. Of several spellings of its name the first counts in the environment and
the last in the file. -/
def settingOf? (environment : Keyed String) (file : Keyed (Option String)) (name : String) :
    Option String :=
  let name := settingsPrefix ++ name
  (valueOf? name environment).orElse fun _ => (valueOf? name file.reverse).join

/-- A number of seconds, which is at least zero. -/
def seconds : Shape.Reader Binary64
  | .str s =>
    match Shape.floatOfText? s.toList with
    | some x => if x.isNaN || x.lt (.zero false) then .fault .greaterThanEqual else .ok x
    | none => .fault .floatParsing
  | _ => .fault .floatParsing

/-- The names of the settings. -/
def settingNames : List String :=
  ["OUTPUT_DIR", "LOG_LEVEL", "LOG_FILE", "FS_MAX_RETRIES", "FS_RETRY_BASE_DELAY_S",
    "FS_RETRY_MAX_DELAY_S"]

/-- The settings that the environment and a file of variables make. -/
def Settings.read (environment : Keyed String) (file : Keyed (Option String)) : Shaped Settings :=
  let defaults : Settings := {}
  let setting {α : Type} (name : String) (default : α) (reader : Shape.Reader α) : Shaped α :=
    match settingOf? environment file name with
    | some value => .below name (reader (.str value))
    | none => .ok default
  (Shaped.both (setting "OUTPUT_DIR" defaults.outputDirectory Shape.text)
    (Shaped.both (setting "LOG_LEVEL" defaults.logLevel Shape.text)
      (Shaped.both (setting "LOG_FILE" defaults.logFile (Shape.nullable Shape.text))
        (Shaped.both (setting "FS_MAX_RETRIES" 3 Shape.natural)
          (Shaped.both (setting "FS_RETRY_BASE_DELAY_S" defaults.retry.baseDelay seconds)
            (setting "FS_RETRY_MAX_DELAY_S" defaults.retry.maxDelay seconds)))))).map
    fun (outputDirectory, logLevel, logFile, maxRetries, baseDelay, maxDelay) =>
      { outputDirectory, logLevel, logFile, retry := { maxRetries, baseDelay, maxDelay } }

end RequestSuite.Config
