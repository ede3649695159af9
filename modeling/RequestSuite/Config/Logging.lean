/-
What is logged, and where to.

* `LevelFault`: the names that are known and yet name no level;
* `levelOf`: the level of a name;
* `Disk.openLog`: the file for the log.
-/
import RequestSuite.Store.Disk
import RequestSuite.Text.Quoted

namespace RequestSuite

/-- A letter in upper case, as far as the names of levels have it. -/
def upperLetter (c : Char) : Char :=
  if c = 'ı' then 'I' else if c = 'ſ' then 'S' else c.toUpper

/-- The names of levels. Less is logged at a higher number. -/
def levels : List (String × Nat) :=
  [("CRITICAL", 50), ("FATAL", 50), ("ERROR", 40), ("WARNING", 30), ("WARN", 30), ("INFO", 20),
    ("DEBUG", 10), ("NOTSET", 0)]

/-- The level where a name is unknown. -/
def defaultLevel : Nat := 20

/-- Names that are known and yet name no level. -/
inductive LevelFault
  /-- The layout of a line of the log. -/
  | layout
  /-- The styles in which a layout can be written. -/
  | styles
  deriving DecidableEq, Repr

/-- The layout of a line of the log. -/
def lineLayout : String := "%(levelname)s:%(name)s:%(message)s"

/-- The styles in which a layout can be written: the mark, the name and the layout of each. -/
def layoutStyles : List (String × String × String) :=
  [("%", "PercentStyle", lineLayout),
    ("\x7b", "StrFormatStyle", "\x7blevelname\x7d:\x7bname\x7d:\x7bmessage\x7d"),
    ("$", "StringTemplateStyle", "$\x7blevelname\x7d:$\x7bname\x7d:$\x7bmessage\x7d")]

/-- A style and its layout. -/
def styleText : String × String × String → String
  | (mark, name, layout) =>
    Text.quoted mark ++ ": (<class 'logging." ++ name ++ "'>, " ++ Text.quoted layout ++ ")"

/-- What is said of a name that names no level. -/
def LevelFault.message : LevelFault → String
  | .layout => "Unknown level: " ++ Text.quoted lineLayout
  | .styles =>
    "Level not an integer or a valid string: \x7b" ++
      String.intercalate ", " (layoutStyles.map styleText) ++ "\x7d"

/-- The level of a name in any case. -/
def levelOf (name : String) : Except LevelFault Nat :=
  let name := String.ofList (name.toList.map upperLetter)
  if name = "BASIC_FORMAT" then .error .layout
  else if name = "_STYLES" then .error .styles
  else .ok ((levels.lookup name).getD defaultLevel)

/-- Creates the file for the log, and the directories that lead to it, unless they are there. -/
def Disk.openLog (disk : Disk) (path : FilePath) : Disk.Change :=
  match disk.ensureDirectory path.parent with
  | (none, disk) =>
    match disk.lookup? path with
    | some (.file _) | some (.binary _) => (none, disk)
    | _ => disk.putFile path ""
  | failed => failed

end RequestSuite
