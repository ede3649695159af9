/-
The tokens of YAML, and what can be wrong with a text.

* `ScalarFault`: the ways in which a scalar stands for no value, and what is said of them;
* `Fault`: the ways in which a text fails to be read;
* `Token`: the marks and scalars of a text, with the starts and ends of blocks that its indentation
  stands for.
-/
import RequestSuite.Decimal.Reader

namespace RequestSuite.Yaml

/-- Scalars that have the form of a value but stand for none. -/
inductive ScalarFault
  /-- A number without digits, in some base. -/
  | noDigits (base : Nat)
  | tooManyDigits (count : Nat)
  /-- A number with a point and more parts to base 60 than are read. -/
  | tooManyParts
  | yearRange (year : Nat)
  | monthRange
  | dayRange
  | hourRange
  | minuteRange
  | secondRange
  /-- An offset of a day or more from universal time. -/
  | offsetRange (minutes : Int)
  /-- A number in an escape that belongs to no character. -/
  | noCharacter
  /-- A number in an escape that has more than 31 bits. -/
  | codeTooLarge
  deriving DecidableEq, Repr

/-- A length of time in days and, unless there are none left, seconds of the last day. -/
def durationText (minutes : Int) : String :=
  let days := "days=" ++ toString (minutes.fdiv 1440)
  let seconds := minutes.fmod 1440 * 60
  if seconds = 0 then days else days ++ ", seconds=" ++ toString seconds

/-- What is said of a scalar that stands for no value. -/
def ScalarFault.message : ScalarFault → String
  | .noDigits base => "invalid literal for int() with base " ++ toString base ++ ": ''"
  | .tooManyDigits count => digitsMessage count
  | .tooManyParts => "int too large to convert to float"
  | .yearRange year => "year " ++ toString year ++ " is out of range"
  | .monthRange => "month must be in 1..12"
  | .dayRange => "day is out of range for month"
  | .hourRange => "hour must be in 0..23"
  | .minuteRange => "minute must be in 0..59"
  | .secondRange => "second must be in 0..59"
  | .offsetRange minutes =>
    "offset must be a timedelta strictly between -timedelta(hours=24) and timedelta(hours=24), " ++
      "not datetime.timedelta(" ++ durationText minutes ++ ")."
  | .noCharacter => "chr() arg not in range(0x110000)"
  | .codeTooLarge => "Python int too large to convert to C int"

/-- Whether a scalar stands for no value because of its size, and not because of its form. -/
def ScalarFault.isOverflow : ScalarFault → Bool
  | .tooManyParts | .codeTooLarge => true
  | _ => false

/-- The ways in which a text fails to be read. -/
inductive Fault
  | unprintable
  | unexpectedCharacter
  | unclosedQuote
  | badEscape
  | badBlockHeader
  /-- A line in a block mapping is no key. -/
  | keyUnfinished
  | entryMisplaced
  | keyMisplaced
  | valueMisplaced
  /-- A token fits nowhere. -/
  | unexpectedToken
  | severalDocuments
  /-- A list or mapping is used as a key. -/
  | keyNotScalar
  /-- A merge key whose value is neither a map nor a list of maps. -/
  | mergeNotMap
  /-- A merge key or an equals sign where a value has to stand. -/
  | markNotValue
  /-- An anchor, an alias, a tag or a directive. -/
  | unsupported
  | scalar (fault : ScalarFault)
  deriving DecidableEq, Repr

/-- A token. -/
inductive Token
  | documentStart
  | documentEnd
  | blockList
  | blockMap
  | blockEnd
  | flowList
  | flowListEnd
  | flowMap
  | flowMapEnd
  /-- The mark `-` before an entry of a block list. -/
  | entry
  /-- The comma between entries of a flow list or map. -/
  | comma
  | key
  | value
  /-- A scalar. Only one without quotes can be anything but a text. -/
  | scalar (text : List Char) (plain : Bool)
  /-- Text that cannot be read; no token follows it. -/
  | unreadable (fault : Fault)
  deriving DecidableEq, Repr

end RequestSuite.Yaml
