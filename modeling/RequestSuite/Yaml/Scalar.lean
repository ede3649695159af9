/-
What plain scalars stand for.

* `whole?`: a whole number, to base 2, 8, 10, 16 or 60;
* `fraction?`: a number with a point, an infinity, or not a number;
* `date?`: a date, perhaps with a time and its offset from universal time;
* `plainValue`: the value of a plain scalar.

Low lines between the digits of a number do not count. A scalar of no other form is a text, and so
is a date, since no option has a use for one.
-/
import RequestSuite.Decimal.Reader
import RequestSuite.Json.Value
import RequestSuite.Text.Fields
import RequestSuite.Text.Hex
import RequestSuite.Yaml.Token

namespace RequestSuite.Yaml

open Text (fields breakAt? hexValue?)

/-- The scalars for null, besides the empty one. -/
def nullWords : List String := ["~", "null", "Null", "NULL"]

/-- The scalars for true. -/
def trueWords : List String :=
  ["yes", "Yes", "YES", "true", "True", "TRUE", "on", "On", "ON"]

/-- The scalars for false. -/
def falseWords : List String :=
  ["no", "No", "NO", "false", "False", "FALSE", "off", "Off", "OFF"]

/-- Whether a text holds only digits of a base and low lines. -/
def areDigits (base : Nat) (cs : List Char) : Bool :=
  cs.all fun c => c == '_' || ((hexValue? c).map (decide <| · < base)).getD false

/-- The number that digits of a base name. -/
def digitsTo (base : Nat) (cs : List Char) : Nat :=
  (cs.filterMap hexValue?).foldl (fun n d => n * base + d) 0

/-- The number behind the mark of a base. -/
def marked? (base : Nat) (cs : List Char) : Option (Except ScalarFault Nat) :=
  if cs.isEmpty || !areDigits base cs then none
  else if cs.all (· == '_') then some (.error (.noDigits base))
  else some (.ok (digitsTo base cs))

/-- Whether a text is a number below sixty in at most two digits. -/
def isSixtieth : List Char → Bool
  | [d] => d.isDigit
  | [t, d] => '0' ≤ t && t ≤ '5' && d.isDigit
  | _ => false

/-- The number that decimal digits name, or numbers to base 60 with colons between them. -/
def sexagesimal? (cs : List Char) : Option Nat :=
  match fields (· == ':') cs with
  | [] => none
  | first :: others =>
    if (first.head?.map Char.isDigit).getD false && areDigits 10 first && others.all isSixtieth
    then some (others.foldl (fun n part => n * 60 + digitsTo 10 part) (digitsTo 10 first))
    else none

/-- The whole number that a text without sign names. Only to base 10 and 60 their length is
bounded. -/
def whole? (cs : List Char) : Option (Except ScalarFault Nat) :=
  match cs with
  | ['0'] => some (.ok 0)
  | '0' :: 'b' :: rest => marked? 2 rest
  | '0' :: 'x' :: rest => marked? 16 rest
  | '0' :: rest => if areDigits 8 rest then some (.ok (digitsTo 8 rest)) else none
  | _ =>
    let count := (cs.takeWhile (· != ':')).countP Char.isDigit
    (sexagesimal? cs).map fun n =>
      if maxDigits < count then .error (.tooManyDigits count) else .ok n

/-- The exponent of a number, of which the sign must be written. -/
def exponent? : List Char → Option Int
  | [] => some 0
  | mark :: sign :: digits =>
    if (mark == 'e' || mark == 'E') && (sign == '-' || sign == '+') && !digits.isEmpty &&
        digits.all Char.isDigit then
      some (signed (sign == '-') (digitsValue digits))
    else none
  | _ => none

/-- The greatest number of parts of a number with a point to base 60. The value of a place further
to the left is beyond the range of numbers with a point. -/
def maxParts : Nat := 174

/-- The number with a point between two texts. -/
def pointed? (negative : Bool) (before after : List Char) :
    Option (Except ScalarFault Binary64) :=
  let digits := after.takeWhile fun c => c.isDigit || c == '_'
  let rest := after.dropWhile fun c => c.isDigit || c == '_'
  match sexagesimal? before, exponent? rest with
  | some whole, some e =>
    if before.contains ':' && !rest.isEmpty then none
    else if maxParts < (fields (· == ':') before).length then some (.error .tooManyParts)
    else
      let places := digits.filter Char.isDigit
      some <| .ok <|
        .ofDecimal negative (digitsValue (Nat.toDigits 10 whole ++ places)) (e - places.length)
  | _, _ => none

/-- The number that a text with a point names. A number that starts with the point has no sign,
unless it is an infinity. -/
def fraction? (cs : List Char) : Option (Except ScalarFault Binary64) :=
  let (negative, rest) := takeSign cs
  match rest with
  | '.' :: after =>
    let word := String.ofList after
    if word = "inf" || word = "Inf" || word = "INF" then some (.ok (.infinite negative))
    else if rest != cs then none
    else if word = "nan" || word = "NaN" || word = "NAN" then some (.ok .nan)
    else if (after.head?.map Char.isDigit).getD false then pointed? false ['0'] after
    else none
  | _ => (breakAt? '.' rest).bind fun (before, after) => pointed? negative before after

/-- Reads a number of `least` to two digits. -/
def takeShort? (least : Nat) (cs : List Char) : Option (Nat × List Char) :=
  let digits := (cs.take 2).takeWhile Char.isDigit
  if digits.length < least then none else some (digitsValue digits, cs.drop digits.length)

/-- Reads a character. -/
def takeMark? (mark : Char) : List Char → Option (List Char)
  | c :: cs => if c = mark then some cs else none
  | [] => none

/-- The offset from universal time, in minutes, that a text gives, perhaps after white space. The
empty text gives none. -/
def offset? (cs : List Char) : Option Int :=
  match cs.dropWhile fun c => c == ' ' || c == '\t' with
  | [] => if cs.isEmpty then some 0 else none
  | ['Z'] => some 0
  | sign :: rest =>
    if sign == '+' || sign == '-' then
      match takeShort? 1 rest with
      | some (hours, []) => some (signed (sign == '-') (hours * 60))
      | some (hours, ':' :: rest) =>
        match takeShort? 2 rest with
        | some (minutes, []) => some (signed (sign == '-') (hours * 60 + minutes))
        | _ => none
      | _ => none
    else none

/-- A time of day, as it is written, and its offset from universal time in minutes. -/
structure TimeOfDay where
  hour : Nat
  minute : Nat
  second : Nat
  offset : Int

/-- The time of day that a text gives. -/
def time? (cs : List Char) : Option TimeOfDay := do
  let (hour, rest) ← takeShort? 1 cs
  let (minute, rest) ← takeShort? 2 (← takeMark? ':' rest)
  let (second, rest) ← takeShort? 2 (← takeMark? ':' rest)
  let rest := match rest with
    | '.' :: rest => rest.dropWhile Char.isDigit
    | rest => rest
  return { hour, minute, second, offset := ← offset? rest }

/-- The time of day that follows a date, after a `T` or white space. -/
def timeAfter? : List Char → Option TimeOfDay
  | c :: cs =>
    if c == 'T' || c == 't' then time? cs
    else if c == ' ' || c == '\t' then time? (cs.dropWhile fun c => c == ' ' || c == '\t')
    else none
  | [] => none

/-- The number of days of a month. -/
def monthLength (year month : Nat) : Nat :=
  if month = 2 then
    if year % 4 = 0 && (year % 100 != 0 || year % 400 = 0) then 29 else 28
  else if [4, 6, 9, 11].contains month then 30
  else 31

/-- What is wrong with a date. -/
def dateFault? (year month day : Nat) : Option ScalarFault :=
  if year = 0 then some (.yearRange year)
  else if month = 0 || 12 < month then some .monthRange
  else if day = 0 || monthLength year month < day then some .dayRange
  else none

/-- What is wrong with the hour, minute or second of a time of day. -/
def timeFault? (time : TimeOfDay) : Option ScalarFault :=
  if 23 < time.hour then some .hourRange
  else if 59 < time.minute then some .minuteRange
  else if 59 < time.second then some .secondRange
  else none

/-- What is wrong with an offset from universal time: it has to be less than a day. -/
def offsetFault? (minutes : Int) : Option ScalarFault :=
  if 1440 ≤ minutes.natAbs then some (.offsetRange minutes) else none

/-- Whether a text is a date and what is wrong with it, if anything; the offset is looked at first.
Without a time a date has two digits for the month and the day. -/
def date? (cs : List Char) : Option (Option ScalarFault) := do
  let year := cs.take 4
  if year.length < 4 || !year.all Char.isDigit then none
  let (month, rest) ← takeShort? 1 (← takeMark? '-' (cs.drop 4))
  let (day, rest) ← takeShort? 1 (← takeMark? '-' rest)
  let fault := dateFault? (digitsValue year) month day
  if rest.isEmpty then if cs.length = 10 then some fault else none
  else
    let time ← timeAfter? rest
    some <| (offsetFault? time.offset).orElse fun _ => fault.orElse fun _ => timeFault? time

/-- The value of a plain scalar. The marks `<<` and `=` stand for none. -/
def plainValue (cs : List Char) : Except Fault Json :=
  let text := String.ofList cs
  let (negative, rest) := takeSign cs
  if cs.isEmpty || nullWords.contains text then .ok .null
  else if trueWords.contains text then .ok (.bool true)
  else if falseWords.contains text then .ok (.bool false)
  else if text = "<<" || text = "=" then .error .markNotValue
  else
    match fraction? cs, whole? rest, date? cs with
    | some x, _, _ => (x.map .float).mapError .scalar
    | none, some n, _ => (n.map fun n => .int (signed negative n)).mapError .scalar
    | none, none, some (some fault) => .error (.scalar fault)
    | none, none, _ => .ok (.str text)

end RequestSuite.Yaml
