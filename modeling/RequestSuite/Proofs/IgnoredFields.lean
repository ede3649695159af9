/-
Fields of an item that are there and cannot be read.

* `Field`: the fields whose type decides whether they are read; `Field.value` is what an item holds
  in one, `Field.reads` the types that are read;
* `Field.ignored`: a field is there, not null, and of another type;
* `Field.warning?`: what is said of an ignored field. Nothing is said of headers and of events;
* `warnings_readScript`, `warnings_readBody`, `warnings_readRequest`: the reading of a request warns
  of its ignored fields, in order, as far as anything is said of them.
-/
import RequestSuite.Collection.Reading
import Mathlib.Tactic

namespace RequestSuite

/-- The events of an item: those under `event`, or those under `events` if there is nothing there.
-/
def Json.eventList (item : Json) : Json :=
  if (item.member "event").isNull then item.member "events" else item.member "event"

/-- The first event of an item that is one of its tests, or null. -/
def Json.testEvent (item : Json) : Json :=
  ((item.eventList.items?.getD []).find? isTestEvent).getD .null

/-- A field of an item that is read only if it has the right type. -/
inductive Field
  | events
  | script
  | lines
  | header
  | body
  | rawBody
  deriving DecidableEq, Repr

/-- What an item holds in a field. It is null where the item lacks the field or what is around
it. -/
def Field.value (item : Json) : Field → Json
  | .events => item.eventList
  | .script => item.testEvent.member "script"
  | .lines => (item.testEvent.member "script").member "exec"
  | .header => (item.member "request").member "header"
  | .body => (item.member "request").member "body"
  | .rawBody => ((item.member "request").member "body").member "raw"

/-- Whether a value is of a type that is read in a field. -/
def Field.reads (field : Field) (value : Json) : Bool :=
  match field with
  | .events | .header => value.items?.isSome
  | .script | .body => value.isObject
  | .lines => value.items?.isSome || value.str?.isSome
  | .rawBody => value.str?.isSome

/-- Whether a value is there, but of a type that is not read in a field. -/
def Field.refuses (field : Field) (value : Json) : Bool := !value.isNull && !field.reads value

/-- Whether a field of an item is ignored for its type. -/
def Field.ignored (item : Json) (field : Field) : Bool := field.refuses (field.value item)

/-- What is said of an ignored field. Headers and events are ignored in silence. -/
def Field.warning? (place : String) : Field → Option ReadingWarning
  | .events | .header => none
  | .script => some (.scriptType place)
  | .lines => some (.linesType place)
  | .body => some (.bodyType place)
  | .rawBody => some (.rawType place)

/-- The warnings about the ignored ones among some fields of an item. -/
def fieldWarnings (place : String) (item : Json) (fields : List Field) : List ReadingWarning :=
  (fields.filter (Field.ignored item)).filterMap (Field.warning? place)

/-- All fields, in the order in which an item is read. -/
def Field.all : List Field := [.events, .script, .lines, .header, .body, .rawBody]

lemma Field.mem_all (field : Field) : field ∈ Field.all := by
  cases field <;> decide

variable (name place : String) (item : Json)

/-- The first field of a list adds its warning if it is ignored. -/
lemma fieldWarnings_cons (field : Field) (fields : List Field) :
    fieldWarnings place item (field :: fields) =
      (if field.refuses (field.value item) then (field.warning? place).toList else []) ++
        fieldWarnings place item fields := by
  rw [fieldWarnings, List.filter_cons, Field.ignored]
  split_ifs
  · rw [List.filterMap_cons]
    cases field.warning? place <;> rfl
  · rfl

lemma fieldWarnings_silent {field : Field} {fields : List Field}
    (h : field.warning? place = none) :
    fieldWarnings place item (field :: fields) = fieldWarnings place item fields := by
  rw [fieldWarnings_cons, h, Option.toList_none, ite_self, List.nil_append]

/-- The warnings about an item's script. A script that is no object has no lines. -/
lemma warnings_readScript :
    (readScript place item).2 = fieldWarnings place item [.events, .script, .lines] := by
  rw [fieldWarnings_silent place item rfl]
  rw [fieldWarnings_cons, fieldWarnings_cons, Field.value, Field.value]
  rw [readScript, Json.testEvent, Json.eventList]
  rcases List.find? isTestEvent _ with _ | event
  · rfl
  · rw [Option.getD_some]
    dsimp only
    generalize event.member "script" = script
    cases script with
    | obj fields =>
        show (readLines place ((Json.obj fields).member "exec")).2 = _
        generalize (Json.obj fields).member "exec" = lines
        cases lines <;> rfl
    | _ => rfl

/-- The warnings about the body of an item's request. A body that is no object has no raw text. -/
lemma warnings_readBody :
    (readBody place ((item.member "request").member "body")).2 =
      fieldWarnings place item [.header, .body, .rawBody] := by
  rw [fieldWarnings_silent place item rfl]
  rw [fieldWarnings_cons, fieldWarnings_cons, Field.value, Field.value]
  generalize (item.member "request").member "body" = body
  cases body with
  | obj fields =>
      rw [readBody]
      generalize (Json.obj fields).member "raw" = raw
      cases raw <;> rfl
  | _ => rfl

/-- Whether an item's request is a text or an object. -/
def Json.hasRequest (item : Json) : Bool :=
  (item.member "request").str?.isSome || (item.member "request").isObject

lemma isNull_of_hasRequest {item : Json} (h : item.hasRequest = true) :
    (item.member "request").isNull = false := by
  unfold Json.hasRequest at h
  generalize item.member "request" = request at h ⊢
  cases request <;> first | rfl | cases h

/-- The warnings about an item with a request: those about its fields, and the last one if the
request itself is of the wrong type. A request that is no object has no fields. -/
lemma warnings_readRequest :
    (readRequest name place item).2 = fieldWarnings place item Field.all ++
      if item.hasRequest then [] else [.requestType place] := by
  have hsplit : fieldWarnings place item Field.all =
      (readScript place item).2 ++ (readBody place ((item.member "request").member "body")).2 := by
    rw [warnings_readScript, warnings_readBody, fieldWarnings, fieldWarnings, fieldWarnings,
      ← List.filterMap_append, ← List.filter_append]
    rfl
  rw [hsplit, readRequest, Json.hasRequest]
  cases hrequest : item.member "request" <;>
    simp [Json.member, readBody, Json.str?, Json.isObject]

end RequestSuite
