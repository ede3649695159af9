/-
Variables of collections and environments.

* `namedValue?`: the name and value of a usable entry;
* `readVariables`: the variables of a list of entries, the last value of each name;
* `readEnvironment`, `mergeEnvironment`: the variables of an environment, alone and laid over
  those of a collection.
-/
import RequestSuite.Collection.Basic
import RequestSuite.Collection.Scalar

namespace RequestSuite

/-- The name and value of an entry, if it is an object with a key, and with a value that is neither
null nor the empty text. -/
def namedValue? (entry : Json) : Option (String × String) :=
  let value := entry.member "value"
  if entry.isObject && (entry.member "key").truthy && !value.isNull && value.str? != some "" then
    some ((entry.member "key").text, value.text)
  else none

/-- The variables of a list of entries. -/
def readVariables (entries : Json) : Variables :=
  Keyed.ofList ((entries.items?.getD []).filterMap namedValue?)

/-- The variables of an environment document, unless it is null. -/
def readEnvironment (document : Json) : Option Variables :=
  if document.isNull then none else some (readVariables (document.member "values"))

/-- The variables of a collection with those of an environment put over them, unless there is no
environment. -/
def mergeEnvironment (document : Json) (bindings : Variables) : Option Variables :=
  (readEnvironment document).map fun environment => Keyed.putAll environment bindings

end RequestSuite
