/-
URLs of documents, written as one text or in parts.

* `queryText`: the enabled parameters of a query;
* `urlText`: the text of a URL.
-/
import RequestSuite.Collection.Scalar

namespace RequestSuite

/-- Some texts with a separator between each two. -/
def joinTexts (sep : String) (items : List Json) : String :=
  String.intercalate sep (items.map Json.text)

/-- The parameter of a query entry, if it has a key and is not disabled. -/
def queryPair? (entry : Json) : Option String :=
  if entry.isObject && (entry.member "key").truthy && !(entry.member "disabled").isOn then
    some ((entry.member "key").text ++ "=" ++ (entry.member "value").text)
  else none

/-- The parameters of a query, which must be a list. -/
def queryText (query : Json) : String :=
  String.intercalate "&" ((query.items?.getD []).filterMap queryPair?)

/-- The host of a URL: labels with points between them, or one text. -/
def hostText (host : Json) : String :=
  match host with
  | .arr labels => joinTexts "." labels
  | _ => if host.truthy then host.text else ""

/-- The path of a URL: segments with slashes between them, or one text without the slashes at its
start. -/
def pathText (path : Json) : String :=
  match path with
  | .arr segments => joinTexts "/" segments
  | _ => if path.truthy then String.ofList (path.text.toList.dropWhile (· == '/')) else ""

/-- The text of a URL given in parts. -/
def partsText (url : Json) : String :=
  let host := hostText (url.member "host")
  let path := pathText (url.member "path")
  let query := queryText (url.member "query")
  let origin :=
    if (url.member "protocol").truthy then (url.member "protocol").text ++ "://" ++ host else host
  let location := if path = "" then origin else origin ++ "/" ++ path
  if query = "" then location else location ++ "?" ++ query

/-- The text of a URL. Parts are put together only where no raw text stands beside them. -/
def urlText (url : Json) : String :=
  if url.isObject then
    if (url.member "raw").truthy then (url.member "raw").text else partsText url
  else url.text

end RequestSuite
