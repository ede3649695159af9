/-
The path that a generated request asks for.

* `dropAuthority`: a URL without scheme and authority, read leniently;
* `requestPath`: path and query of a URL that names a host, and otherwise the first part of the URL
  that looks like a path.
-/
import RequestSuite.Text.Word
import RequestSuite.Url.Split

namespace RequestSuite.Url

open Text (isWord trimStart)

/-- The characters of a scheme, read leniently, after its first letter. -/
def isLenientSchemeChar (c : Char) : Bool := isWord c || c == '+' || c == '.' || c == '-'

/-- A URL without its scheme, the slashes after it and the authority, whatever that may hold, or
the URL itself if it does not start with these. -/
def dropAuthority (url : List Char) : List Char :=
  match trimStart url with
  | c :: cs =>
    if c.isAlpha then
      match cs.dropWhile isLenientSchemeChar with
      | ':' :: '/' :: '/' :: rest => rest.dropWhile fun c => !endsAuthority c
      | _ => url
    else url
  | [] => url

/-- The first part of a URL that starts with a slash, up to its query or fragment. -/
def firstPath (url : List Char) : List Char :=
  match url.dropWhile (· != '/') with
  | [] => ['/']
  | rest => rest.takeWhile fun c => c != '?' && c != '#'

/-- The path and query of a URL. A URL that names no host is searched for its first path, past the
authority if it has one, and `/` stands for a path that is not found. -/
def requestPath (url : List Char) : List Char :=
  match splitAbsolute? url with
  | some parts =>
    let path := if parts.path.isEmpty then ['/'] else parts.path
    if parts.query.isEmpty then path else path ++ '?' :: parts.query
  | none => firstPath (dropAuthority url)

end RequestSuite.Url
