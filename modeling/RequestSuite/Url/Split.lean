/-
URLs taken apart.

* `UrlParts`: scheme, authority, path, query and fragment;
* `Url.split?`: the parts of a URL, absolute or not, unless its authority is malformed;
* `Url.splitAbsolute?`: the parts of a URL that names a host;
* `Url.takeAuthority_append`: nothing is lost where the authority is cut off.
-/
import RequestSuite.Text.Fields
import RequestSuite.Url.Address

namespace RequestSuite

/-- The parts of a URL. -/
structure UrlParts where
  scheme : List Char := []
  authority : List Char := []
  path : List Char := []
  query : List Char := []
  fragment : List Char := []
  deriving DecidableEq, Repr

namespace Url

open Text (breakAt? breakAtLast? trim)

/-- Spaces and control characters do not count at the start of a URL. -/
def isLeadingJunk (c : Char) : Bool := c.toNat ≤ 0x20

/-- Tabs and line breaks do not count anywhere in a URL. -/
def isIgnored (c : Char) : Bool := c == '\t' || c == '\r' || c == '\n'

/-- The characters of a scheme after its first letter. -/
def isSchemeChar (c : Char) : Bool := c.isAlphanum || c == '+' || c == '-' || c == '.'

/-- The scheme before the first colon, in lower case, and the rest. A URL whose first colon follows
no scheme has none. -/
def takeScheme (url : List Char) : List Char × List Char :=
  match breakAt? ':' url with
  | some (scheme, rest) =>
    if (scheme.head?.map Char.isAlpha).getD false && scheme.all isSchemeChar then
      (scheme.map Char.toLower, rest)
    else ([], url)
  | none => ([], url)

/-- The characters that end an authority. -/
def endsAuthority (c : Char) : Bool := c == '/' || c == '?' || c == '#'

/-- The authority after two slashes, and the rest. -/
def takeAuthority (url : List Char) : List Char × List Char :=
  match url with
  | '/' :: '/' :: rest =>
    (rest.takeWhile fun c => !endsAuthority c, rest.dropWhile fun c => !endsAuthority c)
  | _ => ([], url)

/-- Whether the brackets of an authority stand around a well-formed host, with nothing before them
and nothing after them that does not start with a colon. -/
def bracketsFit (authority : List Char) : Bool :=
  if authority.contains '[' && authority.contains ']' then
    let hostAndPort := match breakAtLast? '@' authority with
      | some (_, after) => after
      | none => authority
    match breakAt? '[' hostAndPort with
    | some (before, inside) =>
      let (host, after) := (breakAt? ']' inside).getD (inside, [])
      before.isEmpty && (after.isEmpty || after.head? == some ':') && isBracketed host
    | none =>
      let (host, _) := (breakAt? ':' hostAndPort).getD (hostAndPort, [])
      isBracketed host
  else !authority.contains '[' && !authority.contains ']'

/-- Code points whose compatibility form holds one of the characters `/ ? # @ :`, as of
Unicode 14. -/
def delimiterLookalikes : List Nat :=
  [0x2047, 0x2048, 0x2049, 0x2100, 0x2101, 0x2105, 0x2106, 0x2a74, 0xfe13, 0xfe16, 0xfe55, 0xfe56,
    0xfe5f, 0xfe6b, 0xff03, 0xff0f, 0xff1a, 0xff1f, 0xff20]

/-- Whether an authority holds no character that normalisation turns into a delimiter. -/
def normalisesSafely (authority : List Char) : Bool :=
  authority.all fun c => !delimiterLookalikes.contains c.toNat

/-- The parts of a URL, unless its authority is malformed. -/
def split? (url : List Char) : Option UrlParts :=
  let url := (url.dropWhile isLeadingJunk).filter fun c => !isIgnored c
  let (scheme, rest) := takeScheme url
  let (authority, rest) := takeAuthority rest
  if bracketsFit authority && normalisesSafely authority then
    let (rest, fragment) := (breakAt? '#' rest).getD (rest, [])
    let (path, query) := (breakAt? '?' rest).getD (rest, [])
    some ⟨scheme, authority, path, query, fragment⟩
  else none

/-- Whether a text holds two of a character in a row. -/
def hasDouble (d : Char) : List Char → Bool
  | c :: c' :: cs => (c == d && c' == d) || hasDouble d (c' :: cs)
  | _ => false

/-- The parts of a URL that has a scheme and a host, and no unfilled variable in its authority. -/
def splitAbsolute? (url : List Char) : Option UrlParts :=
  match split? (trim url) with
  | some parts =>
    if parts.scheme.isEmpty || parts.authority.isEmpty || hasDouble '\x7b' parts.authority ||
        hasDouble '\x7d' parts.authority then none
    else some parts
  | none => none

theorem takeAuthority_append (rest : List Char) :
    (takeAuthority ('/' :: '/' :: rest)).1 ++ (takeAuthority ('/' :: '/' :: rest)).2 = rest := by
  simp [takeAuthority, List.takeWhile_append_dropWhile]

end Url

end RequestSuite
