/-
Addresses in brackets: what may stand between `[` and `]` as the host of a URL.

* `isV4`: four numbers below 256 with points between them;
* `isV6`: eight groups of hexadecimal digits, a run of zero groups left out at `::`, the last two
  groups perhaps as a four-number address, and perhaps a zone after `%`;
* `isFuture`: a version after `v`, and an address after a point;
* `isBracketed`: the addresses that may stand in brackets.
-/
import RequestSuite.Text.Fields
import RequestSuite.Text.Hex

namespace RequestSuite.Url

open Text (fields breakAt? hexValue?)

/-- A number below 256 without a leading zero. -/
def isOctet (cs : List Char) : Bool :=
  !cs.isEmpty && cs.length ≤ 3 && cs.all Char.isDigit && (cs == ['0'] || cs.head? != some '0') &&
    cs.foldl (fun n c => n * 10 + (c.toNat - 48)) 0 ≤ 255

/-- Four numbers below 256 with points between them. -/
def isV4 (cs : List Char) : Bool :=
  let octets := fields (· == '.') cs
  octets.length == 4 && octets.all isOctet

/-- One to four hexadecimal digits. -/
def isGroup (cs : List Char) : Bool :=
  !cs.isEmpty && cs.length ≤ 4 && cs.all fun c => (hexValue? c).isSome

/-- The groups of an address, with two groups in place of a four-number address at the end, if
that is well formed. -/
def expandTail? (groups : List (List Char)) : Option (List (List Char)) :=
  match groups.getLast? with
  | some tail =>
    if tail.contains '.' then
      if isV4 tail then some (groups.dropLast ++ [['0'], ['0']]) else none
    else some groups
  | none => some groups

/-- Groups with none left out. -/
def isFull (groups : List (List Char)) : Bool := groups.length == 8 && groups.all isGroup

/-- Groups with a run of zero groups left out at position `skip`. An empty group at either end
must belong to that run. -/
def isShortened (groups : List (List Char)) (skip : Nat) : Bool :=
  let before := groups.take skip
  let after := groups.drop (skip + 1)
  let before := if before == [[]] then [] else before
  let after := if after == [[]] then [] else after
  before.all isGroup && after.all isGroup && before.length + after.length < 8

/-- The groups of an address. -/
def areGroups (groups : List (List Char)) : Bool :=
  if groups.length < 3 || 9 < groups.length then false
  else
    let inner := (List.range (groups.length - 2)).map (· + 1)
    match inner.filter fun i => groups[i]? == some [] with
    | [] => isFull groups
    | [skip] => isShortened groups skip
    | _ => false

/-- An address of eight groups, perhaps with a zone. -/
def isV6 (cs : List Char) : Bool :=
  let (address, zoneOk) := match breakAt? '%' cs with
    | some (address, zone) => (address, !zone.isEmpty && !zone.contains '%')
    | none => (cs, true)
  zoneOk &&
    match expandTail? (fields (· == ':') address) with
    | some groups => 3 ≤ (fields (· == ':') address).length && areGroups groups
    | none => false

/-- An address of a later version: `v`, hexadecimal digits, a point, and more. -/
def isFuture (cs : List Char) : Bool :=
  match cs with
  | 'v' :: rest =>
    let version := rest.takeWhile fun c => (hexValue? c).isSome
    let after := rest.dropWhile fun c => (hexValue? c).isSome
    !version.isEmpty && after.head? == some '.' && 2 ≤ after.length
  | _ => false

/-- The addresses that may stand in brackets. -/
def isBracketed (cs : List Char) : Bool :=
  if cs.head? = some 'v' then isFuture cs else isV6 cs

end RequestSuite.Url
