/-
Lower case by the full Unicode rules.

* `lowerChar`: the lower-case form of one character out of context, two characters for `İ`;
* `lower`: a text in lower case, where a capital sigma that ends a word becomes `ς`.
-/
import RequestSuite.Text.CaseTable
import RequestSuite.Text.WordTable

namespace RequestSuite.Text

/-- The code point that a run of letters with case sends a code point to. -/
def lowerCodePoint (n : Nat) : Nat :=
  match lowerRuns.find? fun r => r.first ≤ n && n ≤ r.last && (n - r.first) % r.step == 0 with
  | some r => (n + r.distance).toNat
  | none => n

/-- The lower-case form of a character that does not look at its neighbours. -/
def lowerChar (c : Char) : List Char :=
  if c = 'İ' then ['i', '\u0307'] else [Char.ofNat (lowerCodePoint c.toNat)]

/-- Whether the first character that is not passed over is a letter with case. -/
def meetsCased (cs : List Char) : Bool :=
  match cs.dropWhile fun c => inRanges caseIgnorableRanges c.toNat with
  | c :: _ => inRanges casedRanges c.toNat
  | [] => false

/-- The lower-case form of a text that follows `before`, given from its end backwards. -/
def lowerFrom (before : List Char) : List Char → List Char
  | [] => []
  | c :: cs =>
    let form :=
      if c = 'Σ' then [if meetsCased before && !meetsCased cs then 'ς' else 'σ'] else lowerChar c
    form ++ lowerFrom (c :: before) cs

/-- A text in lower case. A capital sigma becomes `ς` where a letter stands before it and none
after it, and `σ` elsewhere. -/
def lower (cs : List Char) : List Char := lowerFrom [] cs

end RequestSuite.Text
