/-
String literals of the generated scripts.

* `escape`: a text with everything escaped that could end a literal of any kind of quotes, break
  its line or start a substitution;
* `quote`: the literal of a text in single quotes;
* `escape_append`: escaping works piece by piece, except where a dollar sign meets a brace.
-/
import RequestSuite.Text.Hex

namespace RequestSuite.Script

open Text (hex)

/-- The letter that stands for a control character or line separator after a backslash. -/
def escapeLetter? (c : Char) : Option (List Char) :=
  if c = '\n' then some ['n']
  else if c = '\r' then some ['r']
  else if c = '\t' then some ['t']
  else if c = '\x08' then some ['b']
  else if c = '\x0c' then some ['f']
  else if c = '\x0b' then some ['v']
  else if c.toNat < 0x20 || c.toNat = 0x7f || c = '\u2028' || c = '\u2029' then
    some ('u' :: hex 4 c.toNat)
  else none

/-- The escaped form of one character. -/
def escapeChar (c : Char) : List Char :=
  if c = '\\' || c = '\'' || c = '"' || c = '`' then ['\\', c]
  else
    match escapeLetter? c with
    | some letters => '\\' :: letters
    | none => [c]

/-- A text escaped for a literal in quotes of any kind. -/
def escape : List Char → List Char
  | [] => []
  | c :: cs =>
    if c = '$' && cs.head? = some '\x7b' then '\\' :: '$' :: escape cs
    else escapeChar c ++ escape cs

/-- The literal of a text. -/
def quote (text : List Char) : List Char := '\'' :: escape text ++ ['\'']

theorem escape_cons (c : Char) (cs : List Char) :
    escape (c :: cs) =
      if c = '$' && cs.head? = some '\x7b' then '\\' :: '$' :: escape cs
      else escapeChar c ++ escape cs := rfl

/-- Escaping works piece by piece, unless a dollar sign at the end of the first piece meets a
brace at the start of the second. -/
theorem escape_append {s t : List Char} (h : s.getLast? = some '$' → t.head? ≠ some '\x7b') :
    escape (s ++ t) = escape s ++ escape t := by
  induction s with
  | nil => rfl
  | cons c cs ih =>
    cases cs with
    | nil =>
      by_cases hc : c = '$'
      · subst hc
        have ht : ¬ t.head? = some '\x7b' := h rfl
        simp [escape, ht]
      · simp [escape, hc]
    | cons d ds =>
      have hs := ih fun hl => h (by simpa using hl)
      rw [List.cons_append, escape_cons c, escape_cons c, hs]
      by_cases hc : c = '$' <;> by_cases hd : d = '\x7b' <;> simp [hc, hd]

end RequestSuite.Script
