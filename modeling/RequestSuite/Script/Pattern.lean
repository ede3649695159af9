/-
Patterns of script text.

* `Piece`, `Pattern`: what a pattern is put together from;
* `Piece.read?`, `Pattern.match?`: reading a pattern at the start of a text;
* `replaceAll`, `captures`, `occurs`: every occurrence of a pattern from left to right, without
  overlap;
* `Piece.read?_append`, `Pattern.match?_append`: what is read and what is left make up the text.
-/
import RequestSuite.Text.Blank
import RequestSuite.Text.Word

namespace RequestSuite.Script

open Text (isBlank isWord isDecimalDigit)

/-- A part of a pattern. Each reads as much as it can, and no part that follows another could make
use of what the first has read. -/
inductive Piece
  /-- Exactly this text. -/
  | literal (text : String)
  /-- White space, possibly none. -/
  | blanks
  /-- Nothing, where no word character follows. -/
  | wordEnd
  /-- A quote of either kind. -/
  | quote
  /-- One or more characters other than quotes, captured. -/
  | unquoted
  /-- One or more decimal digits, captured. -/
  | digits
  deriving DecidableEq, Repr

/-- Parts one after another. -/
abbrev Pattern := List Piece

/-- A text without a given beginning. -/
def dropPrefix? : List Char → List Char → Option (List Char)
  | [], cs => some cs
  | _ :: _, [] => none
  | e :: es, c :: cs => if e = c then dropPrefix? es cs else none

/-- A quote of either kind. -/
def isQuote (c : Char) : Bool := c == '"' || c == '\''

/-- The longest beginning made of characters of a class, and the rest, unless it is empty. -/
def run? (p : Char → Bool) (cs : List Char) : Option (List Char × List Char) :=
  if (cs.takeWhile p).isEmpty then none else some (cs.takeWhile p, cs.dropWhile p)

/-- What a part reads at the start of a text, and what it leaves. -/
def Piece.read? (cs : List Char) : Piece → Option (List Char × List Char)
  | .literal text => (dropPrefix? text.toList cs).map (text.toList, ·)
  | .blanks => some (cs.takeWhile isBlank, cs.dropWhile isBlank)
  | .wordEnd =>
    match cs with
    | c :: _ => if isWord c then none else some ([], cs)
    | [] => some ([], cs)
  | .quote =>
    match cs with
    | c :: rest => if isQuote c then some ([c], rest) else none
    | [] => none
  | .unquoted => run? (fun c => !isQuote c) cs
  | .digits => run? isDecimalDigit cs

/-- Whether what a part reads is captured. -/
def Piece.captures : Piece → Bool
  | .unquoted | .digits => true
  | _ => false

/-- An occurrence of a pattern at the start of a text. -/
structure Occurrence where
  text : List Char
  captured : List Char
  rest : List Char
  deriving DecidableEq, Repr

/-- Reads a pattern at the start of a text. -/
def Pattern.match? : Pattern → List Char → Option Occurrence
  | [], cs => some ⟨[], [], cs⟩
  | piece :: pieces, cs =>
    match piece.read? cs with
    | none => none
    | some (read, rest) =>
      match Pattern.match? pieces rest with
      | none => none
      | some o =>
        some ⟨read ++ o.text, if piece.captures then read ++ o.captured else o.captured, o.rest⟩

/-- A text with every occurrence of a pattern replaced. The first `skip` characters belong to an
occurrence that has been replaced already. -/
def replaceFrom (pattern : Pattern) (replacement : List Char → List Char) :
    (skip : Nat) → List Char → List Char
  | _, [] => []
  | skip + 1, _ :: cs => replaceFrom pattern replacement skip cs
  | 0, c :: cs =>
    match pattern.match? (c :: cs) with
    | some o => replacement o.captured ++ replaceFrom pattern replacement (o.text.length - 1) cs
    | none => c :: replaceFrom pattern replacement 0 cs

/-- A text with every occurrence of a pattern replaced by a text made from what was captured. -/
def replaceAll (pattern : Pattern) (replacement : List Char → List Char) (text : List Char) :
    List Char :=
  replaceFrom pattern replacement 0 text

/-- What is captured by the occurrences that start after the first `skip` characters. -/
def capturesFrom (pattern : Pattern) : (skip : Nat) → List Char → List (List Char)
  | _, [] => []
  | skip + 1, _ :: cs => capturesFrom pattern skip cs
  | 0, c :: cs =>
    match pattern.match? (c :: cs) with
    | some o => o.captured :: capturesFrom pattern (o.text.length - 1) cs
    | none => capturesFrom pattern 0 cs

/-- What is captured by each occurrence of a pattern, in order. -/
def captures (pattern : Pattern) (text : List Char) : List (List Char) :=
  capturesFrom pattern 0 text

/-- Whether a pattern occurs in a text. -/
def occurs (pattern : Pattern) : List Char → Bool
  | [] => (pattern.match? []).isSome
  | c :: cs => (pattern.match? (c :: cs)).isSome || occurs pattern cs

/-- A removed beginning and the rest make up the text. -/
theorem dropPrefix?_append {es cs rest : List Char} (h : dropPrefix? es cs = some rest) :
    es ++ rest = cs := by
  induction es generalizing cs with
  | nil => simpa [dropPrefix?] using h.symm
  | cons e es ih =>
    cases cs with
    | nil => simp [dropPrefix?] at h
    | cons c cs =>
      by_cases he : e = c
      · simp only [dropPrefix?, he, ↓reduceIte] at h
        rw [List.cons_append, ih h, he]
      · simp [dropPrefix?, he] at h

/-- What a part reads and what it leaves make up the text. -/
theorem Piece.read?_append {piece : Piece} {cs read rest : List Char}
    (h : piece.read? cs = some (read, rest)) : read ++ rest = cs := by
  cases piece with
  | literal text =>
    simp only [Piece.read?, Option.map_eq_some_iff, Prod.mk.injEq] at h
    obtain ⟨r, hr, rfl, rfl⟩ := h
    exact dropPrefix?_append hr
  | blanks =>
    simp only [Piece.read?, Option.some.injEq, Prod.mk.injEq] at h
    rw [← h.1, ← h.2, List.takeWhile_append_dropWhile]
  | wordEnd =>
    simp only [Piece.read?] at h
    split at h
    · split at h <;> simp_all
    · simp_all
  | quote =>
    simp only [Piece.read?] at h
    split at h
    · split at h
      · simp only [Option.some.injEq, Prod.mk.injEq] at h
        rw [← h.1, ← h.2, List.singleton_append]
      · simp at h
    · simp at h
  | unquoted =>
    simp only [Piece.read?, run?] at h
    split at h
    · simp at h
    · simp only [Option.some.injEq, Prod.mk.injEq] at h
      rw [← h.1, ← h.2, List.takeWhile_append_dropWhile]
  | digits =>
    simp only [Piece.read?, run?] at h
    split at h
    · simp at h
    · simp only [Option.some.injEq, Prod.mk.injEq] at h
      rw [← h.1, ← h.2, List.takeWhile_append_dropWhile]

/-- An occurrence and what follows it make up the text. -/
theorem Pattern.match?_append {pattern : Pattern} {cs : List Char} {o : Occurrence}
    (h : pattern.match? cs = some o) : o.text ++ o.rest = cs := by
  induction pattern generalizing cs o with
  | nil =>
    simp only [Pattern.match?, Option.some.injEq] at h
    simp [← h]
  | cons piece pieces ih =>
    simp only [Pattern.match?] at h
    split at h
    · simp at h
    · next read rest hr =>
      split at h
      · simp at h
      · next o' ho =>
        simp only [Option.some.injEq] at h
        rw [← h]
        simp only [List.append_assoc]
        rw [ih ho]
        exact Piece.read?_append hr

end RequestSuite.Script
