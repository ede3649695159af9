/-
White space in scripts and documents.

* `isBlank`: the characters that count as white space;
* `trimStart`, `trimEnd`, `trim`: a text without the white space at its ends;
* `trimStart_blank`, `all_blank_iff_trimStart`: what trimming leaves starts with a character that
  is not white space, and nothing is left exactly of a blank text.
-/
namespace RequestSuite.Text

/-- White space: the white space of Unicode and the four separators U+001C to U+001F. -/
def isBlank (c : Char) : Bool :=
  let n := c.toNat
  (9 ≤ n && n ≤ 13) || (28 ≤ n && n ≤ 32) || n == 0x85 || n == 0xa0 || n == 0x1680 ||
    (0x2000 ≤ n && n ≤ 0x200a) || n == 0x2028 || n == 0x2029 || n == 0x202f || n == 0x205f ||
    n == 0x3000

/-- The text without the characters of a class at its end. -/
def dropEndWhile (p : Char → Bool) (cs : List Char) : List Char :=
  (cs.reverse.dropWhile p).reverse

/-- The text without the white space at its start. -/
def trimStart (cs : List Char) : List Char := cs.dropWhile isBlank

/-- The text without the white space at its end. -/
def trimEnd (cs : List Char) : List Char := dropEndWhile isBlank cs

/-- The text without the white space at both ends. -/
def trim (cs : List Char) : List Char := trimEnd (trimStart cs)

/-- A text of white space only. -/
def allBlank (cs : List Char) : Bool := cs.all isBlank

/-- Trimming ends at a character that is not white space. -/
theorem trimStart_blank {c : Char} {cs rest : List Char} (h : trimStart cs = c :: rest) :
    isBlank c = false := by
  induction cs with
  | nil => simp [trimStart] at h
  | cons d ds ih =>
    by_cases hd : isBlank d
    · exact ih (by simpa [trimStart, hd] using h)
    · simp only [trimStart, List.dropWhile_cons, hd] at h
      simp only [Bool.false_eq_true, ↓reduceIte, List.cons.injEq] at h
      simpa [h.1] using hd

/-- Nothing is left of a text by trimming its start exactly when it is blank. -/
theorem all_blank_iff_trimStart {cs : List Char} : allBlank cs = true ↔ trimStart cs = [] := by
  induction cs with
  | nil => simp [allBlank, trimStart]
  | cons d ds ih =>
    by_cases hd : isBlank d
    · rw [trimStart, List.dropWhile_cons_of_pos hd, allBlank, List.all_cons, hd, Bool.true_and]
      exact ih
    · simp [allBlank, trimStart, hd]

end RequestSuite.Text
