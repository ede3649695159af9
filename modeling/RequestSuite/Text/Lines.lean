/-
Lines of a text.

* `isLineBreak`: the characters at which a line ends;
* `splitLines`: the lines of a text, with a carriage return and the line feed after it counted
  as one break and no empty line after a break at the end;
* `joinLines`: lines put together with a line feed between neighbours;
* `unifyBreaks`: carriage returns, alone or before a line feed, read as line feeds;
* `not_isLineBreak_of_mem`: no line holds a break.
-/
import RequestSuite.Text.Blank

namespace RequestSuite.Text

/-- The characters that end a line: line feed, line tabulation, form feed, carriage return, the
separators U+001C to U+001E, next line, line separator and paragraph separator. -/
def isLineBreak (c : Char) : Bool :=
  let n := c.toNat
  (10 ≤ n && n ≤ 13) || (28 ≤ n && n ≤ 30) || n == 0x85 || n == 0x2028 || n == 0x2029

/-- A character put before the first line. -/
def consFirst (c : Char) : List (List Char) → List (List Char)
  | [] => [[c]]
  | line :: lines => (c :: line) :: lines

/-- The lines of a text, without their breaks. -/
def splitLines : List Char → List (List Char)
  | [] => []
  | '\r' :: '\n' :: cs => [] :: splitLines cs
  | c :: cs => if isLineBreak c then [] :: splitLines cs else consFirst c (splitLines cs)

/-- Lines put together, a line feed between each two. -/
def joinLines (lines : List (List Char)) : List Char := List.intercalate ['\n'] lines

/-- The text with each carriage return, and the line feed that follows it if there is one, read as
a single line feed. -/
def unifyBreaks : List Char → List Char
  | [] => []
  | '\r' :: '\n' :: cs => '\n' :: unifyBreaks cs
  | c :: cs => (if c = '\r' then '\n' else c) :: unifyBreaks cs

theorem isBlank_of_isLineBreak {c : Char} (h : isLineBreak c = true) : isBlank c = true := by
  simp only [isLineBreak, isBlank, Bool.or_eq_true, Bool.and_eq_true, decide_eq_true_eq,
    beq_iff_eq] at h ⊢
  omega

/-- No line holds a line break. -/
theorem not_isLineBreak_of_mem {cs line : List Char} (h : line ∈ splitLines cs) :
    ∀ c ∈ line, isLineBreak c = false := by
  fun_induction splitLines cs generalizing line with
  | case1 => simp at h
  | case2 cs ih =>
    rcases List.mem_cons.1 h with rfl | h
    · simp
    · exact ih h
  | case3 c cs _ hc ih =>
    rcases List.mem_cons.1 h with rfl | h
    · simp
    · exact ih h
  | case4 c cs _ hc ih =>
    cases hs : splitLines cs with
    | nil =>
      rw [hs] at h
      simp only [consFirst, List.mem_singleton] at h
      subst h
      simpa using hc
    | cons first others =>
      rw [hs] at h ih
      rcases List.mem_cons.1 h with rfl | h
      · intro d hd
        rcases List.mem_cons.1 hd with rfl | hd
        · simpa using hc
        · exact ih List.mem_cons_self d hd
      · exact ih (List.mem_cons_of_mem _ h)

end RequestSuite.Text
