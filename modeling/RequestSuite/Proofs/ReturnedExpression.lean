/-
What stands between the `return` that a set-up brings into a test and the returned expression.

* `Skipped`, `StartsToken`: white space and comments, in any number and form, and the start of what
  follows them;
* `Skipped.dropWhile`: without the white space in front they are still such;
* `BreaksLead`, `breaksLead_iff`: no line ends in a comment or after one;
* `returned_on_line_iff`: exactly then no line ends between `return` and the expression, so that
  the statement does not end there.
-/
import RequestSuite.Proofs.CallbackPlace
import RequestSuite.Proofs.ScriptComment
import RequestSuite.Proofs.SharedModule

namespace RequestSuite.Script

open Text
open Literal (isGap)

variable {block setup gap expression cs : List Char} {start stop : ℕ} {c : Char}

/-! ### White space and comments -/

/-- White space and comments. A line comment ends with its line, and a block comment at the first
star that a slash follows. -/
inductive Skipped : List Char → Prop
  | nil : Skipped []
  | space {c : Char} {cs : List Char} (hc : isGap c = true) (hcs : Skipped cs) : Skipped (c :: cs)
  | line {body cs : List Char} {c : Char} (hbody : ∀ d ∈ body, isLineTerminator d = false)
      (hc : isLineTerminator c = true) (hcs : Skipped cs) :
      Skipped ('/' :: '/' :: (body ++ c :: cs))
  | comment {body cs : List Char} (hbody : ¬ ['*', '/'] <:+: body) (hcs : Skipped cs) :
      Skipped ('/' :: '*' :: (body ++ '*' :: '/' :: cs))

/-- A text starts neither with white space nor with a comment. -/
def StartsToken (cs : List Char) : Prop :=
  ∃ c rest, cs = c :: rest ∧ (isGap c || isBlank c) = false ∧
    (c = '/' → rest.head? ≠ some '/' ∧ rest.head? ≠ some '*')

/-- Without the white space in front, comments and white space are left. -/
lemma Skipped.dropWhile (h : Skipped gap) : Skipped (gap.dropWhile isBlank) := by
  have hslash : ¬ isBlank '/' = true := by decide
  induction h with
  | nil => exact .nil
  | @space c cs hc hcs ih =>
      by_cases hblank : isBlank c = true
      · rw [List.dropWhile_cons_of_pos hblank]
        exact ih
      · rw [List.dropWhile_cons_of_neg hblank]
        exact .space hc hcs
  | line hbody hc hcs _ =>
      rw [List.dropWhile_cons_of_neg hslash]
      exact .line hbody hc hcs
  | comment hbody hcs _ =>
      rw [List.dropWhile_cons_of_neg hslash]
      exact .comment hbody hcs

/-- A token is still there without the white space at the end, if neither a slash nor a star
follows. -/
lemma StartsToken.trimEnd_append (h : StartsToken expression)
    (hc : cs.head? ≠ some '/' ∧ cs.head? ≠ some '*') : StartsToken (trimEnd expression ++ cs) := by
  obtain ⟨c, rest, rfl, hplain, hslash⟩ := h
  rw [Bool.or_eq_false_iff] at hplain
  obtain ⟨blank, hblank, htrim⟩ := exists_trimEnd_append (c :: rest)
  rw [allBlank, List.all_eq_true] at hblank
  cases htext : trimEnd (c :: rest) with
  | nil =>
      rw [htext, List.nil_append] at htrim
      have hc : isBlank c = true := hblank c (by rw [htrim]; exact List.mem_cons_self)
      rw [hplain.2] at hc
      cases hc
  | cons d ds =>
      rw [htext] at htrim
      obtain ⟨rfl, hrest⟩ := List.cons.inj htrim
      refine ⟨d, ds ++ cs, rfl, by simp [hplain], fun heq => ?_⟩
      have hhead := hslash heq
      rw [← hrest] at hhead
      cases ds with
      | nil => exact hc
      | cons e es => exact hhead

/-! ### Line breaks -/

/-- Only white space stands in front of a line break: no comment holds one, and none is in front of
one. -/
def BreaksLead (gap : List Char) : Prop :=
  ∀ front c back, gap = front ++ c :: back → isLineTerminator c = true →
    ∀ d ∈ front, isBlank d = true

lemma isBlank_of_isLineTerminator (h : isLineTerminator c = true) : isBlank c = true := by
  simp only [isLineTerminator, Bool.or_eq_true, beq_iff_eq] at h
  rcases h with ((rfl | rfl) | rfl) | rfl <;> decide

/-- **No line ends behind the white space in front.** -/
lemma breaksLead_iff :
    (∀ c ∈ gap.dropWhile isBlank, isLineTerminator c = false) ↔ BreaksLead gap := by
  induction gap with
  | nil => simp [BreaksLead]
  | cons d gap ih =>
      by_cases hd : isBlank d = true
      · rw [List.dropWhile_cons_of_pos hd, ih]
        constructor
        · intro h front c back heq hc e he
          cases front with
          | nil => cases he
          | cons f front =>
              obtain ⟨rfl, htail⟩ := List.cons.inj heq
              rcases List.mem_cons.mp he with rfl | he
              · exact hd
              · exact h front c back htail hc e he
        · intro h front c back heq hc e he
          exact h (d :: front) c back (by rw [heq]; rfl) hc e (List.mem_cons_of_mem _ he)
      · rw [List.dropWhile_cons_of_neg hd]
        constructor
        · intro h front c back heq hc
          have hmem : c ∈ d :: gap := by rw [heq]; simp
          rw [h c hmem] at hc
          cases hc
        · intro h c hmem
          by_contra hc
          rw [Bool.not_eq_false] at hc
          rcases List.mem_cons.mp hmem with rfl | hmem
          · exact hd (isBlank_of_isLineTerminator hc)
          · obtain ⟨front, back, rfl⟩ := List.append_of_mem hmem
            exact hd (h (d :: front) c back rfl hc d List.mem_cons_self)

/-! ### The returned expression -/

/-- White space is left out in front of white space and comments, and behind what follows them. -/
lemma trim_append (h : StartsToken expression) :
    trim (gap ++ expression) = gap.dropWhile isBlank ++ trimEnd expression := by
  obtain ⟨c, rest, rfl, hplain, -⟩ := h
  rw [Bool.or_eq_false_iff] at hplain
  have hnot : allBlank (c :: rest) = false := by simp [allBlank, hplain.2]
  have hfront : trimStart (gap ++ c :: rest) = gap.dropWhile isBlank ++ c :: rest := by
    rw [trimStart, List.dropWhile_append, List.dropWhile_cons_of_neg (by simp [hplain.2])]
    split_ifs with hempty
    · rw [List.isEmpty_iff.mp hempty, List.nil_append]
    · rfl
  rw [trim, hfront, trimEnd_append, hnot]
  rfl

/-- **When a statement does not end behind its `return`.** A set-up makes the expression of a
callback a returned one. Between `return` and the expression there are white space and comments
only, and no line ends there exactly if, between the arrow and the expression, no line ended in a
comment or after one. -/
theorem returned_on_line_iff (hcallback : callback block = .expression start stop)
    (hne : setup ≠ []) (hbody : slice block start stop = gap ++ expression) (hgap : Skipped gap)
    (hexpression : StartsToken expression) :
    ∃ front gap' back,
      inject block setup = front ++ ("return".toList ++ (gap' ++ (trimEnd expression ++ back))) ∧
        ink front = ink (block.take start) ++ "\x7b".toList ++ ink setup ∧
        ink back = ";\x7d".toList ++ ink (block.drop stop) ∧
        Skipped gap' ∧ StartsToken (trimEnd expression ++ back) ∧
        ((∀ c ∈ gap', isLineTerminator c = false) ↔ BreaksLead gap) := by
  have hempty : setup.isEmpty = false := by simpa using hne
  refine ⟨block.take start ++ " \x7b\n".toList ++
      joinLines ((splitLines setup).map (indent ++ ·)) ++ '\n' :: indent,
    ' ' :: gap.dropWhile isBlank, ";\n\x7d".toList ++ block.drop stop, ?_, ?_, ?_,
    .space (by decide) hgap.dropWhile, hexpression.trimEnd_append (by simp), ?_⟩
  · rw [inject_expression hcallback hempty, hbody, trim_append hexpression]
    simp
  · have hopen : ink " \x7b\n".toList = "\x7b".toList := by decide
    have hindent : ink ('\n' :: indent) = [] := by decide
    rw [ink_append, ink_append, ink_append, hopen, hindent, ink_indented, List.append_nil]
  · have hclose : ink ";\n\x7d".toList = ";\x7d".toList := by decide
    rw [ink_append, hclose]
  · rw [← breaksLead_iff]
    simp [isLineTerminator]

/-- An assertion on the line behind the arrow, and a comment in front of it. -/
def notedTest : List Char := "it(\"ok\", () =>\n  /* all */ expect(d.ok).to.be.true);".toList

/-- It is returned on the line of its `return`. -/
theorem noted_expression_returned :
    callback notedTest = .expression 14 50 ∧ "const d = response.body;".toList ≠ [] ∧
      slice notedTest 14 50 = "\n  /* all */ ".toList ++ "expect(d.ok).to.be.true".toList ∧
      Skipped "\n  /* all */ ".toList ∧ StartsToken "expect(d.ok).to.be.true".toList ∧
      BreaksLead "\n  /* all */ ".toList ∧
      ∃ front gap' back, inject notedTest "const d = response.body;".toList =
          front ++ ("return".toList ++ (gap' ++ ("expect(d.ok).to.be.true".toList ++ back))) ∧
        ∀ c ∈ gap', isLineTerminator c = false := by
  have hcallback : callback notedTest = .expression 14 50 := by decide +kernel
  have hbody : slice notedTest 14 50 =
      "\n  /* all */ ".toList ++ "expect(d.ok).to.be.true".toList := by decide +kernel
  have hgap : Skipped "\n  /* all */ ".toList :=
    .space (by decide) (.space (by decide) (.space (by decide)
      (@Skipped.comment " all ".toList " ".toList (by decide) (.space (by decide) .nil))))
  have htoken : StartsToken "expect(d.ok).to.be.true".toList :=
    ⟨'e', "xpect(d.ok).to.be.true".toList, rfl, by decide, by decide⟩
  have hlead : BreaksLead "\n  /* all */ ".toList := breaksLead_iff.mp (by decide)
  obtain ⟨front, gap', back, hinject, -, -, -, -, hlines⟩ :=
    returned_on_line_iff hcallback (by decide : "const d = response.body;".toList ≠ []) hbody hgap
      htoken
  exact ⟨hcallback, by decide, hbody, hgap, htoken, hlead, front, gap', back, hinject,
    hlines.mpr hlead⟩

/-- An assertion behind a line comment. -/
def ticketTest : List Char :=
  "it(\"ok\", () => // see the ticket\n  expect(d.ok).to.be.true);".toList

/-- A script that has a statement in front of this test. -/
def ticketScript : List Char := "const d = response.body;\n".toList ++ ticketTest

/-- The statement ends behind its `return`, and the assertion is not evaluated. -/
theorem comment_cuts_expression_off :
    split ticketScript = ⟨"const d = response.body;".toList, [ticketTest], false⟩ ∧
      callback ticketTest = .expression 14 58 ∧
      slice ticketTest 14 58 =
        " // see the ticket\n  ".toList ++ "expect(d.ok).to.be.true".toList ∧
      StartsToken "expect(d.ok).to.be.true".toList ∧
      inject ticketTest "const d = response.body;".toList =
        "it(\"ok\", () => \x7b\n  const d = response.body;\n  ".toList ++ ("return".toList ++
          (" // see the ticket\n  ".toList ++ "expect(d.ok).to.be.true;\n\x7d);".toList)) ∧
      Skipped " // see the ticket\n  ".toList ∧
      ∃ c ∈ " // see the ticket\n  ".toList, isLineTerminator c = true := by
  have hgap : Skipped " // see the ticket\n  ".toList :=
    .space (by decide) (@Skipped.line " see the ticket".toList "  ".toList '\n' (by decide)
      (by decide) (.space (by decide) (.space (by decide) .nil)))
  have htoken : StartsToken "expect(d.ok).to.be.true".toList :=
    ⟨'e', "xpect(d.ok).to.be.true".toList, rfl, by decide, by decide⟩
  refine ⟨?_, ?_, ?_, htoken, ?_, hgap, '\n', by decide, by decide⟩ <;> decide +kernel

end RequestSuite.Script
