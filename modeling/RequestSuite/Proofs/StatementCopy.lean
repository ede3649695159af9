/-
Copies of a script's statements in the test file.

* `ink_setup`: the set-up holds all that stands outside the tests;
* `Callback.enter`, `copy_inject`: what an injected test holds;
* `Stands`: a stretch of the script that no test cuts;
* `Copy`: a stretch with the set-up in it at the start of a callback's body;
* `statement_kept`: every statement has a copy in the file, those of the set-up provided that the
  script is kept whole or some test has an inline callback;
* `beside_of_no_callback`: nothing is left of the set-up if no test has such a callback.
-/
import RequestSuite.Proofs.Ink
import RequestSuite.Proofs.Splitting

namespace RequestSuite.Script

open Text

variable {text block setup : List Char} {ps : List (ℕ × Char)} {depth : ℤ} {named : Bool}
  {arrow : Option ℕ} {start stop : ℕ}

/-! ### Slices -/

lemma drop_eq_slice_append (h : start ≤ stop) :
    text.drop start = slice text start stop ++ text.drop stop := by
  have hdrop : text.drop stop = (text.drop start).drop (stop - start) := by
    rw [List.drop_drop]
    congr 1
    omega
  rw [slice, hdrop, List.take_append_drop]

/-- A slice in another. -/
lemma infix_slice {first last : ℕ} (hl : first ≤ start) (hm : start ≤ stop) (hr : stop ≤ last) :
    slice text start stop <:+: slice text first last := by
  have hdrop : text.drop start = (text.drop first).drop (start - first) := by
    rw [List.drop_drop]
    congr 1
    omega
  have hlast : text.drop stop = (text.drop start).drop (stop - start) := by
    rw [List.drop_drop]
    congr 1
    omega
  refine ⟨(text.drop first).take (start - first), (text.drop stop).take (last - stop), ?_⟩
  rw [slice, slice, hlast, hdrop, List.append_assoc, ← List.take_add, ← List.take_add]
  congr 1
  omega

/-! ### The set-up -/

/-- The lines of the set-up hold all that is not white space in the pieces. -/
lemma ink_setupLines (pieces : List (List Char)) :
    (setupLines pieces).flatMap ink = pieces.flatMap ink := by
  have hlines (lines : List (List Char)) :
      ((lines.filter fun line => !allBlank line).map trimEnd).flatMap ink = lines.flatMap ink := by
    induction lines with
    | nil => rfl
    | cons line lines ih =>
        by_cases h : allBlank line = true
        · rw [List.filter_cons_of_neg (by simp [h]), ih, List.flatMap_cons,
            ink_eq_nil (List.all_eq_true.mp h)]
          rfl
        · rw [List.filter_cons_of_pos (by simp [h]), List.map_cons, List.flatMap_cons, ih,
            List.flatMap_cons, ink_trimEnd]
  rw [setupLines, hlines, List.flatMap_assoc]
  exact congrArg List.flatten (List.map_congr_left fun piece _ => ink_splitLines piece)

/-- **The set-up holds all that stands outside the tests.** -/
lemma ink_setup (text : List Char) :
    ink (split text).setup = (gaps text 0 (spans text)).flatMap ink := by
  rw [split, ink_joinLines, ink_setupLines]

/-- A stretch that no test touches lies in a piece between tests. -/
lemma exists_gap {cursor : ℕ} {tests : List (ℕ × ℕ)} (hcursor : cursor ≤ start) (hle : start ≤ stop)
    (h : ∀ span ∈ tests, stop ≤ span.1 ∨ span.2 ≤ start) :
    ∃ gap ∈ gaps text cursor tests, slice text start stop <:+: gap := by
  induction tests generalizing cursor with
  | nil =>
      refine ⟨text.drop cursor, List.mem_singleton_self _, ?_⟩
      have hdrop : text.drop start = (text.drop cursor).drop (start - cursor) := by
        rw [List.drop_drop]
        congr 1
        omega
      rw [slice, hdrop]
      exact (List.take_prefix _ _).isInfix.trans (List.drop_suffix _ _).isInfix
  | cons span tests ih =>
      obtain ⟨hspan, htests⟩ := List.forall_mem_cons.mp h
      rcases hspan with hspan | hspan
      · exact ⟨slice text cursor span.1, List.mem_cons_self, infix_slice hcursor hle hspan⟩
      · obtain ⟨gap, hgap, hinfix⟩ := ih hspan htests
        exact ⟨gap, List.mem_cons_of_mem _ hgap, hinfix⟩

lemma infix_setup_of_slice (hle : start ≤ stop)
    (h : ∀ span ∈ spans text, stop ≤ span.1 ∨ span.2 ≤ start) :
    ink (slice text start stop) <:+: ink (split text).setup := by
  obtain ⟨gap, hgap, hinfix⟩ := exists_gap (Nat.zero_le start) hle h
  rw [ink_setup]
  exact (infix_ink hinfix).trans (infix_flatMap hgap)

/-! ### Callbacks -/

/-- The expression of an arrow function ends after its start. -/
lemma le_of_callbackIn_expression (hps : ∀ p ∈ ps, block[p.1]? = some p.2)
    (hpairwise : ps.Pairwise fun p q => p.1 < q.1)
    (harrow : ∀ first, arrow = some first → ∀ p ∈ ps, p.2 ≠ '>' → first ≤ p.1)
    (h : callbackIn block depth named arrow ps = .expression start stop) : start ≤ stop := by
  fun_induction callbackIn block depth named arrow ps with
  | case1 => simp at h
  | case2 => simp at h
  | case3 _ _ _ _ _ rest _ _ ih =>
      exact ih (fun p hp => hps p (List.mem_cons_of_mem _ hp)) hpairwise.of_cons
        (fun first hf p hp => harrow first hf p (List.mem_cons_of_mem _ hp)) h
  | case4 _ _ i c _ _ hc _ first =>
      obtain ⟨rfl, rfl⟩ := Callback.expression.inj h
      exact harrow first rfl (i, c) List.mem_cons_self (by rintro rfl; simp [isCloser] at hc)
  | case5 => simp at h
  | case6 _ _ _ _ _ rest _ _ _ ih =>
      exact ih (fun p hp => hps p (List.mem_cons_of_mem _ hp)) hpairwise.of_cons
        (fun first hf p hp => harrow first hf p (List.mem_cons_of_mem _ hp)) h
  | case7 _ _ i c _ _ _ hc first =>
      obtain ⟨rfl, rfl⟩ := Callback.expression.inj h
      exact harrow first rfl (i, c) List.mem_cons_self (by rintro rfl; simp at hc)
  | case8 _ _ _ _ rest _ _ _ ih =>
      exact ih (fun p hp => hps p (List.mem_cons_of_mem _ hp)) hpairwise.of_cons
        (fun first hf => by simp at hf) h
  | case9 _ _ _ i c rest _ _ _ hc ih =>
      refine ih (fun p hp => hps p (List.mem_cons_of_mem _ hp)) hpairwise.of_cons ?_ h
      -- the character after the equals sign is the tip of the arrow
      rintro first hf p hp hne
      obtain rfl := Option.some.inj hf
      have hlt := (List.pairwise_cons.mp hpairwise).1 p hp
      have hget := hps p (List.mem_cons_of_mem _ hp)
      simp only [Bool.and_eq_true, decide_eq_true_eq] at hc
      have hnext : p.1 ≠ i + 1 := by
        intro heq
        rw [heq, hc.2, Option.some.injEq] at hget
        exact hne hget.symm
      simp only at hlt
      omega
  | case10 _ _ _ _ _ rest _ _ _ _ ih =>
      exact ih (fun p hp => hps p (List.mem_cons_of_mem _ hp)) hpairwise.of_cons
        (fun first hf p hp => harrow first hf p (List.mem_cons_of_mem _ hp)) h

lemma le_of_callback_expression (h : callback block = .expression start stop) : start ≤ stop :=
  le_of_callbackIn_expression (fun _ hp => getElem?_of_mem_code hp) (pairwise_code block)
    (fun _ hf => by simp at hf) h

/-! ### Copies -/

/-- How a statement can stand in the file: as it is, or with the set-up at the start of the block
that is its callback's body, or with the set-up in front of the expression that was its callback's
body. -/
inductive Copy (setup : List Char) : List Char → List Char → Prop
  | same (statement : List Char) : Copy setup statement statement
  | opened (front back : List Char) : Copy setup (front ++ back) (front ++ setup ++ back)
  | returned (front result back : List Char) :
      Copy setup (front ++ result ++ back)
        (front ++ "\x7b".toList ++ setup ++ "return".toList ++ result ++ ";\x7d".toList ++ back)

/-- The lines of a set-up behind an indentation. -/
lemma ink_indented (setup : List Char) :
    ink (joinLines ((splitLines setup).map (indent ++ ·))) = ink setup := by
  rw [ink_joinLines, List.flatMap_map]
  have hline : (fun line => ink (indent ++ line)) = ink := by
    funext line
    rw [ink_append]
    rfl
  rw [hline, ink_splitLines]

/-- White space at the start of a body that is put on a line of its own. -/
lemma ink_body (rest : List Char) :
    ink (if (rest.dropWhile (· == ' ')).head? = some '\n' then rest.dropWhile (· == ' ')
      else '\n' :: rest.dropWhile (· == ' ')) = ink rest := by
  have hrest : ink (rest.dropWhile (· == ' ')) = ink rest :=
    ink_dropWhile fun c hc => by rw [beq_iff_eq.mp hc]; rfl
  split_ifs
  · exact hrest
  · rw [ink_blank (by decide), hrest]

/-- A block that returns what stood between two positions, with a set-up in front of it. -/
lemma ink_returned (block setup : List Char) (start stop : ℕ) :
    ink (block.take start ++ " \x7b\n".toList ++
        joinLines ((splitLines setup).map (indent ++ ·)) ++ '\n' :: indent ++
        "return ".toList ++ trim (slice block start stop) ++ ";\n\x7d".toList ++
        block.drop stop) =
      ink (block.take start) ++ "\x7b".toList ++ ink setup ++ "return".toList ++
        ink (slice block start stop) ++ ";\x7d".toList ++ ink (block.drop stop) := by
  have hopen : ink " \x7b\n".toList = "\x7b".toList := by decide
  have hindent : ink ('\n' :: indent) = [] := by decide
  have hreturn : ink "return ".toList = "return".toList := by decide
  have hclose : ink ";\n\x7d".toList = ";\x7d".toList := by decide
  simp only [ink_append, ink_indented, ink_trim, hopen, hindent, hreturn, hclose, List.append_nil]

/-- **An injected test is a copy of the test**, and holds the set-up if the test has an inline
callback. -/
lemma copy_inject (block setup : List Char) :
    Copy (ink setup) (ink block) (ink (inject block setup)) ∧
      (callback block ≠ .missing → ink setup <:+: ink (inject block setup)) := by
  unfold inject
  split_ifs with hempty
  · obtain rfl := List.isEmpty_iff.mp hempty
    exact ⟨.same _, fun _ => List.nil_infix⟩
  · cases hcallback : callback block with
    | block brace =>
        simp only
        rw [ink_append, ink_append, ink_blank (by decide), ink_indented, ink_body]
        have hblock : ink block = ink (block.take (brace + 1)) ++ ink (block.drop (brace + 1)) := by
          rw [← ink_append, List.take_append_drop]
        exact ⟨hblock ▸ .opened _ _, fun _ => ⟨_, _, rfl⟩⟩
    | expression start stop =>
        simp only
        have hle := le_of_callback_expression hcallback
        have hblock : ink block = ink (block.take start) ++ ink (slice block start stop) ++
            ink (block.drop stop) := by
          rw [← ink_append, ← ink_append, List.append_assoc, ← drop_eq_slice_append hle,
            List.take_append_drop]
        rw [ink_returned]
        refine ⟨hblock ▸ .returned _ _ _, fun _ => ⟨ink (block.take start) ++ "\x7b".toList,
          "return".toList ++ (ink (slice block start stop) ++ (";\x7d".toList ++
            ink (block.drop stop))), ?_⟩⟩
        simp only [List.append_assoc]
    | missing => exact ⟨.same _, fun h => absurd rfl h⟩

/-- A stretch of a script that is a test, or that no test touches. -/
structure IsStatement (text : List Char) (start stop : ℕ) : Prop where
  le : start ≤ stop
  whole : (start, stop) ∈ spans text ∨ ∀ span ∈ spans text, stop ≤ span.1 ∨ span.2 ≤ start

end RequestSuite.Script

namespace RequestSuite.Suite

open Text Script

variable {enhanced : Bool} {request : Request} {depth : ℕ} {parent : Option String}
  {adaptation : Adaptation} {start stop : ℕ} {copy : List Char}

/-- A block inside the default test. -/
lemma infix_of_inside {block : List Char}
    (h : block ∈ (casesOf enhanced request.script adaptation).inside) :
    (indentBlock 2 block).toList <:+:
      (testText enhanced request depth parent adaptation).toList := by
  refine infix_joinedLines ?_
  have hlines : indentBlock 2 block ∈
      defaultTestLines enhanced (casesOf enhanced request.script adaptation).inside := by
    have hinside : (casesOf enhanced request.script adaptation).inside.isEmpty = false := by
      cases hempty : (casesOf enhanced request.script adaptation).inside with
      | nil => simp [hempty] at h
      | cons _ _ => rfl
    rw [defaultTestLines, if_pos (by simp [hinside])]
    simp only [List.mem_append, List.mem_map]
    exact Or.inl (Or.inr ⟨block, h, rfl⟩)
  simp [hlines]

lemma infix_of_beside {text : List Char}
    (h : (casesOf enhanced request.script adaptation).beside = some text) :
    (indentBlock 1 text).toList <:+:
      (testText enhanced request depth parent adaptation).toList := by
  refine infix_joinedLines ?_
  simp [h, besideLines]

section Adapted

variable (h : adaptation.fellBack = false)
include h

lemma casesOf_adapted : casesOf enhanced request.script adaptation =
    adaptedCases request.script adaptation.text := by simp [casesOf, h]

lemma infix_of_keptBeside (hbeside : KeptBeside request.script (scriptText adaptation.text)) :
    (indentBlock 1 (scriptText adaptation.text)).toList <:+:
      (testText enhanced request depth parent adaptation).toList := by
  refine infix_of_beside ?_
  rw [casesOf_adapted h, adaptedCases_of_keptBeside hbeside]

lemma infix_of_keptInside (hbeside : ¬ KeptBeside request.script (scriptText adaptation.text))
    (hapart : ¬ TakenApart request.script (scriptText adaptation.text)) :
    (indentBlock 2 (scriptText adaptation.text)).toList <:+:
      (testText enhanced request depth parent adaptation).toList := by
  refine infix_of_inside ?_
  rw [casesOf_adapted h, adaptedCases_of_inside hbeside hapart]
  exact List.mem_singleton_self _

lemma infix_of_takenApart (hapart : TakenApart request.script (scriptText adaptation.text)) :
    (indentBlock 1 (List.intercalate "\n\n".toList
      ((split (scriptText adaptation.text)).tests.map fun block =>
        inject block (split (scriptText adaptation.text)).setup))).toList <:+:
      (testText enhanced request depth parent adaptation).toList := by
  refine infix_of_beside ?_
  rw [casesOf_adapted h, adaptedCases_of_takenApart hapart]

/-- A script that is not taken apart stands in the file as a whole. -/
lemma infix_of_whole (hwhole : ¬ TakenApart request.script (scriptText adaptation.text)) :
    ink (scriptText adaptation.text) <:+:
      ink (testText enhanced request depth parent adaptation).toList := by
  by_cases hbeside : KeptBeside request.script (scriptText adaptation.text)
  · rw [← ink_indentBlock 1]
    exact infix_ink (infix_of_keptBeside h hbeside)
  · rw [← ink_indentBlock 2]
    exact infix_ink (infix_of_keptInside h hbeside hwhole)

lemma infix_of_injected (hapart : TakenApart request.script (scriptText adaptation.text))
    {block : List Char} (hblock : block ∈ (split (scriptText adaptation.text)).tests) :
    ink (inject block (split (scriptText adaptation.text)).setup) <:+:
      ink (testText enhanced request depth parent adaptation).toList := by
  refine List.IsInfix.trans ?_ (infix_ink (infix_of_takenApart h hapart))
  rw [ink_indentBlock, ink_intercalate rfl]
  exact infix_flatMap (List.mem_map_of_mem hblock)

end Adapted

/-- **Every statement of an adapted script has a copy in the test file**, a test with the set-up at
the start of its callback's body. Where the script is taken apart, this needs a test with an inline
callback for the statements that are not tests. -/
theorem statement_kept (h : adaptation.fellBack = false)
    (hstatement : IsStatement (scriptText adaptation.text) start stop)
    (hcallback : TakenApart request.script (scriptText adaptation.text) →
      (start, stop) ∈ spans (scriptText adaptation.text) ∨
        ∃ block ∈ (split (scriptText adaptation.text)).tests, callback block ≠ .missing) :
    ∃ copy, Copy (ink (split (scriptText adaptation.text)).setup)
        (ink (slice (scriptText adaptation.text) start stop)) copy ∧
      copy <:+: ink (testText enhanced request depth parent adaptation).toList := by
  obtain ⟨hle, hstatement⟩ := hstatement
  by_cases hapart : TakenApart request.script (scriptText adaptation.text)
  · have htest (hspan : (start, stop) ∈ spans (scriptText adaptation.text)) :
        ∃ copy, Copy (ink (split (scriptText adaptation.text)).setup)
            (ink (slice (scriptText adaptation.text) start stop)) copy ∧
          copy <:+: ink (testText enhanced request depth parent adaptation).toList :=
      ⟨_, (copy_inject _ _).1, infix_of_injected h hapart (List.mem_map_of_mem hspan)⟩
    rcases hstatement with hspan | houtside
    · exact htest hspan
    · rcases hcallback hapart with hspan | ⟨block, hblock, hinline⟩
      · exact htest hspan
      · refine ⟨_, .same _, (infix_setup_of_slice hle houtside).trans ?_⟩
        exact List.IsInfix.trans ((copy_inject block _).2 hinline)
          (infix_of_injected h hapart hblock)
  · refine ⟨_, .same _, List.IsInfix.trans (infix_ink ?_) (infix_of_whole h hapart)⟩
    exact (List.take_prefix _ _).isInfix.trans (List.drop_suffix _ _).isInfix

/-- A request whose script has a statement in front of a test with an inline callback. -/
def inlineCallbackRequest : Request :=
  { name := "A", url := "/a", script := some "const a = 1;\npm.test(\"b\", () => a);" }

/-- Its adapted script. -/
def inlineCallbackText : List Char := "const a = 1;\nit(\"b\", () => a);".toList

/-- The statement in front of the test stands in its file. -/
theorem statement_before_inline_kept :
    (adapt (inlineCallbackRequest.script.map String.toList)).text = inlineCallbackText ∧
      slice (scriptText inlineCallbackText) 0 12 = "const a = 1;".toList ∧
      ∃ copy, Copy (ink (split (scriptText inlineCallbackText)).setup)
          (ink (slice (scriptText inlineCallbackText) 0 12)) copy ∧
        copy <:+: ink (testText true inlineCallbackRequest 0 none
          ⟨inlineCallbackText, false⟩).toList := by
  have houtside : ∀ span ∈ spans (scriptText inlineCallbackText), 12 ≤ span.1 ∨ span.2 ≤ 0 := by
    decide +kernel
  have hinline : ∃ block ∈ (split (scriptText inlineCallbackText)).tests,
      callback block ≠ .missing := by decide +kernel
  refine ⟨by decide +kernel, by decide +kernel, ?_⟩
  exact @statement_kept true inlineCallbackRequest 0 none ⟨inlineCallbackText, false⟩ 0 12 rfl
    ⟨by decide, Or.inr houtside⟩ fun _ => Or.inr hinline

lemma beside_of_no_callback {script : Option String} {adapted : List Char}
    (hapart : TakenApart script (scriptText adapted))
    (hmissing : ∀ block ∈ (split (scriptText adapted)).tests, callback block = .missing) :
    adaptedCases script adapted =
      { beside := some (List.intercalate "\n\n".toList (split (scriptText adapted)).tests) } := by
  have hinject : (split (scriptText adapted)).tests.map
      (fun block => inject block (split (scriptText adapted)).setup) =
      (split (scriptText adapted)).tests := by
    refine (List.map_congr_left fun block hblock => ?_).trans (List.map_id _)
    simp [inject, hmissing block hblock]
  rw [adaptedCases_of_takenApart hapart, hinject]

/-- A request whose only test is given its callback by name. -/
def namedCallbackRequest : Request :=
  { name := "Checks", url := "/checks",
    script := some "function check() \x7b\x7d\npm.test(\"ok\", check);" }

/-- Its adapted script. -/
def namedCallbackText : List Char := "function check() \x7b\x7d\nit(\"ok\", check);".toList

/-- The function that the test names is not in the file: not even its characters are there in
order. -/
theorem named_callback_dropped :
    (adapt (namedCallbackRequest.script.map String.toList)).text = namedCallbackText ∧
      split (scriptText namedCallbackText) =
        ⟨"function check() \x7b\x7d".toList, ["it(\"ok\", check);".toList], false⟩ ∧
      slice (scriptText namedCallbackText) 0 19 = "function check() \x7b\x7d".toList ∧
      (∀ span ∈ spans (scriptText namedCallbackText), 19 ≤ span.1) ∧
      ¬ List.Sublist (ink (slice (scriptText namedCallbackText) 0 19))
        (ink (testText false namedCallbackRequest 0 none ⟨namedCallbackText, false⟩).toList) := by
  refine ⟨by decide +kernel, by decide +kernel, by decide +kernel, by decide +kernel, ?_⟩
  rw [testText, toList_joinedLines, ink_joinLines]
  decide +kernel

end RequestSuite.Suite
