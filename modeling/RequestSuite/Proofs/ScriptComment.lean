/-
A script that no rule has changed, as a comment in its test file.

* `Divides`: which characters may count as the end of a line; `fields_joinLines`: the lines of lines
  put together;
* `commentLine`: a line of the script in the file; `splitLines_commented`,
  `toList_indentBlock_commented`;
* `linesBefore`, `linesAfter`, `fields_testText`: the lines of the file around the comment;
* `StandsBehind`: a line of the script and the line of the file that has it as a comment;
* `unconverted_script_is_comment`: every line of the script is one line of comment, in order, and
  nothing else in the file depends on the script.
-/
import Mathlib.Data.List.TakeWhile
import RequestSuite.Proofs.Escaping
import RequestSuite.Proofs.FileScopes
import RequestSuite.Proofs.PathText
import RequestSuite.Proofs.ReworkedLines

namespace RequestSuite

/-! ### Lines of a text -/

namespace Text

variable {ends : Char → Bool}

/-- The characters at which a line may end: a line feed does end it, and only line breaks do. -/
structure Divides (ends : Char → Bool) : Prop where
  lineFeed : ends '\n' = true
  lineBreak : ∀ c, ends c = true → isLineBreak c = true

/-- The lines of lines that are put together. -/
lemma fields_joinLines (h : ends '\n' = true) {lines : List (List Char)} (hne : lines ≠ []) :
    fields ends (joinLines lines) = lines.flatMap (fields ends) := by
  induction lines with
  | nil => exact absurd rfl hne
  | cons line lines ih =>
      cases lines with
      | nil => simp [Suite.joinLines_singleton]
      | cons next lines =>
          rw [Suite.joinLines_cons_cons, fields_append_sep h, ih (by simp)]
          rfl

/-- Lines without breaks are not taken apart. -/
lemma Divides.flatMap_fields (h : Divides ends) {lines : List (List Char)}
    (hlines : ∀ line ∈ lines, ∀ c ∈ line, isLineBreak c = false) :
    lines.flatMap (fields ends) = lines := by
  induction lines with
  | nil => rfl
  | cons line lines ih =>
      obtain ⟨hline, hlines⟩ := List.forall_mem_cons.mp hlines
      have hpiece : ∀ c ∈ line, ends c = false := fun c hc => by
        by_contra hend
        have hbreak := h.lineBreak c (by simpa using hend)
        rw [hline c hc] at hbreak
        cases hbreak
      rw [List.flatMap_cons, fields_of_not_separates hpiece, ih hlines]
      rfl

/-- White space is all that is left out at the end of a text. -/
lemma exists_trimEnd_append (text : List Char) :
    ∃ blank, allBlank blank = true ∧ trimEnd text ++ blank = text := by
  refine ⟨(text.reverse.takeWhile isBlank).reverse, ?_, ?_⟩
  · rw [allBlank, List.all_reverse, List.all_eq_true]
    intro c hc
    simpa using List.mem_takeWhile_imp hc
  · rw [trimEnd, dropEndWhile, ← List.reverse_append, List.takeWhile_append_dropWhile,
      List.reverse_reverse]

end Text

namespace Suite

open Text (splitLines joinLines trimEnd allBlank trimStart fields isLineBreak Divides)

/-! ### The lines of the comment -/

/-- A line of a script that no rule has changed, as it stands in the file. -/
def commentLine (line : List Char) : List Char := "    ".toList ++ trimEnd ("// ".toList ++ line)

/-- The line before those of the script. -/
def commentHeading : List Char := "    // Unconverted Postman script:".toList

/-- The first characters of a line, white space apart, are those of a comment. -/
def startsComment (line : List Char) : Bool := "//".toList.isPrefixOf (trimStart line)

variable {line : List Char}

lemma isLineBreak_of_isLineTerminator {c : Char} (h : Script.isLineTerminator c = true) :
    isLineBreak c = true := by
  simp only [Script.isLineTerminator, Bool.or_eq_true, beq_iff_eq] at h
  rcases h with ((rfl | rfl) | rfl) | rfl <;> rfl

/-- The lines of the comment, before they are indented. -/
lemma splitLines_commented (script : List Char) :
    splitLines (commented script) = "// Unconverted Postman script:".toList ::
      (splitLines script).map fun line => trimEnd ("// ".toList ++ line) := by
  refine Text.splitLines_joinLines (fun line hline c hc => ?_) fun hlast => ?_
  · obtain ⟨rest, rfl, hrest⟩ := Script.isComment_of_mem hline
    rcases List.mem_cons.mp hc with rfl | hc
    · rfl
    · rcases List.mem_cons.mp hc with rfl | hc
      · rfl
      · exact hrest c hc
  · obtain ⟨rest, hnil, -⟩ := Script.isComment_of_mem (List.mem_of_getLast? hlast)
    exact List.cons_ne_nil _ _ hnil.symm

/-- A comment moved to the level of a test's body. -/
lemma toList_indentBlock_commented (script : List Char) :
    (indentBlock 2 (commented script)).toList =
      joinLines (commentHeading :: (splitLines script).map commentLine) := by
  have hindent : ∀ line ∈ splitLines (commented script),
      (if allBlank line then "" else indentation 2 ++ String.ofList line) =
        String.ofList ("    ".toList ++ line) := fun line hline => by
    rw [splitLines_commented] at hline
    obtain ⟨rest, heq, -⟩ := Script.isComment_of_mem hline
    have hblank : allBlank line = false := by
      rw [heq]
      rfl
    rw [hblank, if_neg Bool.false_ne_true, String.ofList_append]
    rfl
  rw [indentBlock, toList_joinedLines, List.map_congr_left hindent, splitLines_commented,
    List.map_cons, List.map_cons, List.map_map, List.map_map, String.toList_ofList]
  refine congrArg (fun lines => joinLines (commentHeading :: lines)) (List.map_congr_left ?_)
  exact fun line _ => String.toList_ofList

/-- The lines of the comment are not broken, and start as comments do. -/
lemma commentLines_spec {script copy : List Char}
    (h : copy ∈ commentHeading :: (splitLines script).map commentLine) :
    (∀ c ∈ copy, isLineBreak c = false) ∧ startsComment copy = true := by
  have hcomment : ∃ line, copy = "    ".toList ++ line ∧ Script.IsComment line := by
    rcases List.mem_cons.mp h with rfl | h
    · exact ⟨_, rfl, @Script.isComment_of_mem script _ List.mem_cons_self⟩
    · obtain ⟨line, hline, rfl⟩ := List.mem_map.mp h
      exact ⟨_, rfl, Script.isComment_trimEnd (Text.not_isLineBreak_of_mem hline)⟩
  obtain ⟨line, rfl, rest, rfl, hrest⟩ := hcomment
  refine ⟨fun c hc => ?_, rfl⟩
  have hfront : ∀ c ∈ "    //".toList, isLineBreak c = false := by decide
  rcases List.mem_append.mp (show c ∈ "    //".toList ++ rest from hc) with hc | hc
  · exact hfront c hc
  · exact hrest c hc

/-! ### The lines of the file -/

/-- The lines of a file before the comment. -/
def linesBefore (enhanced : Bool) (request : Request) (depth : ℕ) (parent : Option String) :
    List (List Char) :=
  (headLines enhanced request depth parent ++
    ["", "  it('" ++ defaultTitle ++ "', function () \x7b"] ++
    if enhanced then
      ["    expectSuccess(response);", "    expectResponseTime(elapsed, DEFAULT_TIMEOUT);"]
    else []).map String.toList

/-- The lines of a file after the comment. -/
def linesAfter (enhanced : Bool) : List (List Char) :=
  [indentBlock 2 (defaultAssertion enhanced).toList, "  \x7d);", "\x7d);", ""].map String.toList

variable {ends : Char → Bool} {request : Request} {script : String}
  {adaptation : Script.Adaptation}

/-- **The lines of a file with a comment.** Only those of the comment depend on the script. -/
lemma fields_testText (hends : Divides ends) (enhanced : Bool) (request : Request) (depth : ℕ)
    (parent : Option String) (hscript : allBlank script.toList = false)
    (hfell : adaptation.fellBack = true) :
    fields ends (testText enhanced { request with script := some script } depth parent
        adaptation).toList =
      (linesBefore enhanced request depth parent).flatMap (fields ends) ++
        (commentHeading :: (splitLines script.toList).map commentLine) ++
        (linesAfter enhanced).flatMap (fields ends) := by
  have htext : (testText enhanced { request with script := some script } depth parent
      adaptation).toList = joinLines (linesBefore enhanced request depth parent ++
        [joinLines (commentHeading :: (splitLines script.toList).map commentLine)] ++
        linesAfter enhanced) := by
    have hparts : casesOf enhanced (some script) adaptation =
        { inside := [commented script.toList, (defaultAssertion enhanced).toList] } := by
      simp [casesOf, fallbackCases, hfell, hscript]
    have hlines : testText enhanced { request with script := some script } depth parent
        adaptation = joinedLines (headLines enhanced request depth parent ++
          defaultTestLines enhanced [commented script.toList, (defaultAssertion enhanced).toList] ++
          besideLines none ++ ["\x7d);", ""]) := by
      rw [testText, hparts]
      rfl
    rw [hlines, toList_joinedLines, ← toList_indentBlock_commented]
    cases enhanced <;>
      simp [defaultTestLines, besideLines, linesBefore, linesAfter, -String.reduceToList]
  rw [htext, Text.fields_joinLines hends.lineFeed (by simp [linesAfter]), List.flatMap_append,
    List.flatMap_append, List.flatMap_singleton,
    Text.fields_joinLines hends.lineFeed (List.cons_ne_nil _ _),
    hends.flatMap_fields fun copy hcopy => (commentLines_spec hcopy).1]

/-- A line of a script stands in a line of a file behind the mark of a comment and indentation, but
for white space at its end. Nothing ends the comment before the line does. -/
structure StandsBehind (line copy : List Char) : Prop where
  text : ∃ blank, allBlank blank = true ∧ copy ++ blank = "    // ".toList ++ line
  unbroken : ∀ c ∈ copy, Script.isLineTerminator c = false

/-- Every line of the script so stands in a line of the comment. -/
lemma standsBehind_commentLine (h : ∀ c ∈ line, isLineBreak c = false) :
    StandsBehind line (commentLine line) where
  text := by
    obtain ⟨blank, hblank, heq⟩ := Text.exists_trimEnd_append ("// ".toList ++ line)
    refine ⟨blank, hblank, ?_⟩
    rw [commentLine, List.append_assoc, heq]
    rfl
  unbroken c hc := by
    obtain ⟨rest, heq, hrest⟩ := Script.isComment_trimEnd h
    have hfront : ∀ c ∈ "    //".toList, Script.isLineTerminator c = false := by decide
    rw [commentLine, heq] at hc
    rcases List.mem_append.mp (show c ∈ "    //".toList ++ rest from hc) with hc | hc
    · exact hfront c hc
    · by_contra hend
      have hbreak := isLineBreak_of_isLineTerminator (by simpa using hend)
      rw [hrest c hc] at hbreak
      cases hbreak

/-- **A script that no rule has changed is a comment, and whole.** Wherever the lines of a file are
taken to end, at line feeds only, at the line terminators of the language or at every line break,
the lines of the script stand behind the mark of a comment in lines of their own, in order. Nothing
but comments depends on the script: the files of two such scripts have the same lines apart from
those that start as comments do. -/
theorem unconverted_script_is_comment (hends : Divides ends) (enhanced : Bool) (request : Request)
    (depth : ℕ) (parent : Option String) {script' : String} {adaptation' : Script.Adaptation}
    (hscript : allBlank script.toList = false) (hfell : adaptation.fellBack = true)
    (hscript' : allBlank script'.toList = false) (hfell' : adaptation'.fellBack = true) :
    let lines (script : String) (adaptation : Script.Adaptation) := fields ends
      (testText enhanced { request with script := some script } depth parent adaptation).toList
    (∃ before comments after, lines script adaptation = before ++ comments ++ after ∧
      List.Forall₂ StandsBehind (splitLines script.toList) comments) ∧
      (lines script adaptation).filter (fun line => !startsComment line) =
        (lines script' adaptation').filter fun line => !startsComment line := by
  intro lines
  have hfiltered (script : List Char) :
      (commentHeading :: (splitLines script).map commentLine).filter
        (fun line => !startsComment line) = [] :=
    List.filter_eq_nil_iff.mpr fun copy hcopy => by simp [(commentLines_spec hcopy).2]
  constructor
  · refine ⟨(linesBefore enhanced request depth parent).flatMap (fields ends) ++ [commentHeading],
      (splitLines script.toList).map commentLine, (linesAfter enhanced).flatMap (fields ends),
      ?_, ?_⟩
    · rw [List.append_assoc _ [commentHeading], List.singleton_append]
      exact fields_testText hends enhanced request depth parent hscript hfell
    · rw [List.forall₂_map_right_iff, List.forall₂_same]
      exact fun line hline => standsBehind_commentLine (Text.not_isLineBreak_of_mem hline)
  · calc
      (lines script adaptation).filter (fun line => !startsComment line)
        = ((linesBefore enhanced request depth parent).flatMap (fields ends)).filter
              (fun line => !startsComment line) ++
            ((linesAfter enhanced).flatMap (fields ends)).filter
              (fun line => !startsComment line) := by
          rw [show lines script adaptation = _ from
            fields_testText hends enhanced request depth parent hscript hfell, List.filter_append,
            List.filter_append, hfiltered, List.append_nil]
      _ = (lines script' adaptation').filter (fun line => !startsComment line) := by
          rw [show lines script' adaptation' = _ from
            fields_testText hends enhanced request depth parent hscript' hfell', List.filter_append,
            List.filter_append, hfiltered, List.append_nil]

/-- A script whose lines end in three ways, one of them with white space, beside another one. -/
theorem lines_of_every_kind_commented :
    let script := "check(1)  \rcheck(2)\u2028\n\u0085check(3)"
    let script' := "log()"
    Divides Script.isLineTerminator ∧ allBlank script.toList = false ∧
      (Script.adapt (some script.toList)).fellBack = true ∧ allBlank script'.toList = false ∧
      (Script.adapt (some script'.toList)).fellBack = true ∧
      let lines (script : String) := fields Script.isLineTerminator (testText false
        { name := "Checks", script := some script } 0 none
        (Script.adapt (some script.toList))).toList
      (∃ before comments after, lines script = before ++ comments ++ after ∧
        List.Forall₂ StandsBehind (splitLines script.toList) comments) ∧
        (lines script).filter (fun line => !startsComment line) =
          (lines script').filter fun line => !startsComment line := by
  intro script script'
  have hends : Divides Script.isLineTerminator := ⟨rfl, fun _ => isLineBreak_of_isLineTerminator⟩
  have hscript : allBlank script.toList = false := by decide +kernel
  have hfell : (Script.adapt (some script.toList)).fellBack = true := by decide +kernel
  have hscript' : allBlank script'.toList = false := by decide +kernel
  have hfell' : (Script.adapt (some script'.toList)).fellBack = true := by decide +kernel
  exact ⟨hends, hscript, hfell, hscript', hfell', unconverted_script_is_comment hends false
    { name := "Checks" } 0 none hscript hfell hscript' hfell'⟩

end Suite

end RequestSuite
