/-
The text of a test file.

* `toList_joinedLines`, `joinLines_append`, `infix_joinedLines`: lines put together;
* `importHead`, `exists_testText`: the line that asks for the shared module;
* `scriptText`, `KeptBeside`, `TakenApart`: the adapted script, and where its tests go;
* `adaptedCases_of_keptBeside`, `_of_takenApart`, `_of_inside`: what a script
  contributes in each of the three cases.
-/
import Mathlib.Tactic
import RequestSuite.Suite.TestFile

namespace RequestSuite.Suite

open Text (joinLines)

lemma toList_joinedLines (lines : List String) :
    (joinedLines lines).toList = joinLines (lines.map String.toList) := by
  rw [joinedLines, String.toList_intercalate]
  rfl

lemma joinLines_cons_cons (line second : List Char) (lines : List (List Char)) :
    joinLines (line :: second :: lines) = line ++ '\n' :: joinLines (second :: lines) := by
  rw [joinLines, List.intercalate_cons_cons, List.append_assoc]
  rfl

lemma intercalate_cons {α : Type} (gap first : List α) (others : List (List α)) :
    List.intercalate gap (first :: others) = first ++ others.flatMap fun text => gap ++ text := by
  induction others generalizing first with
  | nil => simp
  | cons second others ih => rw [List.intercalate_cons_cons, ih, List.flatMap_cons]; simp

lemma joinLines_singleton (line : List Char) : joinLines [line] = line :=
  List.intercalate_singleton

/-- Some lines after others. -/
lemma joinLines_append {lines lines' : List (List Char)} (h : lines ≠ []) (h' : lines' ≠ []) :
    joinLines (lines ++ lines') = joinLines lines ++ '\n' :: joinLines lines' := by
  obtain ⟨line, lines, rfl⟩ := List.exists_cons_of_ne_nil h
  obtain ⟨line', lines', rfl⟩ := List.exists_cons_of_ne_nil h'
  unfold joinLines
  rw [List.cons_append, intercalate_cons, intercalate_cons, intercalate_cons, List.flatMap_append,
    List.flatMap_cons]
  simp only [List.append_assoc, List.cons_append, List.nil_append]

/-- A line in a text made from lines. -/
lemma infix_joinedLines {line : String} {lines : List String} (h : line ∈ lines) :
    line.toList <:+: (joinedLines lines).toList := by
  obtain ⟨before, after, rfl⟩ := List.append_of_mem h
  have hback : line.toList <+: joinLines (line.toList :: after.map String.toList) := by
    rw [joinLines, intercalate_cons]
    exact List.prefix_append _ _
  rw [toList_joinedLines, List.map_append, List.map_cons]
  by_cases hbefore : before.map String.toList = []
  · rw [hbefore]
    exact hback.isInfix
  · rw [joinLines_append hbefore (List.cons_ne_nil _ _)]
    exact hback.isInfix.trans ((List.suffix_cons _ _).trans (List.suffix_append _ _)).isInfix

/-- The start of the line that asks for the shared module. -/
def importHead (enhanced : Bool) : String :=
  if enhanced then
    "const \x7b api, expect, expectSuccess, expectResponseTime, DEFAULT_TIMEOUT \x7d = require("
  else "const \x7b request, expect \x7d = require("

lemma exists_headLines (enhanced : Bool) (request : Request) (depth : ℕ) (parent : Option String) :
    ∃ lines, headLines enhanced request depth parent =
      (importHead enhanced ++
        literal (String.ofList (Layout.importPath depth setupFileName.toList)) ++ ");") ::
        "" :: lines := by
  cases enhanced <;> exact ⟨_, rfl⟩

/-- A test file starts with that line, which has the way to the shared module as a literal. -/
lemma exists_testText (enhanced : Bool) (request : Request) (depth : ℕ) (parent : Option String)
    (adaptation : Script.Adaptation) :
    ∃ rest, (testText enhanced request depth parent adaptation).toList =
      (importHead enhanced).toList ++
        (Script.quote (Layout.importPath depth setupFileName.toList) ++ ");\n".toList ++ rest) := by
  obtain ⟨lines, hlines⟩ := exists_headLines enhanced request depth parent
  rw [testText, hlines, toList_joinedLines, List.cons_append, List.cons_append, List.cons_append,
    List.cons_append, List.cons_append, List.cons_append, List.map_cons, List.map_cons,
    joinLines_cons_cons]
  simp only [String.toList_append, literal, String.toList_ofList, List.append_assoc]
  exact ⟨_, rfl⟩

/-! ### Scripts -/

/-- The text of an adapted script without the line feeds at its ends. -/
def scriptText (adapted : List Char) : List Char :=
  Text.dropEndWhile (· == '\n') (adapted.dropWhile (· == '\n'))

/-- A script that declares tests stands as a whole beside the default test, since one of its tests
stands inside another statement. -/
def KeptBeside (script : Option String) (text : List Char) : Prop :=
  Script.testNames (script.map String.toList) ≠ [] ∧ (Script.split text).nested = true

/-- A script that declares tests is taken apart. -/
def TakenApart (script : Option String) (text : List Char) : Prop :=
  Script.testNames (script.map String.toList) ≠ [] ∧ (Script.split text).tests ≠ [] ∧
    (Script.split text).nested = false

variable {script : Option String} {adapted : List Char}

lemma adaptedCases_of_keptBeside (h : KeptBeside script (scriptText adapted)) :
    adaptedCases script adapted = { beside := some (scriptText adapted) } := by
  obtain ⟨hnames, hnested⟩ := h
  unfold scriptText at *
  simp [adaptedCases, hnames, hnested]

lemma adaptedCases_of_takenApart (h : TakenApart script (scriptText adapted)) :
    adaptedCases script adapted =
      { beside := some (List.intercalate "\n\n".toList
          ((Script.split (scriptText adapted)).tests.map fun block =>
            Script.inject block (Script.split (scriptText adapted)).setup)) } := by
  obtain ⟨hnames, htests, hnested⟩ := h
  unfold scriptText at *
  simp [adaptedCases, hnames, htests, hnested]

/-- Any other script stands inside the default test. -/
lemma adaptedCases_of_inside (hbeside : ¬ KeptBeside script (scriptText adapted))
    (hapart : ¬ TakenApart script (scriptText adapted)) :
    adaptedCases script adapted = { inside := [scriptText adapted] } := by
  simp only [KeptBeside, TakenApart, not_and] at hbeside hapart
  unfold scriptText at *
  simp only [adaptedCases]
  refine if_pos ?_
  by_cases hnames : Script.testNames (script.map String.toList) = []
  · simp [hnames]
  · have hnested := hbeside hnames
    have htests := hapart hnames
    simp_all

end RequestSuite.Suite
