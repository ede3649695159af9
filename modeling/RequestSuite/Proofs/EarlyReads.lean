/-
What a test file reads of the response before the hook has run.

* `early_resume`: a statement is read after others as it is read for itself;
* `Statement`, `readsEarly_append`, `readsEarly_intercalate`: statements with empty lines between
  them;
* `Orderly`: a script whose pieces leave nothing open;
* `response_read_early_iff`: a file names `response` outside the callbacks of `it` and `before`
  exactly where its script does, in a test that is taken from it, or anywhere if it is kept whole.
-/
import RequestSuite.Proofs.FileScopes

namespace RequestSuite.Script

open Text (isBlank isLineBreak splitLines joinLines)

variable {text block rest cs : List Char} {blocks : List (List Char)} {scope : Scope} {c : Char}
  {r r' : Bool}

/-! ### Statements, one after another -/

/-- A text that starts with a name is read after a statement as it is read for itself. -/
lemma early_resume (hframes : scope.frames = []) (hidle : scope.word = [])
    (hrests : scope.recent.rests) (hname : isNameChar c = true) (hblank : isBlank c = false)
    (hbalanced : Balanced (c :: cs)) :
    (scope.scan (c :: cs)).early = (scope.early || (Scope.scan {} (c :: cs)).early) := by
  set fresh : Scope := Scope.within {} [] scope.early with hfresh
  have hread (s : Scope) : s.read c = { s with word := c :: s.word } := by
    rw [Scope.read, if_neg (by simp [hblank]), if_pos hname]
  have halike : Alike (scope.read c) (fresh.read c) := by
    refine Or.inr ?_
    rw [hread, hread]
    exact ⟨hframes, congrArg (c :: ·) hidle, (Bool.or_false _).symm, List.cons_ne_nil _ _, hrests,
      Or.inr rfl⟩
  have hscan := halike.scan cs
  have hearly : (scope.scan (c :: cs)).early = (fresh.scan (c :: cs)).early := by
    rcases hscan with hsame | ⟨-, -, hsame, -⟩
    · exact congrArg Scope.early hsame
    · exact hsame
  have hwithin := @scan_within {} [] (c :: cs) 0 (fun a h => by simp at h) rfl scope.early hbalanced
  rw [hearly, hwithin]
  rfl

/-- A text that leaves nothing open, starts with the name of a call, and ends where a statement may
end. -/
structure Statement (block : List Char) : Prop where
  closed : Closed block
  starts : block.head? = some 'i'
  rests : (scopeOf block).recent.rests

/-- A statement, an empty line and a text that starts with a name: the text is read as at the start
of a script. -/
lemma bones_statement (hblock : Statement block) (hstart : rest.head? = some 'i') :
    bones true (block ++ "\n\n".toList ++ rest ++ ['\n']) =
        bones true (block ++ ['\n']) ++ '\n' :: bones true (rest ++ ['\n']) ∧
      ∀ r, Leads true (block ++ "\n\n".toList ++ rest ++ ['\n']) r ↔
        Leads true (rest ++ ['\n']) r := by
  obtain ⟨tail, rfl⟩ : ∃ tail, rest = 'i' :: tail := List.head?_eq_some_iff.mp hstart
  obtain ⟨r, hr⟩ := hblock.closed.lexed
  have htext : block ++ "\n\n".toList ++ 'i' :: tail ++ ['\n'] =
      (block ++ ['\n']) ++ (['\n'] ++ 'i' :: (tail ++ ['\n'])) := by simp
  obtain ⟨hbones, hleads⟩ := bones_append (blind_line block) hr (['\n'] ++ 'i' :: (tail ++ ['\n']))
  obtain ⟨hbones', hleads'⟩ := bones_blanks lineFeed_blank r ('i' :: (tail ++ ['\n']))
  obtain ⟨hthrough, hskeleton⟩ :=
    @ready_cons 'i' (by decide) (by decide) r true none (tail ++ ['\n'])
  have hsame : bones r ('i' :: (tail ++ ['\n'])) = bones true ('i' :: (tail ++ ['\n'])) := hskeleton
  refine ⟨by rw [htext, hbones, hbones', hsame]; rfl, fun r' => ?_⟩
  rw [htext, hleads r', hleads' r', Leads, hthrough]
  rfl

/-- A statement, an empty line and a text. -/
lemma readsEarly_append (hblock : Statement block) (hrest : Closed rest)
    (hstart : rest.head? = some 'i') :
    Closed (block ++ "\n\n".toList ++ rest) ∧
      readsEarly (block ++ "\n\n".toList ++ rest) = (readsEarly block || readsEarly rest) := by
  obtain ⟨hbones, hleads⟩ := bones_statement hblock hstart
  obtain ⟨tail, rfl⟩ : ∃ tail, rest = 'i' :: tail := List.head?_eq_some_iff.mp hstart
  obtain ⟨r', hr'⟩ := hrest.lexed
  have hidle := word_scopeOf block
  have hend : (scopeOf block).read '\n' = scopeOf block := by
    rw [Scope.read, if_pos (lineFeed_blank '\n' List.mem_cons_self), Scope.endName, hidle]
    rfl
  have hframes : (scopeOf block).frames = [] :=
    List.length_eq_zero_iff.mp (@length_scan {} _ _ hblock.closed.balanced)
  refine ⟨⟨⟨fun c hc hbreak => ?_, ?_⟩, ⟨r', (hleads r').mpr hr'⟩, ?_⟩, ?_⟩
  · rcases List.mem_append.mp hc with hc | hc
    · rcases List.mem_append.mp hc with hc | hc
      · exact hblock.closed.lined.break_eq c hc hbreak
      · simpa using hc
    · exact hrest.lined.break_eq c hc hbreak
  · rw [List.getLast?_append_of_ne_nil _ (List.cons_ne_nil _ _)]
    exact hrest.lined.last_ne
  · rw [Balanced, hbones, depthAfter?_append, hblock.closed.balanced.depthAfter?, Option.bind_some,
      ← List.singleton_append, depthAfter?_append_blanks lineFeed_blank]
    exact hrest.balanced
  · have hshown : bones true ('i' :: tail ++ ['\n']) =
        'i' :: (State.skeleton ⟨.code (some 'i'), []⟩ none (tail ++ ['\n'])) := rfl
    have hbalanced := hrest.balanced
    rw [hshown] at hbalanced
    have hresume := early_resume hframes hidle hblock.rests (by decide) (by decide) hbalanced
    rw [readsEarly, scopeOf_eq, hbones, scan_append, Scope.scan, List.foldl_cons]
    exact (congrArg (fun scope : Scope => (scope.scan _).early) hend).trans (hshown ▸ hresume)

/-- **Statements with empty lines between them** read early what one of them does. -/
lemma readsEarly_intercalate (hne : blocks ≠ []) (h : ∀ block ∈ blocks, Statement block) :
    Closed (List.intercalate "\n\n".toList blocks) ∧
      (List.intercalate "\n\n".toList blocks).head? = some 'i' ∧
      readsEarly (List.intercalate "\n\n".toList blocks) = blocks.any readsEarly := by
  induction blocks with
  | nil => exact absurd rfl hne
  | cons block blocks ih =>
      obtain ⟨hblock, hblocks⟩ := List.forall_mem_cons.mp h
      cases blocks with
      | nil =>
          rw [List.intercalate_singleton, List.any_cons, List.any_nil, Bool.or_false]
          exact ⟨hblock.closed, hblock.starts, rfl⟩
      | cons next blocks =>
          obtain ⟨hclosed, hstart, hearly⟩ := ih (List.cons_ne_nil _ _) hblocks
          obtain ⟨hclosed', hearly'⟩ := readsEarly_append hblock hclosed hstart
          rw [List.intercalate_cons_cons, List.any_cons, ← hearly]
          refine ⟨hclosed', ?_, hearly'⟩
          rw [List.append_assoc, List.head?_append, hblock.starts]
          rfl

/-! ### The tests of a script -/

variable {test setup : List Char}

lemma head?_of_mem_tests (h : test ∈ (split text).tests) : test.head? = some 'i' := by
  obtain ⟨span, hspan, rfl⟩ := List.mem_map.mp h
  exact head?_of_mem_spans hspan

lemma statement_inject (htest : Closed test) (hstart : test.head? = some 'i')
    (hrests : (scopeOf test).recent.rests) (hsetup : Closed setup)
    (hplaced : setup ≠ [] → Placed test setup) :
    Statement (inject test setup) ∧ readsEarly (inject test setup) = readsEarly test := by
  obtain ⟨hscope, hclosed⟩ := scopeOf_inject htest hsetup hplaced
  exact ⟨⟨hclosed, head?_inject hstart, by rw [hscope]; exact hrests⟩, congrArg Scope.early hscope⟩

/-- A script whose brackets match and whose literals and comments end. If it is taken apart, that
holds of its tests and its set-up, each test ends where a statement may end, and the set-up is put
at the start of a callback. -/
structure Orderly (script : Option String) (text : List Char) : Prop where
  whole : ¬ Suite.TakenApart script text → Closed text
  setup : Suite.TakenApart script text → Closed (split text).setup
  test : Suite.TakenApart script text → ∀ test ∈ (split text).tests, Closed test ∧
    (scopeOf test).recent.rests ∧ ((split text).setup ≠ [] → Placed test (split text).setup)

end RequestSuite.Script

namespace RequestSuite.Suite

open Script

variable {enhanced : Bool} {request : Request} {depth : ℕ} {parent : Option String}
  {adaptation : Adaptation} {script : Option String} {adapted : List Char}

/-- A test of a script that is taken apart is a statement with the set-up in it, and reads early
what it does without. -/
lemma statement_takenApart {test : List Char} (hscript : Orderly script (scriptText adapted))
    (hapart : TakenApart script (scriptText adapted))
    (htest : test ∈ (split (scriptText adapted)).tests) :
    Statement (inject test (split (scriptText adapted)).setup) ∧
      readsEarly (inject test (split (scriptText adapted)).setup) = readsEarly test := by
  obtain ⟨hclosed, hrests, hplaced⟩ := hscript.test hapart test htest
  exact statement_inject hclosed (head?_of_mem_tests htest) hrests (hscript.setup hapart) hplaced

lemma statements_takenApart (hscript : Orderly script (scriptText adapted))
    (hapart : TakenApart script (scriptText adapted)) :
    ∀ block ∈ (split (scriptText adapted)).tests.map
      (fun block => inject block (split (scriptText adapted)).setup), Statement block := by
  intro block hblock
  obtain ⟨test, htest, rfl⟩ := List.mem_map.mp hblock
  exact (statement_takenApart hscript hapart htest).1

/-- The tests of a script that is taken apart read early what they read in the script. -/
lemma readsEarly_takenApart (hscript : Orderly script (scriptText adapted))
    (hapart : TakenApart script (scriptText adapted)) :
    Closed (List.intercalate "\n\n".toList ((split (scriptText adapted)).tests.map fun block =>
        inject block (split (scriptText adapted)).setup)) ∧
      (readsEarly (List.intercalate "\n\n".toList ((split (scriptText adapted)).tests.map
          fun block => inject block (split (scriptText adapted)).setup)) = true ↔
        ∃ test ∈ (split (scriptText adapted)).tests, readsEarly test = true) := by
  obtain ⟨hclosed, -, hearly⟩ := readsEarly_intercalate (by simpa using hapart.2.1)
    (statements_takenApart hscript hapart)
  refine ⟨hclosed, ?_⟩
  rw [hearly, List.any_map, List.any_eq_true]
  constructor
  · rintro ⟨test, htest, hreads⟩
    exact ⟨test, htest, (statement_takenApart hscript hapart htest).2.symm.trans hreads⟩
  · rintro ⟨test, htest, hreads⟩
    exact ⟨test, htest, (statement_takenApart hscript hapart htest).2.trans hreads⟩

section File

variable (hmethod : Plain (methodName request.method).toList)

include hmethod

lemma readsEarly_of_beside {text : List Char} (h : Closed text)
    (hcases : casesOf enhanced request.script adaptation = { beside := some text }) :
    readsEarly (testText enhanced request depth parent adaptation).toList = readsEarly text := by
  have hfile := @readsEarly_testText enhanced request depth parent hmethod adaptation
    (by rw [hcases]; exact ⟨true, [], .nil true, rfl⟩) (by rw [hcases]; simpa using h)
  rw [hfile, hcases]
  rfl

/-- What stands in the default test is not read early. -/
lemma readsEarly_of_inside
    (hinside : ∃ r, Stands
      (linesText ((casesOf enhanced request.script adaptation).inside.map (indentBlock 2))) r)
    (hbeside : (casesOf enhanced request.script adaptation).beside = none) :
    readsEarly (testText enhanced request depth parent adaptation).toList = false := by
  have hfile := @readsEarly_testText enhanced request depth parent hmethod adaptation hinside
    (by rw [hbeside]; simp)
  rw [hfile, hbeside]
  rfl

end File

/-- A request whose script has a statement in front of two tests, the second with an arrow
function. -/
def sharedRequest : Request :=
  { name := "A", url := "/a",
    script := some ("const d = pm.response.json();\n" ++
      "pm.test(\"b\", function () \x7b\n  pm.expect(d).to.exist;\n\x7d);\n" ++
      "pm.test(\"c\", () => d);") }

/-- Its adaptation. -/
def sharedAdaptation : Adaptation where
  text := ("const d = response.body;\n" ++
    "it(\"b\", function () \x7b\n  expect(d).to.exist;\n\x7d);\nit(\"c\", () => d);").toList
  fellBack := false

/-- Its tests, and the statement in front of them. -/
lemma split_shared : split (scriptText sharedAdaptation.text) =
    ⟨"const d = response.body;".toList,
      ["it(\"b\", function () \x7b\n  expect(d).to.exist;\n\x7d);".toList,
        "it(\"c\", () => d);".toList], false⟩ := by
  unfold sharedAdaptation
  simp only [String.toList_append]
  repeat rw [String.toList_ofList]
  decide +kernel

/-- Its script is taken apart. -/
lemma takenApart_shared : TakenApart sharedRequest.script (scriptText sharedAdaptation.text) := by
  rw [TakenApart, split_shared]
  exact ⟨by decide, List.cons_ne_nil _ _, rfl⟩

/-- Its pieces leave nothing open. -/
lemma orderly_shared : Orderly sharedRequest.script (scriptText sharedAdaptation.text) := by
  refine ⟨fun h => absurd takenApart_shared h, fun _ => ?_, fun _ => ?_⟩
  · rw [split_shared]
    repeat rw [String.toList_ofList]
    decide
  · rw [split_shared]
    simp only [List.mem_cons, List.not_mem_nil, or_false, forall_eq_or_imp, forall_eq]
    repeat rw [String.toList_ofList]
    decide +kernel

/-- A request whose test has a name that is made from the response. -/
def namedByResponseRequest : Request :=
  { name := "Status", url := "/status",
    script := some ("pm.test(\"status \" + pm.response.code, function () \x7b\n" ++
      "  pm.expect(pm.response.code).to.equal(200);\n\x7d);") }

/-- Its adapted script. -/
def namedByResponseText : List Char :=
  ("it(\"status \" + response.status, function () \x7b\n" ++
    "  expect(response.status).to.equal(200);\n\x7d);").toList

end RequestSuite.Suite
