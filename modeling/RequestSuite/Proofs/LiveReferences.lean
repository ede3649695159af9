/-
References to the object `pm` in a test file.

* `Tells`: a text leads from code to code, and refers to a name or does not; `Tells.append`;
* `tells_hookText`: the head of a file refers to `pm` exactly where its method does;
* `tells_block`: a text that leaves nothing open, on lines of its own;
* `tells_defaultTestLines`, `tells_besideLines`: the tests of a file;
* `refersTo_of_fellBack`: a script that no rule has changed adds no reference;
* `Seamless`: a script whose pieces can be put together;
* `pm_referred_iff`: a file refers to `pm` exactly where its method or its adapted script does.
-/
import RequestSuite.Proofs.ClientCall
import RequestSuite.Proofs.ReferenceCopies

namespace RequestSuite.Script

open Text (isBlank)

variable {name cs ds text : List Char} {r r' r'' told told' : Bool} {c : Char} {scope : Scope}

/-! ### Texts that refer to a name or do not -/

/-- **A text leads from code to code**, from one place between two names to another, and it is told
whether it refers to a name. -/
def Tells (name : List Char) (r : Bool) (text : List Char) (r' told : Bool) : Prop :=
  ∃ xs, Shows r text r' xs ∧ Scope.refers {} name xs = told ∧ (Scope.scan {} xs).Fresh

lemma Tells.nil (name : List Char) (r : Bool) : Tells name r [] r false :=
  ⟨[], .nil r, rfl, by decide⟩

lemma Tells.append (h : Tells name r cs r' told) (h' : Tells name r' ds r'' told') :
    Tells name r (cs ++ ds) r'' (told || told') := by
  obtain ⟨xs, hshows, hrefers, hfresh⟩ := h
  obtain ⟨ys, hshows', hrefers', hfresh'⟩ := h'
  refine ⟨xs ++ ys, hshows.append hshows', ?_, ?_⟩
  · rw [refers_append, hrefers, hfresh.refers, hrefers']
  · rw [scan_append]
    exact hfresh.scan hfresh'

lemma Tells.after (h : Tells name r cs r' false) (h' : Tells name r' ds r'' told) :
    Tells name r (cs ++ ds) r'' told := by
  simpa using h.append h'

lemma Tells.refersTo (h : Tells name true (text ++ ['\n']) r told) :
    Script.refersTo name text = told := by
  obtain ⟨xs, hshows, hrefers, -⟩ := h
  exact (congrArg (Scope.refers {} name) (hshows none).2).trans hrefers

lemma Tells.of_blind (h : (cs.getLast?.all fun c => c ∉ ['/', '*', '$']) = true)
    (hthrough : ((ready r).through none cs).forget = ready r')
    (htold : Scope.refers {} name ((ready r).skeleton none cs) = told ∧
      (Scope.scan {} ((ready r).skeleton none cs)).Fresh) : Tells name r cs r' told :=
  ⟨_, .of_blind (.of_all h) hthrough, htold⟩

/-- The name of the object. -/
def pmName : List Char := ['p', 'm']

lemma tells_quote (r : Bool) (text : List Char) : Tells pmName r (quote text) false false :=
  ⟨['\''], shows_quoted (Or.inl rfl) (inert_escape text), rfl, by decide⟩

/-- A text of which no letter `p` is seen, and a sign. -/
lemma tells_quietIn (h : QuietIn (· ≠ 'p') cs) (hc : c = ')' ∨ c = ';') (r : Bool) :
    Tells pmName r (cs ++ [c]) (regexMayFollow (some c)) false := by
  obtain ⟨r', xs, hshows, -, hkind⟩ := h r
  have hsign : Shows r' [c] (regexMayFollow (some c)) [c] := by
    rcases hc with rfl | rfl <;> cases r' <;> exact .of_blind (.of_all rfl) rfl
  refine ⟨xs ++ [c], hshows.append hsign, Bool.eq_false_iff.mpr fun hrefers => ?_, ?_⟩
  · have hmem : 'p' ∈ xs ++ [c] := (infix_of_refers hrefers).subset List.mem_cons_self
    rcases List.mem_append.mp hmem with hmem | hmem
    · exact hkind 'p' hmem rfl
    · rw [List.mem_singleton] at hmem
      rcases hc with rfl | rfl <;> exact absurd hmem (by decide)
  · rw [scan_append]
    rcases hc with rfl | rfl
    · exact fresh_read (s := Scope.scan {} xs) (c := ')') (by decide) (by decide) (by decide)
    · exact fresh_read (s := Scope.scan {} xs) (c := ';') (by decide) (by decide) (by decide)

end RequestSuite.Script

namespace RequestSuite.Suite

open Script

variable {enhanced : Bool} {request : Request} {depth : ℕ} {parent : Option String}
  {adaptation : Adaptation} {method : List Char} {call : Call}

/-! ### The head of a file -/

lemma refersTo_member (hmethod : Plain method) : refersTo pmName ('.' :: method) =
    (Scope.read {} '.').refers pmName (method ++ ['\n']) := by
  have hplain : Plain ('.' :: method ++ ['\n']) :=
    ((.of_all rfl : Plain ['.']).append hmethod).append (.of_all rfl)
  obtain ⟨r, hr⟩ := hplain.shows true
  have hbones : bones true ('.' :: method ++ ['\n']) = '.' :: (method ++ ['\n']) := (hr none).2
  rw [refersTo_eq, hbones, Scope.refers, ends_of_idle (by decide) rfl, Bool.false_or]

lemma refersTo_member_of_name (hmethod : Plain method) (h : ∀ c ∈ method, endsName c = false) :
    refersTo pmName ('.' :: method) = false := by
  obtain ⟨hrefers, hscan⟩ := @refers_word (Scope.read {} '.') pmName method h
  have hdot : (Scope.read {} '.').recent.refers = false := by decide
  rw [refersTo_member hmethod, refers_append, hrefers, hscan, Bool.false_or]
  simp [Scope.refers, Scope.ends, hdot]

/-- The statement that sends the request, up to the arguments, refers to what its method refers to
as a member. -/
lemma tells_receiver (hmethod : Plain method) (enhanced : Bool) :
    Tells pmName true ((receiver enhanced).toList ++ (method ++ ['('])) true
      (refersTo pmName ('.' :: method)) := by
  have hreceiver : Plain (receiver enhanced).toList ∧
      Scope.refers {} pmName (receiver enhanced).toList = false ∧
      Kin (Scope.scan {} (receiver enhanced).toList) (Scope.read {} '.') := by
    unfold receiver
    cases enhanced with
    | false =>
        rw [if_neg Bool.false_ne_true, String.toList_ofList]
        exact ⟨.of_all rfl, rfl, rfl, Or.inl rfl⟩
    | true =>
        rw [if_pos rfl, String.toList_ofList]
        exact ⟨.of_all rfl, rfl, rfl, Or.inl rfl⟩
  generalize (receiver enhanced).toList = front at *
  obtain ⟨hfront, hsilent, hkin⟩ := hreceiver
  obtain ⟨r, hshows⟩ := (hfront.append hmethod).shows true
  have hopen : Shows r ['('] true ['('] := by
    cases r <;> exact .of_blind (.of_all rfl) rfl
  have hend (s : Scope) :
      s.refers pmName (method ++ ['(']) = s.refers pmName (method ++ ['\n']) := by
    rw [refers_append, refers_append]
    rfl
  refine ⟨(front ++ method) ++ ['('], ?_, ?_, ?_⟩
  · rw [← List.append_assoc]
    exact hshows.append hopen
  · rw [List.append_assoc, refers_append, hsilent, hkin.refers, hend, refersTo_member hmethod,
      Bool.false_or]
  · rw [scan_append]
    exact fresh_read (s := Scope.scan {} (front ++ method)) (c := '(') (by decide) (by decide)
      (by decide)

lemma quietIn_settingsText (headers : List (String × String)) (body : Option BodyValue) :
    QuietIn (· ≠ 'p') (settingsText headers body) := by
  have hline : QuietIn (· ≠ 'p') "\n      ".toList := .of_all rfl (by decide)
  exact .flatMap fun _ hsetting => hline.append (quietIn_setting hsetting)

set_option maxRecDepth 2000 in
/-- The hook after the arguments of its call. -/
lemma tells_afterCall (enhanced : Bool) (title : List Char) (call : Call) :
    Tells pmName false (afterCall enhanced title call) true false := by
  unfold afterCall
  cases enhanced with
  | false =>
      have hend : Tells pmName true "\n  \x7d);".toList true false := by
        rw [String.toList_ofList]
        exact .of_blind rfl rfl ⟨rfl, by decide⟩
      have hsettings := (tells_quietIn (quietIn_settingsText call.headers call.body)
        (Or.inr rfl : (';' = ')' ∨ ';' = ';')) false).after hend
      have htext : ";\n  \x7d);".toList = [';'] ++ "\n  \x7d);".toList := by
        repeat rw [String.toList_ofList]
        rfl
      rw [if_neg Bool.false_ne_true, htext, ← List.append_assoc]
      exact hsettings
  | true =>
      have herror : Tells pmName false errorGap.toList true false := by
        rw [errorGap, String.toList_ofList]
        exact .of_blind rfl rfl ⟨rfl, by decide⟩
      have hmessage : Tells pmName false messageGap.toList true false := by
        unfold messageGap
        simp only [String.toList_append]
        repeat rw [String.toList_ofList]
        exact .of_blind (by decide +kernel) (by decide +kernel) (by decide +kernel)
      have hclosing : Tells pmName false (closingText true) true false := by
        rw [closingText, if_pos rfl, String.toList_ofList]
        exact .of_blind rfl rfl ⟨rfl, by decide⟩
      rw [if_pos rfl]
      exact herror.after
        ((tells_quote _ _).after (hmessage.after ((tells_quote _ _).after hclosing)))

set_option maxRecDepth 2000 in
/-- What stands before the statement that sends the request refers to nothing. -/
lemma tells_opening (enhanced : Bool) (path title : List Char) :
    Tells pmName true (slotsText (openingSlots enhanced path title) ++ (suiteHead enhanced).toList)
      true false := by
  have himport : Tells pmName true (importHead enhanced).toList true false := by
    unfold importHead
    cases enhanced with
    | false =>
        rw [if_neg Bool.false_ne_true, String.toList_ofList]
        exact .of_blind rfl (by decide +kernel) (by decide +kernel)
    | true =>
        rw [if_pos rfl, String.toList_ofList]
        exact .of_blind rfl (by decide +kernel) (by decide +kernel)
  have hdescribe : Tells pmName false ");\n\ndescribe(".toList true false := by
    rw [String.toList_ofList]
    exact .of_blind rfl (by decide +kernel) (by decide +kernel)
  have hhead : Tells pmName false (suiteHead enhanced).toList true false := by
    unfold suiteHead
    cases enhanced with
    | false =>
        rw [if_neg Bool.false_ne_true, String.toList_ofList]
        exact .of_blind (by decide +kernel) (by decide +kernel) (by decide +kernel)
    | true =>
        simp only [if_true, String.toList_append]
        repeat rw [String.toList_ofList]
        exact .of_blind (by decide +kernel) (by decide +kernel) (by decide +kernel)
  rw [openingSlots, slotsText_cons, slotsText_cons]
  simp only [slotsText, List.flatMap_nil, List.append_nil, List.append_assoc]
  exact himport.after ((tells_quote _ _).after (hdescribe.after ((tells_quote _ _).after hhead)))

/-- **The head of a file** refers to `pm` exactly where its method does. -/
lemma tells_hookText (hmethod : Plain (methodName request.method).toList) :
    Tells pmName true (hookText enhanced request depth parent) true
      (refersTo pmName ('.' :: (methodName request.method).toList)) := by
  have harguments := (tells_quietIn (quietIn_argumentText enhanced (callOf request))
    (Or.inl rfl : (')' = ')' ∨ ')' = ';')) true).append
      (tells_afterCall enhanced (suiteName request parent).toList (callOf request))
  have hcall := (tells_receiver hmethod enhanced).append harguments
  rw [Bool.or_false, Bool.or_false] at hcall
  have hhook := (tells_opening enhanced (Layout.importPath depth setupFileName.toList)
    (suiteName request parent).toList).after hcall
  rw [hookText_eq_call, introText]
  simpa only [List.append_assoc, List.cons_append, List.nil_append] using hhook

/-! ### The tests of a file -/

variable {text : List Char} {name : List Char} {told : Bool}

/-- What closes a callback or the suite. -/
def IsClosing (closing : List Char) : Prop :=
  closing = "  \x7d);\n".toList ∨ closing = "\x7d);\n".toList

/-- **A text that leaves nothing open, on lines of its own**, refers to what it refers to for
itself. -/
lemma tells_block (hname : name ≠ []) (h : Closed text) (level : ℕ) {closing : List Char}
    (hclosing : IsClosing closing) :
    Tells name true (((indentBlock level text).toList ++ ['\n']) ++ closing) true
      (refersTo name text) := by
  obtain ⟨r, hr⟩ := h.lexed
  have hsame : SameReading (ready true) {} (text ++ ['\n']) _ :=
    sameReading_indentBlock (lineStart_ready true rfl) h.lined level
  have hblock : Shows true ((indentBlock level text).toList ++ ['\n']) r
      (bones true ((indentBlock level text).toList ++ ['\n'])) := by
    refine .of_blind (blind_line _) ?_
    rw [← hsame.through none]
    exact hr
  have hshows : Shows r closing true closing := by
    rcases hclosing with rfl | rfl <;> cases r <;> exact .of_blind (.of_all rfl) rfl
  have hsigns : ∀ c ∈ closing, endsName c = true := by
    rcases hclosing with rfl | rfl <;> decide
  have hlast (scope : Scope) : (scope.scan closing).Fresh := by
    have hend (s : Scope) : ((s.read ';').scan ['\n']).Fresh := by
      have hfresh := fresh_read (s := s) (c := ';') (by decide) (by decide) (by decide)
      rw [hfresh.lineFeed]
      exact hfresh
    rcases hclosing with rfl | rfl
    · exact hend (scope.scan "  \x7d)".toList)
    · exact hend (scope.scan "\x7d)".toList)
  refine ⟨_, hblock.append hshows, ?_, ?_⟩
  · have hscan : Scope.scan {} (bones true ((indentBlock level text).toList ++ ['\n'])) =
        scopeOf text := (hsame.scan none).symm
    have hrefers : Scope.refers {} name (bones true ((indentBlock level text).toList ++ ['\n'])) =
        refersTo name text := (hsame.refers none name hname).symm
    rw [refers_append, hrefers, hscan, refers_signs_of_idle hname (word_scopeOf text) hsigns,
      Bool.or_false]
  · rw [scan_append]
    exact hlast _

/-- A script that stands in a comment refers to nothing. -/
lemma tells_commented (script : List Char) (level : ℕ) :
    Tells pmName true ((indentBlock level (commented script)).toList ++ ['\n']) true false := by
  obtain ⟨hclosed, hleads⟩ := closed_commented script
  obtain ⟨lines, hne, heq, hlines⟩ := exists_comments script
  have hseen : bones true (commented script ++ ['\n']) = lines.flatMap fun _ => [' ', '\n'] := by
    rw [heq, joinLines_concat hne]
    exact (shows_comments hlines true none).2
  have hblank : ∀ c ∈ bones true (commented script ++ ['\n']), Text.isBlank c = true := by
    rw [hseen]
    intro c hc
    obtain ⟨-, -, hc⟩ := List.mem_flatMap.mp hc
    rcases List.mem_pair.mp hc with rfl | rfl <;> rfl
  have hsame : SameReading (ready true) {} (commented script ++ ['\n']) _ :=
    sameReading_indentBlock (lineStart_ready true rfl) hclosed.lined level
  refine ⟨_, .of_blind (blind_line _) ?_, ?_, ?_⟩
  · rw [← hsame.through none]
    exact hleads
  · rw [← hsame.refers none pmName (by decide)]
    exact refers_signs_of_idle (by decide) rfl fun c hc => endsName_of_isBlank (hblank c hc)
  · rw [← hsame.scan none]
    exact (scan_blanks_of_idle (s := {}) rfl hblank).symm ▸ (by decide : (({} : Scope)).Fresh)

set_option maxRecDepth 2000 in
/-- The default assertion refers to nothing. -/
lemma refersTo_defaultAssertion (enhanced : Bool) :
    refersTo pmName (defaultAssertion enhanced).toList = false := by
  unfold defaultAssertion
  cases enhanced with
  | false =>
      rw [if_neg Bool.false_ne_true, String.toList_ofList]
      decide +kernel
  | true =>
      rw [if_pos rfl, String.toList_ofList]
      decide +kernel

/-- What stands in the default test for a script that no rule has changed refers to nothing. -/
lemma tells_fallbackCases (enhanced : Bool) (script : Option String) :
    Tells pmName true (linesText ((fallbackCases enhanced script).inside.map (indentBlock 2)) ++
      "  \x7d);\n".toList) true false := by
  have hdefault : Tells pmName true _ true _ := tells_block (by decide)
    (closed_defaultAssertion enhanced) 2 (Or.inl rfl : IsClosing "  \x7d);\n".toList)
  rw [refersTo_defaultAssertion] at hdefault
  have hcommented (text : List Char) := (tells_commented text 2).after hdefault
  unfold fallbackCases
  cases script with
  | none => simpa [linesText] using hdefault
  | some text =>
      simp only
      split_ifs
      · simpa [linesText] using hdefault
      · simpa [linesText] using hcommented text.toList

set_option maxRecDepth 2000 in
/-- **The default test** refers to what stands in it. -/
lemma tells_defaultTestLines {inside : List (List Char)}
    (h : Tells pmName true (linesText (inside.map (indentBlock 2)) ++ "  \x7d);\n".toList) true
      told)
    (hnone : inside = [] → told = false) (enhanced : Bool) :
    Tells pmName true (linesText (defaultTestLines enhanced inside)) true told := by
  have hopening : Tells pmName true
      (linesText ["", "  it('" ++ defaultTitle ++ "', function () \x7b"]) true false := by
    unfold defaultTitle
    simp only [linesText, List.flatMap_cons, List.flatMap_nil, String.toList_append]
    repeat rw [String.toList_ofList]
    exact .of_blind (by decide +kernel) (by decide +kernel) (by decide +kernel)
  have hexpect : Tells pmName true (linesText ["    expectSuccess(response);",
      "    expectResponseTime(elapsed, DEFAULT_TIMEOUT);"]) true false := by
    simp only [linesText, List.flatMap_cons, List.flatMap_nil]
    repeat rw [String.toList_ofList]
    exact .of_blind (by decide +kernel) (by decide +kernel) (by decide +kernel)
  have hclose : linesText ["  \x7d);"] = "  \x7d);\n".toList := by
    simp [linesText]
  unfold defaultTestLines
  split_ifs with hsome henhanced
  · have htest := hopening.after (hexpect.after h)
    rw [← hclose, ← linesText_append, ← linesText_append, ← linesText_append] at htest
    simpa using htest
  · have htest := hopening.after h
    rw [← hclose, ← linesText_append, ← linesText_append] at htest
    simpa using htest
  · simp only [Bool.or_eq_true, Bool.not_eq_true', not_or, Bool.not_eq_false, List.isEmpty_iff]
      at hsome
    rw [hnone hsome.2]
    exact .nil pmName true

set_option maxRecDepth 2000 in
/-- **The end of a file** refers to what stands beside its default test. -/
lemma tells_besideLines {beside : Option (List Char)} (h : ∀ text ∈ beside, Closed text) :
    Tells pmName true (linesText (besideLines beside ++ ["\x7d);", ""])) true
      (beside.any (refersTo pmName)) := by
  have hfeed : Tells pmName true ['\n'] true false := .of_blind rfl rfl ⟨rfl, by decide⟩
  cases beside with
  | none =>
      have hend : Tells pmName true "\x7d);\n\n".toList true false := by
        rw [String.toList_ofList]
        exact .of_blind rfl (by decide +kernel) (by decide +kernel)
      simpa [besideLines, linesText] using hend
  | some text =>
      have hblock : Tells pmName true _ true _ := tells_block (by decide) (h text rfl) 1
        (Or.inr rfl : IsClosing "\x7d);\n".toList)
      have hend := (hfeed.after hblock).append hfeed
      simpa [besideLines, linesText] using hend

/-- **A file** refers to `pm` where its method does, or what stands inside its default test or
beside it. -/
lemma refersTo_testText (told : Bool) (hmethod : Plain (methodName request.method).toList)
    (hinside : Tells pmName true
      (linesText ((casesOf enhanced request.script adaptation).inside.map (indentBlock 2)) ++
        "  \x7d);\n".toList) true told)
    (hnone : (casesOf enhanced request.script adaptation).inside = [] → told = false)
    (hbeside : ∀ text ∈ (casesOf enhanced request.script adaptation).beside, Closed text) :
    refersTo pmName (testText enhanced request depth parent adaptation).toList =
      (refersTo pmName ('.' :: (methodName request.method).toList) || (told ||
        (casesOf enhanced request.script adaptation).beside.any (refersTo pmName))) := by
  have hfeed : Tells pmName true ['\n'] true false := .of_blind rfl rfl ⟨rfl, by decide⟩
  have htests := (tells_defaultTestLines hinside hnone enhanced).append (tells_besideLines hbeside)
  have hfile := (@tells_hookText enhanced request depth parent hmethod).append (hfeed.after htests)
  rw [← linesText_append, ← List.append_assoc (defaultTestLines _ _),
    ← toList_joinedLines_concat (by simp)] at hfile
  refine Tells.refersTo (r := true) ?_
  rw [testText_eq, testsText, List.append_assoc, List.cons_append]
  exact hfile

/-! ### Scripts -/

/-- An orderly script whose pieces do not run into each other: if it is taken apart, its set-up ends
where a statement may end, and no expression that is given as a callback starts with a slash. -/
structure Seamless (script : Option String) (text : List Char) : Prop
    extends Orderly script text where
  rests : TakenApart script text → (scopeOf (split text).setup).recent.loose
  plain : TakenApart script text → ∀ test ∈ (split text).tests, ∀ start stop,
    callback test = .expression start stop → ¬ StartsWithSlash (slice test start stop)

/-- The tests of a script that is taken apart refer to what they refer to in the script, and to what
the set-up refers to where a callback is written in them. -/
lemma refersTo_takenApart {script : Option String} {adapted : List Char}
    (hscript : Seamless script (scriptText adapted))
    (hapart : TakenApart script (scriptText adapted)) :
    refersTo pmName (List.intercalate "\n\n".toList ((split (scriptText adapted)).tests.map
        fun block => inject block (split (scriptText adapted)).setup)) = true ↔
      ∃ test ∈ (split (scriptText adapted)).tests, refersTo pmName test = true ∨
        refersTo pmName (split (scriptText adapted)).setup = true ∧
          callback test ≠ .missing := by
  rw [refersTo_intercalate (by decide) (statements_takenApart hscript.toOrderly hapart),
    List.any_map, List.any_eq_true]
  refine exists_congr fun test => and_congr_right fun htest => ?_
  obtain ⟨hclosed, -, hplaced⟩ := hscript.test hapart test htest
  rw [Function.comp_apply, refersTo_inject (by decide) (by decide) hclosed (hscript.setup hapart)
    (hscript.rests hapart) hplaced (hscript.plain hapart test htest)]
  simp

section File

variable (hmethod : Plain (methodName request.method).toList)

include hmethod

/-- What stands beside the default test decides. -/
lemma refersTo_of_beside (h : Closed text)
    (hcases : casesOf enhanced request.script adaptation = { beside := some text }) :
    refersTo pmName (testText enhanced request depth parent adaptation).toList =
      (refersTo pmName ('.' :: (methodName request.method).toList) || refersTo pmName text) := by
  have hclose : Tells pmName true "  \x7d);\n".toList true false :=
    .of_blind rfl rfl ⟨rfl, by decide⟩
  rw [refersTo_testText false hmethod (by rw [hcases]; exact hclose) (fun _ => rfl)
    (by rw [hcases]; simpa using h), hcases, Bool.false_or]
  rfl

/-- A script that no rule has changed adds no reference: only the method may be one. -/
lemma refersTo_of_fellBack (hback : adaptation.fellBack = true) :
    refersTo pmName (testText enhanced request depth parent adaptation).toList =
      refersTo pmName ('.' :: (methodName request.method).toList) := by
  have hcases : casesOf enhanced request.script adaptation =
      fallbackCases enhanced request.script := by rw [casesOf, hback, if_pos rfl]
  have hbeside : (fallbackCases enhanced request.script).beside = none := rfl
  rw [refersTo_testText false hmethod
    (by rw [hcases]; exact tells_fallbackCases enhanced request.script) (fun _ => rfl)
    (by rw [hcases, hbeside]; simp), hcases, hbeside, Option.any_none, Bool.or_false, Bool.or_false]

/-- What stands in the default test decides. -/
lemma refersTo_of_inside (h : Closed text)
    (hcases : casesOf enhanced request.script adaptation = { inside := [text] }) :
    refersTo pmName (testText enhanced request depth parent adaptation).toList =
      (refersTo pmName ('.' :: (methodName request.method).toList) || refersTo pmName text) := by
  have hblock : Tells pmName true _ true _ := tells_block (by decide) h 2
    (Or.inl rfl : IsClosing "  \x7d);\n".toList)
  rw [refersTo_testText (refersTo pmName text) hmethod
    (by rw [hcases]; simpa [linesText] using hblock) (by rw [hcases]; simp)
    (by rw [hcases]; simp), hcases, Option.any_none, Bool.or_false]

end File

/-- A request whose script names `pm` in a comment and in a string. -/
def convertedRequest : Request :=
  { name := "A", url := "/a",
    script := some ("const d = pm.response.json(); // pm.variables\n" ++
      "pm.test(\"pm.test\", () => pm.expect(d).to.exist);") }

/-- Its adaptation. -/
def convertedAdaptation : Adaptation where
  text := ("const d = response.body; // pm.variables\n" ++
    "it(\"pm.test\", () => expect(d).to.exist);").toList
  fellBack := false

/-- The test of this script, and the statement in front of it. -/
lemma split_converted : split (scriptText convertedAdaptation.text) =
    ⟨"const d = response.body; // pm.variables".toList,
      ["it(\"pm.test\", () => expect(d).to.exist);".toList], false⟩ := by
  unfold convertedAdaptation
  simp only [String.toList_append]
  repeat rw [String.toList_ofList]
  decide +kernel

/-- Its script is taken apart. -/
lemma takenApart_converted :
    TakenApart convertedRequest.script (scriptText convertedAdaptation.text) := by
  rw [TakenApart, split_converted]
  exact ⟨by decide, List.cons_ne_nil _ _, rfl⟩

/-- Its pieces can be put together. -/
lemma seamless_converted :
    Seamless convertedRequest.script (scriptText convertedAdaptation.text) := by
  refine ⟨⟨fun h => absurd takenApart_converted h, fun _ => ?_, fun _ => ?_⟩, fun _ => ?_,
    fun _ => ?_⟩
  · rw [split_converted]
    repeat rw [String.toList_ofList]
    decide +kernel
  · rw [split_converted]
    simp only [List.mem_cons, List.not_mem_nil, or_false, forall_eq]
    repeat rw [String.toList_ofList]
    decide +kernel
  · rw [split_converted]
    repeat rw [String.toList_ofList]
    decide +kernel
  · rw [split_converted]
    simp only [List.mem_cons, List.not_mem_nil, or_false, forall_eq]
    repeat rw [String.toList_ofList]
    intro start stop hcallback
    have hexpression : callback "it(\"pm.test\", () => expect(d).to.exist);".toList =
        .expression 19 38 := by
      repeat rw [String.toList_ofList]
      decide +kernel
    repeat rw [String.toList_ofList] at hexpression
    obtain ⟨rfl, rfl⟩ := Callback.expression.inj (hexpression.symm.trans hcallback)
    decide +kernel

/-- A request whose script has a call that no rule knows beside one that is rewritten. -/
def unconvertedRequest : Request :=
  { name := "Keep", url := "/keep",
    script := some ("pm.environment.set(\"id\", \"1\");\n" ++
      "pm.expect(pm.response.code).to.equal(200);") }

/-- Its adapted script. -/
def unconvertedText : List Char :=
  ("pm.environment.set(\"id\", \"1\");\nexpect(response.status).to.equal(200);").toList

end RequestSuite.Suite
