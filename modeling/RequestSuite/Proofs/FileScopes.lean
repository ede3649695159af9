/-
The scopes of a test file.

* `linesText`: lines with a line feed after each; `toList_joinedLines_concat`;
* `Takes`: a text leads from a place to another;
* `Stands`: a text that leaves nothing open; `stands_indentBlock`, `closed_commented`;
* `takes_callback`: the hook and the default test, whatever stands in them;
* `takes_headLines`: the head of a file; `takes_defaultTestLines`: its default test;
* `takes_closing`: the end of a file.
-/
import RequestSuite.Proofs.Injection
import RequestSuite.Proofs.WrittenText

namespace RequestSuite.Script

open Text (isBlank isLineBreak splitLines joinLines allBlank)

variable {s t u : State} {scope scope' scope'' : Scope} {r r' : Bool} {text cs ds xs : List Char}
  {e : Bool}

/-! ### Places -/

/-- **A text leads from a place to another**, whatever follows it. -/
def Takes (s : State) (scope : Scope) (text : List Char) (t : State) (scope' : Scope) : Prop :=
  ∀ after, (s.through after text).forget = t.forget ∧ scope.scan (s.skeleton after text) = scope'

lemma Takes.append (h : Takes s scope cs t scope') (h' : Takes t scope' ds u scope'') :
    Takes s scope (cs ++ ds) u scope'' := by
  intro after
  obtain ⟨hthrough, hscan⟩ := h (ds.head?.or after)
  obtain ⟨hthrough', hscan'⟩ := h' after
  obtain ⟨hforget, hsame⟩ := @State.forget_through _ _ after ds hthrough
  rw [State.through_append, State.skeleton_append, scan_append, hscan, hforget, hsame]
  exact ⟨hthrough', hscan'⟩

lemma Takes.of_shows (h : Shows r cs r' xs) : Takes (ready r) scope cs (ready r') (scope.scan xs) :=
  fun after => ⟨by rw [(h after).1, forget_ready], by rw [(h after).2]⟩

lemma Takes.of_blind (h : Blind cs) (hthrough : (s.through none cs).forget = t.forget)
    (hscan : scope.scan (s.skeleton none cs) = scope') : Takes s scope cs t scope' := by
  intro after
  obtain ⟨hthrough', hskeleton'⟩ := @State.through_blind s cs h after none
  rw [hthrough', hskeleton']
  exact ⟨hthrough, hscan⟩

lemma Blind.of_all (h : (cs.getLast?.all fun c => c ∉ ['/', '*', '$']) = true) : Blind cs := by
  intro c hc
  simpa [hc] using h

lemma Takes.of_blind_code (h : (cs.getLast?.all fun c => c ∉ ['/', '*', '$']) = true)
    (hthrough : ((ready r).through none cs).forget = ready r')
    (hscan : scope.scan ((ready r).skeleton none cs) = scope') :
    Takes (ready r) scope cs (ready r') scope' :=
  .of_blind (.of_all h) (by rw [hthrough, forget_ready]) hscan

lemma Takes.of_inert {q : Char} (h : Inert q cs) :
    Takes ⟨.quoted q, []⟩ scope cs ⟨.quoted q, []⟩ scope :=
  fun after => ⟨by rw [(h after).1], by rw [(h after).2]; rfl⟩

/-! ### Texts that leave nothing open -/

/-- A text that starts as code leads to code, and its brackets match. -/
def Stands (text : List Char) (r : Bool) : Prop := ∃ xs, Shows true text r xs ∧ Balanced xs

lemma Stands.append (h : Stands cs true) (h' : Stands ds r) : Stands (cs ++ ds) r := by
  obtain ⟨xs, hshows, hxs⟩ := h
  obtain ⟨ys, hshows', hys⟩ := h'
  exact ⟨xs ++ ys, hshows.append hshows', hxs.append hys⟩

lemma Quiet.stands (h : Quiet text) : ∃ r, Stands text r := h true

/-- A text that leaves nothing open is read as it was when it is indented. -/
lemma exists_shows_indentBlock (h : Closed text) (hr : Leads true (text ++ ['\n']) r) (level : ℕ) :
    ∃ xs, Shows true ((Suite.indentBlock level text).toList ++ ['\n']) r xs ∧ Balanced xs ∧
      Scope.scan {} xs = scopeOf text := by
  have hstart : LineStart (ready true) {} := lineStart_ready true rfl
  have hsame := sameReading_indentBlock hstart h.lined level
  refine ⟨_, .of_blind (blind_line _) ?_, ?_, (hsame.scan none).symm⟩
  · rw [← hsame.through none]
    exact hr
  · rw [Balanced, ← hsame.depth none 0]
    exact h.balanced

lemma stands_indentBlock (h : Closed text) (hr : Leads true (text ++ ['\n']) r) (level : ℕ) :
    Stands ((Suite.indentBlock level text).toList ++ ['\n']) r := by
  obtain ⟨xs, hshows, hxs, -⟩ := exists_shows_indentBlock h hr level
  exact ⟨xs, hshows, hxs⟩

lemma word_scopeOf (text : List Char) : (scopeOf text).word = [] :=
  (LineStart.of_line (lineStart_ready true rfl).toSound text none).idle

/-- Signs and white space read nothing. -/
lemma early_scan_signs (hidle : scope.word = []) (h : ∀ c ∈ cs, isNameChar c = false) :
    (scope.scan cs).early = scope.early := by
  induction cs generalizing scope with
  | nil => rfl
  | cons c cs ih =>
      obtain ⟨hc, hcs⟩ := List.forall_mem_cons.mp h
      have hread : (scope.read c).early = scope.early := by
        have hend : scope.endName = scope := by rw [Scope.endName, hidle]; rfl
        rw [Scope.read, hend, hc]
        split_ifs <;> rfl
      exact (ih (word_read hc) hcs).trans hread

/-! ### The suite -/

/-- The place in a suite between two statements. -/
def suiteScope (early : Bool) : Scope := ⟨[.other, .other], .other, [], early⟩

/-- The place at the start of a callback in a suite. -/
def callbackScope (early : Bool) : Scope :=
  ⟨[.body, .call false, .other, .other], .other, [], early⟩

/-- **A callback in a suite**, whatever stands in it, leads back to the suite. -/
lemma takes_callback {opening body : List Char}
    (hopening : Takes (ready true) (suiteScope e) opening (ready true) (callbackScope e))
    (hbody : Stands body r) :
    Takes (ready true) (suiteScope e) (opening ++ (body ++ "  \x7d);\n".toList)) (ready true)
      (suiteScope e) := by
  obtain ⟨xs, hshows, hxs⟩ := hbody
  have hbase : Settled [.body, .call false, .other, .other] := fun a h => by simp at h
  have hstart : Above [.body, .call false, .other, .other] (callbackScope e) 0 := ⟨[], rfl, rfl⟩
  have hinside := hstart.scan hbase hxs
  have hearly := early_scan hbase rfl hstart hxs
  have hclosing : Shows r "  \x7d);\n".toList true "  \x7d);\n".toList := by
    cases r
    · exact .of_blind (.of_all rfl) rfl
    · exact .of_blind (.of_all rfl) rfl
  have hscan : ((callbackScope e).scan xs).scan "  \x7d);\n".toList = suiteScope e := by
    have hblanks : ∀ c ∈ [' ', ' '], isBlank c = true := List.all_eq_true.mp rfl
    obtain ⟨hframes, hearly'⟩ := @scan_blanks [' ', ' '] ((callbackScope e).scan xs) hblanks
    have habove : Above [.body, .call false, .other, .other]
        (((callbackScope e).scan xs).scan [' ', ' ']) 0 := by
      obtain ⟨fs, hfs, hlength⟩ := hinside
      exact ⟨fs, hframes.trans hfs, hlength⟩
    have hbrace := read_body_brace habove
    rw [hearly' hinside.guarded, hearly] at hbrace
    calc ((callbackScope e).scan xs).scan "  \x7d);\n".toList
        = ((((callbackScope e).scan xs).scan [' ', ' ']).read '\x7d').scan ");\n".toList := rfl
      _ = suiteScope e := by
          rw [hbrace]
          rfl
  refine hopening.append ?_
  rw [← hscan, ← scan_append]
  exact .of_shows (hshows.append hclosing)

/-! ### Comments -/

/-- A line that is a comment. -/
def IsComment (line : List Char) : Prop :=
  ∃ rest, line = '/' :: '/' :: rest ∧ ∀ c ∈ rest, isLineBreak c = false

/-- The rest of a comment is passed over. -/
lemma through_lineComment {last after : Option Char} (h : ∀ c ∈ text, isLineBreak c = false) :
    (⟨.lineComment last, []⟩ : State).through after (text ++ ['\n']) = ⟨.code last, []⟩ ∧
      (⟨.lineComment last, []⟩ : State).skeleton after (text ++ ['\n']) = ['\n'] := by
  induction text with
  | nil => exact ⟨rfl, rfl⟩
  | cons c text ih =>
      obtain ⟨hc, htext⟩ := List.forall_mem_cons.mp h
      have hne : c ≠ '\n' := by
        rintro rfl
        exact absurd hc (by decide)
      obtain ⟨hthrough, hskeleton⟩ := ih htext
      rw [List.cons_append, State.through, State.skeleton]
      simp only [State.step, State.shown, Mode.readsCode?, if_neg hne, Mode.inside]
      exact ⟨hthrough, hskeleton⟩

/-- Of a comment a space and the line feed are seen. -/
lemma IsComment.shows {line : List Char} (h : IsComment line) (r : Bool) :
    Shows r (line ++ ['\n']) r [' ', '\n'] := by
  obtain ⟨rest, rfl, hrest⟩ := h
  intro after
  obtain ⟨hthrough, hskeleton⟩ := @through_lineComment ('/' :: rest)
    (if r then none else some ')') after (List.forall_mem_cons.mpr ⟨by decide, hrest⟩)
  have hopen : (ready r).step '/' (some '/') = ⟨.lineComment (if r then none else some ')'), []⟩ ∧
      (ready r).shown '/' (some '/') = [' '] := by
    simp [ready, State.step, State.shown, Mode.readsCode?, opened?]
  rw [List.cons_append, List.cons_append, State.through, State.skeleton, List.head?_cons,
    Option.some_or, hopen.1, hopen.2, ← List.cons_append, hthrough, hskeleton]
  exact ⟨forget_ready r, rfl⟩

lemma shows_comments {lines : List (List Char)} (h : ∀ line ∈ lines, IsComment line) (r : Bool) :
    Shows r (lines.flatMap (· ++ ['\n'])) r (lines.flatMap fun _ => [' ', '\n']) := by
  induction lines with
  | nil => exact .nil r
  | cons line lines ih =>
      obtain ⟨hline, hlines⟩ := List.forall_mem_cons.mp h
      exact (hline.shows r).append (ih hlines)

/-- The last character of lines put together is one of the last line. -/
lemma getLast?_joinLines {lines : List (List Char)} (h : ∀ line ∈ lines, line ≠ [])
    (hne : lines ≠ []) : ∃ line ∈ lines, (joinLines lines).getLast? = line.getLast? := by
  induction lines with
  | nil => exact absurd rfl hne
  | cons line lines ih =>
      obtain ⟨hline, hlines⟩ := List.forall_mem_cons.mp h
      cases lines with
      | nil => exact ⟨line, List.mem_cons_self, by simp [joinLines]⟩
      | cons next lines =>
          obtain ⟨last, hlast, heq⟩ := ih hlines (List.cons_ne_nil _ _)
          have hjoined : joinLines (next :: lines) ≠ [] := by
            intro hnil
            have hsome := List.getLast?_isSome.mpr (hlines last hlast)
            rw [← heq, hnil] at hsome
            simp at hsome
          refine ⟨last, List.mem_cons_of_mem _ hlast, ?_⟩
          rw [Suite.joinLines_cons_cons, List.append_cons,
            List.getLast?_append_of_ne_nil _ hjoined, heq]

/-- **Comments leave nothing open.** -/
lemma closed_of_comments {lines : List (List Char)} (h : ∀ line ∈ lines, IsComment line)
    (hne : lines ≠ []) :
    Closed (joinLines lines) ∧ Leads true (joinLines lines ++ ['\n']) true := by
  obtain ⟨hthrough, hskeleton⟩ := shows_comments h true none
  rw [← joinLines_concat hne] at hthrough hskeleton
  refine ⟨⟨⟨fun c hc hbreak => ?_, fun hlast => ?_⟩, ⟨true, hthrough⟩, ?_⟩, hthrough⟩
  · rcases Layout.mem_intercalate hc with hc | ⟨line, hline, hc⟩
    · exact hc
    · obtain ⟨rest, rfl, hrest⟩ := h line hline
      rcases List.mem_cons.mp hc with rfl | hc
      · exact absurd hbreak (by decide)
      · rcases List.mem_cons.mp hc with rfl | hc
        · exact absurd hbreak (by decide)
        · rw [hrest c hc] at hbreak
          simp at hbreak
  · have hlines : ∀ line ∈ lines, line ≠ [] := by
      intro line hline
      obtain ⟨rest, rfl, -⟩ := h line hline
      exact List.cons_ne_nil _ _
    obtain ⟨line, hline, heq⟩ := getLast?_joinLines hlines hne
    rw [heq] at hlast
    obtain ⟨rest, rfl, hrest⟩ := h line hline
    have hmem := List.mem_of_getLast? hlast
    simp only [List.mem_cons, show ('\n' : Char) ≠ '/' by decide, false_or] at hmem
    exact absurd (hrest '\n' hmem) (by decide)
  · rw [bones, hskeleton, Balanced, ← List.append_nil (lines.flatMap _),
      depthAfter?_append_blanks]
    · rfl
    · intro c hc
      obtain ⟨-, -, hc⟩ := List.mem_flatMap.mp hc
      rcases List.mem_pair.mp hc with rfl | rfl <;> rfl

/-- A line behind the mark of a comment. -/
lemma isComment_trimEnd {line : List Char} (h : ∀ c ∈ line, isLineBreak c = false) :
    IsComment (Text.trimEnd ("// ".toList ++ line)) := by
  have hreverse : ("// ".toList ++ line).reverse = (line.reverse ++ [' ']) ++ ['/', '/'] := by simp
  rw [Text.trimEnd, Text.dropEndWhile, hreverse, List.dropWhile_append]
  split_ifs
  · exact ⟨[], rfl, by simp⟩
  · refine ⟨((line.reverse ++ [' ']).dropWhile isBlank).reverse, by simp, fun c hc => ?_⟩
    have hmem := (List.dropWhile_sublist isBlank).mem (List.mem_reverse.mp hc)
    rcases List.mem_append.mp hmem with hmem | hmem
    · exact h c (List.mem_reverse.mp hmem)
    · rw [List.mem_singleton.mp hmem]
      rfl

/-- The lines of a script that stands in a comment are comments. -/
lemma isComment_of_mem {script line : List Char}
    (h : line ∈ "// Unconverted Postman script:".toList ::
      (Text.splitLines script).map fun line => Text.trimEnd ("// ".toList ++ line)) :
    IsComment line := by
  rcases List.mem_cons.mp h with rfl | h
  · refine ⟨" Unconverted Postman script:".toList, rfl, fun c hc => ?_⟩
    have hall : (" Unconverted Postman script:".toList.all fun c => !isLineBreak c) = true := rfl
    simpa using List.all_eq_true.mp hall c hc
  · obtain ⟨text, htext, rfl⟩ := List.mem_map.mp h
    exact isComment_trimEnd (Text.not_isLineBreak_of_mem htext)

lemma exists_comments (script : List Char) : ∃ lines, lines ≠ [] ∧
    Suite.commented script = joinLines lines ∧ ∀ line ∈ lines, IsComment line :=
  ⟨_, List.cons_ne_nil _ _, rfl, fun _ => isComment_of_mem⟩

lemma closed_commented (script : List Char) :
    Closed (Suite.commented script) ∧ Leads true (Suite.commented script ++ ['\n']) true := by
  obtain ⟨lines, hne, heq, hlines⟩ := exists_comments script
  rw [heq]
  exact closed_of_comments hlines hne

end RequestSuite.Script

namespace RequestSuite.Suite

open Script

/-- Lines with a line feed after each. -/
def linesText (lines : List String) : List Char := lines.flatMap fun line => line.toList ++ ['\n']

lemma linesText_append (lines more : List String) :
    linesText (lines ++ more) = linesText lines ++ linesText more := List.flatMap_append

lemma toList_joinedLines_concat {lines : List String} (h : lines ≠ []) :
    (joinedLines lines).toList ++ ['\n'] = linesText lines := by
  rw [toList_joinedLines, joinLines_concat (by simpa using h), List.flatMap_map]
  rfl

variable {e : Bool} {setupPath title : String} {call : Call}

/-- A line before a hook or a test, and its closing line. -/
lemma takes_callbackLines {opening : String} {body : List String} {r : Bool}
    (hopening : Takes (ready true) (suiteScope e) (opening.toList ++ ['\n']) (ready true)
      (callbackScope e)) (hbody : Stands (linesText body) r) :
    Takes (ready true) (suiteScope e) (linesText (opening :: (body ++ ["  \x7d);"]))) (ready true)
      (suiteScope e) := by
  have htext : linesText (opening :: (body ++ ["  \x7d);"])) =
      (opening.toList ++ ['\n']) ++ (linesText body ++ "  \x7d);\n".toList) := by
    rw [linesText, List.flatMap_cons, List.flatMap_append]
    rfl
  rw [htext]
  exact takes_callback hopening hbody

/-- The place among the arguments of the call that declares the suite. -/
def describeScope : Scope := ⟨[.other], .other, [], false⟩

set_option maxRecDepth 2000 in
/-- A file starts with a line that asks for the shared module. -/
lemma takes_importHead (enhanced : Bool) :
    Takes (ready true) {} (importHead enhanced).toList (ready true) describeScope := by
  cases enhanced with
  | false =>
      rw [importHead, if_neg Bool.false_ne_true, String.toList_ofList]
      exact .of_blind_code rfl rfl rfl
  | true =>
      rw [importHead, if_pos rfl, String.toList_ofList]
      exact .of_blind_code rfl rfl rfl

/-- After it comes the line that names the suite. -/
lemma takes_intro (enhanced : Bool) (path : List Char) {name opening : List Char}
    (hname : Inert '\'' name)
    (hopening : Takes ⟨.quoted '\'', []⟩ describeScope opening (ready true) (suiteScope false)) :
    Takes (ready true) {}
      ((importHead enhanced).toList ++
        (quote path ++ (");\n\ndescribe('".toList ++ (name ++ opening)))) (ready true)
      (suiteScope false) := by
  have hpath : Takes (ready true) describeScope (quote path) (ready false) describeScope :=
    .of_shows (shows_quoted (Or.inl rfl) (inert_escape path))
  have hmiddle : Takes (ready false) describeScope ");\n\ndescribe('".toList ⟨.quoted '\'', []⟩
      describeScope := .of_blind (.of_all rfl) rfl rfl
  exact (takes_importHead enhanced).append
    (hpath.append (hmiddle.append ((Takes.of_inert hname).append hopening)))

/-- The lines of a file before its hook. -/
def introLines (enhanced : Bool) (path title : String) : List String :=
  [importHead enhanced ++ literal path ++ ");", "",
    "describe('" ++ title ++ "', function () \x7b", "  let response;"] ++
    (if enhanced then ["  let elapsed;"] else []) ++ [""]

set_option maxRecDepth 2000 in
lemma takes_introLines (enhanced : Bool) (path : List Char) {name : List Char}
    (h : Inert '\'' name) :
    Takes (ready true) {}
      (linesText (introLines enhanced (String.ofList path) (String.ofList name)))
      (ready true) (suiteScope false) := by
  cases enhanced with
  | false =>
      have hopening : Takes ⟨.quoted '\'', []⟩ describeScope
          "', function () \x7b\n  let response;\n\n".toList (ready true) (suiteScope false) := by
        rw [String.toList_ofList]
        exact .of_blind (.of_all rfl) rfl rfl
      simpa [introLines, linesText, literal] using takes_intro false path h hopening
  | true =>
      have hopening : Takes ⟨.quoted '\'', []⟩ describeScope
          "', function () \x7b\n  let response;\n  let elapsed;\n\n".toList (ready true)
          (suiteScope false) := by
        rw [String.toList_ofList]
        exact .of_blind (.of_all rfl) rfl rfl
      simpa [introLines, linesText, literal] using takes_intro true path h hopening

/-- The lines of the hook between its first and its last. -/
def hookLines (enhanced : Bool) (title : String) (call : Call) : List String :=
  if enhanced then
    ["    const startTime = Date.now();", "    try \x7b", "      " ++ enhancedCall call,
      "    \x7d catch (error) \x7b",
      "      console.error('✗ " ++ title ++ " failed:', error.message);", "      throw error;",
      "    \x7d", "    elapsed = Date.now() - startTime;",
      "    console.log('✓ " ++ title ++
        " - Status: ' + response.status + ', Time: ' + elapsed + 'ms');"]
  else ["    " ++ plainCall call]

lemma quiet_of_blind {cs : List Char} (h : (cs.getLast?.all fun c => c ∉ ['/', '*', '$']) = true)
    (hread : ∀ r, ∃ r', ((ready r).through none cs).forget = ready r' ∧
      depthAfter? 0 ((ready r).skeleton none cs) = some 0) : Quiet cs := by
  intro r
  obtain ⟨r', hthrough, hbalanced⟩ := hread r
  exact ⟨r', _, .of_blind (.of_all h) hthrough, hbalanced⟩

lemma quiet_titled {name front back : List Char} (hname : Inert '\'' name)
    (hfront : (front.all fun c => c ∉ ['\\', '\'', '\n']) = true)
    (hback : (back.all fun c => c ∉ ['\\', '\'', '\n']) = true) :
    Quiet ('\'' :: (front ++ (name ++ back)) ++ ['\'']) := by
  have hinert {cs : List Char} (h : (cs.all fun c => c ∉ ['\\', '\'', '\n']) = true) :
      Inert '\'' cs := .of_forall fun c hc => by simpa using List.all_eq_true.mp h c hc
  exact quiet_quoted (Or.inl rfl) ((hinert hfront).append (hname.append (hinert hback)))

set_option maxRecDepth 2000 in
/-- What stands in the hook of an enhanced file can stand anywhere in code. -/
lemma quiet_enhancedHook {name : List Char} (hname : Inert '\'' name)
    (hcall : Quiet (enhancedCall call).toList) :
    Quiet (linesText (hookLines true (String.ofList name) call)) := by
  have hstart : Quiet "    const startTime = Date.now();\n    try ".toList := by
    rw [String.toList_ofList]
    exact quiet_of_blind rfl (by decide)
  have htry : Quiet ('\x7b' :: (("\n      ".toList ++ ((enhancedCall call).toList ++
      "\n    ".toList)) ++ ['\x7d'])) :=
    .brackets rfl rfl ((Quiet.of_all rfl).append (hcall.append (.of_all rfl)))
  have hcatch : Quiet " catch (error) ".toList := by
    rw [String.toList_ofList]
    exact quiet_of_blind rfl (by decide)
  have hfailed := quiet_arguments (.of_all rfl : Plain "\n      console.error".toList)
    ((quiet_titled hname (rfl : ("✗ ".toList.all fun c => c ∉ ['\\', '\'', '\n']) = true)
      (rfl : (" failed:".toList.all fun c => c ∉ ['\\', '\'', '\n']) = true)).append
      (.of_all (by decide) : Quiet ", error.message".toList))
  have hthrow : Quiet ";\n      throw error;\n    ".toList := .of_all (by decide)
  have hcaught := (hfailed.append hthrow).brackets (o := '\x7b') (c := '\x7d') rfl rfl
  have hmeasure : Quiet "\n    elapsed = Date.now() - startTime;\n".toList := by
    rw [String.toList_ofList]
    exact quiet_of_blind rfl (by decide)
  have htail : Quiet " + response.status + ', Time: ' + elapsed + 'ms'".toList := by
    rw [String.toList_ofList]
    exact quiet_of_blind rfl (by decide)
  have hlog := quiet_arguments (.of_all rfl : Plain "    console.log".toList)
    ((quiet_titled hname (rfl : ("✓ ".toList.all fun c => c ∉ ['\\', '\'', '\n']) = true)
      (rfl : (" - Status: ".toList.all fun c => c ∉ ['\\', '\'', '\n']) = true)).append htail)
  have hhook := hstart.append (htry.append (hcatch.append (hcaught.append (hmeasure.append
    (hlog.append (.of_all rfl : Quiet ";\n".toList))))))
  simpa [hookLines, linesText] using hhook

variable {enhanced : Bool} {request : Request} {depth : ℕ} {parent : Option String}
  {script : Option String} {text : List Char}

lemma takes_before (e : Bool) :
    Takes (ready true) (suiteScope e) ("  before(async function () \x7b".toList ++ ['\n'])
      (ready true) (callbackScope e) := by
  rw [String.toList_ofList]
  cases e
  · exact .of_blind_code rfl rfl rfl
  · exact .of_blind_code rfl rfl rfl

lemma headLines_eq (enhanced : Bool) (request : Request) (depth : ℕ) (parent : Option String) :
    headLines enhanced request depth parent =
      introLines enhanced (String.ofList (Layout.importPath depth setupFileName.toList))
          (String.ofList (escape (suiteName request parent).toList)) ++
        "  before(async function () \x7b" ::
          (hookLines enhanced (String.ofList (escape (suiteName request parent).toList))
            (callOf request) ++ ["  \x7d);"]) := by
  cases enhanced <;> rfl

/-- **The head of a file** leads into the suite, and reads nothing early. -/
lemma takes_headLines (hmethod : Plain (methodName request.method).toList) :
    Takes (ready true) {} (linesText (headLines enhanced request depth parent)) (ready true)
      (suiteScope false) := by
  have hname := inert_escape (suiteName request parent).toList
  have hhook : Quiet (linesText (hookLines enhanced
      (String.ofList (escape (suiteName request parent).toList)) (callOf request))) := by
    cases enhanced with
    | false =>
        have hline := ((Quiet.of_all rfl : Quiet "    ".toList).append
          (@quiet_plainCall (callOf request) hmethod)).append (Quiet.of_all rfl : Quiet ['\n'])
        simpa [hookLines, linesText] using hline
    | true => exact quiet_enhancedHook hname (quiet_enhancedCall hmethod)
  obtain ⟨r, hbody⟩ := hhook.stands
  rw [headLines_eq, linesText_append]
  exact (takes_introLines enhanced _ hname).append (takes_callbackLines (takes_before false) hbody)

set_option maxRecDepth 2000 in
/-- The line that opens the default test. -/
lemma takes_it (e : Bool) :
    Takes (ready true) (suiteScope e)
      (("  it('" ++ defaultTitle ++ "', function () \x7b").toList ++ ['\n']) (ready true)
      (callbackScope e) := by
  unfold defaultTitle
  simp only [String.toList_append]
  repeat rw [String.toList_ofList]
  cases e
  · exact .of_blind_code rfl rfl rfl
  · exact .of_blind_code rfl rfl rfl

lemma takes_blank (e : Bool) :
    Takes (ready true) (suiteScope e) ['\n'] (ready true) (suiteScope e) := by
  cases e
  · exact .of_blind_code rfl rfl rfl
  · exact .of_blind_code rfl rfl rfl

set_option maxRecDepth 2000 in
lemma stands_expectLines : Stands (linesText ["    expectSuccess(response);",
    "    expectResponseTime(elapsed, DEFAULT_TIMEOUT);"]) true := by
  simp only [linesText, List.flatMap_cons, List.flatMap_nil]
  repeat rw [String.toList_ofList]
  exact ⟨_, .of_blind (.of_all rfl) rfl, rfl⟩

/-- **The default test** leads back to the suite, and reads nothing early. -/
lemma takes_defaultTestLines {inside : List (List Char)} {r : Bool}
    (h : Stands (linesText (inside.map (indentBlock 2))) r) (e : Bool) :
    Takes (ready true) (suiteScope e) (linesText (defaultTestLines enhanced inside)) (ready true)
      (suiteScope e) := by
  unfold defaultTestLines
  split_ifs with hsome henhanced
  · have hbody : Stands (linesText
        (["    expectSuccess(response);", "    expectResponseTime(elapsed, DEFAULT_TIMEOUT);"] ++
          inside.map (indentBlock 2))) r := by
      rw [linesText_append]
      exact stands_expectLines.append h
    have htest := (takes_blank e).append (takes_callbackLines (takes_it e) hbody)
    simpa [linesText] using htest
  · have htest := (takes_blank e).append (takes_callbackLines (takes_it e) h)
    simpa [linesText] using htest
  · intro after
    exact ⟨rfl, rfl⟩

/-! ### What a script contributes -/

set_option maxRecDepth 2000 in
lemma closed_defaultAssertion (enhanced : Bool) : Closed (defaultAssertion enhanced).toList := by
  cases enhanced
  · rw [defaultAssertion, if_neg Bool.false_ne_true, String.toList_ofList]
    exact ⟨.of_all rfl, ⟨true, rfl⟩, rfl⟩
  · rw [defaultAssertion, if_pos rfl, String.toList_ofList]
    exact ⟨.of_all rfl, ⟨true, rfl⟩, rfl⟩

lemma stands_inside {text : List Char} (h : Closed text) :
    ∃ r, Stands (linesText ([text].map (indentBlock 2))) r := by
  obtain ⟨r, hr⟩ := h.lexed
  refine ⟨r, ?_⟩
  simpa [linesText] using stands_indentBlock h hr 2

/-- What stands in the default test for a script that no rule has changed leaves nothing open. -/
lemma stands_fallbackCases (enhanced : Bool) (script : Option String) :
    ∃ r, Stands (linesText ((fallbackCases enhanced script).inside.map (indentBlock 2))) r := by
  obtain ⟨r, hdefault⟩ := stands_inside (closed_defaultAssertion enhanced)
  have hcommented (text : List Char) : Stands
      (linesText ([commented text, (defaultAssertion enhanced).toList].map (indentBlock 2))) r := by
    obtain ⟨hclosed, hleads⟩ := closed_commented text
    exact (stands_indentBlock hclosed hleads 2).append hdefault
  refine ⟨r, ?_⟩
  cases script with
  | none => exact hdefault
  | some text =>
      unfold fallbackCases
      simp only
      split_ifs
      · exact hdefault
      · exact hcommented text.toList

/-! ### The end of a file -/

lemma readsEarly_of_takes {text : List Char} {s : State} {scope : Scope}
    (h : Takes (ready true) {} (text ++ ['\n']) s scope) : readsEarly text = scope.early :=
  congrArg Scope.early (h none).2

/-- The end of a file reads nothing. -/
lemma takes_closing {scope : Scope} (h : scope.word = []) (r : Bool) :
    ∃ t scope', Takes (ready r) scope (linesText ["\x7d);", ""]) t scope' ∧
      scope'.early = scope.early := by
  have hclosing : Shows r (linesText ["\x7d);", ""]) true "\x7d);\n\n".toList := by
    cases r
    · exact .of_blind (.of_all rfl) rfl
    · exact .of_blind (.of_all rfl) rfl
  have hsigns : ("\x7d);\n\n".toList.all fun c => !isNameChar c) = true := by decide
  refine ⟨_, _, .of_shows hclosing, early_scan_signs h fun c hc => ?_⟩
  simpa using List.all_eq_true.mp hsigns c hc

/-- What stands beside the default test is read as it is read for itself. -/
lemma takes_besideLines {text : List Char} (h : Closed text) :
    ∃ t scope', Takes (ready true) (suiteScope false)
        (linesText (besideLines (some text) ++ ["\x7d);", ""])) t scope' ∧
      scope'.early = readsEarly text := by
  obtain ⟨r, hr⟩ := h.lexed
  obtain ⟨xs, hshows, hxs, hscan⟩ := exists_shows_indentBlock h hr 1
  have hbase : Settled [Frame.other, .other] := fun a h => by simp at h
  have hinside : (suiteScope false).scan xs = (scopeOf text).within [.other, .other] false := by
    rw [← hscan]
    exact scan_within (s := {}) hbase rfl false hxs
  have hblock : Takes (ready true) (suiteScope false)
      ((indentBlock 1 text).toList ++ ['\n']) (ready r)
      ((scopeOf text).within [.other, .other] false) := hinside ▸ .of_shows hshows
  obtain ⟨t, scope', hclosing, hearly⟩ :=
    @takes_closing ((scopeOf text).within [.other, .other] false) (word_scopeOf text) r
  refine ⟨t, scope', ?_, ?_⟩
  · simpa [besideLines, linesText] using (takes_blank false).append (hblock.append hclosing)
  · rw [hearly]
    exact Bool.false_or _

/-- **A file reads `response` early exactly where what stands beside its default test does.** -/
theorem readsEarly_testText
    (hmethod : Plain (methodName request.method).toList)
    {adaptation : Adaptation} (hinside : ∃ r, Stands
      (linesText ((casesOf enhanced request.script adaptation).inside.map (indentBlock 2))) r)
    (hbeside : ∀ text ∈ (casesOf enhanced request.script adaptation).beside, Closed text) :
    readsEarly (testText enhanced request depth parent adaptation).toList =
      (casesOf enhanced request.script adaptation).beside.any readsEarly := by
  obtain ⟨r, hinside⟩ := hinside
  set parts := casesOf enhanced request.script adaptation with hparts
  have hfront := (@takes_headLines enhanced request depth parent hmethod).append
    (@takes_defaultTestLines enhanced parts.inside r hinside false)
  have hclosing : ∃ t scope, Takes (ready true) (suiteScope false)
      (linesText (besideLines parts.beside ++ ["\x7d);", ""])) t scope ∧
        scope.early = parts.beside.any readsEarly := by
    cases hcase : parts.beside with
    | none => exact takes_closing rfl true
    | some text => exact takes_besideLines (hbeside text hcase)
  obtain ⟨t, scope, htakes, hearly⟩ := hclosing
  have hwhole := hfront.append htakes
  rw [← linesText_append, ← linesText_append, ← List.append_assoc,
    ← toList_joinedLines_concat (by simp)] at hwhole
  rw [← hearly]
  exact readsEarly_of_takes hwhole

end RequestSuite.Suite
