/-
The call with which a hook sends its request.

* `NameUnit`, `Spells`, `IdentifierName`: how a name is written in a script, characters or escapes;
  `Spells.unmarked`: it is code;
* `definedMethods`, `definedMethods_setupText`: the methods of the client in the shared module;
* `quietIn_argumentText`: the arguments of a call leave nothing open;
* `entryText_eq`, `reading_entryText`: a test file around the method of its request, and how it is
  read;
* `CallsClient`: a hook calls a method of the client, and its method adds nothing else to the file;
* `ClientMethod`, `calls_client_iff`: so it is exactly where the method is a name, and in the
  enhanced style one that the client has; `other_code_from_method`: where it is not.
-/
import RequestSuite.Proofs.BuildResult
import RequestSuite.Proofs.RequestData

namespace RequestSuite

namespace Script

/-! ### Names -/

/-- What may stand in a name, at its start or after it. Of the characters beyond ASCII those may
that `beyond` says. -/
def mayName (beyond : Bool → Char → Bool) (first : Bool) (c : Char) : Bool :=
  if c.toNat < 128 then c.isAlpha || c == '$' || c == '_' || !first && c.isDigit
  else beyond first c

/-- The number of some hexadecimal digits after others. -/
def hexNumber? (n : ℕ) : List Char → Option ℕ
  | [] => some n
  | c :: cs => (Text.hexValue? c).bind fun digit => hexNumber? (16 * n + digit) cs

/-- How a character of a name is written: as it is, or as an escape with its number. -/
inductive NameUnit : List Char → Char → Prop
  | plain (c : Char) : NameUnit [c] c
  | short {digits : List Char} {c : Char} (length_eq : digits.length = 4)
      (number : hexNumber? 0 digits = some c.toNat) : NameUnit ('\\' :: 'u' :: digits) c
  | long {digits : List Char} {c : Char} (ne_nil : digits ≠ [])
      (number : hexNumber? 0 digits = some c.toNat) :
      NameUnit ('\\' :: 'u' :: '\x7b' :: (digits ++ ['\x7d'])) c

/-- How the characters of a name are written, from its start on or after that. -/
inductive Spells (beyond : Bool → Char → Bool) : Bool → List Char → List Char → Prop
  | nil : Spells beyond false [] []
  | cons {first : Bool} {cs text value : List Char} {c : Char} (unit : NameUnit cs c)
      (may : mayName beyond first c = true) (others : Spells beyond false text value) :
      Spells beyond first (cs ++ text) (c :: value)

/-- A text is a name of a script, written in one way or another. -/
def IdentifierName (beyond : Bool → Char → Bool) (text value : List Char) : Prop :=
  Spells beyond true text value

variable {beyond : Bool → Char → Bool} {first : Bool} {cs text value : List Char} {c : Char}

lemma not_mem_marks_of_mayName (h : mayName beyond first c = true) : c ∉ marks := by
  intro hc
  simp only [marks, List.mem_cons, List.not_mem_nil, or_false] at hc
  rcases hc with rfl | rfl | rfl | rfl <;> cases first <;> cases h

lemma not_mem_marks_of_hexNumber? {n m : ℕ} {digits : List Char}
    (h : hexNumber? n digits = some m) : ∀ c ∈ digits, c ∉ marks := by
  have hmarks : ∀ c ∈ marks, Text.hexValue? c = none := by decide
  induction digits generalizing n with
  | nil => exact fun c hc => (List.not_mem_nil hc).elim
  | cons c digits ih =>
      obtain ⟨digit, hdigit, hrest⟩ := Option.bind_eq_some_iff.mp h
      refine List.forall_mem_cons.mpr ⟨fun hc => ?_, ih hrest⟩
      rw [hmarks c hc] at hdigit
      cases hdigit

lemma NameUnit.unmarked (h : NameUnit cs c) (hmay : mayName beyond first c = true) :
    ∀ d ∈ cs, d ∉ marks := by
  cases h with
  | plain => exact List.forall_mem_singleton.mpr (not_mem_marks_of_mayName hmay)
  | short _ hnumber =>
      have hdigits := not_mem_marks_of_hexNumber? hnumber
      exact List.forall_mem_cons.mpr ⟨by decide, List.forall_mem_cons.mpr ⟨by decide, hdigits⟩⟩
  | long _ hnumber =>
      have hdigits := not_mem_marks_of_hexNumber? hnumber
      have hrest := List.forall_mem_append.mpr
        ⟨hdigits, List.forall_mem_singleton.mpr (by decide : '\x7d' ∉ marks)⟩
      exact List.forall_mem_cons.mpr ⟨by decide,
        List.forall_mem_cons.mpr ⟨by decide, List.forall_mem_cons.mpr ⟨by decide, hrest⟩⟩⟩

lemma Spells.unmarked (h : Spells beyond first text value) : ∀ d ∈ text, d ∉ marks := by
  induction h with
  | nil => exact fun d hd => (List.not_mem_nil hd).elim
  | cons unit may _ ih => exact List.forall_mem_append.mpr ⟨unit.unmarked may, ih⟩

lemma through_callee {callee : List Char} (h : ∀ c ∈ callee, c ∉ marks)
    (last after : Option Char) :
    (⟨.code last, []⟩ : State).through after (callee ++ ['(']) = ⟨.code (some '('), []⟩ := by
  obtain ⟨last', hthrough⟩ := (reading_of_unmarked h last (some '(')).1
  rw [State.through_append, List.head?_cons, Option.some_or, hthrough]
  rfl

lemma reading_callee {callee : List Char} (h : ∀ c ∈ callee, c ∉ marks)
    (last after : Option Char) :
    (⟨.code last, []⟩ : State).reading after (callee ++ ['(']) = asCode (callee ++ ['(']) :=
  (reading_of_unmarked (List.forall_mem_append.mpr
    ⟨h, List.forall_mem_singleton.mpr (by decide : '(' ∉ marks)⟩) last after).2

end Script

namespace Suite

open Script

/-! ### The methods of the client -/

/-- The start of the line that lists the methods of the client. -/
def loopHead : List Char := "for (const method of [".toList

/-- The start of the line that gives the client one of them. -/
def assignHead : List Char := "  api[method] = (path, ".toList

/-- Every second element of a list. -/
def everySecond {α : Type} : List α → List α
  | _ :: a :: as => a :: everySecond as
  | _ => []

/-- The methods that the client is given in some lines: those between quotation marks at the head of
a loop that gives it one. -/
def methodsIn : List (List Char) → List (List Char)
  | line :: next :: lines =>
    (if loopHead <+: line ∧ assignHead <+: next then everySecond (Text.fields (· == '\'') line)
      else []) ++ methodsIn (next :: lines)
  | _ => []

/-- The methods that a shared module gives its client. -/
def definedMethods (setup : List Char) : List (List Char) :=
  methodsIn (Text.fields (· == '\n') setup)

/-- The methods of the client. -/
def clientMethods : List (List Char) :=
  ["get", "post", "put", "patch", "delete", "head", "options"].map String.toList

lemma methodsIn_append {lines : List (List Char)} (h : ∀ line ∈ lines, ¬ loopHead <+: line)
    (others : List (List Char)) : methodsIn (lines ++ others) = methodsIn others := by
  induction lines with
  | nil => rfl
  | cons line lines ih =>
      obtain ⟨hline, hlines⟩ := List.forall_mem_cons.mp h
      rw [List.cons_append, ← ih hlines]
      cases hrest : lines ++ others with
      | nil => rfl
      | cons next rest => rw [methodsIn, if_neg fun hboth => hline hboth.1, List.nil_append]

/-- A line that can stand before the loop in a shared module. -/
def Passes (line : List Char) : Prop := '\n' ∉ line ∧ ¬ loopHead <+: line

instance (line : List Char) : Decidable (Passes line) := inferInstanceAs (Decidable (_ ∧ _))

lemma newline_not_mem_quote (text : List Char) : '\n' ∉ quote text := by
  have hescape : '\n' ∉ escape text := fun hmem => by
    have hany := List.any_eq_false.mp (escape_no_lineTerminator text) '\n' hmem
    exact hany (by decide)
  rw [quote, List.mem_append, List.mem_cons]
  rintro ((hquote | hmem) | hquote)
  · cases hquote
  · exact hescape hmem
  · cases List.mem_singleton.mp hquote

lemma newline_not_mem_literal (text : String) : '\n' ∉ (literal text).toList := by
  rw [toList_literal]
  exact newline_not_mem_quote _

/-- A line that starts with another character than the loop. -/
lemma passes_append {front line : List Char} (hhead : (front.head?.any (· != 'f')) = true)
    (hfront : '\n' ∉ front) (hline : '\n' ∉ line) : Passes (front ++ line) := by
  have hloop : loopHead.head? = some 'f' := by decide
  refine ⟨List.not_mem_append hfront hline, fun ⟨rest, hrest⟩ => ?_⟩
  have hfirst := congrArg List.head? hrest
  rw [List.head?_append, hloop, Option.some_or, List.head?_append] at hfirst
  cases hfront : front.head? with
  | none => rw [hfront] at hhead; cases hhead
  | some c =>
      rw [hfront, Option.some_or] at hfirst
      rw [hfront, ← hfirst] at hhead
      cases hhead

lemma passes_baseUrlLine (baseUrl : String) : Passes (baseUrlLine baseUrl).toList := by
  have hrest : '\n' ∉ (literal baseUrl).toList ++ ";".toList :=
    List.not_mem_append (newline_not_mem_literal _) (by decide)
  unfold baseUrlLine
  simp only [String.toList_append, List.append_assoc]
  exact passes_append (by decide) (by decide) hrest

/-- A member of the environment. -/
lemma passes_member (m : String × String) :
    Passes (indentation 1 ++ literal m.1 ++ ": " ++ literal m.2 ++ ",").toList := by
  have hrest : '\n' ∉ (literal m.1).toList ++ (": ".toList ++
      ((literal m.2).toList ++ ",".toList)) :=
    List.not_mem_append (newline_not_mem_literal _) (List.not_mem_append (by decide)
      (List.not_mem_append (newline_not_mem_literal _) (by decide)))
  simp only [String.toList_append, List.append_assoc]
  exact passes_append (by decide) (by decide) hrest

/-- The environment takes lines of which none is the loop. -/
lemma exists_lines_environmentLine (environment : Option Variables) :
    ∃ lines, lines ≠ [] ∧ (∀ line ∈ lines, Passes line) ∧
      (environmentLine environment).toList = Text.joinLines lines := by
  match environment with
  | none => exact ⟨["const env = null;".toList], by simp, by decide, by decide⟩
  | some [] =>
      exact ⟨["const env = \x7b\x7d;".toList], by simp, by decide, by decide⟩
  | some (m :: members) =>
      let inside := (m :: members).map fun m =>
        (indentation 1 ++ literal m.1 ++ ": " ++ literal m.2 ++ ",").toList
      refine ⟨["const env = \x7b".toList] ++ (inside ++ ["\x7d;".toList]), by simp, ?_, ?_⟩
      · refine List.forall_mem_append.mpr ⟨by decide, List.forall_mem_append.mpr
          ⟨?_, by decide⟩⟩
        intro line hline
        obtain ⟨member, -, rfl⟩ := List.mem_map.mp hline
        exact passes_member member
      · have hinside : (joinedLines ((m :: members).map fun m : String × String =>
            indentation 1 ++ literal m.1 ++ ": " ++ literal m.2 ++ ",")).toList =
              Text.joinLines inside := by
          rw [toList_joinedLines, List.map_map]
          rfl
        have hopen : "const env = ".toList ++ "\x7b\n".toList =
            "const env = \x7b".toList ++ ['\n'] := by decide
        have hclose : "\n".toList ++ (indentation 0).toList ++ "\x7d".toList ++ ";".toList =
            '\n' :: "\x7d;".toList := by decide
        rw [joinLines_append (by simp) (by simp), joinLines_append (by simp [inside]) (by simp),
          joinLines_singleton, joinLines_singleton, ← hclose, ← hinside]
        unfold environmentLine environmentLiteral objectLiteral
        simp only [List.isEmpty_cons, Bool.false_eq_true, if_false, String.toList_append]
        rw [← List.append_assoc, ← List.append_assoc, ← List.append_assoc, ← List.append_assoc,
          hopen]
        simp only [List.append_assoc, List.cons_append, List.nil_append]

/-- **The client of the enhanced style has seven methods**, whatever the base URL and the
environment are. -/
lemma definedMethods_setupText (baseUrl : String) (environment : Option Variables) :
    definedMethods (setupText baseUrl environment true).toList = clientMethods := by
  obtain ⟨lines, hne, hlines, henvironment⟩ := exists_lines_environmentLine environment
  let front := (preambleLines ++ [baseUrlLine baseUrl] ++ clientSetupLines).map String.toList
  let back := (timeoutLines ++ clientLines ++ exportLines true).map String.toList
  have hconstant : (∀ line ∈ preambleLines.map String.toList, Passes line) ∧
      ∀ line ∈ clientSetupLines.map String.toList, Passes line := by
    simp only [preambleLines, clientSetupLines, List.map_cons, List.map_nil]
    unfold Passes loopHead
    repeat rw [String.toList_ofList]
    decide
  have hfront : ∀ line ∈ front, Passes line := by
    simp only [front, List.map_append, List.forall_mem_append, List.map_cons, List.map_nil,
      List.forall_mem_singleton]
    exact ⟨⟨hconstant.1, passes_baseUrlLine baseUrl⟩, hconstant.2⟩
  have hback : (∀ line ∈ back, '\n' ∉ line) ∧ methodsIn back = clientMethods := by
    have hindent : indentation 1 = "  " := by decide
    simp only [back, timeoutLines, clientLines, exportLines, exportedNames, hindent, if_true,
      List.map_append, List.map_cons, List.map_nil, String.toList_append, clientMethods]
    repeat rw [String.toList_ofList]
    unfold methodsIn loopHead assignHead
    repeat rw [String.toList_ofList]
    decide
  have htext : (setupText baseUrl environment true).toList =
      Text.joinLines (front ++ lines ++ back) := by
    have hlong : setupText baseUrl environment true =
        joinedLines ((preambleLines ++ [baseUrlLine baseUrl] ++ clientSetupLines) ++
          ([environmentLine environment] ++
            (timeoutLines ++ clientLines ++ exportLines true))) := by
      simp only [setupText, if_true, List.append_assoc]
    have hlines' : (preambleLines ++ [baseUrlLine baseUrl] ++ clientSetupLines ++
        ([environmentLine environment] ++
          (timeoutLines ++ clientLines ++ exportLines true))).map String.toList =
        front ++ ([Text.joinLines lines] ++ back) := by
      simp only [front, back, List.map_append, List.map_cons, List.map_nil, henvironment]
    rw [hlong, toList_joinedLines, hlines', joinLines_append (by simp [front]) (by simp),
      joinLines_append (by simp) (by simp [back, timeoutLines]), joinLines_singleton,
      List.append_assoc front, joinLines_append (by simp [front]) (by simp [hne]),
      joinLines_append hne (by simp [back, timeoutLines])]
  have hfields : Text.fields (· == '\n') (Text.joinLines (front ++ lines ++ back)) =
      front ++ lines ++ back := by
    refine Text.fields_intercalate (by simp [hne]) ?_
    exact List.forall_mem_append.mpr ⟨List.forall_mem_append.mpr
      ⟨fun line h => (hfront line h).1, fun line h => (hlines line h).1⟩, hback.1⟩
  have hpass : ∀ line ∈ front ++ lines, ¬ loopHead <+: line :=
    List.forall_mem_append.mpr ⟨fun line h => (hfront line h).2, fun line h => (hlines line h).2⟩
  rw [definedMethods, htext, hfields, methodsIn_append hpass, hback.2]

/-! ### Arguments -/

/-- **The arguments of a call leave nothing open**, and no letter `p` is seen of them. -/
lemma quietIn_argumentText (enhanced : Bool) (call : Call) :
    QuietIn (· ≠ 'p') (argumentText enhanced call) := by
  have harguments : QuietIn (· ≠ 'p') (argumentsText call.headers call.body) :=
    .flatMap fun _ htext => (QuietIn.of_all rfl (by decide)).append (quietIn_argument htext)
  have hpath : QuietIn (· ≠ 'p') (quote call.path.toList) := Script.quietIn_quote _
  rw [argumentText]
  cases enhanced with
  | false => exact hpath.append .nil
  | true => exact hpath.append harguments

lemma quiet_argumentText (enhanced : Bool) (call : Call) : Quiet (argumentText enhanced call) :=
  (quietIn_argumentText enhanced call).quiet

end Suite

open Script

/-! ### Calls of a client -/

/-- The text of a file before the statement that sends its request. -/
def beforeCall (enhanced : Bool) (entry : Layout.Entry) : List Char :=
  slotsText (Suite.openingSlots enhanced (Layout.importPath entry.depth Suite.setupFileName.toList)
    (Suite.suiteName entry.request entry.parent).toList) ++ (Suite.suiteHead enhanced).toList

/-- The text of a file after its method and the bracket behind it: the arguments, and the rest. -/
def afterMethod (options : Options) (entry : Layout.Entry) : List Char :=
  Suite.argumentText options.enhanced (Suite.callOf entry.request) ++ ')' ::
    (Suite.afterCall options.enhanced (Suite.suiteName entry.request entry.parent).toList
      (Suite.callOf entry.request) ++ '\n' :: Suite.testsText options.enhanced
        (Suite.casesOf options.enhanced entry.request.script (adaptationOf entry.request)))

/-- The object and the method of a call. -/
def callee (enhanced : Bool) (method : List Char) : List Char :=
  (Suite.receiver enhanced).toList ++ method

/-- An entry whose request asks with `GET`. -/
def getting (entry : Layout.Entry) : Layout.Entry :=
  { entry with request := { entry.request with method := "GET" } }

variable {beyond : Bool → Char → Bool} {options : Options} {entry : Layout.Entry}

lemma entryText_eq (options : Options) (entry : Layout.Entry) :
    (entryText options entry).toList = beforeCall options.enhanced entry ++
      (callee options.enhanced (Suite.methodName entry.request.method).toList ++ ['('] ++
        afterMethod options entry) := by
  rw [entryText, Suite.testText_eq, Suite.hookText_eq_call, Suite.introText, beforeCall, callee,
    afterMethod]
  simp only [List.append_assoc, List.cons_append, List.nil_append]

lemma afterMethod_getting (options : Options) (entry : Layout.Entry) :
    afterMethod options (getting entry) = afterMethod options entry := by
  simp only [afterMethod, getting, Suite.argumentText, Suite.afterCall, Suite.callOf,
    Suite.suiteName, adaptationOf]

lemma beforeCall_getting (enhanced : Bool) (entry : Layout.Entry) :
    beforeCall enhanced (getting entry) = beforeCall enhanced entry := rfl

lemma methodName_getting (entry : Layout.Entry) :
    (Suite.methodName (getting entry).request.method).toList = "get".toList := by
  have hget : (Suite.methodName "GET").toList = "get".toList := by decide
  exact hget

set_option maxRecDepth 2000 in
/-- Before the call there is code. -/
lemma exists_through_beforeCall (enhanced : Bool) (entry : Layout.Entry) (after : Option Char) :
    ∃ last, ({} : State).through after (beforeCall enhanced entry) = ⟨.code last, []⟩ := by
  have hmarks : ∀ c ∈ (Suite.suiteHead enhanced).toList, c ∉ marks := by
    cases enhanced with
    | false =>
        rw [Suite.suiteHead, if_neg Bool.false_ne_true, String.toList_ofList]
        decide
    | true =>
        unfold Suite.suiteHead
        simp only [if_true, String.toList_append]
        repeat rw [String.toList_ofList]
        decide
  have hhead := (reading_of_unmarked hmarks (some '\'') after).1
  rw [beforeCall, State.through_append,
    ((Suite.joined_openingSlots enhanced _ _).mask_reading _).1]
  exact hhead

/-- A test file is read around the method of its request in the same way for all methods without
marks, and the method itself is code. -/
lemma reading_entryText (options : Options)
    (h : ∀ c ∈ (Suite.methodName entry.request.method).toList, c ∉ marks) :
    ({} : State).reading none (entryText options entry).toList =
      ({} : State).reading (some 'r') (beforeCall options.enhanced entry) ++
        (asCode (callee options.enhanced (Suite.methodName entry.request.method).toList ++ ['(']) ++
          (⟨.code (some '('), []⟩ : State).reading none (afterMethod options entry)) := by
  obtain ⟨hreceiver, hfirst⟩ : (∀ c ∈ (Suite.receiver options.enhanced).toList, c ∉ marks) ∧
      (Suite.receiver options.enhanced).toList.head? = some 'r' := by
    unfold Suite.receiver
    cases options.enhanced with
    | false =>
        rw [if_neg Bool.false_ne_true, String.toList_ofList]
        decide
    | true =>
        rw [if_pos rfl, String.toList_ofList]
        decide
  have hcallee : ∀ c ∈ callee options.enhanced
      (Suite.methodName entry.request.method).toList, c ∉ marks :=
    List.forall_mem_append.mpr ⟨hreceiver, h⟩
  have hnext : (callee options.enhanced (Suite.methodName entry.request.method).toList ++ ['('] ++
      afterMethod options entry).head? = some 'r' := by
    rw [callee, List.append_assoc, List.append_assoc, List.head?_append, hfirst, Option.some_or]
  obtain ⟨last, hthrough⟩ :=
    exists_through_beforeCall options.enhanced entry (some 'r')
  rw [entryText_eq, State.reading_append, hnext, Option.some_or, hthrough, State.reading_append,
    reading_callee hcallee, through_callee hcallee]

/-- **A hook calls a method of the client.** Its call is the name of a method with arguments that
leave nothing open in brackets, the method is in the enhanced style one that the shared module gives
its client, and the rest of the file is read as it is for a request that asks with `GET`. -/
def CallsClient (beyond : Bool → Char → Bool) (options : Options) (setup : List Char)
    (entry : Layout.Entry) : Prop :=
  ∃ front back name value arguments rest,
    ({} : State).reading none (entryText options entry).toList =
      front ++ (asCode (callee options.enhanced name ++ ['(']) ++ back) ∧
    ({} : State).reading none (entryText options (getting entry)).toList =
      front ++ (asCode (callee options.enhanced "get".toList ++ ['(']) ++ back) ∧
    front.map Prod.fst = beforeCall options.enhanced entry ∧
    back.map Prod.fst = arguments ++ ')' :: rest ∧ Quiet arguments ∧
    IdentifierName beyond name value ∧
    (options.enhanced = true → value ∈ Suite.definedMethods setup)

/-- A method that is written as a name, in the enhanced style as one of the client's methods. -/
def ClientMethod (beyond : Bool → Char → Bool) (enhanced : Bool) (method : String) : Prop :=
  ∃ value, IdentifierName beyond (Suite.methodName method).toList value ∧
    (enhanced = true → value ∈ Suite.clientMethods)

variable {collection environment : Json}

lemma definedMethods_sharedText (henhanced : options.enhanced = true) :
    Suite.definedMethods (sharedText options collection environment).toList =
      Suite.clientMethods := by
  rw [sharedText, henhanced, Suite.definedMethods_setupText]

lemma callsClient_of_clientMethod
    (h : ClientMethod beyond options.enhanced entry.request.method) :
    CallsClient beyond options (sharedText options collection environment).toList entry := by
  obtain ⟨value, hname, hlisted⟩ := h
  have hget : ∀ c ∈ (Suite.methodName (getting entry).request.method).toList, c ∉ marks := by
    rw [methodName_getting]
    decide
  have hgetting := reading_entryText options hget
  rw [methodName_getting, afterMethod_getting, beforeCall_getting] at hgetting
  refine ⟨_, _, _, value, Suite.argumentText options.enhanced (Suite.callOf entry.request), _,
    reading_entryText options hname.unmarked, hgetting, State.map_fst_reading _ _ _,
    State.map_fst_reading _ _ _, Suite.quiet_argumentText _ _, hname, fun henhanced => ?_⟩
  rw [definedMethods_sharedText henhanced]
  exact hlisted henhanced

/-- What a file is read as around a call is what stands around its method. -/
lemma call_eq_of_reading {front back : List (Char × Part)} {name : List Char}
    (hreading : ({} : State).reading none (entryText options entry).toList =
      front ++ (asCode (callee options.enhanced name ++ ['(']) ++ back))
    (hfront : front.map Prod.fst = beforeCall options.enhanced entry) :
    name ++ ['('] ++ back.map Prod.fst =
      (Suite.methodName entry.request.method).toList ++ ['('] ++ afterMethod options entry := by
  have htext := congrArg (List.map Prod.fst) hreading
  rw [State.map_fst_reading, List.map_append, List.map_append, map_fst_asCode, hfront,
    entryText_eq] at htext
  have hcallee := List.append_cancel_left htext
  rw [callee, callee, List.append_assoc, List.append_assoc, List.append_assoc,
    List.append_assoc] at hcallee
  rw [List.append_assoc, List.append_assoc]
  exact (List.append_cancel_left hcallee).symm

/-- A name in the place of `GET` is the method: what follows it is the same in both files. -/
lemma clientMethod_of_callsClient
    (h : CallsClient beyond options (sharedText options collection environment).toList entry) :
    ClientMethod beyond options.enhanced entry.request.method := by
  obtain ⟨front, back, name, value, arguments, rest, hreading, hget, hfront, -, -, hname,
    hlisted⟩ := h
  have hback := call_eq_of_reading hget (hfront.trans (beforeCall_getting _ _).symm)
  rw [methodName_getting, afterMethod_getting] at hback
  have hcall := call_eq_of_reading hreading hfront
  rw [List.append_cancel_left hback] at hcall
  have hmethod : name = (Suite.methodName entry.request.method).toList :=
    List.append_cancel_right (List.append_cancel_right hcall)
  refine ⟨value, hmethod ▸ hname, fun henhanced => ?_⟩
  have hvalue := hlisted henhanced
  rwa [definedMethods_sharedText henhanced] at hvalue

/-- **A hook calls a method of the client** exactly where the method of its request is written as a
name, in the enhanced style as one of the client's methods; then no method adds other code to its
file. -/
theorem calls_client_iff (beyond : Bool → Char → Bool) (options : Options)
    (collection environment : Json) (entry : Layout.Entry) :
    CallsClient beyond options (sharedText options collection environment).toList entry ↔
      ClientMethod beyond options.enhanced entry.request.method :=
  ⟨clientMethod_of_callsClient, callsClient_of_clientMethod⟩

/-- A collection of one request, whose method ends one call and starts another. -/
def splicingCollection : Json :=
  .obj [("info", .obj [("name", .str "API"), ("schema", .str "v2")]),
    ("item", .arr [
      .obj [("name", .str "List"), ("request",
        .obj [("method", .str "get('/x'); evil(); request.get"),
          ("url", .str "https://host/list")])]])]

/-- The place of that request. -/
def splicingEntry : Layout.Entry :=
  { request :=
      { name := "List", method := "get('/x'); evil(); request.get", url := "https://host/list" }
    directory := []
    parent := none }

/-- That collection is built, and its file does more than to call a method of the client. -/
theorem other_code_from_method :
    (∃ outcome, (build .ample memory {} splicingCollection .null "out" {}).result = .ok outcome) ∧
      splicingEntry ∈ (planOf {} splicingCollection).entries ∧
      ¬ CallsClient (fun _ _ => true) {} (sharedText {} splicingCollection .null).toList
        splicingEntry := by
  have hc : (checkCollection splicingCollection).ok = true := by decide
  have he : (checkEnvironment .null).ok = true := by decide
  have ho : (outline .ample {} splicingCollection .null (FilePath.parse "out")).obstacle = none :=
    by decide
  have hresult := congrArg Execution.result ((prepared_ample hc he).build_memory ho {})
  refine ⟨⟨_, hresult⟩, by decide, fun hcalls => ?_⟩
  obtain ⟨value, hname, -⟩ := clientMethod_of_callsClient hcalls
  have hquote : '\'' ∈ (Suite.methodName splicingEntry.request.method).toList := by decide
  exact hname.unmarked _ hquote (by decide)

end RequestSuite
