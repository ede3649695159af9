/-
The head of a test file, up to the end of the hook that sends the request.

* `hookText`: that text; `testText_eq`: a file starts with it;
* `sentKeys`, `lastValue`, `sentHeaders_eq`: the headers that are sent;
* `Slots` of the head: `openingSlots`, `pathSlot`, `settingSlots`, `argumentSlots`, `hookSlots`;
* `argumentText`, `afterCall`, `hookText_eq_call`: the text around the method;
* `hookText_eq`: the head of a file whose body is a text, or that has none, as literals with text
  between them.
-/
import RequestSuite.Proofs.KeyedWrites
import RequestSuite.Proofs.Reading

namespace RequestSuite.Suite

open Script

variable {enhanced : Bool} {request : Request} {depth : ℕ} {parent body : Option String}

/-- The text of a test file up to the end of the hook that sends the request. -/
def hookText (enhanced : Bool) (request : Request) (depth : ℕ) (parent : Option String) :
    List Char := (joinedLines (headLines enhanced request depth parent)).toList

/-- The text of a test file after its hook. -/
def testsText (enhanced : Bool) (parts : Cases) : List Char :=
  (joinedLines (defaultTestLines enhanced parts.inside ++ besideLines parts.beside ++
    ["\x7d);", ""])).toList

/-- A test file is that text and what its tests are. -/
lemma testText_eq (enhanced : Bool) (request : Request) (depth : ℕ) (parent : Option String)
    (adaptation : Adaptation) :
    (testText enhanced request depth parent adaptation).toList =
      hookText enhanced request depth parent ++
        '\n' :: testsText enhanced (casesOf enhanced request.script adaptation) := by
  have hhead : (headLines enhanced request depth parent).map String.toList ≠ [] := by
    cases enhanced <;> exact List.cons_ne_nil _ _
  rw [testText, hookText, testsText, toList_joinedLines, toList_joinedLines, toList_joinedLines,
    List.append_assoc, List.append_assoc, List.map_append,
    joinLines_append hhead (by simp), ← List.append_assoc]

/-! ### The headers that are sent -/

/-- The headers of a request that are enabled and have a key. -/
def enabledHeaders (headers : List Header) : List Header :=
  headers.filter fun h => h.key != "" && !h.disabled

/-- The keys of the headers that are sent: each once, in the order of their first places. -/
def sentKeys (headers : List Header) : List String :=
  ((enabledHeaders headers).map Header.key).eraseDups

/-- The value that is sent for a key: the last. -/
def lastValue (headers : List Header) (key : String) : String :=
  (((enabledHeaders headers).reverse.find? fun h => h.key == key).map Header.value).getD ""

/-- **The headers that are sent**: every key once, at its first place and with its last value. -/
theorem sentHeaders_eq (headers : List Header) :
    sentHeaders headers = (sentKeys headers).map fun key => (key, lastValue headers key) := by
  have hkeys : (sentHeaders headers).keys = sentKeys headers := by
    rw [sentHeaders, Keyed.ofList, Keyed.keys_putAll, sentKeys, List.map_map]
    simp only [Keyed.keys, List.map_nil, List.nil_append, List.not_mem_nil, not_false_eq_true,
      decide_true, List.filter_true]
    rfl
  have hvalue (key : String) : ((sentHeaders headers).get? key).getD "" =
      lastValue headers key := by
    rw [sentHeaders, Keyed.ofList, Keyed.get?_putAll, List.findRev?_eq_find?_reverse,
      ← List.map_reverse, List.find?_map, Option.map_map, Keyed.get?, Option.or_none]
    rfl
  have hnodup : (sentHeaders headers).keys.Nodup :=
    Keyed.nodup_keys_putAll _ List.nodup_nil
  rw [Keyed.eq_map_keys hnodup "", hkeys]
  simp only [hvalue]

/-! ### Literals with text between them -/

/-- The literals before the hook: the way to the shared module, and the title. -/
def openingSlots (enhanced : Bool) (path title : List Char) : Slots :=
  [((importHead enhanced).toList, path), (");\n\ndescribe(".toList, title)]

/-- The text between the title and the statement that sends the request. -/
def suiteHead (enhanced : Bool) : String :=
  if enhanced then
    ", function () \x7b\n  let response;\n  let elapsed;\n\n  before(async function () \x7b\n" ++
      "    const startTime = Date.now();\n    try \x7b\n      "
  else ", function () \x7b\n  let response;\n\n  before(async function () \x7b\n    "

/-- That statement up to the method. -/
def receiver (enhanced : Bool) : String :=
  if enhanced then "response = await api." else "response = await request."

/-- The text between the title and the method. -/
def introText (enhanced : Bool) : List Char :=
  (suiteHead enhanced).toList ++ (receiver enhanced).toList

/-- The literal of the request path, after the method. -/
def pathSlot (enhanced : Bool) (method path : List Char) : List Char × List Char :=
  (introText enhanced ++ (method ++ ['(']), path)

/-- The literals of headers: what stands before a key, and between it and its value. -/
def pairSlots (before between : List Char) (headers : List (String × String)) : Slots :=
  headers.flatMap fun h => [(before, h.1.toList), (between, h.2.toList)]

/-- The literals of the settings of a call in the plain style. -/
def settingSlots (headers : List (String × String)) (body : Option String) : Slots :=
  pairSlots ")\n      .set(".toList ", ".toList headers ++
    (body.map fun text => (")\n      .send(".toList, text.toList)).toList

/-- The literals of the headers of a call in the enhanced style. Where there is no body, one is said
to be undefined. -/
def memberSlots (body : Option String) : List (String × String) → Slots
  | [] => []
  | h :: headers =>
    ((if body.isSome then ", \x7b headers: \x7b\n        "
        else ", undefined, \x7b headers: \x7b\n        ").toList, h.1.toList) ::
      (": ".toList, h.2.toList) :: pairSlots ",\n        ".toList ": ".toList headers

/-- The text between the call and the first message of a hook in the enhanced style. -/
def errorGap : String := ";\n    \x7d catch (error) \x7b\n      console.error("

/-- The text between its two messages. -/
def messageGap : String :=
  ", error.message);\n      throw error;\n    \x7d\n    elapsed = Date.now() - startTime;\n" ++
    "    console.log("

/-- The literals after the path of a call in the enhanced style: body, headers, and the title in two
messages. -/
def argumentSlots (title : List Char) (headers : List (String × String)) (body : Option String) :
    Slots :=
  (body.map fun text => (", ".toList, text.toList)).toList ++ memberSlots body headers ++
    [((if headers.isEmpty then "" else ",\n      \x7d \x7d").toList ++ ')' :: errorGap.toList,
        "✗ ".toList ++ (title ++ " failed:".toList)),
      (messageGap.toList, "✓ ".toList ++ (title ++ " - Status: ".toList))]

/-- The text after the last literal with data. -/
def closingText (enhanced : Bool) : List Char :=
  if enhanced then
    " + response.status + ', Time: ' + elapsed + 'ms');\n  \x7d);".toList
  else ");\n  \x7d);".toList

/-- The literals of the head of a file, each with the text before it. -/
def hookSlots (enhanced : Bool) (request : Request) (depth : ℕ) (parent : Option String)
    (body : Option String) : Slots :=
  let title := (suiteName request parent).toList
  let headers := (sentKeys request.headers).map fun key => (key, lastValue request.headers key)
  openingSlots enhanced (Layout.importPath depth setupFileName.toList) title ++
    pathSlot enhanced (methodName request.method).toList (Url.requestPath request.url.toList) ::
      if enhanced then argumentSlots title headers body else settingSlots headers body

/-- The body of a request is a text, or there is none. -/
def SendsText (request : Request) (body : Option String) : Prop :=
  bodyValue? request.body = body.map .text

lemma pairSlots_cons (before between : List Char) (h : String × String)
    (headers : List (String × String)) :
    pairSlots before between (h :: headers) =
      (before, h.1.toList) :: (between, h.2.toList) :: pairSlots before between headers := rfl

lemma flatMap_pairSlots (before between : List Char) (headers : List (String × String)) :
    (pairSlots before between headers).flatMap Prod.fst =
      headers.flatMap fun _ => before ++ between := by
  rw [pairSlots, List.flatMap_assoc]
  simp only [List.flatMap_cons, List.flatMap_nil, List.append_nil]

lemma map_fst_pairSlots (before between : List Char) (headers : List (String × String)) :
    (pairSlots before between headers).map Prod.fst =
      (List.replicate headers.length [before, between]).flatten := by
  induction headers with
  | nil => rfl
  | cons h headers ih =>
      rw [pairSlots_cons, List.map_cons, List.map_cons, ih]
      rfl

/-! ### The text of a call -/

lemma toList_literal (text : String) : (literal text).toList = quote text.toList := by
  rw [literal, String.toList_ofList]

lemma toList_bodyText (text : String) : (bodyText (.text text)).toList = quote text.toList :=
  String.toList_ofList

/-- The settings of a plain call. -/
def settingsText (headers : List (String × String)) (body : Option BodyValue) : List Char :=
  ((headers.map fun h => ".set(" ++ literal h.1 ++ ", " ++ literal h.2 ++ ")") ++
    (body.map fun body => ".send(" ++ bodyText body ++ ")").toList).flatMap fun setting =>
      "\n      ".toList ++ setting.toList

/-- The settings of a plain call are literals with text between them. -/
lemma settingsText_eq (headers : List (String × String)) (body : Option String) :
    ')' :: settingsText headers (body.map .text) =
      slotsText (settingSlots headers body) ++ [')'] := by
  induction headers with
  | nil =>
      cases body with
      | none => rfl
      | some text => simp [settingsText, settingSlots, pairSlots, slotsText, toList_bodyText]
  | cons h headers ih =>
      have htext : settingsText (h :: headers) (body.map .text) =
          "\n      .set(".toList ++ (quote h.1.toList ++ (", ".toList ++ (quote h.2.toList ++
            ')' :: settingsText headers (body.map .text)))) := by
        simp [settingsText, toList_literal]
      have hslots : settingSlots (h :: headers) body = (")\n      .set(".toList, h.1.toList) ::
          (", ".toList, h.2.toList) :: settingSlots headers body := rfl
      rw [htext, ih, hslots, slotsText_cons, slotsText_cons]
      simp

lemma indentation_callLevel : indentation callLevel = "      " := by decide

/-- A plain call: its settings follow the path. -/
lemma toList_plainCall (call : Call) :
    (plainCall call).toList = "response = await request.".toList ++ (call.method.toList ++ '(' ::
      (quote call.path.toList ++ ')' :: (settingsText call.headers call.body ++ [';']))) := by
  have hjoin (settings : List String) :
      (String.join (settings.map fun setting => "\n" ++ indentation callLevel ++ setting)).toList =
        settings.flatMap fun setting => "\n      ".toList ++ setting.toList := by
    rw [String.toList_join, List.flatMap_map, indentation_callLevel]
    simp only [String.toList_append]
    rfl
  have hopen : "(".toList = ['('] := rfl
  have hclose : ")".toList = [')'] := rfl
  have hend : ";".toList = [';'] := rfl
  unfold plainCall
  simp only [String.toList_append, hjoin, toList_literal, hopen, hclose, hend,
    List.append_assoc, List.cons_append, List.nil_append, settingsText]

/-- A member of the headers in the enhanced style. -/
def memberText (h : String × String) : List Char :=
  "        ".toList ++ (quote h.1.toList ++ (": ".toList ++ (quote h.2.toList ++ ",".toList)))

lemma toList_objectLiteral (h : String × String) (headers : List (String × String)) :
    (objectLiteral callLevel (h :: headers)).toList =
      "\x7b\n".toList ++ (memberText h ++ ((headers.flatMap fun h => '\n' :: memberText h) ++
        "\n      \x7d".toList)) := by
  have hmember (h : String × String) :
      (indentation (callLevel + 1) ++ literal h.1 ++ ": " ++ literal h.2 ++ ",").toList =
        memberText h := by
    have hindent : indentation (callLevel + 1) = "        " := by decide
    unfold memberText
    simp only [hindent, String.toList_append, toList_literal, List.append_assoc]
  have hjoined : (joinedLines ((h :: headers).map fun h : String × String =>
      indentation (callLevel + 1) ++ literal h.1 ++ ": " ++ literal h.2 ++ ",")).toList =
        memberText h ++ headers.flatMap fun h => '\n' :: memberText h := by
    rw [toList_joinedLines, List.map_map, List.map_cons, Text.joinLines, intercalate_cons,
      List.flatMap_map]
    simp only [Function.comp_apply, hmember, List.singleton_append]
  have hclose : "\n".toList ++ ("      ".toList ++ "\x7d".toList) = "\n      \x7d".toList := by
    repeat rw [String.toList_ofList]
    rfl
  unfold objectLiteral
  rw [if_neg (by simp)]
  simp only [String.toList_append, hjoined, indentation_callLevel, List.append_assoc, hclose]

/-- The members of the headers are literals with text between them. -/
lemma members_eq (headers : List (String × String)) :
    ",".toList ++ (headers.flatMap fun h => '\n' :: memberText h) =
      slotsText (pairSlots ",\n        ".toList ": ".toList headers) ++ ",".toList := by
  have hlead : ",".toList ++ '\n' :: "        ".toList = ",\n        ".toList := by
    repeat rw [String.toList_ofList]
    rfl
  induction headers with
  | nil => exact List.append_nil _
  | cons h headers ih =>
      rw [pairSlots_cons, List.flatMap_cons, slotsText_cons, slotsText_cons]
      simp only [List.append_assoc]
      rw [← ih, ← hlead]
      unfold memberText
      simp only [List.append_assoc, List.cons_append]

/-- The object of the headers in the arguments. -/
lemma toList_headersArgument (h : String × String) (headers : List (String × String)) :
    ("\x7b headers: " ++ objectLiteral callLevel (h :: headers) ++ " \x7d").toList =
      "\x7b headers: \x7b\n        ".toList ++ (quote h.1.toList ++ (": ".toList ++
        (quote h.2.toList ++ (slotsText (pairSlots ",\n        ".toList ": ".toList headers) ++
          ",\n      \x7d \x7d".toList)))) := by
  have hopen : "\x7b headers: \x7b\n        ".toList =
      "\x7b headers: ".toList ++ ("\x7b\n".toList ++ "        ".toList) := by
    repeat rw [String.toList_ofList]
    rfl
  have hclose : ",\n      \x7d \x7d".toList =
      ",".toList ++ ("\n      \x7d".toList ++ " \x7d".toList) := by
    repeat rw [String.toList_ofList]
    rfl
  have hmembers := members_eq headers
  rw [String.toList_append, String.toList_append, toList_objectLiteral, hopen, hclose,
    ← List.append_assoc (slotsText _), ← hmembers]
  unfold memberText
  simp only [List.append_assoc]

/-- The arguments of an enhanced call after the path. -/
def argumentsText (headers : List (String × String)) (body : Option BodyValue) : List Char :=
  ((match body with
    | some body => [bodyText body]
    | none => if headers.isEmpty then [] else ["undefined"]) ++
    (if headers.isEmpty then []
      else ["\x7b headers: " ++ objectLiteral callLevel headers ++ " \x7d"])).flatMap fun text =>
        ", ".toList ++ text.toList

/-- An enhanced call: the other arguments follow the path. -/
lemma toList_enhancedCall (call : Call) :
    (enhancedCall call).toList = "response = await api.".toList ++ (call.method.toList ++ '(' ::
      (quote call.path.toList ++ (argumentsText call.headers call.body ++ ");".toList))) := by
  have hopen : "(".toList = ['('] := rfl
  unfold enhancedCall
  simp only [String.toList_append, String.toList_intercalate, List.cons_append, List.map_cons,
    intercalate_cons, toList_literal, hopen, List.append_assoc, List.nil_append, List.flatMap_map]
  rfl

/-- The arguments are literals with text between them. -/
lemma argumentsText_eq (headers : List (String × String)) (body : Option String) :
    argumentsText headers (body.map .text) =
      slotsText ((body.map fun text => (", ".toList, text.toList)).toList ++
        memberSlots body headers) ++
        (if headers.isEmpty then "" else ",\n      \x7d \x7d").toList := by
  cases headers with
  | nil =>
      cases body with
      | none => rfl
      | some text =>
          have hempty : "".toList = [] := rfl
          unfold argumentsText memberSlots
          simp only [Option.map_some, List.isEmpty_nil, if_true, List.append_nil,
            List.flatMap_cons, List.flatMap_nil, toList_bodyText, Option.toList_some, slotsText,
            hempty]
  | cons h headers =>
      have hhead := toList_headersArgument h headers
      unfold argumentsText memberSlots
      cases body with
      | none =>
          have hopen : ", undefined, \x7b headers: \x7b\n        ".toList =
              ", ".toList ++ ("undefined".toList ++ (", ".toList ++
                "\x7b headers: \x7b\n        ".toList)) := by
            repeat rw [String.toList_ofList]
            rfl
          simp only [Option.map_none, List.isEmpty_cons, Bool.false_eq_true, if_false,
            List.flatMap_cons, List.flatMap_nil, List.cons_append, List.nil_append, hhead,
            Option.isSome_none, hopen, slotsText_cons, Option.toList_none, List.append_nil,
            List.append_assoc]
      | some text =>
          have hopen : ", \x7b headers: \x7b\n        ".toList =
              ", ".toList ++ "\x7b headers: \x7b\n        ".toList := by
            repeat rw [String.toList_ofList]
            rfl
          simp only [Option.map_some, List.isEmpty_cons, Bool.false_eq_true, if_false, if_true,
            List.flatMap_cons, List.flatMap_nil, List.cons_append, List.nil_append, hhead,
            toList_bodyText, Option.isSome_some, hopen, slotsText_cons, Option.toList_some,
            List.append_nil, List.append_assoc]

/-! ### The head of a file -/

/-- A file starts with the way to the shared module and the title, as literals. -/
lemma hookText_eq_opening (enhanced : Bool) (request : Request) (depth : ℕ)
    (parent : Option String) :
    hookText enhanced request depth parent =
      slotsText (openingSlots enhanced (Layout.importPath depth setupFileName.toList)
        (suiteName request parent).toList) ++ (", function () \x7b\n".toList ++
          Text.joinLines
            (((headLines enhanced request depth parent).drop 3).map String.toList)) := by
  obtain ⟨line, lines, hlines⟩ : ∃ line lines, headLines enhanced request depth parent =
      (importHead enhanced ++
          literal (String.ofList (Layout.importPath depth setupFileName.toList)) ++ ");") ::
        "" ::
        ("describe('" ++ String.ofList (escape (suiteName request parent).toList) ++
          "', function () \x7b") ::
        line :: lines := by
    cases enhanced <;> exact ⟨_, _, rfl⟩
  have hbreaks : ");\n\ndescribe(".toList =
      ");".toList ++ '\n' :: ("".toList ++ '\n' :: "describe(".toList) := by
    repeat rw [String.toList_ofList]
    rfl
  have hfront : "describe('".toList = "describe(".toList ++ ['\''] := by
    repeat rw [String.toList_ofList]
    rfl
  have hback : "', function () \x7b".toList = '\'' :: ", function () \x7b".toList := by
    repeat rw [String.toList_ofList]
  have hline : ", function () \x7b\n".toList = ", function () \x7b".toList ++ ['\n'] := by
    repeat rw [String.toList_ofList]
    rfl
  rw [hookText, hlines, toList_joinedLines, openingSlots, slotsText_cons, slotsText_cons, hbreaks,
    hline, quote.eq_def (suiteName request parent).toList]
  simp only [List.drop_succ_cons, List.drop_zero, List.map_cons, joinLines_cons_cons,
    String.toList_append, toList_literal, String.toList_ofList, hfront, hback, slotsText,
    List.flatMap_nil, List.append_assoc, List.cons_append, List.nil_append]

/-- The arguments of a call. -/
def argumentText (enhanced : Bool) (call : Call) : List Char :=
  quote call.path.toList ++ if enhanced then argumentsText call.headers call.body else []

/-- The text of the hook after the bracket that closes the arguments. -/
def afterCall (enhanced : Bool) (title : List Char) (call : Call) : List Char :=
  if enhanced then
    errorGap.toList ++
      (quote ("✗ ".toList ++ (title ++ " failed:".toList)) ++
        (messageGap.toList ++
          (quote ("✓ ".toList ++ (title ++ " - Status: ".toList)) ++ closingText true)))
  else settingsText call.headers call.body ++ ";\n  \x7d);".toList

/-- What follows the title in the plain style. -/
lemma joinLines_plainHeadLines (setupPath title : String) (call : Call) :
    ", function () \x7b\n".toList ++
        Text.joinLines (((plainHeadLines setupPath title call).drop 3).map String.toList) =
      introText false ++ (call.method.toList ++ '(' :: (quote call.path.toList ++
        ')' :: (settingsText call.headers call.body ++ ";\n  \x7d);".toList))) := by
  have hintro : introText false = ", function () \x7b\n".toList ++ ("  let response;".toList ++
      '\n' :: ("".toList ++ '\n' :: ("  before(async function () \x7b".toList ++
        '\n' :: ("    ".toList ++ "response = await request.".toList)))) := by
    simp only [introText, suiteHead, receiver, Bool.false_eq_true, if_false]
    repeat rw [String.toList_ofList]
    rfl
  have hend : ";\n  \x7d);".toList = [';'] ++ '\n' :: "  \x7d);".toList := by
    repeat rw [String.toList_ofList]
    rfl
  rw [plainHeadLines, hintro, hend]
  simp only [List.drop_succ_cons, List.drop_zero, List.map_cons, List.map_nil, joinLines_cons_cons,
    joinLines_singleton, String.toList_append, toList_plainCall, List.append_assoc,
    List.cons_append, List.nil_append]

lemma quote_message {front back : List Char} (title : List Char)
    (hfront : front.getLast? ≠ some '$') (hback : back.head? ≠ some '\x7b') :
    quote (front ++ (title ++ back)) =
      '\'' :: (escape front ++ (escape title ++ (escape back ++ ['\'']))) := by
  rw [quote, escape_append fun h => absurd h hfront, escape_append fun _ => hback]
  simp only [List.append_assoc, List.cons_append]

/-- What follows the title in the enhanced style. -/
lemma joinLines_enhancedHeadLines (setupPath : String) (title : List Char) (call : Call) :
    ", function () \x7b\n".toList ++
        Text.joinLines
          (((enhancedHeadLines setupPath (String.ofList (escape title)) call).drop 3).map
            String.toList) =
      introText true ++ (call.method.toList ++ '(' :: (quote call.path.toList ++
        (argumentsText call.headers call.body ++
          ')' :: (errorGap.toList ++
            (quote ("✗ ".toList ++ (title ++ " failed:".toList)) ++
              (messageGap.toList ++
                (quote ("✓ ".toList ++ (title ++ " - Status: ".toList)) ++
                  closingText true))))))) := by
  have hintro : introText true = ", function () \x7b\n".toList ++ ("  let response;".toList ++
      '\n' :: ("  let elapsed;".toList ++ '\n' :: ("".toList ++ '\n' ::
        ("  before(async function () \x7b".toList ++ '\n' ::
          ("    const startTime = Date.now();".toList ++ '\n' :: ("    try \x7b".toList ++ '\n' ::
            ("      ".toList ++ "response = await api.".toList))))))) := by
    simp only [introText, suiteHead, receiver, if_true, String.toList_append]
    repeat rw [String.toList_ofList]
    rfl
  have hcall : ");".toList = [')', ';'] := rfl
  have hcatch : errorGap.toList = ';' :: '\n' :: ("    \x7d catch (error) \x7b".toList ++
      '\n' :: "      console.error(".toList) := by
    unfold errorGap
    repeat rw [String.toList_ofList]
    rfl
  have herror : "      console.error('✗ ".toList =
      "      console.error(".toList ++ '\'' :: escape "✗ ".toList := by
    repeat rw [String.toList_ofList]
    rfl
  have hfailed : " failed:', error.message);".toList =
      escape " failed:".toList ++ '\'' :: ", error.message);".toList := by
    repeat rw [String.toList_ofList]
    rfl
  have hthrow : messageGap.toList = ", error.message);".toList ++ '\n' ::
      ("      throw error;".toList ++ '\n' :: ("    \x7d".toList ++ '\n' ::
        ("    elapsed = Date.now() - startTime;".toList ++
          '\n' :: "    console.log(".toList))) := by
    unfold messageGap
    simp only [String.toList_append]
    repeat rw [String.toList_ofList]
    rfl
  have hlog : "    console.log('✓ ".toList =
      "    console.log(".toList ++ '\'' :: escape "✓ ".toList := by
    repeat rw [String.toList_ofList]
    rfl
  have hstatus : " - Status: ' + response.status + ', Time: ' + elapsed + 'ms');".toList =
      escape " - Status: ".toList ++
        '\'' :: " + response.status + ', Time: ' + elapsed + 'ms');".toList := by
    repeat rw [String.toList_ofList]
    rfl
  have hend : closingText true = " + response.status + ', Time: ' + elapsed + 'ms');".toList ++
        '\n' :: "  \x7d);".toList := by
    rw [closingText, if_pos rfl]
    repeat rw [String.toList_ofList]
    rfl
  rw [enhancedHeadLines, hintro, quote_message title (by decide) (by decide),
    quote_message title (by decide) (by decide), hthrow, hcatch, hend]
  simp only [List.drop_succ_cons, List.drop_zero, List.map_cons, List.map_nil, joinLines_cons_cons,
    joinLines_singleton, String.toList_append, toList_enhancedCall, String.toList_ofList, hcall,
    herror, hfailed, hlog, hstatus, List.append_assoc, List.cons_append, List.nil_append]

/-- **A hook is a call**: the method stands between what does not depend on it, and its arguments
are in brackets. -/
theorem hookText_eq_call (enhanced : Bool) (request : Request) (depth : ℕ)
    (parent : Option String) :
    hookText enhanced request depth parent =
      slotsText (openingSlots enhanced (Layout.importPath depth setupFileName.toList)
        (suiteName request parent).toList) ++ (introText enhanced ++
          ((methodName request.method).toList ++ '(' ::
            (argumentText enhanced (callOf request) ++ ')' ::
              afterCall enhanced (suiteName request parent).toList (callOf request)))) := by
  have hmethod : (callOf request).method = methodName request.method := rfl
  rw [hookText_eq_opening, headLines, argumentText, afterCall]
  cases enhanced with
  | false =>
      rw [if_neg Bool.false_ne_true, if_neg Bool.false_ne_true, if_neg Bool.false_ne_true,
        joinLines_plainHeadLines, hmethod, List.append_nil]
  | true =>
      rw [if_pos rfl, if_pos rfl, if_pos rfl, joinLines_enhancedHeadLines, hmethod]
      simp only [List.append_assoc]

/-- **The head of a file is literals with text between them**, where the body is a text or there is
none. -/
theorem hookText_eq (hbody : SendsText request body) :
    hookText enhanced request depth parent =
      slotsText (hookSlots enhanced request depth parent body) ++ closingText enhanced := by
  have hpath : (callOf request).path.toList = Url.requestPath request.url.toList :=
    String.toList_ofList
  have hsends : (callOf request).body = body.map .text := hbody
  have hheaders : (callOf request).headers = sentHeaders request.headers := rfl
  rw [hookText_eq_call, hookSlots, slotsText_append, slotsText_cons, pathSlot, ← sentHeaders_eq,
    argumentText, afterCall, hpath, hheaders, hsends]
  cases enhanced with
  | false =>
      have hrest (rest : List Char) : ')' :: (settingsText (sentHeaders request.headers)
          (body.map .text) ++ rest) = slotsText (settingSlots (sentHeaders request.headers) body) ++
            ')' :: rest := by
        rw [← List.cons_append, settingsText_eq, List.append_assoc]
        rfl
      have hend : closingText false = ')' :: ";\n  \x7d);".toList := by
        rw [closingText, if_neg Bool.false_ne_true]
        repeat rw [String.toList_ofList]
      rw [if_neg Bool.false_ne_true, if_neg Bool.false_ne_true, if_neg Bool.false_ne_true, hrest,
        hend]
      simp only [List.append_assoc, List.cons_append, List.nil_append]
  | true =>
      rw [if_pos rfl, if_pos rfl, if_pos rfl, argumentsText_eq, argumentSlots]
      simp only [slotsText_append, slotsText_cons, List.append_assoc, List.cons_append,
        List.nil_append]
      rfl

end RequestSuite.Suite
