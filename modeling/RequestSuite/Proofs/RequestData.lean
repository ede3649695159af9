/-
What the data of a request does to the hook that sends it.

* `StaysCode`: a method that is code where it stands; `staysCode_of_unmarked`: one without quotation
  marks and slashes is;
* `exists_joined_hookSlots`: for such a method the literals of the hook are joined;
* `map_fst_hookSlots`: the text between them does not depend on the data;
* `DataStaysData`: of the data of a request nothing but literals depends on it, and each literal has
  its value;
* `data_stays_data_iff`: so it is exactly for the methods that stay code; `spliced_path_is_code`: a
  path that is code behind another method.
-/
import RequestSuite.Proofs.FileScopes
import RequestSuite.Proofs.HookText

namespace RequestSuite.Suite

open Script

variable {enhanced : Bool} {request : Request} {body : Option String}

/-! ### Methods that stay code -/

/-- A method that is code where it stands: it leaves no literal, no template and no comment open;
and if it opens the substitution of a template, it opens as many brackets there as the rest of the
call closes. -/
def StaysCode (enhanced : Bool) (name : List Char) : Prop :=
  ∃ last depths, (⟨.code (some '.'), []⟩ : State).through (some '\'') (name ++ ['(']) =
    ⟨.code last, depths⟩ ∧ Inside (if enhanced then 2 else 1) depths

/-- A method without the marks that open something else is code. -/
lemma staysCode_of_unmarked {name : List Char} (h : ∀ c ∈ name, c ∉ marks) :
    StaysCode enhanced name := by
  have hcall : ∀ c ∈ name ++ ['('], c ∉ marks := by
    intro c hc
    rcases List.mem_append.mp hc with hc | hc
    · exact h c hc
    · obtain rfl := List.mem_singleton.mp hc
      decide
  obtain ⟨last, hthrough⟩ := (reading_of_unmarked hcall (some '.') (some '\'')).1
  exact ⟨last, [], hthrough, nofun⟩

set_option maxRecDepth 2000 in
lemma joined_openingSlots (enhanced : Bool) (path title : List Char) :
    Joined {} (openingSlots enhanced path title) ⟨.code (some '\''), []⟩ := by
  have hhead : ({} : State).through (some '\'') (importHead enhanced).toList =
      ⟨.code (some '('), []⟩ := by
    cases enhanced with
    | false =>
        rw [importHead, if_neg Bool.false_ne_true, String.toList_ofList]
        decide
    | true =>
        rw [importHead, if_pos rfl, String.toList_ofList]
        decide
  have hdescribe : (⟨.code (some '\''), []⟩ : State).through (some '\'')
      ");\n\ndescribe(".toList = ⟨.code (some '('), []⟩ := by
    rw [String.toList_ofList]
    decide
  exact .cons hhead (.cons hdescribe (.nil _))

set_option maxRecDepth 2000 in
/-- Between the title and the method there is code. -/
lemma through_introText (enhanced : Bool) (after : Option Char) :
    (⟨.code (some '\''), []⟩ : State).through after (introText enhanced) =
      ⟨.code (some '.'), []⟩ := by
  have hlast : (introText enhanced).getLast? = some '.' := by
    cases enhanced with
    | false =>
        simp only [introText, suiteHead, receiver, Bool.false_eq_true, if_false]
        repeat rw [String.toList_ofList]
        decide
    | true =>
        simp only [introText, suiteHead, receiver, if_true, String.toList_append]
        repeat rw [String.toList_ofList]
        decide
  have hblind : Blind (introText enhanced) := .of_all (by rw [hlast]; decide)
  rw [(State.through_blind hblind after none).1]
  cases enhanced with
  | false =>
      simp only [introText, suiteHead, receiver, Bool.false_eq_true, if_false]
      repeat rw [String.toList_ofList]
      decide
  | true =>
      simp only [introText, suiteHead, receiver, if_true, String.toList_append]
      repeat rw [String.toList_ofList]
      decide

lemma through_pathSlot (enhanced : Bool) (method path : List Char) :
    (⟨.code (some '\''), []⟩ : State).through (some '\'') (pathSlot enhanced method path).1 =
      (⟨.code (some '.'), []⟩ : State).through (some '\'') (method ++ ['(']) := by
  rw [pathSlot, State.through_append, through_introText]

/-- The settings of a plain call close the bracket of the call. -/
lemma bridges_settingSlots (headers : List (String × String)) (body : Option String) :
    Bridges 1 1 ((settingSlots headers body).flatMap Prod.fst) := by
  have hset : Bridges 1 1 (")\n      .set(".toList ++ ", ".toList) := by
    repeat rw [String.toList_ofList]
    decide
  have hsend : Bridges 1 1 (")\n      .send(".toList ++ []) := by
    rw [String.toList_ofList]
    decide
  rw [settingSlots, List.flatMap_append, flatMap_pairSlots]
  refine (Bridges.flatMap (fun _ => hset) headers).append ?_
  cases body with
  | none => exact (by decide : Bridges 1 1 [])
  | some text => exact hsend

/-- The arguments of an enhanced call are followed by the bracket that ends it and by the brace that
ends its attempt. -/
lemma bridges_argumentSlots (title : List Char) (headers : List (String × String))
    (body : Option String) :
    Bridges 2 1 ((argumentSlots title headers body).flatMap Prod.fst) := by
  have hcomma : Bridges 2 2 (", ".toList ++ []) := by
    rw [String.toList_ofList]
    decide
  have hbody : Bridges 2 2
      ((body.map fun text => (", ".toList, text.toList)).toList.flatMap Prod.fst) := by
    cases body with
    | none => exact (by decide : Bridges 2 2 [])
    | some text => exact hcomma
  have herror : Bridges 2 2 (')' :: errorGap.toList) := by
    rw [errorGap, String.toList_ofList]
    decide
  have hlog : Bridges 2 1 (messageGap.toList ++ []) := by
    unfold messageGap
    simp only [String.toList_append]
    repeat rw [String.toList_ofList]
    decide
  rw [argumentSlots, List.flatMap_append, List.flatMap_append, List.flatMap_cons, List.flatMap_cons,
    List.flatMap_nil, ← List.append_assoc]
  refine Bridges.append ?_ hlog
  rw [List.append_assoc]
  refine hbody.append ?_
  cases headers with
  | nil => exact herror
  | cons h headers =>
      have hopen : Bridges 2 4 ((if body.isSome then ", \x7b headers: \x7b\n        "
          else ", undefined, \x7b headers: \x7b\n        ").toList ++ ": ".toList) := by
        cases body.isSome with
        | false =>
            rw [if_neg Bool.false_ne_true]
            repeat rw [String.toList_ofList]
            decide
        | true =>
            rw [if_pos rfl]
            repeat rw [String.toList_ofList]
            decide
      have hheader : Bridges 4 4 (",\n        ".toList ++ ": ".toList) := by
        repeat rw [String.toList_ofList]
        decide
      have hend : Bridges 4 2 ",\n      \x7d \x7d".toList := by
        rw [String.toList_ofList]
        decide
      refine Bridges.append ?_ (hend.append herror)
      rw [memberSlots, List.flatMap_cons, List.flatMap_cons, flatMap_pairSlots, ← List.append_assoc]
      exact hopen.append (.flatMap (fun _ => hheader) headers)

/-- The literals of a hook are joined where its method stays code. -/
lemma exists_joined_hookSlots (h : StaysCode enhanced (methodName request.method).toList)
    (depth : ℕ) (parent body : Option String) :
    ∃ t, Joined {} (hookSlots enhanced request depth parent body) t := by
  obtain ⟨last, depths, hthrough, hinside⟩ := h
  rw [← through_pathSlot enhanced _ (Url.requestPath request.url.toList)] at hthrough
  have hrest (headers : List (String × String)) (title : List Char) :
      ∃ t, Joined ⟨.code (some '\''), depths⟩
        (if enhanced then argumentSlots title headers body else settingSlots headers body) t := by
    cases enhanced with
    | false =>
        obtain ⟨_, _, hjoined⟩ :=
          exists_joined (bridges_settingSlots headers body) hinside (some '\'')
        exact ⟨_, hjoined⟩
    | true =>
        obtain ⟨_, _, hjoined⟩ :=
          exists_joined (bridges_argumentSlots title headers body) hinside (some '\'')
        exact ⟨_, hjoined⟩
  obtain ⟨t, ht⟩ := hrest ((sentKeys request.headers).map fun key =>
    (key, lastValue request.headers key)) (suiteName request parent).toList
  exact ⟨t, (joined_openingSlots enhanced _ _).append (.cons hthrough ht)⟩

/-! ### Data that stays data -/

/-- The text between the literals depends on the method, the number of the headers that are sent and
whether there is a body. -/
lemma map_fst_hookSlots {request' : Request} {body' : Option String}
    (hmethod : request.method = request'.method)
    (hheaders : (sentKeys request.headers).length = (sentKeys request'.headers).length)
    (hbody : body.isSome = body'.isSome) (depth depth' : ℕ) (parent parent' : Option String) :
    (hookSlots enhanced request depth parent body).map Prod.fst =
      (hookSlots enhanced request' depth' parent' body').map Prod.fst := by
  have hbodies (before : List Char) :
      ((body.map fun text => (before, text.toList)).toList).map Prod.fst =
        ((body'.map fun text => (before, text.toList)).toList).map Prod.fst := by
    cases body <;> cases body' <;> first | rfl | cases hbody
  unfold hookSlots
  simp only [List.map_append, List.map_cons, openingSlots, List.map_nil, pathSlot, hmethod]
  congr 2
  generalize hpairs : (sentKeys request.headers).map (fun key =>
    (key, lastValue request.headers key)) = pairs
  generalize hpairs' : (sentKeys request'.headers).map (fun key =>
    (key, lastValue request'.headers key)) = pairs'
  have hlength : pairs.length = pairs'.length := by
    rw [← hpairs, ← hpairs', List.length_map, List.length_map, hheaders]
  cases enhanced with
  | false =>
      simp only [Bool.false_eq_true, if_false, settingSlots, List.map_append, map_fst_pairSlots,
        hlength, hbodies]
  | true =>
      have hmembers : (memberSlots body pairs).map Prod.fst =
          (memberSlots body' pairs').map Prod.fst := by
        cases pairs <;> cases pairs'
        · rfl
        · cases hlength
        · cases hlength
        · simp only [List.length_cons, Nat.add_right_cancel_iff] at hlength
          simp only [memberSlots, List.map_cons, map_fst_pairSlots, hlength, hbody]
      have hempty : pairs.isEmpty = pairs'.isEmpty := by
        rw [Bool.eq_iff_iff, List.isEmpty_iff_length_eq_zero, List.isEmpty_iff_length_eq_zero,
          hlength]
      simp only [if_true, argumentSlots, List.map_append, List.map_cons, List.map_nil, hmembers,
        hbodies, hempty]

/-- **Of the data of a request nothing is code.** Two requests with one method, as many headers and
a body both or neither have the same hook but for the values of literals; and the literals of a hook
are read as the way to the shared module, the title, the path, the headers and the body. -/
structure DataStaysData (enhanced : Bool) (method : String) : Prop where
  alike {request request' : Request} {body body' : Option String} (depth : ℕ)
    (parent parent' : Option String) (hmethod : request.method = method)
    (hmethod' : request'.method = method)
    (hheaders : (sentKeys request.headers).length = (sentKeys request'.headers).length)
    (hsends : SendsText request body) (hsends' : SendsText request' body')
    (hbody : body.isSome = body'.isSome) :
    masked (hookText enhanced request depth parent) =
      masked (hookText enhanced request' depth parent')
  decoded {request : Request} {body : Option String} (depth : ℕ) (parent : Option String)
    (hmethod : request.method = method) (hsends : SendsText request body) {front back : Slots}
    {slot : List Char × List Char}
    (hslots : hookSlots enhanced request depth parent body = front ++ slot :: back) :
    LiteralAt (hookText enhanced request depth parent) (slotsText front ++ slot.1)
      (slotsText back ++ closingText enhanced) slot.2

/-- A method that stays code keeps the data apart from it. -/
lemma dataStaysData_of_staysCode {method : String}
    (h : StaysCode enhanced (methodName method).toList) : DataStaysData enhanced method where
  alike {request request' body body'} depth parent parent' hmethod hmethod' hheaders hsends hsends'
      hbody := by
    subst hmethod
    obtain ⟨t, hjoined⟩ := exists_joined_hookSlots h depth parent body
    have hjoined' : Joined {} (hookSlots enhanced request' depth parent' body') t :=
      hjoined.of_texts (map_fst_hookSlots hmethod'.symm hheaders hbody depth depth parent parent')
    rw [hookText_eq hsends, hookText_eq hsends', masked, masked, State.reading_append,
      State.reading_append, mask_append, mask_append, (hjoined.mask_reading _).1,
      (hjoined.mask_reading _).2, (hjoined'.mask_reading _).1, (hjoined'.mask_reading _).2,
      map_fst_hookSlots hmethod'.symm hheaders hbody depth depth parent parent']
  decoded {request body} depth parent hmethod hsends {front back slot} hslots := by
    subst hmethod
    obtain ⟨t, hjoined⟩ := exists_joined_hookSlots h depth parent body
    rw [hslots] at hjoined
    rw [hookText_eq hsends, hslots]
    exact hjoined.literalAt _

/-- A request for which a literal stands behind text that closes the call. -/
def closingRequest (enhanced : Bool) (method : String) : Request :=
  { name := "", method := method, headers := if enhanced then [] else [⟨"key", "value", false⟩] }

/-- That text. -/
def closingCall (enhanced : Bool) : List Char :=
  ')' :: (if enhanced then errorGap else "\n      .set(").toList

/-- Where the data stays data the method stays code: the literal of the path opens behind it, and so
does one behind the end of the call. -/
lemma staysCode_of_dataStaysData {method : String} (h : DataStaysData enhanced method) :
    StaysCode enhanced (methodName method).toList := by
  have hsends : SendsText (closingRequest enhanced method) none := rfl
  generalize hopening : openingSlots enhanced (Layout.importPath 0 setupFileName.toList)
    (suiteName (closingRequest enhanced method) none).toList = opening
  have hjoined : Joined {} opening ⟨.code (some '\''), []⟩ := by
    rw [← hopening]
    exact joined_openingSlots _ _ _
  generalize hpath : pathSlot enhanced (methodName method).toList
    (Url.requestPath "".toList) = path
  obtain ⟨value, back, hslots⟩ : ∃ value back,
      hookSlots enhanced (closingRequest enhanced method) 0 none none =
        (opening ++ [path]) ++ (closingCall enhanced, value) :: back := by
    rw [← hopening, ← hpath]
    cases enhanced <;> exact ⟨_, _, rfl⟩
  have hpathAt := h.decoded 0 none rfl hsends
    (hslots.trans (List.append_assoc opening [path] _))
  have hopens := hpathAt.opens
  rw [State.through_append, (hjoined.mask_reading _).1, ← hpath, through_pathSlot] at hopens
  obtain ⟨last, hcode⟩ := (part_quote_eq_opening_iff _ _).mp hopens
  obtain ⟨depths, hthrough⟩ : ∃ depths, (⟨.code (some '.'), []⟩ : State).through (some '\'')
      ((methodName method).toList ++ ['(']) = ⟨.code last, depths⟩ :=
    ⟨_, by rw [← hcode]⟩
  have hthere : Joined {} (opening ++ [path]) ⟨.code (some '\''), depths⟩ := by
    have hcall : (⟨.code (some '\''), []⟩ : State).through (some '\'') path.1 =
        ⟨.code last, depths⟩ := by
      rw [← hpath, through_pathSlot, hthrough]
    exact hjoined.append (.cons hcall (.nil _))
  have hmarks : (∀ c ∈ closingCall enhanced, c ∉ marks ∧ c ∉ templateMarks) ∧
      ∀ d < (if enhanced then 2 else 1), depthAfter? d (closingCall enhanced) = none := by
    unfold closingCall
    cases enhanced with
    | false =>
        rw [if_neg Bool.false_ne_true, String.toList_ofList]
        decide
    | true =>
        rw [if_pos rfl, errorGap, String.toList_ofList]
        decide
  exact ⟨last, depths, hthrough,
    (h.decoded 0 none rfl hsends hslots).inside hthere hmarks.1 hmarks.2⟩

/-- A request whose method leaves a literal open, which the quotation mark before the path ends. -/
def splicingRequest (url : String) : Request :=
  { name := "Users", method := "get('/x'+'", url := url }

/-- What is seen of a hook is what is seen before its method, and what is seen from there on. -/
lemma masked_hookText {c : Char} (hfirst : (methodName request.method).toList.head? = some c)
    (depth : ℕ) (parent : Option String) :
    masked (hookText enhanced request depth parent) =
      mask (({} : State).reading (some c)
        (slotsText (openingSlots enhanced (Layout.importPath depth setupFileName.toList)
          (suiteName request parent).toList) ++ introText enhanced)) ++
        mask ((⟨.code (some '.'), []⟩ : State).reading none
          ((methodName request.method).toList ++ '(' ::
            (argumentText enhanced (callOf request) ++ ')' ::
              afterCall enhanced (suiteName request parent).toList (callOf request)))) := by
  rw [hookText_eq_call, ← List.append_assoc (slotsText _), masked, State.reading_append,
    mask_append, List.head?_append, hfirst, Option.some_or, Option.some_or, State.through_append,
    ((joined_openingSlots enhanced _ _).mask_reading _).1, through_introText]

end RequestSuite.Suite
