/-
Where a test's callback is found, and what a set-up does to the test there.

* `BodyPlace`, `Written`: a place among the arguments behind the test's name, and the start of a
  block or an arrow there;
* `Searched`, `Searched.concat`: what is known after some of a test's code, one character at a time,
  and what each kind of character adds to it (`Searched.opener`, `Searched.closer`,
  `Searched.comma`, `Searched.arrow_at`, `Searched.plain`);
* `Found`, `found_callbackIn`, `found_callback`: what `callback` has found when it ends;
* `callStart`, `searched_callStart`: the start of a call, where nothing has been found;
* `Parentheses`: the parentheses of a test;
* `Inserted`, `inject_inserts_once`: a set-up is put once into a test, and nothing else changes.
-/
import RequestSuite.Proofs.CodePieces

namespace RequestSuite.Script

open Text

variable {text block setup result : List Char} {front rest : List (ℕ × Char)} {p : ℕ × Char}
  {depth : ℤ} {named : Bool} {arrow : Option ℕ} {span : ℕ × ℕ} {brace start stop i : ℕ} {c : Char}

/-! ### Places of callbacks -/

/-- A place where one bracket is open, behind a comma at which no other is. -/
def BodyPlace (block : List Char) (i : ℕ) : Prop :=
  openBefore block i = 1 ∧ ∃ comma < i, (comma, ',') ∈ code block ∧ openBefore block comma = 1

/-- The two characters of an arrow. -/
def ArrowAt (block : List Char) (i : ℕ) : Prop :=
  (i, '=') ∈ code block ∧ block[i + 1]? = some '>'

/-- A block or an arrow starts at a place of the call that a test begins with: no bracket in front
of it closes that call. -/
def Written (block : List Char) (i : ℕ) : Prop :=
  BodyPlace block i ∧ ((i, '\x7b') ∈ code block ∨ ArrowAt block i) ∧
    ∀ q ∈ code block, q.1 < i → isCloser q.2 = true → openBefore block (q.1 + 1) ≠ 0

/-- What has been found in the code of a test. -/
def Found (block : List Char) : Callback → Prop
  | .block brace => (brace, '\x7b') ∈ code block ∧ BodyPlace block brace
  | .expression start stop =>
    (∃ i, start = i + 2 ∧ ArrowAt block i ∧ BodyPlace block i) ∧
      ∃ c, (stop, c) ∈ code block ∧ (isCloser c = true ∨ c = ',')
  | .missing => ∀ i, ¬ Written block i

/-- What is known after some of a test's code has been searched. -/
structure Searched (block : List Char) (front : List (ℕ × Char)) (depth : ℤ) (named : Bool)
    (arrow : Option ℕ) : Prop where
  depth_eq : depth = levelOf front
  pos : 0 < levelOf front
  named_iff : named = true ↔ ∃ comma, (comma, ',') ∈ front ∧ openBefore block comma = 1
  inside : ∀ q ∈ front, isCloser q.2 = true → openBefore block (q.1 + 1) ≠ 0
  no_block : ∀ i, (i, '\x7b') ∈ front → ¬ BodyPlace block i
  no_arrow : arrow = none → ∀ i, (i, '=') ∈ front → block[i + 1]? = some '>' → ¬ BodyPlace block i
  arrow_eq : ∀ first, arrow = some first → ∃ i, first = i + 2 ∧ ArrowAt block i ∧ BodyPlace block i

lemma sign_ne (h : isOpener c = true ∨ isCloser c = true) : c ≠ ',' ∧ c ≠ '=' := by
  constructor <;>
  · rintro rfl
    exact absurd h (by decide)

/-! ### The search -/

namespace Searched

variable (h : Searched block front depth named arrow) (hcode : code block = front ++ p :: rest)
include h hcode

lemma place_iff : BodyPlace block p.1 ↔ depth = 1 ∧ named = true := by
  have hfront (comma : ℕ) : (comma < p.1 ∧ (comma, ',') ∈ code block) ↔ (comma, ',') ∈ front := by
    rw [mem_before_iff hcode, and_comm]
  rw [BodyPlace, openBefore_of_code hcode, h.depth_eq, h.named_iff]
  simp only [← and_assoc, hfront, Nat.cast_eq_one]

/-- **One more character**, at which the search does not end. -/
lemma concat {depth' : ℤ} {named' : Bool} {arrow' : Option ℕ}
    (hdepth : depth' = level (levelOf front) p.2) (hpos : 0 < depth')
    (hnamed : named' = true ↔ named = true ∨ p.2 = ',' ∧ depth = 1)
    (hblock : p.2 = '\x7b' → ¬ BodyPlace block p.1)
    (hnone : arrow' = none →
      arrow = none ∧ (p.2 = '=' → block[p.1 + 1]? = some '>' → ¬ BodyPlace block p.1))
    (harrow : ∀ first, arrow' = some first →
      arrow = some first ∨ first = p.1 + 2 ∧ ArrowAt block p.1 ∧ BodyPlace block p.1) :
    Searched block (front ++ [p]) depth' named' arrow' := by
  have hlevel := openBefore_of_code hcode
  have hone : depth = 1 ↔ openBefore block p.1 = 1 := by
    rw [hlevel, h.depth_eq, Nat.cast_eq_one]
  refine ⟨?_, ?_, ?_, fun q hq hc => ?_, fun i hi => ?_, fun hn i hi htip => ?_, fun first hf => ?_⟩
  · rw [hdepth, levelOf_concat]
  · rw [levelOf_concat]
    exact_mod_cast hdepth ▸ hpos
  · rw [hnamed, h.named_iff, hone]
    constructor
    · rintro (⟨comma, hmem, hcomma⟩ | ⟨hc, hcomma⟩)
      · exact ⟨comma, List.mem_append_left _ hmem, hcomma⟩
      · refine ⟨p.1, List.mem_append_right _ ?_, hcomma⟩
        rw [← hc]
        exact List.mem_singleton_self _
    · rintro ⟨comma, hmem, hcomma⟩
      rcases List.mem_append.mp hmem with hmem | hmem
      · exact Or.inl ⟨comma, hmem, hcomma⟩
      · obtain rfl := List.mem_singleton.mp hmem
        exact Or.inr ⟨rfl, hcomma⟩
  · rcases List.mem_append.mp hq with hq | hq
    · exact h.inside q hq hc
    · obtain rfl := List.mem_singleton.mp hq
      rw [openBefore_succ_of_code hcode]
      omega
  · rcases List.mem_append.mp hi with hi | hi
    · exact h.no_block i hi
    · obtain rfl := List.mem_singleton.mp hi
      exact hblock rfl
  · obtain ⟨hnone, hlast⟩ := hnone hn
    rcases List.mem_append.mp hi with hi | hi
    · exact h.no_arrow hnone i hi htip
    · obtain rfl := List.mem_singleton.mp hi
      exact hlast rfl htip
  · rcases harrow first hf with hf | ⟨hf, hat, hplace⟩
    · exact h.arrow_eq first hf
    · exact ⟨p.1, hf, hat, hplace⟩

/-- An opening bracket that starts no block. -/
lemma opener (ho : isOpener p.2 = true) (hblock : ¬ (p.2 = '\x7b' ∧ depth = 1 ∧ named = true)) :
    Searched block (front ++ [p]) (depth + 1) named arrow := by
  have hne := sign_ne (Or.inl ho)
  have hpos := h.pos
  refine h.concat hcode ?_ ?_ ?_ ?_ ?_ ?_
  · rw [level_opener ho, h.depth_eq, Nat.cast_succ]
  · rw [h.depth_eq]
    omega
  · simp [hne.1]
  · exact fun hbrace hplace => hblock ⟨hbrace, (h.place_iff hcode).mp hplace⟩
  · exact fun hn => ⟨hn, fun heq => absurd heq hne.2⟩
  · exact fun first hf => Or.inl hf

/-- A closing bracket that leaves the call open. -/
lemma closer (hc : isCloser p.2 = true) (hdepth : depth ≠ 1) :
    Searched block (front ++ [p]) (depth - 1) named arrow := by
  have hne := sign_ne (Or.inr hc)
  have heq := h.depth_eq
  have hpos := h.pos
  refine h.concat hcode ?_ ?_ ?_ ?_ ?_ ?_
  · rw [level_closer hc]
    omega
  · omega
  · simp [hne.1]
  · intro hbrace
    rw [hbrace] at hc
    exact absurd hc (by decide)
  · exact fun hn => ⟨hn, fun heq => absurd heq hne.2⟩
  · exact fun first hf => Or.inl hf

lemma comma (hc : p.2 = ',') (hdepth : depth = 1) (hn : arrow = none) :
    Searched block (front ++ [p]) depth true none := by
  refine h.concat hcode ?_ (by omega) (by simp [hc, hdepth]) ?_ ?_ (by simp)
  · rw [hc]
    exact h.depth_eq
  · exact fun heq => absurd (hc.symm.trans heq) (by decide)
  · exact fun _ => ⟨hn, fun heq => absurd (hc.symm.trans heq) (by decide)⟩

/-- An arrow behind the test's name. -/
lemma arrow_at (hc : p.2 = '=') (hplace : depth = 1 ∧ named = true)
    (htip : block[p.1 + 1]? = some '>') :
    Searched block (front ++ [p]) depth named (some (p.1 + 2)) := by
  have hat : ArrowAt block p.1 := ⟨by rw [hcode, ← hc]; simp, htip⟩
  refine h.concat hcode ?_ (by omega) (by simp [hc]) ?_ (by simp) ?_
  · rw [hc]
    exact h.depth_eq
  · exact fun heq => absurd (hc.symm.trans heq) (by decide)
  · exact fun first hf =>
      Or.inr ⟨(Option.some.inj hf).symm, hat, (h.place_iff hcode).mpr hplace⟩

/-- Any other character. -/
lemma plain (ho : isOpener p.2 = false) (hc : isCloser p.2 = false)
    (hcomma : ¬ (depth = 1 ∧ p.2 = ','))
    (harrow : ¬ ((depth = 1 ∧ named = true) ∧ p.2 = '=' ∧ block[p.1 + 1]? = some '>')) :
    Searched block (front ++ [p]) depth named arrow := by
  have hpos := h.pos
  have heq := h.depth_eq
  refine h.concat hcode ?_ (by omega) ?_ ?_ ?_ ?_
  · rw [level_plain ho hc]
    exact heq
  · tauto
  · intro hbrace
    rw [hbrace] at ho
    exact absurd ho (by decide)
  · exact fun hn => ⟨hn, fun heq htip hplace => harrow ⟨(h.place_iff hcode).mp hplace, heq, htip⟩⟩
  · exact fun first hf => Or.inl hf

/-- What is written in the call stands in front of the parenthesis that closes it, so that nothing
is written there if nothing has been found. -/
lemma not_written (hc : isCloser p.2 = true) (hdepth : depth = 1) (hn : arrow = none) (i : ℕ) :
    ¬ Written block i := by
  rintro ⟨hplace, hstart, hinside⟩
  have hmem : p ∈ code block := by rw [hcode]; simp
  have hzero : openBefore block (p.1 + 1) = 0 := by
    have := h.depth_eq
    rw [openBefore_succ_of_code hcode, level_closer hc]
    omega
  have hle : i ≤ p.1 := not_lt.mp fun hlt => hinside p hmem hlt hc hzero
  have hfront {d : Char} (hd : (i, d) ∈ code block) (hdc : isCloser d = false) :
      (i, d) ∈ front := by
    refine (mem_before_iff hcode).mpr ⟨hd, lt_of_le_of_ne hle fun heq => ?_⟩
    have hsame : some d = some p.2 := by
      rw [← getElem?_of_mem_code hmem, ← getElem?_of_mem_code hd]
      exact congrArg (block[·]?) heq
    rw [Option.some.inj hsame, hc] at hdc
    cases hdc
  rcases hstart with hbrace | ⟨harrow, htip⟩
  · exact h.no_block i (hfront hbrace rfl) hplace
  · exact h.no_arrow hn i (hfront harrow rfl) htip hplace

end Searched

/-- **What the search for a callback has found when it ends**, in a call whose parenthesis is closed
in the code. -/
lemma found_callbackIn (hcode : code block = front ++ rest)
    (h : Searched block front depth named arrow)
    (hcloser : ∃ q ∈ code block, isCloser q.2 = true ∧ openBefore block (q.1 + 1) = 0) :
    Found block (callbackIn block depth named arrow rest) := by
  fun_induction callbackIn block depth named arrow rest generalizing front with
  | case1 =>
      obtain ⟨q, hq, hc, hzero⟩ := hcloser
      rw [hcode, List.append_nil] at hq
      exact absurd hzero (h.inside q hq hc)
  | case2 depth named arrow i c rest _ hc =>
      simp only [Bool.and_eq_true, decide_eq_true_eq] at hc
      obtain ⟨⟨rfl, hdepth⟩, hnamed⟩ := hc
      exact ⟨by rw [hcode]; simp, (h.place_iff hcode).mpr ⟨hdepth, hnamed⟩⟩
  | case3 depth named arrow i c rest ho hc ih =>
      simp only [Bool.and_eq_true, decide_eq_true_eq, and_assoc] at hc
      exact ih (by rw [hcode, List.append_cons]) (h.opener hcode ho hc)
  | case4 depth named i c rest _ hc _ first =>
      exact ⟨h.arrow_eq first rfl, c, by rw [hcode]; simp, Or.inl hc⟩
  | case5 depth named i c rest _ hc hdepth =>
      exact h.not_written hcode hc (by omega) rfl
  | case6 depth named arrow i c rest _ hc hdepth ih =>
      exact ih (by rw [hcode, List.append_cons]) (h.closer hcode hc (by omega))
  | case7 depth named i c rest _ _ hc first =>
      simp only [Bool.and_eq_true, decide_eq_true_eq] at hc
      exact ⟨h.arrow_eq first rfl, c, by rw [hcode]; simp, Or.inr hc.2⟩
  | case8 depth named i c rest _ _ hc ih =>
      simp only [Bool.and_eq_true, decide_eq_true_eq] at hc
      exact ih (by rw [hcode, List.append_cons]) (h.comma hcode hc.2 hc.1 rfl)
  | case9 depth named arrow i c rest _ _ _ hc ih =>
      simp only [Bool.and_eq_true, decide_eq_true_eq] at hc
      obtain ⟨⟨hplace, hc⟩, htip⟩ := hc
      exact ih (by rw [hcode, List.append_cons]) (h.arrow_at hcode hc hplace htip)
  | case10 depth named arrow i c rest ho hcl hcomma hc ih =>
      simp only [Bool.and_eq_true, decide_eq_true_eq, and_assoc] at hcomma hc
      exact ih (by rw [hcode, List.append_cons]) (h.plain hcode (by simpa using ho)
        (by simpa using hcl) hcomma (by simpa [and_assoc] using hc))

/-! ### The parentheses of a test -/

/-- The parentheses of a test. In front of the first there is the name `it`, behind the one that
ends the test at most a semicolon, white space apart. -/
structure Parentheses (block : List Char) (opening closing : ℕ) : Prop where
  front : ∃ gap, (∀ c ∈ gap, isBlank c = true) ∧ block.take opening = "it".toList ++ gap
  mem_code : (opening, '(') ∈ code block
  closes : Closes block opening closing
  back : block.drop (closing + 1) = [] ∨
    ∃ blanks, (∀ c ∈ blanks, c = ' ' ∨ c = '\t') ∧ block.drop (closing + 1) = blanks ++ [';']

lemma isSign_of_isBlank (h : isBlank c = true) : isSign c = true := by
  rw [isSign, decide_eq_true_eq]
  intro hmem
  simp only [List.mem_cons, List.not_mem_nil, or_false] at hmem
  rcases hmem with rfl | rfl | rfl | rfl <;> exact absurd h (by decide)

/-- The search does not start in front of the call. -/
lemma callbackIn_plain {ps : List (ℕ × Char)}
    (h : ∀ q ∈ ps, isOpener q.2 = false ∧ isCloser q.2 = false) :
    callbackIn block 0 false none (ps ++ rest) = callbackIn block 0 false none rest := by
  induction ps with
  | nil => rfl
  | cons q ps ih =>
      obtain ⟨⟨ho, hc⟩, hps⟩ := List.forall_mem_cons.mp h
      rw [List.cons_append, callbackIn, ← ih hps]
      simp [ho, hc]

/-- The code at the start of a call of `it`: its name, what stands behind that, and the
parenthesis. -/
def callStart (gap : List Char) : List (ℕ × Char) :=
  spelled 0 ("it".toList ++ gap) ++ [(gap.length + 2, '(')]

section Call

variable {gap arguments : List Char} (hgap : ∀ c ∈ gap, isBlank c = true)
  (hblock : block = "it".toList ++ gap ++ '(' :: arguments)
include hgap

lemma not_bracket_of_call : ∀ c ∈ "it".toList ++ gap, isOpener c = false ∧ isCloser c = false := by
  intro c hc
  rcases List.mem_append.mp hc with hc | hc
  · have hname : ∀ c ∈ "it".toList, isOpener c = false ∧ isCloser c = false := by decide
    exact hname c hc
  · exact not_bracket_of_isBlank (hgap c hc)

/-- The start of a call holds white space, the letters of its name and its parenthesis. -/
lemma mem_callStart {q : ℕ × Char} (hq : q ∈ callStart gap) :
    isBlank q.2 = true ∨ q.2 ∈ ['i', 't', '('] := by
  rcases List.mem_append.mp hq with hq | hq
  · rcases List.mem_append.mp (snd_mem_of_mem_spelled hq) with hq | hq
    · exact Or.inr (List.mem_append_left ['('] hq)
    · exact Or.inl (hgap _ hq)
  · obtain rfl := List.mem_singleton.mp hq
    exact Or.inr (by simp)

lemma not_mem_callStart {j : ℕ} {d : Char} (hd : isBlank d = false ∧ d ∉ ['i', 't', '(']) :
    (j, d) ∉ callStart gap := by
  intro hmem
  rcases mem_callStart hgap hmem with hblank | hletter
  · rw [hd.1] at hblank
    cases hblank
  · exact hd.2 hletter

lemma levelOf_callStart : levelOf (callStart gap) = 1 := by
  rw [callStart, levelOf_concat, levelOf, map_snd_spelled,
    levelAfter_plain (not_bracket_of_call hgap)]
  rfl

/-- Nothing has been found at the start of a call. -/
lemma searched_callStart (block : List Char) : Searched block (callStart gap) 1 false none where
  depth_eq := by rw [levelOf_callStart hgap]; rfl
  pos := by rw [levelOf_callStart hgap]; exact Nat.one_pos
  named_iff := by
    simp only [Bool.false_eq_true, false_iff]
    rintro ⟨comma, hmem, -⟩
    exact not_mem_callStart hgap (by decide) hmem
  inside q hq hc := by
    rcases mem_callStart hgap hq with hblank | hletter
    · rw [(not_bracket_of_isBlank hblank).2] at hc
      cases hc
    · have hnone : ∀ c ∈ ['i', 't', '('], isCloser c = false := by decide
      rw [hnone _ hletter] at hc
      cases hc
  no_block j hj := absurd hj (not_mem_callStart hgap (by decide))
  no_arrow _ j hj := absurd hj (not_mem_callStart hgap (by decide))
  arrow_eq _ hf := by cases hf

include hblock

/-- The start of a call is code. -/
lemma exists_code_call : ∃ rest, code block = callStart gap ++ rest := by
  have hsigns : ∀ c ∈ "it".toList ++ gap ++ ['('], isSign c = true := by
    intro c hc
    rcases List.mem_append.mp hc with hc | hc
    · rcases List.mem_append.mp hc with hc | hc
      · have hname : ∀ c ∈ "it".toList, isSign c = true := by decide
        exact hname c hc
      · exact isSign_of_isBlank (hgap c hc)
    · obtain rfl := List.mem_singleton.mp hc
      decide
  obtain ⟨last, hcode⟩ := exists_codeFrom_signs hsigns 0 none arguments
  rw [spelled_append, Nat.zero_add, length_callName] at hcode
  exact ⟨_, by rw [code, hblock, List.append_cons]; exact hcode⟩

/-- **What is found in a test.** -/
lemma found_callback {closing : ℕ} (hcloses : Closes block 0 closing) :
    Found block (callback block) := by
  obtain ⟨rest, hcode⟩ := exists_code_call hgap hblock
  have hplain := not_bracket_of_call hgap
  have hstart : callback block = callbackIn block 1 false none rest := by
    rw [callback, hcode, callStart, List.append_assoc, callbackIn_plain fun q hq =>
      hplain _ (snd_mem_of_mem_spelled hq)]
    rfl
  rw [hstart]
  exact found_callbackIn hcode (searched_callStart hgap block)
    ⟨_, hcloses.mem_code, rfl, hcloses.openBefore_eq_zero⟩

/-- The parentheses of the call. -/
lemma parentheses_of_call {closing : ℕ} (hcloses : Closes block 0 closing)
    (hback : block.drop (closing + 1) = [] ∨
      ∃ blanks, (∀ c ∈ blanks, c = ' ' ∨ c = '\t') ∧ block.drop (closing + 1) = blanks ++ [';']) :
    Parentheses block (gap.length + 2) closing := by
  obtain ⟨rest, hcode⟩ := exists_code_call hgap hblock
  rw [callStart] at hcode
  have hlt := hcloses.length_lt hgap (by rw [List.drop_zero]; exact hblock)
  refine ⟨⟨gap, hgap, ?_⟩, by rw [hcode]; simp, ⟨by omega, hcloses.mem_code,
    hcloses.openBefore_eq_zero, fun q hq hl => hcloses.first q hq (by omega)⟩, hback⟩
  rw [hblock, ← length_callName, List.take_left]

end Call

/-- What is found in a test, and its parentheses. -/
lemma exists_parentheses (h : span ∈ spans text) (hblock : block = slice text span.1 span.2) :
    Found block (callback block) ∧ ∃ opening closing, Parentheses block opening closing := by
  obtain ⟨gap, arguments, hgap, hcall⟩ := (testAt_of_isTest (isTest_of_mem_spans h)).call
  obtain ⟨closing, hcloses, hstop⟩ := exists_close_of_test h
  rw [← hblock] at hcall hcloses
  refine ⟨found_callback hgap hcall hcloses, _, closing, parentheses_of_call hgap hcall hcloses ?_⟩
  have hback : block.drop (closing + 1) = slice text (span.1 + closing + 1) span.2 := by
    rw [hblock, slice, slice, List.drop_take, List.drop_drop, Nat.sub_sub, Nat.add_assoc]
  have hend := slice_testEnd text (span.1 + closing)
  rw [← hstop, ← hback] at hend
  refine hend.imp_left fun hend => ?_
  rw [hback, hend, slice, Nat.sub_self, List.take_zero]

/-- Nothing but white space and a semicolon stands behind the parenthesis that ends a test. -/
lemma Parentheses.le_closing {opening closing : ℕ} (h : Parentheses block opening closing)
    (hi : block[i]? = some c) (hc : isBlank c = false ∧ c ≠ ';') : i ≤ closing := by
  by_contra hlt
  obtain ⟨k, rfl⟩ : ∃ k, i = closing + 1 + k := ⟨i - (closing + 1), by omega⟩
  rw [← List.getElem?_drop] at hi
  have hmem := List.mem_of_getElem? hi
  rcases h.back with hback | ⟨blanks, hblanks, hback⟩
  · rw [hback] at hmem
    cases hmem
  · rw [hback] at hmem
    rcases List.mem_append.mp hmem with hmem | hmem
    · have hblank : isBlank c = true := by
        rcases hblanks c hmem with rfl | rfl <;> decide
      rw [hc.1] at hblank
      cases hblank
    · exact hc.2 (List.mem_singleton.mp hmem)

/-- An arrow stands behind the parenthesis that opens a test. -/
lemma Parentheses.opening_lt {opening closing : ℕ} (h : Parentheses block opening closing)
    (hi : block[i]? = some '=') : opening < i := by
  by_contra hle
  have hopening := getElem?_of_mem_code h.mem_code
  have hlt : i < opening := by
    refine lt_of_le_of_ne (not_lt.mp hle) fun heq => ?_
    rw [← heq, hi] at hopening
    exact absurd (Option.some.inj hopening) (by simp)
  obtain ⟨gap, hgap, hfront⟩ := h.front
  have hmem : '=' ∈ block.take opening := by
    refine List.mem_of_getElem? (i := i) ?_
    rw [List.getElem?_take_of_lt hlt, hi]
  rw [hfront] at hmem
  rcases List.mem_append.mp hmem with hmem | hmem
  · exact absurd hmem (by decide)
  · have hblank : isBlank '=' = true := hgap _ hmem
    exact absurd hblank (by decide)

/-! ### The set-up in a test -/

/-- What a set-up makes of a test, white space apart: it stands behind the brace of the callback's
block on lines of its own, or in a block around the callback's expression, which that block returns;
a test that is given no such callback stays as it is. -/
def Inserted (block setup result : List Char) : Callback → Prop
  | .block brace => ∃ lines back,
      result = block.take (brace + 1) ++ '\n' :: (lines ++ '\n' :: back) ∧
        ink lines = ink setup ∧ ink back = ink (block.drop (brace + 1))
  | .expression start stop =>
    (∃ opening closing, Parentheses block opening closing ∧
      opening < start ∧ start ≤ stop ∧ stop ≤ closing) ∧
      ink result = ink (block.take start) ++ "\x7b".toList ++ ink setup ++ "return".toList ++
        ink (slice block start stop) ++ ";\x7d".toList ++ ink (block.drop stop)
  | .missing => result = block

/-- **A set-up is put once into a test, and nothing else changes.** -/
theorem inject_inserts_once (h : block ∈ (split text).tests) (hne : setup ≠ []) :
    Found block (callback block) ∧ Inserted block setup (inject block setup) (callback block) := by
  obtain ⟨span, hspan, hblock⟩ := List.mem_map.mp h
  obtain ⟨hfound, opening, closing, hparentheses⟩ := exists_parentheses hspan hblock.symm
  refine ⟨hfound, ?_⟩
  have hempty : setup.isEmpty = false := by simpa using hne
  cases hcallback : callback block with
  | missing => simp [Inserted, inject, hempty, hcallback]
  | block brace =>
      obtain ⟨blanks, back, hblanks, hdrop, hinject⟩ := exists_inject_block hcallback hempty
      refine ⟨_, back, hinject, ink_indented setup, ?_⟩
      rw [hdrop, ink_append, ink_eq_nil hblanks, List.nil_append]
  | expression start stop =>
      rw [hcallback] at hfound
      obtain ⟨⟨i, rfl, ⟨harrow, -⟩, -⟩, c, hmem, hc⟩ := hfound
      have hopening := hparentheses.opening_lt (getElem?_of_mem_code harrow)
      have hne : c ≠ ';' := by
        rintro rfl
        exact absurd hc (by decide)
      have hclosing := hparentheses.le_closing (getElem?_of_mem_code hmem)
        ⟨(sign_of_edge hc).1, hne⟩
      refine ⟨⟨opening, closing, hparentheses, by omega, le_of_callback_expression hcallback,
        hclosing⟩, ?_⟩
      rw [inject, hempty, if_neg Bool.false_ne_true, hcallback]
      exact ink_returned block setup (i + 2) stop

/-- A test with an object in front of its callback. -/
def optionsTest : List Char := "it(\"a\", opts(\x7bx: 1\x7d), () => check(n));".toList

/-- A script that has a statement in front of this test. -/
def optionsScript : List Char := "const n = 2;\n".toList ++ optionsTest

/-- The test with this statement in it. -/
def optionsInjected : List Char :=
  "it(\"a\", opts(\x7bx: 1\x7d), () => \x7b\n  const n = 2;\n  return check(n);\n\x7d);".toList

/-- The statement goes with the expression behind the arrow, not into the object. -/
theorem inserted_behind_options :
    optionsTest ∈ (split optionsScript).tests ∧ "const n = 2;".toList ≠ [] ∧
      Found optionsTest (.expression 27 36) ∧
      inject optionsTest "const n = 2;".toList = optionsInjected ∧
      Inserted optionsTest "const n = 2;".toList optionsInjected (.expression 27 36) := by
  have hmem : optionsTest ∈ (split optionsScript).tests := by decide +kernel
  have hcallback : callback optionsTest = .expression 27 36 := by decide +kernel
  have hresult : inject optionsTest "const n = 2;".toList = optionsInjected := by decide +kernel
  have hinserted := inject_inserts_once hmem (by decide : "const n = 2;".toList ≠ [])
  rw [hcallback, hresult] at hinserted
  exact ⟨hmem, by decide, hinserted.1, hresult, hinserted.2⟩

end RequestSuite.Script
