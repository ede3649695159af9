/-
A test that is scanned once more, for itself.

* `codeIn`, `codeIn_test`: the code of a script between two positions, and that of a test;
* `isSignal`, `signals`, `callbackIn_signals`: the brackets, commas and arrows that the search for a
  callback acts on;
* `mem_code_succ`: behind code a character that opens nothing is code;
* `Callback.shift`, `callbackIn_shift`: the search at another place;
* `Rescanned`, `test_rescanned`: the scan of a test sees what the scan of the script saw there, and
  the search for its callback acts on nothing else.
-/
import RequestSuite.Proofs.CallbackPlace

namespace RequestSuite.Script

variable {text block : List Char} {start stop i k : ℕ} {span : ℕ × ℕ} {c d : Char}

/-! ### The code of a test -/

/-- The code of a script from one position to another. -/
def codeIn (text : List Char) (start stop : ℕ) : List (ℕ × Char) :=
  (code text).filter fun p => decide (start ≤ p.1) && decide (p.1 < stop)

/-- **The code of a test in the script is its own code**, at the place where the test starts. -/
lemma codeIn_test (h : span ∈ spans text) : codeIn text span.1 span.2 =
    (code (slice text span.1 span.2)).map fun p => (span.1 + p.1, p.2) := by
  obtain ⟨before, after, hcode, hbefore, hafter⟩ := code_test h
  obtain ⟨hlt, hle⟩ := (inOrder_spans text).bounds span h
  have hfront : before.filter (fun p => decide (span.1 ≤ p.1) && decide (p.1 < span.2)) = [] := by
    refine List.filter_eq_nil_iff.mpr fun q hq => ?_
    simpa using fun hl => absurd hl (not_le.mpr (hbefore q hq))
  have hback : after.filter (fun p => decide (span.1 ≤ p.1) && decide (p.1 < span.2)) = [] := by
    refine List.filter_eq_nil_iff.mpr fun q hq => ?_
    simpa using fun _ => hafter q hq
  rw [codeIn, hcode, List.filter_append, List.filter_append, hfront, hback, List.nil_append,
    List.append_nil]
  refine List.filter_eq_self.mpr fun q hq => ?_
  obtain ⟨p, hp, rfl⟩ := List.mem_map.mp hq
  have hend := (mem_codeFrom hp).2.1
  rw [length_slice hle] at hend
  simp only [Bool.and_eq_true, decide_eq_true_eq]
  omega

/-- Behind a character of code, one that opens no literal and no comment is code. -/
lemma mem_code_succ (h : (i, c) ∈ code text) (hd : text[i + 1]? = some d)
    (hsign : isSign d = true) : (i + 1, d) ∈ code text := by
  obtain ⟨⟨last, hlast, hopened⟩, hdepths⟩ := mode_of_mem_code h
  have hstate : stateAt text (i + 1) = ⟨.code (lastAfter last c), []⟩ := by
    rw [stateAt_succ (getElem?_of_mem_code h)]
    simp only [State.step, hlast, hopened, hdepths]
    rfl
  obtain ⟨hlt, hget⟩ := List.getElem?_eq_some_iff.mp hd
  have hsigns : ∀ c ∈ [d], isSign c = true := by simpa using hsign
  obtain ⟨last', hcode⟩ := exists_codeFrom_signs hsigns (i + 1) (lastAfter last c)
    (text.drop (i + 2))
  rw [code_eq_append hlt.le, hstate, List.drop_eq_getElem_cons hlt, hget]
  rw [List.singleton_append] at hcode
  rw [hcode]
  exact List.mem_append_right _ List.mem_cons_self

/-! ### The search for the callback -/

/-- What the search for a callback acts on: a bracket, a comma, or the first character of an
arrow. -/
def isSignal (block : List Char) (p : ℕ × Char) : Bool :=
  isOpener p.2 || isCloser p.2 || p.2 == ',' || (p.2 == '=' && block[p.1 + 1]? == some '>')

/-- The brackets, commas and arrows in the code of a text. -/
def signals (block : List Char) : List (ℕ × Char) := (code block).filter (isSignal block)

/-- Any other character is passed over. -/
lemma callbackIn_cons_of_not_isSignal (h : isSignal block (i, c) = false) (depth : ℤ) (named : Bool)
    (arrow : Option ℕ) (ps : List (ℕ × Char)) :
    callbackIn block depth named arrow ((i, c) :: ps) = callbackIn block depth named arrow ps := by
  simp only [isSignal, Bool.or_eq_false_iff, Bool.and_eq_false_imp, beq_eq_false_iff_ne,
    beq_iff_eq] at h
  obtain ⟨⟨⟨hopener, hcloser⟩, hcomma⟩, harrow⟩ := h
  have hcomma : (decide (depth = 1) && decide (c = ',')) = false := by simp [hcomma]
  have harrow : (decide (depth = 1) && named && decide (c = '=') &&
      decide (block[i + 1]? = some '>')) = false := by simpa using fun _ _ => harrow
  cases arrow <;> rw [callbackIn] <;> simp [hopener, hcloser, hcomma, harrow]

/-- **The search acts on nothing else.** -/
lemma callbackIn_signals (block : List Char) (depth : ℤ) (named : Bool) (arrow : Option ℕ)
    (ps : List (ℕ × Char)) :
    callbackIn block depth named arrow (ps.filter (isSignal block)) =
      callbackIn block depth named arrow ps := by
  induction ps generalizing depth named arrow with
  | nil => rfl
  | cons p ps ih =>
      cases hp : isSignal block p with
      | false =>
          rw [List.filter_cons_of_neg (by simp [hp]), ih, callbackIn_cons_of_not_isSignal hp]
      | true =>
          rw [List.filter_cons_of_pos hp]
          cases arrow <;> rw [callbackIn, callbackIn] <;> simp only [ih]

/-- A callback at another place. -/
def Callback.shift (k : ℕ) : Callback → Callback
  | .block brace => .block (k + brace)
  | .expression start stop => .expression (k + start) (k + stop)
  | .missing => .missing

@[simp] lemma Callback.shift_block (k brace : ℕ) :
    (Callback.block brace).shift k = .block (k + brace) := rfl

@[simp] lemma Callback.shift_expression (k start stop : ℕ) :
    (Callback.expression start stop).shift k = .expression (k + start) (k + stop) := rfl

@[simp] lemma Callback.shift_missing (k : ℕ) : Callback.missing.shift k = .missing := rfl

/-- **The search at another place.** It looks at the text only where an arrow may stand. -/
lemma callbackIn_shift (depth : ℤ) (named : Bool) (arrow : Option ℕ) {ps : List (ℕ × Char)}
    (h : ∀ p ∈ ps, p.2 = '=' → block[p.1 + 1]? = text[k + (p.1 + 1)]?) :
    callbackIn text depth named (arrow.map (k + ·)) (ps.map fun p => (k + p.1, p.2)) =
      (callbackIn block depth named arrow ps).shift k := by
  induction ps generalizing depth named arrow with
  | nil => rfl
  | cons p ps ih =>
      obtain ⟨hp, hps⟩ := List.forall_mem_cons.mp h
      obtain ⟨i, c⟩ := p
      have harrow : (decide (depth = 1) && named && decide (c = '=') &&
          decide (text[k + (i + 1)]? = some '>')) =
            (decide (depth = 1) && named && decide (c = '=') &&
              decide (block[i + 1]? = some '>')) := by
        by_cases hc : c = '='
        · rw [hp hc]
        · simp [hc]
      have hnone (depth : ℤ) (named : Bool) := ih depth named none hps
      have hsome (depth : ℤ) (named : Bool) (first : ℕ) := ih depth named (some first) hps
      simp only [Option.map_none, Option.map_some] at hnone hsome
      cases arrow with
      | none =>
          simp only [Option.map_none, List.map_cons, callbackIn, Nat.add_assoc, harrow, hnone,
            hsome, apply_ite (Callback.shift k), Callback.shift_block, Callback.shift_missing]
      | some first =>
          simp only [Option.map_some, List.map_cons, callbackIn, Nat.add_assoc, harrow, hsome,
            apply_ite (Callback.shift k), Callback.shift_block, Callback.shift_expression]

/-! ### Scanning a test for itself -/

/-- An equals sign of a test is followed in the test by what follows it in the script. -/
lemma getElem?_succ_test (h : span ∈ spans text) {p : ℕ × Char}
    (hp : p ∈ code (slice text span.1 span.2)) (heq : p.2 = '=') :
    (slice text span.1 span.2)[p.1 + 1]? = text[span.1 + (p.1 + 1)]? := by
  obtain ⟨hlt, hle⟩ := (inOrder_spans text).bounds span h
  have hlength := @length_slice text span.1 span.2 hle
  have hget := getElem?_of_mem_code hp
  refine getElem?_slice (Nat.lt_of_le_of_ne ?_ fun hend => ?_)
  · have := (List.getElem?_eq_some_iff.mp hget).1
    omega
  · -- the last character of a test is no equals sign
    have hlast := getLast?_test h
    rw [List.getLast?_eq_getElem?, hlength, ← hend, Nat.add_sub_cancel, hget, heq] at hlast
    simp at hlast

/-- A test that is scanned for itself, from its first position to the one after it. -/
structure Rescanned (text : List Char) (start stop : ℕ) : Prop where
  /-- Its code is that of the script there. -/
  code_eq : code (slice text start stop) = (codeIn text start stop).map fun p => (p.1 - start, p.2)
  /-- The search for its callback acts on brackets, commas and arrows. -/
  callback_eq_signals : callback (slice text start stop) =
    callbackIn (slice text start stop) 0 false none (signals (slice text start stop))
  /-- Each of these is code of the script at the corresponding position, an arrow with both its
  characters. -/
  signal_mem : ∀ p ∈ signals (slice text start stop), (start + p.1, p.2) ∈ code text ∧
    (p.2 = '=' → (start + p.1 + 1, '>') ∈ code text)
  /-- In the code of the script the search finds the same callback there. -/
  callback_eq : callbackIn text 0 false none (codeIn text start stop) =
    (callback (slice text start stop)).shift start

/-- **A test that is scanned for itself** shows what the scan of the script has seen there, and the
search for its callback acts on nothing else. -/
theorem test_rescanned (h : span ∈ spans text) : Rescanned text span.1 span.2 := by
  have hcode := codeIn_test h
  refine ⟨?_, (callbackIn_signals _ _ _ _ _).symm, fun p hp => ?_, ?_⟩
  · rw [hcode, List.map_map]
    refine ((List.map_congr_left fun p _ => ?_).trans (List.map_id _)).symm
    simp
  · obtain ⟨hmem, hsignal⟩ := List.mem_filter.mp hp
    have hscript : (span.1 + p.1, p.2) ∈ code text := by
      refine List.mem_of_mem_filter (?_ : _ ∈ codeIn text span.1 span.2)
      rw [hcode]
      exact List.mem_map_of_mem hmem
    refine ⟨hscript, fun heq => mem_code_succ hscript ?_ rfl⟩
    rw [Nat.add_assoc, ← getElem?_succ_test h hmem heq]
    simpa [isSignal, heq, isOpener, isCloser] using hsignal
  · rw [hcode, callback]
    exact callbackIn_shift 0 false none fun p => getElem?_succ_test h

/-- A script with a division in front of a test and a comment that does not end behind it. -/
def surroundedScript : List Char :=
  "const n = 4 / 2;\nit(\"a\", () => /,\\(/.test(`$\x7bn\x7d)`)); /* =>".toList

/-- The brackets and the comma of the expression and of the template are no signals. -/
theorem surrounded_test_rescanned :
    (17, 52) ∈ spans surroundedScript ∧ Rescanned surroundedScript 17 52 ∧
      (signals (slice surroundedScript 17 52)).map Prod.snd = "(,()=())".toList := by
  have hspan : (17, 52) ∈ spans surroundedScript := by decide +kernel
  exact ⟨hspan, test_rescanned hspan, by decide +kernel⟩

end RequestSuite.Script
