/-
The code of a script, piece by piece.

* `codeThrough`: the code of a piece, given the character that comes next;
* `codeThrough_append`, `codeThrough_add`, `codeThrough_blind`: one piece after another, a piece at
  another place, and a piece whose end does not look at what follows;
* `exists_codeFrom_signs`: characters that open no literal and no comment are code;
* `code_test`, `openBefore_test`, `exists_close_of_test`: a test is read for itself as it is read in
  the script.
-/
import RequestSuite.Proofs.LiteralCopies
import RequestSuite.Proofs.Partition

namespace RequestSuite.Script

open Text (isBlank)

variable {text cs ds : List Char} {s : State} {c : Char} {after : Option Char}
  {start stop i k : ℕ} {span : ℕ × ℕ}

/-- The code characters of a text that `after` follows, read from a given state, with their
positions when the text starts at `start`. -/
def codeThrough (start : ℕ) (s : State) (after : Option Char) : List Char → List (ℕ × Char)
  | [] => []
  | c :: cs =>
    (if s.isCode c (cs.head?.or after) then [(start, c)] else []) ++
      codeThrough (start + 1) (s.step c (cs.head?.or after)) after cs

lemma codeThrough_none (start : ℕ) (s : State) (text : List Char) :
    codeThrough start s none text = codeFrom start s text := by
  induction text generalizing start s with
  | nil => rfl
  | cons c cs ih =>
      rw [codeThrough, codeFrom, Option.or_none, ih]
      split_ifs <;> rfl

/-- One piece after another. -/
lemma codeThrough_append (start : ℕ) (s : State) (after : Option Char) (cs ds : List Char) :
    codeThrough start s after (cs ++ ds) =
      codeThrough start s (ds.head?.or after) cs ++
        codeThrough (start + cs.length) (s.through (ds.head?.or after) cs) after ds := by
  induction cs generalizing start s with
  | nil => rfl
  | cons c cs ih =>
      rw [List.cons_append, codeThrough, codeThrough, State.through, List.head?_append,
        Option.or_assoc, List.append_assoc, List.length_cons, ih, Nat.add_right_comm, Nat.add_assoc]

lemma codeFrom_append (start : ℕ) (s : State) (cs ds : List Char) :
    codeFrom start s (cs ++ ds) =
      codeThrough start s ds.head? cs ++
        codeFrom (start + cs.length) (s.through ds.head? cs) ds := by
  rw [← codeThrough_none, codeThrough_append, Option.or_none, codeThrough_none]

/-- A piece at another place. -/
lemma codeThrough_add (k start : ℕ) (s : State) (after : Option Char) (cs : List Char) :
    codeThrough (k + start) s after cs =
      (codeThrough start s after cs).map fun p => (k + p.1, p.2) := by
  induction cs generalizing start s with
  | nil => rfl
  | cons c cs ih =>
      rw [codeThrough, codeThrough, List.map_append, ← ih, Nat.add_assoc]
      split_ifs <;> rfl

lemma isCode_next (h : c ∉ ['/', '*', '$']) (next next' : Option Char) :
    s.isCode c next = s.isCode c next' := by
  have hopened (last : Option Char) : opened? last c next = opened? last c next' := by
    simp only [List.mem_cons, List.not_mem_nil, or_false, not_or] at h
    simp [opened?, h.1]
  simp only [State.isCode, hopened]

/-- A piece whose end does not look at what follows. -/
lemma codeThrough_blind (h : Blind cs) (start : ℕ) (s : State) (after : Option Char) :
    codeThrough start s after cs = codeFrom start s cs := by
  rw [← codeThrough_none]
  induction cs generalizing start s with
  | nil => rfl
  | cons c cs ih =>
      cases cs with
      | nil =>
          have hc := h c rfl
          simp only [codeThrough, List.append_nil]
          rw [isCode_next hc _ ([].head?.or none)]
      | cons d ds =>
          have htail : Blind (d :: ds) := fun e he => h e (by simpa using he)
          rw [codeThrough, ih htail, codeThrough.eq_def _ _ none (c :: d :: ds)]
          rfl

lemma le_of_mem_codeFrom {p : ℕ × Char} (h : p ∈ codeFrom start s text) : start ≤ p.1 :=
  (mem_codeFrom h).1

lemma mem_codeThrough {p : ℕ × Char} (h : p ∈ codeThrough start s after text) :
    start ≤ p.1 ∧ p.1 < start + text.length := by
  induction text generalizing start s with
  | nil => cases h
  | cons c cs ih =>
      rw [codeThrough, List.mem_append] at h
      rw [List.length_cons]
      rcases h with h | h
      · split_ifs at h
        · obtain rfl := List.mem_singleton.mp h
          simp
        · cases h
      · have := ih h
        omega

/-! ### Plain characters -/

lemma spelled_append (i : ℕ) (cs ds : List Char) :
    spelled i (cs ++ ds) = spelled i cs ++ spelled (i + cs.length) ds := by
  induction cs generalizing i with
  | nil => rfl
  | cons c cs ih =>
      rw [List.cons_append, spelled, ih, spelled, List.cons_append, List.length_cons, Nat.add_assoc,
        Nat.add_comm 1]

lemma map_snd_spelled (i : ℕ) (cs : List Char) : (spelled i cs).map Prod.snd = cs := by
  induction cs generalizing i with
  | nil => rfl
  | cons c cs ih => rw [spelled, List.map_cons, ih]

lemma snd_mem_of_mem_spelled {p : ℕ × Char} (h : p ∈ spelled i cs) : p.2 ∈ cs := by
  rw [← map_snd_spelled i cs]
  exact List.mem_map_of_mem h

/-- A character that opens no literal and no comment, whatever stands around it. -/
def isSign (c : Char) : Bool := c ∉ ['\'', '"', '`', '/']

lemma opened?_of_isSign (h : isSign c = true) (last next : Option Char) :
    opened? last c next = none := by
  simp only [isSign, List.mem_cons, List.not_mem_nil, or_false, not_or, decide_eq_true_eq] at h
  simp [opened?, h]

/-- **Characters that open nothing are code**, if they follow code outside every template. -/
lemma exists_codeFrom_signs (h : ∀ c ∈ cs, isSign c = true) (start : ℕ) (last : Option Char)
    (ds : List Char) : ∃ last', codeFrom start ⟨.code last, []⟩ (cs ++ ds) =
      spelled start cs ++ codeFrom (start + cs.length) ⟨.code last', []⟩ ds := by
  induction cs generalizing start last with
  | nil => exact ⟨last, rfl⟩
  | cons c cs ih =>
      obtain ⟨hc, hcs⟩ := List.forall_mem_cons.mp h
      have hopened := opened?_of_isSign hc last
      obtain ⟨last', hcode⟩ := ih hcs (start + 1) (lastAfter last c)
      refine ⟨last', ?_⟩
      have hstep (next : Option Char) : (⟨.code last, []⟩ : State).step c next =
          ⟨.code (lastAfter last c), []⟩ := by
        simp [State.step, Mode.readsCode?, hopened, afterCode]
      have hisCode (next : Option Char) : (⟨.code last, []⟩ : State).isCode c next = true := by
        simp [State.isCode, Mode.readsCode?, hopened]
      rw [List.cons_append, codeFrom, hisCode, hstep, if_pos rfl, hcode, spelled, List.cons_append,
        List.length_cons]
      congr 3
      omega

/-! ### A test for itself -/

lemma code_eq_append (hi : i ≤ text.length) :
    code text = codeThrough 0 {} text[i]? (text.take i) ++
      codeFrom i (stateAt text i) (text.drop i) := by
  conv_lhs => rw [code, ← List.take_append_drop i text]
  rw [codeFrom_append, List.head?_drop, List.length_take_of_le hi, Nat.zero_add, stateAt]

lemma codeFrom_call (hmem : (start, 'i') ∈ code text) (hcs : cs.head? = some 'i') (i : ℕ) :
    codeFrom i (stateAt text start) cs = codeFrom i {} cs := by
  obtain ⟨⟨last, hlast, -⟩, hdepths⟩ := mode_of_mem_code hmem
  obtain ⟨rest, rfl⟩ := List.head?_eq_some_iff.mp hcs
  simp only [codeFrom, step_letter hlast hdepths]

lemma blind_test (h : span ∈ spans text) : Blind (slice text span.1 span.2) := by
  intro c hc
  rcases getLast?_test h with hlast | hlast <;>
  · obtain rfl := Option.some.inj (hlast.symm.trans hc)
    decide

/-- **A test is read for itself as it is read in the script.** -/
lemma code_test (h : span ∈ spans text) :
    ∃ before after, code text = before ++
        ((code (slice text span.1 span.2)).map (fun p => (span.1 + p.1, p.2)) ++ after) ∧
      (∀ q ∈ before, q.1 < span.1) ∧ ∀ q ∈ after, span.2 ≤ q.1 := by
  obtain ⟨hlt, hle⟩ := (inOrder_spans text).bounds span h
  have hmem := (isTest_of_mem_spans h).1.mem_code
  have hcode := code_eq_append (by omega : span.1 ≤ text.length)
  rw [drop_eq_slice_append hlt.le, codeFrom_append, length_slice hle, Nat.add_sub_cancel' hlt.le,
    codeThrough_blind (blind_test h), codeFrom_call hmem (head?_of_mem_spans h)] at hcode
  have hown : codeFrom span.1 {} (slice text span.1 span.2) =
      (code (slice text span.1 span.2)).map fun p => (span.1 + p.1, p.2) := by
    rw [code, ← codeThrough_none 0, ← codeThrough_add, codeThrough_none, Nat.add_zero]
  rw [hown] at hcode
  refine ⟨_, _, hcode, fun q hq => ?_, fun q hq => le_of_mem_codeFrom hq⟩
  have hq := mem_codeThrough hq
  rw [List.length_take] at hq
  omega

/-- What counts as read before a position, where everything from some place on stands behind it. -/
lemma takeWhile_append_of_le {ps qs : List (ℕ × Char)} (h : ∀ q ∈ qs, i ≤ q.1) :
    (ps ++ qs).takeWhile (fun q => decide (q.1 < i)) =
      ps.takeWhile fun q => decide (q.1 < i) := by
  have hstop : qs.takeWhile (fun q => decide (q.1 < i)) = [] := by
    cases qs with
    | nil => rfl
    | cons q qs => exact List.takeWhile_cons_of_neg (by simpa using h q List.mem_cons_self)
  rw [List.takeWhile_append, hstop, List.append_nil]
  split_ifs with hlength
  · exact ((List.takeWhile_prefix _).eq_of_length hlength).symm
  · rfl

lemma levelOf_shift (k : ℕ) (ps : List (ℕ × Char)) :
    levelOf (ps.map fun p => (k + p.1, p.2)) = levelOf ps := by
  rw [levelOf, List.map_map]
  rfl

/-- **The brackets that are open in a test**, counted for itself. -/
lemma openBefore_test (h : span ∈ spans text) (hi : span.1 + i ≤ span.2) :
    openBefore (slice text span.1 span.2) i = openBefore text (span.1 + i) := by
  obtain ⟨before, after, hcode, hbefore, hafter⟩ := code_test h
  have hzero := (isTest_of_mem_spans h).1.openBefore_eq_zero
  set own := code (slice text span.1 span.2) with hown
  have hrest : ∀ q ∈ own.map (fun p => (span.1 + p.1, p.2)) ++ after, span.1 ≤ q.1 := by
    intro q hq
    rcases List.mem_append.mp hq with hq | hq
    · obtain ⟨q, -, rfl⟩ := List.mem_map.mp hq
      exact Nat.le_add_right _ _
    · have := hafter q hq
      omega
  have hstart : levelOf before = 0 := by rw [← hzero, openBefore_eq hcode hbefore hrest]
  have hlevel (ps : List (ℕ × Char)) : levelOf (before ++ ps) = levelOf ps := by
    rw [levelOf, List.map_append, levelAfter_append, ← levelOf, hstart, levelOf]
  have hfront : ∀ q ∈ before, decide (q.1 < span.1 + i) = true := fun q hq =>
    decide_eq_true (by have := hbefore q hq; omega)
  have hshift : (fun q : ℕ × Char => decide (q.1 < span.1 + i)) ∘
      (fun p : ℕ × Char => (span.1 + p.1, p.2)) = fun p => decide (p.1 < i) := by
    funext p
    simp
  calc openBefore (slice text span.1 span.2) i
      = levelOf ((own.takeWhile fun p => decide (p.1 < i)).map fun p => (span.1 + p.1, p.2)) :=
        (levelOf_shift _ _).symm
    _ = levelOf ((own.map fun p => (span.1 + p.1, p.2)).takeWhile
          fun q => decide (q.1 < span.1 + i)) := by rw [List.takeWhile_map, hshift]
    _ = openBefore text (span.1 + i) := by
        rw [openBefore, hcode, List.takeWhile_append_of_pos hfront, hlevel,
          takeWhile_append_of_le fun q hq => hi.trans (hafter q hq)]

/-- The parenthesis that ends a test, in the test for itself. -/
lemma exists_close_of_test (h : span ∈ spans text) :
    ∃ close, Closes (slice text span.1 span.2) 0 close ∧
      span.2 = testEnd text (span.1 + close) := by
  obtain ⟨before, after, hcode, hbefore, hafter⟩ := code_test h
  obtain ⟨-, close, hcloses, hstop⟩ := isTest_of_mem_spans h
  have hlt := hcloses.lt
  have hend := lt_testEnd text close
  obtain ⟨k, rfl⟩ : ∃ k, close = span.1 + k := ⟨close - span.1, by omega⟩
  refine ⟨k, ⟨by omega, ?_, ?_, ?_⟩, hstop⟩
  · have hmem := hcloses.mem_code
    rw [hcode] at hmem
    rcases List.mem_append.mp hmem with hmem | hmem
    · have := hbefore _ hmem
      simp only at this
      omega
    · rcases List.mem_append.mp hmem with hmem | hmem
      · obtain ⟨⟨j, c⟩, hq, heq⟩ := List.mem_map.mp hmem
        obtain ⟨hj, rfl⟩ := Prod.mk.inj heq
        simp only at hj
        obtain rfl : j = k := by omega
        exact hq
      · have := hafter _ hmem
        simp only at this
        omega
  · rw [openBefore_test h (by omega), ← Nat.add_assoc, hcloses.openBefore_eq_zero]
  · intro q hq hpos hqlt hclose
    have hmem : (span.1 + q.1, q.2) ∈ code text := by
      rw [hcode]
      exact List.mem_append_right _ (List.mem_append_left _ (List.mem_map_of_mem hq))
    rw [openBefore_test h (by omega), ← Nat.add_assoc]
    exact hcloses.first _ hmem (by simp only; omega) (by simp only; omega) hclose

end RequestSuite.Script
