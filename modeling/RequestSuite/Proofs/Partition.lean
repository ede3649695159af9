/-
A script as its tests and what stands around them.

* `outside`, `flatten_gaps`: the text outside some spans is what the pieces between them hold;
* `TestAt`, `testAt_of_isTest`: what a test looks like from its call to its end;
* `StatementAt`, `StatementAt.startsStatement`: the places at which a statement starts, and that the
  splitter takes one to start there;
* `exists_span_of_call`: no call that starts a statement outside all brackets, and ends, is passed
  over;
* `split_partitions`: tests and set-up make up the script.
-/
import RequestSuite.Proofs.GuardedTest
import RequestSuite.Proofs.StatementCopy

namespace RequestSuite.Script

open Text (isBlank ink)

variable {text : List Char} {s : Splitter} {p : ℕ × Char} {ps gap rest : List (ℕ × Char)}
  {cursor start stop close i : ℕ} {span : ℕ × ℕ} {tests : List (ℕ × ℕ)}

/-! ### The text outside some spans -/

/-- A position lies in none of some spans. -/
def isOutside (tests : List (ℕ × ℕ)) (i : ℕ) : Bool :=
  tests.all fun span => i < span.1 || span.2 ≤ i

/-- The characters of a text that stand in none of some spans. -/
def outside (text : List Char) (tests : List (ℕ × ℕ)) : List Char :=
  (text.zipIdx.filter fun p => isOutside tests p.2).map Prod.fst

/-- Spans one after another, none of them empty, up to the end of a text. -/
structure InOrder (text : List Char) (tests : List (ℕ × ℕ)) : Prop where
  bounds : ∀ span ∈ tests, span.1 < span.2 ∧ span.2 ≤ text.length
  ordered : tests.Pairwise fun earlier later => earlier.1 < later.1 ∧ earlier.2 ≤ later.1

lemma InOrder.tail (h : InOrder text (span :: tests)) : InOrder text tests :=
  ⟨fun span' hspan' => h.bounds span' (List.mem_cons_of_mem _ hspan'), h.ordered.of_cons⟩

lemma isOutside_cons (span : ℕ × ℕ) (tests : List (ℕ × ℕ)) (i : ℕ) :
    isOutside (span :: tests) i = ((i < span.1 || span.2 ≤ i) && isOutside tests i) := rfl

lemma isOutside_of_lt (h : ∀ span ∈ tests, i < span.1) : isOutside tests i = true := by
  refine List.all_eq_true.mpr fun span hspan => ?_
  simp [h span hspan]

lemma mem_zipIdx_slice {p : Char × ℕ} (h : p ∈ (slice text start stop).zipIdx start) :
    start ≤ p.2 ∧ p.2 < stop := by
  have hp := List.mem_zipIdx h
  have hlength : (slice text start stop).length ≤ stop - start := List.length_take_le _ _
  omega

lemma length_slice (h : stop ≤ text.length) : (slice text start stop).length = stop - start := by
  rw [slice, List.length_take, List.length_drop]
  omega

/-- The pieces between spans, from a position on. -/
lemma flatten_gaps_from (h : InOrder text tests) (hcursor : ∀ span ∈ tests, cursor ≤ span.1) :
    (gaps text cursor tests).flatten =
      (((text.drop cursor).zipIdx cursor).filter fun p => isOutside tests p.2).map Prod.fst := by
  induction tests generalizing cursor with
  | nil => simp [gaps, isOutside, List.zipIdx_map_fst]
  | cons span tests ih =>
      obtain ⟨hlt, hle⟩ := h.bounds span List.mem_cons_self
      have hfirst := hcursor span List.mem_cons_self
      have hlater := (List.pairwise_cons.mp h.ordered).1
      have hrest := ih h.tail fun later hmem => (hlater later hmem).2
      have hcut : text.drop cursor =
          slice text cursor span.1 ++ (slice text span.1 span.2 ++ text.drop span.2) := by
        rw [← drop_eq_slice_append hlt.le, ← drop_eq_slice_append hfirst]
      -- in front of the span everything is outside, in it nothing is
      have hfront : ∀ p ∈ (slice text cursor span.1).zipIdx cursor,
          isOutside (span :: tests) p.2 = true := by
        intro p hp
        have hp := mem_zipIdx_slice hp
        refine isOutside_of_lt fun later hmem => ?_
        rcases List.mem_cons.mp hmem with rfl | hmem
        · exact hp.2
        · exact hp.2.trans (hlater later hmem).1
      have hinside : ∀ p ∈ (slice text span.1 span.2).zipIdx span.1,
          ¬ isOutside (span :: tests) p.2 = true := by
        intro p hp
        have hp := mem_zipIdx_slice hp
        rw [isOutside_cons, Bool.and_eq_true, Bool.or_eq_true, decide_eq_true_eq, decide_eq_true_eq]
        omega
      have hback : ∀ p ∈ (text.drop span.2).zipIdx span.2,
          isOutside (span :: tests) p.2 = isOutside tests p.2 := by
        intro p hp
        have hp := List.mem_zipIdx hp
        rw [isOutside_cons, decide_eq_true (by omega : span.2 ≤ p.2), Bool.or_true, Bool.true_and]
      rw [gaps, List.flatten_cons, hrest, hcut, List.zipIdx_append, List.zipIdx_append,
        length_slice (by omega), length_slice hle, Nat.add_sub_cancel' hfirst,
        Nat.add_sub_cancel' hlt.le, List.filter_append, List.filter_append,
        List.filter_eq_self.mpr hfront, List.filter_eq_nil_iff.mpr hinside, List.filter_congr hback,
        List.nil_append, List.map_append, List.zipIdx_map_fst]

/-- **The pieces between spans** hold the text outside them. -/
lemma flatten_gaps (h : InOrder text tests) : (gaps text 0 tests).flatten = outside text tests := by
  rw [flatten_gaps_from h fun _ _ => Nat.zero_le _, List.drop_zero, outside]

/-! ### What a test looks like -/

/-- A test from `start` to `stop`: at a place of the code outside all brackets it begins with `it`,
white space and an opening parenthesis, and it reaches to the first closing parenthesis of the code
that leaves no bracket open, with the semicolon that follows. -/
structure TestAt (text : List Char) (start stop : ℕ) : Prop where
  mem_code : (start, 'i') ∈ code text
  openBefore_eq_zero : openBefore text start = 0
  call : ∃ gap arguments, (∀ c ∈ gap, isBlank c = true) ∧
    slice text start stop = "it".toList ++ gap ++ '(' :: arguments
  ending : ∃ close, Closes text start close ∧ (stop = close + 1 ∨
    ∃ blanks, (∀ c ∈ blanks, c = ' ' ∨ c = '\t') ∧ slice text (close + 1) stop = blanks ++ [';'])

lemma TestAt.lt (h : TestAt text start stop) : start < stop := by
  obtain ⟨gap, arguments, -, hslice⟩ := h.call
  by_contra hle
  rw [slice, Nat.sub_eq_zero_of_le (by omega), List.take_zero] at hslice
  exact List.cons_ne_nil _ _ hslice.symm

lemma length_callName (gap : List Char) : ("it".toList ++ gap).length = gap.length + 2 := by
  rw [List.length_append]
  exact Nat.add_comm _ _

/-- The text where a call of `it` starts. -/
lemma exists_call_of_opensTest (h : opensTest text i = true) :
    ∃ gap rest, (∀ c ∈ gap, isBlank c = true) ∧
      text.drop i = "it".toList ++ gap ++ '(' :: rest := by
  rw [opensTest, Bool.and_eq_true] at h
  have hbegins := h.1
  generalize text.drop i = cs at hbegins ⊢
  unfold beginsTest at hbegins
  split at hbegins
  · next cs =>
    obtain ⟨rest, hrest⟩ := List.head?_eq_some_iff.mp (beq_iff_eq.mp hbegins)
    refine ⟨cs.takeWhile isBlank, rest, List.all_eq_true.mp List.all_takeWhile, ?_⟩
    rw [← hrest, List.append_assoc, List.takeWhile_append_dropWhile]
    rfl
  · simp at hbegins

/-- What stands between the parenthesis that ends a test and the end of the test. -/
lemma slice_testEnd (text : List Char) (close : ℕ) :
    testEnd text close = close + 1 ∨ ∃ blanks, (∀ c ∈ blanks, c = ' ' ∨ c = '\t') ∧
      slice text (close + 1) (testEnd text close) = blanks ++ [';'] := by
  rw [testEnd]
  generalize hafter : text.drop (close + 1) = after
  set blanks := after.takeWhile fun c => c == ' ' || c == '\t' with hblanks
  split_ifs with hsemi
  · refine Or.inr ⟨blanks, fun c hc => ?_, ?_⟩
    · simpa using List.all_eq_true.mp List.all_takeWhile c hc
    · have hfront : after.take blanks.length = blanks :=
        (List.prefix_iff_eq_take.mp (List.takeWhile_prefix _)).symm
      have hnext : (after.drop blanks.length).take 1 = [';'] := by
        rw [List.take_one, hsemi]
        rfl
      rw [slice, hafter, show close + blanks.length + 2 - (close + 1) = blanks.length + 1 by omega,
        List.take_add, hfront, hnext]
  · exact Or.inl rfl

/-- A test ends in the text. -/
lemma testEnd_le (h : (close, ')') ∈ code text) : testEnd text close ≤ text.length := by
  have hclose := (List.getElem?_eq_some_iff.mp (getElem?_of_mem_code h)).1
  rw [testEnd]
  split_ifs with hsemi
  · rw [List.head?_drop, List.getElem?_drop] at hsemi
    have := (List.getElem?_eq_some_iff.mp hsemi).1
    omega
  · exact hclose

/-- The parenthesis that opens a call stands in front of the one that ends it. -/
lemma Closes.length_lt {gap arguments : List Char} (h : Closes text start close)
    (hgap : ∀ c ∈ gap, isBlank c = true)
    (hdrop : text.drop start = "it".toList ++ gap ++ '(' :: arguments) :
    start + gap.length + 2 < close := by
  have hclose := getElem?_of_mem_code h.mem_code
  have hlt := h.lt
  obtain ⟨k, rfl⟩ : ∃ k, close = start + k := ⟨close - start, by omega⟩
  rw [← List.getElem?_drop, hdrop] at hclose
  -- up to the opening parenthesis there is no closing one
  by_contra hle
  have hmem : ')' ∈ "it".toList ++ gap ++ ['('] := by
    have hlength : k < ("it".toList ++ gap ++ ['(']).length := by
      rw [List.length_append, List.length_append]
      have : "it".toList.length = 2 := rfl
      simp only [List.length_singleton]
      omega
    rw [List.append_cons, List.getElem?_append_left hlength] at hclose
    exact List.mem_of_getElem? hclose
  rcases List.mem_append.mp hmem with hmem | hmem
  · rcases List.mem_append.mp hmem with hmem | hmem
    · exact absurd hmem (by decide)
    · have hblank : isBlank ')' = true := hgap _ hmem
      exact absurd hblank (by decide)
  · exact absurd hmem (by decide)

/-- **Every span is such a test.** -/
lemma testAt_of_isTest (h : IsTest text span) : TestAt text span.1 span.2 := by
  obtain ⟨hopens, close, hcloses, hstop⟩ := h
  obtain ⟨gap, arguments, hgap, hdrop⟩ := exists_call_of_opensTest hopens.opensTest
  have hopening := hcloses.length_lt hgap hdrop
  have hend := lt_testEnd text close
  refine ⟨hopens.mem_code, hopens.openBefore_eq_zero, ?_, close, hcloses, ?_⟩
  · refine ⟨gap, arguments.take (span.2 - span.1 - (gap.length + 3)), hgap, ?_⟩
    have hlength := length_callName gap
    obtain ⟨k, hk⟩ : ∃ k, span.2 - span.1 = ("it".toList ++ gap).length + (k + 1) :=
      ⟨span.2 - span.1 - (gap.length + 3), by omega⟩
    rw [slice, hdrop, hk, List.take_length_add_append, List.take_succ_cons]
    congr 3
    omega
  · rw [hstop]
    exact slice_testEnd text close

/-! ### Calls that start a statement -/

/-- A statement starts at a position of the code: white space apart, the code in front of it is
empty, or ends with a semicolon or a brace, or ends a line that does not go on. -/
def StatementAt (text : List Char) (i : ℕ) : Prop :=
  ∃ front gap c rest, code text = front ++ gap ++ (i, c) :: rest ∧
    (∀ p, front.getLast? = some p → isBlank p.2 = false) ∧ (∀ q ∈ gap, isBlank q.2 = true) ∧
    startsStatement (front.getLast?.map Prod.snd) ((gap.map Prod.snd).contains '\n') = true

/-- After a line feed a statement starts where it starts without one. -/
lemma startsStatement_mono {last : Option Char} {ended ended' : Bool}
    (h : startsStatement last ended = true) (hle : ended = true → ended' = true) :
    startsStatement last ended' = true := by
  cases last with
  | none => rfl
  | some c =>
      simp only [startsStatement, Bool.or_eq_true, Bool.and_eq_true] at h ⊢
      exact h.imp_right fun h => ⟨hle h.1, h.2⟩

namespace Splitter

/-- While the end of a test is passed over, a semicolon counts as the last character. -/
lemma last_of_lt_resume (hcode : code text = ps ++ rest) {q : ℕ × Char} (hq : q ∈ rest)
    (h : q.1 < (ps.foldl (Splitter.read text) {}).resume) :
    (ps.foldl (Splitter.read text) {}).last = some ';' := by
  induction ps using List.reverseRecOn generalizing rest with
  | nil => exact absurd h (Nat.not_lt_zero _)
  | append_singleton ps p ih =>
      rw [List.append_assoc, List.singleton_append] at hcode
      have hlater := (position_of_code hcode).2 q hq
      have ih := ih hcode (List.mem_cons_of_mem _ hq)
      rw [List.foldl_concat] at h ⊢
      generalize ps.foldl (Splitter.read text) {} = s at ih h ⊢
      have hreads := Splitter.reads text s p
      generalize s.read text p = s' at hreads h ⊢
      cases hreads with
      | skipped _ => exact ih h
      | lineFeed hr _ => exact absurd h (by simp only; omega)
      | ends _ _ _ _ _ => rfl
      | passes hr _ _ => exact absurd h (by simp only [pass_resume, look_resume]; omega)

/-- After a character that is not white space it is the last one, or a test has ended. -/
lemma last_concat (hcode : code text = ps ++ p :: rest) (hp : isBlank p.2 = false) :
    ((ps ++ [p]).foldl (Splitter.read text) {}).last = some ';' ∨
      ((ps ++ [p]).foldl (Splitter.read text) {}).last = some p.2 := by
  have hskip := @last_of_lt_resume text ps _ hcode p List.mem_cons_self
  rw [List.foldl_concat]
  generalize ps.foldl (Splitter.read text) {} = s at hskip ⊢
  have hreads := Splitter.reads text s p
  generalize s.read text p = s' at hreads ⊢
  cases hreads with
  | skipped hr => exact Or.inl (hskip hr)
  | lineFeed _ hn =>
      rw [hn] at hp
      exact absurd hp (by decide)
  | ends _ _ _ _ _ => exact Or.inl rfl
  | passes _ _ _ => exact Or.inr (by simp [pass, hp])

/-- White space does not change the last character, and its line feeds are noted. -/
lemma last_blanks (hcode : code text = ps ++ (gap ++ rest))
    (hgap : ∀ q ∈ gap, isBlank q.2 = true) :
    let before := ps.foldl (Splitter.read text) {}
    let after := (ps ++ gap).foldl (Splitter.read text) {}
    after.last = before.last ∧
      ((gap.map Prod.snd).contains '\n' = true → after.lineEnded = true) := by
  induction gap using List.reverseRecOn generalizing rest with
  | nil => simp
  | append_singleton gap q ih =>
      rw [List.append_assoc, List.singleton_append] at hcode
      obtain ⟨hlast, hended⟩ := ih hcode fun q hq => hgap q (List.mem_append_left _ hq)
      have hblank : isBlank q.2 = true := hgap q (by simp)
      rw [← List.append_assoc] at hcode ⊢
      have hprogress := progress_foldl hcode
      simp only [List.foldl_concat] at hlast hended ⊢
      generalize (ps ++ gap).foldl (Splitter.read text) {} = s at hlast hended hprogress ⊢
      have hreads := Splitter.reads text s q
      generalize s.read text q = s' at hreads ⊢
      rw [List.map_append, List.map_singleton, List.contains_append, Bool.or_eq_true]
      cases hreads with
      | skipped hr =>
          refine ⟨hlast, fun h => hended (h.resolve_right fun hq => ?_)⟩
          -- no line feed goes with the end of a test
          have hq : '\n' = q.2 := by simpa using hq
          have := hprogress.resume_le hcode (by rw [← hq]; decide)
          omega
      | lineFeed _ _ => exact ⟨hlast, fun _ => rfl⟩
      | ends _ _ hc _ _ =>
          rw [hc] at hblank
          exact absurd hblank (by decide)
      | passes _ hn _ =>
          have hpass (t : Splitter) : t.pass q.2 = t := by simp [pass, hblank]
          rw [hpass]
          simp only [look_last, look_lineEnded]
          refine ⟨hlast, fun h => hended (h.resolve_right fun hq => hn ?_)⟩
          simpa using Eq.symm (by simpa using hq)

end Splitter

/-- **Where a statement starts, the splitter takes one to start.** -/
lemma StatementAt.startsStatement (h : StatementAt text i) :
    ∃ ps c rest, code text = ps ++ (i, c) :: rest ∧
      Script.startsStatement (ps.foldl (Splitter.read text) {}).last
        (ps.foldl (Splitter.read text) {}).lineEnded = true := by
  obtain ⟨front, gap, c, rest, hcode, hfront, hgap, hstarts⟩ := h
  refine ⟨front ++ gap, c, rest, hcode, ?_⟩
  rw [List.append_assoc] at hcode
  obtain ⟨hlast, hended⟩ := Splitter.last_blanks hcode hgap
  rw [hlast]
  rcases List.eq_nil_or_concat front with rfl | ⟨init, p, rfl⟩
  · rfl
  · rw [List.concat_eq_append] at hcode hfront hstarts hlast hended ⊢
    rw [List.getLast?_concat] at hfront hstarts
    rw [List.append_assoc] at hcode
    rcases Splitter.last_concat hcode (hfront p rfl) with hp | hp <;> rw [hp]
    · rfl
    · exact startsStatement_mono hstarts hended

/-- **A call that starts a statement outside all brackets, and ends, lies in a test.** -/
lemma exists_span_of_call (hopens : Opens text start) (hstatement : StatementAt text start)
    (hcloses : Closes text start close) : ∃ span ∈ spans text, span.1 ≤ start ∧ start < span.2 := by
  obtain ⟨ps, c, rest, hcode, hstarts⟩ := hstatement.startsStatement
  obtain rfl : 'i' = c := by
    have hget : text[start]? = some c := getElem?_of_mem_code (by rw [hcode]; simp : (start, c) ∈ _)
    rw [getElem?_of_mem_code hopens.mem_code] at hget
    exact Option.some.inj hget
  have hletter : 'i' ≠ '\n' ∧ 'i' ≠ ')' := by decide
  have hprogress := Splitter.progress_foldl hcode
  have hresume := hprogress.resume_le hcode (by decide : 'i' ≠ ' ' ∧ 'i' ≠ '\t' ∧ 'i' ≠ ';')
  have hrun : Splitter.run text = ((start, 'i') :: rest).foldl (Splitter.read text)
      (ps.foldl (Splitter.read text) {}) := by rw [Splitter.run, hcode, List.foldl_append]
  generalize ps.foldl (Splitter.read text) {} = s at hprogress hresume hstarts hrun
  cases hs : s.start with
  | none =>
      have hdepth : s.depth = 0 := by
        rw [hprogress.depth_eq, ← openBefore_of_code hcode, hopens.openBefore_eq_zero]
      have hread : (s.read text (start, 'i')).start = some start := by
        rw [Splitter.read_eq_pass hresume hletter.1 hletter.2, Splitter.pass_start]
        simp only [Splitter.look_start]
        rw [if_pos ⟨hs, hopens.opensTest, hdepth, hstarts⟩]
      rw [List.foldl_cons] at hrun
      obtain ⟨stop, hspan⟩ := Splitter.exists_span_of_start hrun hread hcloses.mem_code hcloses.lt
        hcloses.openBefore_eq_zero
      exact ⟨_, hspan, le_rfl, (testAt_of_isTest (isTest_of_mem_spans hspan)).lt⟩
  | some first =>
      have hlt := hprogress.started first hs _ hopens.mem_code (position_of_code hcode).1
      obtain ⟨stop, hspan⟩ := Splitter.exists_span_of_start hrun hs hcloses.mem_code
        (hlt.trans hcloses.lt) hcloses.openBefore_eq_zero
      obtain ⟨-, close', hcloses', hstop⟩ := isTest_of_mem_spans hspan
      refine ⟨_, hspan, hlt.le, ?_⟩
      -- the test that is being read does not end in front of the call
      have hle : start ≤ close' := by
        by_contra hlt'
        have hmem : (close', ')') ∈ ps :=
          (mem_before_iff hcode).mpr ⟨hcloses'.mem_code, not_le.mp hlt'⟩
        exact hprogress.unclosed first hs _ hmem hcloses'.lt rfl hcloses'.openBefore_eq_zero
      have := lt_testEnd text close'
      simp only at hstop ⊢
      omega

/-! ### Tests and set-up -/

/-- A script taken apart at some spans. -/
structure TakenApartAt (text : List Char) (tests : List (ℕ × ℕ)) (parts : Parts) : Prop where
  inOrder : InOrder text tests
  tests_eq : parts.tests = tests.map fun span => slice text span.1 span.2
  testAt : ∀ span ∈ tests, TestAt text span.1 span.2
  /-- No call that starts a statement outside all brackets, and ends, is left in the set-up. -/
  complete : ∀ start close, Opens text start → StatementAt text start → Closes text start close →
    ∃ span ∈ tests, span.1 ≤ start ∧ start < span.2
  /-- White space apart, the set-up is the text outside the tests. -/
  ink_setup : ink parts.setup = ink (outside text tests)

lemma inOrder_spans (text : List Char) : InOrder text (spans text) := by
  have hbounds : ∀ span ∈ spans text, span.1 < span.2 ∧ span.2 ≤ text.length := by
    intro span hspan
    obtain ⟨-, close, hcloses, hstop⟩ := isTest_of_mem_spans hspan
    have := hcloses.lt
    have := lt_testEnd text close
    have := testEnd_le hcloses.mem_code
    omega
  refine ⟨hbounds, (pairwise_spans text).imp_of_mem fun hearlier _ hle => ⟨?_, hle⟩⟩
  have := (hbounds _ hearlier).1
  omega

/-- **Tests and set-up make up the script.** The tests are the calls of `it` that start a statement
outside all brackets, each up to the parenthesis that ends it, one after another in the script; and
nothing but white space is lost, repeated or moved between them and the set-up. -/
theorem split_partitions (text : List Char) : TakenApartAt text (spans text) (split text) where
  inOrder := inOrder_spans text
  tests_eq := rfl
  testAt _ hspan := testAt_of_isTest (isTest_of_mem_spans hspan)
  complete _ _ hopens hstatement hcloses := exists_span_of_call hopens hstatement hcloses
  ink_setup := by
    rw [ink_setup, ← flatten_gaps (inOrder_spans text), ink, List.filter_flatten]
    rfl

end RequestSuite.Script
