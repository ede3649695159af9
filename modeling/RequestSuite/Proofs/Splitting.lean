/-
Where the tests of a script stand.

* `levelOf`, `openBefore`: the brackets that are open at a place, counted over the code;
* `Splitter.Reads`, `Splitter.reads`: everything that reading one character can do;
* `IsTest`: a test from its start to its end;
* `Splitter.Progress`, `progress_foldl`: what is known after some of the code, one character at a
  time and then for all of it;
* `isTest_of_mem_spans`, `pairwise_spans`: every span is a test, and they do not overlap.
-/
import RequestSuite.Proofs.Brackets
import RequestSuite.Script.Split

namespace RequestSuite.Script

open Text (isBlank)

variable {text : List Char} {s : Splitter} {p : ℕ × Char} {ps rest : List (ℕ × Char)}

/-! ### Places in the code -/

/-- The brackets that are open after some of the code. -/
def levelOf (ps : List (ℕ × Char)) : ℕ := levelAfter 0 (ps.map Prod.snd)

/-- The brackets of the code that are open before a position. -/
def openBefore (text : List Char) (i : ℕ) : ℕ :=
  levelOf ((code text).takeWhile fun p => decide (p.1 < i))

lemma levelOf_concat (ps : List (ℕ × Char)) (p : ℕ × Char) :
    levelOf (ps ++ [p]) = level (levelOf ps) p.2 := by
  rw [levelOf, List.map_append, levelAfter_append]
  rfl

/-- The code that stands before a position decides what is open there. -/
lemma openBefore_eq {i : ℕ} (h : code text = ps ++ rest) (hps : ∀ q ∈ ps, q.1 < i)
    (hrest : ∀ q ∈ rest, i ≤ q.1) : openBefore text i = levelOf ps := by
  rw [openBefore, h, List.takeWhile_append_of_pos (by simpa using hps)]
  cases rest with
  | nil => rw [List.takeWhile_nil, List.append_nil]
  | cons q rest =>
      have hq := hrest q List.mem_cons_self
      rw [List.takeWhile_cons_of_neg (by simpa using hq), List.append_nil]

lemma pairwise_code (text : List Char) : (code text).Pairwise fun p q => p.1 < q.1 :=
  pairwise_codeFrom 0 {} text

lemma position_of_code (h : code text = ps ++ p :: rest) :
    (∀ q ∈ ps, q.1 < p.1) ∧ ∀ q ∈ rest, p.1 < q.1 := by
  have hpairwise := h ▸ pairwise_code text
  obtain ⟨-, hp, hcross⟩ := List.pairwise_append.mp hpairwise
  exact ⟨fun q hq => hcross q hq p List.mem_cons_self, (List.pairwise_cons.mp hp).1⟩

/-- What stands before a character of code is the code before its position. -/
lemma mem_before_iff (h : code text = ps ++ p :: rest) {q : ℕ × Char} :
    q ∈ ps ↔ q ∈ code text ∧ q.1 < p.1 := by
  obtain ⟨hbefore, hafter⟩ := position_of_code h
  constructor
  · intro hq
    exact ⟨by rw [h]; exact List.mem_append_left _ hq, hbefore q hq⟩
  · rintro ⟨hq, hlt⟩
    rw [h] at hq
    rcases List.mem_append.mp hq with hq | hq
    · exact hq
    · rcases List.mem_cons.mp hq with rfl | hq
      · exact absurd hlt (lt_irrefl _)
      · exact absurd (hafter q hq) hlt.not_gt

lemma getElem?_of_mem_code (h : p ∈ code text) : text[p.1]? = some p.2 := by
  simpa using (mem_codeFrom h).2.2

lemma openBefore_of_code (h : code text = ps ++ p :: rest) : openBefore text p.1 = levelOf ps := by
  obtain ⟨hbefore, hafter⟩ := position_of_code h
  refine openBefore_eq h hbefore fun q hq => ?_
  rcases List.mem_cons.mp hq with rfl | hq
  · exact le_rfl
  · exact (hafter q hq).le

lemma openBefore_succ_of_code (h : code text = ps ++ p :: rest) :
    openBefore text (p.1 + 1) = level (levelOf ps) p.2 := by
  obtain ⟨hbefore, hafter⟩ := position_of_code h
  rw [← levelOf_concat]
  refine openBefore_eq (by rw [h, List.append_assoc]; rfl) (fun q hq => ?_) hafter
  rcases List.mem_append.mp hq with hq | hq
  · have := hbefore q hq
    omega
  · obtain rfl := List.mem_singleton.mp hq
    omega

/-- Where a call of `it` starts, the text has its first letter. -/
lemma getElem?_of_opensTest {i : ℕ} (h : opensTest text i = true) : text[i]? = some 'i' := by
  rw [opensTest, Bool.and_eq_true] at h
  have hbegin := h.1
  rw [← Nat.add_zero i, ← List.getElem?_drop]
  revert hbegin
  generalize text.drop i = cs
  unfold beginsTest
  split
  · simp
  · simp

/-- Between the end of a test and the place from which it is read on, there are only spaces, tabs
and a semicolon. -/
lemma eq_of_lt_testEnd {close i : ℕ} {c : Char} (hl : close < i) (hr : i < testEnd text close)
    (hc : text[i]? = some c) : c = ' ' ∨ c = '\t' ∨ c = ';' := by
  obtain ⟨k, rfl⟩ : ∃ k, i = close + 1 + k := ⟨i - (close + 1), by omega⟩
  rw [← List.getElem?_drop] at hc
  rw [testEnd] at hr
  generalize hafter : text.drop (close + 1) = after at hc hr
  set blanks := after.takeWhile fun c => c == ' ' || c == '\t' with hblanks
  rcases Nat.lt_or_ge k blanks.length with hk | hk
  · have hmem : c ∈ blanks := by
      have hfront : blanks[k]? = after[k]? := by
        obtain ⟨t, ht⟩ := List.takeWhile_prefix (l := after) fun c => c == ' ' || c == '\t'
        rw [← ht, List.getElem?_append_left hk]
      exact List.mem_of_getElem? (hfront.trans hc)
    have hall := List.all_eq_true.mp (List.all_takeWhile (l := after)) c hmem
    simp only [Bool.or_eq_true, beq_iff_eq] at hall
    tauto
  · split_ifs at hr with hsemi
    · obtain rfl : k = blanks.length := by omega
      rw [List.head?_drop, hc, Option.some.injEq] at hsemi
      exact Or.inr (Or.inr hsemi)
    · omega

lemma lt_testEnd (text : List Char) (close : ℕ) : close < testEnd text close := by
  rw [testEnd]
  split_ifs <;> omega

/-! ### Reading one character -/

namespace Splitter

@[simp] lemma look_depth (i : ℕ) : (s.look text i).depth = s.depth := by
  unfold look
  split_ifs <;> rfl

@[simp] lemma look_resume (i : ℕ) : (s.look text i).resume = s.resume := by
  unfold look
  split_ifs <;> rfl

@[simp] lemma look_found (i : ℕ) : (s.look text i).found = s.found := by
  unfold look
  split_ifs <;> rfl

@[simp] lemma look_last (i : ℕ) : (s.look text i).last = s.last := by
  unfold look
  split_ifs <;> rfl

@[simp] lemma look_lineEnded (i : ℕ) : (s.look text i).lineEnded = s.lineEnded := by
  unfold look
  split_ifs <;> rfl

/-- A test starts where none is being read and no bracket is open, at the start of a statement. -/
lemma look_start (i : ℕ) :
    (s.look text i).start =
      if s.start = none ∧ opensTest text i = true ∧ s.depth = 0 ∧
        startsStatement s.last s.lineEnded = true then some i else s.start := by
  unfold look
  cases hs : s.start with
  | none =>
      by_cases ho : opensTest text i = true
      · by_cases hd : s.depth = 0
        · by_cases hb : startsStatement s.last s.lineEnded = true <;> simp [ho, hd, hb, hs]
        · simp [ho, hd, Nat.pos_of_ne_zero hd]
      · simp [ho, hs]
  | some a => simp [hs]

/-- A test inside brackets is noted. -/
lemma look_nested (i : ℕ) :
    (s.look text i).nested =
      (s.nested || (s.start.isNone && opensTest text i && decide (0 < s.depth))) := by
  unfold look
  by_cases hn : (s.start.isNone && opensTest text i) = true
  · by_cases hd : 0 < s.depth
    · simp [hn, hd]
    · rw [if_pos hn, if_neg hd]
      split_ifs <;> simp [hd]
  · rw [if_neg hn]
    simp [hn]

@[simp] lemma pass_depth (c : Char) : (s.pass c).depth = s.depth := by
  unfold pass
  split_ifs <;> rfl

@[simp] lemma pass_start (c : Char) : (s.pass c).start = s.start := by
  unfold pass
  split_ifs <;> rfl

@[simp] lemma pass_nested (c : Char) : (s.pass c).nested = s.nested := by
  unfold pass
  split_ifs <;> rfl

@[simp] lemma pass_resume (c : Char) : (s.pass c).resume = s.resume := by
  unfold pass
  split_ifs <;> rfl

@[simp] lemma pass_found (c : Char) : (s.pass c).found = s.found := by
  unfold pass
  split_ifs <;> rfl

/-- Everything that reading a character can do. -/
inductive Reads (text : List Char) (s : Splitter) (p : ℕ × Char) : Splitter → Prop
  /-- The character belongs to the end of the last test. -/
  | skipped (hr : p.1 < s.resume) : Reads text s p s
  | lineFeed (hr : s.resume ≤ p.1) (hc : p.2 = '\n') : Reads text s p { s with lineEnded := true }
  /-- The character ends the test that is being read. -/
  | ends (start : ℕ) (hr : s.resume ≤ p.1) (hc : p.2 = ')') (hd : level s.depth p.2 = 0)
      (hs : (s.look text p.1).start = some start) :
      Reads text s p
        { s.look text p.1 with
          depth := 0, start := none, resume := testEnd text p.1
          found := (start, testEnd text p.1) :: s.found, last := some ';', lineEnded := false }
  | passes (hr : s.resume ≤ p.1) (hn : p.2 ≠ '\n')
      (he : p.2 = ')' → level s.depth p.2 = 0 → (s.look text p.1).start = none) :
      Reads text s p (pass { s.look text p.1 with depth := level s.depth p.2 } p.2)

/-- **Reading a character does one of these.** -/
lemma reads (text : List Char) (s : Splitter) (p : ℕ × Char) : Reads text s p (s.read text p) := by
  unfold read
  split_ifs with hr hn ho hc
  · exact .skipped hr
  · exact .lineFeed (not_lt.mp hr) hn
  · have hstep := @Reads.passes text s p (not_lt.mp hr) hn fun hp => by
      rw [hp] at ho
      exact absurd ho (by decide)
    rw [level_opener ho] at hstep
    simpa using hstep
  · simp only [close, look_depth]
    split
    · next start hs =>
      split_ifs with he
      · simp only [Bool.and_eq_true, decide_eq_true_eq] at he
        have hstep := @Reads.ends text s p start (not_lt.mp hr) he.2
          (by rw [level_closer hc]; exact he.1) (by simpa using hs)
        simpa [he.1] using hstep
      · have hstep := @Reads.passes text s p (not_lt.mp hr) hn
          fun hp hd => absurd (by rw [level_closer hc] at hd; simp [hd, hp]) he
        rw [level_closer hc] at hstep
        exact hstep
    · next hs =>
      have hstep := @Reads.passes text s p (not_lt.mp hr) hn
        fun _ _ => by simpa using hs
      rw [level_closer hc] at hstep
      exact hstep
  · have hstep := @Reads.passes text s p (not_lt.mp hr) hn fun hp => by
      rw [hp] at hc
      exact absurd rfl hc
    rw [level_plain (by simpa using ho) (by simpa using hc), ← @look_depth text s p.1] at hstep
    exact hstep

end Splitter

/-! ### Reading all code -/

/-- A call of `it` starts at a position of the code at which no bracket is open. -/
structure Opens (text : List Char) (start : ℕ) : Prop where
  mem_code : (start, 'i') ∈ code text
  opensTest : opensTest text start = true
  openBefore_eq_zero : openBefore text start = 0

/-- A parenthesis that ends the test that starts at `start`: it is the first one after that to leave
no bracket open. -/
structure Closes (text : List Char) (start close : ℕ) : Prop where
  lt : start < close
  mem_code : (close, ')') ∈ code text
  openBefore_eq_zero : openBefore text (close + 1) = 0
  first : ∀ q ∈ code text, start < q.1 → q.1 < close → q.2 = ')' → openBefore text (q.1 + 1) ≠ 0

/-- **A test**: from a call of `it` outside all brackets to the parenthesis that ends it, with the
semicolon that follows. -/
def IsTest (text : List Char) (span : ℕ × ℕ) : Prop :=
  Opens text span.1 ∧ ∃ close, Closes text span.1 close ∧ span.2 = testEnd text close

namespace Splitter

/-- What is known of a splitter that has read some of the code. -/
structure Progress (text : List Char) (ps : List (ℕ × Char)) (s : Splitter) : Prop where
  depth_eq : s.depth = levelOf ps
  /-- What is still to be passed over are spaces, tabs and semicolons. -/
  plain : ∀ q ∈ code text, (∀ p ∈ ps, p.1 < q.1) → q.1 < s.resume →
    q.2 = ' ' ∨ q.2 = '\t' ∨ q.2 = ';'
  opens : ∀ start, s.start = some start → Opens text start ∧ s.resume ≤ start
  /-- The test that is being read has not ended. -/
  unclosed : ∀ start, s.start = some start →
    ∀ q ∈ ps, start < q.1 → q.2 = ')' → openBefore text (q.1 + 1) ≠ 0
  started : ∀ start, s.start = some start → ∀ q ∈ code text, (∀ p ∈ ps, p.1 < q.1) → start < q.1
  isTest : ∀ span ∈ s.found, IsTest text span
  le_resume : ∀ span ∈ s.found, span.2 ≤ s.resume
  apart : s.found.Pairwise fun later earlier => earlier.2 ≤ later.1

/-- Nothing is known at the start. -/
lemma progress_nil (text : List Char) : Progress text [] {} where
  depth_eq := rfl
  plain q _ _ hq := absurd hq (Nat.not_lt_zero _)
  opens _ h := by simp at h
  unclosed _ h := by simp at h
  started _ h := by simp at h
  isTest _ h := by simp at h
  le_resume _ h := by simp at h
  apart := List.Pairwise.nil

namespace Progress

variable {start : ℕ} (h : Progress text ps s)
include h

/-- A character that is no bracket leaves everything as it is, whether a line has ended apart. -/
lemma waits (hp : isOpener p.2 = false ∧ isCloser p.2 = false) (ended : Bool) :
    Progress text (ps ++ [p]) { s with lineEnded := ended } where
  depth_eq := by rw [levelOf_concat, level_plain hp.1 hp.2, ← h.depth_eq]
  plain q hq hlater := h.plain q hq (List.forall_mem_append.mp hlater).1
  opens := h.opens
  unclosed start hs q hq hlt hc := by
    rcases List.mem_append.mp hq with hq | hq
    · exact h.unclosed start hs q hq hlt hc
    · obtain rfl := List.mem_singleton.mp hq
      rw [hc] at hp
      exact absurd hp.2 (by decide)
  started start hs q hq hlater := h.started start hs q hq (List.forall_mem_append.mp hlater).1
  isTest := h.isTest
  le_resume := h.le_resume
  apart := h.apart

variable (hcode : code text = ps ++ p :: rest)
include hcode

/-- The test that is being read after looking for one. -/
lemma look (hs : (s.look text p.1).start = some start) :
    s.start = some start ∨ start = p.1 ∧ p.2 = 'i' ∧ Opens text start := by
  rw [look_start] at hs
  split_ifs at hs with hl
  · obtain ⟨-, ho, hd, -⟩ := hl
    obtain rfl := Option.some.inj hs
    have hmem : p ∈ code text := by rw [hcode]; simp
    have hp : p.2 = 'i' := by
      have hget := getElem?_of_mem_code hmem
      rw [getElem?_of_opensTest ho, Option.some.injEq] at hget
      exact hget.symm
    refine Or.inr ⟨rfl, hp, ?_, ho, ?_⟩
    · rw [← hp]
      exact hmem
    · rw [openBefore_of_code hcode, ← h.depth_eq, hd]
  · exact Or.inl hs

lemma closes (hs : s.start = some start) (hc : p.2 = ')') (hd : level s.depth p.2 = 0) :
    Closes text start p.1 := by
  have hmem : p ∈ code text := by rw [hcode]; simp
  refine ⟨h.started start hs p hmem (position_of_code hcode).1, hc ▸ hmem, ?_, ?_⟩
  · rw [openBefore_succ_of_code hcode, ← h.depth_eq, hd]
  · intro q hq hlt hlt' hp
    exact h.unclosed start hs q ((mem_before_iff hcode).mpr ⟨hq, hlt'⟩) hlt hp

/-- What is known after a test has ended. -/
lemma ends (hs : s.start = some start) (hc : p.2 = ')') (hd : level s.depth p.2 = 0)
    {s' : Splitter} (hdepth : s'.depth = 0) (hstart : s'.start = none)
    (hresume : s'.resume = testEnd text p.1) (hfound : s'.found = (start, s'.resume) :: s.found) :
    Progress text (ps ++ [p]) s' := by
  obtain ⟨hopens, hle⟩ := h.opens start hs
  have hcloses := h.closes hcode hs hc hd
  have hend := lt_testEnd text p.1
  have hlt := hcloses.lt
  rw [hresume] at hfound
  refine ⟨?_, fun q hq hlater hr => ?_, by simp [hstart], by simp [hstart], by simp [hstart], ?_,
    ?_, ?_⟩
  · rw [hdepth, levelOf_concat, ← h.depth_eq, hd]
  · rw [hresume] at hr
    have hlast : p.1 < q.1 := hlater p (List.mem_append_right _ (List.mem_singleton_self p))
    exact eq_of_lt_testEnd hlast hr (getElem?_of_mem_code hq)
  · rw [hfound, List.forall_mem_cons]
    exact ⟨⟨hopens, p.1, hcloses, rfl⟩, h.isTest⟩
  · rw [hfound, hresume, List.forall_mem_cons]
    refine ⟨le_rfl, fun span hspan => ?_⟩
    have := h.le_resume span hspan
    omega
  · rw [hfound, List.pairwise_cons]
    exact ⟨fun span hspan => (h.le_resume span hspan).trans hle, h.apart⟩

/-- What is known after a character that ends no test. -/
lemma passes (hr : s.resume ≤ p.1)
    (he : p.2 = ')' → level s.depth p.2 = 0 → (s.look text p.1).start = none) :
    Progress text (ps ++ [p]) (pass { s.look text p.1 with depth := level s.depth p.2 } p.2) := by
  obtain ⟨hbefore, -⟩ := position_of_code hcode
  refine ⟨?_, fun q hq hlater => ?_, fun start hs => ?_, fun start hs q hq hlt hp => ?_,
    fun start hs q hq hlater => ?_, by simpa using h.isTest, by simpa using h.le_resume,
    by simpa using h.apart⟩
  · rw [pass_depth, levelOf_concat, h.depth_eq]
  · simpa using h.plain q hq (List.forall_mem_append.mp hlater).1
  · simp only [pass_start, pass_resume, look_resume] at hs ⊢
    rcases h.look hcode hs with hs | ⟨rfl, -, ho⟩
    · exact h.opens start hs
    · exact ⟨ho, hr⟩
  · simp only [pass_start] at hs
    rcases List.mem_append.mp hq with hq | hq
    · rcases h.look hcode hs with hs | ⟨rfl, -, -⟩
      · exact h.unclosed start hs q hq hlt hp
      · exact absurd (hbefore q hq) hlt.not_gt
    · obtain rfl := List.mem_singleton.mp hq
      intro hzero
      rw [openBefore_succ_of_code hcode, ← h.depth_eq] at hzero
      rw [he hp hzero] at hs
      cases hs
  · simp only [pass_start] at hs
    obtain ⟨hps, hlast⟩ := List.forall_mem_append.mp hlater
    rcases h.look hcode hs with hs | ⟨rfl, -, -⟩
    · exact h.started start hs q hq hps
    · exact hlast p (List.mem_singleton_self p)

/-- **What one more character adds.** -/
lemma read : Progress text (ps ++ [p]) (s.read text p) := by
  have hmem : p ∈ code text := by rw [hcode]; simp
  have hreads := Splitter.reads text s p
  generalize s.read text p = s' at hreads ⊢
  cases hreads with
  | skipped hr =>
    refine h.waits ?_ s.lineEnded
    rcases h.plain p hmem (position_of_code hcode).1 hr with hp | hp | hp <;> rw [hp] <;> decide
  | lineFeed hr hc => exact h.waits (by rw [hc]; decide) true
  | ends start hr hc hd hs =>
    rcases h.look hcode hs with hs | ⟨-, hi, -⟩
    · exact h.ends hcode hs hc hd rfl rfl rfl rfl
    · rw [hc] at hi
      exact absurd hi (by decide)
  | passes hr hn he => exact h.passes hcode hr he

end Progress

/-- **What is known after some of the code.** -/
lemma progress_foldl (hcode : code text = ps ++ rest) :
    Progress text ps (ps.foldl (Splitter.read text) {}) := by
  induction ps using List.reverseRecOn generalizing rest with
  | nil => exact progress_nil text
  | append_singleton ps p ih =>
      rw [List.append_assoc, List.singleton_append] at hcode
      rw [List.foldl_concat]
      exact (ih hcode).read hcode

lemma progress_run (text : List Char) : Progress text (code text) (Splitter.run text) :=
  progress_foldl (List.append_nil _).symm

end Splitter

/-- **Every span is a test.** -/
lemma isTest_of_mem_spans {span : ℕ × ℕ} (h : span ∈ spans text) : IsTest text span :=
  (Splitter.progress_run text).isTest span (List.mem_reverse.mp h)

lemma pairwise_spans (text : List Char) :
    (spans text).Pairwise fun earlier later => earlier.2 ≤ later.1 :=
  List.pairwise_reverse.mpr (Splitter.progress_run text).apart

end RequestSuite.Script
