/-
Tests that a statement guards.

* `Guard`, `GuardedCall`: a condition, a loop or an `else`, and the call of `it` after it, with an
  opening brace between them or without one;
* `GuardedCall.TreatedAsBraced`: the call is no test of its own, none separates it from its guard,
  and outside all brackets the script counts as nested;
* `Splitter.foldl_blanks`, `mem_found_foldl`, `started_or_found`: what the splitter keeps on its way
  from the guard to the end of the call;
* `guard_kept_iff`: exactly which calls are treated so. Without a brace the guard is seen by chance
  only; `braced_test_kept`: a call in braces, and `guard_left_alone`: one without.
-/
import RequestSuite.Proofs.Splitting

namespace RequestSuite.Script

open Text (isBlank)

/-! ### Guards -/

/-- The characters of a word, one after another from a position on. -/
def spelled : ℕ → List Char → List (ℕ × Char)
  | _, [] => []
  | i, c :: cs => (i, c) :: spelled (i + 1) cs

/-- A word at a position of a text is no part of a longer name. -/
def StandsAlone (text : List Char) (i : ℕ) (word : List Char) : Prop :=
  (i = 0 ∨ text[i - 1]?.all (fun c => !isNamePart c) = true) ∧
    text[i + word.length]?.all (fun c => !isNamePart c) = true

/-- Parentheses with code between them, after white space. -/
inductive Parenthesized : List (ℕ × Char) → Prop
  | mk {gap inner : List (ℕ × Char)} {opening closing : ℕ} (hgap : ∀ q ∈ gap, isBlank q.2 = true)
      (hinner : Balanced (inner.map Prod.snd)) :
      Parenthesized (gap ++ (opening, '(') :: (inner ++ [(closing, ')')]))

/-- The code of a guard that starts at a position: the header of a condition or of a loop, or an
`else`. The `while` that ends a `do` is not told apart. -/
inductive Guard (text : List Char) (i : ℕ) : List (ℕ × Char) → Prop
  | header {word : List Char} {condition : List (ℕ × Char)}
      (hword : word ∈ ["if".toList, "for".toList, "while".toList])
      (halone : StandsAlone text i word) (hcondition : Parenthesized condition) :
      Guard text i (spelled i word ++ condition)
  | otherwise (halone : StandsAlone text i "else".toList) : Guard text i (spelled i "else".toList)

/-- The code between a guard and the call it guards: white space, and a brace if there is one. -/
inductive Link : (braced : Bool) → List (ℕ × Char) → Prop
  | bare {gap : List (ℕ × Char)} (hgap : ∀ q ∈ gap, isBlank q.2 = true) : Link false gap
  | brace {gap gap' : List (ℕ × Char)} {i : ℕ} (hgap : ∀ q ∈ gap, isBlank q.2 = true)
      (hgap' : ∀ q ∈ gap', isBlank q.2 = true) : Link true (gap ++ (i, '\x7b') :: gap')

/-- A call of `it` that stands after a guard in the code of a script. -/
structure GuardedCall (text : List Char) where
  before : List (ℕ × Char)
  guard : List (ℕ × Char)
  between : List (ℕ × Char)
  arguments : List (ℕ × Char)
  after : List (ℕ × Char)
  /-- Where the guard starts. -/
  position : ℕ
  /-- Where the call starts. -/
  start : ℕ
  /-- Whether a brace stands between them. -/
  braced : Bool
  code_eq : code text =
    before ++ (guard ++ between ++ (spelled start "it".toList ++ (arguments ++ after)))
  isGuard : Guard text position guard
  isLink : Link braced between
  opensTest_start : opensTest text start = true
  isCall : Parenthesized arguments
  /-- A guard outside all brackets stands in no call of `it`: the ones before it have ended. -/
  closed : openBefore text position = 0 → ∀ first < position, Opens text first →
    ∃ close < position, Closes text first close

/-- The guarded call is no test of its own, it stands in the tests in which its guard stands, and a
guard outside all brackets makes the script a nested one. -/
def GuardedCall.TreatedAsBraced {text : List Char} (c : GuardedCall text) : Prop :=
  (∀ span ∈ spans text, span.1 ≠ c.start) ∧
    (∀ span ∈ spans text,
      (span.1 ≤ c.position ∧ c.position < span.2) ↔ (span.1 ≤ c.start ∧ c.start < span.2)) ∧
    (openBefore text c.position = 0 → (split text).nested = true)

variable {text : List Char} {s : Splitter} {p : ℕ × Char} {ps qs rest : List (ℕ × Char)}
  {i depth : ℕ} {braced : Bool}

/-! ### Brackets of a guard -/

/-- White space opens and closes nothing. -/
lemma depthAfter?_blanks (h : ∀ q ∈ ps, isBlank q.2 = true) :
    depthAfter? depth (ps.map Prod.snd) = some depth := by
  induction ps with
  | nil => rfl
  | cons p ps ih =>
      obtain ⟨hp, hps⟩ := List.forall_mem_cons.mp h
      obtain ⟨ho, hc⟩ := not_bracket_of_isBlank hp
      rw [List.map_cons, depthAfter?_cons, if_neg (by simp [hc]), level_plain ho hc]
      exact ih hps

lemma Parenthesized.balanced (h : Parenthesized ps) : Balanced (ps.map Prod.snd) := by
  obtain ⟨hgap, hinner⟩ := h
  rw [Balanced, List.map_append, depthAfter?_append, depthAfter?_blanks hgap, Option.bind_some,
    List.map_cons, depthAfter?_cons, if_neg (by simp [isCloser]), List.map_append,
    depthAfter?_append, hinner.depthAfter?]
  rfl

lemma Parenthesized.eq_concat (h : Parenthesized ps) :
    ∃ init close, ps = init ++ [(close, ')')] := by
  obtain @⟨gap, inner, opening, closing, -, -⟩ := h
  exact ⟨gap ++ (opening, '(') :: inner, closing, by simp⟩

lemma Guard.balanced (h : Guard text i ps) : Balanced (ps.map Prod.snd) := by
  cases h with
  | header hword _ hcondition =>
      rw [List.map_append, Balanced, depthAfter?_append]
      simp only [List.mem_cons, List.not_mem_nil, or_false] at hword
      rcases hword with rfl | rfl | rfl <;> exact hcondition.balanced
  | otherwise _ => rfl

/-- A guard starts with a letter at its position. -/
lemma Guard.eq_cons (h : Guard text i ps) :
    ∃ c rest, ps = (i, c) :: rest ∧ c ∈ ['i', 'f', 'w', 'e'] := by
  cases h with
  | header hword _ _ =>
      simp only [List.mem_cons, List.not_mem_nil, or_false] at hword
      rcases hword with rfl | rfl | rfl
      · exact ⟨'i', _, rfl, by decide⟩
      · exact ⟨'f', _, rfl, by decide⟩
      · exact ⟨'w', _, rfl, by decide⟩
  | otherwise _ => exact ⟨'e', _, rfl, by decide⟩

lemma Guard.eq_concat (h : Guard text i ps) :
    ∃ init p, ps = init ++ [p] ∧ (p.2 = ')' ∨ p.2 = 'e') := by
  cases h with
  | @header word _ _ _ hcondition =>
      obtain ⟨init, close, rfl⟩ := hcondition.eq_concat
      exact ⟨spelled i word ++ init, (close, ')'), (List.append_assoc ..).symm, Or.inl rfl⟩
  | otherwise _ => exact ⟨spelled i "els".toList, (i + 3, 'e'), rfl, Or.inr rfl⟩

lemma Link.levelAfter (h : Link braced ps) :
    levelAfter depth (ps.map Prod.snd) = if braced then depth + 1 else depth := by
  cases h with
  | bare hgap => exact levelAfter_of_depthAfter? (depthAfter?_blanks hgap)
  | brace hgap hgap' =>
      rw [List.map_append, levelAfter_append, levelAfter_of_depthAfter? (depthAfter?_blanks hgap)]
      exact levelAfter_of_depthAfter? (depthAfter?_blanks hgap')

/-- Between a guard and its call nothing is closed. -/
lemma Link.not_closer (h : Link braced ps) : ∀ c ∈ ps.map Prod.snd, isCloser c = false := by
  have hblank {qs : List (ℕ × Char)} (hqs : ∀ q ∈ qs, isBlank q.2 = true) :
      ∀ c ∈ qs.map Prod.snd, isCloser c = false := by
    intro c hc
    obtain ⟨q, hq, rfl⟩ := List.mem_map.mp hc
    exact (not_bracket_of_isBlank (hqs q hq)).2
  cases h with
  | bare hgap => exact hblank hgap
  | brace hgap hgap' =>
      intro c hc
      rw [List.map_append, List.map_cons] at hc
      rcases List.mem_append.mp hc with hc | hc
      · exact hblank hgap c hc
      · rcases List.mem_cons.mp hc with rfl | hc
        · rfl
        · exact hblank hgap' c hc

/-- A letter of parenthesized code stands inside brackets. -/
lemma Parenthesized.openBefore_pos (h : Parenthesized ps) (hcode : code text = qs ++ (ps ++ rest))
    (hi : (i, 'i') ∈ ps) : 0 < openBefore text i := by
  obtain @⟨gap, inner, opening, closing, hgap, hinner⟩ := h
  have hi : (i, 'i') ∈ inner := by
    rcases List.mem_append.mp hi with hi | hi
    · have hblank : isBlank 'i' = true := hgap _ hi
      exact absurd hblank (by decide)
    · simpa using hi
  obtain ⟨front, back, rfl⟩ := List.append_of_mem hi
  have hsplit : code text =
      (qs ++ gap ++ (opening, '(') :: front) ++ (i, 'i') :: (back ++ (closing, ')') :: rest) := by
    rw [hcode]
    simp
  have hlevel : levelOf (qs ++ gap ++ (opening, '(') :: front) =
      levelAfter (levelOf qs + 1) (front.map Prod.snd) := by
    rw [levelOf, List.map_append, List.map_append, levelAfter_append, levelAfter_append,
      levelAfter_of_depthAfter? (depthAfter?_blanks hgap)]
    rfl
  rw [List.map_append] at hinner
  have := le_levelAfter_of_append hinner (levelOf qs + 1)
  rw [openBefore_of_code hsplit, hlevel]
  omega

/-- A call of `it` has its second letter after the first. -/
lemma getElem?_succ_of_opensTest (h : opensTest text i = true) : text[i + 1]? = some 't' := by
  rw [opensTest, Bool.and_eq_true] at h
  have hbegin := h.1
  rw [← List.getElem?_drop]
  revert hbegin
  generalize text.drop i = cs
  unfold beginsTest
  split
  · simp
  · simp

lemma opensTest_eq_false (hp : p ∈ code text) (hi : p.2 ≠ 'i') : opensTest text p.1 = false := by
  by_contra ho
  have hget := getElem?_of_mem_code hp
  rw [getElem?_of_opensTest (by simpa using ho)] at hget
  exact hi (Option.some.inj hget).symm

/-- No test starts in the words of a guard, and none outside brackets in its condition. -/
lemma Guard.not_opens {a : ℕ} (h : Guard text i ps) (hcode : code text = qs ++ (ps ++ rest))
    (ha : (a, 'i') ∈ ps) : ¬ Opens text a := by
  intro hopens
  have hnext := getElem?_succ_of_opensTest hopens.opensTest
  have hmem {q : ℕ × Char} (hq : q ∈ ps) : text[q.1]? = some q.2 := by
    refine getElem?_of_mem_code ?_
    rw [hcode]
    simp [hq]
  cases h with
  | @header word condition hword _ hcondition =>
      rcases List.mem_append.mp ha with ha | ha
      · simp only [List.mem_cons, List.not_mem_nil, or_false] at hword
        rcases hword with rfl | rfl | rfl
        · obtain rfl : a = i := by simpa [spelled] using ha
          have := hmem (q := (a + 1, 'f')) (by simp [spelled])
          simp [hnext] at this
        · simp [spelled] at ha
        · obtain rfl : a = i + 2 := by simpa [spelled] using ha
          have := hmem (q := (i + 2 + 1, 'l')) (by simp [spelled])
          simp [hnext] at this
      · have hsplit : code text = (qs ++ spelled i word) ++ (condition ++ rest) := by
          rw [hcode]
          simp
        have := hcondition.openBefore_pos hsplit ha
        exact absurd hopens.openBefore_eq_zero (by omega)
  | otherwise _ => simp [spelled] at ha

lemma Link.letter_notMem {a : ℕ} (h : Link braced ps) : (a, 'i') ∉ ps := by
  have hblank {qs : List (ℕ × Char)} (hqs : ∀ q ∈ qs, isBlank q.2 = true) : (a, 'i') ∉ qs := by
    intro ha
    have hletter : isBlank 'i' = true := hqs _ ha
    exact absurd hletter (by decide)
  cases h with
  | bare hgap => exact hblank hgap
  | brace hgap hgap' => simp [hblank hgap, hblank hgap']

lemma Closes.unique {start close close' : ℕ} (h : Closes text start close)
    (h' : Closes text start close') : close = close' := by
  rcases lt_trichotomy close close' with hlt | heq | hlt
  · exact absurd h.openBefore_eq_zero (h'.first _ h.mem_code h.lt hlt rfl)
  · exact heq
  · exact absurd h'.openBefore_eq_zero (h.first _ h'.mem_code h'.lt hlt rfl)

/-! ### Reading on -/

namespace Splitter

lemma Progress.resume_le (h : Progress text ps s) (hcode : code text = ps ++ p :: rest)
    (hp : p.2 ≠ ' ' ∧ p.2 ≠ '\t' ∧ p.2 ≠ ';') : s.resume ≤ p.1 := by
  by_contra hlt
  have hplain := h.plain p (by rw [hcode]; simp) (position_of_code hcode).1 (not_le.mp hlt)
  tauto

/-- A character that neither breaks the line nor closes a parenthesis ends nothing. -/
lemma read_eq_pass (hr : s.resume ≤ p.1) (hn : p.2 ≠ '\n') (hc : p.2 ≠ ')') :
    s.read text p = pass { s.look text p.1 with depth := level s.depth p.2 } p.2 := by
  have hreads := Splitter.reads text s p
  generalize s.read text p = s' at hreads
  cases hreads with
  | skipped hlt => omega
  | lineFeed _ hn' => exact absurd hn' hn
  | ends _ _ hc' _ _ => exact absurd hc' hc
  | passes _ _ _ => rfl

/-- White space that is read only tells whether the line has ended. -/
lemma foldl_blanks (hb : ∀ q ∈ qs, isBlank q.2 = true) (hr : ∀ q ∈ qs, s.resume ≤ q.1)
    (ho : ∀ q ∈ qs, opensTest text q.1 = false) :
    qs.foldl (Splitter.read text) s =
      { s with lineEnded := s.lineEnded || (qs.map Prod.snd).contains '\n' } := by
  induction qs generalizing s with
  | nil => simp
  | cons q qs ih =>
      obtain ⟨hbq, hb⟩ := List.forall_mem_cons.mp hb
      obtain ⟨hrq, hr⟩ := List.forall_mem_cons.mp hr
      obtain ⟨hoq, ho⟩ := List.forall_mem_cons.mp ho
      have hread : s.read text q = { s with lineEnded := s.lineEnded || q.2 == '\n' } := by
        obtain ⟨hopener, hcloser⟩ := not_bracket_of_isBlank hbq
        by_cases hn : q.2 = '\n'
        · simp [read, not_lt.mpr hrq, hn]
        · have hbeq : (q.2 == '\n') = false := by simpa using hn
          simp [read, not_lt.mpr hrq, hn, look, hoq, hopener, hcloser, pass, hbq, hbeq]
      rw [List.foldl_cons, hread, @ih { s with lineEnded := s.lineEnded || q.2 == '\n' } hb hr ho]
      simp only [List.map_cons, List.contains_cons, Bool.or_assoc, Bool.beq_comm]

/-- A test seen inside another statement is not forgotten. -/
lemma nested_foldl (h : s.nested = true) : (qs.foldl (Splitter.read text) s).nested = true := by
  induction qs generalizing s with
  | nil => exact h
  | cons q qs ih =>
      refine ih ?_
      have hreads := Splitter.reads text s q
      generalize s.read text q = s' at hreads
      cases hreads <;> simp [look_nested, h]

/-- A test that is being read is still being read, or has been found. -/
lemma started_or_found {first : ℕ}
    (h : s.start = some first ∨ ∃ stop, (first, stop) ∈ s.found) :
    (qs.foldl (Splitter.read text) s).start = some first ∨
      ∃ stop, (first, stop) ∈ (qs.foldl (Splitter.read text) s).found := by
  induction qs generalizing s with
  | nil => exact h
  | cons q qs ih =>
      refine ih ?_
      have hreads := Splitter.reads text s q
      generalize s.read text q = s' at hreads
      cases hreads with
      | skipped _ => exact h
      | lineFeed _ _ => exact h
      | ends start _ _ _ hs =>
          rcases h with h | ⟨stop, h⟩
          · obtain rfl : first = start := by simpa [look_start, h] using hs
            exact Or.inr ⟨testEnd text q.1, List.mem_cons_self⟩
          · exact Or.inr ⟨stop, List.mem_cons_of_mem _ h⟩
      | passes _ _ _ =>
          rcases h with h | h
          · exact Or.inl (by simp [look_start, h])
          · exact Or.inr (by simpa using h)

/-- A test that is being read at some place is found, if a parenthesis behind its start leaves no
bracket open. -/
lemma exists_span_of_start {first close : ℕ}
    (hrun : Splitter.run text = qs.foldl (Splitter.read text) s) (hs : s.start = some first)
    (hmem : (close, ')') ∈ code text) (hlt : first < close)
    (hzero : openBefore text (close + 1) = 0) : ∃ stop, (first, stop) ∈ spans text := by
  rcases started_or_found (Or.inl hs) with hstart | ⟨stop, hfound⟩
  · rw [← hrun] at hstart
    exact absurd hzero ((progress_run text).unclosed first hstart _ hmem hlt rfl)
  · rw [← hrun] at hfound
    exact ⟨stop, List.mem_reverse.mpr hfound⟩

/-- A test that is found had been found or was being read, or starts in what is read. -/
lemma mem_found_foldl {span : ℕ × ℕ} (h : span ∈ (qs.foldl (Splitter.read text) s).found) :
    span ∈ s.found ∨ s.start = some span.1 ∨ ∃ q ∈ qs, q.1 = span.1 := by
  induction qs generalizing s with
  | nil => exact Or.inl h
  | cons q qs ih =>
      have hlook {first : ℕ} (hs : (s.look text q.1).start = some first) :
          s.start = some first ∨ q.1 = first := by
        rw [look_start] at hs
        split_ifs at hs
        · exact Or.inr (Option.some.inj hs)
        · exact Or.inl hs
      have hstep : span ∈ (s.read text q).found ∨ (s.read text q).start = some span.1 →
          span ∈ s.found ∨ s.start = some span.1 ∨ q.1 = span.1 := by
        have hreads := Splitter.reads text s q
        generalize s.read text q = s' at hreads
        cases hreads with
        | skipped _ => tauto
        | lineFeed _ _ => tauto
        | ends start _ _ _ hs =>
            rintro (hspan | hspan)
            · rcases List.mem_cons.mp hspan with rfl | hspan
              · exact Or.inr (hlook hs)
              · exact Or.inl hspan
            · simp at hspan
        | passes _ _ _ =>
            rintro (hspan | hspan)
            · exact Or.inl (by simpa using hspan)
            · exact Or.inr (hlook (by simpa using hspan))
      rcases ih h with h | h | ⟨q', hq', h⟩
      · rcases hstep (Or.inl h) with h | h | h
        · exact Or.inl h
        · exact Or.inr (Or.inl h)
        · exact Or.inr (Or.inr ⟨q, List.mem_cons_self, h⟩)
      · rcases hstep (Or.inr h) with h | h | h
        · exact Or.inl h
        · exact Or.inr (Or.inl h)
        · exact Or.inr (Or.inr ⟨q, List.mem_cons_self, h⟩)
      · exact Or.inr (Or.inr ⟨q', List.mem_cons_of_mem _ hq', h⟩)

end Splitter

/-! ### The place of a guarded call -/

namespace GuardedCall

variable (c : GuardedCall text) {front back : List (ℕ × Char)}

lemma code_eq_start : ∃ rest, code text =
    c.before ++ (c.guard ++ c.between) ++ (c.start, 'i') :: rest := by
  refine ⟨(c.start + 1, 't') :: (c.arguments ++ c.after), ?_⟩
  rw [List.append_assoc]
  exact c.code_eq

/-- The parenthesis that ends the call leaves as many brackets open as there were before it. -/
lemma exists_close : ∃ close, c.start < close ∧ (close, ')') ∈ code text ∧
    openBefore text (close + 1) = openBefore text c.start := by
  obtain ⟨rest, hstart⟩ := c.code_eq_start
  obtain ⟨init, close, harguments⟩ := c.isCall.eq_concat
  have hcode : code text = (c.before ++ (c.guard ++ c.between) ++
      (c.start, 'i') :: (c.start + 1, 't') :: init) ++ (close, ')') :: c.after := by
    rw [c.code_eq, harguments]
    simp [spelled]
  refine ⟨close, (position_of_code hcode).1 (c.start, 'i') (by simp), by rw [hcode]; simp, ?_⟩
  have hcall : ((c.start, 'i') :: (c.start + 1, 't') :: init) ++ [(close, ')')] =
      (c.start, 'i') :: (c.start + 1, 't') :: c.arguments := by rw [harguments]; rfl
  rw [openBefore_succ_of_code hcode, ← levelOf_concat, openBefore_of_code hstart, List.append_assoc,
    hcall, levelOf, List.map_append, levelAfter_append]
  exact c.isCall.balanced.levelAfter _

lemma code_eq_position : ∃ letter rest, letter ∈ ['i', 'f', 'w', 'e'] ∧
    code text = c.before ++ (c.position, letter) :: rest := by
  obtain ⟨letter, rest, hguard, hletter⟩ := c.isGuard.eq_cons
  refine ⟨letter, rest ++ c.between ++ (spelled c.start "it".toList ++ (c.arguments ++ c.after)),
    hletter, ?_⟩
  rw [c.code_eq, hguard]
  simp

lemma openBefore_position : openBefore text c.position = levelOf c.before := by
  obtain ⟨letter, rest, -, hcode⟩ := c.code_eq_position
  exact openBefore_of_code hcode

/-- Code from the guard to the call. -/
lemma mem_guard_between (hp : p ∈ code text) (hl : c.position ≤ p.1) (hr : p.1 < c.start) :
    p ∈ c.guard ++ c.between := by
  obtain ⟨letter, rest, -, hposition⟩ := c.code_eq_position
  obtain ⟨rest', hstart⟩ := c.code_eq_start
  rcases List.mem_append.mp ((mem_before_iff hstart).mpr ⟨hp, hr⟩) with hp | hp
  · have := (position_of_code hposition).1 p hp
    omega
  · exact hp

lemma position_lt_start : c.position < c.start := by
  obtain ⟨letter, rest, hguard, -⟩ := c.isGuard.eq_cons
  obtain ⟨rest', hstart⟩ := c.code_eq_start
  exact (position_of_code hstart).1 (c.position, letter) (by rw [hguard]; simp)

/-- From the guard to the call no bracket is closed that was open before. -/
lemma le_levelOf (h : c.guard ++ c.between = front ++ back) :
    levelOf c.before ≤ levelOf (c.before ++ front) := by
  rw [levelOf, levelOf, List.map_append, levelAfter_append]
  rcases List.append_eq_append_iff.mp h with ⟨mid, hfront, hbetween⟩ | ⟨mid, hguard, -⟩
  · rw [hfront, List.map_append, levelAfter_append, c.isGuard.balanced.levelAfter]
    refine le_levelAfter fun d hd => c.isLink.not_closer d ?_
    rw [hbetween, List.map_append]
    exact List.mem_append_left _ hd
  · have hbalanced := c.isGuard.balanced
    rw [hguard, List.map_append] at hbalanced
    exact le_levelAfter_of_append hbalanced _

lemma openBefore_start : openBefore text c.start =
    if c.braced then openBefore text c.position + 1 else openBefore text c.position := by
  obtain ⟨rest, hcode⟩ := c.code_eq_start
  rw [openBefore_of_code hcode, c.openBefore_position, levelOf, List.map_append, List.map_append,
    levelAfter_append, levelAfter_append, c.isGuard.balanced.levelAfter, c.isLink.levelAfter]
  rfl

/-- After a place from the guard to the call, at least the brackets around the guard are open. -/
lemma le_openBefore_succ (hp : p ∈ code text) (hl : c.position ≤ p.1) (hr : p.1 < c.start) :
    openBefore text c.position ≤ openBefore text (p.1 + 1) := by
  obtain ⟨front, back, hmid⟩ := List.append_of_mem (c.mem_guard_between hp hl hr)
  have hcode : code text = (c.before ++ front) ++
      p :: (back ++ (spelled c.start "it".toList ++ (c.arguments ++ c.after))) := by
    rw [c.code_eq, hmid]
    simp
  rw [openBefore_succ_of_code hcode, ← levelOf_concat, List.append_assoc, c.openBefore_position]
  exact c.le_levelOf (by rw [hmid, List.append_assoc]; rfl)

/-- No test starts from the guard to the call. -/
lemma not_opens {a : ℕ} (hl : c.position ≤ a) (hr : a < c.start) : ¬ Opens text a := by
  intro hopens
  have hguard := c.mem_guard_between hopens.mem_code hl hr
  rcases List.mem_append.mp hguard with ha | ha
  · have hcode := c.code_eq
    rw [List.append_assoc] at hcode
    exact c.isGuard.not_opens hcode ha hopens
  · exact c.isLink.letter_notMem ha

lemma testEnd_le_position {close : ℕ} (h : close < c.position) :
    testEnd text close ≤ c.position := by
  by_contra hlt
  obtain ⟨letter, rest, hletter, hcode⟩ := c.code_eq_position
  have hget : text[c.position]? = some letter :=
    getElem?_of_mem_code (p := (c.position, letter)) (by rw [hcode]; simp)
  rcases eq_of_lt_testEnd h (by omega) hget with rfl | rfl | rfl <;> simp at hletter

/-- Inside brackets a test takes in the guard exactly if it takes in the call. -/
lemma covers_iff_of_enclosed (h : 0 < openBefore text c.position) {span : ℕ × ℕ}
    (hspan : span ∈ spans text) :
    (span.1 ≤ c.position ∧ c.position < span.2) ↔ (span.1 ≤ c.start ∧ c.start < span.2) := by
  obtain ⟨hopens, close, hcloses, hend⟩ := isTest_of_mem_spans hspan
  have hlt := c.position_lt_start
  have hclose := lt_testEnd text close
  constructor
  · rintro ⟨hl, hr⟩
    refine ⟨by omega, ?_⟩
    by_contra hstart
    have hposition : c.position ≤ close := by
      by_contra hbefore
      have := c.testEnd_le_position (not_le.mp hbefore)
      omega
    have := c.le_openBefore_succ hcloses.mem_code hposition (by simp only; omega)
    rw [hcloses.openBefore_eq_zero] at this
    omega
  · rintro ⟨hl, hr⟩
    refine ⟨?_, by omega⟩
    by_contra hposition
    rcases Nat.lt_or_eq_of_le hl with hl | hl
    · exact c.not_opens (by omega) hl hopens
    · have hzero := hopens.openBefore_eq_zero
      rw [hl, c.openBefore_start] at hzero
      split_ifs at hzero
      omega

/-- Outside all brackets, a test that does not start at the call takes in neither. -/
lemma covers_iff_of_outside (h : openBefore text c.position = 0) {span : ℕ × ℕ}
    (hspan : span ∈ spans text) (hne : span.1 ≠ c.start) :
    (span.1 ≤ c.position ∧ c.position < span.2) ↔ (span.1 ≤ c.start ∧ c.start < span.2) := by
  obtain ⟨hopens, close, hcloses, hend⟩ := isTest_of_mem_spans hspan
  have hlt := c.position_lt_start
  have hbefore (hle : span.1 ≤ c.start) : span.2 ≤ c.position := by
    have hposition : span.1 < c.position := by
      by_contra hge
      exact c.not_opens (not_lt.mp hge) (by omega) hopens
    obtain ⟨close', hclose', hcloses'⟩ := c.closed h span.1 hposition hopens
    rw [hend, hcloses.unique hcloses']
    exact c.testEnd_le_position hclose'
  constructor
  · rintro ⟨hl, hr⟩
    have := hbefore (by omega)
    omega
  · rintro ⟨hl, hr⟩
    have := hbefore hl
    omega

/-! ### From the guard to the call -/

/-- Outside all brackets no test is being read from the guard to the call. -/
lemma start_eq_none (h : openBefore text c.position = 0)
    (hmid : c.guard ++ c.between = front ++ back) :
    ((c.before ++ front).foldl (Splitter.read text) {}).start = none := by
  obtain ⟨rest, hcode⟩ := c.code_eq_start
  rw [hmid, List.append_assoc, List.append_assoc, ← List.append_assoc] at hcode
  have hprogress := Splitter.progress_foldl hcode
  by_contra hstart
  obtain ⟨first, hstart⟩ := Option.ne_none_iff_exists'.mp hstart
  obtain ⟨hopens, -⟩ := hprogress.opens first hstart
  have hlt : first < c.start := by
    refine hprogress.started first hstart (c.start, 'i') (by rw [hcode]; simp) fun p hp => ?_
    rw [← List.append_assoc] at hcode
    exact (position_of_code hcode).1 p (List.mem_append_left _ hp)
  have hposition : first < c.position := by
    by_contra hge
    exact c.not_opens (not_lt.mp hge) hlt hopens
  obtain ⟨close, hclose, hcloses⟩ := c.closed h first hposition hopens
  refine hprogress.unclosed first hstart (close, ')') ?_ hcloses.lt rfl hcloses.openBefore_eq_zero
  obtain ⟨letter, rest', -, hcode'⟩ := c.code_eq_position
  exact List.mem_append_left _ ((mem_before_iff hcode').mpr ⟨hcloses.mem_code, hclose⟩)

/-- Outside all brackets, the guard has just been read when the code between is. -/
lemma read_guard (h : openBefore text c.position = 0) :
    ∃ s : Splitter, (c.before ++ c.guard).foldl (Splitter.read text) {} = s ∧
      (s.last = some ')' ∨ s.last = some 'e') ∧ s.lineEnded = false ∧
      ∀ q ∈ c.between, s.resume ≤ q.1 := by
  obtain ⟨init, p, hguard, hp⟩ := c.isGuard.eq_concat
  obtain ⟨rest, hstart⟩ := c.code_eq_start
  have hcode : code text = (c.before ++ init) ++ p :: (c.between ++ (c.start, 'i') :: rest) := by
    rw [hstart, hguard]
    simp
  have hnone := c.start_eq_none h (show _ = init ++ p :: c.between by rw [hguard]; simp)
  have hprogress := Splitter.progress_foldl hcode
  have hplain : p.2 ≠ ' ' ∧ p.2 ≠ '\t' ∧ p.2 ≠ ';' ∧ p.2 ≠ '\n' ∧ p.2 ≠ 'i' := by
    rcases hp with hp | hp <;> rw [hp] <;> decide
  have hresume := hprogress.resume_le hcode ⟨hplain.1, hplain.2.1, hplain.2.2.1⟩
  have hnot : opensTest text p.1 = false :=
    opensTest_eq_false (by rw [hcode]; simp) hplain.2.2.2.2
  refine ⟨_, rfl, ?_⟩
  rw [hguard, ← List.append_assoc, List.foldl_concat]
  generalize (c.before ++ init).foldl (Splitter.read text) {} = s at hnone hresume ⊢
  have hreads := Splitter.reads text s p
  generalize s.read text p = s' at hreads
  cases hreads with
  | skipped hlt => omega
  | lineFeed _ hn => exact absurd hn hplain.2.2.2.1
  | ends start _ _ _ hs =>
      rw [Splitter.look_start, hnone] at hs
      simp [hnot] at hs
  | passes _ _ _ =>
      have hblank : isBlank p.2 = false := by rcases hp with hp | hp <;> rw [hp] <;> decide
      refine ⟨?_, ?_, fun q hq => ?_⟩
      · simpa [Splitter.pass, hblank] using hp
      · simp [Splitter.pass, hblank]
      · have := (position_of_code hcode).2 q (List.mem_append_left _ hq)
        simp only [Splitter.pass_resume, Splitter.look_resume]
        omega

/-- Outside all brackets, a statement may start at a call without a brace exactly if a line has
ended between its guard and it. -/
lemma read_between (h : openBefore text c.position = 0) (hbraced : c.braced = false) :
    ∃ s : Splitter, (c.before ++ (c.guard ++ c.between)).foldl (Splitter.read text) {} = s ∧
      startsStatement s.last s.lineEnded = (c.between.map Prod.snd).contains '\n' := by
  obtain ⟨s, hs, hlast, hended, hresume⟩ := c.read_guard h
  have hblank : ∀ q ∈ c.between, isBlank q.2 = true := by
    have hbetween := c.isLink
    rw [hbraced] at hbetween
    cases hbetween with
    | bare hgap => exact hgap
  have hnot : ∀ q ∈ c.between, opensTest text q.1 = false := by
    intro q hq
    refine opensTest_eq_false (by rw [c.code_eq]; simp [hq]) fun hi => ?_
    have hletter := hblank q hq
    rw [hi] at hletter
    exact absurd hletter (by decide)
  refine ⟨_, rfl, ?_⟩
  rw [← List.append_assoc, List.foldl_append, hs, Splitter.foldl_blanks hblank hresume hnot, hended]
  simp only [Bool.false_or]
  generalize (c.between.map Prod.snd).contains '\n' = ended
  rcases hlast with hlast | hlast <;> rw [hlast] <;> cases ended <;> rfl

/-- Outside all brackets, a brace before the call makes it one inside another statement. -/
lemma nested_of_braced (h : openBefore text c.position = 0) (hbraced : c.braced = true) :
    (split text).nested = true := by
  obtain ⟨rest, hcode⟩ := c.code_eq_start
  have hnone := c.start_eq_none h (List.append_nil _).symm
  have hprogress := Splitter.progress_foldl hcode
  have hresume := hprogress.resume_le hcode (by simp)
  have hdepth := hprogress.depth_eq
  rw [← openBefore_of_code hcode, c.openBefore_start, if_pos hbraced] at hdepth
  show (Splitter.run text).nested = true
  rw [Splitter.run, hcode, List.foldl_append, List.foldl_cons]
  refine Splitter.nested_foldl ?_
  rw [Splitter.read_eq_pass hresume (by simp) (by simp), Splitter.pass_nested]
  simp only
  rw [Splitter.look_nested, hnone, c.opensTest_start, hdepth]
  simp

/-- Outside all brackets, a call without a brace is taken for a test of its own exactly if a line
has ended between its guard and it. -/
lemma starts_iff (h : openBefore text c.position = 0) (hbraced : c.braced = false) :
    (∃ span ∈ spans text, span.1 = c.start) ↔ '\n' ∈ c.between.map Prod.snd := by
  obtain ⟨rest, hcode⟩ := c.code_eq_start
  obtain ⟨s, hs, hstarts⟩ := c.read_between h hbraced
  have hnone := c.start_eq_none h (List.append_nil _).symm
  rw [hs] at hnone
  have hprogress := Splitter.progress_foldl hcode
  rw [hs] at hprogress
  have hresume := hprogress.resume_le hcode (by simp)
  have hdepth : s.depth = 0 := by
    rw [hprogress.depth_eq, ← openBefore_of_code hcode, c.openBefore_start, hbraced, h]
    rfl
  have hrun : Splitter.run text = rest.foldl (Splitter.read text) (s.read text (c.start, 'i')) := by
    rw [Splitter.run, hcode, List.foldl_append, List.foldl_cons, hs]
  have hread : (s.read text (c.start, 'i')).start =
      if startsStatement s.last s.lineEnded = true then some c.start else none := by
    rw [Splitter.read_eq_pass hresume (by simp) (by simp), Splitter.pass_start]
    simp only
    rw [Splitter.look_start]
    simp [hnone, c.opensTest_start, hdepth]
  rw [← List.contains_iff_mem, ← hstarts]
  constructor
  · rintro ⟨span, hspan, hstart⟩
    by_contra hno
    rw [if_neg hno] at hread
    rw [spans, List.mem_reverse, hrun] at hspan
    rcases Splitter.mem_found_foldl hspan with hfound | hfound | ⟨q, hq, hfound⟩
    · -- what had been found before ends before the call
      rw [Splitter.read_eq_pass hresume (by simp) (by simp), Splitter.pass_found] at hfound
      have hfound : span ∈ s.found := by simpa using hfound
      have hle := hprogress.le_resume span hfound
      obtain ⟨-, close, hcloses, hend⟩ := hprogress.isTest span hfound
      have := lt_testEnd text close
      have := hcloses.lt
      simp only at hresume
      omega
    · rw [hread] at hfound
      simp at hfound
    · have := (position_of_code hcode).2 q hq
      simp only at this
      omega
  · intro hyes
    rw [if_pos hyes] at hread
    -- the parenthesis that closes the call ends the test
    obtain ⟨close, hlt, hmem, hclose⟩ := c.exists_close
    rw [c.openBefore_start, hbraced, h] at hclose
    obtain ⟨stop, hspan⟩ := Splitter.exists_span_of_start hrun hread hmem hlt hclose
    exact ⟨_, hspan, rfl⟩

/-- A call inside brackets is treated as if it stood in braces. -/
lemma treatedAsBraced_of_pos (h : 0 < openBefore text c.start) : c.TreatedAsBraced := by
  have hne : ∀ span ∈ spans text, span.1 ≠ c.start := by
    intro span hspan hstart
    have hzero := (isTest_of_mem_spans hspan).1.openBefore_eq_zero
    rw [hstart] at hzero
    omega
  refine ⟨hne, fun span hspan => ?_, fun hzero => ?_⟩
  · rcases Nat.eq_zero_or_pos (openBefore text c.position) with hzero | hpos
    · exact c.covers_iff_of_outside hzero hspan (hne span hspan)
    · exact c.covers_iff_of_enclosed hpos hspan
  · refine c.nested_of_braced hzero ?_
    rw [c.openBefore_start, hzero] at h
    split_ifs at h with hbraced
    · exact hbraced
    · exact absurd h (lt_irrefl 0)

end GuardedCall

/-- **Which guarded calls stay with their guard.** A call is treated as one in braces if it stands
in braces or its guard in other brackets. Otherwise it is so only where it follows its guard on the
same line, and then only if the script counts as nested for another reason. -/
theorem guard_kept_iff (c : GuardedCall text) :
    c.TreatedAsBraced ↔ c.braced = true ∨ 0 < openBefore text c.position ∨
      ((split text).nested = true ∧ '\n' ∉ c.between.map Prod.snd) := by
  have hstart := c.openBefore_start
  cases hbraced : c.braced with
  | true =>
      rw [hbraced, if_pos rfl] at hstart
      exact iff_of_true (c.treatedAsBraced_of_pos (by omega)) (Or.inl rfl)
  | false =>
      rw [hbraced, if_neg Bool.false_ne_true] at hstart
      rcases Nat.eq_zero_or_pos (openBefore text c.position) with hzero | hpos
      · have hstarts := c.starts_iff hzero hbraced
        constructor
        · rintro ⟨hne, -, hnested⟩
          refine Or.inr (Or.inr ⟨hnested hzero, fun hended => ?_⟩)
          obtain ⟨span, hspan, heq⟩ := hstarts.mpr hended
          exact hne span hspan heq
        · rintro (hfalse | hpos | ⟨hnested, hended⟩)
          · simp at hfalse
          · omega
          · have hne : ∀ span ∈ spans text, span.1 ≠ c.start := fun span hspan heq =>
              hended (hstarts.mp ⟨span, hspan, heq⟩)
            exact ⟨hne, fun span hspan => c.covers_iff_of_outside hzero hspan (hne span hspan),
              fun _ => hnested⟩
      · exact iff_of_true (c.treatedAsBraced_of_pos (by omega)) (Or.inr (Or.inl hpos))

/-- A condition over a test in braces. -/
def bracedScript : List Char :=
  "if (response.status === 200) \x7b\n  it(\"ok\", function () \x7b\x7d);\n\x7d".toList

/-- The condition. -/
def statusGuard : List (ℕ × Char) :=
  spelled 0 "if".toList ++
    (spelled 2 " ".toList ++
      (3, '(') :: (spelled 4 "response.status === 200".toList ++ [(27, ')')]))

/-- The test of that script. -/
def bracedCall : GuardedCall bracedScript where
  before := []
  guard := statusGuard
  between := spelled 28 " ".toList ++ (29, '\x7b') :: spelled 30 "\n  ".toList
  arguments := [] ++ (35, '(') :: (spelled 40 ", function () \x7b\x7d".toList ++ [(56, ')')])
  after := spelled 57 ";\n\x7d".toList
  position := 0
  start := 33
  braced := true
  code_eq := by decide +kernel
  isGuard := .header (by decide) ⟨Or.inl rfl, by decide⟩ ⟨by decide, by decide⟩
  isLink := .brace (by decide) (by decide)
  opensTest_start := by decide +kernel
  isCall := .mk (by decide) (by decide)
  closed _ first hfirst := absurd hfirst (Nat.not_lt_zero first)

/-- It stays with its condition, outside all brackets. -/
theorem braced_test_kept :
    bracedCall.TreatedAsBraced ∧ openBefore bracedScript bracedCall.position = 0 :=
  ⟨(guard_kept_iff bracedCall).mpr (Or.inl rfl), by decide +kernel⟩

/-- The condition over the same test on the next line, without a brace. -/
def unbracedScript : List Char :=
  "if (response.status === 200)\n  it(\"ok\", function () \x7b\x7d);".toList

/-- The test of that script. -/
def unbracedCall : GuardedCall unbracedScript where
  before := []
  guard := statusGuard
  between := spelled 28 "\n  ".toList
  arguments := [] ++ (33, '(') :: (spelled 38 ", function () \x7b\x7d".toList ++ [(54, ')')])
  after := [(55, ';')]
  position := 0
  start := 31
  braced := false
  code_eq := by decide +kernel
  isGuard := .header (by decide) ⟨Or.inl rfl, by decide⟩ ⟨by decide, by decide⟩
  isLink := .bare (by decide)
  opensTest_start := by decide +kernel
  isCall := .mk (by decide) (by decide)
  closed _ first hfirst := absurd hfirst (Nat.not_lt_zero first)

/-- The condition is left alone in the set-up, and its test is one of its own, where the same call
in braces keeps the script whole. -/
theorem guard_left_alone :
    ¬ unbracedCall.TreatedAsBraced ∧
      split unbracedScript = ⟨"if (response.status === 200)".toList,
        ["it(\"ok\", function () \x7b\x7d);".toList], false⟩ ∧
      split bracedScript = ⟨bracedScript, [], true⟩ := by
  refine ⟨fun h => h.1 (31, 56) ?_ rfl, ?_, ?_⟩ <;> decide +kernel

end RequestSuite.Script
