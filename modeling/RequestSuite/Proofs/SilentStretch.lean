/-
Scripts that differ in a stretch without code.

* `filled`, `closedUp`: a script with a body between two slashes, and with one slash in place of
  both;
* `moved`, `Splitter.moved`: where the positions of the closed-up script stand in the filled one;
* `opensTest_filled`, `testEnd_filled`, `Splitter.read_filled`: what the splitter looks at is moved
  with the positions;
* `Form`, `Form.Holds`: a script taken apart, with a place for a word in its set-up or in one
  of its tests, and when a script is taken apart like that;
* `exists_setup_around`: a set-up keeps its form for the bodies without line breaks;
* `exists_form`: the scripts that have their code at such positions are taken apart alike,
  whatever their bodies are.
-/
import RequestSuite.Proofs.CodePieces

namespace RequestSuite.Script

open Text

variable {front back body cs ds : List Char} {s : Splitter} {p : ℕ × Char} {ps : List (ℕ × Char)}
  {tests : List (ℕ × ℕ)} {i j first last cursor : ℕ} {c : Char}

/-! ### Positions -/

/-- A script with a body between two slashes. -/
def filled (front body back : List Char) : List Char := front ++ '/' :: (body ++ '/' :: back)

/-- The same with one slash in place of both and of what stands between them. -/
def closedUp (front back : List Char) : List Char := front ++ '/' :: back

/-- Where a position of the closed-up script stands in the filled one. -/
def moved (front body : List Char) (i : ℕ) : ℕ :=
  if i ≤ front.length then i else i + (body.length + 1)

lemma moved_of_le (h : i ≤ front.length) : moved front body i = i := if_pos h

lemma moved_of_lt (h : front.length < i) : moved front body i = i + (body.length + 1) :=
  if_neg (by omega)

lemma moved_lt_iff : moved front body i < moved front body j ↔ i < j := by
  simp only [moved]
  split_ifs <;> omega

lemma moved_le_iff : moved front body i ≤ moved front body j ↔ i ≤ j := by
  rw [← not_lt, moved_lt_iff, not_lt]

lemma drop_filled_of_le (h : i ≤ front.length) :
    (filled front body back).drop i = front.drop i ++ '/' :: (body ++ '/' :: back) :=
  List.drop_append_of_le_length h

lemma drop_closedUp_of_le (h : i ≤ front.length) :
    (closedUp front back).drop i = front.drop i ++ '/' :: back :=
  List.drop_append_of_le_length h

/-- From the last slash on both scripts are alike. -/
lemma drop_filled_add (h : front.length ≤ i) :
    (filled front body back).drop (i + (body.length + 1)) = (closedUp front back).drop i := by
  obtain ⟨k, rfl⟩ := Nat.exists_eq_add_of_le h
  have hfilled : filled front body back = (front ++ '/' :: body) ++ '/' :: back := by
    simp [filled]
  have hlength : front.length + k + (body.length + 1) = (front ++ '/' :: body).length + k := by
    rw [List.length_append, List.length_cons]
    omega
  rw [hfilled, hlength, closedUp, List.drop_length_add_append, List.drop_length_add_append]

lemma drop_moved (h : front.length < i) :
    (filled front body back).drop (moved front body i) = (closedUp front back).drop i := by
  rw [moved_of_lt h, drop_filled_add h.le]

/-! ### What the splitter looks at -/

/-- A call is not looked for behind a slash. -/
lemma beginsTest_slash (cs ds es : List Char) :
    beginsTest (cs ++ '/' :: ds) = beginsTest (cs ++ '/' :: es) := by
  have hhead (cs ds : List Char) : ((cs ++ '/' :: ds).dropWhile isBlank).head? =
      ((cs ++ ['/']).dropWhile isBlank).head? := by
    have hslash : ¬ isBlank '/' = true := by decide
    rw [List.dropWhile_append, List.dropWhile_append, List.dropWhile_cons_of_neg hslash,
      List.dropWhile_cons_of_neg hslash]
    split_ifs with hempty
    · rfl
    · rw [List.head?_append, List.head?_append]
      cases h : cs.dropWhile isBlank with
      | nil => rw [h] at hempty; exact absurd rfl hempty
      | cons d ds => rfl
  match cs with
  | [] => rfl
  | [c] => by_cases hc : c = 'i' <;> simp [beginsTest, hc]
  | c :: d :: cs =>
      by_cases hcd : c = 'i' ∧ d = 't'
      · obtain ⟨rfl, rfl⟩ := hcd
        simp only [List.cons_append, beginsTest, hhead cs ds, hhead cs es]
      · simp only [List.cons_append]
        unfold beginsTest
        split <;> simp_all

/-- A call of `it` is moved with its position. -/
lemma opensTest_filled (h : i ≠ front.length) :
    opensTest (filled front body back) (moved front body i) =
      opensTest (closedUp front back) i := by
  rcases lt_or_gt_of_ne h with hlt | hlt
  · have hprev (ds : List Char) : (front ++ '/' :: ds)[i - 1]? = front[i - 1]? :=
      List.getElem?_append_left (by omega)
    rw [opensTest, opensTest, moved_of_le hlt.le, drop_filled_of_le hlt.le,
      drop_closedUp_of_le hlt.le, filled, closedUp, hprev, hprev, beginsTest_slash]
  · obtain ⟨k, rfl⟩ : ∃ k, i = k + 1 := ⟨i - 1, by omega⟩
    have hprev : (filled front body back)[k + (body.length + 1)]? = (closedUp front back)[k]? := by
      rw [← List.head?_drop, ← List.head?_drop, drop_filled_add (by omega)]
    have hmoved : moved front body (k + 1) - 1 = k + (body.length + 1) := by
      rw [moved_of_lt hlt]
      omega
    have hzero : (moved front body (k + 1) == 0) = (k + 1 == 0) := by
      rw [moved_of_lt hlt]
      simp
    rw [opensTest, opensTest, drop_moved hlt, hmoved, hprev, hzero, Nat.add_sub_cancel]

/-- How much of the text behind its closing parenthesis goes with a test. -/
def ending (after : List Char) : ℕ :=
  let gap := (after.takeWhile fun c => c == ' ' || c == '\t').length
  if (after.drop gap).head? = some ';' then gap + 1 else 0

lemma testEnd_eq (text : List Char) (close : ℕ) :
    testEnd text close = close + 1 + ending (text.drop (close + 1)) := by
  rw [testEnd, ending]
  split_ifs <;> omega

/-- A test ends in front of a slash. -/
lemma ending_slash (cs ds es : List Char) :
    ending (cs ++ '/' :: ds) = ending (cs ++ '/' :: es) ∧ ending (cs ++ '/' :: ds) ≤ cs.length := by
  set blank : Char → Bool := fun c => c == ' ' || c == '\t' with hblank
  have hgap (ds : List Char) : (cs ++ '/' :: ds).takeWhile blank = cs.takeWhile blank := by
    rw [List.takeWhile_append, List.takeWhile_cons_of_neg (by simp [hblank]), List.append_nil]
    split_ifs with hlength
    · exact ((List.takeWhile_prefix _).eq_of_length hlength).symm
    · rfl
  have hle : (cs.takeWhile blank).length ≤ cs.length := (List.takeWhile_prefix _).length_le
  have hhead (ds : List Char) : ((cs ++ '/' :: ds).drop (cs.takeWhile blank).length).head? =
      (cs.drop (cs.takeWhile blank).length).head?.or (some '/') := by
    rw [List.drop_append_of_le_length hle, List.head?_append]
    rfl
  simp only [ending]
  rw [← hblank, hgap, hgap, hhead, hhead]
  refine ⟨rfl, ?_⟩
  split_ifs with hsemi
  · rcases hle.lt_or_eq with hlt | heq
    · omega
    · rw [heq, List.drop_length] at hsemi
      exact absurd hsemi (by simp)
  · exact Nat.zero_le _

/-- The end of a test is moved with its parenthesis. -/
lemma testEnd_filled (h : i ≠ front.length) :
    testEnd (filled front body back) (moved front body i) =
      moved front body (testEnd (closedUp front back) i) := by
  rcases lt_or_gt_of_ne h with hlt | hlt
  · obtain ⟨heq, hle⟩ := ending_slash (front.drop (i + 1)) (body ++ '/' :: back) back
    rw [List.length_drop] at hle
    have hlt' : i + 1 ≤ front.length := hlt
    rw [moved_of_le hlt.le, testEnd_eq, testEnd_eq, drop_filled_of_le hlt',
      drop_closedUp_of_le hlt', ← heq, moved_of_le (by omega)]
  · rw [testEnd_eq, testEnd_eq, moved_of_lt (by omega), moved_of_lt (by omega),
      Nat.add_right_comm i, drop_filled_add (by omega)]
    omega

lemma testEnd_filled_le (h : i < front.length) :
    testEnd (filled front body back) i ≤ front.length := by
  have hle := (ending_slash (front.drop (i + 1)) (body ++ '/' :: back) []).2
  have h' : i + 1 ≤ front.length := h
  rw [List.length_drop] at hle
  rw [testEnd_eq, drop_filled_of_le h']
  omega

namespace Splitter

/-- A splitter of the closed-up script, moved to the filled one. -/
def moved (front body : List Char) (s : Splitter) : Splitter :=
  { s with
    start := s.start.map (Script.moved front body)
    resume := Script.moved front body s.resume
    found := s.found.map (Prod.map (Script.moved front body) (Script.moved front body)) }

lemma look_filled (h : i ≠ front.length) :
    (s.moved front body).look (filled front body back) (Script.moved front body i) =
      (s.look (closedUp front back) i).moved front body := by
  have hnone : (s.moved front body).start.isNone = s.start.isNone := Option.isNone_map
  rw [look, look, opensTest_filled h, hnone]
  simp only [apply_ite (moved front body)]
  rfl

lemma pass_filled (c : Char) : (s.moved front body).pass c = (s.pass c).moved front body := by
  rw [pass, pass]
  split_ifs <;> rfl

lemma close_none (hs : s.start = none) (text : List Char) (i : ℕ) (c : Char) :
    s.close text i c = pass { s with depth := s.depth - 1 } c := by
  simp only [close, hs]

lemma close_some {start : ℕ} (hs : s.start = some start) (text : List Char) (i : ℕ) (c : Char) :
    s.close text i c = if s.depth - 1 = 0 ∧ c = ')' then
      { s with
        depth := s.depth - 1, start := none, resume := testEnd text i
        found := (start, testEnd text i) :: s.found, last := some ';', lineEnded := false }
      else pass { s with depth := s.depth - 1 } c := by
  simp only [close, hs, Bool.and_eq_true, decide_eq_true_eq]

lemma close_filled (h : i ≠ front.length) (c : Char) :
    (s.moved front body).close (filled front body back) (Script.moved front body i) c =
      (s.close (closedUp front back) i c).moved front body := by
  have hdepth : (s.moved front body).depth = s.depth := rfl
  have hpass := @pass_filled front body { s with depth := s.depth - 1 } c
  cases hs : s.start with
  | none =>
      have hstart : (s.moved front body).start = none := by rw [moved, hs]; rfl
      rw [close_none hs, close_none hstart]
      exact hpass
  | some start =>
      have hstart : (s.moved front body).start = some (Script.moved front body start) := by
        rw [moved, hs]
        rfl
      rw [close_some hs, close_some hstart, testEnd_filled h, hdepth]
      by_cases hend : s.depth - 1 = 0 ∧ c = ')'
      · rw [if_pos hend, if_pos hend]
        rfl
      · rw [if_neg hend, if_neg hend]
        exact hpass

/-- **One more character of the code** is read alike. -/
lemma read_filled (h : p.1 ≠ front.length) :
    (s.moved front body).read (filled front body back) (Script.moved front body p.1, p.2) =
      (s.read (closedUp front back) p).moved front body := by
  have hresume : Script.moved front body p.1 < (s.moved front body).resume ↔ p.1 < s.resume :=
    moved_lt_iff
  simp only [read, look_filled h, hresume]
  split_ifs
  · rfl
  · rfl
  · exact @pass_filled front body
      { s.look (closedUp front back) p.1 with depth := (s.look _ p.1).depth + 1 } p.2
  · exact close_filled h p.2
  · exact pass_filled p.2

/-- **All code** is read alike. -/
lemma foldl_filled (h : ∀ p ∈ ps, p.1 ≠ front.length) :
    (ps.map fun p => (Script.moved front body p.1, p.2)).foldl
        (Splitter.read (filled front body back)) (s.moved front body) =
      (ps.foldl (Splitter.read (closedUp front back)) s).moved front body := by
  induction ps generalizing s with
  | nil => rfl
  | cons p ps ih =>
      obtain ⟨hp, hps⟩ := List.forall_mem_cons.mp h
      rw [List.map_cons, List.foldl_cons, List.foldl_cons, read_filled hp, ih hps]

end Splitter

lemma run_filled (hcode : code (filled front body back) =
      ps.map fun p => (moved front body p.1, p.2)) (hps : ∀ p ∈ ps, p.1 ≠ front.length) :
    Splitter.run (filled front body back) =
      (ps.foldl (Splitter.read (closedUp front back)) {}).moved front body := by
  rw [Splitter.run, hcode, ← Splitter.foldl_filled hps]
  rfl

/-! ### Pieces -/

/-- The body between its slashes. -/
def slashed (body : List Char) : List Char := '/' :: (body ++ ['/'])

/-- A stretch of the filled script is one of the closed-up script, unless the slash lies in it. -/
lemma slice_filled (i j : ℕ) :
    slice (filled front body back) (moved front body i) (moved front body j) =
      if i ≤ front.length ∧ front.length < j then
        front.drop i ++ (slashed body ++ back.take (j - (front.length + 1)))
      else slice (closedUp front back) i j := by
  split_ifs with h
  · obtain ⟨k, hk⟩ : ∃ k, j = front.length + 1 + k := ⟨j - (front.length + 1), by omega⟩
    have hlength : moved front body j - i = (front.drop i ++ slashed body).length + k := by
      rw [moved_of_lt h.2, List.length_append, List.length_drop, slashed, List.length_cons,
        List.length_append, List.length_singleton]
      omega
    have hdrop : front.drop i ++ '/' :: (body ++ '/' :: back) =
        (front.drop i ++ slashed body) ++ back := by simp [slashed]
    rw [moved_of_le h.1, slice, drop_filled_of_le h.1, hdrop, hlength, List.take_length_add_append,
      hk, Nat.add_sub_cancel_left, List.append_assoc]
  · by_cases hi : i ≤ front.length
    · have hj : j ≤ front.length := by omega
      have hle : j - i ≤ (front.drop i).length := by
        rw [List.length_drop]
        omega
      rw [moved_of_le hi, moved_of_le hj, slice, slice, drop_filled_of_le hi,
        drop_closedUp_of_le hi, List.take_append_of_le_length hle,
        List.take_append_of_le_length hle]
    · have hlength : moved front body j - moved front body i = j - i := by
        simp only [moved]
        split_ifs <;> omega
      rw [slice, slice, drop_moved (by omega), hlength]

/-- A text with a place for a word. -/
structure Surrounding where
  before : List Char
  after : List Char

/-- The text with a word at its place. -/
def Surrounding.fill (around : Surrounding) (word : List Char) : List Char :=
  around.before ++ (word ++ around.after)

/-- A script taken apart, with a place for a word in its set-up or in one of its tests. -/
inductive Form
  | inSetup (around : Surrounding) (tests : List (List Char)) (nested : Bool)
  | inTest (setup : List Char) (before : List (List Char)) (around : Surrounding)
      (after : List (List Char)) (nested : Bool)

/-- The script taken apart with a word at its place. -/
def Form.fill (word : List Char) : Form → Parts
  | .inSetup around tests nested => ⟨around.fill word, tests, nested⟩
  | .inTest setup before around after nested =>
    ⟨setup, before ++ around.fill word :: after, nested⟩

/-- A test in the filled script. -/
def testOf (front back body : List Char) (span : ℕ × ℕ) : List Char :=
  slice (filled front body back) (moved front body span.1) (moved front body span.2)

/-- The pieces between tests in the filled script. -/
def gapsOf (front back body : List Char) (cursor : ℕ) (tests : List (ℕ × ℕ)) : List (List Char) :=
  gaps (filled front body back) (moved front body cursor)
    (tests.map (Prod.map (moved front body) (moved front body)))

lemma gapsOf_cons (cursor : ℕ) (span : ℕ × ℕ) (tests : List (ℕ × ℕ)) :
    gapsOf front back body cursor (span :: tests) =
      testOf front back body (cursor, span.1) :: gapsOf front back body span.2 tests := rfl

/-- Behind the last slash all pieces are those of the closed-up script. -/
lemma pieces_of_lt (hcursor : front.length < cursor) (h : ∀ span ∈ tests, front.length < span.1)
    (h' : ∀ span ∈ tests, front.length < span.2) :
    gapsOf front back body cursor tests = gaps (closedUp front back) cursor tests ∧
      tests.map (testOf front back body) =
        tests.map fun span => slice (closedUp front back) span.1 span.2 := by
  induction tests generalizing cursor with
  | nil =>
      refine ⟨?_, rfl⟩
      rw [gapsOf, List.map_nil, gaps, gaps, drop_moved hcursor]
  | cons span tests ih =>
      obtain ⟨hspan, htests⟩ := List.forall_mem_cons.mp h
      obtain ⟨hspan', htests'⟩ := List.forall_mem_cons.mp h'
      obtain ⟨hgaps, hmap⟩ := ih hspan' htests htests'
      refine ⟨?_, ?_⟩
      · rw [gapsOf_cons, gaps, hgaps, testOf, slice_filled, if_neg (by simp only; omega)]
      · rw [List.map_cons, List.map_cons, hmap, testOf, slice_filled, if_neg (by omega)]

/-- **The body lies in one piece**, between two tests or in a test, and the other pieces are the
same for all bodies. -/
lemma exists_pieces (front back : List Char) (hcursor : cursor ≤ front.length)
    (hlt : ∀ span ∈ tests, span.1 < span.2)
    (hordered : tests.Pairwise fun earlier later => earlier.2 ≤ later.1) :
    (∃ around earlier later pieces, ∀ body,
      gapsOf front back body cursor tests =
          earlier ++ Surrounding.fill around (slashed body) :: later ∧
        tests.map (testOf front back body) = pieces) ∨
    ∃ around earlier later pieces, ∀ body,
      gapsOf front back body cursor tests = pieces ∧
        tests.map (testOf front back body) =
          earlier ++ Surrounding.fill around (slashed body) :: later := by
  induction tests generalizing cursor with
  | nil =>
      refine Or.inl ⟨⟨front.drop cursor, back⟩, [], [], [], fun body => ⟨?_, rfl⟩⟩
      rw [gapsOf, List.map_nil, gaps, moved_of_le hcursor, drop_filled_of_le hcursor]
      simp [Surrounding.fill, slashed]
  | cons span tests ih =>
      obtain ⟨hspan, htests⟩ := List.forall_mem_cons.mp hlt
      obtain ⟨hfirst, hrest⟩ := List.pairwise_cons.mp hordered
      have hbehind (h : front.length < span.2) (body : List Char) :=
        @pieces_of_lt front back body tests span.2 h
          (fun later hmem => h.trans_le (hfirst later hmem))
          (fun later hmem => (h.trans_le (hfirst later hmem)).trans (htests later hmem))
      rcases Nat.lt_or_ge front.length span.1 with h | h
      · -- in front of the first test
        have h' : front.length < span.2 := h.trans hspan
        refine Or.inl ⟨⟨front.drop cursor, back.take (span.1 - (front.length + 1))⟩, [],
          gaps (closedUp front back) span.2 tests,
          (span :: tests).map fun span => slice (closedUp front back) span.1 span.2,
          fun body => ⟨?_, ?_⟩⟩
        · rw [gapsOf_cons, (hbehind h' body).1, testOf, slice_filled, if_pos ⟨hcursor, h⟩]
          rfl
        · rw [List.map_cons, (hbehind h' body).2, testOf, slice_filled, if_neg (by omega)]
          rfl
      · have hgap (body : List Char) : testOf front back body (cursor, span.1) =
            slice (closedUp front back) cursor span.1 := by
          rw [testOf, slice_filled, if_neg (by simp only; omega)]
        rcases Nat.lt_or_ge front.length span.2 with h' | h'
        · -- in the first test
          refine Or.inr ⟨⟨front.drop span.1, back.take (span.2 - (front.length + 1))⟩, [],
            tests.map fun span => slice (closedUp front back) span.1 span.2,
            slice (closedUp front back) cursor span.1 :: gaps (closedUp front back) span.2 tests,
            fun body => ⟨?_, ?_⟩⟩
          · rw [gapsOf_cons, hgap, (hbehind h' body).1]
          · rw [List.map_cons, (hbehind h' body).2, testOf, slice_filled, if_pos ⟨h, h'⟩]
            rfl
        · -- behind the first test
          have htest (body : List Char) : testOf front back body span =
              slice (closedUp front back) span.1 span.2 := by
            rw [testOf, slice_filled, if_neg (by omega)]
          rcases ih h' htests hrest with ⟨around, earlier, later, pieces, hpieces⟩ |
            ⟨around, earlier, later, pieces, hpieces⟩
          · refine Or.inl ⟨around, slice (closedUp front back) cursor span.1 :: earlier, later,
              slice (closedUp front back) span.1 span.2 :: pieces, fun body => ⟨?_, ?_⟩⟩
            · rw [gapsOf_cons, hgap, (hpieces body).1]
              rfl
            · rw [List.map_cons, htest, (hpieces body).2]
          · refine Or.inr ⟨around, slice (closedUp front back) span.1 span.2 :: earlier, later,
              slice (closedUp front back) cursor span.1 :: pieces, fun body => ⟨?_, ?_⟩⟩
            · rw [gapsOf_cons, hgap, (hpieces body).1]
            · rw [List.map_cons, htest, (hpieces body).2]
              rfl

/-! ### The set-up -/

/-- The lines of a text around a word without line breaks. -/
lemma exists_lines_around (front back : List Char) :
    ∃ before start stop after, ∀ word : List Char, word.head? = some '/' →
      (∀ c ∈ word, isLineBreak c = false) →
      splitLines (front ++ (word ++ back)) = before ++ (start ++ (word ++ stop)) :: after := by
  obtain ⟨before, start, hlines⟩ := exists_lines_append front (c := '/') (by decide)
  -- the line that is open at the end of a word
  obtain ⟨stop, after, hstop⟩ : ∃ stop after, ∀ word : List Char, word ≠ [] →
      (∀ c ∈ word, isLineBreak c = false) →
      splitLines (word ++ back) = (word ++ stop) :: after := by
    refine ⟨(splitLines back).headD [], (splitLines back).tail, fun word hne hword => ?_⟩
    induction word with
    | nil => exact absurd rfl hne
    | cons c word ih =>
        obtain ⟨hc, hword⟩ := List.forall_mem_cons.mp hword
        rw [List.cons_append, splitLines_cons hc]
        by_cases hnil : word = []
        · rw [hnil, List.nil_append]
          cases splitLines back <;> rfl
        · rw [ih hnil hword]
          rfl
  refine ⟨before, start, stop, after, fun word hhead hword => ?_⟩
  obtain ⟨rest, rfl⟩ := List.head?_eq_some_iff.mp hhead
  exact hlines (rest ++ back) _ _ (hstop ('/' :: rest) (List.cons_ne_nil _ _) hword)

/-- Lines that are put together around a word. -/
lemma exists_joinLines_around (earlier later : List (List Char)) (start stop : List Char) :
    ∃ around, ∀ word, joinLines (earlier ++ (start ++ (word ++ stop)) :: later) =
      Surrounding.fill around word := by
  -- what follows the word does not depend on it
  obtain ⟨back, hback⟩ : ∃ back, ∀ word, joinLines ((start ++ (word ++ stop)) :: later) =
      start ++ (word ++ back) := by
    refine ⟨joinLines (stop :: later), fun word => ?_⟩
    rw [joinLines_append_cons, joinLines_append_cons]
  by_cases hearlier : earlier = []
  · refine ⟨⟨start, back⟩, fun word => ?_⟩
    rw [hearlier, List.nil_append, hback]
    rfl
  · refine ⟨⟨joinLines earlier ++ '\n' :: start, back⟩, fun word => ?_⟩
    rw [Suite.joinLines_append hearlier (List.cons_ne_nil _ _), hback]
    simp [Surrounding.fill]

/-- The body of a stretch between slashes, in a line that white space is left out behind. -/
lemma gatherLine_slashed (start stop body : List Char) :
    gatherLine (start ++ (slashed body ++ stop)) =
      [start ++ (slashed body ++ trimEnd stop)] := by
  have hplain : EndsPlain (slashed body) :=
    ⟨'/', by rw [slashed, ← List.cons_append, List.getLast?_concat], by decide⟩
  have hblank : allBlank (slashed body ++ stop) = false :=
    not_allBlank (List.mem_append_left _ List.mem_cons_self) (by decide : isBlank '/' = false)
  have htrim : trimEnd (slashed body ++ stop) = slashed body ++ trimEnd stop := by
    rw [trimEnd_append]
    split_ifs with hstop
    · have hnil : trimEnd stop = [] := (trimEnd_append [] stop).trans (if_pos hstop)
      rw [hnil, List.append_nil, trimEnd_eq_self hplain]
    · rfl
  have hline : allBlank (start ++ (slashed body ++ stop)) = false := by
    rw [allBlank, List.all_append, ← allBlank, ← allBlank, hblank, Bool.and_false]
  rw [gatherLine, hline, if_neg Bool.false_ne_true, trimEnd_append, hblank,
    if_neg Bool.false_ne_true, htrim]

/-- A line break in a set-up is a line feed. -/
lemma eq_lineFeed_of_mem_setup {pieces : List (List Char)}
    (hc : c ∈ joinLines (setupLines pieces)) (hbreak : isLineBreak c = true) : c = '\n' := by
  rcases Layout.mem_intercalate hc with hc | ⟨line, hline, hc⟩
  · exact hc
  · obtain ⟨line', hline', rfl⟩ := List.mem_map.mp hline
    obtain ⟨piece, -, hmem⟩ := List.mem_flatMap.mp (List.mem_filter.mp hline').1
    rw [not_isLineBreak_of_mem hmem c (trimEnd_subset line' hc)] at hbreak
    exact absurd hbreak Bool.false_ne_true

/-- The set-up around a piece that holds the body: at a line break it would be cut, and put together
again with a line feed. -/
lemma exists_setup_around (earlier later : List (List Char)) (around : Surrounding) :
    ∃ around' : Surrounding, ∀ body, '\n' ∉ body →
      (joinLines (setupLines (earlier ++ around.fill (slashed body) :: later)) =
        around'.fill (slashed body) ↔ ∀ c ∈ body, isLineBreak c = false) := by
  obtain ⟨before, start, stop, after, hlines⟩ := exists_lines_around around.before around.after
  obtain ⟨around', hjoin⟩ := exists_joinLines_around
    (earlier.flatMap (fun piece => (splitLines piece).flatMap gatherLine) ++
      before.flatMap gatherLine)
    (after.flatMap gatherLine ++
      later.flatMap fun piece => (splitLines piece).flatMap gatherLine) start (trimEnd stop)
  refine ⟨around', fun body hfeed => ⟨fun hsetup c hc => ?_, fun hbody => ?_⟩⟩
  · have hmem : c ∈ around'.fill (slashed body) := by
      simp [Surrounding.fill, slashed, hc]
    by_contra hbreak
    rw [← hsetup] at hmem
    obtain rfl := eq_lineFeed_of_mem_setup hmem (Bool.not_eq_false _ ▸ hbreak)
    exact hfeed hc
  · have hword : ∀ c ∈ slashed body, isLineBreak c = false := by
      intro c hc
      rcases List.mem_cons.mp hc with rfl | hc
      · decide
      · rcases List.mem_append.mp hc with hc | hc
        · exact hbody c hc
        · obtain rfl := List.mem_singleton.mp hc
          decide
    rw [← hjoin, setupLines_eq, List.flatMap_append, List.flatMap_cons, Surrounding.fill,
      hlines _ rfl hword, List.flatMap_append, List.flatMap_cons, gatherLine_slashed]
    simp only [List.append_assoc, List.cons_append, List.nil_append]

/-! ### The form -/

/-- The place is in the set-up. -/
def Form.InSetup : Form → Prop
  | .inSetup .. => True
  | .inTest .. => False

/-- A script is taken apart as a form says. Its set-up is the one of the form unless it holds the
body and the body holds a line break: there the set-up is cut, and put together again with a line
feed. -/
structure Form.Holds (form : Form) (body : List Char) (parts : Parts) : Prop where
  tests_eq : parts.tests = (form.fill (slashed body)).tests
  nested_eq : parts.nested = (form.fill (slashed body)).nested
  setup_eq_iff : parts.setup = (form.fill (slashed body)).setup ↔
    (form.InSetup → ∀ c ∈ body, isLineBreak c = false)

/-- **Scripts with their code at the same places are taken apart alike.** -/
lemma exists_form (front back : List Char) (hps : ∀ p ∈ ps, p.1 ≠ front.length)
    (hsome : ∃ body, code (filled front body back) = ps.map fun p => (moved front body p.1, p.2)) :
    ∃ form : Form, ∀ body, '\n' ∉ body →
      code (filled front body back) = (ps.map fun p => (moved front body p.1, p.2)) →
        form.Holds body (split (filled front body back)) := by
  obtain ⟨first, hfirst⟩ := hsome
  set run := ps.foldl (Splitter.read (closedUp front back)) {} with hrun
  set tests := run.found.reverse with htests
  have hspans (body : List Char)
      (hcode : code (filled front body back) = ps.map fun p => (moved front body p.1, p.2)) :
      spans (filled front body back) =
        tests.map (Prod.map (moved front body) (moved front body)) := by
    rw [spans, run_filled hcode hps, Splitter.moved, ← List.map_reverse]
  have hsplit (body : List Char)
      (hcode : code (filled front body back) = ps.map fun p => (moved front body p.1, p.2)) :
      split (filled front body back) = ⟨joinLines (setupLines (gapsOf front back body 0 tests)),
        tests.map (testOf front back body), run.nested⟩ := by
    rw [split, hspans body hcode, run_filled hcode hps, List.map_map]
    rfl
  -- the tests of one of the scripts are in order, and their positions with them
  have horder := inOrder_spans (filled front first back)
  rw [hspans first hfirst] at horder
  have hlt : ∀ span ∈ tests, span.1 < span.2 := fun span hspan =>
    moved_lt_iff.mp (horder.bounds _ (List.mem_map_of_mem hspan)).1
  have hordered : tests.Pairwise fun earlier later => earlier.2 ≤ later.1 :=
    (List.pairwise_map.mp horder.ordered).imp fun h => moved_le_iff.mp h.2
  rcases exists_pieces front back (Nat.zero_le front.length) hlt hordered with
    ⟨around, earlier, later, pieces, hpieces⟩ | ⟨around, earlier, later, pieces, hpieces⟩
  · obtain ⟨around', hsetup⟩ := exists_setup_around earlier later around
    refine ⟨.inSetup around' pieces run.nested, fun body hfeed hcode => ?_⟩
    rw [hsplit body hcode, (hpieces body).1, (hpieces body).2]
    exact ⟨rfl, rfl, (hsetup body hfeed).trans ⟨fun h _ => h, fun h => h trivial⟩⟩
  · refine ⟨.inTest (joinLines (setupLines pieces)) earlier around later run.nested,
      fun body _ hcode => ?_⟩
    rw [hsplit body hcode, (hpieces body).1, (hpieces body).2]
    exact ⟨rfl, rfl, iff_of_true rfl False.elim⟩

end RequestSuite.Script
