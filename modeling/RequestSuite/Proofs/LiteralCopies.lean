/-
Literals of a script in the test file.

* `shifted`, `gathered`, `indented`: what becomes of a literal when lines are indented, gathered in
  the set-up, and put into a callback;
* `shifted_eq_iff`, `setup_copy_eq_iff`: it stays as it is exactly if it holds no line break;
* `Emission`: where a statement or test of a script is emitted, and what becomes of a literal in it
  there;
* `Emission.infix_file`, `Emission.infix_piece`: the emitted pieces are in the file, and the
  literals in them;
* `literal_kept_iff`: a literal appears in each place exactly if it holds no line break.
-/
import RequestSuite.Proofs.Literals

namespace RequestSuite.Script

open Text

variable {text test setup word : List Char} {quote : Char} {start stop first last : ℕ}

/-! ### Lines of scripts -/

/-- Lines behind a margin. Blank lines may go. -/
lemma rework_margin {margin : List Char} {move : List Char → List Char}
    (hmargin : ∀ c ∈ margin, isLineBreak c = false)
    (hmove : ∀ line, move line = margin ++ line ∨ allBlank line = true ∧ move line = []) :
    Rework (fun line => [move line]) margin id where
  eq line h := by
    rcases hmove line with hline | ⟨hblank, -⟩
    · exact congrArg (fun line => [line]) hline
    · rw [h] at hblank
      cases hblank
  keep_append _ _ _ := rfl
  keep_prefix _ _ _ := List.prefix_append _ _
  keep_eq _ _ := rfl
  keep_subset _ := List.Subset.refl _
  no_break line h line' hline' c hc := by
    rw [List.mem_singleton.mp hline'] at hc
    rcases hmove line with hline | ⟨-, hline⟩ <;> rw [hline] at hc
    · rcases List.mem_append.mp hc with hc | hc
      · exact hmargin c hc
      · exact h c hc
    · cases hc

/-- What becomes of a line in an indented text. -/
def shiftLine (level : ℕ) (line : List Char) : List Char :=
  if allBlank line then [] else List.replicate (2 * level) ' ' ++ line

/-- What becomes of a text inside an indented text. -/
def shifted (level : ℕ) (text : List Char) : List Char :=
  reworked (fun line => [shiftLine level line]) id text

lemma rework_shiftLine (level : ℕ) :
    Rework (fun line => [shiftLine level line]) (List.replicate (2 * level) ' ') id := by
  refine rework_margin (fun c hc => ?_) fun line => ?_
  · rw [List.eq_of_mem_replicate hc]
    rfl
  · rw [shiftLine]
    split_ifs with h
    · exact Or.inr ⟨h, rfl⟩
    · exact Or.inl rfl

/-- What becomes of a text inside a set-up that is put into a callback. -/
def indented (text : List Char) : List Char := reworked (fun line => [indent ++ line]) id text

lemma rework_indent : Rework (fun line => [indent ++ line]) indent id :=
  rework_margin (by decide) fun _ => Or.inl rfl

/-- What becomes of a line in a set-up. -/
def gatherLine (line : List Char) : List (List Char) := if allBlank line then [] else [trimEnd line]

/-- What becomes of a text inside the pieces of a set-up. -/
def gathered (text : List Char) : List Char := reworked gatherLine trimEnd text

/-- White space left out at the end of two texts. -/
lemma trimEnd_append (front back : List Char) :
    trimEnd (front ++ back) = if allBlank back then trimEnd front else front ++ trimEnd back := by
  have hblank : (back.reverse.dropWhile isBlank).isEmpty = allBlank back := by
    rw [Bool.eq_iff_iff, List.isEmpty_iff, ← trimStart, ← all_blank_iff_trimStart, allBlank,
      allBlank, List.all_reverse]
  rw [trimEnd, dropEndWhile, List.reverse_append, List.dropWhile_append, hblank]
  split_ifs
  · rfl
  · rw [List.reverse_append, List.reverse_reverse]
    rfl

lemma trimEnd_eq_self (h : EndsPlain text) : trimEnd text = text := by
  obtain ⟨c, hlast, hc⟩ := h
  obtain ⟨init, rfl⟩ := List.getLast?_eq_some_iff.mp hlast
  have hone : trimEnd [c] = [c] := by simp [trimEnd, dropEndWhile, hc]
  rw [trimEnd_append, if_neg (by simp [allBlank, hc]), hone]

lemma trimEnd_subset (text : List Char) : trimEnd text ⊆ text := by
  intro c hc
  rw [trimEnd, dropEndWhile, List.mem_reverse] at hc
  exact List.mem_reverse.mp ((List.dropWhile_sublist _).subset hc)

lemma rework_gatherLine : Rework gatherLine [] trimEnd where
  eq line h := by
    rw [gatherLine, h]
    rfl
  keep_append front back h := by
    rw [trimEnd_append, h]
    rfl
  keep_prefix front back h := by
    rw [trimEnd_append]
    split_ifs
    · exact List.prefix_rfl
    · rw [trimEnd_eq_self h]
      exact List.prefix_append _ _
  keep_eq _ h := trimEnd_eq_self h
  keep_subset := trimEnd_subset
  no_break line h line' hline' c hc := by
    rw [gatherLine] at hline'
    split_ifs at hline'
    · cases hline'
    · rw [List.mem_singleton.mp hline'] at hc
      exact h c (trimEnd_subset line hc)

/-! ### Whether a literal stays as it is -/

lemma shifted_eq_iff (hword : Trimmed word) {level : ℕ} (hlevel : level ≠ 0) :
    shifted level word = word ↔ ∀ c ∈ word, isLineBreak c = false := by
  refine ⟨fun heq => ?_, reworked_eq_self (rework_shiftLine level) hword⟩
  by_contra hbreak
  push Not at hbreak
  have hlines := two_le_length_splitLines hword.stop (by simpa using hbreak)
  exact ((rework_shiftLine level).moves hword hlines).ne (by simpa using hlevel) heq

/-- A text in the set-up of a test stays as it is exactly if it holds no line break. -/
lemma setup_copy_eq_iff (hword : Trimmed word) :
    shifted 1 (indented (gathered word)) = word ↔ ∀ c ∈ word, isLineBreak c = false := by
  constructor
  · intro heq
    by_contra hbreak
    push Not at hbreak
    have hgathered := rework_gatherLine.moves hword
      (two_le_length_splitLines hword.stop (by simpa using hbreak))
    have hindented := rework_indent.moves hgathered.trimmed hgathered.several
    have hshifted := (rework_shiftLine 1).moves hindented.trimmed hindented.several
    exact ((hgathered.trans hindented).trans hshifted).ne (by decide) heq
  · intro h
    have hgathered : gathered word = word := reworked_eq_self rework_gatherLine hword h
    have hindented : indented word = word := reworked_eq_self rework_indent hword h
    rw [hgathered, hindented]
    exact reworked_eq_self (rework_shiftLine 1) hword h

/-! ### Texts in set-ups and tests -/

/-- The lines of a set-up, piece by piece. -/
lemma setupLines_eq (pieces : List (List Char)) :
    setupLines pieces = pieces.flatMap fun piece => (splitLines piece).flatMap gatherLine := by
  rw [setupLines, ← List.flatMap_assoc]
  generalize pieces.flatMap splitLines = lines
  induction lines with
  | nil => rfl
  | cons line lines ih =>
      rw [List.flatMap_cons, ← ih, gatherLine, List.filter_cons]
      cases allBlank line <;> rfl

lemma infix_setup {gap : List Char} (hword : Trimmed word) (hgap : gap ∈ gaps text 0 (spans text))
    (h : word <:+: gap) : gathered word <:+: (split text).setup := by
  obtain ⟨before, after, hpieces⟩ := List.append_of_mem hgap
  obtain ⟨c, rest, hne, -⟩ := (rework_gatherLine.trimmed hword).start
  rw [split, hpieces, setupLines_eq, List.flatMap_append, List.flatMap_cons, ← List.append_assoc]
  exact infix_joinLines (hne ▸ List.cons_ne_nil c rest)
    (infix_reworked rework_gatherLine hword h).1 _ _

/-- A text of the set-up in a test with an inline callback. -/
lemma infix_inject_setup (hword : Trimmed word) (h : word <:+: setup)
    (hcallback : callback test ≠ .missing) : indented word <:+: inject test setup := by
  have hlines := (infix_reworked rework_indent hword h).1
  rw [← List.map_eq_flatMap] at hlines
  rw [inject]
  split_ifs with hempty
  · obtain ⟨c, rest, rfl, -⟩ := hword.start
    rw [List.isEmpty_iff.mp hempty] at h
    exact absurd (List.infix_nil.mp h) (by simp)
  · cases hplace : callback test with
    | missing => exact absurd hplace hcallback
    | block brace =>
        exact (hlines.trans (List.suffix_cons '\n' _).isInfix).trans
          ((List.suffix_append _ _).isInfix.trans (List.prefix_append _ _).isInfix)
    | expression start stop =>
        simp only [List.append_assoc]
        exact ((hlines.trans (List.prefix_append _ _).isInfix).trans
          (List.suffix_append _ _).isInfix).trans (List.suffix_append _ _).isInfix

/-- A test ends with its closing parenthesis or with the semicolon after it. -/
lemma getLast?_test {span : ℕ × ℕ} (h : span ∈ spans text) :
    (slice text span.1 span.2).getLast? = some ')' ∨
      (slice text span.1 span.2).getLast? = some ';' := by
  obtain ⟨-, close, hcloses, hend⟩ := isTest_of_mem_spans h
  have hclose : text[close]? = some ')' := getElem?_of_mem_code hcloses.mem_code
  have hlt := hcloses.lt
  have hlast : text[span.2 - 1]? = some ')' ∨ text[span.2 - 1]? = some ';' := by
    rw [hend, testEnd]
    split_ifs with hsemi
    · refine Or.inr ?_
      rw [List.head?_drop, List.getElem?_drop] at hsemi
      rw [← hsemi]
      congr 1
      omega
    · exact Or.inl hclose
  have hle : span.2 ≤ text.length := by
    rcases hlast with hlast | hlast <;>
    · have := (List.getElem?_eq_some_iff.mp hlast).1
      omega
  have := lt_testEnd text close
  rwa [getLast?_slice (by omega) hle]

/-- Characters left out at the start of a text do not change its end, if that is none of them. -/
lemma getLast?_dropWhile {p : Char → Bool} {c : Char} (hlast : text.getLast? = some c)
    (hc : p c = false) : (text.dropWhile p).getLast? = some c := by
  rw [← List.takeWhile_append_dropWhile (p := p) (l := text), List.getLast?_append] at hlast
  cases hdropped : (text.dropWhile p).getLast? with
  | some d => rwa [hdropped] at hlast
  | none =>
      rw [hdropped, Option.none_or] at hlast
      have hskipped := List.all_eq_true.mp List.all_takeWhile c (List.mem_of_getLast? hlast)
      rw [hc] at hskipped
      cases hskipped

/-- A set-up goes in front of the end of a test. -/
lemma getLast?_inject {c : Char} (hlast : test.getLast? = some c) (hc : isBlank c = false)
    (hbrace : c ≠ '\x7b') (setup : List Char) : (inject test setup).getLast? = some c := by
  have hdrop {i : ℕ} (hi : i < test.length) : (test.drop i).getLast? = some c := by
    rw [List.getLast?_drop, if_neg (by omega), hlast]
  rw [inject]
  split_ifs
  · exact hlast
  · cases hcallback : callback test with
    | missing => exact hlast
    | block brace =>
        have hget := getElem?_of_callback_block hcallback
        have hlt := (List.getElem?_eq_some_iff.mp hget).1
        have hne : brace + 1 ≠ test.length := by
          intro heq
          rw [List.getLast?_eq_getElem?, ← heq, Nat.add_sub_cancel, hget,
            Option.some.injEq] at hlast
          exact hbrace hlast.symm
        have hspace : (c == ' ') = false := by
          rw [beq_eq_false_iff_ne]
          rintro rfl
          cases hc
        have hrest : ((test.drop (brace + 1)).dropWhile (· == ' ')).getLast? = some c :=
          getLast?_dropWhile (hdrop (by omega)) hspace
        simp only
        rw [List.getLast?_append]
        split_ifs
        · rw [hrest]
          rfl
        · rw [List.getLast?_cons, hrest]
          rfl
    | expression start stop =>
        obtain ⟨-, d, hmem, -⟩ := edges_of_callback_expression hcallback
        have hget : test[stop]? = some d := getElem?_of_mem_code hmem
        simp only
        rw [List.getLast?_append, hdrop (List.getElem?_eq_some_iff.mp hget).1]
        rfl

/-- A test starts and ends with no white space, also with a set-up in it. -/
lemma trimmed_inject {span : ℕ × ℕ} (h : span ∈ spans text) (setup : List Char) :
    Trimmed (inject (slice text span.1 span.2) setup) := by
  constructor
  · have hhead : (inject (slice text span.1 span.2) setup).head? = some 'i' :=
      head?_inject (head?_of_mem_spans h)
    obtain ⟨rest, hrest⟩ := List.head?_eq_some_iff.mp hhead
    exact ⟨'i', rest, hrest, rfl⟩
  · rcases getLast?_test h with hlast | hlast
    · exact ⟨_, getLast?_inject hlast rfl (by decide) setup, rfl⟩
    · exact ⟨_, getLast?_inject hlast rfl (by decide) setup, rfl⟩

lemma slice_slice (hfirst : first ≤ start) (hlast : stop ≤ last) :
    slice (slice text first last) (start - first) (stop - first) = slice text start stop := by
  rw [slice, slice, slice, List.drop_take, List.drop_drop, List.take_take]
  congr 1
  · omega
  · congr 1
    omega

end RequestSuite.Script

namespace RequestSuite.Suite

open Text Script

variable {enhanced : Bool} {request : Request} {depth : ℕ} {parent script : Option String}
  {adaptation : Adaptation} {adapted text piece copy : List Char} {quote : Char} {start stop : ℕ}

/-- A piece of some texts with a text between each two. -/
lemma infix_intercalate {gap : List Char} {pieces : List (List Char)} (h : piece ∈ pieces) :
    piece <:+: List.intercalate gap pieces := by
  obtain ⟨first, others, rfl⟩ := List.exists_cons_of_ne_nil (List.ne_nil_of_mem h)
  rw [intercalate_cons]
  rcases List.mem_cons.mp h with rfl | h
  · exact (List.prefix_append _ _).isInfix
  · have hpiece : gap ++ piece <:+: others.flatMap fun text => gap ++ text := infix_flatMap h
    exact ((List.suffix_append gap piece).isInfix.trans hpiece).trans
      (List.suffix_append _ _).isInfix

/-! ### Literals of the stripped script -/

/-- The number of line feeds in front of an adapted script. -/
def feeds (adapted : List Char) : ℕ := (adapted.takeWhile (· == '\n')).length

/-- The script without the line feeds at its ends, and those line feeds. -/
lemma exists_line_feeds (adapted : List Char) :
    ∃ tail, adapted = adapted.takeWhile (· == '\n') ++ (scriptText adapted ++ tail) ∧
      ∀ c ∈ tail, c = '\n' := by
  set rest := adapted.dropWhile (· == '\n') with hrest
  refine ⟨(rest.reverse.takeWhile (· == '\n')).reverse, ?_, fun c hc => ?_⟩
  · rw [scriptText, ← hrest, dropEndWhile, ← List.reverse_append, List.takeWhile_append_dropWhile,
      List.reverse_reverse, hrest, List.takeWhile_append_dropWhile]
  · exact beq_iff_eq.mp (List.all_eq_true.mp List.all_takeWhile c (List.mem_reverse.mp hc))

/-- Behind the line feeds in front of it, a script is read as from its start. -/
lemma stateAt_feeds (adapted : List Char) : stateAt adapted (feeds adapted) = {} := by
  have hfeeds : ∀ feeds : List Char, (∀ c ∈ feeds, c = '\n') → ∀ after,
      State.through {} after feeds = {} := by
    intro feeds h after
    induction feeds with
    | nil => rfl
    | cons c feeds ih =>
        obtain ⟨rfl, hfeeds⟩ := List.forall_mem_cons.mp h
        rw [State.through]
        exact ih hfeeds
  have htake : adapted.take (feeds adapted) = adapted.takeWhile (· == '\n') :=
    List.prefix_iff_eq_take.mp (List.takeWhile_prefix _) |>.symm
  rw [stateAt, htake]
  exact hfeeds _ (fun c hc => beq_iff_eq.mp (List.all_eq_true.mp List.all_takeWhile c hc)) _

/-- A literal of an adapted script, in the script without the line feeds at its ends. -/
lemma literal_scriptText (h : IsLiteral adapted quote start stop) :
    IsLiteral (scriptText adapted) quote (start - feeds adapted) (stop - feeds adapted) ∧
      slice (scriptText adapted) (start - feeds adapted) (stop - feeds adapted) =
        slice adapted start stop := by
  have hlt := h.lt
  have hquote : quote ≠ '\n' := by
    rintro rfl
    exact absurd h.quote_mem (by decide)
  obtain ⟨tail, hadapted, htail⟩ := exists_line_feeds adapted
  have hscript : scriptText adapted =
      slice adapted (feeds adapted) (feeds adapted + (scriptText adapted).length) := by
    have hdrop : adapted.drop (feeds adapted) = scriptText adapted ++ tail := by
      have hdrop := congrArg (List.drop (feeds adapted)) hadapted
      exact hdrop.trans (List.drop_left' rfl)
    rw [slice, hdrop, Nat.add_sub_cancel_left, List.take_left' rfl]
  have hfeeds : feeds adapted ≤ start := by
    by_contra hlate
    have hget := h.start_eq
    rw [hadapted, List.getElem?_append_left (by rw [← feeds]; omega)] at hget
    have hmem := List.all_eq_true.mp List.all_takeWhile quote (List.mem_of_getElem? hget)
    exact hquote (beq_iff_eq.mp hmem)
  have hlast : stop ≤ feeds adapted + (scriptText adapted).length := by
    by_contra hlate
    have hget := h.stop_eq
    rw [hadapted, List.getElem?_append_right (by rw [← feeds]; omega),
      List.getElem?_append_right (by rw [← feeds]; omega)] at hget
    exact hquote (htail quote (List.mem_of_getElem? hget))
  rw [hscript]
  refine ⟨h.in_slice hfeeds hlast fun after k _ => ?_, slice_slice hfeeds hlast⟩
  rw [stateAt_feeds]

/-! ### Places in the file -/

/-- Where the statement or test that holds a literal is emitted: a piece of the file, and what
becomes of the literal in it. -/
inductive Emission (script : Option String) (text : List Char) (start stop : ℕ) :
    List Char → List Char → Prop
  /-- The script stands as a whole beside the default test. -/
  | beside (h : KeptBeside script text) :
      Emission script text start stop (indentBlock 1 text).toList
        (shifted 1 (slice text start stop))
  /-- The script stands as a whole inside the default test. -/
  | inside (hbeside : ¬ KeptBeside script text) (hapart : ¬ TakenApart script text) :
      Emission script text start stop (indentBlock 2 text).toList
        (shifted 2 (slice text start stop))
  /-- The test that holds the literal. -/
  | test (hapart : TakenApart script text) {span : ℕ × ℕ} (hspan : span ∈ spans text)
      (hl : span.1 < start) (hr : stop ≤ span.2) :
      Emission script text start stop
        (shifted 1 (inject (slice text span.1 span.2) (split text).setup))
        (shifted 1 (slice text start stop))
  /-- A test with an inline callback. The statement goes into it. -/
  | setup (hapart : TakenApart script text) {span : ℕ × ℕ} (hspan : span ∈ spans text)
      (hcallback : callback (slice text span.1 span.2) ≠ .missing)
      (hout : ∀ span ∈ spans text, stop ≤ span.1 ∨ span.2 ≤ start) :
      Emission script text start stop
        (shifted 1 (inject (slice text span.1 span.2) (split text).setup))
        (shifted 1 (indented (gathered (slice text start stop))))

/-- A text inside an indented one. -/
lemma infix_indentBlock {word : List Char} (hword : Trimmed word) (h : word <:+: text)
    (level : ℕ) : shifted level word <:+: (indentBlock level text).toList := by
  have hblock : (indentBlock level text).toList =
      joinLines ((splitLines text).flatMap fun line => [shiftLine level line]) := by
    rw [indentBlock, toList_joinedLines, List.map_map, ← List.map_eq_flatMap]
    refine congrArg joinLines (List.map_congr_left fun line _ => ?_)
    rw [Function.comp_apply, shiftLine]
    split_ifs
    · rfl
    · rw [String.toList_append, indentation, String.toList_ofList, String.toList_ofList]
  rw [hblock]
  exact (infix_reworked (rework_shiftLine level) hword h).1

/-- The emitted pieces stand in the file. -/
lemma Emission.infix_file (hadapted : adaptation.fellBack = false)
    (h : Emission request.script (scriptText adaptation.text) start stop piece copy) :
    piece <:+: (testText enhanced request depth parent adaptation).toList := by
  have htests {span : ℕ × ℕ} (hapart : TakenApart request.script (scriptText adaptation.text))
      (hspan : span ∈ spans (scriptText adaptation.text)) :
      shifted 1 (inject (slice (scriptText adaptation.text) span.1 span.2)
        (split (scriptText adaptation.text)).setup) <:+:
        (testText enhanced request depth parent adaptation).toList := by
    have hpiece : inject (slice (scriptText adaptation.text) span.1 span.2)
        (split (scriptText adaptation.text)).setup ∈
        (split (scriptText adaptation.text)).tests.map fun block =>
          inject block (split (scriptText adaptation.text)).setup :=
      List.mem_map_of_mem (List.mem_map_of_mem hspan)
    exact (infix_indentBlock (trimmed_inject hspan _) (infix_intercalate hpiece) 1).trans
      (infix_of_takenApart hadapted hapart)
  cases h with
  | beside h => exact infix_of_keptBeside hadapted h
  | inside hbeside hapart => exact infix_of_keptInside hadapted hbeside hapart
  | test hapart hspan => exact htests hapart hspan
  | setup hapart hspan => exact htests hapart hspan

/-- The literal stands in each piece. -/
lemma Emission.infix_piece (hliteral : IsLiteral text quote start stop)
    (h : Emission script text start stop piece copy) : copy <:+: piece := by
  have hword := hliteral.trimmed
  have hwhole : slice text start stop <:+: text := infix_drop (Nat.zero_le start)
  cases h with
  | beside => exact infix_indentBlock hword hwhole 1
  | inside => exact infix_indentBlock hword hwhole 2
  | test hapart hspan hl hr =>
      have htest := (hliteral.in_test hspan hl hr).infix_inject (split text).setup
      rw [slice_slice hl.le hr] at htest
      exact (infix_reworked (rework_shiftLine 1) hword htest).2
  | setup hapart hspan hcallback hout =>
      have hlt := hliteral.lt
      obtain ⟨gap, hgap, hinfix⟩ := exists_gap (Nat.zero_le start) (by omega) hout
      have hgathered : Trimmed (gathered (slice text start stop)) :=
        rework_gatherLine.trimmed hword
      have hindented : Trimmed (indented (gathered (slice text start stop))) :=
        rework_indent.trimmed hgathered
      have htest := infix_inject_setup hgathered (infix_setup hword hgap hinfix) hcallback
      exact (infix_reworked (rework_shiftLine 1) hindented htest).2

lemma Emission.copy_eq_iff (hliteral : IsLiteral text quote start stop)
    (h : Emission script text start stop piece copy) :
    copy = slice text start stop ↔ ∀ c ∈ slice text start stop, isLineBreak c = false := by
  cases h with
  | setup => exact setup_copy_eq_iff hliteral.trimmed
  | _ => exact shifted_eq_iff hliteral.trimmed (by decide)

/-- Every literal is emitted, unless no test of a script that is taken apart has an inline callback
to which the statement that holds it can go. -/
lemma exists_emission (hliteral : IsLiteral text quote start stop) :
    (∃ piece copy, Emission script text start stop piece copy) ∨
      TakenApart script text ∧ (∀ span ∈ spans text, stop ≤ span.1 ∨ span.2 ≤ start) ∧
        ∀ test ∈ (split text).tests, callback test = .missing := by
  by_cases hapart : TakenApart script text
  · by_cases hin : ∃ span ∈ spans text, span.1 < start ∧ stop ≤ span.2
    · obtain ⟨span, hspan, hl, hr⟩ := hin
      exact Or.inl ⟨_, _, .test hapart hspan hl hr⟩
    · have hout : ∀ span ∈ spans text, stop ≤ span.1 ∨ span.2 ≤ start := fun span hspan =>
        (hliteral.in_or_out hspan).resolve_left fun h => hin ⟨span, hspan, h⟩
      by_cases hcallback : ∃ span ∈ spans text, callback (slice text span.1 span.2) ≠ .missing
      · obtain ⟨span, hspan, hcallback⟩ := hcallback
        exact Or.inl ⟨_, _, .setup hapart hspan hcallback hout⟩
      · refine Or.inr ⟨hapart, hout, fun test htest => ?_⟩
        obtain ⟨span, hspan, rfl⟩ := List.mem_map.mp htest
        by_contra h
        exact hcallback ⟨span, hspan, h⟩
  · by_cases hbeside : KeptBeside script text
    · exact Or.inl ⟨_, _, .beside hbeside⟩
    · exact Or.inl ⟨_, _, .inside hbeside hapart⟩

/-- **A literal of an adapted script appears character for character wherever the statement or test
that holds it is emitted, exactly if it holds no line break.** -/
theorem literal_kept_iff (hadapted : adaptation.fellBack = false)
    (h : IsLiteral adaptation.text quote start stop) :
    let text := scriptText adaptation.text
    let first := start - feeds adaptation.text
    let last := stop - feeds adaptation.text
    (∀ piece copy, Emission request.script text first last piece copy →
      piece <:+: (testText enhanced request depth parent adaptation).toList ∧ copy <:+: piece ∧
        (copy = slice adaptation.text start stop ↔
          ∀ c ∈ slice adaptation.text start stop, isLineBreak c = false)) ∧
      ((∃ piece copy, Emission request.script text first last piece copy) ∨
        TakenApart request.script text ∧ (∀ span ∈ spans text, last ≤ span.1 ∨ span.2 ≤ first) ∧
          ∀ test ∈ (split text).tests, callback test = .missing) := by
  intro text first last
  obtain ⟨hliteral, hslice⟩ := literal_scriptText h
  refine ⟨fun piece copy hemission => ?_, exists_emission hliteral⟩
  rw [← hslice]
  exact ⟨hemission.infix_file hadapted, hemission.infix_piece hliteral,
    hemission.copy_eq_iff hliteral⟩

/-- A request whose script has one string in front of a test and another one in it. -/
def plainStringsRequest : Request :=
  { name := "Same", url := "/same",
    script := some "const id = 'a1';\npm.test(\"same\", () => id === \"a1\");" }

/-- Its adapted script. -/
def plainStringsText : List Char := "const id = 'a1';\nit(\"same\", () => id === \"a1\");".toList

/-- Both strings appear in the file. -/
theorem plain_strings_kept :
    (adapt (plainStringsRequest.script.map String.toList)).text = plainStringsText ∧
      "'a1'".toList <:+:
        (testText true plainStringsRequest 0 none ⟨plainStringsText, false⟩).toList ∧
      "\"a1\"".toList <:+:
        (testText true plainStringsRequest 0 none ⟨plainStringsText, false⟩).toList := by
  have hapart : TakenApart plainStringsRequest.script (scriptText plainStringsText) :=
    ⟨by decide +kernel, by decide +kernel, by decide +kernel⟩
  have hspan : (17, 47) ∈ spans (scriptText plainStringsText) := by decide +kernel
  have hsingle : IsLiteral plainStringsText '\'' 11 15 := by decide +kernel
  have hdouble : IsLiteral plainStringsText '"' 41 45 := by decide +kernel
  refine ⟨by decide +kernel, ?_, ?_⟩
  · have hkept := @literal_kept_iff true plainStringsRequest 0 none ⟨plainStringsText, false⟩ _ _ _
      rfl hsingle
    obtain ⟨hfile, hpiece, hcopy⟩ :=
      hkept.1 _ _ (.setup hapart hspan (by decide +kernel) (by decide +kernel))
    rw [hcopy.mpr (by decide +kernel)] at hpiece
    exact hpiece.trans hfile
  · have hkept := @literal_kept_iff true plainStringsRequest 0 none ⟨plainStringsText, false⟩ _ _ _
      rfl hdouble
    obtain ⟨hfile, hpiece, hcopy⟩ :=
      hkept.1 _ _ (.test hapart hspan (by decide +kernel) (by decide +kernel))
    rw [hcopy.mpr (by decide +kernel)] at hpiece
    exact hpiece.trans hfile

/-- A request whose script has a template with two lines. -/
def templateRequest : Request :=
  { name := "Lines", url := "/lines",
    script := some "pm.test(\"lines\", () => `a\nb`);" }

/-- Its adapted script. -/
def templateText : List Char := "it(\"lines\", () => `a\nb`);".toList

/-- The template is not in the file: its second line has been moved. -/
theorem template_line_moved :
    (adapt (templateRequest.script.map String.toList)).text = templateText ∧
      IsLiteral templateText '`' 18 23 ∧ slice templateText 18 23 = "`a\nb`".toList ∧
      ¬ "`a\nb`".toList <:+:
        (testText false templateRequest 0 none ⟨templateText, false⟩).toList := by
  refine ⟨by decide +kernel, by decide +kernel, by decide +kernel, ?_⟩
  rw [testText, toList_joinedLines]
  decide +kernel

end RequestSuite.Suite
