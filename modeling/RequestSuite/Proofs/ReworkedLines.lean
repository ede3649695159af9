/-
Words of a text whose lines are reworked.

* `splitLines_joinLines`: lines that are put together and taken apart again;
* `exists_lines_append`, `Extends`: the lines of a text that stands inside another one;
* `Trimmed`: a text with no white space at its ends;
* `Rework`: a way to rework lines that keeps what is in them;
* `reworked`, `infix_reworked`: what becomes of a trimmed text inside a text whose lines are
  reworked;
* `reworked_eq_self`, `Rework.moves`: it stays as it is if it holds no line break, and otherwise its
  last line is moved.
-/
import RequestSuite.Proofs.FileText

namespace RequestSuite.Text

open Suite (joinLines_singleton joinLines_append)

variable {c : Char} {word text front back line : List Char} {lines lines' : List (List Char)}

/-! ### Taking apart and putting together -/

lemma splitLines_cons (hc : isLineBreak c = false) (text : List Char) :
    splitLines (c :: text) = consFirst c (splitLines text) := by
  rw [splitLines]
  · rw [if_neg (by simp [hc])]
  · rintro rest rfl -
    exact absurd hc (by decide)

lemma splitLines_break (hc : isLineBreak c = true)
    (hne : ∀ rest, c = '\r' → text = '\n' :: rest → False) :
    splitLines (c :: text) = [] :: splitLines text := by
  rw [splitLines, if_pos hc]
  exact hne

lemma splitLines_lineFeed (text : List Char) : splitLines ('\n' :: text) = [] :: splitLines text :=
  splitLines_break rfl fun _ h => absurd h (by decide)

lemma splitLines_ne_nil (h : text ≠ []) : splitLines text ≠ [] := by
  fun_induction splitLines text with
  | case1 => exact absurd rfl h
  | case4 c cs _ hc ih => cases splitLines cs <;> simp [consFirst]
  | _ => simp

/-- A line, and what follows it after a line feed. -/
lemma splitLines_line (h : ∀ c ∈ line, isLineBreak c = false) (text : List Char) :
    splitLines (line ++ '\n' :: text) = line :: splitLines text := by
  induction line with
  | nil => exact splitLines_lineFeed text
  | cons c line ih =>
      obtain ⟨hc, hline⟩ := List.forall_mem_cons.mp h
      rw [List.cons_append, splitLines_cons hc, ih hline]
      rfl

/-- A text without line breaks is one line. -/
lemma splitLines_single (h : ∀ c ∈ line, isLineBreak c = false) (hne : line ≠ []) :
    splitLines line = [line] := by
  induction line with
  | nil => exact absurd rfl hne
  | cons c line ih =>
      obtain ⟨hc, hline⟩ := List.forall_mem_cons.mp h
      rw [splitLines_cons hc]
      by_cases hnil : line = []
      · rw [hnil]
        rfl
      · rw [ih hline hnil]
        rfl

/-- Lines that are put together are found again, unless the last one is empty. -/
lemma splitLines_joinLines (h : ∀ line ∈ lines, ∀ c ∈ line, isLineBreak c = false)
    (hlast : lines.getLast? ≠ some []) : splitLines (joinLines lines) = lines := by
  induction lines with
  | nil => rfl
  | cons line lines ih =>
      obtain ⟨hline, hlines⟩ := List.forall_mem_cons.mp h
      cases lines with
      | nil =>
          rw [joinLines_singleton]
          exact splitLines_single hline (by rintro rfl; exact hlast rfl)
      | cons next lines =>
          rw [Suite.joinLines_cons_cons, splitLines_line hline,
            ih hlines (by rwa [List.getLast?_cons_cons] at hlast)]

/-- The lines of a text behind another one: the first of them is put behind the line that is open
there. -/
lemma exists_lines_append (front : List Char) (hc : isLineBreak c = false) :
    ∃ before start, ∀ text line lines, splitLines (c :: text) = line :: lines →
      splitLines (front ++ c :: text) = before ++ (start ++ line) :: lines := by
  fun_induction splitLines front with
  | case1 => exact ⟨[], [], fun text line lines h => h⟩
  | case2 cs ih =>
      obtain ⟨before, start, ih⟩ := ih
      refine ⟨[] :: before, start, fun text line lines h => ?_⟩
      rw [List.cons_append, List.cons_append, splitLines, ih text line lines h, List.cons_append]
  | case3 d cs hne hd ih =>
      obtain ⟨before, start, ih⟩ := ih
      refine ⟨[] :: before, start, fun text line lines h => ?_⟩
      rw [List.cons_append, splitLines_break hd, ih text line lines h, List.cons_append]
      rintro rest rfl hrest
      cases cs with
      | nil =>
          obtain rfl : c = '\n' := by simpa using congrArg List.head? hrest
          exact absurd hc (by decide)
      | cons e cs =>
          obtain rfl : e = '\n' := by simpa using congrArg List.head? hrest
          exact hne cs rfl rfl
  | case4 d cs hne hd ih =>
      obtain ⟨before, start, ih⟩ := ih
      cases before with
      | nil =>
          refine ⟨[], d :: start, fun text line lines h => ?_⟩
          rw [List.cons_append, splitLines_cons (by simpa using hd), ih text line lines h]
          rfl
      | cons first before =>
          refine ⟨(d :: first) :: before, start, fun text line lines h => ?_⟩
          rw [List.cons_append, splitLines_cons (by simpa using hd), ih text line lines h]
          rfl

/-- Lines that go on: the last one is longer, and more may follow it. -/
inductive Extends : List (List Char) → List (List Char) → Prop
  | last (line more : List Char) (others : List (List Char)) :
      Extends [line] ((line ++ more) :: others)
  | cons (line : List Char) {lines lines' : List (List Char)} (h : Extends lines lines') :
      Extends (line :: lines) (line :: lines')

lemma Extends.consFirst (h : Extends lines lines') (c : Char) :
    Extends (consFirst c lines) (consFirst c lines') := by
  cases h with
  | last line more others => exact .last (c :: line) more others
  | cons line h => exact .cons (c :: line) h

/-- The lines of a text go on with what follows it. -/
lemma extends_splitLines (hlast : ∃ d, text.getLast? = some d ∧ isLineBreak d = false)
    (back : List Char) : Extends (splitLines text) (splitLines (text ++ back)) := by
  have hrest {d : Char} {cs : List Char} (hd : isLineBreak d = true)
      (hlast : ∃ e, (d :: cs).getLast? = some e ∧ isLineBreak e = false) :
      ∃ e es, cs = e :: es ∧ ∃ e, cs.getLast? = some e ∧ isLineBreak e = false := by
    cases cs with
    | nil => simp [hd] at hlast
    | cons e es => exact ⟨e, es, rfl, by simpa [List.getLast?_cons_cons] using hlast⟩
  fun_induction splitLines text with
  | case1 => simp at hlast
  | case2 cs ih =>
      obtain ⟨-, -, -, hlast⟩ := hrest rfl hlast
      obtain ⟨-, -, -, hlast⟩ := hrest rfl hlast
      rw [List.cons_append, List.cons_append, splitLines]
      exact .cons [] (ih hlast)
  | case3 d cs hne hd ih =>
      obtain ⟨e, es, rfl, hlast⟩ := hrest hd hlast
      rw [List.cons_append, splitLines_break hd]
      · exact .cons [] (ih hlast)
      · rintro rest rfl hes
        obtain ⟨rfl, -⟩ := List.cons.inj hes
        exact hne es rfl rfl
  | case4 d cs hne hd ih =>
      rw [List.cons_append, splitLines_cons (by simpa using hd)]
      cases cs with
      | nil =>
          rw [List.nil_append]
          cases splitLines back with
          | nil => exact .last [d] [] []
          | cons line lines => exact .last [d] line lines
      | cons e es => exact (ih (by simpa [List.getLast?_cons_cons] using hlast)).consFirst d

/-! ### Trimmed texts -/

/-- A text that ends with a character that is not white space. -/
def EndsPlain (text : List Char) : Prop := ∃ c, text.getLast? = some c ∧ isBlank c = false

/-- A text that neither starts nor ends with white space. -/
structure Trimmed (text : List Char) : Prop where
  start : ∃ c rest, text = c :: rest ∧ isBlank c = false
  stop : EndsPlain text

lemma not_allBlank (h : c ∈ text) (hc : isBlank c = false) : allBlank text = false := by
  rw [Bool.eq_false_iff, allBlank, Ne, List.all_eq_true]
  exact fun hall => by simp [hall c h] at hc

lemma EndsPlain.not_allBlank (h : EndsPlain text) : allBlank text = false := by
  obtain ⟨c, hlast, hc⟩ := h
  exact Text.not_allBlank (List.mem_of_getLast? hlast) hc

lemma isLineBreak_of_not_blank (h : isBlank c = false) : isLineBreak c = false := by
  cases hbreak : isLineBreak c with
  | false => rfl
  | true => rw [isBlank_of_isLineBreak hbreak] at h; cases h

/-- Leaving out white space at the start of a text leaves a trimmed text in it as it is. -/
lemma infix_dropWhile (hword : Trimmed word) {p : Char → Bool}
    (hp : ∀ c, isBlank c = false → p c = false) (h : word <:+: text) :
    word <:+: text.dropWhile p := by
  obtain ⟨c, rest, rfl, hc⟩ := hword.start
  obtain ⟨front, back, rfl⟩ := h
  rw [List.append_assoc, List.dropWhile_append]
  split_ifs
  · rw [List.cons_append, List.dropWhile_cons_of_neg (by simp [hp c hc])]
    exact (List.prefix_append (c :: rest) back).isInfix
  · exact ⟨front.dropWhile p, back, List.append_assoc _ _ _⟩

lemma Trimmed.reverse (h : Trimmed word) : Trimmed word.reverse := by
  obtain ⟨⟨c, rest, rfl, hc⟩, d, hlast, hd⟩ := h
  obtain ⟨init, hinit⟩ := List.getLast?_eq_some_iff.mp hlast
  refine ⟨⟨d, init.reverse, by rw [hinit, List.reverse_concat], hd⟩, c, by simp, hc⟩

lemma infix_trim (hword : Trimmed word) (h : word <:+: text) : word <:+: trim text := by
  have hstart : word <:+: trimStart text := infix_dropWhile hword (fun _ h => h) h
  have hreverse := infix_dropWhile hword.reverse (fun _ h => h) (List.reverse_infix.mpr hstart)
  rw [trim, trimEnd, dropEndWhile, ← List.reverse_infix, List.reverse_reverse]
  exact hreverse

/-! ### Reworked lines -/

/-- A way to rework lines, which may put `margin` in front of a line and leave out white space at
its end, where `keep` is what stays of it. Only of blank lines nothing has to stay. -/
structure Rework (rework : List Char → List (List Char)) (margin : List Char)
    (keep : List Char → List Char) : Prop where
  eq : ∀ line, allBlank line = false → rework line = [margin ++ keep line]
  keep_append : ∀ front back, allBlank back = false → keep (front ++ back) = front ++ keep back
  keep_prefix : ∀ front back, EndsPlain front → keep front <+: keep (front ++ back)
  keep_eq : ∀ line, EndsPlain line → keep line = line
  keep_subset : ∀ line, keep line ⊆ line
  /-- A line stays without line breaks. -/
  no_break : ∀ line, (∀ c ∈ line, isLineBreak c = false) →
    ∀ line' ∈ rework line, ∀ c ∈ line', isLineBreak c = false

/-- What becomes of a text whose lines are reworked and whose first line has something in front of
it. -/
def reworked (rework : List Char → List (List Char)) (keep : List Char → List Char)
    (text : List Char) : List Char :=
  match splitLines text with
  | [] => []
  | line :: lines => joinLines (keep line :: lines.flatMap rework)

lemma reworked_eq {rework : List Char → List (List Char)} {keep : List Char → List Char}
    (h : splitLines text = line :: lines) :
    reworked rework keep text = joinLines (keep line :: lines.flatMap rework) := by
  rw [reworked, h]

/-- A trimmed text of several lines whose last line is that of another text behind a margin. -/
structure Moves (margin word word' : List Char) : Prop where
  trimmed : Trimmed word'
  several : 2 ≤ (splitLines word').length
  last : ∃ line, (splitLines word).getLast? = some line ∧
    (splitLines word').getLast? = some (margin ++ line)

lemma Moves.trans {margin margin' word' word'' : List Char} (h : Moves margin word word')
    (h' : Moves margin' word' word'') : Moves (margin' ++ margin) word word'' := by
  obtain ⟨line, hline, hmoved⟩ := h.last
  obtain ⟨line', hline', hmoved'⟩ := h'.last
  obtain rfl := Option.some.inj (hmoved.symm.trans hline')
  exact ⟨h'.trimmed, h'.several, line, hline, by rw [hmoved', List.append_assoc]⟩

lemma Moves.ne {margin word' : List Char} (h : Moves margin word word') (hmargin : margin ≠ []) :
    word' ≠ word := by
  rintro rfl
  obtain ⟨line, hline, hmoved⟩ := h.last
  rw [hline, Option.some.injEq, List.self_eq_append_left] at hmoved
  exact hmargin hmoved

/-- A text that ends with no white space and has a line break has several lines. -/
lemma two_le_length_splitLines (hplain : EndsPlain text) (h : ∃ c ∈ text, isLineBreak c = true) :
    2 ≤ (splitLines text).length := by
  have hrest {d : Char} {cs : List Char} (hd : isLineBreak d = true) (h : EndsPlain (d :: cs)) :
      cs ≠ [] := by
    rintro rfl
    obtain ⟨e, he, hplain⟩ := h
    obtain rfl : d = e := by simpa using he
    rw [isLineBreak_of_not_blank hplain] at hd
    cases hd
  have hlines {cs : List Char} (hcs : cs ≠ []) : 1 ≤ (splitLines cs).length :=
    List.length_pos_iff.mpr (splitLines_ne_nil hcs)
  fun_induction splitLines text with
  | case1 => simp at h
  | case2 cs ih =>
      have hcs : cs ≠ [] := by
        rintro rfl
        obtain ⟨e, he, hplain⟩ := hplain
        obtain rfl : '\n' = e := by simpa using he
        cases hplain
      simpa using hlines hcs
  | case3 d cs _ hd ih => simpa using hlines (hrest hd hplain)
  | case4 d cs _ hd ih =>
      obtain ⟨e, he, hbreak⟩ := h
      have hmem : e ∈ cs := by
        rcases List.mem_cons.mp he with rfl | he
        · exact absurd hbreak hd
        · exact he
      obtain ⟨e', es, rfl⟩ := List.exists_cons_of_ne_nil (List.ne_nil_of_mem hmem)
      have htail := ih (by simpa [EndsPlain, List.getLast?_cons_cons] using hplain)
        ⟨e, hmem, hbreak⟩
      generalize splitLines (e' :: es) = lines at htail ⊢
      cases lines with
      | nil => simp at htail
      | cons line lines => simpa [consFirst] using htail

lemma joinLines_append_cons (front line : List Char) (lines : List (List Char)) :
    joinLines ((front ++ line) :: lines) = front ++ joinLines (line :: lines) := by
  cases lines with
  | nil => rw [joinLines_singleton, joinLines_singleton]
  | cons next lines =>
      rw [Suite.joinLines_cons_cons, Suite.joinLines_cons_cons, List.append_assoc]

lemma prefix_joinLines (h : front <+: line) (lines : List (List Char)) :
    front <+: joinLines (line :: lines) := by
  obtain ⟨back, rfl⟩ := h
  rw [joinLines_append_cons]
  exact List.prefix_append _ _

/-- Lines in front of lines that start a text. -/
lemma prefix_joinLines_append (before : List (List Char)) (hne : lines ≠ []) (hne' : lines' ≠ [])
    (h : joinLines lines <+: joinLines lines') :
    joinLines (before ++ lines) <+: joinLines (before ++ lines') := by
  by_cases hbefore : before = []
  · rwa [hbefore]
  · rw [joinLines_append hbefore hne, joinLines_append hbefore hne', List.prefix_append_right_inj,
      List.cons_prefix_cons]
    exact ⟨rfl, h⟩

lemma suffix_joinLines_append (before : List (List Char)) (hne : lines ≠ []) :
    joinLines lines <:+ joinLines (before ++ lines) := by
  by_cases hbefore : before = []
  · rw [hbefore]
    exact List.suffix_rfl
  · rw [joinLines_append hbefore hne]
    exact (List.suffix_cons _ _).trans (List.suffix_append _ _)

/-- A text in some lines, with others around them. -/
lemma infix_joinLines (hne : text ≠ []) (h : text <:+: joinLines lines)
    (before after : List (List Char)) : text <:+: joinLines (before ++ lines ++ after) := by
  have hlines : lines ≠ [] := by
    rintro rfl
    exact hne (List.infix_nil.mp h)
  have hfront : joinLines (before ++ lines) <+: joinLines (before ++ lines ++ after) := by
    by_cases hafter : after = []
    · rw [hafter, List.append_nil]
    · rw [joinLines_append (by simp [hlines]) hafter]
      exact List.prefix_append _ _
  exact (h.trans (suffix_joinLines_append before hlines).isInfix).trans hfront.isInfix

lemma exists_first_line (hc : isLineBreak c = false) (text : List Char) :
    ∃ line lines, splitLines (c :: text) = (c :: line) :: lines := by
  rw [splitLines_cons hc]
  cases splitLines text with
  | nil => exact ⟨[], [], rfl⟩
  | cons line lines => exact ⟨line, lines, rfl⟩

lemma exists_last_line (h : EndsPlain text) :
    ∃ line, (splitLines text).getLast? = some line ∧ EndsPlain line := by
  obtain ⟨d, hlast, hd⟩ := h
  obtain ⟨init, rfl⟩ := List.getLast?_eq_some_iff.mp hlast
  obtain ⟨before, start, hlines⟩ := exists_lines_append init (isLineBreak_of_not_blank hd)
  rw [hlines [] [d] [] (splitLines_single (by simpa using isLineBreak_of_not_blank hd) (by simp))]
  exact ⟨start ++ [d], by simp, d, by simp, hd⟩

/-- Lines are a trimmed text if the first of them starts and the last one ends with no white
space. -/
lemma trimmed_joinLines (hstart : [c] <+: line) (hc : isBlank c = false)
    (hstop : EndsPlain word) (lines : List (List Char)) :
    Trimmed (joinLines ((line :: lines) ++ [word])) := by
  constructor
  · obtain ⟨text, htext⟩ := prefix_joinLines hstart (lines ++ [word])
    exact ⟨c, text, by rw [List.cons_append, ← htext]; rfl, hc⟩
  · obtain ⟨text, htext⟩ := suffix_joinLines_append (line :: lines) (List.cons_ne_nil word [])
    obtain ⟨d, hd, hplain⟩ := hstop
    refine ⟨d, ?_, hplain⟩
    rw [← htext, joinLines_singleton, List.getLast?_append, hd]
    rfl

section

variable {rework : List Char → List (List Char)} {margin : List Char}
  {keep : List Char → List Char} (hrework : Rework rework margin keep)
include hrework

lemma Rework.ne_nil (h : ∃ line ∈ lines, allBlank line = false) : lines.flatMap rework ≠ [] := by
  obtain ⟨line, hmem, hline⟩ := h
  intro hnil
  have := List.flatMap_eq_nil_iff.mp hnil line hmem
  rw [hrework.eq line hline] at this
  cases this

/-- Lines that go on, once they are reworked. -/
lemma Extends.prefix (h : Extends lines lines')
    (hlast : ∃ line, lines.getLast? = some line ∧ EndsPlain line) :
    joinLines (lines.flatMap rework) <+: joinLines (lines'.flatMap rework) ∧
      lines.flatMap rework ≠ [] ∧ lines'.flatMap rework ≠ [] := by
  induction h with
  | last line more others =>
      obtain ⟨last, hlast, hplain⟩ := hlast
      obtain rfl : line = last := by simpa using hlast
      have hline := hplain.not_allBlank
      have hmore : allBlank (line ++ more) = false := by
        rw [allBlank, List.all_append]
        rw [allBlank] at hline
        rw [hline, Bool.false_and]
      rw [List.flatMap_cons, List.flatMap_cons, List.flatMap_nil, hrework.eq _ hline,
        hrework.eq _ hmore]
      refine ⟨prefix_joinLines ?_ _, by simp, by simp⟩
      rw [List.append_nil, joinLines_singleton, List.prefix_append_right_inj]
      exact hrework.keep_prefix line more hplain
  | cons line h ih =>
      obtain ⟨hstarts, hne, hne'⟩ := ih (by
        obtain ⟨last, hlast, hplain⟩ := hlast
        cases h <;> exact ⟨last, by simpa [List.getLast?_cons_cons] using hlast, hplain⟩)
      rw [List.flatMap_cons, List.flatMap_cons]
      exact ⟨prefix_joinLines_append _ hne hne' hstarts, by simp [hne], by simp [hne']⟩

/-- The first line of lines that go on, and the others once they are reworked. -/
lemma Extends.prefix_keep {line' : List Char} (h : Extends (line :: lines) (line' :: lines'))
    (hlast : ∃ last, (line :: lines).getLast? = some last ∧ EndsPlain last) :
    joinLines (keep line :: lines.flatMap rework) <+:
      joinLines (keep line' :: lines'.flatMap rework) := by
  obtain ⟨last, hlast, hplain⟩ := hlast
  cases h with
  | last line more others =>
      obtain rfl : line = last := by simpa using hlast
      refine prefix_joinLines ?_ _
      rw [List.flatMap_nil, joinLines_singleton]
      exact hrework.keep_prefix line more hplain
  | cons line h =>
      have hlast' : ∃ last, lines.getLast? = some last ∧ EndsPlain last := by
        cases h <;> exact ⟨last, by simpa [List.getLast?_cons_cons] using hlast, hplain⟩
      obtain ⟨hstarts, hne, hne'⟩ := h.prefix hrework hlast'
      exact prefix_joinLines_append [keep line] hne hne' hstarts

/-- **What becomes of a trimmed text inside a text whose lines are reworked.** -/
theorem infix_reworked (hword : Trimmed word) (h : word <:+: text) :
    reworked rework keep word <:+: joinLines ((splitLines text).flatMap rework) ∧
      reworked rework keep word <:+: reworked rework keep text := by
  obtain ⟨c, rest, rfl, hc⟩ := hword.start
  obtain ⟨front, back, rfl⟩ := h
  have hbreak := isLineBreak_of_not_blank hc
  -- the lines of the word, of the word with what follows it, and of the whole text
  obtain ⟨line, lines, hlines⟩ := exists_first_line hbreak rest
  obtain ⟨line', lines', hlines'⟩ := exists_first_line hbreak (rest ++ back)
  obtain ⟨before, start, hsplit⟩ := exists_lines_append front hbreak
  have hextends : Extends ((c :: line) :: lines) ((c :: line') :: lines') := by
    obtain ⟨d, hlast, hd⟩ := hword.stop
    rw [← hlines, ← hlines']
    exact extends_splitLines ⟨d, hlast, isLineBreak_of_not_blank hd⟩ back
  have hstarts := hextends.prefix_keep hrework (hlines ▸ exists_last_line hword.stop)
  have hplain : allBlank (c :: line') = false := not_allBlank List.mem_cons_self hc
  have hplain' : allBlank (start ++ c :: line') = false := not_allBlank (by simp) hc
  have htext : splitLines (front ++ c :: rest ++ back) =
      before ++ (start ++ c :: line') :: lines' := by
    rw [List.append_assoc]
    exact hsplit _ _ _ hlines'
  have hkeep := hrework.keep_append start (c :: line') hplain
  have hmoved : joinLines (keep (c :: line') :: lines'.flatMap rework) <:+:
      joinLines (rework (start ++ c :: line') ++ lines'.flatMap rework) := by
    rw [hrework.eq _ hplain', hkeep, ← List.append_assoc, List.singleton_append,
      joinLines_append_cons]
    exact (List.suffix_append _ _).isInfix
  have hne : rework (start ++ c :: line') ++ lines'.flatMap rework ≠ [] := by
    rw [hrework.eq _ hplain']
    simp
  rw [reworked_eq hlines]
  constructor
  · rw [htext, List.flatMap_append, List.flatMap_cons]
    exact hstarts.isInfix.trans (hmoved.trans (suffix_joinLines_append _ hne).isInfix)
  · cases before with
    | nil =>
        rw [reworked_eq htext, hkeep, joinLines_append_cons]
        exact hstarts.isInfix.trans (List.suffix_append _ _).isInfix
    | cons first before =>
        rw [List.cons_append] at htext
        rw [reworked_eq htext, List.flatMap_append, List.flatMap_cons]
        exact hstarts.isInfix.trans (hmoved.trans
          (suffix_joinLines_append (keep first :: before.flatMap rework) hne).isInfix)

lemma reworked_eq_self (hword : Trimmed word) (h : ∀ c ∈ word, isLineBreak c = false) :
    reworked rework keep word = word := by
  obtain ⟨c, rest, rfl, hc⟩ := hword.start
  rw [reworked_eq (splitLines_single h (by simp)), List.flatMap_nil, joinLines_singleton,
    hrework.keep_eq _ hword.stop]

lemma Rework.not_isLineBreak (h : ∀ line ∈ lines, ∀ c ∈ line, isLineBreak c = false) :
    ∀ line ∈ lines.flatMap rework, ∀ c ∈ line, isLineBreak c = false := by
  intro line hline
  obtain ⟨line', hmem, hline⟩ := List.mem_flatMap.mp hline
  exact hrework.no_break line' (h line' hmem) line hline

/-- The lines of a trimmed text of several lines, once they are reworked: the last one stands behind
the margin. -/
lemma Rework.moves (hword : Trimmed word) (hlines : 2 ≤ (splitLines word).length) :
    Moves margin word (reworked rework keep word) := by
  obtain ⟨c, rest, rfl, hc⟩ := hword.start
  obtain ⟨line, lines, hsplit⟩ := exists_first_line (isLineBreak_of_not_blank hc) rest
  have hbreak : ∀ line' ∈ (c :: line) :: lines, ∀ d ∈ line', isLineBreak d = false := by
    rw [← hsplit]
    exact fun line' h => not_isLineBreak_of_mem h
  obtain ⟨last, hlast, hplain⟩ := exists_last_line hword.stop
  rw [hsplit] at hlast hlines
  obtain ⟨init, rfl⟩ : ∃ init, lines = init ++ [last] := by
    cases lines with
    | nil => simp at hlines
    | cons next lines => exact List.getLast?_eq_some_iff.mp (by simpa using hlast)
  -- the lines of the reworked text
  have htail : (init ++ [last]).flatMap rework = init.flatMap rework ++ [margin ++ last] := by
    rw [List.flatMap_append, List.flatMap_singleton, hrework.eq _ hplain.not_allBlank,
      hrework.keep_eq _ hplain]
  set moved := (keep (c :: line) :: init.flatMap rework) ++ [margin ++ last] with hmoved
  have htext : reworked rework keep (c :: rest) = joinLines moved := by
    rw [reworked_eq hsplit, htail, hmoved, List.cons_append]
  have hlast' : moved.getLast? = some (margin ++ last) := by rw [hmoved, List.getLast?_concat]
  have hstop : EndsPlain (margin ++ last) := by
    obtain ⟨d, hd, hplain⟩ := hplain
    exact ⟨d, by rw [List.getLast?_append, hd]; rfl, hplain⟩
  have hlines' : splitLines (joinLines moved) = moved := by
    refine splitLines_joinLines ?_ ?_
    · rw [hmoved, List.cons_append, ← htail]
      obtain ⟨hline, hrest⟩ := List.forall_mem_cons.mp hbreak
      exact List.forall_mem_cons.mpr
        ⟨fun d hd => hline d (hrework.keep_subset _ hd), hrework.not_isLineBreak hrest⟩
    · rw [hlast']
      obtain ⟨d, hd, -⟩ := hstop
      rintro hnil
      rw [Option.some.inj hnil] at hd
      cases hd
  have hstart : [c] <+: keep (c :: line) := by
    have hone : EndsPlain [c] := ⟨c, rfl, hc⟩
    have := hrework.keep_prefix [c] line hone
    rwa [hrework.keep_eq _ hone] at this
  rw [htext]
  exact ⟨trimmed_joinLines hstart hc hstop _, by rw [hlines', hmoved]; simp, last,
    by rw [hsplit, hlast], by rw [hlines', hlast']⟩

lemma Rework.trimmed (hword : Trimmed word) : Trimmed (reworked rework keep word) := by
  by_cases h : ∀ c ∈ word, isLineBreak c = false
  · rwa [reworked_eq_self hrework hword h]
  · push Not at h
    exact (hrework.moves hword (two_le_length_splitLines hword.stop (by simpa using h))).trimmed

end

end RequestSuite.Text
