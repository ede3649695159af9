/-
Scripts whose lines are moved.

* `Sound`, `Sound.through`: outside code no name is being read;
* `LineStart`: a place at which a line may start, and where white space changes nothing;
* `SameReading`: two texts are read alike from a place;
* `sameReading_lines`: lines that are moved, and blank ones that are emptied;
* `sameReading_indentBlock`: a text and the same text indented.
-/
import RequestSuite.Proofs.FileText
import RequestSuite.Proofs.References

namespace RequestSuite.Script

open Text (isBlank isLineBreak splitLines joinLines allBlank)

variable {s : State} {scope : Scope} {c : Char} {next after : Option Char}
  {text text' cs ds : List Char}

/-! ### Places -/

/-- A quotation mark is no white space, and outside code no name is being read. -/
structure Sound (s : State) (scope : Scope) : Prop where
  quote : ∀ q, s.mode = .quoted q ∨ s.mode = .quotedEscape q → isBlank q = false
  word : (∃ last, s.mode = .code last) ∨ scope.word = []

/-- What opens a literal or a comment is part of no name. -/
lemma not_nameChar_of_opened {last : Option Char} {mode : Mode}
    (h : opened? last c next = some mode) :
    isNameChar c = false ∧ ∀ q, mode = .quoted q ∨ mode = .quotedEscape q → isBlank q = false := by
  unfold opened? at h
  split_ifs at h with hq ht hs hl hc hr
  · simp only [Bool.or_eq_true, decide_eq_true_eq] at hq
    obtain rfl := Option.some.inj h
    refine ⟨by rcases hq with rfl | rfl <;> decide, fun q hmode => ?_⟩
    obtain rfl : c = q := by simpa using hmode
    rcases hq with rfl | rfl <;> rfl
  · obtain rfl := Option.some.inj h
    subst ht
    exact ⟨by decide, by simp⟩
  · obtain rfl := Option.some.inj h
    subst hs
    exact ⟨by decide, by simp⟩
  · obtain rfl := Option.some.inj h
    subst hs
    exact ⟨by decide, by simp⟩
  · obtain rfl := Option.some.inj h
    subst hs
    exact ⟨by decide, by simp⟩

/-- After a character of code comes code again, or the rest of a template. -/
lemma afterCode_mode (depths : List ℕ) (last : Option Char) (c : Char) :
    (∃ last', (afterCode depths last c).mode = .code last') ∨
      (afterCode depths last c).mode = .template ∧ isCloser c = true := by
  unfold afterCode
  cases depths with
  | nil => exact Or.inl ⟨_, rfl⟩
  | cons d ds =>
      simp only
      split_ifs with ho hc
      · exact Or.inl ⟨_, rfl⟩
      · cases d with
        | zero => exact Or.inr ⟨rfl, hc⟩
        | succ d => exact Or.inl ⟨_, rfl⟩
      · exact Or.inl ⟨_, rfl⟩

lemma Sound.step (h : Sound s scope) (c : Char) (next : Option Char) :
    Sound (s.step c next) (scope.scan (s.shown c next)) := by
  unfold State.step State.shown
  cases hreads : s.mode.readsCode? c with
  | some last =>
      simp only
      cases hopened : opened? last c next with
      | some mode =>
          obtain ⟨hname, hquote⟩ := not_nameChar_of_opened hopened
          refine ⟨hquote, Or.inr ?_⟩
          split
          · exact @word_read scope ' ' (by decide)
          · exact @word_read scope ' ' (by decide)
          · exact word_read hname
      | none =>
          simp only
          rcases afterCode_mode s.depths last c with ⟨last', hmode⟩ | ⟨hmode, hc⟩
          · exact ⟨fun q hq => by simp [hmode] at hq, Or.inl ⟨last', hmode⟩⟩
          · exact ⟨fun q hq => by simp [hmode] at hq,
              Or.inr (word_read (not_nameChar_of_bracket (Or.inr hc)).1)⟩
  | none =>
      have hword : scope.word = [] := by
        refine h.word.resolve_left ?_
        rintro ⟨last, hmode⟩
        simp [hmode, Mode.readsCode?] at hreads
      refine ⟨fun q hq => ?_, Or.inr ?_⟩
      · refine h.quote q ?_
        cases hmode : s.mode <;> rw [hmode] at hq <;> simp only [Mode.inside] at hq <;>
          (try split_ifs at hq) <;> simp_all
      · simp only
        split_ifs
        · exact @word_read scope '\x7b' (by decide)
        · exact hword

lemma Sound.through (h : Sound s scope) (after : Option Char) (cs : List Char) :
    Sound (s.through after cs) (scope.scan (s.skeleton after cs)) := by
  induction cs generalizing s scope with
  | nil => exact h
  | cons c cs ih =>
      rw [State.through, State.skeleton, scan_append]
      exact ih (h.step c _)

/-- A place at which a line may start: it is not in the middle of an escape or of a mark of two
signs, and no name is being read. -/
structure LineStart (s : State) (scope : Scope) : Prop extends Sound s scope where
  calm : (∃ last, s.mode = .code last) ∨ (∃ q, s.mode = .quoted q) ∨ s.mode = .template ∨
    (∃ last, s.mode = .comment last) ∨ ∃ inClass, s.mode = .regex inClass
  idle : scope.word = []

lemma lineStart_ready (regex : Bool) (h : scope.word = []) : LineStart (ready regex) scope where
  quote q hq := by simp [ready] at hq
  word := Or.inl ⟨_, rfl⟩
  calm := Or.inl ⟨_, rfl⟩
  idle := h

/-- White space is read as code where code is read. -/
lemma step_blank_of_readsCode {last : Option Char} (hc : isBlank c = true)
    (h : s.mode.readsCode? c = some last) (next : Option Char) :
    s.step c next = ⟨.code last, s.depths⟩ ∧ s.shown c next = [c] := by
  have hopened : opened? last c next = none := by
    unfold opened?
    split_ifs with hq ht hs hl
    · simp only [Bool.or_eq_true, decide_eq_true_eq] at hq
      rcases hq with rfl | rfl <;> exact absurd hc (by decide)
    · subst ht
      exact absurd hc (by decide)
    all_goals first
      | rfl
      | (subst hs; exact absurd hc (by decide))
  have hafter : afterCode s.depths last c = ⟨.code last, s.depths⟩ := by
    obtain ⟨hopener, hcloser⟩ := not_bracket_of_isBlank hc
    unfold afterCode
    cases s.depths <;> simp [hopener, hcloser, lastAfter, hc]
  unfold State.step State.shown
  rw [h]
  simp only [hopened, hafter, and_self]

/-- A line may start after a line feed. -/
lemma LineStart.of_lineFeed (h : Sound s scope) (next : Option Char) :
    LineStart (s.step '\n' next) (scope.scan (s.shown '\n' next)) := by
  cases hreads : s.mode.readsCode? '\n' with
  | some last =>
      obtain ⟨hstep, hshown⟩ := step_blank_of_readsCode rfl hreads next
      refine ⟨h.step '\n' next, Or.inl ⟨last, by rw [hstep]⟩, ?_⟩
      rw [hshown]
      exact @word_read scope '\n' (by decide)
  | none =>
      have hcode : ¬ ∃ last, s.mode = .code last := by
        rintro ⟨last, hmode⟩
        simp [hmode, Mode.readsCode?] at hreads
      refine ⟨h.step '\n' next, ?_, ?_⟩
      · unfold State.step
        rw [hreads]
        cases hmode : s.mode <;> simp_all [Mode.inside, Mode.readsCode?]
      · rcases (h.step '\n' next).word with ⟨last, hmode⟩ | hword
        · have hword := h.word.resolve_left hcode
          unfold State.shown
          rw [hreads]
          simp only
          split_ifs
          · exact @word_read scope '\x7b' (by decide)
          · exact hword
        · exact hword

/-- White space changes nothing where a line may start. -/
lemma LineStart.blank (h : LineStart s scope) (hc : isBlank c = true) (hn : c ≠ '\n')
    (next : Option Char) : s.step c next = s ∧ (s.shown c next = [] ∨ s.shown c next = [c]) := by
  obtain ⟨mode, depths⟩ := s
  have hne (d : Char) (hd : isBlank d = false) : c ≠ d := by
    rintro rfl
    rw [hc] at hd
    simp at hd
  rcases h.calm with ⟨last, hmode⟩ | ⟨q, hmode⟩ | hmode | ⟨last, hmode⟩ | ⟨inClass, hmode⟩ <;>
    obtain rfl : mode = _ := hmode
  · obtain ⟨hstep, hshown⟩ :=
      @step_blank_of_readsCode ⟨.code last, depths⟩ c last hc rfl next
    exact ⟨hstep, Or.inr hshown⟩
  · have hq : c ≠ q := hne q (h.quote q (Or.inl rfl))
    simp [State.step, State.shown, Mode.readsCode?, Mode.inside, hne '\\' rfl, hq, hn]
  · simp [State.step, State.shown, Mode.readsCode?, Mode.inside, hne '\\' rfl, hne '`' rfl,
      hne '$' rfl]
  · simp [State.step, State.shown, Mode.readsCode?, Mode.inside, hne '*' rfl]
  · cases inClass <;>
      simp [State.step, State.shown, Mode.readsCode?, Mode.inside, hn, hne '\\' rfl, hne ']' rfl,
        hne '[' rfl, hne '/' rfl]

/-! ### Moved lines -/

/-- Two texts are read alike from a place: they lead to the same place, leave the same brackets
open, and refer to the same variables. -/
structure SameReading (s : State) (scope : Scope) (text text' : List Char) : Prop where
  through : ∀ after, s.through after text = s.through after text'
  scan : ∀ after, scope.scan (s.skeleton after text) = scope.scan (s.skeleton after text')
  depth : ∀ after depth,
    depthAfter? depth (s.skeleton after text) = depthAfter? depth (s.skeleton after text')
  refers : ∀ after name, name ≠ [] →
    scope.refers name (s.skeleton after text) = scope.refers name (s.skeleton after text')

lemma SameReading.refl (s : State) (scope : Scope) (text : List Char) :
    SameReading s scope text text := ⟨fun _ => rfl, fun _ => rfl, fun _ _ => rfl, fun _ _ _ => rfl⟩

lemma SameReading.symm (h : SameReading s scope text text') : SameReading s scope text' text :=
  ⟨fun after => (h.through after).symm, fun after => (h.scan after).symm,
    fun after depth => (h.depth after depth).symm,
    fun after name hname => (h.refers after name hname).symm⟩

lemma blind_line (line : List Char) : Blind (line ++ ['\n']) := by
  intro c hc
  obtain rfl : '\n' = c := by simpa using hc
  decide

/-- Texts that do not look at what follows, one after another. -/
lemma SameReading.append (h : SameReading s scope text text') (hblind : Blind text)
    (hblind' : Blind text')
    (hrest : ∀ after,
      SameReading (s.through after text) (scope.scan (s.skeleton after text)) cs ds) :
    SameReading s scope (text ++ cs) (text' ++ ds) := by
  have hfollow (after after' : Option Char) : s.through after text' = s.through after' text := by
    rw [← h.through after, (State.through_blind hblind after after').1]
  have hskeleton (after after' : Option Char) : s.skeleton after text' = s.skeleton after' text' :=
    (State.through_blind hblind' after after').2
  refine ⟨fun after => ?_, fun after => ?_, fun after depth => ?_, fun after name hname => ?_⟩
  · rw [State.through_append s after text cs, State.through_append s after text' ds,
      hfollow _ (cs.head?.or after)]
    exact (hrest _).through after
  · rw [State.skeleton_append s after text cs, State.skeleton_append s after text' ds,
      scan_append, scan_append, hfollow _ (cs.head?.or after), hskeleton _ (cs.head?.or after),
      ← h.scan (cs.head?.or after)]
    exact (hrest _).scan after
  · rw [State.skeleton_append s after text cs, State.skeleton_append s after text' ds,
      depthAfter?_append, depthAfter?_append, hfollow _ (cs.head?.or after),
      hskeleton _ (cs.head?.or after), ← h.depth (cs.head?.or after)]
    exact Option.bind_congr fun d _ => (hrest _).depth after d
  · rw [State.skeleton_append s after text cs, State.skeleton_append s after text' ds,
      refers_append, refers_append, hfollow _ (cs.head?.or after),
      hskeleton _ (cs.head?.or after), ← h.refers (cs.head?.or after) name hname,
      ← h.scan (cs.head?.or after), (hrest _).refers after name hname]

/-- White space in front of a line. -/
lemma LineStart.sameReading_blanks (h : LineStart s scope) {blanks : List Char}
    (hblanks : ∀ c ∈ blanks, isBlank c = true ∧ c ≠ '\n') (line : List Char) :
    SameReading s scope (blanks ++ line) line := by
  induction blanks with
  | nil => exact .refl s scope line
  | cons c blanks ih =>
      obtain ⟨⟨hc, hn⟩, hblanks⟩ := List.forall_mem_cons.mp hblanks
      have ih := ih hblanks
      have hstep (next : Option Char) := h.blank hc hn next
      have hread : scope.read c = scope := by
        rw [Scope.read, if_pos hc, Scope.endName, h.idle]
        rfl
      obtain ⟨hopener, hcloser⟩ := not_bracket_of_isBlank hc
      refine ⟨fun after => ?_, fun after => ?_, fun after depth => ?_, fun after name hname => ?_⟩
      · rw [List.cons_append, State.through, (hstep _).1]
        exact ih.through after
      · rw [List.cons_append, State.skeleton, (hstep _).1, scan_append, ← ih.scan after]
        rcases (hstep ((blanks ++ line).head?.or after)).2 with hshown | hshown <;> rw [hshown]
        · rfl
        · exact congrArg (fun scope : Scope => scope.scan _) hread
      · rw [List.cons_append, State.skeleton, (hstep _).1, ← ih.depth after]
        rcases (hstep ((blanks ++ line).head?.or after)).2 with hshown | hshown <;> rw [hshown]
        · rfl
        · rw [List.singleton_append, depthAfter?_cons, if_neg (by simp [hcloser]),
            level_plain hopener hcloser]
      · have hends := ends_of_idle hname h.idle c
        rw [List.cons_append, State.skeleton, (hstep _).1, ← ih.refers after name hname]
        rcases (hstep ((blanks ++ line).head?.or after)).2 with hshown | hshown <;> rw [hshown]
        · rfl
        · rw [List.singleton_append, Scope.refers, hends, hread, Bool.false_or]

/-- How a line can be moved: white space is put in front of it, or it is blank and is emptied. -/
inductive Moved (line : List Char) : List Char → Prop
  | shifted {blanks : List Char} (h : ∀ c ∈ blanks, isBlank c = true ∧ c ≠ '\n') :
      Moved line (blanks ++ line)
  | emptied (h : ∀ c ∈ line, isBlank c = true ∧ c ≠ '\n') : Moved line []

lemma LineStart.sameReading (h : LineStart s scope) {line line' : List Char}
    (hmoved : Moved line line') : SameReading s scope (line ++ ['\n']) (line' ++ ['\n']) := by
  cases hmoved with
  | shifted hblanks =>
      have hsame := h.sameReading_blanks hblanks (line ++ ['\n'])
      rw [← List.append_assoc] at hsame
      exact hsame.symm
  | emptied hblanks => exact h.sameReading_blanks hblanks ['\n']

lemma LineStart.of_line (h : Sound s scope) (line : List Char) (after : Option Char) :
    LineStart (s.through after (line ++ ['\n']))
      (scope.scan (s.skeleton after (line ++ ['\n']))) := by
  rw [State.through_append, State.skeleton_append, scan_append]
  have hline := LineStart.of_lineFeed (h.through (some '\n') line) after
  simpa [State.through, State.skeleton] using hline

/-- **Lines that are moved are read as they were.** -/
lemma sameReading_lines (h : LineStart s scope) {move : List Char → List Char}
    {lines : List (List Char)} (hmove : ∀ line ∈ lines, Moved line (move line)) :
    SameReading s scope (lines.flatMap (· ++ ['\n'])) ((lines.map move).flatMap (· ++ ['\n'])) := by
  induction lines generalizing s scope with
  | nil => exact .refl s scope []
  | cons line lines ih =>
      obtain ⟨hline, hlines⟩ := List.forall_mem_cons.mp hmove
      exact (h.sameReading hline).append (blind_line _) (blind_line _)
        fun after => ih (.of_line h.toSound line after) hlines

/-! ### Moved texts -/

/-- A text whose lines end with line feeds, the last one excepted. -/
structure Lined (text : List Char) : Prop where
  break_eq : ∀ c ∈ text, isLineBreak c = true → c = '\n'
  last_ne : text.getLast? ≠ some '\n'

lemma Lined.of_append (front : List Char) (h : Lined (front ++ text)) : Lined text := by
  refine ⟨fun d hd => h.break_eq d (List.mem_append_right _ hd), fun hlast => h.last_ne ?_⟩
  have hne : text ≠ [] := by
    rintro rfl
    simp at hlast
  rwa [List.getLast?_append_of_ne_nil _ hne]

lemma Lined.of_cons (h : Lined (c :: text)) : Lined text := Lined.of_append [c] h

instance (text : List Char) : Decidable (Lined text) :=
  decidable_of_iff
    ((text.all fun c => !isLineBreak c || c == '\n') = true ∧ text.getLast? ≠ some '\n')
    ⟨fun h => ⟨fun c hc hbreak => by simpa [hbreak] using List.all_eq_true.mp h.1 c hc, h.2⟩,
      fun h => ⟨List.all_eq_true.mpr fun c hc => by
        cases hbreak : isLineBreak c with
        | false => rfl
        | true => simpa using h.break_eq c hc hbreak, h.last_ne⟩⟩

lemma Lined.of_all (h : (text.all fun c => !isLineBreak c) = true) :
    Lined text := by
  have hplain : ∀ c ∈ text, isLineBreak c = false := fun c hc => by
    simpa using List.all_eq_true.mp h c hc
  refine ⟨fun c hc hbreak => ?_, fun hlast => ?_⟩
  · rw [hplain c hc] at hbreak
    simp at hbreak
  · exact absurd (hplain '\n' (List.mem_of_getLast? hlast)) (by decide)

/-- Such a text is made of its lines. -/
lemma Lined.eq_lines (h : Lined text) (hne : text ≠ []) :
    text ++ ['\n'] = (splitLines text).flatMap (· ++ ['\n']) := by
  fun_induction splitLines text with
  | case1 => exact absurd rfl hne
  | case2 cs _ => exact absurd (h.break_eq '\r' List.mem_cons_self rfl) (by decide)
  | case3 c cs _ hc ih =>
      obtain rfl := h.break_eq c List.mem_cons_self hc
      have hcs : cs ≠ [] := by
        rintro rfl
        exact h.last_ne rfl
      rw [List.flatMap_cons, List.cons_append, ih h.of_cons hcs]
      rfl
  | case4 c cs _ hc ih =>
      cases cs with
      | nil => rfl
      | cons d cs =>
          have hline := ih h.of_cons (List.cons_ne_nil _ _)
          cases hsplit : splitLines (d :: cs) with
          | nil => simp [hsplit] at hline
          | cons line lines =>
              rw [hsplit] at hline
              rw [List.cons_append, hline]
              rfl

/-- Lines put together, with a line feed at the end. -/
lemma joinLines_concat {lines : List (List Char)} (h : lines ≠ []) :
    joinLines lines ++ ['\n'] = lines.flatMap (· ++ ['\n']) := by
  induction lines with
  | nil => exact absurd rfl h
  | cons line lines ih =>
      cases lines with
      | nil => simp [joinLines]
      | cons next lines =>
          rw [Suite.joinLines_cons_cons, List.append_assoc, List.cons_append,
            ih (List.cons_ne_nil _ _)]
          simp

/-- **A text is read as it was when its lines are moved.** -/
lemma sameReading_move (h : LineStart s scope) (htext : Lined text) {move : List Char → List Char}
    (hmove : ∀ line ∈ splitLines text, Moved line (move line)) :
    SameReading s scope (text ++ ['\n']) (joinLines ((splitLines text).map move) ++ ['\n']) := by
  by_cases hne : text = []
  · subst hne
    exact .refl s scope _
  · have hlines : splitLines text ≠ [] := by
      intro hnil
      have := htext.eq_lines hne
      rw [hnil] at this
      simp at this
    rw [htext.eq_lines hne, joinLines_concat (by simpa using hlines)]
    exact sameReading_lines h hmove

/-- A text is read as it was when it is indented. -/
lemma sameReading_indentBlock (h : LineStart s scope) (htext : Lined text) (level : ℕ) :
    SameReading s scope (text ++ ['\n']) ((Suite.indentBlock level text).toList ++ ['\n']) := by
  rw [Suite.indentBlock, Suite.toList_joinedLines, List.map_map]
  refine sameReading_move h htext fun line hline => ?_
  have hbreak := Text.not_isLineBreak_of_mem hline
  simp only [Function.comp_apply]
  split_ifs with hblank
  · refine .emptied fun c hc => ⟨List.all_eq_true.mp hblank c hc, ?_⟩
    rintro rfl
    exact absurd (hbreak '\n' hc) (by decide)
  · rw [String.toList_append, String.toList_ofList, Suite.indentation, String.toList_ofList]
    refine .shifted fun c hc => ?_
    obtain rfl := List.eq_of_mem_replicate hc
    decide

end RequestSuite.Script
