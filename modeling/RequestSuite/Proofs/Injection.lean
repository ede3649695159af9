/-
Set-up statements in a test's callback.

* `Closed`: a text that leaves nothing open;
* `Placed`: the place found by `callback` is the start of the callback's body;
* `scopeOf_inject`: a test is read with a set-up at that place as it is read without it.
-/
import RequestSuite.Proofs.Indentation
import RequestSuite.Proofs.PathText
import RequestSuite.Proofs.StatementCopy

namespace RequestSuite.Script

open Text (isBlank isLineBreak splitLines joinLines trim)

variable {text test setup cs ds : List Char} {c : Char} {r r' : Bool} {after : Option Char}
  {scope : Scope} {depth : ℕ}

/-! ### Reading on in code -/

/-- White space in code. -/
lemma ready_blanks (h : ∀ c ∈ cs, isBlank c = true) (r : Bool) (after : Option Char)
    (ds : List Char) :
    (ready r).through after (cs ++ ds) = (ready r).through after ds ∧
      (ready r).skeleton after (cs ++ ds) = cs ++ (ready r).skeleton after ds := by
  induction cs with
  | nil => exact ⟨rfl, rfl⟩
  | cons c cs ih =>
      obtain ⟨hc, hcs⟩ := List.forall_mem_cons.mp h
      obtain ⟨hthrough, hskeleton⟩ := ih hcs
      obtain ⟨hstep, hshown⟩ :=
        @step_blank_of_readsCode (ready r) c _ hc rfl ((cs ++ ds).head?.or after)
      rw [List.cons_append, State.through, State.skeleton, hstep, hshown]
      exact ⟨hthrough, congrArg (c :: ·) hskeleton⟩

/-- What stands in front of a character that is neither white space nor a slash does not change how
it is read. -/
lemma ready_cons (hblank : isBlank c = false) (hslash : c ≠ '/') (r r' : Bool)
    (after : Option Char) (cs : List Char) :
    (ready r).through after (c :: cs) = (ready r').through after (c :: cs) ∧
      (ready r).skeleton after (c :: cs) = (ready r').skeleton after (c :: cs) := by
  have hopened (last last' : Option Char) (next : Option Char) :
      opened? last c next = opened? last' c next := by simp [opened?, hslash]
  have hlast (last : Option Char) : lastAfter last c = some c := by simp [lastAfter, hblank]
  have hstep (next : Option Char) : (ready r).step c next = (ready r').step c next ∧
      (ready r).shown c next = (ready r').shown c next := by
    cases r <;> cases r' <;>
      simp [State.step, State.shown, ready, Mode.readsCode?, afterCode, hlast,
        hopened (some ')') none]
  rw [State.through, State.through, State.skeleton, State.skeleton, (hstep _).1, (hstep _).2]
  exact ⟨rfl, rfl⟩

/-- A text starts with a slash, after white space. -/
def StartsWithSlash (text : List Char) : Prop := (text.dropWhile isBlank).head? = some '/'

instance (text : List Char) : Decidable (StartsWithSlash text) :=
  inferInstanceAs (Decidable (_ = _))

/-- What stands in front of a text that starts with no slash does not change how it is read. -/
lemma ready_start (h : ¬ StartsWithSlash text) (hne : ¬ ∀ c ∈ text, isBlank c = true) (r r' : Bool)
    (after : Option Char) :
    (ready r).through after text = (ready r').through after text ∧
      (ready r).skeleton after text = (ready r').skeleton after text := by
  have hblanks : ∀ c ∈ text.takeWhile isBlank, isBlank c = true :=
    List.all_eq_true.mp List.all_takeWhile
  rw [← List.takeWhile_append_dropWhile (p := isBlank) (l := text)]
  cases hdrop : text.dropWhile isBlank with
  | nil =>
      refine absurd (fun c hc => ?_) hne
      rw [← List.takeWhile_append_dropWhile (p := isBlank) (l := text), hdrop,
        List.append_nil] at hc
      exact hblanks c hc
  | cons c rest =>
      have hc : isBlank c = false := by
        have := List.head?_dropWhile_not isBlank text
        rw [hdrop] at this
        simpa using this
      have hslash : c ≠ '/' := by
        rintro rfl
        exact h (by rw [StartsWithSlash, hdrop]; rfl)
      obtain ⟨hthrough, hskeleton⟩ := ready_cons hc hslash r r' after rest
      obtain ⟨hb, hb'⟩ := ready_blanks hblanks r after (c :: rest)
      obtain ⟨hd, hd'⟩ := ready_blanks hblanks r' after (c :: rest)
      rw [hb, hb', hd, hd', hthrough, hskeleton]
      exact ⟨rfl, rfl⟩

/-- The skeleton of a text that starts as code. -/
def bones (r : Bool) (text : List Char) : List Char := (ready r).skeleton none text

/-- A text leads from code to code. -/
def Leads (r : Bool) (text : List Char) (r' : Bool) : Prop :=
  ((ready r).through none text).forget = ready r'

instance : Decidable (Leads r text r') := inferInstanceAs (Decidable (_ = _))

/-- One text after another, where the second does not change how the first is read. -/
lemma bones_append_of_follow (hfollow : (ready r).through ds.head? cs = (ready r).through none cs ∧
      (ready r).skeleton ds.head? cs = (ready r).skeleton none cs) (h : Leads r cs r') :
    bones r (cs ++ ds) = bones r cs ++ bones r' ds ∧
      ∀ r'', Leads r (cs ++ ds) r'' ↔ Leads r' ds r'' := by
  obtain ⟨hthrough, hskeleton⟩ := hfollow
  rw [Leads, ← forget_ready r'] at h
  obtain ⟨hforget, hsame⟩ := @State.forget_through _ _ none ds h
  refine ⟨?_, fun r'' => ?_⟩
  · rw [bones, State.skeleton_append, Option.or_none, hthrough, hskeleton, hsame]
    rfl
  · rw [Leads, State.through_append, Option.or_none, hthrough, hforget]
    rfl

lemma bones_append (hblind : Blind cs) (h : Leads r cs r') (ds : List Char) :
    bones r (cs ++ ds) = bones r cs ++ bones r' ds ∧
      ∀ r'', Leads r (cs ++ ds) r'' ↔ Leads r' ds r'' :=
  bones_append_of_follow (State.through_blind hblind _ _) h

/-- One text after another, where the second starts with a character that changes nothing in the
first. -/
lemma bones_append_of_next (hnext : ∀ d, ds.head? = some d → d ∉ ['/', '*', '\x7b'])
    (h : Leads r cs r') :
    bones r (cs ++ ds) = bones r cs ++ bones r' ds ∧
      ∀ r'', Leads r (cs ++ ds) r'' ↔ Leads r' ds r'' :=
  bones_append_of_follow (State.through_next hnext) h

/-- A bracket or a comma in code. -/
lemma bones_sign (hblank : isBlank c = false) (hc : c ∉ ['\'', '"', '`', '/']) (r : Bool)
    (ds : List Char) :
    bones r (c :: ds) = c :: bones (regexMayFollow (some c)) ds ∧
      ∀ r', Leads r (c :: ds) r' ↔ Leads (regexMayFollow (some c)) ds r' := by
  simp only [List.mem_cons, List.not_mem_nil, or_false, not_or] at hc
  obtain ⟨hsingle, hdouble, htick, hslash⟩ := hc
  have hopened (last next : Option Char) : opened? last c next = none := by
    simp [opened?, hsingle, hdouble, htick, hslash]
  have hstep (next : Option Char) :
      (ready r).step c next = ⟨.code (some c), []⟩ ∧ (ready r).shown c next = [c] := by
    simp [ready, State.step, State.shown, Mode.readsCode?, hopened, afterCode, lastAfter, hblank]
  have hforget : (⟨.code (some c), []⟩ : State).forget =
      (ready (regexMayFollow (some c))).forget := by rw [forget_code, forget_ready]
  obtain ⟨hthrough, hskeleton⟩ := @State.forget_through _ _ none ds hforget
  refine ⟨?_, fun r' => ?_⟩
  · rw [bones, State.skeleton, (hstep _).1, (hstep _).2, hskeleton]
    rfl
  · rw [Leads, State.through, (hstep _).1, hthrough]
    rfl

lemma bones_blanks (h : ∀ c ∈ cs, isBlank c = true) (r : Bool) (ds : List Char) :
    bones r (cs ++ ds) = cs ++ bones r ds ∧ ∀ r'', Leads r (cs ++ ds) r'' ↔ Leads r ds r'' := by
  obtain ⟨hthrough, hskeleton⟩ := ready_blanks h r none ds
  exact ⟨hskeleton, fun r'' => by rw [Leads, hthrough]; rfl⟩

lemma bones_start (h : ¬ StartsWithSlash text) (hne : ¬ ∀ c ∈ text, isBlank c = true)
    (r r' : Bool) :
    bones r text = bones r' text ∧ ∀ r'', Leads r text r'' ↔ Leads r' text r'' := by
  obtain ⟨hthrough, hskeleton⟩ := ready_start h hne r r' none
  exact ⟨hskeleton, fun r'' => by rw [Leads, hthrough]; rfl⟩

/-- White space is no bracket. -/
lemma depthAfter?_append_blanks (h : ∀ c ∈ cs, isBlank c = true) (depth : ℕ) (ds : List Char) :
    depthAfter? depth (cs ++ ds) = depthAfter? depth ds := by
  induction cs with
  | nil => rfl
  | cons c cs ih =>
      obtain ⟨hc, hcs⟩ := List.forall_mem_cons.mp h
      obtain ⟨hopener, hcloser⟩ := not_bracket_of_isBlank hc
      rw [List.cons_append, depthAfter?_cons, if_neg (by simp [hcloser]),
        level_plain hopener hcloser]
      exact ih hcs

/-- White space changes no frame. -/
lemma scan_blanks (h : ∀ c ∈ cs, isBlank c = true) :
    (scope.scan cs).frames = scope.frames ∧
      (scope.guarded = true → (scope.scan cs).early = scope.early) := by
  induction cs generalizing scope with
  | nil => exact ⟨rfl, fun _ => rfl⟩
  | cons c cs ih =>
      obtain ⟨hc, hcs⟩ := List.forall_mem_cons.mp h
      have hframes : (scope.read c).frames = scope.frames := by
        rw [Scope.read, if_pos hc, endName_frames]
      obtain ⟨hscan, hearly⟩ := @ih (scope.read c) hcs
      refine ⟨hscan.trans hframes, fun hguarded => ?_⟩
      have hguarded' : (scope.read c).guarded = true := by
        rw [Scope.guarded, hframes]
        exact hguarded
      exact (hearly hguarded').trans (early_read hguarded)

/-! ### Texts that leave nothing open -/

/-- A text that leaves nothing open: its lines end with line feeds, no literal and no comment goes
on after the last of them, and its brackets match. -/
structure Closed (text : List Char) : Prop where
  lined : Lined text
  lexed : ∃ r, Leads true (text ++ ['\n']) r
  balanced : Balanced (bones true (text ++ ['\n']))

instance (text : List Char) : Decidable (Closed text) :=
  decidable_of_iff
    (Lined text ∧ (∃ r, Leads true (text ++ ['\n']) r) ∧ Balanced (bones true (text ++ ['\n'])))
    ⟨fun h => ⟨h.1, h.2.1, h.2.2⟩, fun h => ⟨h.lined, h.lexed, h.balanced⟩⟩

/-! ### Places of callbacks -/

variable {block : List Char} {ps : List (ℕ × Char)} {level : ℤ} {named : Bool} {arrow : Option ℕ}
  {brace start stop : ℕ}

/-- A block starts with its brace. -/
lemma mem_of_callbackIn_block (h : callbackIn block level named arrow ps = .block brace) :
    (brace, '\x7b') ∈ ps := by
  fun_induction callbackIn block level named arrow ps with
  | case2 _ _ _ i c rest _ hc =>
      obtain rfl := Callback.block.inj h
      simp only [Bool.and_eq_true, decide_eq_true_eq] at hc
      rw [hc.1.1]
      exact List.mem_cons_self
  | case3 _ _ _ _ _ _ _ _ ih => exact List.mem_cons_of_mem _ (ih h)
  | case6 _ _ _ _ _ _ _ _ _ ih => exact List.mem_cons_of_mem _ (ih h)
  | case8 _ _ _ _ _ _ _ _ ih => exact List.mem_cons_of_mem _ (ih h)
  | case9 _ _ _ _ _ _ _ _ _ _ ih => exact List.mem_cons_of_mem _ (ih h)
  | case10 _ _ _ _ _ _ _ _ _ _ ih => exact List.mem_cons_of_mem _ (ih h)
  | _ => simp at h

/-- The equals sign of an arrow stands before the expression that is a callback's body, and a comma
or a closing bracket after it. -/
lemma edges_of_callbackIn_expression {text : List (ℕ × Char)} (hps : ps ⊆ text)
    (harrow : ∀ first, arrow = some first →
      ∃ i, first = i + 2 ∧ (i, '=') ∈ text ∧ block[i + 1]? = some '>')
    (h : callbackIn block level named arrow ps = .expression start stop) :
    (∃ i, start = i + 2 ∧ (i, '=') ∈ text ∧ block[i + 1]? = some '>') ∧
      ∃ c, (stop, c) ∈ text ∧ (isCloser c = true ∨ c = ',') := by
  fun_induction callbackIn block level named arrow ps with
  | case3 _ _ _ _ _ _ _ _ ih => exact ih (List.cons_subset.mp hps).2 harrow h
  | case4 _ _ i c _ _ hc _ first =>
      obtain ⟨rfl, rfl⟩ := Callback.expression.inj h
      exact ⟨harrow first rfl, c, hps List.mem_cons_self, Or.inl hc⟩
  | case6 _ _ _ _ _ _ _ _ _ ih => exact ih (List.cons_subset.mp hps).2 harrow h
  | case7 _ _ i c _ _ _ hc first =>
      obtain ⟨rfl, rfl⟩ := Callback.expression.inj h
      exact ⟨harrow first rfl, c, hps List.mem_cons_self, Or.inr (by simp at hc; exact hc.2)⟩
  | case8 _ _ _ _ _ _ _ _ ih =>
      exact ih (List.cons_subset.mp hps).2 (fun first hf => by simp at hf) h
  | case9 _ _ _ i _ _ _ _ _ hc ih =>
      refine ih (List.cons_subset.mp hps).2 (fun first hf => ?_) h
      obtain rfl := Option.some.inj hf
      simp only [Bool.and_eq_true, decide_eq_true_eq] at hc
      obtain ⟨⟨-, rfl⟩, htip⟩ := hc
      exact ⟨i, rfl, hps List.mem_cons_self, htip⟩
  | case10 _ _ _ _ _ _ _ _ _ _ ih => exact ih (List.cons_subset.mp hps).2 harrow h
  | _ => simp at h

lemma getElem?_of_callback_block (h : callback block = .block brace) :
    block[brace]? = some '\x7b' :=
  getElem?_of_mem_code (mem_of_callbackIn_block h)

lemma edges_of_callback_expression (h : callback block = .expression start stop) :
    (∃ i, start = i + 2 ∧ (i, '=') ∈ code block ∧ block[i + 1]? = some '>') ∧
      ∃ c, (stop, c) ∈ code block ∧ (isCloser c = true ∨ c = ',') :=
  edges_of_callbackIn_expression (List.Subset.refl _) (fun first hf => by simp at hf) h

/-! ### The set-up in a block -/

/-- The block at a brace is the body of the callback, and the set-up does not change how a slash at
its start is read. -/
structure OpensBody (test : List Char) (brace : ℕ) (setup : List Char) : Prop where
  lexed : Leads true (test.take (brace + 1)) true
  opened : ∃ arrow, (Scope.scan {} (bones true (test.take (brace + 1)))).frames =
    [.body, .call arrow]
  seam : Leads true (setup ++ ['\n']) true ∨ ¬ StartsWithSlash (test.drop (brace + 1))

instance : Decidable (OpensBody test brace setup) :=
  decidable_of_iff
    (Leads true (test.take (brace + 1)) true ∧
      (∃ arrow, (Scope.scan {} (bones true (test.take (brace + 1)))).frames =
        [.body, .call arrow]) ∧
      (Leads true (setup ++ ['\n']) true ∨ ¬ StartsWithSlash (test.drop (brace + 1))))
    ⟨fun h => ⟨h.1, h.2.1, h.2.2⟩, fun h => ⟨h.lexed, h.opened, h.seam⟩⟩

lemma indent_blank : ∀ c ∈ indent, isBlank c = true ∧ c ≠ '\n' := by
  intro c hc
  obtain rfl : c = ' ' := by simpa [indent] using hc
  decide

lemma isBlank_of_mem_indent (c : Char) (hc : c ∈ indent) : isBlank c = true := (indent_blank c hc).1

lemma sameReading_setup (hsetup : Lined setup) (hidle : scope.word = []) :
    SameReading (ready true) scope (setup ++ ['\n'])
      (joinLines ((splitLines setup).map (indent ++ ·)) ++ ['\n']) :=
  sameReading_move (lineStart_ready true hidle) hsetup fun _ _ => .shifted indent_blank

/-- The set-up in the body of a callback is read there. -/
lemma scan_setup {base : List Frame} (hsetup : Closed setup)
    (habove : Above (.body :: base) scope 0) (hidle : scope.word = []) :
    let lines := joinLines ((splitLines setup).map (indent ++ ·)) ++ ['\n']
    Balanced (bones true lines) ∧ Above (.body :: base) (scope.scan (bones true lines)) 0 ∧
      (scope.scan (bones true lines)).early = scope.early := by
  intro lines
  have hbalanced : Balanced (bones true lines) := by
    rw [Balanced, bones, ← (sameReading_setup hsetup.lined hidle).depth none 0]
    exact hsetup.balanced
  have hbase : Settled (.body :: base) := fun a h => by simp at h
  exact ⟨hbalanced, habove.scan hbase hbalanced,
    early_scan hbase (by simp [Frame.guards]) habove hbalanced⟩

/-- A set-up put into a block stands on lines of its own, in front of what followed the brace. -/
lemma exists_inject_block (h : callback test = .block brace) (hne : setup.isEmpty = false) :
    ∃ blanks rest, (∀ c ∈ blanks, isBlank c = true) ∧ test.drop (brace + 1) = blanks ++ rest ∧
      inject test setup = test.take (brace + 1) ++
        '\n' :: (joinLines ((splitLines setup).map (indent ++ ·)) ++ '\n' :: rest) := by
  have hspaces : ∀ c ∈ (test.drop (brace + 1)).takeWhile (· == ' '), isBlank c = true := by
    intro c hc
    have hspace := List.all_eq_true.mp List.all_takeWhile c hc
    rw [beq_iff_eq.mp hspace]
    rfl
  have hsplit := List.takeWhile_append_dropWhile (p := (· == ' ')) (l := test.drop (brace + 1))
  simp only [inject, hne, h, Bool.false_eq_true, if_false]
  cases hrest : (test.drop (brace + 1)).dropWhile (· == ' ') with
  | nil =>
      rw [hrest, List.append_nil] at hsplit
      exact ⟨test.drop (brace + 1), [], by rw [← hsplit]; exact hspaces, (List.append_nil _).symm,
        by simp⟩
  | cons c rest =>
      rw [hrest] at hsplit
      by_cases hc : c = '\n'
      · subst hc
        refine ⟨_ ++ ['\n'], rest, ?_, by rw [List.append_assoc]; exact hsplit.symm, by simp⟩
        intro c hc
        rcases List.mem_append.mp hc with hc | hc
        · exact hspaces c hc
        · rw [List.mem_singleton.mp hc]
          rfl
      · exact ⟨_, c :: rest, hspaces, hsplit.symm, by simp [hc]⟩

/-- The lines of a set-up end with line feeds. -/
lemma lineFeed_of_mem_lines {c : Char}
    (hc : c ∈ joinLines ((splitLines setup).map (indent ++ ·))) (hbreak : isLineBreak c = true) :
    c = '\n' := by
  rcases Layout.mem_intercalate hc with hc | ⟨piece, hpiece, hc⟩
  · exact hc
  · obtain ⟨line, hline, rfl⟩ := List.mem_map.mp hpiece
    rcases List.mem_append.mp hc with hc | hc
    · obtain rfl : c = ' ' := by simpa [indent] using hc
      exact absurd hbreak (by decide)
    · rw [Text.not_isLineBreak_of_mem hline c hc] at hbreak
      simp at hbreak

lemma scopeOf_eq (text : List Char) : scopeOf text = Scope.scan {} (bones true (text ++ ['\n'])) :=
  rfl

/-- A text that closes more brackets than it opens is not blank. -/
lemma not_blank_of_closes {rest : List Char}
    (h : depthAfter? 0 (bones true (rest ++ ['\n'])) = none) :
    ¬ ∀ c ∈ rest ++ ['\n'], isBlank c = true := by
  intro hall
  have hbare := (bones_blanks hall true []).1
  rw [List.append_nil] at hbare
  rw [hbare, depthAfter?_append_blanks hall] at h
  simp [bones, State.skeleton, depthAfter?] at h

lemma StartsWithSlash.of_lineFeed {rest : List Char} (h : StartsWithSlash (rest ++ ['\n'])) :
    StartsWithSlash rest := by
  unfold StartsWithSlash at *
  rw [List.dropWhile_append] at h
  split_ifs at h with hempty
  · simp [isBlank] at h
  · rwa [List.head?_append_of_ne_nil _ (by simpa using hempty)] at h

lemma lineFeed_blank : ∀ c ∈ ['\n'], isBlank c = true := List.all_eq_true.mp rfl

/-- **A set-up at the start of a callback's body** stands between what is read before it and what is
read after it. -/
lemma bones_opened {front rest : List Char} (hsetup : Closed setup) (hblind : Blind front)
    (hlexed : Leads true front true)
    (hseam : Leads true (setup ++ ['\n']) true ∨ ¬ StartsWithSlash rest)
    (hcloses : depthAfter? 0 (bones true (rest ++ ['\n'])) = none) :
    let lines := joinLines ((splitLines setup).map (indent ++ ·)) ++ ['\n']
    bones true (front ++ '\n' :: (joinLines ((splitLines setup).map (indent ++ ·)) ++
        '\n' :: rest) ++ ['\n']) =
        bones true front ++ (['\n'] ++ (bones true lines ++ bones true (rest ++ ['\n']))) ∧
      ∀ r, Leads true (front ++ '\n' :: (joinLines ((splitLines setup).map (indent ++ ·)) ++
        '\n' :: rest) ++ ['\n']) r ↔ Leads true (rest ++ ['\n']) r := by
  intro lines
  have hwhole : front ++ '\n' :: (joinLines ((splitLines setup).map (indent ++ ·)) ++
      '\n' :: rest) ++ ['\n'] = front ++ (['\n'] ++ (lines ++ (rest ++ ['\n']))) := by
    simp [lines]
  obtain ⟨r, hr⟩ := hsetup.lexed
  have hlead : Leads true lines r := by
    rw [Leads, ← (@sameReading_setup setup {} hsetup.lined rfl).through none]
    exact hr
  have hrest : bones r (rest ++ ['\n']) = bones true (rest ++ ['\n']) ∧
      ∀ r', Leads r (rest ++ ['\n']) r' ↔ Leads true (rest ++ ['\n']) r' := by
    rcases hseam with hseam | hslash
    · obtain rfl : r = true := by
        have hsame : ready r = ready true := hr.symm.trans hseam
        cases r
        · exact absurd hsame (by decide)
        · rfl
      exact ⟨rfl, fun _ => Iff.rfl⟩
    · exact bones_start (fun h => hslash h.of_lineFeed) (not_blank_of_closes hcloses) r true
  obtain ⟨hbones, hleads⟩ := bones_append hblind hlexed (['\n'] ++ (lines ++ (rest ++ ['\n'])))
  obtain ⟨hbones', hleads'⟩ := bones_blanks lineFeed_blank true (lines ++ (rest ++ ['\n']))
  obtain ⟨hbones'', hleads''⟩ := bones_append (blind_line _) hlead (rest ++ ['\n'])
  rw [hbones', hbones'', hrest.1] at hbones
  rw [hwhole]
  exact ⟨hbones, fun r' => by rw [hleads r', hleads' r', hleads'' r', hrest.2 r']⟩

/-- What follows such a set-up is read as if the set-up were not there. -/
lemma read_opened {front rest : List Char} {base : List Frame} (hsetup : Closed setup)
    (hblind : Blind front) (hlexed : Leads true front true)
    (hframes : (Scope.scan {} (bones true front)).frames = .body :: base)
    (hseam : Leads true (setup ++ ['\n']) true ∨ ¬ StartsWithSlash rest)
    (hcloses : depthAfter? 0 (bones true (rest ++ ['\n'])) = none) :
    let whole := front ++ '\n' :: (joinLines ((splitLines setup).map (indent ++ ·)) ++ '\n' :: rest)
    scopeOf whole = (Scope.scan {} (bones true front)).scan (bones true (rest ++ ['\n'])) ∧
      (∀ r, Leads true (whole ++ ['\n']) r ↔ Leads true (rest ++ ['\n']) r) ∧
      depthAfter? 0 (bones true (whole ++ ['\n'])) =
        (depthAfter? 0 (bones true front)).bind fun d =>
          depthAfter? d (bones true (rest ++ ['\n'])) := by
  intro whole
  obtain ⟨hbones, hleads⟩ := bones_opened hsetup hblind hlexed hseam hcloses
  set inner := Scope.scan {} (bones true front)
  -- the set-up is read in the body, after a line feed
  have habove : Above (.body :: base) (inner.scan ['\n']) 0 :=
    ⟨[], by rw [(scan_blanks lineFeed_blank).1]; exact hframes, rfl⟩
  obtain ⟨hbalanced, habove', hearly⟩ :=
    scan_setup hsetup habove (@word_read inner '\n' (by decide))
  refine ⟨?_, hleads, ?_⟩
  · rw [scopeOf_eq, hbones, scan_append, scan_append, scan_append]
    have hguarded : inner.guarded = true := by simp [Scope.guarded, hframes, Frame.guards]
    exact scan_body habove' ⟨[], hframes, rfl⟩
      (hearly.trans ((scan_blanks lineFeed_blank).2 hguarded)) hcloses
  · rw [hbones, depthAfter?_append]
    refine Option.bind_congr fun d _ => ?_
    rw [depthAfter?_append_blanks lineFeed_blank, depthAfter?_append, hbalanced.depthAfter?]
    rfl

/-- A test with more lines in it has the lines of both. -/
lemma lined_inject {front rest : List Char} (hfront : ∀ c ∈ front, isLineBreak c = true → c = '\n')
    (hrest : Lined rest) (hne : rest ≠ []) :
    Lined (front ++
      '\n' :: (joinLines ((splitLines setup).map (indent ++ ·)) ++ '\n' :: rest)) := by
  refine ⟨fun c hc hbreak => ?_, ?_⟩
  · simp only [List.mem_append, List.mem_cons] at hc
    rcases hc with hc | hc | hc | hc | hc
    · exact hfront c hc hbreak
    · exact hc
    · exact lineFeed_of_mem_lines hc hbreak
    · exact hc
    · exact hrest.break_eq c hc hbreak
  · generalize joinLines ((splitLines setup).map (indent ++ ·)) = lines
    have hsplit : front ++ '\n' :: (lines ++ '\n' :: rest) =
        (front ++ '\n' :: (lines ++ ['\n'])) ++ rest := by simp
    rw [hsplit, List.getLast?_append_of_ne_nil _ hne]
    exact hrest.last_ne

/-- The parts of a test around the start of a callback's block: what stands up to the brace, white
space that a set-up replaces, and the rest. -/
structure Parted (test setup front blanks rest : List Char) : Prop where
  text : test = front ++ (blanks ++ rest)
  injected : inject test setup = front ++
    '\n' :: (joinLines ((splitLines setup).map (indent ++ ·)) ++ '\n' :: rest)
  blank : ∀ c ∈ blanks, isBlank c = true
  blind : Blind front
  bones : bones true (test ++ ['\n']) = bones true front ++ (blanks ++ bones true (rest ++ ['\n']))
  leads : ∀ r, Leads true (test ++ ['\n']) r ↔ Leads true (rest ++ ['\n']) r
  depth : depthAfter? 0 (Script.bones true front) = some 2
  depth_rest : depthAfter? 2 (Script.bones true (rest ++ ['\n'])) = some 0
  seam : Leads true (setup ++ ['\n']) true ∨ ¬ StartsWithSlash rest

lemma Parted.closes {front blanks rest : List Char} (h : Parted test setup front blanks rest) :
    depthAfter? 0 (Script.bones true (rest ++ ['\n'])) = none := by
  by_contra hsome
  obtain ⟨d, hd⟩ := Option.ne_none_iff_exists'.mp hsome
  have := depthAfter?_add hd 2
  rw [Nat.zero_add, h.depth_rest, Option.some.injEq] at this
  omega

/-- A test whose callback has a block has these parts. -/
lemma exists_parted (htest : Closed test) (hne : setup.isEmpty = false)
    (hcallback : callback test = .block brace) (hopens : OpensBody test brace setup) :
    ∃ blanks rest, Parted test setup (test.take (brace + 1)) blanks rest := by
  obtain ⟨blanks, rest, hblanks, hback, hinject⟩ := exists_inject_block hcallback hne
  obtain ⟨hlexed, ⟨arrow, hframes⟩, hseam⟩ := hopens
  have hblind : Blind (test.take (brace + 1)) := by
    intro c hc
    rw [List.take_add_one, getElem?_of_callback_block hcallback] at hc
    obtain rfl : '\x7b' = c := by simpa using hc
    decide
  have htext : test = test.take (brace + 1) ++ (blanks ++ rest) := by
    rw [← hback, List.take_append_drop]
  generalize test.take (brace + 1) = front at *
  -- the test is read in its front, in white space and in the rest
  obtain ⟨hbones, hleads⟩ := bones_append hblind hlexed (blanks ++ (rest ++ ['\n']))
  obtain ⟨hbones', hleads'⟩ := bones_blanks hblanks true (rest ++ ['\n'])
  rw [← List.append_assoc blanks, ← List.append_assoc, ← htext] at hbones hleads
  rw [List.append_assoc, hbones'] at hbones
  have hbalanced := htest.balanced
  rw [Balanced, hbones] at hbalanced
  obtain ⟨hfront, hrest⟩ := @depthAfter?_scan {} _ _ _ hbalanced
  rw [hframes] at hfront hrest
  rw [depthAfter?_append_blanks hblanks] at hrest
  refine ⟨blanks, rest, htext, hinject, hblanks, hblind, hbones, fun r => ?_, hfront, hrest, ?_⟩
  · rw [← hleads' r, ← List.append_assoc]
    exact hleads r
  · rw [hback, StartsWithSlash, List.dropWhile_append_of_pos hblanks] at hseam
    exact hseam

/-- **A test whose callback has a block is read with a set-up in it as it is read without.** -/
lemma scopeOf_inject_block (htest : Closed test) (hsetup : Closed setup)
    (hne : setup.isEmpty = false) (hcallback : callback test = .block brace)
    (hopens : OpensBody test brace setup) :
    scopeOf (inject test setup) = scopeOf test ∧ Closed (inject test setup) := by
  obtain ⟨blanks, rest, hparts⟩ := exists_parted htest hne hcallback hopens
  obtain ⟨hlexed, ⟨arrow, hframes⟩, -⟩ := hopens
  generalize test.take (brace + 1) = front at *
  have hrest : rest ≠ [] := by
    rintro rfl
    exact not_blank_of_closes hparts.closes lineFeed_blank
  obtain ⟨hscope, hlead, hdepth⟩ :=
    read_opened hsetup hparts.blind hlexed hframes hparts.seam hparts.closes
  rw [← hparts.injected] at hscope hlead hdepth
  refine ⟨?_, ?_, ?_, ?_⟩
  · have hguarded : (Scope.scan {} (bones true front)).guarded = true := by
      simp [Scope.guarded, hframes, Frame.guards]
    obtain ⟨hframes', hearly⟩ :=
      @scan_blanks blanks (Scope.scan {} (bones true front)) hparts.blank
    rw [hscope, scopeOf_eq, hparts.bones, scan_append, scan_append]
    exact scan_body ⟨[], hframes, rfl⟩ ⟨[], hframes'.trans hframes, rfl⟩ (hearly hguarded).symm
      hparts.closes
  · rw [hparts.injected]
    have hlined := hparts.text ▸ htest.lined
    exact lined_inject (fun c hc => hlined.break_eq c (List.mem_append_left _ hc))
      ((hlined.of_append _).of_append _) hrest
  · obtain ⟨r, hr⟩ := htest.lexed
    exact ⟨r, (hlead r).mpr ((hparts.leads r).mp hr)⟩
  · rw [Balanced, hdepth, hparts.depth]
    exact hparts.depth_rest

/-! ### The set-up in front of an expression -/

/-- The expression is what the callback returns: it is read among the call's arguments after the
arrow, and it leaves nothing open. -/
structure GivesResult (test : List Char) (start stop : ℕ) : Prop where
  lexed : Leads true (test.take start) true
  entered : ∃ early,
    Scope.scan {} (bones true (test.take start)) = ⟨[.call true], .arrow, [], early⟩
  inside : ∀ ds, ds <+: bones true (slice test start stop) →
    ((Scope.scan {} (bones true (test.take start))).scan ds).guarded = true
  left : ((Scope.scan {} (bones true (test.take start))).scan
    (bones true (slice test start stop))).frames = [.call true]
  lexed_result : ∃ r, Leads true (slice test start stop) r
  returned : Closed ("return ".toList ++ trim (slice test start stop) ++ [';'])

instance : Decidable (GivesResult test start stop) :=
  decidable_of_iff
    (Leads true (test.take start) true ∧
      (∃ early, Scope.scan {} (bones true (test.take start)) =
        ⟨[.call true], .arrow, [], early⟩) ∧
      (∀ ds ∈ (bones true (slice test start stop)).inits,
        ((Scope.scan {} (bones true (test.take start))).scan ds).guarded = true) ∧
      ((Scope.scan {} (bones true (test.take start))).scan
        (bones true (slice test start stop))).frames = [.call true] ∧
      (∃ r, Leads true (slice test start stop) r) ∧
      Closed ("return ".toList ++ trim (slice test start stop) ++ [';']))
    ⟨fun ⟨hlexed, hentered, hinside, hleft, hresult, hreturned⟩ =>
        ⟨hlexed, hentered, fun ds hds => hinside ds ((List.mem_inits ds _).mpr hds), hleft, hresult,
          hreturned⟩,
      fun h => ⟨h.lexed, h.entered, fun ds hds => h.inside ds ((List.mem_inits ds _).mp hds),
        h.left, h.lexed_result, h.returned⟩⟩

/-- What is read in a callback is not read early. -/
lemma early_of_prefixes (h : ∀ ds, ds <+: cs → (scope.scan ds).guarded = true) :
    (scope.scan cs).early = scope.early := by
  induction cs generalizing scope with
  | nil => rfl
  | cons c cs ih =>
      have hc : scope.guarded = true := h [] (List.nil_prefix)
      have hcs : ∀ ds, ds <+: cs → ((scope.read c).scan ds).guarded = true := fun ds hds =>
        h (c :: ds) ((List.prefix_cons_inj c).mpr hds)
      exact (ih hcs).trans (early_read hc)

/-- After the result of an arrow function the call goes on as after a block. -/
lemma read_edge {s t : Scope} {early : Bool} (hs : s.frames = [.call true]) (he : s.early = early)
    (ht : t = ⟨[.call true], .other, [], early⟩) (hc : isCloser c = true ∨ c = ',') :
    s.read c = t.read c := by
  subst ht he
  have hguarded : s.guarded = true := by simp [Scope.guarded, hs, Frame.guards]
  have hname : isNameChar c = false ∧ isBlank c = false := by
    rcases hc with hc | rfl
    · exact not_nameChar_of_bracket (Or.inr hc)
    · decide
  have hsign (recent : Recent) : recent.sign c = Recent.other.sign c := by
    rcases hc with hc | rfl
    · exact sign_closer hc _ _
    · rfl
  have hframes {s : Scope} (h : s.frames = [.call true]) :
      s.framesAfter c = if isCloser c = true then [] else [.call false] := by
    rcases hc with hc | rfl
    · have ho : isOpener c = false := by
        by_contra ho
        rw [isCloser_of_isOpener (by simpa using ho)] at hc
        simp at hc
      simp [Scope.framesAfter, ho, hc, h]
    · simp [Scope.framesAfter, isOpener, isCloser, h, turn]
  have hread {s : Scope} (h : s.frames = [.call true]) (hg : s.guarded = true) :
      s.read c = ⟨if isCloser c = true then [] else [.call false], Recent.other.sign c, [],
        s.early⟩ := by
    simp only [Scope.read, hname, Bool.false_eq_true, if_false, Scope.sign, hsign, endName_word,
      endName_early hg, hframes (endName_frames.trans h)]
  rw [hread hs hguarded, hread rfl rfl]

lemma inject_expression (h : callback test = .expression start stop) (hne : setup.isEmpty = false) :
    inject test setup = (test.take start ++ " \x7b".toList) ++
      '\n' :: (joinLines ((splitLines setup).map (indent ++ ·)) ++
        '\n' :: (indent ++ (("return ".toList ++ trim (slice test start stop) ++ [';'] ++ ['\n']) ++
          '\x7d' :: test.drop stop))) := by
  simp [inject, hne, h]

lemma sign_of_edge (hc : isCloser c = true ∨ c = ',') :
    isBlank c = false ∧ c ∉ ['\'', '"', '`', '/'] ∧ c ∉ ['/', '*', '\x7b'] := by
  rcases hc with hc | rfl
  · simp only [isCloser, Bool.or_eq_true, beq_iff_eq] at hc
    rcases hc with (rfl | rfl) | rfl <;> decide
  · decide

/-- A test is read up to its callback's expression, then in it, then in what follows. -/
lemma bones_of_result {front result back : List Char} {m : Bool} (hblind : Blind front)
    (hlexed : Leads true front true) (hm : Leads true result m) (hc : isCloser c = true ∨ c = ',') :
    bones true (front ++ (result ++ c :: back)) =
        bones true front ++ (bones true result ++ c :: bones (regexMayFollow (some c)) back) ∧
      ∀ r, Leads true (front ++ (result ++ c :: back)) r ↔
        Leads (regexMayFollow (some c)) back r := by
  obtain ⟨hblank, hquote, hnext⟩ := sign_of_edge hc
  obtain ⟨hfront, hfront'⟩ := bones_append hblind hlexed (result ++ c :: back)
  obtain ⟨hmiddle, hmiddle'⟩ := @bones_append_of_next result (c :: back) true m
    (fun d hd => by obtain rfl := Option.some.inj hd; exact hnext) hm
  obtain ⟨hedge, hedge'⟩ := bones_sign hblank hquote m back
  exact ⟨by rw [hfront, hmiddle, hedge], fun r => by rw [hfront' r, hmiddle' r, hedge' r]⟩

/-- The end of a block that returns an expression is read up to the block's end, then in what
follows. -/
lemma bones_of_returned {line back : List Char} (hline : Closed line)
    (hc : isCloser c = true ∨ c = ',') :
    bones true (indent ++ ((line ++ ['\n']) ++ '\x7d' :: c :: back)) =
        indent ++ (bones true (line ++ ['\n']) ++
          '\x7d' :: c :: bones (regexMayFollow (some c)) back) ∧
      ∀ r, Leads true (indent ++ ((line ++ ['\n']) ++ '\x7d' :: c :: back)) r ↔
        Leads (regexMayFollow (some c)) back r := by
  obtain ⟨hblank, hquote, -⟩ := sign_of_edge hc
  obtain ⟨r, hr⟩ := hline.lexed
  obtain ⟨hindent, hindent'⟩ := bones_blanks isBlank_of_mem_indent true
    ((line ++ ['\n']) ++ '\x7d' :: c :: back)
  obtain ⟨hreturn, hreturn'⟩ := bones_append (blind_line line) hr ('\x7d' :: c :: back)
  obtain ⟨hbrace, hbrace'⟩ := @bones_sign '\x7d' (by decide) (by decide) r (c :: back)
  obtain ⟨hedge, hedge'⟩ := bones_sign hblank hquote (regexMayFollow (some '\x7d')) back
  exact ⟨by rw [hindent, hreturn, hbrace, hedge],
    fun r' => by rw [hindent' r', hreturn' r', hbrace' r', hedge' r']⟩

lemma read_body_brace {base : List Frame} (h : Above (.body :: base) scope 0) :
    scope.read '\x7d' = ⟨base, .other, [], scope.early⟩ := by
  have hbare : Above (.body :: base) ⟨.body :: base, .other, [], scope.early⟩ 0 := ⟨[], rfl, rfl⟩
  rw [read_body_closer h hbare rfl rfl]
  rfl

/-- The parts of a test around its callback's expression. -/
lemma exists_result (h : callback test = .expression start stop) :
    ∃ c back, (isCloser c = true ∨ c = ',') ∧ Blind (test.take start) ∧
      test.drop stop = c :: back ∧
      test = test.take start ++ (slice test start stop ++ c :: back) := by
  obtain ⟨⟨i, hstart, -, harrow⟩, c, hmem, hc⟩ := edges_of_callback_expression h
  have hle := le_of_callback_expression h
  have hget : test[stop]? = some c := getElem?_of_mem_code hmem
  obtain ⟨hlt, hget⟩ := List.getElem?_eq_some_iff.mp hget
  have hback : test.drop stop = c :: test.drop (stop + 1) := by
    rw [← hget]
    exact List.drop_eq_getElem_cons hlt
  refine ⟨c, test.drop (stop + 1), hc, fun d hd => ?_, hback, ?_⟩
  · rw [hstart, show i + 2 = i + 1 + 1 from rfl, List.take_add_one, harrow] at hd
    obtain rfl : '>' = d := by simpa using hd
    decide
  · rw [← hback, ← drop_eq_slice_append hle, List.take_append_drop]

section Returned

variable {line back : List Char} {early : Bool}

/-- A block that returns an expression leads to where the expression itself does. -/
lemma scan_returned (hline : Closed line) (cs : List Char) :
    Scope.scan ⟨[.body, .call true], .other, [], early⟩
        (indent ++ (bones true (line ++ ['\n']) ++ '\x7d' :: cs)) =
      Scope.scan ⟨[.call true], .other, [], early⟩ cs := by
  have hbase : Settled [.body, .call true] := fun a h => by simp at h
  obtain ⟨hframes, hearly⟩ := 
    @scan_blanks indent ⟨[.body, .call true], .other, [], early⟩ isBlank_of_mem_indent
  have habove : Above [.body, .call true]
      (Scope.scan ⟨[.body, .call true], .other, [], early⟩ indent) 0 := ⟨[], hframes, rfl⟩
  have hbrace := read_body_brace (habove.scan hbase hline.balanced)
  rw [early_scan hbase rfl habove hline.balanced, hearly rfl] at hbrace
  rw [scan_append, scan_append]
  exact congrArg (fun scope : Scope => scope.scan cs) hbrace

lemma depth_returned (hline : Closed line) (cs : List Char) :
    depthAfter? 2 (indent ++ (bones true (line ++ ['\n']) ++ '\x7d' :: cs)) = depthAfter? 1 cs := by
  rw [depthAfter?_append_blanks isBlank_of_mem_indent, depthAfter?_append,
    hline.balanced.depthAfter?]
  rfl

/-- The lines of such a block, and of what follows it. -/
lemma lined_returned (hline : Lined line) (hback : Lined (c :: back)) :
    Lined (indent ++ ((line ++ ['\n']) ++ '\x7d' :: c :: back)) := by
  refine ⟨fun d hd hbreak => ?_, ?_⟩
  · simp only [List.mem_append, List.mem_cons (b := '\x7d')] at hd
    rcases hd with hd | (hd | hd) | rfl | hd
    · obtain rfl : d = ' ' := by simpa [indent] using hd
      exact absurd hbreak (by decide)
    · exact hline.break_eq d hd hbreak
    · simpa using hd
    · exact absurd hbreak (by decide)
    · exact hback.break_eq d hd hbreak
  · rw [← @List.singleton_append Char '\x7d', ← List.append_assoc, ← List.append_assoc,
      List.getLast?_append_of_ne_nil _ (List.cons_ne_nil c back)]
    exact hback.last_ne

end Returned

/-- The parts of a test around its callback's expression, and what becomes of them: the set-up and a
line that returns the expression stand in a block. -/
structure Answering (test setup front result line : List Char) (c : Char) (back : List Char) :
    Prop where
  text : test = front ++ (result ++ c :: back)
  injected : inject test setup = (front ++ " \x7b".toList) ++
    '\n' :: (joinLines ((splitLines setup).map (indent ++ ·)) ++
      '\n' :: (indent ++ ((line ++ ['\n']) ++ '\x7d' :: c :: back)))
  edge : isCloser c = true ∨ c = ','
  blind : Blind (front ++ " \x7b".toList)
  lexed : Leads true (front ++ " \x7b".toList) true
  bones_front : bones true (front ++ " \x7b".toList) = bones true front ++ " \x7b".toList
  bones : bones true (test ++ ['\n']) = bones true front ++
    (bones true result ++ c :: bones (regexMayFollow (some c)) (back ++ ['\n']))
  leads : ∀ r, Leads true (test ++ ['\n']) r ↔ Leads (regexMayFollow (some c)) (back ++ ['\n']) r
  bones_rest : Script.bones true (indent ++ ((line ++ ['\n']) ++ '\x7d' :: c :: back) ++ ['\n']) =
    indent ++ (Script.bones true (line ++ ['\n']) ++
      '\x7d' :: c :: Script.bones (regexMayFollow (some c)) (back ++ ['\n']))
  leads_rest : ∀ r, Leads true (indent ++ ((line ++ ['\n']) ++ '\x7d' :: c :: back) ++ ['\n']) r ↔
    Leads (regexMayFollow (some c)) (back ++ ['\n']) r
  seam : ¬ StartsWithSlash (indent ++ ((line ++ ['\n']) ++ '\x7d' :: c :: back))
  closes : depthAfter? 0
    (Script.bones true (indent ++ ((line ++ ['\n']) ++ '\x7d' :: c :: back) ++ ['\n'])) = none

/-- A test whose callback has an expression has these parts. -/
lemma exists_answering (hne : setup.isEmpty = false)
    (hcallback : callback test = .expression start stop) (hresult : GivesResult test start stop) :
    ∃ c back, Answering test setup (test.take start) (slice test start stop)
      ("return ".toList ++ trim (slice test start stop) ++ [';']) c back := by
  obtain ⟨c, back, hc, hblind, hback, htext⟩ := exists_result hcallback
  have hinject := inject_expression hcallback hne
  obtain ⟨hlexed, -, -, -, ⟨m, hm⟩, hreturned⟩ := hresult
  rw [hback] at hinject
  have hslash : ¬ StartsWithSlash (indent ++ (("return ".toList ++ trim (slice test start stop) ++
      [';'] ++ ['\n']) ++ '\x7d' :: c :: back)) := by
    simp [StartsWithSlash, indent, isBlank]
  generalize "return ".toList ++ trim (slice test start stop) ++ [';'] = line at *
  generalize slice test start stop = result at *
  generalize test.take start = front at *
  have hopen := bones_append hblind hlexed " \x7b".toList
  have hblind' : Blind (front ++ " \x7b".toList) := by
    intro d hd
    have hsplit : front ++ " \x7b".toList = (front ++ [' ']) ++ ['\x7b'] := by simp
    rw [hsplit, List.getLast?_concat] at hd
    obtain rfl : '\x7b' = d := Option.some.inj hd
    decide
  have htest : test ++ ['\n'] = front ++ (result ++ c :: (back ++ ['\n'])) := by
    rw [htext]
    simp
  have hrest : indent ++ ((line ++ ['\n']) ++ '\x7d' :: c :: back) ++ ['\n'] =
      indent ++ ((line ++ ['\n']) ++ '\x7d' :: c :: (back ++ ['\n'])) := by simp
  obtain ⟨hbones, hleads⟩ := @bones_of_result c front result (back ++ ['\n']) m hblind hlexed hm hc
  obtain ⟨hbones', hleads'⟩ := @bones_of_returned c line (back ++ ['\n']) hreturned hc
  rw [← htest] at hbones hleads
  rw [← hrest] at hbones' hleads'
  refine ⟨c, back, htext, hinject, hc, hblind', (hopen.2 true).mpr rfl, hopen.1, hbones, hleads,
    hbones', hleads', hslash, ?_⟩
  rw [hbones', depthAfter?_append_blanks isBlank_of_mem_indent, depthAfter?_append,
    hreturned.balanced.depthAfter?]
  rfl

/-- One bracket is open on both sides of the expression. -/
lemma Answering.depth_around {front result : List Char}
    (h : Answering test setup front result line c back)
    (hbalanced : Balanced (Script.bones true (test ++ ['\n'])))
    (hentered : Scope.scan {} (Script.bones true front) = ⟨[.call true], .arrow, [], early⟩)
    (hleft : (Scope.scan ⟨[.call true], .arrow, [], early⟩ (Script.bones true result)).frames =
      [.call true]) :
    depthAfter? 0 (Script.bones true front) = some 1 ∧
      depthAfter? 1 (c :: Script.bones (regexMayFollow (some c)) (back ++ ['\n'])) = some 0 := by
  rw [Balanced, h.bones] at hbalanced
  obtain ⟨hfront, hrest⟩ := @depthAfter?_scan {} _ _ _ hbalanced
  rw [hentered] at hfront hrest
  obtain ⟨-, htail⟩ := depthAfter?_scan hrest
  rw [hleft] at htail
  exact ⟨hfront, htail⟩

/-- **A test whose callback has an expression is read with a set-up before it as it is read
without.** -/
lemma scopeOf_inject_expression (htest : Closed test) (hsetup : Closed setup)
    (hne : setup.isEmpty = false) (hcallback : callback test = .expression start stop)
    (hresult : GivesResult test start stop) :
    scopeOf (inject test setup) = scopeOf test ∧ Closed (inject test setup) := by
  obtain ⟨c, back, hparts⟩ := @exists_answering test setup start stop hne hcallback hresult
  obtain ⟨-, ⟨early, hentered⟩, hinside, hleft, -, hreturned⟩ := hresult
  generalize "return ".toList ++ trim (slice test start stop) ++ [';'] = line at *
  generalize slice test start stop = result at *
  generalize test.take start = front at *
  set tail := bones (regexMayFollow (some c)) (back ++ ['\n']) with htail
  -- the block is opened after the arrow
  have hinner : Scope.scan {} (bones true (front ++ " \x7b".toList)) =
      ⟨[.body, .call true], .other, [], early⟩ := by
    rw [hparts.bones_front, scan_append, hentered]
    rfl
  obtain ⟨hscope, hlead, hdepth⟩ := read_opened hsetup hparts.blind hparts.lexed
    (congrArg Scope.frames hinner) (Or.inr hparts.seam) hparts.closes
  rw [← hparts.injected] at hscope hlead hdepth
  have hearly := early_of_prefixes hinside
  rw [hentered] at hleft hearly
  refine ⟨?_, ?_, ?_, ?_⟩
  · calc scopeOf (inject test setup)
        = (Scope.read ⟨[.call true], .other, [], early⟩ c).scan tail := by
          rw [hscope, hinner, hparts.bones_rest, scan_returned hreturned]
          rfl
      _ = ((Scope.scan ⟨[.call true], .arrow, [], early⟩
            (bones true result)).read c).scan tail := by
          rw [read_edge hleft hearly rfl hparts.edge]
      _ = scopeOf test := by
          rw [scopeOf_eq, hparts.bones, scan_append, scan_append, hentered]
          rfl
  · rw [hparts.injected]
    have hlined := hparts.text ▸ htest.lined
    refine lined_inject (fun d hd hbreak => ?_)
      (lined_returned hreturned.lined ((hlined.of_append _).of_append _)) (by simp [indent])
    rcases List.mem_append.mp hd with hd | hd
    · exact hlined.break_eq d (List.mem_append_left _ hd) hbreak
    · rcases List.mem_pair.mp hd with rfl | rfl <;> exact absurd hbreak (by decide)
  · obtain ⟨r, hr⟩ := htest.lexed
    exact ⟨r, (hlead r).mpr ((hparts.leads_rest r).mpr ((hparts.leads r).mp hr))⟩
  · obtain ⟨hfront, hback⟩ := hparts.depth_around htest.balanced hentered hleft
    rw [Balanced, hdepth, hparts.bones_front, depthAfter?_append, hfront, hparts.bones_rest]
    exact (depth_returned hreturned _).trans hback

/-! ### The set-up in a test -/

/-- The place that `callback` finds is the start of the callback's body. -/
def Placed (test setup : List Char) : Prop :=
  match callback test with
  | .block brace => OpensBody test brace setup
  | .expression start stop => GivesResult test start stop
  | .missing => True

instance (test setup : List Char) : Decidable (Placed test setup) :=
  match h : callback test with
  | .block brace => decidable_of_iff (OpensBody test brace setup) (by rw [Placed, h])
  | .expression start stop => decidable_of_iff (GivesResult test start stop) (by rw [Placed, h])
  | .missing => .isTrue (by rw [Placed, h]; trivial)

/-- **A test is read with a set-up in it as it is read without.** -/
lemma scopeOf_inject (htest : Closed test) (hsetup : Closed setup)
    (hplaced : setup ≠ [] → Placed test setup) :
    scopeOf (inject test setup) = scopeOf test ∧ Closed (inject test setup) := by
  by_cases hempty : setup = []
  · simp only [inject, hempty, List.isEmpty_nil, if_true]
    exact ⟨trivial, htest⟩
  · have hne : setup.isEmpty = false := by simpa using hempty
    have hplace := hplaced hempty
    unfold Placed at hplace
    cases hcallback : callback test with
    | missing =>
        simp only [inject, hne, hcallback, Bool.false_eq_true, if_false]
        exact ⟨trivial, htest⟩
    | block brace =>
        rw [hcallback] at hplace
        exact scopeOf_inject_block htest hsetup hne hcallback hplace
    | expression start stop =>
        rw [hcallback] at hplace
        exact scopeOf_inject_expression htest hsetup hne hcallback hplace

/-- A test starts with the name that it calls. -/
lemma head?_of_mem_spans {span : ℕ × ℕ} (h : span ∈ spans text) :
    (slice text span.1 span.2).head? = some 'i' := by
  obtain ⟨hopens, close, hcloses, hend⟩ := isTest_of_mem_spans h
  have hlt : span.1 < span.2 := by
    have := hcloses.lt
    have := lt_testEnd text close
    omega
  rw [slice, List.head?_take, if_neg (by omega), List.head?_drop]
  exact getElem?_of_opensTest hopens.opensTest

/-- A set-up is put behind the first character of a test. -/
lemma head?_inject (hc : test.head? = some c) : (inject test setup).head? = some c := by
  obtain ⟨rest, rfl⟩ : ∃ rest, test = c :: rest := List.head?_eq_some_iff.mp hc
  by_cases hempty : setup.isEmpty = true
  · simp only [inject, hempty, if_true]
    exact hc
  · rw [Bool.not_eq_true] at hempty
    cases hcallback : callback (c :: rest) with
    | missing => simp [inject, hempty, hcallback]
    | block brace => simp [inject, hempty, hcallback]
    | expression start stop =>
        obtain ⟨⟨i, rfl, -⟩, -⟩ := edges_of_callback_expression hcallback
        simp [inject, hempty, hcallback]

end RequestSuite.Script
