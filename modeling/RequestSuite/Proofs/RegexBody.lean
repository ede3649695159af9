/-
The bodies of regular expressions in a script that is taken apart.

* `RegexChars`, `IsRegexBody`: what may stand between the slashes of a regular expression;
* `Mute`, `mute_slashed`: behind a place at which a slash opens a regular expression, no body is
  code, and the scanner goes on as if there were none;
* `exists_form_of_regexMayFollow`: then the script is taken apart alike for all bodies;
* `length_test_le`, `exists_length_test`: behind any other place a quotation mark in a body swallows
  a test that is found if the body is a letter;
* `regex_body_immaterial_iff`: exactly at the places of the first kind no body affects how a script
  is taken apart.
-/
import RequestSuite.Proofs.SilentStretch
import RequestSuite.Proofs.Escaping

namespace RequestSuite.Script

open Text

variable {front back body cs ds text : List Char} {s t u : State} {last : Option Char}
  {depths : List ℕ} {i start : ℕ} {c : Char}

/-! ### Regular expressions -/

/-- What may stand in a class of a regular expression. -/
inductive ClassChars : List Char → Prop
  | nil : ClassChars []
  | plain {c : Char} {cs : List Char} (hc : c ∉ ['\\', ']']) (hline : isLineTerminator c = false)
      (hcs : ClassChars cs) : ClassChars (c :: cs)
  | escaped {c : Char} {cs : List Char} (hline : isLineTerminator c = false)
      (hcs : ClassChars cs) : ClassChars ('\\' :: c :: cs)

/-- What may stand between the slashes of a regular expression: no slash without a backslash outside
a class, and no end of a line. -/
inductive RegexChars : List Char → Prop
  | nil : RegexChars []
  | plain {c : Char} {cs : List Char} (hc : c ∉ ['\\', '/', '['])
      (hline : isLineTerminator c = false) (hcs : RegexChars cs) : RegexChars (c :: cs)
  | escaped {c : Char} {cs : List Char} (hline : isLineTerminator c = false)
      (hcs : RegexChars cs) : RegexChars ('\\' :: c :: cs)
  | ofClass {inner cs : List Char} (hinner : ClassChars inner) (hcs : RegexChars cs) :
      RegexChars ('[' :: (inner ++ ']' :: cs))

/-- The body of a regular expression. Without it, or with a star at its start, the slashes would be
those of a comment. -/
structure IsRegexBody (body : List Char) : Prop where
  chars : RegexChars body
  ne_nil : body ≠ []
  head_ne : body.head? ≠ some '*'

lemma isRegexBody_singleton (hc : c ∉ ['\\', '/', '[', '*']) (hline : isLineTerminator c = false) :
    IsRegexBody [c] := by
  simp only [List.mem_cons, List.not_mem_nil, or_false, not_or] at hc
  exact ⟨.plain (by simp [hc]) hline .nil, List.cons_ne_nil _ _, by simp [hc]⟩

lemma ClassChars.not_isLineTerminator (h : ClassChars cs) :
    ∀ c ∈ cs, isLineTerminator c = false := by
  induction h with
  | nil => simp
  | plain _ hline _ ih => exact List.forall_mem_cons.mpr ⟨hline, ih⟩
  | escaped hline _ ih =>
      exact List.forall_mem_cons.mpr ⟨by decide, List.forall_mem_cons.mpr ⟨hline, ih⟩⟩

/-- No character of a regular expression does. -/
lemma RegexChars.not_isLineTerminator (h : RegexChars cs) :
    ∀ c ∈ cs, isLineTerminator c = false := by
  induction h with
  | nil => simp
  | plain _ hline _ ih => exact List.forall_mem_cons.mpr ⟨hline, ih⟩
  | escaped hline _ ih =>
      exact List.forall_mem_cons.mpr ⟨by decide, List.forall_mem_cons.mpr ⟨hline, ih⟩⟩
  | ofClass hinner _ ih =>
      exact List.forall_mem_cons.mpr ⟨by decide, List.forall_mem_append.mpr
        ⟨hinner.not_isLineTerminator, List.forall_mem_cons.mpr ⟨by decide, ih⟩⟩⟩

lemma IsRegexBody.lineFeed_notMem (h : IsRegexBody body) : '\n' ∉ body := fun hmem =>
  absurd (h.chars.not_isLineTerminator _ hmem) (by decide)

/-! ### Bodies are no code -/

/-- A stretch without code that leads from one state to another, whatever follows it. -/
def Mute (s t : State) (cs : List Char) : Prop :=
  ∀ after, s.through after cs = t ∧ ∀ start, codeThrough start s after cs = []

lemma Mute.nil (s : State) : Mute s s [] := fun _ => ⟨rfl, fun _ => rfl⟩

lemma Mute.cons (hstep : ∀ next, s.step c next = t) (hcode : ∀ next, s.isCode c next = false)
    (h : Mute t u cs) : Mute s u (c :: cs) := by
  intro after
  obtain ⟨hthrough, hnone⟩ := h after
  refine ⟨by rw [State.through, hstep, hthrough], fun start => ?_⟩
  rw [codeThrough, hstep, hcode, hnone]
  rfl

lemma Mute.append (h : Mute s t cs) (h' : Mute t u ds) : Mute s u (cs ++ ds) := by
  intro after
  obtain ⟨hthrough, hnone⟩ := h (ds.head?.or after)
  obtain ⟨hthrough', hnone'⟩ := h' after
  refine ⟨by rw [State.through_append, hthrough, hthrough'], fun start => ?_⟩
  rw [codeThrough_append, hthrough, hnone, hnone']
  rfl

/-- A character that does not end the line is read inside a regular expression. -/
lemma Mute.cons_regex {inClass : Bool} {mode : Mode} (hline : isLineTerminator c = false)
    (hmode : (Mode.regex inClass).inside c none = mode) (h : Mute ⟨mode, depths⟩ t cs) :
    Mute ⟨.regex inClass, depths⟩ t (c :: cs) := by
  have hreads : (Mode.regex inClass).readsCode? c = none := by
    have hc : c ≠ '\n' := by
      rintro rfl
      exact absurd hline (by decide)
    simp [Mode.readsCode?, hc]
  refine .cons (fun next => ?_) (fun next => by simp only [State.isCode, hreads]) h
  rw [← hmode]
  simp only [State.step, hreads]
  rfl

lemma Mute.cons_escaped {inClass : Bool} (h : Mute ⟨.regex inClass, depths⟩ t cs) :
    Mute ⟨.regex inClass, depths⟩ t ('\\' :: c :: cs) :=
  .cons_regex (by decide) rfl (.cons (fun _ => rfl) (fun _ => rfl) h)

lemma ClassChars.mute (h : ClassChars cs) :
    Mute ⟨.regex true, depths⟩ ⟨.regex true, depths⟩ cs := by
  induction h with
  | nil => exact .nil _
  | plain hc hline _ ih =>
      simp only [List.mem_cons, List.not_mem_nil, or_false, not_or] at hc
      exact .cons_regex hline (by simp [Mode.inside, hc]) ih
  | escaped _ _ ih => exact .cons_escaped ih

lemma RegexChars.mute (h : RegexChars cs) :
    Mute ⟨.regex false, depths⟩ ⟨.regex false, depths⟩ cs := by
  induction h with
  | nil => exact .nil _
  | plain hc hline _ ih =>
      simp only [List.mem_cons, List.not_mem_nil, or_false, not_or] at hc
      exact .cons_regex hline (by simp [Mode.inside, hc]) ih
  | escaped _ _ ih => exact .cons_escaped ih
  | ofClass hinner _ ih =>
      exact .cons_regex (by decide) rfl
        (hinner.mute.append (.cons_regex (by decide) rfl ih))

/-- The first character of a body starts no comment behind the slash. -/
lemma IsRegexBody.head_notMem (h : IsRegexBody body) :
    ∃ c rest, body = c :: rest ∧ c ∉ ['/', '*'] := by
  obtain ⟨hchars, hne, hhead⟩ := h
  cases hchars with
  | nil => exact absurd rfl hne
  | plain hc hline hcs =>
      refine ⟨_, _, rfl, ?_⟩
      simp only [List.head?_cons, ne_eq, Option.some.injEq] at hhead
      simp only [List.mem_cons, List.not_mem_nil, or_false, not_or] at hc ⊢
      exact ⟨hc.2.1, hhead⟩
  | escaped _ _ => exact ⟨_, _, rfl, by decide⟩
  | ofClass _ _ => exact ⟨_, _, rfl, by decide⟩

/-- **A regular expression is no code**, where a slash opens one. -/
lemma mute_slashed (hbody : IsRegexBody body) (h : regexMayFollow last = true) :
    Mute ⟨.code last, depths⟩ ⟨.code (some '/'), depths⟩ (slashed body) := by
  obtain ⟨c, rest, rfl, hc⟩ := hbody.head_notMem
  simp only [List.mem_cons, List.not_mem_nil, or_false, not_or] at hc
  have hopened : opened? last '/' (some c) = some (.regex false) := by
    simp [opened?, hc, h]
  have hbody : Mute ⟨.regex false, depths⟩ ⟨.code (some '/'), depths⟩ (c :: rest ++ ['/']) :=
    hbody.chars.mute.append (.cons_regex (by decide) rfl (.nil _))
  intro after
  obtain ⟨hthrough, hnone⟩ := hbody after
  have hstep : (⟨.code last, depths⟩ : State).step '/' (some c) = ⟨.regex false, depths⟩ := by
    simp [State.step, Mode.readsCode?, hopened]
  have hcode : (⟨.code last, depths⟩ : State).isCode '/' (some c) = false := by
    simp [State.isCode, Mode.readsCode?, hopened]
  refine ⟨?_, fun start => ?_⟩
  · rw [slashed, State.through]
    exact hstep ▸ hthrough
  · rw [slashed, codeThrough]
    have hhead : (c :: rest ++ ['/']).head?.or after = some c := rfl
    rw [hhead, hstep, hcode, hnone]
    rfl

/-- The code of the script stands where no body moves it. -/
lemma code_filled (hfront : State.through {} (some '/') front = ⟨.code last, depths⟩)
    (h : regexMayFollow last = true) (hbody : IsRegexBody body) (back : List Char) :
    code (filled front body back) =
      (codeThrough 0 {} (some '/') front ++
        codeFrom (front.length + 1) ⟨.code (some '/'), depths⟩ back).map
          fun p => (moved front body p.1, p.2) := by
  have hfilled : filled front body back = front ++ (slashed body ++ back) := by
    simp [filled, slashed]
  obtain ⟨hthrough, hnone⟩ := @mute_slashed body last depths hbody h back.head?
  have hhead : (slashed body ++ back).head? = some '/' := rfl
  have hlength : front.length + (slashed body).length =
      (body.length + 1) + (front.length + 1) := by
    rw [slashed, List.length_cons, List.length_append, List.length_singleton]
    omega
  have hfixed : (codeThrough 0 {} (some '/') front).map (fun p => (moved front body p.1, p.2)) =
      codeThrough 0 {} (some '/') front := by
    refine (List.map_congr_left fun p hp => ?_).trans (List.map_id _)
    have := mem_codeThrough hp
    rw [moved_of_le (by omega), id]
  have hshifted : (codeFrom (front.length + 1) ⟨.code (some '/'), depths⟩ back).map
      (fun p => (moved front body p.1, p.2)) =
        codeFrom (front.length + (slashed body).length) ⟨.code (some '/'), depths⟩ back := by
    rw [hlength, ← codeThrough_none, ← codeThrough_none,
      codeThrough_add (body.length + 1) (front.length + 1)]
    refine List.map_congr_left fun p hp => ?_
    rw [codeThrough_none] at hp
    have := le_of_mem_codeFrom hp
    rw [moved_of_lt (by omega), Nat.add_comm]
  rw [code, hfilled, codeFrom_append, hhead, hfront, codeFrom_append, Nat.zero_add, hnone, hthrough,
    List.nil_append, List.map_append, hfixed, hshifted]

/-- **Where a slash opens a regular expression, its body does not affect how a script is taken
apart.** -/
lemma exists_form_of_regexMayFollow
    (hfront : State.through {} (some '/') front = ⟨.code last, depths⟩)
    (h : regexMayFollow last = true) (back : List Char) :
    ∃ form : Form, ∀ body, IsRegexBody body →
      form.Holds body (split (filled front body back)) := by
  have hletter : IsRegexBody ['x'] := isRegexBody_singleton (by decide) (by decide)
  have hplace : ∀ p ∈ codeThrough 0 {} (some '/') front ++
      codeFrom (front.length + 1) ⟨.code (some '/'), depths⟩ back, p.1 ≠ front.length := by
    intro p hp
    rcases List.mem_append.mp hp with hp | hp
    · have := mem_codeThrough hp
      omega
    · have := le_of_mem_codeFrom hp
      omega
  obtain ⟨form, hform⟩ :=
    exists_form front back hplace ⟨['x'], code_filled hfront h hletter back⟩
  exact ⟨form, fun body hbody =>
    hform body hbody.lineFeed_notMem (code_filled hfront h hbody back)⟩

/-! ### Bodies that are code -/

/-- A character that opens nothing and is no bracket leads on in the code. -/
lemma step_plain {next : Option Char} (hopened : opened? last c next = none)
    (ho : isOpener c = false) (hc : isCloser c = false) :
    (⟨.code last, depths⟩ : State).step c next = ⟨.code (lastAfter last c), depths⟩ := by
  have hafter : afterCode depths last c = ⟨.code (lastAfter last c), depths⟩ := by
    cases depths with
    | nil => rfl
    | cons d ds => simp [afterCode, ho, hc]
  simp [State.step, Mode.readsCode?, hopened, hafter]

lemma step_slash {next : Option Char} (h : regexMayFollow last = false)
    (hnext : next ≠ some '/' ∧ next ≠ some '*') :
    (⟨.code last, depths⟩ : State).step '/' next = ⟨.code (some '/'), depths⟩ :=
  step_plain (by simp [opened?, hnext, h]) rfl rfl

/-- A quotation mark that is not closed swallows the rest of its line. -/
lemma codeFrom_quote (h : ∀ c ∈ cs, c ∉ ['"', '\\', '\n']) (start : ℕ) :
    codeFrom start ⟨.code last, depths⟩ ('"' :: cs) = [] := by
  have hinside : Mute ⟨.quoted '"', depths⟩ ⟨.quoted '"', depths⟩ cs := by
    induction cs with
    | nil => exact .nil _
    | cons c cs ih =>
        obtain ⟨hc, hcs⟩ := List.forall_mem_cons.mp h
        simp only [List.mem_cons, List.not_mem_nil, or_false, not_or] at hc
        refine .cons (fun next => ?_) (fun next => rfl) (ih hcs)
        simp [State.step, Mode.readsCode?, Mode.inside, hc]
  have hopens : Mute ⟨.code last, depths⟩ ⟨.quoted '"', depths⟩ ('"' :: cs) :=
    .cons (fun _ => rfl) (fun _ => by simp [State.isCode, Mode.readsCode?, opened?]) hinside
  rw [← codeThrough_none]
  exact (hopens none).2 start

/-- With a quotation mark as its body, the script has no test behind the slash. -/
lemma length_test_le (hfront : State.through {} (some '/') front = ⟨.code last, depths⟩)
    (h : regexMayFollow last = false) (hback : ∀ c ∈ back, c ∉ ['"', '\\', '\n'])
    {test : List Char} (htest : test ∈ (split (filled front ['"'] back)).tests) :
    test.length ≤ front.length := by
  obtain ⟨span, hspan, rfl⟩ := List.mem_map.mp htest
  obtain ⟨-, close, hcloses, hstop⟩ := isTest_of_mem_spans hspan
  have hquote :
      codeFrom (front.length + 1) ⟨.code (some '/'), depths⟩ ('"' :: '/' :: back) = [] := by
    refine codeFrom_quote (fun c hc => ?_) _
    rcases List.mem_cons.mp hc with rfl | hc
    · decide
    · exact hback c hc
  -- the code ends with the slash
  have hlt : close < front.length := by
    have hmem := hcloses.mem_code
    rw [code, filled, codeFrom_append] at hmem
    rcases List.mem_append.mp hmem with hmem | hmem
    · have := mem_codeThrough hmem
      simp only at this
      omega
    · have hhead : ('/' :: (['"'] ++ '/' :: back)).head? = some '/' := rfl
      rw [hhead, hfront, codeFrom, List.singleton_append, List.head?_cons,
        step_slash h (by decide), Nat.zero_add, hquote] at hmem
      split_ifs at hmem
      · exact absurd (Prod.mk.inj (List.mem_singleton.mp hmem)).2 (by decide)
      · cases hmem
  have := @testEnd_filled_le front back ['"'] close hlt
  rw [length_slice ((inOrder_spans _).bounds span hspan).2]
  omega

/-- The brackets and quotation marks that close the substitutions that are being read. -/
def closers (depths : List ℕ) : List Char :=
  depths.flatMap fun d => List.replicate (d + 1) ')' ++ ['`']

/-- A substitution ends with the bracket that closes it, and its template with the next quotation
mark. -/
lemma exists_through_closers (last : Option Char) (depths : List ℕ) (after : Option Char) :
    ∃ last', (⟨.code last, depths⟩ : State).through after (closers depths) =
      ⟨.code last', []⟩ := by
  induction depths generalizing last after with
  | nil => exact ⟨last, rfl⟩
  | cons d ds ih =>
      have hbrackets (last after : Option Char) :
          (⟨.code last, d :: ds⟩ : State).through after (List.replicate (d + 1) ')') =
            ⟨.template, ds⟩ := by
        induction d generalizing last after with
        | zero => rfl
        | succ d ihd =>
            rw [List.replicate_succ, State.through]
            exact ihd (some ')') after
      obtain ⟨last', hrest⟩ := ih (some '`') after
      refine ⟨last', ?_⟩
      rw [closers, List.flatMap_cons, State.through_append, State.through_append, hbrackets]
      exact hrest

/-! ### A call at the end of a script -/

/-- A call of `it`. -/
def plainCall (inner : List Char) : List Char := "it(".toList ++ (inner ++ [')'])

section Call

variable {before inner : List Char} {ps : List (ℕ × Char)} {p : ℕ × Char}
  (hcode : code (before ++ plainCall inner) =
    (ps ++ [p]) ++ spelled before.length (plainCall inner))
  (hp : p.2 = ';') (hlevel : levelOf (ps ++ [p]) = 0)
include hcode

/-- The code up to the parenthesis that ends the call. -/
lemma code_eq_concat : code (before ++ plainCall inner) =
    ((ps ++ [p]) ++ spelled before.length ("it(".toList ++ inner)) ++
      [(before.length + (inner.length + 3), ')')] := by
  have hlength : ("it(".toList ++ inner).length = inner.length + 3 := by
    rw [List.length_append]
    exact Nat.add_comm _ _
  rw [hcode, plainCall, ← List.append_assoc, spelled_append, hlength, List.append_assoc (ps ++ [p])]
  rfl

include hlevel

lemma opens_plainCall (hlast : before.getLast? = some ';') :
    Opens (before ++ plainCall inner) before.length := by
  refine ⟨by rw [hcode]; exact List.mem_append_right _ List.mem_cons_self, ?_,
    by rw [openBefore_of_code hcode, hlevel]⟩
  have hne : 0 < before.length := by
    rw [List.length_pos_iff]
    rintro rfl
    cases hlast
  have hprev : (before ++ plainCall inner)[before.length - 1]? = some ';' := by
    rw [List.getElem?_append_left (by omega), ← hlast, List.getLast?_eq_getElem?]
  rw [opensTest, List.drop_left, hprev, Bool.and_eq_true]
  exact ⟨rfl, by simp [isNamePart, show Text.isWord ';' = false by decide]⟩

variable (hinner : ∀ c ∈ inner, isOpener c = false ∧ isCloser c = false)
include hinner

/-- The first parenthesis that closes something in the call ends it. -/
lemma closes_plainCall :
    Closes (before ++ plainCall inner) before.length (before.length + (inner.length + 3)) := by
  have hend := code_eq_concat hcode
  have hinside : levelOf ((ps ++ [p]) ++ spelled before.length ("it(".toList ++ inner)) = 1 := by
    rw [levelOf, List.map_append, levelAfter_append, ← levelOf, hlevel, map_snd_spelled,
      levelAfter_append, levelAfter_plain hinner]
    rfl
  refine ⟨by omega, by rw [hend]; exact List.mem_concat_self, ?_, fun q hq hl hr hclose => ?_⟩
  · rw [openBefore_succ_of_code hend, hinside]
    rfl
  · exfalso
    rw [hend] at hq
    rcases List.mem_append.mp hq with hq | hq
    · rcases List.mem_append.mp hq with hq | hq
      · have := (position_of_code hcode).1 q hq
        simp only at this
        omega
      · have hmem := snd_mem_of_mem_spelled hq
        rw [hclose] at hmem
        rcases List.mem_append.mp hmem with hmem | hmem
        · exact absurd hmem (by decide)
        · exact absurd (hinner _ hmem).2 (by decide)
    · rw [List.mem_singleton.mp hq] at hr
      exact lt_irrefl _ hr

include hp

/-- The call is a test, or the end of one. -/
lemma exists_span_plainCall (hlast : before.getLast? = some ';') :
    ∃ span ∈ spans (before ++ plainCall inner),
      span.1 ≤ before.length ∧ before.length + inner.length < span.2 := by
  have hopens := opens_plainCall hcode hlevel hlast
  have hcloses := closes_plainCall hcode hlevel hinner
  have hstatement : StatementAt (before ++ plainCall inner) before.length := by
    refine ⟨ps ++ [p], [], 'i', _, by rw [List.append_nil]; exact hcode, fun q hq => ?_,
      by simp, ?_⟩
    · rw [List.getLast?_concat] at hq
      obtain rfl := Option.some.inj hq
      rw [hp]
      decide
    · rw [List.getLast?_concat, Option.map_some, hp]
      rfl
  obtain ⟨span, hspan, hl, hr⟩ := exists_span_of_call hopens hstatement hcloses
  refine ⟨span, hspan, hl, ?_⟩
  obtain ⟨-, close, hcloses', hstop⟩ := isTest_of_mem_spans hspan
  have hget := getElem?_of_mem_code hopens.mem_code
  have hlt : before.length < close := by
    by_contra hle
    have hne : close ≠ before.length := by
      rintro rfl
      have hget' := getElem?_of_mem_code hcloses'.mem_code
      rw [hget] at hget'
      exact absurd (Option.some.inj hget') (by simp)
    have := eq_of_lt_testEnd (by omega) (hstop ▸ hr) hget
    simp at this
  -- the span ends where the call does
  have hle : before.length + (inner.length + 3) ≤ close := by
    by_contra hlt'
    exact hcloses.first _ hcloses'.mem_code hlt (not_le.mp hlt') rfl hcloses'.openBefore_eq_zero
  have := lt_testEnd (before ++ plainCall inner) close
  omega

end Call

/-! ### A letter as a body -/

/-- A script up to the end of all its templates, where a letter between two slashes is code. -/
def leading (front : List Char) (depths : List ℕ) : List Char :=
  front ++ ("/x/;".toList ++ closers depths ++ [';'])

/-- What closes all that is open after the leading part of a script. -/
def unwinding (front : List Char) (depths : List ℕ) : List Char :=
  List.replicate (levelOf (code (leading front depths))) ')' ++ [';']

/-- A test that is longer than some text. -/
def longTest (front : List Char) : List Char := plainCall (List.replicate front.length '0')

/-- What follows the slashes in front of that test. -/
def following (front : List Char) (depths : List ℕ) : List Char :=
  ';' :: (closers depths ++ ';' :: (unwinding front depths ++ longTest front))

lemma through_leading (hfront : State.through {} (some '/') front = ⟨.code last, depths⟩)
    (h : regexMayFollow last = false) :
    State.through {} none (leading front depths) = ⟨.code (some ';'), []⟩ := by
  have hletter (after : Option Char) : (⟨.code last, depths⟩ : State).through after "/x/;".toList =
      ⟨.code (some ';'), depths⟩ := by
    calc (⟨.code last, depths⟩ : State).through after "/x/;".toList
        = ((((⟨.code last, depths⟩ : State).step '/' (some 'x')).step 'x' (some '/')).step '/'
            (some ';')).step ';' after := rfl
      _ = (((⟨.code (some '/'), depths⟩ : State).step 'x' (some '/')).step '/'
            (some ';')).step ';' after := by rw [step_slash h (by decide)]
      _ = ((⟨.code (some 'x'), depths⟩ : State).step '/' (some ';')).step ';' after := by
          rw [step_plain rfl rfl rfl]
          rfl
      _ = (⟨.code (some '/'), depths⟩ : State).step ';' after := by
          rw [step_slash (by decide) (by decide)]
      _ = ⟨.code (some ';'), depths⟩ := step_plain rfl rfl rfl
  obtain ⟨last', hclosers⟩ := exists_through_closers (some ';') depths (some ';')
  have hhead : ("/x/;".toList ++ closers depths ++ [';']).head?.or none = some '/' := rfl
  rw [leading, State.through_append, hhead, hfront, State.through_append, State.through_append,
    hletter]
  exact congrArg (fun s => State.through s none [';']) hclosers

lemma filled_following (front : List Char) (depths : List ℕ) :
    filled front ['x'] (following front depths) =
      leading front depths ++ (unwinding front depths ++ longTest front) := by
  simp [filled, following, leading]

/-- What follows the leading part is code. -/
lemma code_following (hfront : State.through {} (some '/') front = ⟨.code last, depths⟩)
    (h : regexMayFollow last = false) :
    code (filled front ['x'] (following front depths)) =
      (code (leading front depths) ++
        spelled (leading front depths).length (unwinding front depths)) ++
        spelled ((leading front depths).length + (unwinding front depths).length)
          (longTest front) := by
  have hblind : Blind (leading front depths) := by
    intro c hc
    rw [leading, ← List.append_assoc, List.getLast?_concat] at hc
    obtain rfl := Option.some.inj hc
    decide
  have hsigns : ∀ c ∈ unwinding front depths ++ longTest front, isSign c = true := by
    intro c hc
    rw [unwinding, longTest, plainCall] at hc
    simp only [List.mem_append, List.mem_replicate, List.mem_singleton] at hc
    rcases hc with (⟨-, rfl⟩ | rfl) | hc | ⟨-, rfl⟩ | rfl
    · decide
    · decide
    · have hname : ∀ c ∈ "it(".toList, isSign c = true := by decide
      exact hname c hc
    · decide
    · decide
  obtain ⟨last', hcode⟩ := exists_codeFrom_signs hsigns (leading front depths).length (some ';') []
  rw [List.append_nil] at hcode
  rw [filled_following, code, codeFrom_append, codeThrough_blind hblind,
    (State.through_blind hblind _ none).1, through_leading hfront h, Nat.zero_add, hcode,
    spelled_append, codeFrom, List.append_nil, List.append_assoc, code]

/-- With a letter as its body, the script has a long test behind the slashes. -/
lemma exists_length_test (hfront : State.through {} (some '/') front = ⟨.code last, depths⟩)
    (h : regexMayFollow last = false) :
    ∃ test ∈ (split (filled front ['x'] (following front depths))).tests,
      front.length < test.length := by
  set brackets := List.replicate (levelOf (code (leading front depths))) ')' with hbrackets
  have hcode := code_following hfront h
  have hunwinding : unwinding front depths = brackets ++ [';'] := rfl
  rw [filled_following, ← List.append_assoc, ← List.length_append, hunwinding, spelled_append,
    ← List.append_assoc (code _)] at hcode
  -- all that is open is closed in front of the test
  have hlevel : levelOf ((code (leading front depths) ++
      spelled (leading front depths).length brackets) ++
      spelled ((leading front depths).length + brackets.length) [';']) = 0 := by
    have hzero (k : ℕ) : levelAfter k (List.replicate k ')') = 0 := by
      induction k with
      | zero => rfl
      | succ k ih => exact ih
    rw [levelOf, List.map_append, List.map_append, map_snd_spelled, map_snd_spelled,
      levelAfter_append, levelAfter_append, ← levelOf, hbrackets, hzero]
    rfl
  have hinner : ∀ c ∈ List.replicate front.length '0', isOpener c = false ∧ isCloser c = false := by
    intro c hc
    rw [List.eq_of_mem_replicate hc]
    decide
  obtain ⟨span, hspan, hl, hr⟩ := exists_span_plainCall hcode rfl hlevel hinner
    (by rw [← List.append_assoc, List.getLast?_concat])
  rw [filled_following, ← List.append_assoc, hunwinding, longTest]
  refine ⟨_, List.mem_map_of_mem hspan, ?_⟩
  rw [length_slice ((inOrder_spans _).bounds span hspan).2]
  rw [List.length_replicate] at hr
  omega

/-! ### Bodies and forms -/

lemma Form.map_length_fill (form : Form) {word word' : List Char}
    (h : word.length = word'.length) :
    (form.fill word).tests.map List.length = (form.fill word').tests.map List.length := by
  cases form with
  | inSetup around tests nested => rfl
  | inTest setup earlier around later nested =>
      simp [Form.fill, Surrounding.fill, h]

/-- Behind any other place a body can affect how the script is taken apart. -/
lemma not_exists_form (hfront : State.through {} (some '/') front = ⟨.code last, depths⟩)
    (h : regexMayFollow last = false) :
    ¬ ∃ form : Form, ∀ body, IsRegexBody body →
      form.Holds body (split (filled front body (following front depths))) := by
  rintro ⟨form, hform⟩
  have hletter := hform ['x'] (isRegexBody_singleton (by decide) (by decide))
  have hquote := hform ['"'] (isRegexBody_singleton (by decide) (by decide))
  obtain ⟨test, htest, hlong⟩ := exists_length_test hfront h
  have hback : ∀ c ∈ following front depths, c ∉ ['"', '\\', '\n'] := by
    intro c hc
    have hname : ∀ c ∈ "it(".toList, c ∉ ['"', '\\', '\n'] := by decide
    rw [following, unwinding, longTest, plainCall] at hc
    simp only [closers, List.mem_cons, List.mem_append, List.mem_flatMap, List.mem_replicate,
      List.not_mem_nil, or_false] at hc
    rcases hc with rfl | ⟨d, -, ⟨-, rfl⟩ | rfl⟩ | rfl | (⟨-, rfl⟩ | rfl) | hc | ⟨-, rfl⟩ | rfl
    any_goals decide
    exact hname c hc
  have hlength : test.length ∈
      (split (filled front ['"'] (following front depths))).tests.map List.length := by
    have hslashed : (slashed ['"']).length = (slashed ['x']).length := rfl
    rw [hquote.tests_eq, form.map_length_fill hslashed, ← hletter.tests_eq]
    exact List.mem_map_of_mem htest
  obtain ⟨test', htest', heq⟩ := List.mem_map.mp hlength
  have := length_test_le hfront h hback htest'
  omega

/-- **Exactly where a slash opens a regular expression for the scanner, its body does not affect how
a script is taken apart**: there the script has one form for all bodies, and a body stands in one
piece of it, in the set-up or in a test. -/
theorem regex_body_immaterial_iff
    (hfront : State.through {} (some '/') front = ⟨.code last, depths⟩) :
    (∀ back, ∃ form : Form, ∀ body, IsRegexBody body →
      form.Holds body (split (filled front body back))) ↔ regexMayFollow last = true := by
  constructor
  · intro hforms
    by_contra h
    exact not_exists_form hfront (Bool.not_eq_true _ ▸ h) (hforms _)
  · exact fun h back => exists_form_of_regexMayFollow hfront h back

/-- Behind an equals sign no body of a regular expression does. -/
theorem assigned_regex_immaterial :
    State.through {} (some '/') "const ok = ".toList = ⟨.code (some '='), []⟩ ∧
      ∀ back, ∃ form : Form, ∀ body, IsRegexBody body →
        form.Holds body (split (filled "const ok = ".toList body back)) := by
  have hfront : State.through {} (some '/') "const ok = ".toList = ⟨.code (some '='), []⟩ := by
    decide +kernel
  exact ⟨hfront, (regex_body_immaterial_iff hfront).mpr rfl⟩

/-- A statement up to a regular expression that it returns. -/
def returnFront : List Char := "const f = () => \x7b return ".toList

/-- What follows the regular expression, with a test behind the statement. -/
def returnBack : List Char := ".test(x); \x7d;\nit(\"a\", function () \x7b\x7d);".toList

/-- Behind `return` the quotation mark opens a string, and the test is lost in the statement; if the
body is a letter, the script has its test. -/
theorem returned_regex_read_as_code :
    IsRegexBody ['"'] ∧ IsRegexBody ['x'] ∧
      State.through {} (some '/') returnFront = ⟨.code (some 'n'), []⟩ ∧
      split (filled returnFront ['"'] returnBack) =
        ⟨filled returnFront ['"'] returnBack, [], true⟩ ∧
      split (filled returnFront ['x'] returnBack) =
        ⟨"const f = () => \x7b return /x/.test(x); \x7d;".toList,
          ["it(\"a\", function () \x7b\x7d);".toList], false⟩ := by
  refine ⟨isRegexBody_singleton (by decide) (by decide),
    isRegexBody_singleton (by decide) (by decide), ?_, ?_, ?_⟩ <;> decide +kernel

end RequestSuite.Script
