/-
The skeletons of what is written into a test file.

* `Inert`: a text that goes on inside a literal; `inert_escape`, `inert_quoteChar`;
* `shows_quoted`: of a literal only its first quotation mark is seen;
* `Quiet`: a text that leads from code to code and closes just the brackets that it opens;
* `QuietIn`: such a text of which only characters of a kind are seen;
* `notMem_quote`: no line break of a JSON text comes from a string in it; `putMargin_pretty`: so a
  margin put after each of them is one behind which the value is written;
* `quietIn_pretty`: bodies; `quietIn_objectLiteral`: headers;
* `quiet_plainCall`, `quiet_enhancedCall`: the call that sends a request.
-/
import RequestSuite.Proofs.FileText
import RequestSuite.Proofs.Scopes

namespace RequestSuite.Script

open Text (isBlank hex hexDigit)

variable {q c o : Char} {r r' : Bool} {cs ds xs : List Char}

/-! ### Literals -/

/-- A text inside a literal that neither ends it nor stops in the middle of an escape. -/
def Inert (q : Char) (cs : List Char) : Prop :=
  ∀ after, (⟨.quoted q, []⟩ : State).through after cs = ⟨.quoted q, []⟩ ∧
    (⟨.quoted q, []⟩ : State).skeleton after cs = []

lemma Inert.nil (q : Char) : Inert q [] := fun _ => ⟨rfl, rfl⟩

lemma Inert.append (h : Inert q cs) (h' : Inert q ds) : Inert q (cs ++ ds) := by
  intro after
  obtain ⟨hthrough, hskeleton⟩ := h (ds.head?.or after)
  rw [State.through_append, State.skeleton_append, hthrough, hskeleton]
  exact h' after

lemma Inert.plain (h : c ∉ ['\\', q, '\n']) : Inert q [c] := by
  simp only [List.mem_cons, List.not_mem_nil, or_false, not_or] at h
  intro after
  simp [State.through, State.skeleton, State.step, State.shown, Mode.readsCode?, Mode.inside, h]

lemma Inert.escaped (q c : Char) : Inert q ['\\', c] := by
  intro after
  simp [State.through, State.skeleton, State.step, State.shown, Mode.readsCode?, Mode.inside]

lemma Inert.of_forall (h : ∀ c ∈ cs, c ∉ ['\\', q, '\n']) : Inert q cs := by
  induction cs with
  | nil => exact .nil q
  | cons c cs ih =>
      obtain ⟨hc, hcs⟩ := List.forall_mem_cons.mp h
      exact (Inert.plain hc).append (ih hcs)

/-- The characters of names mean nothing to a reader of literals and brackets. -/
lemma not_sign_of_nameChar (h : isNameChar c = true) :
    c ∉ ['\\', '\'', '"', '`', '/', '\n'] ∧ isOpener c = false ∧ isCloser c = false := by
  refine ⟨fun hc => ?_, ?_, ?_⟩
  · simp only [List.mem_cons, List.not_mem_nil, or_false] at hc
    rcases hc with rfl | rfl | rfl | rfl | rfl | rfl <;> exact absurd h (by decide)
  · by_contra ho
    rw [Bool.not_eq_false] at ho
    rw [(not_nameChar_of_bracket (Or.inl ho)).1] at h
    simp at h
  · by_contra hc
    rw [Bool.not_eq_false] at hc
    rw [(not_nameChar_of_bracket (Or.inr hc)).1] at h
    simp at h

/-- Digits and letters are written for a number. -/
lemma isNameChar_of_mem_hex {width n : ℕ} (h : c ∈ hex width n) : isNameChar c = true := by
  have hdigit (n : ℕ) : isNameChar (hexDigit (n % 16)) = true := by
    have hall : ∀ k : Fin 16, isNameChar (hexDigit k) = true := by decide
    exact hall ⟨n % 16, Nat.mod_lt n (by decide)⟩
  induction width generalizing n with
  | zero => simp [hex] at h
  | succ width ih =>
      rw [hex, List.mem_append, List.mem_singleton] at h
      rcases h with h | rfl
      · exact ih h
      · exact hdigit n

lemma inert_unicode (hq : q = '\'' ∨ q = '"') (n : ℕ) : Inert q ('\\' :: 'u' :: hex 4 n) := by
  have hdigits : Inert q (hex 4 n) := by
    refine .of_forall fun c hc => ?_
    obtain ⟨hsign, -⟩ := not_sign_of_nameChar (isNameChar_of_mem_hex hc)
    simp only [List.mem_cons, List.not_mem_nil, or_false, not_or] at hsign ⊢
    rcases hq with rfl | rfl <;> simp [hsign]
  exact (Inert.escaped q 'u').append hdigits

lemma inert_letters {letters : List Char} (h : escapeLetter? c = some letters) :
    Inert '\'' ('\\' :: letters) := by
  unfold escapeLetter? at h
  split_ifs at h <;> obtain rfl := Option.some.inj h
  iterate 6 exact .escaped _ _
  exact inert_unicode (Or.inl rfl) _

lemma inert_escapeChar (c : Char) : Inert '\'' (escapeChar c) := by
  unfold escapeChar
  split_ifs with hmark
  · exact .escaped _ c
  · simp only [Bool.or_eq_true, decide_eq_true_eq, not_or] at hmark
    cases hletter : escapeLetter? c with
    | some letters => exact inert_letters hletter
    | none =>
        have hline : c ≠ '\n' := by
          rintro rfl
          simp [escapeLetter?] at hletter
        exact .plain (by simp [hmark, hline])

/-- An escaped text goes on inside a literal. -/
lemma inert_escape (text : List Char) : Inert '\'' (escape text) := by
  induction text with
  | nil => exact .nil _
  | cons c text ih =>
      rw [escape_cons]
      split_ifs
      · exact (Inert.escaped '\'' '$').append ih
      · exact (inert_escapeChar c).append ih

lemma inert_quoteChar (c : Char) : Inert '"' (Json.quoteChar c) := by
  unfold Json.quoteChar
  split_ifs with hquote hslash hline
  iterate 7 exact .escaped _ _
  · exact inert_unicode (Or.inr rfl) _
  · exact .plain (by simp [hquote, hslash, hline])

/-- Of a literal only its first quotation mark is seen. -/
lemma shows_quoted (hq : q = '\'' ∨ q = '"') (h : Inert q cs) :
    Shows r (q :: cs ++ [q]) false [q] := by
  intro after
  obtain ⟨hthrough, hskeleton⟩ := h (some q)
  have hopen (next : Option Char) : (ready r).step q next = ⟨.quoted q, []⟩ ∧
      (ready r).shown q next = [q] := by
    rcases hq with rfl | rfl <;> simp [ready, State.step, State.shown, Mode.readsCode?, opened?]
  have hclose : (⟨.quoted q, []⟩ : State).step q after = ⟨.code (some q), []⟩ ∧
      (⟨.quoted q, []⟩ : State).shown q after = [] := by
    rcases hq with rfl | rfl <;> simp [State.step, State.shown, Mode.readsCode?, Mode.inside]
  rw [List.cons_append, State.through, State.skeleton, (hopen _).1, (hopen _).2,
    State.through_append, State.skeleton_append, List.head?_cons, Option.some_or, hthrough,
    hskeleton, State.through, State.skeleton, List.head?_nil, Option.none_or, hclose.1, hclose.2]
  refine ⟨?_, rfl⟩
  rw [State.through, forget_code]
  rcases hq with rfl | rfl <;> rfl

/-! ### Texts that leave no bracket open -/

/-- **A text that can stand anywhere in code**: it leads from code to code, and its brackets
match. -/
def Quiet (text : List Char) : Prop := ∀ r, ∃ r' xs, Shows r text r' xs ∧ Balanced xs

/-- Such a text of which only characters of a kind are seen. -/
def QuietIn (kind : Char → Prop) (text : List Char) : Prop :=
  ∀ r, ∃ r' xs, Shows r text r' xs ∧ Balanced xs ∧ ∀ c ∈ xs, kind c

variable {kind : Char → Prop}

lemma QuietIn.quiet (h : QuietIn kind cs) : Quiet cs := by
  intro r
  obtain ⟨r', xs, hshows, hxs, -⟩ := h r
  exact ⟨r', xs, hshows, hxs⟩

lemma Quiet.quietIn (h : Quiet cs) : QuietIn (fun _ => True) cs := by
  intro r
  obtain ⟨r', xs, hshows, hxs⟩ := h r
  exact ⟨r', xs, hshows, hxs, fun _ _ => trivial⟩

lemma Balanced.append (h : Balanced cs) (h' : Balanced ds) : Balanced (cs ++ ds) := by
  rw [Balanced, depthAfter?_append, h.depthAfter?]
  exact h'

lemma Balanced.brackets (ho : isOpener o = true) (hc : isCloser c = true) (h : Balanced cs) :
    Balanced (o :: (cs ++ [c])) := by
  rw [Balanced, depthAfter?_cons, if_neg (by simp [isCloser_of_isOpener ho]), level_opener ho,
    depthAfter?_append, h.depthAfter?, Option.bind_some, depthAfter?_cons, if_neg (by simp),
    level_closer hc]
  rfl

lemma QuietIn.nil : QuietIn kind [] := fun r => ⟨r, [], .nil r, rfl, by simp⟩

lemma QuietIn.append (h : QuietIn kind cs) (h' : QuietIn kind ds) : QuietIn kind (cs ++ ds) := by
  intro r
  obtain ⟨r', xs, hshows, hxs, hkind⟩ := h r
  obtain ⟨r'', ys, hshows', hys, hkind'⟩ := h' r'
  exact ⟨r'', xs ++ ys, hshows.append hshows', hxs.append hys,
    List.forall_mem_append.mpr ⟨hkind, hkind'⟩⟩

lemma Quiet.append (h : Quiet cs) (h' : Quiet ds) : Quiet (cs ++ ds) :=
  (h.quietIn.append h'.quietIn).quiet

/-- A character that opens no literal and no comment. -/
lemma shows_sign (h : c ∉ ['\'', '"', '`', '/']) (r : Bool) : ∃ r', Shows r [c] r' [c] := by
  simp only [List.mem_cons, List.not_mem_nil, or_false, not_or] at h
  obtain ⟨hsingle, hdouble, htick, hslash⟩ := h
  have hopened (last next : Option Char) : opened? last c next = none := by
    simp [opened?, hsingle, hdouble, htick, hslash]
  refine ⟨regexMayFollow (lastAfter (if r then none else some ')') c), fun after => ?_⟩
  have hstep : (ready r).step c after = ⟨.code (lastAfter (if r then none else some ')') c), []⟩ ∧
      (ready r).shown c after = [c] := by
    simp [ready, State.step, State.shown, Mode.readsCode?, hopened, afterCode]
  rw [State.through, State.skeleton, State.skeleton, List.head?_nil, Option.none_or, hstep.1,
    hstep.2, State.through]
  exact ⟨forget_code _, rfl⟩

/-- Characters that are no brackets and open no literal and no comment. -/
def Plain (cs : List Char) : Prop :=
  ∀ c ∈ cs, c ∉ ['\'', '"', '`', '/'] ∧ isOpener c = false ∧ isCloser c = false

lemma Plain.append (h : Plain cs) (h' : Plain ds) : Plain (cs ++ ds) :=
  List.forall_mem_append.mpr ⟨h, h'⟩

lemma Plain.of_nameChars (h : ∀ c ∈ cs, isNameChar c = true) : Plain cs := by
  intro c hc
  obtain ⟨hsign, hbracket⟩ := not_sign_of_nameChar (h c hc)
  simp only [List.mem_cons, List.not_mem_nil, or_false, not_or] at hsign ⊢
  exact ⟨by simp [hsign], hbracket⟩

lemma Plain.of_all
    (h : (cs.all fun c => c ∉ ['\'', '"', '`', '/'] && !isOpener c && !isCloser c) = true) :
    Plain cs := by
  intro c hc
  simpa [and_assoc] using List.all_eq_true.mp h c hc

/-- Plain characters are seen as they are. -/
lemma Plain.shows (h : Plain cs) (r : Bool) : ∃ r', Shows r cs r' cs := by
  induction cs generalizing r with
  | nil => exact ⟨r, .nil r⟩
  | cons c cs ih =>
      obtain ⟨⟨hc, -⟩, hcs⟩ := List.forall_mem_cons.mp h
      obtain ⟨r', hr'⟩ := shows_sign hc r
      obtain ⟨r'', hr''⟩ := ih hcs r'
      exact ⟨r'', hr'.append hr''⟩

lemma Plain.balanced (h : Plain cs) : Balanced cs := by
  induction cs with
  | nil => rfl
  | cons c cs ih =>
      obtain ⟨⟨-, hopener, hcloser⟩, hcs⟩ := List.forall_mem_cons.mp h
      rw [Balanced, depthAfter?_cons, if_neg (by simp [hcloser]), level_plain hopener hcloser]
      exact ih hcs

lemma QuietIn.of_plain (h : Plain cs) (hkind : ∀ c ∈ cs, kind c) : QuietIn kind cs := by
  intro r
  obtain ⟨r', hr'⟩ := h.shows r
  exact ⟨r', cs, hr', h.balanced, hkind⟩

lemma Quiet.of_plain (h : Plain cs) : Quiet cs :=
  (QuietIn.of_plain h fun _ _ => trivial : QuietIn (fun _ => True) cs).quiet

lemma Quiet.of_all
    (h : (cs.all fun c => c ∉ ['\'', '"', '`', '/'] && !isOpener c && !isCloser c) = true) :
    Quiet cs :=
  .of_plain (.of_all h)

lemma QuietIn.of_all
    (h : (cs.all fun c => c ∉ ['\'', '"', '`', '/'] && !isOpener c && !isCloser c) = true)
    (hp : 'p' ∉ cs) : QuietIn (· ≠ 'p') cs :=
  .of_plain (.of_all h) fun _ hc => ne_of_mem_of_not_mem hc hp

lemma not_mark_of_bracket (h : isOpener c = true ∨ isCloser c = true) :
    c ∉ ['\'', '"', '`', '/'] := by
  simp only [isOpener, isCloser, Bool.or_eq_true, beq_iff_eq] at h
  rcases h with ((rfl | rfl) | rfl) | (rfl | rfl) | rfl <;> decide

/-- A text between brackets. -/
lemma QuietIn.brackets (ho : isOpener o = true) (hc : isCloser c = true) (hkind : kind o ∧ kind c)
    (h : QuietIn kind cs) : QuietIn kind (o :: (cs ++ [c])) := by
  intro r
  obtain ⟨r₁, hopener⟩ := shows_sign (not_mark_of_bracket (Or.inl ho)) r
  obtain ⟨r₂, xs, hshows, hxs, hin⟩ := h r₁
  obtain ⟨r₃, hcloser⟩ := shows_sign (not_mark_of_bracket (Or.inr hc)) r₂
  refine ⟨r₃, _, hopener.append (hshows.append hcloser), hxs.brackets ho hc, ?_⟩
  simp only [List.singleton_append, List.forall_mem_cons, List.forall_mem_append]
  exact ⟨hkind.1, hin, hkind.2, by simp⟩

lemma Quiet.brackets (ho : isOpener o = true) (hc : isCloser c = true) (h : Quiet cs) :
    Quiet (o :: (cs ++ [c])) :=
  (h.quietIn.brackets ho hc ⟨trivial, trivial⟩).quiet

lemma quietIn_quoted (hq : q = '\'' ∨ q = '"') (hkind : kind q) (h : Inert q cs) :
    QuietIn kind (q :: cs ++ [q]) := by
  refine fun r => ⟨false, [q], shows_quoted hq h, ?_, by simpa using hkind⟩
  rcases hq with rfl | rfl <;> decide

lemma quiet_quoted (hq : q = '\'' ∨ q = '"') (h : Inert q cs) : Quiet (q :: cs ++ [q]) :=
  (quietIn_quoted hq trivial h : QuietIn (fun _ => True) _).quiet

lemma quietIn_quote (text : List Char) : QuietIn (· ≠ 'p') (quote text) :=
  quietIn_quoted (Or.inl rfl) (by decide) (inert_escape text)

lemma QuietIn.flatMap {α : Type} {f : α → List Char} {items : List α}
    (h : ∀ a ∈ items, QuietIn kind (f a)) : QuietIn kind (items.flatMap f) := by
  induction items with
  | nil => exact .nil
  | cons a items ih =>
      obtain ⟨ha, hitems⟩ := List.forall_mem_cons.mp h
      exact ha.append (ih hitems)

lemma QuietIn.intercalate {gap : List Char} {pieces : List (List Char)} (hgap : QuietIn kind gap)
    (h : ∀ piece ∈ pieces, QuietIn kind piece) : QuietIn kind (List.intercalate gap pieces) := by
  induction pieces with
  | nil => exact .nil
  | cons piece pieces ih =>
      obtain ⟨hpiece, hpieces⟩ := List.forall_mem_cons.mp h
      cases pieces with
      | nil => simpa using hpiece
      | cons next pieces =>
          rw [List.intercalate_cons_cons]
          exact (hpiece.append hgap).append (ih hpieces)

end RequestSuite.Script

/-! ### Bodies -/

namespace RequestSuite.Json

open Script (QuietIn Plain isNameChar)

lemma quietIn_quote (s : String) : QuietIn (· ≠ 'p') (quote s) := by
  refine Script.quietIn_quoted (Or.inr rfl) (by decide) ?_
  induction s.toList with
  | nil => exact .nil _
  | cons c cs ih => exact (Script.inert_quoteChar c).append ih

/-- The characters with which numbers are written. -/
def isFigure (c : Char) : Bool := c.isDigit || "-+.eNaInfity".toList.contains c

/-- A text of such characters. -/
def Figures (cs : List Char) : Prop := ∀ c ∈ cs, isFigure c = true

lemma Figures.append {cs ds : List Char} (h : Figures cs) (h' : Figures ds) : Figures (cs ++ ds) :=
  List.forall_mem_append.mpr ⟨h, h'⟩

lemma Figures.of_all {cs : List Char} (h : cs.all isFigure = true) : Figures cs :=
  List.all_eq_true.mp h

/-- Figures are digits or one of a few letters and signs. -/
lemma Figures.quietIn {cs : List Char} (h : Figures cs) : QuietIn (· ≠ 'p') cs := by
  have hfigure : ∀ c, isFigure c = true → Plain [c] ∧ c ≠ 'p' := by
    intro c hc
    rcases Bool.or_eq_true_iff.mp hc with hdigit | hsign
    · have hascii : c.toNat < 0x80 := by
        simp only [Char.isDigit, Bool.and_eq_true, decide_eq_true_eq] at hdigit
        have hle : c.toNat ≤ 57 := hdigit.2
        omega
      refine ⟨.of_nameChars fun d hd => ?_, ?_⟩
      · rw [List.mem_singleton.mp hd]
        simp [isNameChar, Text.isWord, Text.isAlphanumeric, hascii, Char.isAlphanum, hdigit]
      · rintro rfl
        exact absurd hdigit (by decide)
    · have hmem : c ∈ "-+.eNaInfity".toList := List.contains_iff_mem.mp hsign
      have hsigns : Plain "-+.eNaInfity".toList := .of_all (by decide)
      refine ⟨fun d hd => hsigns d (List.mem_singleton.mp hd ▸ hmem), ?_⟩
      rintro rfl
      exact absurd hmem (by decide)
  exact .of_plain (fun c hc => (hfigure c (h c hc)).1 c (List.mem_singleton_self c))
    fun c hc => (hfigure c (h c hc)).2

lemma figures_digits (n : ℕ) : Figures (Nat.toDigits 10 n) := by
  intro c hc
  rw [isFigure, Nat.isDigit_of_mem_toDigits (by decide) (by decide) hc, Bool.true_or]

lemma figures_zeros (n : ℕ) : Figures (zeros n) := by
  intro c hc
  rw [List.eq_of_mem_replicate hc]
  decide

lemma figures_minus (negative : Bool) : Figures (if negative then ['-'] else []) := by
  cases negative
  · exact .of_all rfl
  · exact .of_all rfl

/-- The layout of a number adds a point, an exponent and zeros to its digits. -/
lemma figures_layout {digits : List Char} (h : Figures digits) (point : ℤ) :
    Figures (numberStyle.layout digits point) := by
  have htake (n : ℕ) : Figures (digits.take n) := fun c hc => h c (List.mem_of_mem_take hc)
  have hdrop (n : ℕ) : Figures ('.' :: digits.drop n) :=
    (.of_all rfl : Figures ['.']).append fun c hc => h c (List.mem_of_mem_drop hc)
  unfold NumberStyle.layout
  simp only
  split
  · refine ((((htake 1).append ?_).append ?_).append (figures_zeros _)).append (figures_digits _)
    · split
      · exact .of_all rfl
      · exact hdrop 1
    · split
      · exact .of_all rfl
      · exact .of_all rfl
  · split
    · exact ((.of_all rfl : Figures ['0', '.']).append (figures_zeros _)).append h
    · split
      · exact (h.append (figures_zeros _)).append (.of_all rfl)
      · exact (htake _).append (hdrop _)

lemma figures_text (x : Binary64) : Figures (numberStyle.text x) := by
  cases x with
  | nan => exact .of_all rfl
  | infinite negative => exact (figures_minus negative).append (.of_all rfl)
  | finite negative m e =>
      unfold NumberStyle.text
      simp only
      split
      · exact (figures_minus negative).append (.of_all rfl)
      · refine (figures_minus negative).append (figures_layout (fun c hc => ?_) _)
        have hmem := List.mem_reverse.mp hc
        exact figures_digits _ c (List.mem_reverse.mp (List.dropWhile_sublist _ |>.mem hmem))

lemma figures_intText (n : ℤ) : Figures (intText n) := by
  unfold intText
  split
  · exact (.of_all rfl : Figures ['-']).append (figures_digits _)
  · exact (.of_all rfl : Figures []).append (figures_digits _)

lemma Figures.notMem {cs : List Char} (h : Figures cs) : '\n' ∉ cs := fun hmem =>
  absurd (h _ hmem) (by decide)

/-- **No line break comes from a string**: the break in it is escaped. -/
lemma notMem_quote (s : String) : '\n' ∉ quote s := by
  have hchar (c : Char) : '\n' ∉ quoteChar c := by
    unfold quoteChar
    split_ifs with _ _ hbreak
    iterate 7 decide
    · simp only [List.mem_cons, not_or]
      exact ⟨by decide, by decide, fun hmem =>
        absurd (Script.isNameChar_of_mem_hex hmem) (by decide)⟩
    · simpa using Ne.symm hbreak
  simp only [quote, List.mem_append, List.mem_cons, List.mem_flatMap, List.not_mem_nil, or_false]
  rintro ((h | ⟨c, -, hc⟩) | h)
  · exact absurd h (by decide)
  · exact hchar c hc
  · exact absurd h (by decide)

/-! ### Margins -/

lemma putMargin_append (margin : ℕ) (cs ds : List Char) :
    putMargin margin (cs ++ ds) = putMargin margin cs ++ putMargin margin ds :=
  List.flatMap_append

lemma putMargin_cons {c : Char} (h : c ≠ '\n') (margin : ℕ) (cs : List Char) :
    putMargin margin (c :: cs) = c :: putMargin margin cs := by
  rw [putMargin, List.flatMap_cons, if_neg h]
  rfl

lemma putMargin_eq_self {cs : List Char} (h : '\n' ∉ cs) (margin : ℕ) :
    putMargin margin cs = cs := by
  induction cs with
  | nil => rfl
  | cons c cs ih =>
      obtain ⟨hc, hcs⟩ := not_or.mp (List.mem_cons.not.mp h)
      rw [putMargin_cons (Ne.symm hc), ih hcs]

lemma putMargin_newLine (margin margin' : ℕ) :
    putMargin margin (newLine margin') = newLine (margin + margin') := by
  have hspaces : '\n' ∉ List.replicate margin' ' ' := fun h =>
    absurd (List.eq_of_mem_replicate h) (by decide)
  rw [newLine, putMargin, List.flatMap_cons, if_pos rfl, ← putMargin,
    putMargin_eq_self hspaces, newLine, newLine, List.cons_append,
    List.replicate_append_replicate]

mutual

/-- **Margins add up**: a margin put after every line break of a JSON value is one behind which the
value is written. -/
lemma putMargin_pretty (margin margin' : ℕ) (v : Json) :
    putMargin margin (pretty margin' v) = pretty (margin + margin') v := by
  cases v with
  | null => rfl
  | bool b => cases b <;> rfl
  | int n => exact putMargin_eq_self (figures_intText n).notMem margin
  | float x => exact putMargin_eq_self (figures_text x).notMem margin
  | str s => exact putMargin_eq_self (notMem_quote s) margin
  | arr items =>
      cases items with
      | nil => rfl
      | cons item items =>
          have hitems := putMargin_prettyItems margin (margin' + 2) (item :: items)
          rw [← Nat.add_assoc] at hitems
          simp only [pretty, List.cons_append, putMargin_append, hitems, putMargin_newLine,
            putMargin_cons (by decide : '[' ≠ '\n'),
            putMargin_eq_self (by decide : '\n' ∉ [']'])]
  | obj fields =>
      cases fields with
      | nil => rfl
      | cons field fields =>
          have hfields := putMargin_prettyFields margin (margin' + 2) (field :: fields)
          rw [← Nat.add_assoc] at hfields
          simp only [pretty, List.cons_append, putMargin_append, hfields, putMargin_newLine,
            putMargin_cons (by decide : '\x7b' ≠ '\n'),
            putMargin_eq_self (by decide : '\n' ∉ ['\x7d'])]

lemma putMargin_prettyItems (margin margin' : ℕ) (items : List Json) :
    putMargin margin (prettyItems margin' items) = prettyItems (margin + margin') items := by
  cases items with
  | nil => rfl
  | cons item items =>
      have hitem := putMargin_pretty margin margin' item
      cases items with
      | nil => rw [prettyItems, putMargin_append, putMargin_newLine, hitem, prettyItems]
      | cons next items =>
          have hitems := putMargin_prettyItems margin margin' (next :: items)
          simp only [prettyItems, putMargin_append, putMargin_newLine, hitem, hitems,
            putMargin_cons (by decide : ',' ≠ '\n')]

lemma putMargin_prettyFields (margin margin' : ℕ) (fields : List (String × Json)) :
    putMargin margin (prettyFields margin' fields) = prettyFields (margin + margin') fields := by
  cases fields with
  | nil => rfl
  | cons field fields =>
      obtain ⟨key, item⟩ := field
      have hitem := putMargin_pretty margin margin' item
      have hkey := putMargin_eq_self (notMem_quote key) margin
      cases fields with
      | nil =>
          simp only [prettyFields, putMargin_append, putMargin_newLine, hkey, hitem,
            putMargin_cons (by decide : ':' ≠ '\n'), putMargin_cons (by decide : ' ' ≠ '\n')]
      | cons next fields =>
          have hfields := putMargin_prettyFields margin margin' (next :: fields)
          simp only [prettyFields, putMargin_append, putMargin_newLine, hkey, hitem, hfields,
            putMargin_cons (by decide : ':' ≠ '\n'), putMargin_cons (by decide : ' ' ≠ '\n'),
            putMargin_cons (by decide : ',' ≠ '\n')]

end

lemma render_json (level : ℕ) (v : Json) :
    (BodyValue.json v).render level = pretty (2 * level) v := by
  rw [BodyValue.render, putMargin_pretty, Nat.add_zero]

lemma quietIn_newLine (margin : ℕ) : QuietIn (· ≠ 'p') (newLine margin) := by
  have hblank : ∀ c ∈ newLine margin, c = '\n' ∨ c = ' ' := by
    intro c hc
    rcases List.mem_cons.mp hc with rfl | hc
    · exact Or.inl rfl
    · exact Or.inr (List.eq_of_mem_replicate hc)
  refine .of_plain (fun c hc => ?_) fun c hc => ?_
  · rcases hblank c hc with rfl | rfl <;> decide
  · rcases hblank c hc with rfl | rfl <;> decide

lemma quietIn_key (margin : ℕ) (key : String) {cs : List Char} (h : QuietIn (· ≠ 'p') cs) :
    QuietIn (· ≠ 'p') (newLine margin ++ quote key ++ ':' :: ' ' :: cs) :=
  ((quietIn_newLine margin).append (quietIn_quote key)).append
    ((QuietIn.of_all rfl (by decide) : QuietIn (· ≠ 'p') [':', ' ']).append h)

lemma quietIn_comma {cs : List Char} (h : QuietIn (· ≠ 'p') cs) : QuietIn (· ≠ 'p') (',' :: cs) :=
  (QuietIn.of_all rfl (by decide) : QuietIn (· ≠ 'p') [',']).append h

mutual

/-- **A JSON value can stand anywhere in code**, and no letter `p` is seen of it. -/
lemma quietIn_pretty (margin : ℕ) (value : Json) : QuietIn (· ≠ 'p') (pretty margin value) := by
  cases value with
  | null => exact (.of_all rfl (by decide) : QuietIn (· ≠ 'p') "null".toList)
  | bool value =>
      cases value
      · exact (.of_all rfl (by decide) : QuietIn (· ≠ 'p') "false".toList)
      · exact (.of_all rfl (by decide) : QuietIn (· ≠ 'p') "true".toList)
  | int n => exact (figures_intText n).quietIn
  | float x => exact (figures_text x).quietIn
  | str s => exact quietIn_quote s
  | arr items =>
      cases items with
      | nil => exact .brackets rfl rfl (by decide) .nil
      | cons item items =>
          have hitems := quietIn_prettyItems (margin + 2) (item :: items)
          exact .brackets rfl rfl (by decide) (hitems.append (quietIn_newLine margin))
  | obj fields =>
      cases fields with
      | nil => exact .brackets rfl rfl (by decide) .nil
      | cons field fields =>
          have hfields := quietIn_prettyFields (margin + 2) (field :: fields)
          exact .brackets rfl rfl (by decide) (hfields.append (quietIn_newLine margin))

lemma quietIn_prettyItems (margin : ℕ) (items : List Json) :
    QuietIn (· ≠ 'p') (prettyItems margin items) := by
  cases items with
  | nil => exact .nil
  | cons item items =>
      have hitem := (quietIn_newLine margin).append (quietIn_pretty margin item)
      cases items with
      | nil => exact hitem
      | cons next items =>
          exact hitem.append (quietIn_comma (quietIn_prettyItems margin (next :: items)))

lemma quietIn_prettyFields (margin : ℕ) (fields : List (String × Json)) :
    QuietIn (· ≠ 'p') (prettyFields margin fields) := by
  cases fields with
  | nil => exact .nil
  | cons field fields =>
      obtain ⟨key, item⟩ := field
      have hitem := quietIn_key margin key (quietIn_pretty margin item)
      cases fields with
      | nil => exact hitem
      | cons next fields =>
          have hfields := quietIn_comma (quietIn_prettyFields margin (next :: fields))
          simpa only [prettyFields, List.append_assoc, List.cons_append] using hitem.append hfields

end

end RequestSuite.Json

/-! ### Calls -/

namespace RequestSuite.Suite

open Script (Quiet QuietIn Plain)

lemma quietIn_literal (text : String) : QuietIn (· ≠ 'p') (literal text).toList := by
  rw [literal, String.toList_ofList]
  exact Script.quietIn_quote _

lemma quietIn_indentation (level : ℕ) : QuietIn (· ≠ 'p') (indentation level).toList := by
  rw [indentation, String.toList_ofList]
  refine .of_plain (fun c hc => ?_) fun c hc => ?_
  · rw [List.eq_of_mem_replicate hc]
    decide
  · rw [List.eq_of_mem_replicate hc]
    decide

/-- The headers of a request. -/
lemma quietIn_objectLiteral (level : ℕ) (members : List (String × String)) :
    QuietIn (· ≠ 'p') (objectLiteral level members).toList := by
  have hline : QuietIn (· ≠ 'p') ['\n'] := .of_all rfl (by decide)
  unfold objectLiteral
  split_ifs
  · exact .brackets rfl rfl (by decide) .nil
  · have hmembers : QuietIn (· ≠ 'p') (joinedLines (members.map fun m : String × String =>
        indentation (level + 1) ++ literal m.1 ++ ": " ++ literal m.2 ++ ",")).toList := by
      rw [toList_joinedLines]
      refine .intercalate hline fun line hline => ?_
      simp only [List.mem_map, exists_exists_and_eq_and] at hline
      obtain ⟨m, -, rfl⟩ := hline
      simp only [String.toList_append]
      exact ((((quietIn_indentation _).append (quietIn_literal _)).append
        (.of_all rfl (by decide))).append (quietIn_literal _)).append (.of_all rfl (by decide))
    have hbody : QuietIn (· ≠ 'p') ('\n' :: ((joinedLines (members.map fun m : String × String =>
        indentation (level + 1) ++ literal m.1 ++ ": " ++ literal m.2 ++ ",")).toList ++
        ('\n' :: (indentation level).toList))) :=
      hline.append (hmembers.append (hline.append (quietIn_indentation level)))
    have hobject := hbody.brackets (o := '\x7b') (c := '\x7d') rfl rfl (by decide)
    simpa using hobject

lemma quietIn_arguments {kind : Char → Prop} {front cs : List Char}
    (hfront : QuietIn kind front) (hkind : kind '(' ∧ kind ')') (h : QuietIn kind cs) :
    QuietIn kind (front ++ "(".toList ++ cs ++ ")".toList) := by
  rw [List.append_assoc, List.append_assoc]
  exact hfront.append (h.brackets rfl rfl hkind)

lemma quiet_arguments {front cs : List Char} (hfront : Plain front) (h : Quiet cs) :
    Quiet (front ++ "(".toList ++ cs ++ ")".toList) :=
  (quietIn_arguments (Quiet.of_plain hfront).quietIn ⟨trivial, trivial⟩ h.quietIn).quiet

lemma quietIn_bodyText (body : BodyValue) : QuietIn (· ≠ 'p') (bodyText body).toList := by
  rw [bodyText, String.toList_ofList]
  cases body with
  | text value => exact Script.quietIn_quote _
  | json value =>
      rw [Json.render_json]
      exact Json.quietIn_pretty _ value

variable {headers : List (String × String)} {body : Option BodyValue} {piece : String}

/-- A setting of a plain call. -/
lemma quietIn_setting
    (h : piece ∈ (headers.map fun h => ".set(" ++ literal h.1 ++ ", " ++ literal h.2 ++ ")") ++
      (body.map fun body => ".send(" ++ bodyText body ++ ")").toList) :
    QuietIn (· ≠ 'p') piece.toList := by
  rcases List.mem_append.mp h with hmem | hmem
  · obtain ⟨header, -, rfl⟩ := List.mem_map.mp hmem
    have hset := quietIn_arguments (.of_all rfl (by decide) : QuietIn (· ≠ 'p') ".set".toList)
      (by decide) (((quietIn_literal header.1).append
        (.of_all rfl (by decide) : QuietIn (· ≠ 'p') ", ".toList)).append
          (quietIn_literal header.2))
    simpa using hset
  · obtain ⟨body, -, rfl⟩ := Option.map_eq_some_iff.mp (Option.mem_toList.mp hmem)
    have hsend := quietIn_arguments (.of_all rfl (by decide) : QuietIn (· ≠ 'p') ".send".toList)
      (by decide) (quietIn_bodyText body)
    simpa using hsend

/-- An argument of an enhanced call after the path: the body, or the headers. -/
lemma quietIn_argument
    (h : piece ∈ (match body with
        | some body => [bodyText body]
        | none => if headers.isEmpty then [] else ["undefined"]) ++
      (if headers.isEmpty then []
        else ["\x7b headers: " ++ objectLiteral callLevel headers ++ " \x7d"])) :
    QuietIn (· ≠ 'p') piece.toList := by
  rcases List.mem_append.mp h with h | h
  · split at h
    · obtain rfl := List.mem_singleton.mp h
      exact quietIn_bodyText _
    · split_ifs at h
      · cases h
      · obtain rfl := List.mem_singleton.mp h
        exact .of_all (by decide) (by decide)
  · split_ifs at h
    · cases h
    · obtain rfl := List.mem_singleton.mp h
      have hmember := ((QuietIn.of_all (by decide) (by decide) :
          QuietIn (· ≠ 'p') " headers: ".toList).append
        (quietIn_objectLiteral callLevel headers)).append
          (.of_all rfl (by decide) : QuietIn (· ≠ 'p') " ".toList)
      have hobject := hmember.brackets (o := '\x7b') (c := '\x7d') rfl rfl (by decide)
      simpa using hobject

variable {call : Call}

lemma quiet_plainCall (hmethod : Plain call.method.toList) :
    Quiet (plainCall call).toList := by
  have hcallee : Plain ("response = await request.".toList ++ call.method.toList) :=
    (.of_all (by decide) : Plain "response = await request.".toList).append hmethod
  have hsettings : QuietIn (· ≠ 'p') ((call.headers.map (fun h =>
        ".set(" ++ literal h.1 ++ ", " ++ literal h.2 ++ ")") ++
      (call.body.map fun body => ".send(" ++ bodyText body ++ ")").toList).flatMap fun setting =>
        "\n".toList ++ (indentation callLevel).toList ++ setting.toList) :=
    .flatMap fun setting hsetting =>
      ((QuietIn.of_all rfl (by decide)).append (quietIn_indentation _)).append
        (quietIn_setting hsetting)
  unfold plainCall
  simp only [String.toList_append, String.toList_join, List.flatMap_map]
  exact ((quiet_arguments hcallee (quietIn_literal call.path).quiet).append
    hsettings.quiet).append (.of_all rfl)

lemma quiet_enhancedCall (hmethod : Plain call.method.toList) :
    Quiet (enhancedCall call).toList := by
  have hcallee : Plain ("response = await api.".toList ++ call.method.toList) :=
    (.of_all (by decide) : Plain "response = await api.".toList).append hmethod
  have hcall {pieces : List String} (h : ∀ piece ∈ pieces, QuietIn (· ≠ 'p') piece.toList) :
      Quiet ("response = await api." ++ call.method ++ "(" ++ String.intercalate ", " pieces ++
        ");").toList := by
    have harguments : QuietIn (· ≠ 'p')
        (List.intercalate ", ".toList (pieces.map String.toList)) := by
      refine .intercalate (.of_all rfl (by decide)) fun piece hpiece => ?_
      obtain ⟨piece, hmem, rfl⟩ := List.mem_map.mp hpiece
      exact h piece hmem
    rw [show (");" : String) = ")" ++ ";" from rfl]
    simp only [String.toList_append, String.toList_intercalate, ← List.append_assoc]
    exact (quiet_arguments hcallee harguments.quiet).append (.of_all rfl)
  refine hcall fun piece hpiece => ?_
  rcases List.mem_cons.mp hpiece with rfl | hpiece
  · exact quietIn_literal _
  · exact quietIn_argument hpiece

end RequestSuite.Suite
