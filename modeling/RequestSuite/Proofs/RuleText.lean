/-
What the rules of adaptation do to literals.

* `Rule.quotes`: the two rules that put quotes into a text; `broken_of_quotes`: a literal that gets
  them ends too early;
* `plain_of_match`, `safe_replacement`, `count_replacement_lt`: the other rules replace text
  without quotes and backslashes by other such text, which has fewer letters `m`;
* `Rewrites.broken`, `Rewrites.single`: what is broken, or ends with the wrong quote, stays so;
* `Rewrites.literal`: a literal is left as it is, or it is broken, or its value has fewer marks;
* `Lost`, `Rewrites.lost`: all of these that cannot be made good.
-/
import Mathlib.Data.Bool.AllAny
import RequestSuite.Proofs.LiteralText
import RequestSuite.Proofs.Passes

namespace RequestSuite.Script

open Literal

/-! ### Texts that the rules read and write -/

/-- Whether a rule reads quotes, and writes quotes of its own. -/
def Rule.quotes : Rule → Bool
  | .testDeclaration | .headerLookup => true
  | _ => false

variable {rule : Rule} {cs after w w' : List Char} {o : Occurrence}

lemma replacement_testDeclaration (captured : List Char) :
    Rule.testDeclaration.replacement captured = "it(".toList ++ '"' :: (captured ++ ['"']) := rfl

lemma replacement_headerLookup (captured : List Char) :
    Rule.headerLookup.replacement captured =
      "response.headers[".toList ++ '"' :: (Text.lower captured ++ ['"', ']']) := rfl

/-- A rule that writes quotes ends a literal too early. -/
lemma broken_of_quotes (h : rule.quotes = true) (escaped : Bool) (captured w : List Char) :
    Broken escaped (rule.replacement captured ++ w) := by
  cases rule with
  | testDeclaration =>
      refine ⟨"it(".toList, captured ++ ['"'] ++ w, ?_, by simp, by cases escaped <;> decide⟩
      rw [replacement_testDeclaration, List.append_assoc, List.cons_append]
  | headerLookup =>
      refine ⟨"response.headers[".toList, Text.lower captured ++ ['"', ']'] ++ w, ?_, by simp,
        by cases escaped <;> decide⟩
      rw [replacement_headerLookup, List.append_assoc, List.cons_append]
  | _ => simp [Rule.quotes] at h

/-- The other rules read no quotes and no backslashes. -/
lemma plain_of_match (hq : rule.quotes = false) (h : rule.pattern.match? cs = some o) :
    ∀ c ∈ o.text, c ∉ ['"', '\'', '\\'] := by
  have hpieces : ∀ piece ∈ rule.pattern,
      (['"', '\'', '\\'].all fun c => ¬ piece.Allows c) = true := by
    cases rule <;> simp only [Rule.quotes, Bool.true_eq_false] at hq <;> decide
  intro c hc hmem
  obtain ⟨piece, hp, ha⟩ := Pattern.allows_of_mem_text h hc
  exact List.all_iff_forall_prop.mp (hpieces piece hp) c hmem ha

lemma notMem_captured (hq : rule.quotes = false) (h : rule.pattern.match? cs = some o) :
    ∀ c ∈ o.captured, c ∉ ['"', '\\', '\n', '\r', '\'', 'm'] := by
  have hpieces : ∀ piece ∈ rule.pattern, piece.captures = true →
      (['"', '\\', '\n', '\r', '\'', 'm'].all fun c => ¬ piece.Allows c) = true := by
    cases rule <;> simp only [Rule.quotes, Bool.true_eq_false] at hq <;> decide
  intro c hc hmem
  obtain ⟨piece, hp, hcap, ha⟩ := Pattern.allows_of_mem_captured h hc
  exact List.all_iff_forall_prop.mp (hpieces piece hp hcap) c hmem ha

/-- What they write is always the same, but for a status code that was captured. -/
lemma replacement_cases (hq : rule.quotes = false) (captured : List Char) :
    rule.replacement captured = rule.replacement [] ∨
      rule.replacement captured =
        "expect(response.status).to.equal(".toList ++ captured ++ [')'] := by
  cases rule with
  | testDeclaration => simp [Rule.quotes] at hq
  | headerLookup => simp [Rule.quotes] at hq
  | statusEquality => exact Or.inr rfl
  | statusHave => exact Or.inr rfl
  | _ => exact Or.inl rfl

/-- It begins with one of three characters. -/
lemma exists_replacement_eq_cons (hq : rule.quotes = false) (captured : List Char) :
    ∃ c r, rule.replacement captured = c :: r ∧ c ∈ ['e', 'r', '/'] := by
  cases rule with
  | testDeclaration => simp [Rule.quotes] at hq
  | headerLookup => simp [Rule.quotes] at hq
  | _ => exact ⟨_, _, rfl, by decide⟩

/-- None of its characters stands for anything but itself in a literal. -/
lemma safe_replacement (hq : rule.quotes = false) (h : rule.pattern.match? cs = some o) :
    ∀ c ∈ rule.replacement o.captured, c ∉ ['"', '\\', '\n', '\r', '\''] := by
  have hfixed : ∀ c ∈ rule.replacement [], c ∉ ['"', '\\', '\n', '\r', '\''] := by
    refine List.all_iff_forall_prop.mp ?_
    cases rule <;> simp only [Rule.quotes, Bool.true_eq_false] at hq <;> decide
  have hstatus : ∀ c ∈ "expect(response.status).to.equal(".toList ++ [')'],
      c ∉ ['"', '\\', '\n', '\r', '\''] := List.all_iff_forall_prop.mp (by decide)
  intro c hc
  rcases replacement_cases hq o.captured with he | he
  · exact hfixed c (he ▸ hc)
  · rw [he, List.mem_append, List.mem_append] at hc
    rcases hc with (hc | hc) | hc
    · exact hstatus c (List.mem_append_left _ hc)
    · exact fun hmem => notMem_captured hq h c hc (List.mem_append_left ['m'] hmem)
    · exact hstatus c (List.mem_append_right _ hc)

/-- Each occurrence begins with a name that has more letters `m` than the text that is always the
same. -/
lemma exists_text_eq_append (hq : rule.quotes = false) (h : rule.pattern.match? cs = some o) :
    ∃ s t, o.text = s ++ t ∧ (rule.replacement []).count 'm' < s.count 'm' := by
  cases rule with
  | testDeclaration => simp [Rule.quotes] at hq
  | headerLookup => simp [Rule.quotes] at hq
  | _ =>
      obtain ⟨t, ht⟩ := prefix_of_match_literal h
      exact ⟨_, t, ht, by decide⟩

/-- What is written has fewer letters `m` than the text in whose place it stands. -/
lemma count_replacement_lt (hq : rule.quotes = false) (h : rule.pattern.match? cs = some o) :
    (rule.replacement o.captured).count 'm' < o.text.count 'm' := by
  obtain ⟨s, t, ht, hlt⟩ := exists_text_eq_append hq h
  rw [ht, List.count_append]
  rcases replacement_cases hq o.captured with he | he
  · rw [he]
    omega
  · have hcaptured : o.captured.count 'm' = 0 := List.count_eq_zero.mpr fun hm =>
      notMem_captured hq h 'm' hm (by decide)
    have hstatus : "expect(response.status).to.equal(".toList.count 'm' = 0 := by decide
    have hend : [')'].count 'm' = 0 := by decide
    rw [he, List.count_append, List.count_append, hcaptured, hstatus, hend]
    omega

/-! ### A rule in the text of a literal -/

lemma escapeOpen_of_notMem {t : List Char} (hne : t ≠ []) (h : '\\' ∉ t) (escaped : Bool) :
    escapeOpen escaped t = false := by
  rcases List.eq_nil_or_concat t with rfl | ⟨s, c, rfl⟩
  · exact absurd rfl hne
  · rw [List.concat_eq_append] at h ⊢
    exact escapeOpen_concat escaped s fun hc => h (by simp [hc])

/-- A text that is broken behind text without quotes is broken. -/
lemma broken_of_append {escaped : Bool} {t : List Char} (ht : '"' ∉ t)
    (h : Broken escaped (t ++ w)) : Broken (escapeOpen escaped t) w := by
  induction t generalizing escaped with
  | nil => exact h
  | cons c t ih =>
      rw [List.mem_cons, not_or] at ht
      obtain ⟨u, v, he, hv, hu⟩ := h
      cases u with
      | nil => exact absurd (List.cons.inj he).1.symm ht.1
      | cons d u =>
          obtain ⟨rfl, htail⟩ := List.cons.inj he
          exact ih ht.2 ⟨u, v, htail, hv, hu⟩

/-- Only of nothing does a rule make nothing. -/
lemma Rewrites.ne_nil (h : Rewrites rule after w w') (hne : w ≠ []) : w' ≠ [] := by
  cases h with
  | nil => exact absurd rfl hne
  | keep hm rest => simp
  | @replace o s s' hm rest =>
      by_cases hq : rule.quotes = true
      · obtain ⟨u, v, he, -, -⟩ := broken_of_quotes hq false o.captured s'
        rw [he]
        simp
      · obtain ⟨c, r, he, -⟩ := exists_replacement_eq_cons (by simpa using hq) o.captured
        rw [he]
        simp

/-- **What is broken stays broken.** -/
lemma Rewrites.broken {escaped : Bool} (h : Rewrites rule after w w') (hb : Broken escaped w) :
    Broken escaped w' := by
  induction h generalizing escaped with
  | nil =>
      obtain ⟨u, v, he, -, -⟩ := hb
      simp at he
  | @keep c s s' hm rest ih =>
      obtain ⟨u, v, he, hv, hu⟩ := hb
      cases u with
      | nil =>
          obtain ⟨rfl, rfl⟩ := List.cons.inj he
          exact ⟨[], s', rfl, rest.ne_nil hv, hu⟩
      | cons d u =>
          obtain ⟨rfl, htail⟩ := List.cons.inj he
          have hs : Broken (escapeOpen escaped [c]) s := ⟨u, v, htail, hv, hu⟩
          exact (ih hs).append
  | @replace o s s' hm rest ih =>
      by_cases hq : rule.quotes = true
      · exact broken_of_quotes hq escaped o.captured s'
      · have hq' : rule.quotes = false := by simpa using hq
        have hplain := plain_of_match hq' hm
        have hsafe := safe_replacement hq' hm
        obtain ⟨t, ht⟩ := exists_text_eq_cons hm
        obtain ⟨c, r, hr, -⟩ := exists_replacement_eq_cons hq' o.captured
        have hs := broken_of_append (fun hm => hplain _ hm (by decide)) hb
        rw [escapeOpen_of_notMem (by simp [ht]) (fun hm => hplain _ hm (by decide))] at hs
        refine Broken.append ?_
        rw [escapeOpen_of_notMem (by simp [hr]) (fun hm => hsafe _ hm (by decide))]
        exact ih hs

/-- What ends with an apostrophe goes on doing so, if it is not broken. -/
lemma Rewrites.single (h : Rewrites rule after w w') (hw : w.getLast? = some '\'') :
    w'.getLast? = some '\'' ∨ ∀ escaped, Broken escaped w' := by
  induction h with
  | nil => simp at hw
  | @keep c s s' hm rest ih =>
      by_cases hs : s = []
      · subst hs
        rw [rest.eq_nil]
        exact Or.inl hw
      · rw [List.getLast?_cons, List.getLast?_eq_some_getLast hs, Option.getD_some] at hw
        rw [← List.getLast?_eq_some_getLast hs] at hw
        rcases ih hw with hlast | hbroken
        · exact Or.inl (by rw [List.getLast?_cons, hlast, Option.getD_some])
        · exact Or.inr fun escaped => Broken.append (s := [c]) (hbroken _)
  | @replace o s s' hm rest ih =>
      by_cases hq : rule.quotes = true
      · exact Or.inr fun escaped => broken_of_quotes hq escaped o.captured s'
      · have hplain := plain_of_match (by simpa using hq) hm
        rw [List.getLast?_append] at hw
        cases hs : s.getLast? with
        | none =>
            rw [hs, Option.none_or] at hw
            exact absurd (List.mem_of_getLast? hw) fun hmem => hplain _ hmem (by decide)
        | some last =>
            rw [hs, Option.some_or] at hw
            rcases ih (hs.trans hw) with hlast | hbroken
            · exact Or.inl (by rw [List.getLast?_append, hlast, Option.some_or])
            · exact Or.inr fun escaped => Broken.append (hbroken _)

/-- An occurrence in a text that ends with a quote is there when more text follows: what it ends
with reads no further, or it leaves the quote. -/
lemma exists_match_append (hw : w.getLast? = some '"') (h : rule.pattern.match? w = some o)
    (after : List Char) : ∃ o', rule.pattern.match? (w ++ after) = some o' := by
  have hword : (∀ piece ∈ rule.pattern, ¬ piece.Allows '"') →
      ∃ o', rule.pattern.match? (w ++ after) = some o' := fun hpieces => by
    refine ⟨_, Pattern.match?_append_text h (fun hrest => ?_) after⟩
    have htext := Pattern.match?_append h
    rw [hrest, List.append_nil] at htext
    rw [← htext] at hw
    obtain ⟨piece, hp, ha⟩ := Pattern.allows_of_mem_text h (List.mem_of_getLast? hw)
    exact hpieces piece hp ha
  cases rule with
  | testDeclaration =>
      exact Pattern.exists_match_append_text testPattern.dropLast rfl rfl h after
  | headerLookup =>
      exact Pattern.exists_match_append_text Rule.headerLookup.pattern.dropLast rfl rfl h after
  | _ => exact hword (by decide)

lemma occurs_nil (rule : Rule) : occurs rule.pattern [] = false := by
  cases rule <;> rfl

/-- The letters `m` of an occurrence, and of what is put in its place, behind their first
characters. -/
lemma marks_replacement_lt {t r : List Char} {c : Char} (hq : rule.quotes = false)
    (h : rule.pattern.match? cs = some o) (ht : o.text = 'p' :: t)
    (hr : rule.replacement o.captured = c :: r) : marks (units r) < marks (units t) := by
  have hplain := plain_of_match hq h
  have hsafe := safe_replacement hq h
  have hcount := count_replacement_lt hq h
  rw [ht] at hplain hcount
  rw [hr] at hsafe hcount
  rw [marks_units fun hm => hsafe _ (List.mem_cons_of_mem _ hm) (by decide),
    marks_units fun hm => hplain _ (List.mem_cons_of_mem _ hm) (by decide)]
  have hle : r.count 'm' ≤ (c :: r).count 'm' := List.count_le_count_cons
  have heq : ('p' :: t).count 'm' = t.count 'm' := List.count_cons_of_ne (by decide)
  omega

/-- An occurrence in a literal, replaced by a rule that writes no quotes. What is put in its place
counts less, and what comes after it is no worse. -/
lemma literal_of_replace {mode : LiteralMode} {value : List ℕ} {s s' : List Char}
    (hq : rule.quotes = false) (h : rule.pattern.match? cs = some o)
    (hw : readRest '"' mode (o.text ++ s) = some (value, []))
    (hs : ∀ value₀, readRest '"' .body s = some (value₀, []) →
      Broken false s' ∨ ∃ value₁, readRest '"' .body s' = some (value₁, []) ∧
        marks value₁ ≤ marks value₀) :
    Broken mode.escapes (rule.replacement o.captured ++ s') ∨
      ∃ value', readRest '"' mode (rule.replacement o.captured ++ s') = some (value', []) ∧
        marks value' < marks value := by
  have hplain := plain_of_match hq h
  have hsafe := safe_replacement hq h
  obtain ⟨t, ht⟩ := exists_text_eq_cons h
  obtain ⟨c, r, hr, hc⟩ := exists_replacement_eq_cons hq o.captured
  have hlt := marks_replacement_lt hq h ht hr
  rw [ht] at hplain hw
  obtain ⟨⟨step, hstep⟩, value₀, h₀, hmarks⟩ := readRest_of_start (fun d hd =>
    ⟨fun he => hplain d (List.mem_cons_of_mem _ hd) (by simp [he]),
      fun he => hplain d (List.mem_cons_of_mem _ hd) (by simp [he])⟩) hw
  rcases hs value₀ h₀ with hbroken | ⟨value₁, h₁, hle⟩
  · refine Or.inl (Broken.append ?_)
    rw [escapeOpen_of_notMem (by simp [hr]) (fun hm => hsafe _ hm (by decide))]
    exact hbroken
  · rw [hr] at hsafe ⊢
    obtain ⟨value', h', hmarks'⟩ := readRest_start_append hstep hc (fun d hd hm =>
      hsafe d (List.mem_cons_of_mem _ hd) (List.mem_append_left ['\''] hm)) h₁
    exact Or.inr ⟨value', h', by omega⟩

/-- **A rule leaves a literal as it is, or spoils it**: it ends too early, or its value has fewer
marks. `w` is the rest of the literal, up to its closing quote. -/
lemma Rewrites.literal {mode : LiteralMode} {value : List ℕ} (h : Rewrites rule after w w')
    (hw : readRest '"' mode w = some (value, [])) :
    w' = w ∧ occurs rule.pattern w = false ∨ Broken mode.escapes w' ∨
      ∃ value', readRest '"' mode w' = some (value', []) ∧ marks value' < marks value := by
  induction h generalizing mode value with
  | nil => simp [readRest] at hw
  | @keep c s s' hm rest ih =>
      have hlast : (c :: s).getLast? = some '"' := by
        obtain ⟨u, last, out, hu, -⟩ := exists_of_readRest hw
        rw [hu, List.getLast?_concat]
      have hnone : rule.pattern.match? (c :: s) = none := by
        cases hsome : rule.pattern.match? (c :: s) with
        | none => rfl
        | some o =>
            obtain ⟨o', ho'⟩ := exists_match_append hlast hsome after
            rw [hm] at ho'
            simp at ho'
      have hoccurs : occurs rule.pattern (c :: s) = occurs rule.pattern s := by
        rw [occurs, hnone]
        rfl
      rw [hoccurs]
      by_cases hc : c = '"' ∧ mode.closes = true
      · rw [readRest, if_pos hc] at hw
        obtain ⟨-, rfl⟩ := Prod.mk.inj (Option.some.inj hw)
        exact Or.inl ⟨by rw [rest.eq_nil], occurs_nil rule⟩
      · rw [readRest, if_neg hc] at hw
        cases hstep : mode.step '"' c with
        | none => simp [hstep] at hw
        | some p =>
            obtain ⟨mode', out⟩ := p
            rw [hstep] at hw
            obtain ⟨⟨value₀, rest₀⟩, h₀, he⟩ := Option.map_eq_some_iff.mp hw
            obtain ⟨rfl, rfl⟩ := Prod.mk.inj he
            rcases ih h₀ with ⟨rfl, ho⟩ | hbroken | ⟨value₁, h₁, hlt⟩
            · exact Or.inl ⟨rfl, ho⟩
            · rw [escapes_of_step hstep] at hbroken
              exact Or.inr (Or.inl (Broken.append (s := [c]) hbroken))
            · refine Or.inr (Or.inr ⟨out ++ value₁, ?_, ?_⟩)
              · simp only [readRest, if_neg hc, hstep, h₁, Option.map_some]
              · rw [marks_append, marks_append]
                omega
  | @replace o s s' hm rest ih =>
      by_cases hq : rule.quotes = true
      · exact Or.inr (Or.inl (broken_of_quotes hq _ o.captured s'))
      · refine Or.inr (literal_of_replace (by simpa using hq) hm hw fun value₀ h₀ => ?_)
        rcases ih h₀ with ⟨rfl, -⟩ | hbroken | ⟨value₁, h₁, hlt⟩
        · exact Or.inr ⟨value₀, h₀, le_refl _⟩
        · exact Or.inl hbroken
        · exact Or.inr ⟨value₁, h₁, hlt.le⟩

/-! ### What cannot be made good -/

/-- The rest of what was a literal whose value had `count` marks, and is not any more: it ends too
early, or with an apostrophe, or its value has fewer marks. -/
def Lost (count : ℕ) (w : List Char) : Prop :=
  Broken false w ∨ w.getLast? = some '\'' ∨
    ∃ value, readRest '"' .body w = some (value, []) ∧ marks value < count

/-- **What is lost stays lost.** -/
lemma Rewrites.lost {count : ℕ} (h : Rewrites rule after w w') (hw : Lost count w) :
    Lost count w' := by
  rcases hw with hbroken | hsingle | ⟨value, hr, hlt⟩
  · exact Or.inl (h.broken hbroken)
  · rcases h.single hsingle with hlast | hbroken
    · exact Or.inr (Or.inl hlast)
    · exact Or.inl (hbroken false)
  · rcases h.literal hr with ⟨rfl, -⟩ | hbroken | ⟨value', hr', hlt'⟩
    · exact Or.inr (Or.inr ⟨value, hr, hlt⟩)
    · exact Or.inl hbroken
    · exact Or.inr (Or.inr ⟨value', hr', hlt'.trans hlt⟩)

/-- A value with all its marks is not the value of what is lost. -/
lemma Lost.readRest_ne {value : List ℕ} (h : Lost (marks value) w) :
    readRest '"' .body w ≠ some (value, []) := by
  intro hr
  rcases h with hbroken | hsingle | ⟨value', hr', hlt⟩
  · have hbody : Broken LiteralMode.body.escapes w := hbroken
    exact readRest_ne_of_broken hbody value hr
  · obtain ⟨s, last, out, rfl, -⟩ := exists_of_readRest hr
    rw [List.getLast?_concat] at hsingle
    exact absurd (Option.some.inj hsingle) (by decide)
  · rw [hr] at hr'
    obtain ⟨rfl, -⟩ := Prod.mk.inj (Option.some.inj hr')
    exact lt_irrefl _ hlt

end RequestSuite.Script
