/-
The names of tests in adapted scripts.

* `declared`: a script with a declaration of a test in it, in sections;
* `Apart`: no occurrence of a rule runs over an edge of the declaration;
* `NameSurvives`: at the place of the declaration the adapted script has one literal with the same
  value;
* `lost_of_applyToSections`, `kept_of_applyToSections`, `unchanged_of_applyToSections`,
  `missed_of_applyToSections`: what the rules after the first do to a declaration;
* `name_survives_iff`: exactly which names survive;
* `name_lost_at_apostrophe`: a name that does not.
-/
import RequestSuite.Proofs.Declaration

namespace RequestSuite.Script

open Literal

/-- A script in which `literal` is the name in a declaration of a test. -/
def declared (before literal after : List Char) : Sections :=
  ⟨before, "pm.test(".toList ++ literal, after⟩

/-- No occurrence of a rule runs over an edge of the declaration while the script is adapted. -/
def Apart (before literal after : List Char) : Prop :=
  (applyToSections Rule.all (declared before literal after)).isSome = true

instance (before literal after : List Char) : Decidable (Apart before literal after) :=
  inferInstanceAs (Decidable (_ = true))

/-- At the place of the declaration the adapted script has the declaration of the generated suite,
with one literal that has the same value. -/
def NameSurvives (before literal after : List Char) : Prop :=
  ∃ sections literal', applyToSections Rule.all (declared before literal after) = some sections ∧
    sections.place = "it(".toList ++ literal' ∧ literalValue? literal' = literalValue? literal

variable {rule : Rule} {rules : List Rule} {p p' : Sections} {w : List Char}

/-! ### The rules after the first -/

/-- A declaration of the generated suite is followed into its literal. -/
lemma Rewrites.of_it {after place : List Char}
    (h : Rewrites rule after ("it(".toList ++ '"' :: w) place) :
    ∃ w', place = "it(".toList ++ '"' :: w' ∧ Rewrites rule after w w' := by
  obtain ⟨s₁, rfl, h₁⟩ := Rewrites.of_ne (c := 'i') h (by decide)
  obtain ⟨s₂, rfl, h₂⟩ := h₁.of_ne (by decide)
  obtain ⟨s₃, rfl, h₃⟩ := h₂.of_ne (by decide)
  obtain ⟨s₄, rfl, h₄⟩ := h₃.of_ne (by decide)
  exact ⟨s₄, rfl, h₄⟩

/-- What is lost when some rules begin is lost when they end. -/
lemma lost_of_applyToSections {count : ℕ} (h : applyToSections rules p = some p')
    (hp : p.place = "it(".toList ++ '"' :: w) (hw : Lost count w) :
    ∃ w', p'.place = "it(".toList ++ '"' :: w' ∧ Lost count w' := by
  refine place_of_applyToSections (P := fun s => ∃ w, s = "it(".toList ++ '"' :: w ∧ Lost count w)
    (fun rule _ after s s' hs => ?_) h ⟨w, hp, hw⟩
  rintro ⟨w₀, rfl, hlost⟩
  obtain ⟨w', rfl, hrewrites⟩ := hs.of_it
  exact ⟨w', rfl, hrewrites.lost hlost⟩

/-- A literal is left as it is by some rules, and none of their patterns occurs in it, or it is
lost. -/
lemma kept_of_applyToSections {value : List ℕ} (h : applyToSections rules p = some p')
    (hp : p.place = "it(".toList ++ '"' :: w) (hw : readRest '"' .body w = some (value, [])) :
    ∃ w', p'.place = "it(".toList ++ '"' :: w' ∧
      (w' = w ∧ (∀ rule ∈ rules, occurs rule.pattern w = false) ∨ Lost (marks value) w') := by
  induction rules generalizing p with
  | nil =>
      obtain rfl := Option.some.inj h
      exact ⟨w, hp, Or.inl ⟨rfl, by simp⟩⟩
  | cons rule rules ih =>
      obtain ⟨p₁, h₁, h₂⟩ := Option.bind_eq_some_iff.mp h
      have hplace := (rewrites_of_applySections h₁).2.1
      rw [hp] at hplace
      obtain ⟨w₁, hp₁, hrewrites⟩ := hplace.of_it
      rcases hrewrites.literal hw with ⟨rfl, ho⟩ | hlost
      · obtain ⟨w', hp', hw'⟩ := ih h₂ hp₁
        refine ⟨w', hp', hw'.imp_left fun hkept => ⟨hkept.1, ?_⟩⟩
        rw [List.forall_mem_cons]
        exact ⟨ho, hkept.2⟩
      · have hlost₁ : Lost (marks value) w₁ := hlost.imp_right Or.inr
        obtain ⟨w', hp', hw'⟩ := lost_of_applyToSections h₂ hp₁ hlost₁
        exact ⟨w', hp', Or.inr hw'⟩

/-- Rules none of whose patterns occurs in a literal leave it as it is. -/
lemma unchanged_of_applyToSections (h : applyToSections rules p = some p')
    (hp : p.place = "it(".toList ++ '"' :: w)
    (ho : ∀ rule ∈ rules, occurs rule.pattern w = false) :
    p'.place = "it(".toList ++ '"' :: w := by
  refine place_of_applyToSections (P := (· = "it(".toList ++ '"' :: w))
    (fun rule hrule after s s' hs heq => ?_) h hp
  rw [heq] at hs
  obtain ⟨w', rfl, hrewrites⟩ := hs.of_it
  rw [hrewrites.eq_self (ho rule hrule)]

/-- The patterns of the other rules start in another way than that of the first. -/
lemma exists_text_eq_cons_of_ne {cs : List Char} {o : Occurrence} (hr : rule ≠ .testDeclaration)
    (h : rule.pattern.match? cs = some o) :
    ∃ c t, o.text = 'p' :: 'm' :: '.' :: c :: t ∧ c ≠ 't' := by
  cases rule with
  | testDeclaration => exact absurd rfl hr
  | _ =>
      obtain ⟨t, ht⟩ := prefix_of_match_literal h
      exact ⟨_, _, ht, by decide⟩

/-- A declaration that the first rule has not seen is not seen by the others. -/
lemma missed_of_applyToSections (h : applyToSections rules p = some p')
    (hr : ∀ rule ∈ rules, rule ≠ .testDeclaration) (hp : ∃ s, p.place = "pm.t".toList ++ s) :
    ∃ s, p'.place = "pm.t".toList ++ s := by
  refine place_of_applyToSections (P := fun place => ∃ s, place = "pm.t".toList ++ s)
    (fun rule hrule after place place' hplace => ?_) h hp
  rintro ⟨s, rfl⟩
  have hnone : rule.pattern.match? ("pm.t".toList ++ s ++ after) = none := by
    cases hm : rule.pattern.match? ("pm.t".toList ++ s ++ after) with
    | none => rfl
    | some o =>
        obtain ⟨c, t, ht, hc⟩ := exists_text_eq_cons_of_ne (hr rule hrule) hm
        have happend := Pattern.match?_append hm
        rw [ht] at happend
        simp only [List.cons_append, String.reduceToList, List.cons.injEq, true_and] at happend
        exact absurd happend.1 hc
  obtain ⟨s₁, hs, hrest₁⟩ := Rewrites.of_no_match (c := 'p') hplace hnone
  obtain ⟨s₂, rfl, hrest₂⟩ := hrest₁.of_ne (by decide)
  obtain ⟨s₃, rfl, hrest₃⟩ := hrest₂.of_ne (by decide)
  obtain ⟨s₄, rfl, -⟩ := hrest₃.of_ne (by decide)
  exact ⟨s₄, hs⟩

/-! ### The names that survive -/

lemma all_eq : ∃ rules, Rule.all = .testDeclaration :: rules ∧
    ∀ rule ∈ rules, rule ≠ .testDeclaration := ⟨_, rfl, by decide⟩

lemma text_adapt (text : List Char) : (adapt (some text)).text = applyRules Rule.all text := by
  cases text with
  | nil => rfl
  | cons c cs => simp only [adapt, adaptWith]

lemma literalValue?_double {value : List ℕ} :
    literalValue? ('"' :: w) = some value ↔ readRest '"' .body w = some (value, []) :=
  literalValue?_cons (by decide)

/-- A name whose quotes are kept has the same value in double quotes. -/
lemma literalValue?_of_quotesKept {q : Char} {name : List Char} (hq : isQuote q = true)
    (hk : QuotesKept q name) :
    literalValue? ('"' :: (name ++ ['"'])) = literalValue? (q :: (name ++ [q])) := by
  rcases isQuote_iff.mp hq with rfl | rfl
  · rfl
  · have hnone : ∀ c ∈ name, isQuote c = false := fun c hc => by
      rcases hk with hnone | ⟨hq', -⟩
      · simpa using List.find?_eq_none.mp hnone c hc
      · exact absurd hq' (by decide)
    have hd : '"' ∉ name := fun hm => absurd (hnone _ hm) (by decide)
    have hs : '\'' ∉ name := fun hm => absurd (hnone _ hm) (by decide)
    refine Option.ext fun value => ?_
    rw [literalValue?_double, literalValue?_cons (by decide), readRest_swap hd hs]

/-- **Which names of tests survive.** A script that declares a test with the name given by a
literal, in quotes of either kind, keeps the name exactly if no occurrence of a rule runs over an
edge of the declaration, the name is not empty, its first quote, if it has one, is an escaped double
quote in double quotes, and no rule's pattern occurs in it. The sections by which the declaration is
followed make up the adapted script. -/
theorem name_survives_iff {q : Char} {name before after : List Char} (hq : isQuote q = true)
    (hl : (literalValue? (q :: (name ++ [q]))).isSome = true) :
    (∀ sections,
      applyToSections Rule.all (declared before (q :: (name ++ [q])) after) = some sections →
      (adapt (some (declared before (q :: (name ++ [q])) after).text)).text = sections.text) ∧
    (NameSurvives before (q :: (name ++ [q])) after ↔
      Apart before (q :: (name ++ [q])) after ∧ name ≠ [] ∧ QuotesKept q name ∧
        ∀ rule ∈ Rule.all, occurs rule.pattern (name ++ ['"']) = false) := by
  obtain ⟨value, hvalue⟩ := Option.isSome_iff_exists.mp hl
  have hdelimiter : isDelimiter q = true := by
    rcases isQuote_iff.mp hq with rfl | rfl <;> decide
  have hv := (literalValue?_cons hdelimiter).mp hvalue
  obtain ⟨rules, hall, hothers⟩ := all_eq
  refine ⟨fun sections h => by rw [text_adapt, text_applyToSections h], ?_, ?_⟩
  · rintro ⟨sections, literal', happly, hplace, heq⟩
    refine ⟨by rw [Apart, happly]; rfl, ?_⟩
    rw [hall] at happly ⊢
    obtain ⟨p₁, h₁, h₂⟩ := Option.bind_eq_some_iff.mp happly
    have hnot : ∀ w, sections.place = "it(".toList ++ '"' :: w → ¬ Lost (marks value) w :=
      fun w hw hlost => by
        rw [hplace] at hw
        obtain rfl := List.append_cancel_left hw
        rw [hvalue] at heq
        exact hlost.readRest_ne (literalValue?_double.mp heq)
    rcases (rewrites_of_applySections h₁).2.1.declaration hq hv with
      hmissed | ⟨w, hw, hlost | hkept⟩
    · obtain ⟨s, hs⟩ := missed_of_applyToSections h₂ hothers hmissed
      rw [hplace] at hs
      exact absurd hs (by simp)
    · obtain ⟨w', hw', hlost'⟩ := lost_of_applyToSections h₂ hw hlost
      exact absurd hlost' (hnot w' hw')
    · obtain ⟨rfl, hne, hk, ho⟩ := hkept
      have hbody := literalValue?_double.mp ((literalValue?_of_quotesKept hq hk).trans hvalue)
      obtain ⟨w', hw', ⟨-, hrules⟩ | hlost⟩ := kept_of_applyToSections h₂ hw hbody
      · refine ⟨hne, hk, ?_⟩
        rw [List.forall_mem_cons]
        exact ⟨ho, hrules⟩
      · exact absurd hlost (hnot w' hw')
  · rintro ⟨hapart, hne, hk, ho⟩
    obtain ⟨sections, happly⟩ := Option.isSome_iff_exists.mp hapart
    have happly' := happly
    rw [hall] at happly' ho
    obtain ⟨p₁, h₁, h₂⟩ := Option.bind_eq_some_iff.mp happly'
    obtain ⟨hfirst, hrules⟩ := List.forall_mem_cons.mp ho
    have hplace₁ := (rewrites_of_applySections h₁).2.1.declaration_kept hq hv hne hk hfirst
    exact ⟨sections, _, happly, unchanged_of_applyToSections h₂ hplace₁ hrules,
      literalValue?_of_quotesKept hq hk⟩

/-- A name in single quotes, without quotes in it, survives. -/
theorem plain_name_survives :
    let name := "Body is ok".toList
    isQuote '\'' = true ∧ (literalValue? ('\'' :: (name ++ ['\'']))).isSome = true ∧
      NameSurvives [] ('\'' :: (name ++ ['\''])) ", function () {});".toList := by
  intro name
  have hl : (literalValue? ('\'' :: (name ++ ['\'']))).isSome = true := by decide +kernel
  have hapart : Apart [] ('\'' :: (name ++ ['\''])) ", function () {});".toList := by
    decide +kernel
  have hk : QuotesKept '\'' name := by decide
  have ho : ∀ rule ∈ Rule.all, occurs rule.pattern (name ++ ['"']) = false := by decide +kernel
  exact ⟨rfl, hl, (name_survives_iff rfl hl).2.mpr ⟨hapart, by decide, hk, ho⟩⟩

/-- A name with an apostrophe does not: the adapted script has a literal with a part of the name,
and the rest of the name stands behind it as code. -/
theorem name_lost_at_apostrophe :
    let literal := "\"User's name\"".toList
    let after := ", function () {});".toList
    (literalValue? literal).isSome = true ∧
      (adapt (some (declared [] literal after).text)).text =
        "it(\"User\"s name\", function () {});".toList ∧
      readLiteral "\"User\"s name\", function () {});".toList =
        some (units "User".toList, "s name\", function () {});".toList) ∧
      ¬ NameSurvives [] literal after := by
  intro literal after
  refine ⟨by decide +kernel, by decide +kernel, by decide +kernel, ?_⟩
  rintro ⟨sections, literal', happly, hplace, hvalue⟩
  have hsections : applyToSections Rule.all (declared [] literal after) =
      some ⟨[], "it(\"User\"s name\"".toList, after⟩ := by decide +kernel
  rw [hsections] at happly
  obtain rfl := Option.some.inj happly
  have hliteral : literal' = "\"User\"s name\"".toList := by
    simpa using hplace.symm
  have hnone : literalValue? "\"User\"s name\"".toList = none := by decide +kernel
  have hsome : (literalValue? literal).isSome = true := by decide +kernel
  rw [hliteral, hnone] at hvalue
  rw [← hvalue] at hsome
  simp at hsome

end RequestSuite.Script
