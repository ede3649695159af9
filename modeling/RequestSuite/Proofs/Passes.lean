/-
The rules of adaptation, followed in a part of a script.

* `Rule.rewrite?`: a rule applied to a text that is followed by more, unless an occurrence runs over
  the end of the text;
* `Rewrites`: the same as a judgement, character by character and occurrence by occurrence;
  `rewrites_of_rewrite?`;
* `Sections`, `Rule.applySections`, `applyToSections`: a script in three sections, and the rules
  applied to each of them;
* `text_applyToSections`: the sections of an adapted script make up the adaptation of the script;
* `place_of_applyToSections`: what each rule preserves in the middle section all rules preserve;
* `Rewrites.of_match`, `Rewrites.of_no_match`: what a rule does at the start of a text;
* `Rewrites.eq_self`: a rule whose pattern does not occur leaves a text as it is.
-/
import RequestSuite.Proofs.Matching

namespace RequestSuite.Script

/-! ### One rule in a part of a script -/

/-- A text that is followed by `after`, with every occurrence of a rule's pattern replaced. The
first `skip` characters belong to an occurrence that has been replaced already. There is none if an
occurrence that starts in the text runs over its end. -/
def Rule.rewrite? (rule : Rule) (after : List Char) : (skip : ℕ) → List Char → Option (List Char)
  | 0, [] => some []
  | _ + 1, [] => none
  | skip + 1, _ :: cs => rule.rewrite? after skip cs
  | 0, c :: cs =>
    match rule.pattern.match? (c :: cs ++ after) with
    | some o =>
      (rule.rewrite? after (o.text.length - 1) cs).map (rule.replacement o.captured ++ ·)
    | none => (rule.rewrite? after 0 cs).map (c :: ·)

/-- A rule applied to a text that is followed by `after`. What follows is looked at, so that no
occurrence is cut short, but every occurrence that starts in the text ends in it. -/
inductive Rewrites (rule : Rule) (after : List Char) : List Char → List Char → Prop
  | nil : Rewrites rule after [] []
  /-- No occurrence starts at a character, and it is kept. -/
  | keep {c : Char} {s s' : List Char} (h : rule.pattern.match? (c :: s ++ after) = none)
      (rest : Rewrites rule after s s') : Rewrites rule after (c :: s) (c :: s')
  /-- An occurrence is replaced. -/
  | replace {o : Occurrence} {s s' : List Char}
      (h : rule.pattern.match? (o.text ++ s ++ after) = some o) (rest : Rewrites rule after s s') :
      Rewrites rule after (o.text ++ s) (rule.replacement o.captured ++ s')

lemma exists_text_eq_cons {rule : Rule} {cs : List Char} {o : Occurrence}
    (h : rule.pattern.match? cs = some o) : ∃ t, o.text = 'p' :: 'm' :: '.' :: t := by
  cases rule <;> obtain ⟨t, ht⟩ := prefix_of_match_literal h <;> exact ⟨_, ht⟩

lemma rest_eq_of_match {rule : Rule} {o : Occurrence} {s : List Char}
    (h : rule.pattern.match? (o.text ++ s) = some o) : o.rest = s :=
  List.append_cancel_left (Pattern.match?_append h)

variable {rule : Rule} {after s s' : List Char}

/-- What a rule makes of a text after its first characters have been skipped. -/
lemma exists_of_rewrite? {skip : ℕ} (h : rule.rewrite? after skip s = some s') :
    ∃ u v, s = u ++ v ∧ u.length = skip ∧ Rewrites rule after v s' := by
  induction s generalizing skip s' with
  | nil =>
      cases skip with
      | zero =>
          obtain rfl := Option.some.inj h
          exact ⟨[], [], rfl, rfl, .nil⟩
      | succ skip => simp [Rule.rewrite?] at h
  | cons c cs ih =>
      cases skip with
      | succ skip =>
          obtain ⟨u, v, rfl, hu, hv⟩ := ih h
          exact ⟨c :: u, v, rfl, by rw [List.length_cons, hu], hv⟩
      | zero =>
          rw [Rule.rewrite?] at h
          cases hm : rule.pattern.match? (c :: cs ++ after) with
          | none =>
              simp only [hm] at h
              obtain ⟨cs', hcs, rfl⟩ := Option.map_eq_some_iff.mp h
              obtain ⟨u, v, rfl, hu, hv⟩ := ih hcs
              obtain rfl := List.eq_nil_of_length_eq_zero hu
              exact ⟨[], _, rfl, rfl, .keep hm hv⟩
          | some o =>
              simp only [hm] at h
              obtain ⟨cs', hcs, rfl⟩ := Option.map_eq_some_iff.mp h
              obtain ⟨u, v, rfl, hu, hv⟩ := ih hcs
              obtain ⟨t, ht⟩ := exists_text_eq_cons hm
              have happend : o.text ++ o.rest = (c :: u) ++ (v ++ after) := by
                rw [Pattern.match?_append hm]
                simp
              have hlen : o.text.length = (c :: u).length := by
                rw [List.length_cons, hu, ht]
                rfl
              have htext : o.text = c :: u := List.append_inj_left happend hlen
              have hcut : c :: (u ++ v) = o.text ++ v := by rw [htext, List.cons_append]
              refine ⟨[], _, rfl, rfl, ?_⟩
              rw [hcut] at hm ⊢
              exact .replace hm hv

lemma rewrites_of_rewrite? (h : rule.rewrite? after 0 s = some s') : Rewrites rule after s s' := by
  obtain ⟨u, v, rfl, hu, hv⟩ := exists_of_rewrite? h
  obtain rfl := List.eq_nil_of_length_eq_zero hu
  exact hv

lemma replaceFrom_length (pattern : Pattern) (replacement : List Char → List Char)
    (t u : List Char) :
    replaceFrom pattern replacement t.length (t ++ u) = replaceFrom pattern replacement 0 u := by
  induction t with
  | nil => rfl
  | cons c t ih => exact ih

/-- **A rule goes through a text and on into what follows it.** -/
lemma Rewrites.apply_append (h : Rewrites rule after s s') :
    rule.apply (s ++ after) = s' ++ rule.apply after := by
  rw [Rule.apply, replaceAll, Rule.apply, replaceAll]
  induction h with
  | nil => rfl
  | keep h rest ih =>
      rw [List.cons_append] at h ⊢
      rw [replaceFrom, h]
      simp only [ih, List.cons_append]
  | @replace o s s' h rest ih =>
      obtain ⟨t, ht⟩ := exists_text_eq_cons h
      rw [ht, List.cons_append, List.cons_append] at h ⊢
      rw [replaceFrom, h]
      have hskip : o.text.length - 1 = ('m' :: '.' :: t).length := by
        rw [ht]
        rfl
      simp only [hskip, List.append_assoc]
      rw [replaceFrom_length, ih]

/-! ### Rules in three sections of a script -/

/-- A script in three sections. -/
structure Sections where
  before : List Char
  place : List Char
  after : List Char
  deriving DecidableEq, Repr

/-- The script that the sections make up. -/
def Sections.text (p : Sections) : List Char := p.before ++ p.place ++ p.after

/-- A rule applied to each part of a script, unless an occurrence runs over an edge of the part in
the middle. -/
def Rule.applySections (rule : Rule) (p : Sections) : Option Sections :=
  match rule.rewrite? (p.place ++ p.after) 0 p.before, rule.rewrite? p.after 0 p.place with
  | some before, some place => some ⟨before, place, rule.apply p.after⟩
  | _, _ => none

/-- Rules applied to the sections of a script, one after another. -/
def applyToSections : List Rule → Sections → Option Sections
  | [], p => some p
  | rule :: rules, p => (rule.applySections p).bind (applyToSections rules)

/-- What a rule makes of each part. -/
lemma rewrites_of_applySections {p p' : Sections} (h : rule.applySections p = some p') :
    Rewrites rule (p.place ++ p.after) p.before p'.before ∧
      Rewrites rule p.after p.place p'.place ∧ p'.after = rule.apply p.after := by
  rw [Rule.applySections] at h
  split at h
  · next before place hb hp =>
    obtain rfl := Option.some.inj h
    exact ⟨rewrites_of_rewrite? hb, rewrites_of_rewrite? hp, rfl⟩
  · simp at h

/-- The sections to which a rule has been applied make up the text that the rule makes. -/
lemma text_applySections {p p' : Sections} (h : rule.applySections p = some p') :
    rule.apply p.text = p'.text := by
  obtain ⟨hb, hp, ha⟩ := rewrites_of_applySections h
  calc
    rule.apply p.text = rule.apply (p.before ++ (p.place ++ p.after)) := by
      rw [Sections.text, List.append_assoc]
    _ = p'.before ++ rule.apply (p.place ++ p.after) := hb.apply_append
    _ = p'.before ++ (p'.place ++ rule.apply p.after) := by rw [hp.apply_append]
    _ = p'.text := by rw [Sections.text, ha, List.append_assoc]

/-- **The sections of an adapted script make up the adaptation of the script.** -/
theorem text_applyToSections {rules : List Rule} {p p' : Sections}
    (h : applyToSections rules p = some p') :
    applyRules rules p.text = p'.text := by
  induction rules generalizing p with
  | nil =>
      obtain rfl := Option.some.inj h
      rfl
  | cons rule rules ih =>
      obtain ⟨p₁, h₁, h₂⟩ := Option.bind_eq_some_iff.mp h
      rw [applyRules, List.foldl_cons, text_applySections h₁]
      exact ih h₂

/-- What each of some rules preserves in the middle section all of them preserve. -/
lemma place_of_applyToSections {rules : List Rule} {p p' : Sections} {P : List Char → Prop}
    (hstep : ∀ rule ∈ rules, ∀ after s s', Rewrites rule after s s' → P s → P s')
    (h : applyToSections rules p = some p') (hp : P p.place) : P p'.place := by
  induction rules generalizing p with
  | nil =>
      obtain rfl := Option.some.inj h
      exact hp
  | cons rule rules ih =>
      obtain ⟨p₁, h₁, h₂⟩ := Option.bind_eq_some_iff.mp h
      obtain ⟨hrule, hrules⟩ := List.forall_mem_cons.mp hstep
      have hplace := (rewrites_of_applySections h₁).2.1
      exact ih hrules h₂ (hrule p.after p.place p₁.place hplace hp)

/-! ### What a rule does at the start of a text -/

/-- A rule makes nothing of nothing. -/
lemma Rewrites.eq_nil (h : Rewrites rule after [] s') : s' = [] := by
  generalize ht : [] = t at h
  cases h with
  | nil => rfl
  | keep hm rest => simp at ht
  | replace hm rest =>
      obtain ⟨t, htext⟩ := exists_text_eq_cons hm
      rw [htext] at ht
      simp at ht

/-- An occurrence at the start of a text is replaced, and it does not run over the end. -/
lemma Rewrites.of_match {c : Char} {o : Occurrence} (h : Rewrites rule after (c :: s) s')
    (hm : rule.pattern.match? (c :: s ++ after) = some o) :
    ∃ v v', c :: s = o.text ++ v ∧ s' = rule.replacement o.captured ++ v' ∧
      Rewrites rule after v v' := by
  generalize ht : c :: s = t at h
  rw [ht] at hm
  cases h with
  | nil => simp at ht
  | keep hn rest =>
      rw [hn] at hm
      simp at hm
  | replace ho rest =>
      rw [ho] at hm
      obtain rfl := Option.some.inj hm
      exact ⟨_, _, rfl, rfl, rest⟩

/-- A character at which no occurrence starts is kept. -/
lemma Rewrites.of_no_match {c : Char} (h : Rewrites rule after (c :: s) s')
    (hm : rule.pattern.match? (c :: s ++ after) = none) :
    ∃ v', s' = c :: v' ∧ Rewrites rule after s v' := by
  generalize ht : c :: s = t at h
  cases h with
  | nil => simp at ht
  | keep hn rest =>
      obtain ⟨rfl, rfl⟩ := List.cons.inj ht
      exact ⟨_, rfl, rest⟩
  | replace ho rest =>
      rw [ht] at hm
      rw [hm] at ho
      simp at ho

/-- No occurrence starts at a character other than `p`. -/
lemma match?_eq_none_of_ne {c : Char} {cs : List Char} (hc : c ≠ 'p') :
    rule.pattern.match? (c :: cs) = none := by
  cases hm : rule.pattern.match? (c :: cs) with
  | none => rfl
  | some o =>
      obtain ⟨t, ht⟩ := exists_text_eq_cons hm
      have happend := Pattern.match?_append hm
      rw [ht, List.cons_append] at happend
      exact absurd (List.cons.inj happend).1.symm hc

lemma Rewrites.of_ne {c : Char} (h : Rewrites rule after (c :: s) s') (hc : c ≠ 'p') :
    ∃ v', s' = c :: v' ∧ Rewrites rule after s v' :=
  h.of_no_match (match?_eq_none_of_ne hc)

/-- A rule whose pattern does not occur in a text leaves it as it is. -/
lemma Rewrites.eq_self (h : Rewrites rule after s s') (ho : occurs rule.pattern s = false) :
    s' = s := by
  induction h with
  | nil => rfl
  | @keep c s s' hn rest ih =>
      rw [occurs, Bool.or_eq_false_iff] at ho
      rw [ih ho.2]
  | @replace o s s' hm rest ih =>
      have hrest := rest_eq_of_match (by rwa [List.append_assoc] at hm)
      have hoccurs : occurs rule.pattern (o.text ++ s) = true :=
        occurs_iff.mpr ⟨[], _, _, rfl, Pattern.match?_of_append hm hrest⟩
      rw [hoccurs] at ho
      exact absurd ho (by simp)

end RequestSuite.Script
