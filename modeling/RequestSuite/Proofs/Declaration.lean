/-
The first rule at the declaration of a test.

* `exists_first_quote`: a literal up to the first quote after its own, which the first rule takes
  for the end of the name;
* `match_declaration`, `match_empty_declaration`: what the rule reads there;
* `Rewrites.of_declaration`, `Rewrites.of_empty_declaration`: and what it makes of it;
* `occurs_declaration`: where no declaration can be in a name;
* `QuotesKept`: the names whose first quote, if they have one, ends nothing;
* `Rewrites.declaration`: the first rule keeps a literal, or it is lost.
-/
import RequestSuite.Proofs.RuleText

namespace RequestSuite.Script

open Literal
open Text (isBlank)

variable {q d : Char} {x z name after place : List Char}

lemma isQuote_iff {c : Char} : isQuote c = true ↔ c = '"' ∨ c = '\'' := by
  simp [isQuote]

/-- A literal without its first quote, up to the next quote. That is the end of the literal, or it
stands in the name. -/
lemma exists_first_quote (hq : isQuote q = true) (name : List Char) :
    ∃ x d z, name ++ [q] = x ++ d :: z ∧ (∀ c ∈ x, isQuote c = false) ∧ isQuote d = true ∧
      (name.find? isQuote = none ∧ x = name ∧ d = q ∧ z = [] ∨
        name.find? isQuote = some d ∧ ∃ y, name = x ++ d :: y ∧ z = y ++ [q]) := by
  cases hf : name.find? isQuote with
  | none =>
      rw [List.find?_eq_none] at hf
      exact ⟨name, q, [], rfl, fun c hc => by simpa using hf c hc, hq, Or.inl ⟨rfl, rfl, rfl, rfl⟩⟩
  | some d =>
      obtain ⟨hd, x, y, rfl, hx⟩ := List.find?_eq_some_iff_append.mp hf
      refine ⟨x, d, y ++ [q], by simp, fun c hc => by simpa using hx c hc, hd, Or.inr ⟨rfl, ?_⟩⟩
      exact ⟨y, rfl, rfl⟩

/-! ### What the rule reads and writes -/

/-- A declaration is read up to the second quote in it. -/
lemma match_declaration (hq : isQuote q = true) (hd : isQuote d = true)
    (hx : ∀ c ∈ x, isQuote c = false) (hne : x ≠ []) (z : List Char) :
    testPattern.match? ("pm.test(".toList ++ q :: (x ++ d :: z)) =
      some ⟨"pm.test(".toList ++ q :: (x ++ [d]), x, z⟩ := by
  have hrun : run? (fun c => !isQuote c) (x ++ d :: z) = some (x, d :: z) := by
    refine run?_of_takeWhile ?_ hne
    rw [List.takeWhile_append_of_pos (by simpa using hx), List.takeWhile_cons_of_neg (by simp [hd]),
      List.append_nil]
  have hblank : isBlank q = false := by
    rcases isQuote_iff.mp hq with rfl | rfl <;> decide
  have hopen : isBlank '(' = false := by decide
  simp [testPattern, Pattern.match?, Piece.read?, dropPrefix?, hblank, hopen, hq, hd, hrun,
    Piece.captures]

/-- Two quotes with nothing between them make no declaration. -/
lemma match_empty_declaration (hq : isQuote q = true) (hd : isQuote d = true) (z : List Char) :
    testPattern.match? ("pm.test(".toList ++ q :: d :: z) = none := by
  have hrun : run? (fun c => !isQuote c) (d :: z) = none := by
    simp [run?, hd]
  have hblank : isBlank q = false := by
    rcases isQuote_iff.mp hq with rfl | rfl <;> decide
  have hopen : isBlank '(' = false := by decide
  simp [testPattern, Pattern.match?, Piece.read?, dropPrefix?, hblank, hopen, hq, hrun]

/-- The first rule puts double quotes around what it has read as the name. -/
lemma Rewrites.of_declaration (hq : isQuote q = true) (hd : isQuote d = true)
    (hx : ∀ c ∈ x, isQuote c = false) (hne : x ≠ [])
    (h : Rewrites .testDeclaration after ("pm.test(".toList ++ q :: (x ++ d :: z)) place) :
    ∃ z', place = "it(".toList ++ '"' :: (x ++ '"' :: z') ∧
      Rewrites .testDeclaration after z z' := by
  have hm := match_declaration hq hd hx hne (z ++ after)
  have htext : "pm.test(".toList ++ q :: (x ++ d :: (z ++ after)) =
      "pm.test(".toList ++ q :: (x ++ d :: z) ++ after := by simp
  rw [htext] at hm
  obtain ⟨v, z', hv, rfl, hrest⟩ := Rewrites.of_match (c := 'p') h hm
  have hcut : "pm.test(".toList ++ q :: (x ++ [d]) ++ z =
      "pm.test(".toList ++ q :: (x ++ [d]) ++ v := by
    rw [← show "pm.test(".toList ++ q :: (x ++ d :: z) = _ from hv]
    simp
  obtain rfl := List.append_cancel_left hcut
  refine ⟨z', ?_, hrest⟩
  rw [replacement_testDeclaration]
  simp

/-- A declaration with nothing before its second quote keeps its beginning. -/
lemma Rewrites.of_empty_declaration (hq : isQuote q = true) (hd : isQuote d = true)
    (h : Rewrites .testDeclaration after ("pm.test(".toList ++ q :: d :: z) place) :
    ∃ s, place = "pm.t".toList ++ s := by
  have hm := match_empty_declaration hq hd (z ++ after)
  obtain ⟨s₁, rfl, h₁⟩ := Rewrites.of_no_match (c := 'p') h hm
  obtain ⟨s₂, rfl, h₂⟩ := h₁.of_ne (by decide)
  obtain ⟨s₃, rfl, h₃⟩ := h₂.of_ne (by decide)
  obtain ⟨s₄, rfl, h₄⟩ := h₃.of_ne (by decide)
  exact ⟨s₄, rfl⟩

/-! ### Declarations inside a name -/

/-- The first quote of a text is at one place only. -/
lemma first_quote_unique {x' z' : List Char} {d' : Char} (hx : ∀ c ∈ x, isQuote c = false)
    (hd : isQuote d = true) (hx' : ∀ c ∈ x', isQuote c = false) (hd' : isQuote d' = true)
    (h : x ++ d :: z = x' ++ d' :: z') : x = x' ∧ z = z' := by
  induction x generalizing x' with
  | nil =>
      cases x' with
      | nil => exact ⟨rfl, (List.cons.inj h).2⟩
      | cons c x' =>
          obtain ⟨rfl, -⟩ := List.cons.inj h
          rw [hx' d List.mem_cons_self] at hd
          simp at hd
  | cons c x ih =>
      cases x' with
      | nil =>
          obtain ⟨rfl, -⟩ := List.cons.inj h
          rw [hx c List.mem_cons_self] at hd'
          simp at hd'
      | cons c' x' =>
          obtain ⟨rfl, htail⟩ := List.cons.inj h
          obtain ⟨rfl, hz⟩ := ih (fun c hc => hx c (List.mem_cons_of_mem _ hc))
            (fun c hc => hx' c (List.mem_cons_of_mem _ hc)) htail
          exact ⟨rfl, hz⟩

/-- What a declaration reads before the first quote has no backslash, and something follows the
quote. -/
lemma declaration_before_quote {o : Occurrence} (hx : ∀ c ∈ x, isQuote c = false)
    (hd : isQuote d = true) (h : testPattern.match? (x ++ d :: z) = some o) :
    x ≠ [] ∧ '\\' ∉ x ∧ z ≠ [] := by
  have hsplit : testPattern =
      [.literal "pm.test", .blanks, .literal "(", .blanks] ++ [.quote, .unquoted, .quote] := rfl
  have hpieces : ∀ piece ∈ [Piece.literal "pm.test", .blanks, .literal "(", .blanks],
      (['"', '\'', '\\'].all fun c => ¬ piece.Allows c) = true := by decide
  rw [hsplit] at h
  obtain ⟨o₁, o₂, h₁, h₂, -, -⟩ := Pattern.exists_of_match_append h
  have hallowed : ∀ c ∈ o₁.text, c ∉ ['"', '\'', '\\'] := fun c hc hmem => by
    obtain ⟨piece, hp, ha⟩ := Pattern.allows_of_mem_text h₁ hc
    exact List.all_iff_forall_prop.mp (hpieces piece hp) c hmem ha
  obtain ⟨read, rest, o₃, hr, h₃, -, -, -⟩ := exists_of_match_cons h₂
  obtain ⟨d', hd', -, hrest⟩ := read?_quote_eq_some.mp hr
  obtain ⟨read', rest', o₄, hr', -, -, -, -⟩ := exists_of_match_cons h₃
  have happend := Pattern.match?_append h₁
  rw [hrest] at happend
  have hquotes : ∀ c ∈ o₁.text, isQuote c = false := fun c hc => by
    by_contra hcq
    rcases isQuote_iff.mp (by simpa using hcq) with rfl | rfl
    · exact hallowed _ hc (by decide)
    · exact hallowed _ hc (by decide)
  obtain ⟨htext, rfl⟩ := first_quote_unique hquotes hd' hx hd happend
  obtain ⟨t, ht⟩ := prefix_of_match_literal h₁
  rw [← htext]
  refine ⟨by simp [ht], fun hm => hallowed _ hm (by decide), ?_⟩
  rintro rfl
  simp [Piece.read?, run?] at hr'

/-- A text in which a pattern does not occur has no part in which it does, up to its end. -/
lemma occurs_of_append {pattern : Pattern} {s t : List Char}
    (h : occurs pattern (s ++ t) = false) : occurs pattern t = false := by
  by_contra ht
  obtain ⟨u, v, o, rfl, ho⟩ := occurs_iff.mp (by simpa using ht)
  have hst : occurs pattern (s ++ (u ++ v)) = true :=
    occurs_iff.mpr ⟨s ++ u, v, o, by rw [List.append_assoc], ho⟩
  rw [h] at hst
  simp at hst

/-- No declaration starts before a quote that ends the text or is escaped. -/
lemma occurs_declaration (hx : ∀ c ∈ x, isQuote c = false) (hd : isQuote d = true)
    (hend : z = [] ∨ x = [] ∨ x.getLast? = some '\\') (hz : occurs testPattern z = false) :
    occurs testPattern (x ++ d :: z) = false := by
  induction x with
  | nil =>
      rw [List.nil_append, occurs, hz, Bool.or_false]
      cases hm : testPattern.match? (d :: z) with
      | none => rfl
      | some o => exact absurd rfl (declaration_before_quote hx hd hm).1
  | cons c x ih =>
      have hnone : testPattern.match? (c :: x ++ d :: z) = none := by
        cases hm : testPattern.match? (c :: x ++ d :: z) with
        | none => rfl
        | some o =>
            obtain ⟨-, hback, hne⟩ := declaration_before_quote hx hd hm
            rcases hend with rfl | hnil | hlast
            · exact absurd rfl hne
            · simp at hnil
            · exact absurd (List.mem_of_getLast? hlast) hback
      rw [List.cons_append] at hnone ⊢
      rw [occurs, hnone, Option.isSome_none, Bool.false_or]
      refine ih (fun c hc => hx c (List.mem_cons_of_mem _ hc)) (hend.imp_right fun h => ?_)
      rcases List.eq_nil_or_concat x with rfl | ⟨y, e, rfl⟩
      · exact Or.inl rfl
      · rw [List.concat_eq_append, ← List.cons_append, List.getLast?_concat] at h
        rw [List.concat_eq_append, List.getLast?_concat]
        exact Or.inr (h.resolve_left (by simp))

/-! ### Names that are kept -/

/-- The first quote in the name of a literal in quotes `q`, if there is one, is a double quote that
the literal escapes. -/
def QuotesKept (q : Char) (name : List Char) : Prop :=
  name.find? isQuote = none ∨ q = '"' ∧ name.find? isQuote = some '"'

instance (q : Char) (name : List Char) : Decidable (QuotesKept q name) :=
  inferInstanceAs (Decidable (_ ∨ _))

/-- An escaped quote is read as itself. -/
lemma readRest_escaped_quote {value : List ℕ} (hd : isQuote d = true)
    (h : readRest '"' .escape (d :: z) = some (value, [])) :
    ∃ value', readRest '"' .body z = some (value', []) ∧ value = charUnits d ++ value' := by
  have hstep : LiteralMode.escape.step '"' d = some (.body, charUnits d) := by
    rcases isQuote_iff.mp hd with rfl | rfl <;> rfl
  rw [readRest, if_neg (by simp [LiteralMode.closes])] at h
  simp only [hstep] at h
  obtain ⟨⟨value', rest⟩, hr, he⟩ := Option.map_eq_some_iff.mp h
  obtain ⟨rfl, rfl⟩ := Prod.mk.inj he
  exact ⟨value', hr, rfl⟩

lemma readRest_escaped_double {value : List ℕ} (h : readRest '"' .body z = some (value, [])) :
    readRest '"' .escape ('"' :: z) = some (charUnits '"' ++ value, []) := by
  rw [readRest, if_neg (by simp [LiteralMode.closes])]
  have hstep : LiteralMode.escape.step '"' '"' = some (.body, charUnits '"') := rfl
  simp only [hstep, h, Option.map_some]

lemma eq_escape_of_escapes {mode : LiteralMode} (h : mode.escapes = true) : mode = .escape := by
  cases mode <;> simp [LiteralMode.escapes] at h ⊢

/-- A double quote put in the place of the first quote in the name of a literal. It is the same
quote, and escaped, or else the literal is lost: it ends at this quote, or an apostrophe is missing
from its value. -/
lemma Rewrites.name_quote {value : List ℕ} {z' : List Char} (hx : ∀ c ∈ x, isQuote c = false)
    (hd : isQuote d = true) (hz : z ≠ [])
    (hv : readRest '"' .body (x ++ d :: z) = some (value, []))
    (h : Rewrites .testDeclaration after z z') :
    d = '"' ∧ x.getLast? = some '\\' ∧ z' = z ∧ occurs testPattern z = false ∨
      Lost (marks value) (x ++ '"' :: z') := by
  have hquote : ∀ c ∈ x, c ≠ '"' := fun c hc he => by
    rw [he] at hc
    have hfalse := hx _ hc
    simp [isQuote] at hfalse
  obtain ⟨mid, out, value₀, hr, h₀, rfl⟩ := exists_run_of_readRest hquote hv
  have hmid : mid.escapes = escapeOpen false x := escapes_of_run hr
  cases hesc : mid.escapes with
  | false =>
      rw [hesc] at hmid
      rcases isQuote_iff.mp hd with rfl | rfl
      · exact absurd h₀ (readRest_ne_of_broken ⟨[], z, rfl, hz, hesc⟩ value₀)
      · exact Or.inr (Or.inl ⟨x, z', rfl, h.ne_nil hz, hmid.symm⟩)
  | true =>
      have hlast := getLast?_of_escapeOpen (hmid.symm.trans hesc)
      obtain rfl := eq_escape_of_escapes hesc
      obtain ⟨value₁, h₁, rfl⟩ := readRest_escaped_quote hd h₀
      have hdouble : marks (charUnits '"') = 0 := by decide
      have hlost : ∀ value', readRest '"' .body z' = some (value', []) →
          marks value' < marks (charUnits d) + marks value₁ →
          Lost (marks (out ++ (charUnits d ++ value₁))) (x ++ '"' :: z') := fun value' h' hlt => by
        refine Or.inr (Or.inr ⟨out ++ (charUnits '"' ++ value'),
          readRest_of_run hquote hr (readRest_escaped_double h'), ?_⟩)
        rw [marks_append, marks_append, marks_append, marks_append, hdouble]
        omega
      rcases h.literal h₁ with ⟨rfl, ho⟩ | ⟨u, v, rfl, hv, hu⟩ | ⟨value', h', hlt⟩
      · rcases isQuote_iff.mp hd with rfl | rfl
        · exact Or.inl ⟨rfl, hlast, rfl, ho⟩
        · have hsingle : marks (charUnits '\'') = 1 := by decide
          exact Or.inr (hlost value₁ h₁ (by omega))
      · refine Or.inr (Or.inl ⟨x ++ '"' :: u, v, by simp, hv, ?_⟩)
        rw [escapeOpen_append, ← hmid]
        exact hu
      · exact Or.inr (hlost value' h' (by omega))

/-- **The first rule at a declaration**: it does not see the declaration of an empty name; else it
keeps the literal, and puts it in double quotes, or the literal is lost. -/
lemma Rewrites.declaration {value : List ℕ} (hq : isQuote q = true)
    (hv : readRest q .body (name ++ [q]) = some (value, []))
    (h : Rewrites .testDeclaration after ("pm.test(".toList ++ q :: (name ++ [q])) place) :
    (∃ s, place = "pm.t".toList ++ s) ∨ ∃ w, place = "it(".toList ++ '"' :: w ∧
      (Lost (marks value) w ∨ w = name ++ ['"'] ∧ name ≠ [] ∧ QuotesKept q name ∧
        occurs testPattern (name ++ ['"']) = false) := by
  obtain ⟨x, d, z, hcut, hx, hd, hwhere⟩ := exists_first_quote hq name
  rw [hcut] at h hv
  by_cases hne : x = []
  · subst hne
    exact Or.inl (h.of_empty_declaration hq hd)
  obtain ⟨z', rfl, hz⟩ := h.of_declaration hq hd hx hne
  refine Or.inr ⟨_, rfl, ?_⟩
  rcases hwhere with ⟨hfind, rfl, rfl, rfl⟩ | ⟨hfind, y, rfl, rfl⟩
  · -- the name has no quotes
    rw [hz.eq_nil]
    refine Or.inr ⟨rfl, hne, Or.inl hfind, ?_⟩
    exact occurs_declaration hx (by decide) (Or.inl rfl) (occurs_nil .testDeclaration)
  · rcases isQuote_iff.mp hq with rfl | rfl
    · rcases hz.name_quote hx hd (by simp) hv with ⟨rfl, hlast, rfl, ho⟩ | hlost
      · rw [List.append_assoc, List.cons_append]
        refine Or.inr ⟨rfl, by simp, Or.inr ⟨rfl, hfind⟩, ?_⟩
        exact occurs_declaration hx hd (Or.inr (Or.inr hlast)) ho
      · exact Or.inl hlost
    · -- the literal ends with an apostrophe, or what follows the quote is broken
      rcases hz.single (by simp) with hlast | hbroken
      · refine Or.inl (Or.inr (Or.inl ?_))
        rw [List.getLast?_append, List.getLast?_cons, hlast, Option.getD_some, Option.some_or]
      · have hsplit : x ++ '"' :: z' = x ++ ['"'] ++ z' := by simp
        rw [hsplit]
        exact Or.inl (Or.inl (Broken.append (hbroken _)))

/-- What the first rule keeps. -/
lemma Rewrites.declaration_kept {value : List ℕ} (hq : isQuote q = true)
    (hv : readRest q .body (name ++ [q]) = some (value, []))
    (h : Rewrites .testDeclaration after ("pm.test(".toList ++ q :: (name ++ [q])) place)
    (hne : name ≠ []) (hk : QuotesKept q name) (ho : occurs testPattern (name ++ ['"']) = false) :
    place = "it(".toList ++ '"' :: (name ++ ['"']) := by
  obtain ⟨x, d, z, hcut, hx, hd, hwhere⟩ := exists_first_quote hq name
  rw [hcut] at h hv
  rcases hwhere with ⟨hfind, rfl, rfl, rfl⟩ | ⟨hfind, y, rfl, rfl⟩
  · obtain ⟨z', rfl, hz⟩ := h.of_declaration hq hd hx hne
    rw [hz.eq_nil]
  · rcases hk with hnone | ⟨rfl, hdouble⟩
    · rw [hfind] at hnone
      simp at hnone
    · rw [hfind] at hdouble
      obtain rfl := Option.some.inj hdouble
      have hx' : x ≠ [] := by
        rintro rfl
        have hbroken : Broken LiteralMode.body.escapes ('"' :: (y ++ ['"'])) :=
          ⟨[], y ++ ['"'], rfl, by simp, rfl⟩
        exact readRest_ne_of_broken hbroken value hv
      obtain ⟨z', rfl, hz⟩ := h.of_declaration hq hd hx hx'
      rw [List.append_assoc, List.cons_append] at ho ⊢
      have ho' : occurs Rule.testDeclaration.pattern (x ++ ['"'] ++ (y ++ ['"'])) = false := by
        rw [List.append_assoc]
        exact ho
      rw [hz.eq_self (occurs_of_append ho')]

end RequestSuite.Script
