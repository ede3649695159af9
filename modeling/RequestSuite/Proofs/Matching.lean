/-
What patterns read.

* `Piece.Allows`: the characters that a part of a pattern may read; `allows_of_mem_text`,
  `allows_of_mem_captured`: an occurrence has no others;
* `prefix_of_match_literal`: an occurrence begins with the literal that its pattern begins with;
* `Pattern.exists_of_match_append`: a pattern put together from two;
* `Pattern.match?_of_append`: an occurrence does not depend on what follows it in the text;
* `Pattern.match?_append_text`: nor is it lost when more text follows, unless it ends with the text
  in the middle of a run;
* `occurs_iff`: a pattern occurs in a text if it can be read after some beginning.
-/
import Mathlib.Data.List.TakeWhile
import Mathlib.Tactic
import RequestSuite.Script.Rules

namespace RequestSuite.Script

open Text (isBlank isWord isDecimalDigit)

/-! ### The characters of an occurrence -/

/-- Whether a part of a pattern may read a character. -/
def Piece.Allows (c : Char) : Piece → Prop
  | .literal text => c ∈ text.toList
  | .blanks => isBlank c = true
  | .wordEnd => False
  | .quote => isQuote c = true
  | .unquoted => isQuote c = false
  | .digits => isDecimalDigit c = true

instance (c : Char) : (piece : Piece) → Decidable (piece.Allows c)
  | .literal text => inferInstanceAs (Decidable (c ∈ text.toList))
  | .blanks => inferInstanceAs (Decidable (isBlank c = true))
  | .wordEnd => inferInstanceAs (Decidable False)
  | .quote => inferInstanceAs (Decidable (isQuote c = true))
  | .unquoted => inferInstanceAs (Decidable (isQuote c = false))
  | .digits => inferInstanceAs (Decidable (isDecimalDigit c = true))

lemma run?_eq_some {p : Char → Bool} {cs read rest : List Char}
    (h : run? p cs = some (read, rest)) :
    cs.takeWhile p = read ∧ cs.dropWhile p = rest ∧ read ≠ [] := by
  rw [run?] at h
  split_ifs at h with hne
  obtain ⟨rfl, rfl⟩ := Prod.mk.inj (Option.some.inj h)
  exact ⟨rfl, rfl, by simpa using hne⟩

/-- What a quote reads. -/
lemma read?_quote_eq_some {cs read rest : List Char} :
    Piece.quote.read? cs = some (read, rest) ↔
      ∃ c, isQuote c = true ∧ read = [c] ∧ cs = c :: rest := by
  cases cs with
  | nil => simp [Piece.read?]
  | cons d ds =>
      simp only [Piece.read?]
      split_ifs with hq
      · rw [Option.some_inj, Prod.mk.injEq]
        constructor
        · rintro ⟨rfl, rfl⟩
          exact ⟨d, hq, rfl, rfl⟩
        · rintro ⟨c, -, rfl, he⟩
          obtain ⟨rfl, rfl⟩ := List.cons.inj he
          exact ⟨rfl, rfl⟩
      · simp only [false_iff]
        rintro ⟨c, hc, -, he⟩
        obtain ⟨rfl, -⟩ := List.cons.inj he
        exact hq hc

/-- A part of a pattern reads what it may. -/
lemma Piece.allows_of_mem_read {piece : Piece} {cs read rest : List Char}
    (h : piece.read? cs = some (read, rest)) {c : Char} (hc : c ∈ read) : piece.Allows c := by
  cases piece with
  | literal text =>
      obtain ⟨r, -, he⟩ := Option.map_eq_some_iff.mp h
      obtain ⟨rfl, -⟩ := Prod.mk.inj he
      exact hc
  | blanks =>
      obtain ⟨rfl, -⟩ := Prod.mk.inj (Option.some.inj h)
      exact List.mem_takeWhile_imp hc
  | wordEnd =>
      cases cs with
      | nil =>
          obtain ⟨rfl, -⟩ := Prod.mk.inj (Option.some.inj h)
          simp at hc
      | cons d ds =>
          simp only [Piece.read?] at h
          split_ifs at h
          obtain ⟨rfl, -⟩ := Prod.mk.inj (Option.some.inj h)
          simp at hc
  | quote =>
      obtain ⟨d, hq, rfl, -⟩ := read?_quote_eq_some.mp h
      rw [List.mem_singleton.mp hc]
      exact hq
  | unquoted =>
      obtain ⟨hr, -, -⟩ := run?_eq_some h
      rw [← hr] at hc
      simpa [Piece.Allows] using List.mem_takeWhile_imp hc
  | digits =>
      obtain ⟨hr, -, -⟩ := run?_eq_some h
      rw [← hr] at hc
      exact List.mem_takeWhile_imp hc

/-- An occurrence of a pattern is one of its first part, followed by one of the others. -/
lemma exists_of_match_cons {piece : Piece} {pieces : Pattern} {cs : List Char} {o : Occurrence}
    (h : Pattern.match? (piece :: pieces) cs = some o) :
    ∃ read rest o', piece.read? cs = some (read, rest) ∧
      Pattern.match? pieces rest = some o' ∧ o.text = read ++ o'.text ∧
      o.captured = (if piece.captures then read ++ o'.captured else o'.captured) ∧
      o.rest = o'.rest := by
  rw [Pattern.match?] at h
  split at h
  · simp at h
  · next read rest hr =>
    split at h
    · simp at h
    · next o' ho =>
      obtain rfl := Option.some.inj h
      exact ⟨read, rest, o', hr, ho, rfl, rfl, rfl⟩

/-- Each character of an occurrence is one that a part of the pattern may read. -/
lemma Pattern.allows_of_mem_text {pattern : Pattern} {cs : List Char} {o : Occurrence}
    (h : pattern.match? cs = some o) {c : Char} (hc : c ∈ o.text) :
    ∃ piece ∈ pattern, piece.Allows c := by
  induction pattern generalizing cs o with
  | nil =>
      obtain rfl := Option.some.inj h
      simp at hc
  | cons piece pieces ih =>
      obtain ⟨read, rest, o', hr, ho, ht, -, -⟩ := exists_of_match_cons h
      rw [ht, List.mem_append] at hc
      rcases hc with hc | hc
      · exact ⟨piece, List.mem_cons_self, Piece.allows_of_mem_read hr hc⟩
      · obtain ⟨other, hm, ha⟩ := ih ho hc
        exact ⟨other, List.mem_cons_of_mem _ hm, ha⟩

/-- Each captured character is one that a capturing part of the pattern may read. -/
lemma Pattern.allows_of_mem_captured {pattern : Pattern} {cs : List Char} {o : Occurrence}
    (h : pattern.match? cs = some o) {c : Char} (hc : c ∈ o.captured) :
    ∃ piece ∈ pattern, piece.captures = true ∧ piece.Allows c := by
  induction pattern generalizing cs o with
  | nil =>
      obtain rfl := Option.some.inj h
      simp at hc
  | cons piece pieces ih =>
      obtain ⟨read, rest, o', hr, ho, -, hcap, -⟩ := exists_of_match_cons h
      rw [hcap] at hc
      split_ifs at hc with hp
      · rcases List.mem_append.mp hc with hc | hc
        · exact ⟨piece, List.mem_cons_self, hp, Piece.allows_of_mem_read hr hc⟩
        · obtain ⟨other, hm, ha⟩ := ih ho hc
          exact ⟨other, List.mem_cons_of_mem _ hm, ha⟩
      · obtain ⟨other, hm, ha⟩ := ih ho hc
        exact ⟨other, List.mem_cons_of_mem _ hm, ha⟩

lemma prefix_of_match_literal {text : String} {pieces : Pattern} {cs : List Char} {o : Occurrence}
    (h : Pattern.match? (.literal text :: pieces) cs = some o) :
    ∃ t, o.text = text.toList ++ t := by
  obtain ⟨read, rest, o', hr, -, ht, -, -⟩ := exists_of_match_cons h
  obtain ⟨r, -, he⟩ := Option.map_eq_some_iff.mp hr
  obtain ⟨rfl, -⟩ := Prod.mk.inj he
  exact ⟨o'.text, ht⟩

/-- An occurrence of a pattern put together from two is one of the first, and one of the second in
what it leaves. -/
lemma Pattern.exists_of_match_append {pattern pattern' : Pattern} {cs : List Char} {o : Occurrence}
    (h : Pattern.match? (pattern ++ pattern') cs = some o) :
    ∃ o₁ o₂, pattern.match? cs = some o₁ ∧ pattern'.match? o₁.rest = some o₂ ∧
      o.text = o₁.text ++ o₂.text ∧ o.rest = o₂.rest := by
  induction pattern generalizing cs o with
  | nil => exact ⟨_, o, rfl, h, rfl, rfl⟩
  | cons piece pieces ih =>
      obtain ⟨read, rest, o', hr, ho, ht, -, hrest⟩ := exists_of_match_cons h
      obtain ⟨o₁, o₂, h₁, h₂, ht', hrest'⟩ := ih ho
      refine ⟨⟨read ++ o₁.text, if piece.captures then read ++ o₁.captured else o₁.captured,
        o₁.rest⟩, o₂, ?_, h₂, ?_, ?_⟩
      · simp only [Pattern.match?, hr, h₁]
      · rw [ht, ht', List.append_assoc]
      · rw [hrest, hrest']

/-! ### Text after an occurrence -/

lemma dropPrefix?_append_self (es cs : List Char) : dropPrefix? es (es ++ cs) = some cs := by
  induction es with
  | nil => rfl
  | cons e es ih => simp [dropPrefix?, ih]

/-- A run ends where it ended when the text was longer. -/
lemma takeWhile_of_append {p : Char → Bool} {read rest tail : List Char}
    (ht : (read ++ rest ++ tail).takeWhile p = read) : (read ++ rest).takeWhile p = read := by
  have hall : ∀ c ∈ read, p c = true := fun c hc => by
    rw [← ht] at hc
    exact List.mem_takeWhile_imp hc
  rw [List.append_assoc, List.takeWhile_append_of_pos hall] at ht
  rw [List.takeWhile_append_of_pos hall]
  have hnil := List.append_right_eq_self.mp ht
  cases rest with
  | nil => simp
  | cons c rest =>
      have hc : p c = false := by
        by_contra hc
        rw [List.cons_append, List.takeWhile_cons_of_pos (by simpa using hc)] at hnil
        simp at hnil
      rw [List.takeWhile_cons_of_neg (by simp [hc]), List.append_nil]

/-- A run that does not end with the text ends where it did when more text follows. -/
lemma takeWhile_append_of_stop {p : Char → Bool} {read rest : List Char}
    (ht : (read ++ rest).takeWhile p = read) (hne : rest ≠ []) (tail : List Char) :
    (read ++ rest ++ tail).takeWhile p = read := by
  obtain ⟨c, rest, rfl⟩ := List.exists_cons_of_ne_nil hne
  have hall : ∀ c ∈ read, p c = true := fun c hc => by
    rw [← ht] at hc
    exact List.mem_takeWhile_imp hc
  rw [List.takeWhile_append_of_pos hall] at ht
  have hnil := List.append_right_eq_self.mp ht
  have hc : p c = false := by
    by_contra hc
    rw [List.takeWhile_cons_of_pos (by simpa using hc)] at hnil
    simp at hnil
  rw [List.append_assoc, List.takeWhile_append_of_pos hall, List.cons_append,
    List.takeWhile_cons_of_neg (by simp [hc]), List.append_nil]

lemma dropWhile_of_takeWhile {p : Char → Bool} {read rest : List Char}
    (h : (read ++ rest).takeWhile p = read) : (read ++ rest).dropWhile p = rest := by
  have happend := List.takeWhile_append_dropWhile (p := p) (l := read ++ rest)
  rw [h] at happend
  exact List.append_cancel_left happend

lemma run?_of_takeWhile {p : Char → Bool} {read rest : List Char}
    (h : (read ++ rest).takeWhile p = read) (hne : read ≠ []) :
    run? p (read ++ rest) = some (read, rest) := by
  rw [run?, h, dropWhile_of_takeWhile h, if_neg (by simpa using hne)]

/-- What a part reads does not depend on what follows it. -/
lemma Piece.read?_of_append {piece : Piece} {read rest tail : List Char}
    (h : piece.read? (read ++ rest ++ tail) = some (read, rest ++ tail)) :
    piece.read? (read ++ rest) = some (read, rest) := by
  cases piece with
  | literal text =>
      obtain ⟨r, -, he⟩ := Option.map_eq_some_iff.mp h
      obtain ⟨rfl, -⟩ := Prod.mk.inj he
      rw [Piece.read?, dropPrefix?_append_self]
      rfl
  | blanks =>
      have ht := takeWhile_of_append (Prod.mk.inj (Option.some.inj h)).1
      rw [Piece.read?, ht, dropWhile_of_takeWhile ht]
  | wordEnd =>
      have hread : read = [] := List.eq_nil_iff_forall_not_mem.mpr fun c hc =>
        Piece.allows_of_mem_read h hc
      subst hread
      cases rest with
      | nil => rfl
      | cons c rest =>
          simp only [List.nil_append, List.cons_append, Piece.read?] at h ⊢
          split_ifs at h ⊢
          rfl
  | quote =>
      obtain ⟨c, hq, rfl, -⟩ := read?_quote_eq_some.mp h
      exact read?_quote_eq_some.mpr ⟨c, hq, rfl, rfl⟩
  | unquoted =>
      obtain ⟨ht, -, hne⟩ := run?_eq_some h
      exact run?_of_takeWhile (takeWhile_of_append ht) hne
  | digits =>
      obtain ⟨ht, -, hne⟩ := run?_eq_some h
      exact run?_of_takeWhile (takeWhile_of_append ht) hne

/-- An occurrence does not depend on what follows it. -/
lemma Pattern.match?_of_append {pattern : Pattern} {cs rest tail : List Char} {o : Occurrence}
    (h : pattern.match? (cs ++ tail) = some o) (hrest : o.rest = rest ++ tail) :
    pattern.match? cs = some ⟨o.text, o.captured, rest⟩ := by
  induction pattern generalizing cs o with
  | nil =>
      obtain rfl := Option.some.inj h
      rw [List.append_cancel_right hrest]
      rfl
  | cons piece pieces ih =>
      obtain ⟨read, rest₁, o', hr, ho, ht, hc, hrest'⟩ := exists_of_match_cons h
      rw [hrest] at hrest'
      have hrest₁ : rest₁ = o'.text ++ rest ++ tail := by
        rw [← Pattern.match?_append ho, ← hrest', List.append_assoc]
      have hcs : cs = read ++ (o'.text ++ rest) := by
        have happend := Piece.read?_append hr
        rw [hrest₁, ← List.append_assoc] at happend
        exact (List.append_cancel_right happend).symm
      subst hrest₁
      subst hcs
      rw [Pattern.match?, Piece.read?_of_append hr]
      simp only [ih ho hrest'.symm, ht, hc]

/-- Whether a part reads without regard to what follows it. -/
def Piece.firm : Piece → Bool
  | .literal _ | .quote => true
  | _ => false

/-- A part reads the same in a longer text, if it is firm or has left something of the text. -/
lemma Piece.read?_append_text {piece : Piece} {cs read rest : List Char}
    (h : piece.read? cs = some (read, rest)) (hs : piece.firm = true ∨ rest ≠ [])
    (tail : List Char) : piece.read? (cs ++ tail) = some (read, rest ++ tail) := by
  obtain rfl := Piece.read?_append h
  cases piece with
  | literal text =>
      obtain ⟨r, -, he⟩ := Option.map_eq_some_iff.mp h
      obtain ⟨rfl, -⟩ := Prod.mk.inj he
      rw [Piece.read?, List.append_assoc, dropPrefix?_append_self]
      rfl
  | quote =>
      obtain ⟨c, hq, rfl, -⟩ := read?_quote_eq_some.mp h
      exact read?_quote_eq_some.mpr ⟨c, hq, rfl, rfl⟩
  | blanks =>
      have hne := hs.resolve_left (by simp [Piece.firm])
      have ht := takeWhile_append_of_stop (Prod.mk.inj (Option.some.inj h)).1 hne tail
      rw [List.append_assoc] at ht ⊢
      rw [Piece.read?, ht, dropWhile_of_takeWhile ht]
  | wordEnd =>
      have hne := hs.resolve_left (by simp [Piece.firm])
      have hread : read = [] := List.eq_nil_iff_forall_not_mem.mpr fun c hc =>
        Piece.allows_of_mem_read h hc
      subst hread
      obtain ⟨c, rest, rfl⟩ := List.exists_cons_of_ne_nil hne
      simp only [List.nil_append, List.cons_append, Piece.read?] at h ⊢
      split_ifs at h ⊢
      rfl
  | unquoted =>
      have hne := hs.resolve_left (by simp [Piece.firm])
      obtain ⟨ht, -, hread⟩ := run?_eq_some h
      have ht' := takeWhile_append_of_stop ht hne tail
      rw [List.append_assoc] at ht' ⊢
      exact run?_of_takeWhile ht' hread
  | digits =>
      have hne := hs.resolve_left (by simp [Piece.firm])
      obtain ⟨ht, -, hread⟩ := run?_eq_some h
      have ht' := takeWhile_append_of_stop ht hne tail
      rw [List.append_assoc] at ht' ⊢
      exact run?_of_takeWhile ht' hread

/-- An occurrence that leaves something of the text is there in a longer text. -/
lemma Pattern.match?_append_text {pattern : Pattern} {cs : List Char} {o : Occurrence}
    (h : pattern.match? cs = some o) (hne : o.rest ≠ []) (tail : List Char) :
    pattern.match? (cs ++ tail) = some ⟨o.text, o.captured, o.rest ++ tail⟩ := by
  induction pattern generalizing cs o with
  | nil =>
      obtain rfl := Option.some.inj h
      rfl
  | cons piece pieces ih =>
      obtain ⟨read, rest, o', hr, ho, ht, hc, hrest⟩ := exists_of_match_cons h
      rw [hrest] at hne ⊢
      have hrest' : rest ≠ [] := fun he => by
        have happend := Pattern.match?_append ho
        rw [he, List.append_eq_nil_iff] at happend
        exact hne happend.2
      rw [Pattern.match?, Piece.read?_append_text hr (Or.inr hrest') tail]
      simp only [ih ho hne, ht, hc]

/-- So is an occurrence of a pattern that ends with a firm part which reads something. -/
lemma Pattern.exists_match_append_text (pattern : Pattern) {last : Piece} {cs : List Char}
    {o : Occurrence} (hl : last.firm = true) (hn : last.read? [] = none)
    (h : Pattern.match? (pattern ++ [last]) cs = some o) (tail : List Char) :
    ∃ o', Pattern.match? (pattern ++ [last]) (cs ++ tail) = some o' := by
  induction pattern generalizing cs o with
  | nil =>
      obtain ⟨read, rest, o', hr, ho, -, -, -⟩ := exists_of_match_cons h
      refine ⟨⟨read ++ [], if last.captures then read ++ [] else [], rest ++ tail⟩, ?_⟩
      simp only [List.nil_append, Pattern.match?, Piece.read?_append_text hr (Or.inl hl) tail]
  | cons piece pieces ih =>
      obtain ⟨read, rest, o', hr, ho, -, -, -⟩ := exists_of_match_cons h
      have hrest : rest ≠ [] := by
        rintro rfl
        obtain ⟨o₁, o₂, h₁, h₂, -, -⟩ := Pattern.exists_of_match_append ho
        have hnil := Pattern.match?_append h₁
        rw [List.append_eq_nil_iff] at hnil
        rw [hnil.2] at h₂
        obtain ⟨read', rest', -, hr', -⟩ := exists_of_match_cons h₂
        rw [hn] at hr'
        simp at hr'
      obtain ⟨o'', ho''⟩ := ih ho
      refine ⟨⟨read ++ o''.text, if piece.captures then read ++ o''.captured else o''.captured,
        o''.rest⟩, ?_⟩
      rw [List.cons_append, Pattern.match?, Piece.read?_append_text hr (Or.inr hrest) tail]
      simp only [ho'']

/-- A pattern occurs in a text if it can be read after some beginning. -/
lemma occurs_iff {pattern : Pattern} {cs : List Char} :
    occurs pattern cs = true ↔ ∃ s t o, cs = s ++ t ∧ pattern.match? t = some o := by
  induction cs with
  | nil =>
      rw [occurs, Option.isSome_iff_exists]
      constructor
      · rintro ⟨o, ho⟩
        exact ⟨[], [], o, rfl, ho⟩
      · rintro ⟨s, t, o, hst, ho⟩
        rw [(List.append_eq_nil_iff.mp hst.symm).2] at ho
        exact ⟨o, ho⟩
  | cons c cs ih =>
      rw [occurs, Bool.or_eq_true, ih, Option.isSome_iff_exists]
      constructor
      · rintro (⟨o, ho⟩ | ⟨s, t, o, rfl, ho⟩)
        · exact ⟨[], c :: cs, o, rfl, ho⟩
        · exact ⟨c :: s, t, o, rfl, ho⟩
      · rintro ⟨s, t, o, hst, ho⟩
        cases s with
        | nil =>
            rw [List.nil_append] at hst
            exact Or.inl ⟨o, hst ▸ ho⟩
        | cons d s =>
            obtain ⟨-, hcs⟩ := List.cons.inj hst
            exact Or.inr ⟨s, t, o, hcs, ho⟩

end RequestSuite.Script
