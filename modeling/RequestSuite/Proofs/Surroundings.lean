/-
A word of a script and the occurrences of rules around it.

* `apply_of_match`, `apply_of_none`: a rule applied at the start of a text;
* `dropPrefix?_cases`: a literal lies before a word or reaches into it;
* `Clear`, `Piece.Misses`: parts of a pattern that cannot reach into a word;
* `PlainWord.before_or_captured`: an occurrence that starts before such a word ends before it, or
  captures it as a whole; `before_or_into`: names that end as words do;
* `Still`: a word in which no occurrence of a rule starts; `still_of_clear`;
* `infix_apply`: what becomes of a word, wherever it stands in a script.
-/
import RequestSuite.Proofs.Passes

namespace RequestSuite.Script

open Text (isBlank isWord isDecimalDigit)

variable {rule : Rule} {c : Char} {cs s t w word rest : List Char} {o : Occurrence}

/-! ### A rule at the start of a text -/

lemma apply_of_none (h : rule.pattern.match? (c :: cs) = none) :
    rule.apply (c :: cs) = c :: rule.apply cs := by
  rw [Rule.apply, replaceAll, replaceFrom, h]
  rfl

/-- An occurrence at the start of a text is replaced. -/
lemma apply_of_match (h : rule.pattern.match? cs = some o) :
    rule.apply cs = rule.replacement o.captured ++ rule.apply o.rest := by
  obtain ⟨t, ht⟩ := exists_text_eq_cons h
  have happend := Pattern.match?_append h
  rw [← happend, ht, List.cons_append] at h ⊢
  have hlength : o.text.length - 1 = ('m' :: '.' :: t).length := by
    rw [ht]
    rfl
  rw [Rule.apply, replaceAll, replaceFrom, h]
  simp only [hlength]
  rw [replaceFrom_length, Rule.apply, replaceAll]

lemma apply_nil (rule : Rule) : rule.apply [] = [] := rfl

lemma length_rest_lt (h : rule.pattern.match? cs = some o) : o.rest.length < cs.length := by
  obtain ⟨t, ht⟩ := exists_text_eq_cons h
  rw [← Pattern.match?_append h, ht, List.length_append, List.length_cons]
  omega

/-! ### Literals before a word -/

lemma isQuote_of_isBlank (h : isBlank c = true) : isQuote c = false := by
  by_contra hquote
  rw [Bool.not_eq_false, isQuote, Bool.or_eq_true, beq_iff_eq, beq_iff_eq] at hquote
  rcases hquote with rfl | rfl <;> exact absurd h (by decide)

lemma isQuote_of_isDecimalDigit (h : isDecimalDigit c = true) : isQuote c = false := by
  by_contra hquote
  rw [Bool.not_eq_false, isQuote, Bool.or_eq_true, beq_iff_eq, beq_iff_eq] at hquote
  rcases hquote with rfl | rfl <;> exact absurd h (by decide +kernel)

/-- A literal that is read before some text ends before it or reaches into it. -/
lemma dropPrefix?_cases (h : dropPrefix? w (s ++ cs) = some rest) :
    (∃ s', s = w ++ s' ∧ rest = s' ++ cs) ∨ ∃ u, u ≠ [] ∧ w = s ++ u ∧ cs = u ++ rest := by
  have happend := dropPrefix?_append h
  rcases List.append_eq_append_iff.mp happend with ⟨s', rfl, rfl⟩ | ⟨u, rfl, rfl⟩
  · exact Or.inl ⟨s', rfl, rfl⟩
  · cases u with
    | nil => exact Or.inl ⟨[], by simp, by simp⟩
    | cons d u => exact Or.inr ⟨d :: u, by simp, rfl, rfl⟩

/-- Whether one of two texts starts with the other. -/
def compatible (s t : List Char) : Bool := s.isPrefixOf t || t.isPrefixOf s

lemma compatible_of_append {u : List Char} (h : u ++ rest = w ++ t) : compatible u w = true := by
  rw [compatible, Bool.or_eq_true, List.isPrefixOf_iff_prefix, List.isPrefixOf_iff_prefix]
  exact List.prefix_or_prefix_of_prefix (h ▸ List.prefix_append u rest) (List.prefix_append w t)

/-- No end of a text can be the start of a word, or be longer and start with the word. -/
def Clear (w text : List Char) : Prop := ∀ u ∈ text.tails, u = [] ∨ compatible u w = false

instance (w text : List Char) : Decidable (Clear w text) := by unfold Clear; infer_instance

/-- A part of a pattern cannot read on into a word that starts as `w` does. -/
def Piece.Misses (w : List Char) : Piece → Prop
  | .literal text => Clear w text.toList
  | .blanks => w.head?.any isBlank = false
  | .wordEnd => True
  | .quote => w.head?.any isQuote = false
  | .unquoted => False
  | .digits => w.head?.any isDecimalDigit = false

instance (w : List Char) : (piece : Piece) → Decidable (piece.Misses w)
  | .literal text => inferInstanceAs (Decidable (Clear w text.toList))
  | .blanks => inferInstanceAs (Decidable (_ = false))
  | .wordEnd => inferInstanceAs (Decidable True)
  | .quote => inferInstanceAs (Decidable (_ = false))
  | .unquoted => inferInstanceAs (Decidable False)
  | .digits => inferInstanceAs (Decidable (_ = false))


variable {pieces pattern : Pattern} {piece : Piece} {read : List Char} {p : Char → Bool}

/-- A run that a word cannot carry on ends before it. -/
lemma takeWhile_append_word (hne : w ≠ []) (hp : w.head?.any p = false) (s t : List Char) :
    (s ++ (w ++ t)).takeWhile p = s.takeWhile p ∧
      (s ++ (w ++ t)).dropWhile p = s.dropWhile p ++ (w ++ t) := by
  obtain ⟨d, w, rfl⟩ := List.exists_cons_of_ne_nil hne
  have hd : ¬ p d = true := by simpa using hp
  induction s with
  | nil => simp [hd]
  | cons c s ih =>
      rw [List.cons_append, List.takeWhile_cons, List.dropWhile_cons, List.takeWhile_cons,
        List.dropWhile_cons, ih.1, ih.2]
      split_ifs <;> exact ⟨rfl, rfl⟩

/-- So a part that cannot read on into a word ends before it. -/
lemma Piece.Misses.before (hm : piece.Misses w) (hne : w ≠ [])
    (h : piece.read? (s ++ (w ++ t)) = some (read, rest)) :
    ∃ s', s = read ++ s' ∧ rest = s' ++ (w ++ t) := by
  cases piece with
  | literal text =>
      obtain ⟨r, hr, he⟩ := Option.map_eq_some_iff.mp h
      obtain ⟨rfl, rfl⟩ := Prod.mk.inj he
      rcases dropPrefix?_cases hr with hbefore | ⟨u, hu, hw, hinto⟩
      · exact hbefore
      · have hclear := (hm u ((List.mem_tails _ _).mpr ⟨s, hw.symm⟩)).resolve_left hu
        rw [compatible_of_append hinto.symm] at hclear
        cases hclear
  | blanks =>
      obtain ⟨rfl, rfl⟩ := Prod.mk.inj (Option.some.inj h)
      obtain ⟨htake, hdrop⟩ := takeWhile_append_word hne hm s t
      exact ⟨_, by rw [htake, List.takeWhile_append_dropWhile], hdrop⟩
  | wordEnd =>
      have hread : read = [] := List.eq_nil_iff_forall_not_mem.mpr fun c hc =>
        Piece.allows_of_mem_read h hc
      have happend := Piece.read?_append h
      rw [hread, List.nil_append] at happend
      exact ⟨s, by rw [hread, List.nil_append], happend⟩
  | quote =>
      obtain ⟨c, hc, rfl, hcs⟩ := read?_quote_eq_some.mp h
      cases s with
      | nil =>
          obtain ⟨d, w, rfl⟩ := List.exists_cons_of_ne_nil hne
          obtain ⟨rfl, -⟩ := List.cons.inj hcs
          have hd : isQuote d = false := by simpa [Piece.Misses] using hm
          rw [hc] at hd
          cases hd
      | cons e s =>
          obtain ⟨rfl, rfl⟩ := List.cons.inj hcs
          exact ⟨s, rfl, rfl⟩
  | unquoted => exact hm.elim
  | digits =>
      obtain ⟨rfl, rfl, -⟩ := run?_eq_some h
      obtain ⟨htake, hdrop⟩ := takeWhile_append_word hne hm s t
      exact ⟨_, by rw [htake, List.takeWhile_append_dropWhile], hdrop⟩

/-- A run of characters that are no quotes ends before a word without quotes, or takes in the word
and what follows it up to the next quote. -/
lemma before_or_through (hq : ∀ c ∈ w, isQuote c = false)
    (h : Piece.unquoted.read? (s ++ (w ++ t)) = some (read, rest)) :
    (∃ s', s = read ++ s' ∧ rest = s' ++ (w ++ t)) ∨
      w ++ t.takeWhile (fun c => !isQuote c) <:+: read := by
  obtain ⟨rfl, rfl, -⟩ := run?_eq_some h
  by_cases hs : ∀ c ∈ s, (!isQuote c) = true
  · have hw : ∀ c ∈ w, (!isQuote c) = true := by simpa using hq
    rw [List.takeWhile_append_of_pos hs, List.takeWhile_append_of_pos hw]
    exact Or.inr (List.suffix_append _ _).isInfix
  · have hdrop : (s.dropWhile fun c => !isQuote c) ≠ [] := fun hnil =>
      hs (List.dropWhile_eq_nil_iff.mp hnil)
    have hrest : (s ++ (w ++ t)).dropWhile (fun c => !isQuote c) =
        s.dropWhile (fun c => !isQuote c) ++ (w ++ t) := by
      rw [List.dropWhile_append, if_neg (by simpa using hdrop)]
    rw [hrest]
    refine Or.inl ⟨s.dropWhile fun c => !isQuote c, ?_, rfl⟩
    have happend := List.takeWhile_append_dropWhile (p := fun c => !isQuote c) (l := s ++ (w ++ t))
    rw [hrest, ← List.append_assoc] at happend
    exact (List.append_cancel_right happend).symm

/-- What an occurrence that starts before a word does there: it ends before the word, or it captures
the word and what follows it up to the next quote. -/
lemma Pattern.before_or_captured (hne : w ≠ []) (hq : ∀ c ∈ w, isQuote c = false)
    (hm : ∀ piece ∈ pattern, piece.Misses w ∨ piece = .unquoted)
    (h : pattern.match? (s ++ (w ++ t)) = some o) :
    (∃ s', s = o.text ++ s' ∧ o.rest = s' ++ (w ++ t)) ∨
      .unquoted ∈ pattern ∧ w ++ t.takeWhile (fun c => !isQuote c) <:+: o.captured := by
  induction pattern generalizing s o with
  | nil =>
      obtain rfl := Option.some.inj h
      exact Or.inl ⟨s, rfl, rfl⟩
  | cons piece pieces ih =>
      obtain ⟨hpiece, hpieces⟩ := List.forall_mem_cons.mp hm
      obtain ⟨read, rest, o', hr, ho, ht, hc, hrest⟩ := exists_of_match_cons h
      have hthrough : (∃ s', s = read ++ s' ∧ rest = s' ++ (w ++ t)) ∨
          piece = .unquoted ∧ w ++ t.takeWhile (fun c => !isQuote c) <:+: read := by
        rcases hpiece with hmiss | rfl
        · exact Or.inl (hmiss.before hne hr)
        · exact (before_or_through hq hr).imp_right fun hin => ⟨rfl, hin⟩
      rcases hthrough with ⟨s', rfl, rfl⟩ | ⟨rfl, hin⟩
      · rcases ih hpieces ho with ⟨s'', rfl, hrest'⟩ | ⟨hmem, hin⟩
        · exact Or.inl ⟨s'', by rw [ht, List.append_assoc], by rw [hrest, hrest']⟩
        · refine Or.inr ⟨List.mem_cons_of_mem _ hmem, ?_⟩
          rw [hc]
          split_ifs
          · exact hin.trans (List.suffix_append _ _).isInfix
          · exact hin
      · refine Or.inr ⟨List.mem_cons_self, ?_⟩
        rw [hc, if_pos (show Piece.unquoted.captures = true from rfl)]
        exact hin.trans (List.prefix_append _ _).isInfix

/-- An occurrence that has begun before a word cannot read on into it, unless it captures it. -/
def Pattern.Misses (w : List Char) : Pattern → Prop
  | .literal text :: pieces =>
    Clear w text.toList.tail ∧ ∀ piece ∈ pieces, piece.Misses w ∨ piece = .unquoted
  | _ => False

instance (w : List Char) (pattern : Pattern) : Decidable (pattern.Misses w) := by
  unfold Pattern.Misses
  split <;> infer_instance

/-- An occurrence that starts before a word it misses. -/
lemma Pattern.Misses.before_or_captured (hm : pattern.Misses w) (hne : w ≠ [])
    (hq : ∀ c ∈ w, isQuote c = false) (h : pattern.match? (c :: s ++ (w ++ t)) = some o) :
    (∃ s', c :: s = o.text ++ s' ∧ o.rest = s' ++ (w ++ t)) ∨
      .unquoted ∈ pattern ∧ w ++ t.takeWhile (fun c => !isQuote c) <:+: o.captured := by
  unfold Pattern.Misses at hm
  split at hm
  · next text pieces =>
    obtain ⟨hclear, hpieces⟩ := hm
    obtain ⟨read, rest, o', hr, ho, ht, hc, hrest⟩ := exists_of_match_cons h
    obtain ⟨r, hdrop, he⟩ := Option.map_eq_some_iff.mp hr
    obtain ⟨rfl, rfl⟩ := Prod.mk.inj he
    -- the first character of the literal stands before the word
    have hbefore : ∃ s', c :: s = text.toList ++ s' ∧ r = s' ++ (w ++ t) := by
      rcases dropPrefix?_cases hdrop with hbefore | ⟨u, hu, hw, hinto⟩
      · exact hbefore
      · have htail : text.toList.tail = s ++ u := by rw [hw, List.cons_append, List.tail_cons]
        have hout := (hclear u ((List.mem_tails _ _).mpr ⟨s, htail.symm⟩)).resolve_left hu
        rw [compatible_of_append hinto.symm] at hout
        cases hout
    obtain ⟨s', hs, rfl⟩ := hbefore
    rcases Pattern.before_or_captured hne hq hpieces ho with ⟨s'', rfl, hrest'⟩ | ⟨hmem, hin⟩
    · exact Or.inl ⟨s'', by rw [hs, ht, List.append_assoc], by rw [hrest, hrest']⟩
    · refine Or.inr ⟨List.mem_cons_of_mem _ hmem, ?_⟩
      rwa [hc]
  · exact hm.elim

/-- A word without quotes, by how it begins. -/
structure PlainWord (w word : List Char) : Prop where
  ne_nil : w ≠ []
  begins : w <+: word
  quoteless : ∀ c ∈ word, isQuote c = false

/-- An occurrence that starts before a plain word ends before it or captures it. -/
lemma PlainWord.before_or_captured (hp : PlainWord w word) (hm : pattern.Misses w)
    (h : pattern.match? (c :: s ++ (word ++ t)) = some o) :
    (∃ s', c :: s = o.text ++ s' ∧ o.rest = s' ++ (word ++ t)) ∨
      .unquoted ∈ pattern ∧ word <:+: o.captured := by
  obtain ⟨more, rfl⟩ := hp.begins
  obtain ⟨hw, hmore⟩ := List.forall_mem_append.mp hp.quoteless
  rw [List.append_assoc] at h ⊢
  refine (hm.before_or_captured hp.ne_nil hw h).imp_right fun ⟨hmem, hin⟩ => ⟨hmem, ?_⟩
  have hall : ∀ c ∈ more, (!isQuote c) = true := by simpa using hmore
  rw [List.takeWhile_append_of_pos hall, ← List.append_assoc] at hin
  exact (List.prefix_append _ _).isInfix.trans hin

/-- An occurrence of a name that ends as a word does, in front of another word: it ends before that
word, or with a beginning of it. -/
lemma before_or_into {text : String}
    (h : Pattern.match? [.literal text, .wordEnd] (c :: s ++ (w ++ t)) = some o) :
    (∃ s', c :: s = o.text ++ s' ∧ o.rest = s' ++ (w ++ t)) ∨
      ∃ u ∈ text.toList.tail.tails, u ≠ [] ∧ w ++ t = u ++ o.rest ∧
        o.rest.head?.any isWord = false := by
  obtain ⟨read, rest, o', hr, ho, ht, hc, hrest⟩ := exists_of_match_cons h
  obtain ⟨r, hdrop, he⟩ := Option.map_eq_some_iff.mp hr
  obtain ⟨rfl, rfl⟩ := Prod.mk.inj he
  obtain ⟨read', rest', o'', hr', ho', ht', hc', hrest'⟩ := exists_of_match_cons ho
  obtain rfl := Option.some.inj ho'
  have hread : read' = [] := List.eq_nil_iff_forall_not_mem.mpr fun c hc =>
    Piece.allows_of_mem_read hr' hc
  have happend := Piece.read?_append hr'
  rw [hread, List.nil_append] at happend
  rw [hrest, hrest', ht, ht', hread]
  simp only [List.append_nil]
  rcases dropPrefix?_cases hdrop with ⟨s', hs, rfl⟩ | ⟨u, hu, hw, hinto⟩
  · exact Or.inl ⟨s', hs, happend⟩
  · have htail : text.toList.tail = s ++ u := by rw [hw, List.cons_append, List.tail_cons]
    refine Or.inr ⟨u, (List.mem_tails _ _).mpr ⟨s, htail.symm⟩, hu, by rw [happend, hinto], ?_⟩
    rw [happend]
    cases r with
    | nil => rfl
    | cons d r =>
        simp only [Piece.read?] at hr'
        split_ifs at hr' with hd
        simpa using hd

/-! ### A word in which no occurrence starts -/

/-- How each occurrence of a rule begins. -/
def Rule.opening (rule : Rule) : List Char :=
  match rule.pattern with
  | .literal text :: _ => text.toList
  | _ => []

lemma opening_begins (h : rule.pattern.match? cs = some o) : rule.opening <+: cs := by
  rw [← Pattern.match?_append h]
  cases rule <;> obtain ⟨t, ht⟩ := prefix_of_match_literal h <;> rw [ht, List.append_assoc] <;>
    exact List.prefix_append _ _

/-- No occurrence of a rule starts in a word, whatever follows it. -/
def Still (rule : Rule) (word : List Char) : Prop :=
  ∀ t, rule.apply (word ++ t) = word ++ rule.apply t

lemma Still.append (hs : Still rule s) (ht : Still rule t) : Still rule (s ++ t) := fun u => by
  rw [List.append_assoc, hs, ht, List.append_assoc]

lemma still_of_ne (h : ∀ c ∈ word, c ≠ 'p') : Still rule word := fun t => by
  induction word with
  | nil => rfl
  | cons c word ih =>
      obtain ⟨hc, hword⟩ := List.forall_mem_cons.mp h
      rw [List.cons_append, apply_of_none (match?_eq_none_of_ne hc), ih hword, List.cons_append]

lemma still_of_clear (h : Clear rule.opening word) : Still rule word := fun t => by
  induction word with
  | nil => rfl
  | cons c word ih =>
      rw [Clear, List.tails_cons, List.forall_mem_cons] at h
      obtain ⟨hout, hword⟩ := h
      have hnone : rule.pattern.match? (c :: (word ++ t)) = none := by
        cases hm : rule.pattern.match? (c :: (word ++ t)) with
        | none => rfl
        | some o =>
            obtain ⟨r, hr⟩ := opening_begins hm
            have happend : (c :: word) ++ t = rule.opening ++ r := hr.symm
            rw [compatible_of_append happend] at hout
            rcases hout with hnil | hfalse
            · cases hnil
            · cases hfalse
      rw [List.cons_append, apply_of_none hnone, ih hword, List.cons_append]

/-! ### A word anywhere in a script -/

/-- **What a rule makes of a word, it makes of it anywhere in a script**, if the occurrences that
start before the word end before it or leave the same. -/
lemma infix_apply {word' : List Char} (hword : ∀ t, ∃ t', rule.apply (word ++ t) = word' ++ t')
    (hbefore : ∀ c s t o, rule.pattern.match? (c :: s ++ (word ++ t)) = some o →
      (∃ s', c :: s = o.text ++ s' ∧ o.rest = s' ++ (word ++ t)) ∨
        word' <:+: rule.replacement o.captured ++ rule.apply o.rest) (s t : List Char) :
    word' <:+: rule.apply (s ++ (word ++ t)) := by
  induction hlen : s.length using Nat.strong_induction_on generalizing s with
  | _ n ih =>
    subst hlen
    cases s with
    | nil =>
        obtain ⟨t', ht⟩ := hword t
        rw [List.nil_append, ht]
        exact (List.prefix_append _ _).isInfix
    | cons c s =>
        cases hm : rule.pattern.match? (c :: s ++ (word ++ t)) with
        | none =>
            rw [List.cons_append] at hm ⊢
            rw [apply_of_none hm]
            exact (ih s.length (by simp) s rfl).trans (List.suffix_cons _ _).isInfix
        | some o =>
            rw [apply_of_match hm]
            rcases hbefore c s t o hm with ⟨s', hs, hrest⟩ | hin
            · have hshort : s'.length < (c :: s).length := by
                obtain ⟨u, hu⟩ := exists_text_eq_cons hm
                rw [hs, hu, List.length_append, List.length_cons]
                omega
              rw [hrest]
              exact (ih s'.length hshort s' rfl).trans (List.suffix_append _ _).isInfix
            · exact hin

end RequestSuite.Script
