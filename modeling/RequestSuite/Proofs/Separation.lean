/-
Patterns that are read alike before and after another rule has been applied.

* `Rule.lead`: how what a rule writes begins; `apply_cons_cases`: what becomes of the first
  character of a text;
* `Piece.Ignores`: a part of a pattern that neither the occurrences of a rule nor what it writes can
  meet; `Piece.Ignores.read?_apply`;
* `ReadAlike`: a pattern that is found at the start of a text exactly if it is found there after a
  rule has been applied; `readAlike_of_ignores`, `readAlike_name`;
* `keyCloses_apply`, `readAlike_key`: so it is with the key of a header, whatever the first rules do
  inside it.
-/
import RequestSuite.Proofs.Declaration
import RequestSuite.Proofs.Surroundings

namespace RequestSuite.Script

open Text (isBlank isWord isDecimalDigit)

/-- How what a rule writes begins. -/
def Rule.lead : Rule → List Char
  | .testDeclaration => "it(\"".toList
  | .statusEquality | .statusHave => "expect(response.status).to.equal(".toList
  | .statusAccess => "response.status".toList
  | .headerLookup => "response.headers[\"".toList
  | .bodyJson => "response.body".toList
  | .bodyText => "response.text".toList
  | .expectPrefix => "expect".toList
  | .responseTime => "/* Response time not directly supported in Supertest */".toList

variable {rule : Rule} {c : Char} {cs s t w rest literal : List Char} {o : Occurrence}
  {piece : Piece} {pattern pieces : Pattern} {p : Char → Bool}

lemma exists_replacement_eq_lead (rule : Rule) (captured : List Char) :
    ∃ r, rule.replacement captured = rule.lead ++ r := by
  cases rule with
  | testDeclaration | statusEquality | statusHave => exact ⟨_, List.append_assoc _ captured _⟩
  | headerLookup => exact ⟨_, List.append_assoc _ (Text.lower captured) _⟩
  | _ => exact ⟨[], (List.append_nil _).symm⟩

/-- What becomes of the first character of a text: it is kept, or an occurrence is replaced by
something that begins with the lead. -/
lemma apply_cons_cases (rule : Rule) (c : Char) (cs : List Char) :
    rule.pattern.match? (c :: cs) = none ∧ rule.apply (c :: cs) = c :: rule.apply cs ∨
      rule.opening <+: c :: cs ∧ ∃ t, rule.apply (c :: cs) = rule.lead ++ t := by
  cases hm : rule.pattern.match? (c :: cs) with
  | none => exact Or.inl ⟨rfl, apply_of_none hm⟩
  | some o =>
      obtain ⟨r, hr⟩ := exists_replacement_eq_lead rule o.captured
      refine Or.inr ⟨opening_begins hm, r ++ rule.apply o.rest, ?_⟩
      rw [apply_of_match hm, hr, List.append_assoc]

lemma exists_lead_eq_cons (rule : Rule) : ∃ d lead, rule.lead = d :: lead ∧ isBlank d = false ∧
    isDecimalDigit d = false ∧ isQuote d = false := by
  cases rule <;> exact ⟨_, _, rfl, by decide +kernel⟩

lemma eq_p_of_opening (h : rule.opening <+: c :: cs) : c = 'p' := by
  obtain ⟨t, ht⟩ := h
  cases rule <;> exact (List.cons.inj ht).1.symm

/-! ### Parts of patterns -/

lemma dropPrefix?_of_compatible (h : compatible literal w = false) :
    dropPrefix? literal (w ++ t) = none := by
  cases hdrop : dropPrefix? literal (w ++ t) with
  | none => rfl
  | some rest =>
      rw [compatible_of_append (dropPrefix?_append hdrop)] at h
      cases h

/-- A literal that no occurrence can meet, nor what is written in its place, is found at the start
of a text exactly if it is found there after the rule has been applied. -/
lemma dropPrefix?_apply (hopening : Clear rule.opening literal) (hlead : Clear rule.lead literal)
    (cs : List Char) :
    dropPrefix? literal (rule.apply cs) = (dropPrefix? literal cs).map rule.apply := by
  induction literal generalizing cs with
  | nil => rfl
  | cons e literal ih =>
      rw [Clear, List.tails_cons, List.forall_mem_cons] at hopening hlead
      obtain ⟨ho, hopening⟩ := hopening
      obtain ⟨hl, hlead⟩ := hlead
      cases cs with
      | nil => rfl
      | cons c cs =>
          rcases apply_cons_cases rule c cs with ⟨-, happly⟩ | ⟨⟨t, ht⟩, t', happly⟩
          · rw [happly, dropPrefix?, dropPrefix?, ih hopening hlead]
            split_ifs <;> rfl
          · rw [happly, ← ht, dropPrefix?_of_compatible (hl.resolve_left (by simp)),
              dropPrefix?_of_compatible (ho.resolve_left (by simp))]
            rfl

/-- A run of characters that no occurrence and no lead begins with is kept. -/
lemma takeWhile_apply (hp : p 'p' = false) (hlead : rule.lead.head?.any p = false)
    (cs : List Char) :
    (rule.apply cs).takeWhile p = cs.takeWhile p ∧
      (rule.apply cs).dropWhile p = rule.apply (cs.dropWhile p) := by
  induction cs with
  | nil => exact ⟨rfl, rfl⟩
  | cons c cs ih =>
      obtain ⟨d, lead, hd, -⟩ := exists_lead_eq_cons rule
      have hstop : ¬ p d = true := by simpa [hd] using hlead
      rcases apply_cons_cases rule c cs with ⟨-, happly⟩ | ⟨hopening, t, happly⟩
      · by_cases hc : p c = true
        · rw [happly, List.takeWhile_cons_of_pos hc, List.dropWhile_cons_of_pos hc, ih.1, ih.2,
            List.takeWhile_cons_of_pos hc, List.dropWhile_cons_of_pos hc]
          exact ⟨rfl, rfl⟩
        · rw [List.takeWhile_cons_of_neg hc, List.dropWhile_cons_of_neg hc, happly,
            List.takeWhile_cons_of_neg hc, List.dropWhile_cons_of_neg hc]
          exact ⟨rfl, rfl⟩
      · have hc : ¬ p c = true := by simp [eq_p_of_opening hopening, hp]
        rw [List.takeWhile_cons_of_neg hc, List.dropWhile_cons_of_neg hc, happly, hd,
          List.cons_append, List.takeWhile_cons_of_neg hstop, List.dropWhile_cons_of_neg hstop]
        exact ⟨rfl, rfl⟩

/-- A part of a pattern that neither the occurrences of a rule nor what it writes can meet. -/
def Piece.Ignores (rule : Rule) : Piece → Prop
  | .literal text => Clear rule.opening text.toList ∧ Clear rule.lead text.toList
  | .wordEnd => rule.lead.head?.any isWord = true
  | .unquoted => False
  | _ => True

instance (rule : Rule) : (piece : Piece) → Decidable (piece.Ignores rule)
  | .literal text => inferInstanceAs (Decidable (Clear _ text.toList ∧ Clear _ text.toList))
  | .blanks => inferInstanceAs (Decidable True)
  | .wordEnd => inferInstanceAs (Decidable (_ = true))
  | .quote => inferInstanceAs (Decidable True)
  | .unquoted => inferInstanceAs (Decidable False)
  | .digits => inferInstanceAs (Decidable True)

/-- Such a part reads the same after the rule has been applied, and leaves what the rule makes of
the rest. -/
lemma Piece.Ignores.read?_apply (h : piece.Ignores rule) (cs : List Char) :
    piece.read? (rule.apply cs) = (piece.read? cs).map fun r => (r.1, rule.apply r.2) := by
  obtain ⟨d, lead, hd, hblank, hdigit, hquote⟩ := exists_lead_eq_cons rule
  cases piece with
  | literal text =>
      rw [Piece.read?, dropPrefix?_apply h.1 h.2, Piece.read?, Option.map_map, Option.map_map]
      rfl
  | blanks =>
      have hlead : rule.lead.head?.any isBlank = false := by simp [hd, hblank]
      obtain ⟨htake, hdrop⟩ := takeWhile_apply (by decide) hlead cs
      rw [Piece.read?, htake, hdrop]
      rfl
  | digits =>
      have hlead : rule.lead.head?.any isDecimalDigit = false := by simp [hd, hdigit]
      obtain ⟨htake, hdrop⟩ := takeWhile_apply (by decide +kernel) hlead cs
      rw [Piece.read?, run?, htake, hdrop, Piece.read?, run?]
      split_ifs <;> rfl
  | wordEnd =>
      have hword : isWord d = true := by simpa [Piece.Ignores, hd] using h
      cases cs with
      | nil => rfl
      | cons c cs =>
          rcases apply_cons_cases rule c cs with ⟨-, happly⟩ | ⟨hopening, t, happly⟩
          · simp only [Piece.read?, happly]
            split_ifs
            · rfl
            · rw [← happly]
              rfl
          · have hc : isWord c = true := by
              rw [eq_p_of_opening hopening]
              decide +kernel
            rw [happly, hd]
            simp only [Piece.read?, List.cons_append, hword, hc, if_true, Option.map_none]
  | quote =>
      cases cs with
      | nil => rfl
      | cons c cs =>
          rcases apply_cons_cases rule c cs with ⟨-, happly⟩ | ⟨hopening, t, happly⟩
          · simp only [Piece.read?, happly]
            split_ifs <;> rfl
          · have hc : isQuote c = false := by
              rw [eq_p_of_opening hopening]
              decide
            rw [happly, hd]
            simp only [Piece.read?, List.cons_append, hquote, hc, Bool.false_eq_true, if_false,
              Option.map_none]
  | unquoted => exact h.elim

/-! ### Patterns -/

/-- A pattern that is found at the start of a text exactly if it is found there after a rule has
been applied. -/
def ReadAlike (rule : Rule) (pattern : Pattern) : Prop :=
  ∀ cs, (pattern.match? (rule.apply cs)).isSome = (pattern.match? cs).isSome

/-- Whether a pattern is found, by its first part. -/
lemma isSome_match?_cons (piece : Piece) (pieces : Pattern) (cs : List Char) :
    (Pattern.match? (piece :: pieces) cs).isSome =
      (piece.read? cs).any fun r => (Pattern.match? pieces r.2).isSome := by
  rw [Pattern.match?]
  cases piece.read? cs with
  | none => rfl
  | some r =>
      simp only [Option.any_some]
      cases Pattern.match? pieces r.2 <;> rfl

lemma ReadAlike.cons (hpiece : piece.Ignores rule) (h : ReadAlike rule pieces) :
    ReadAlike rule (piece :: pieces) := fun cs => by
  rw [isSome_match?_cons, isSome_match?_cons, hpiece.read?_apply, Option.any_map]
  exact congrArg (Option.any · (piece.read? cs)) (funext fun r => h r.2)

lemma ReadAlike.append (hpieces : ∀ piece ∈ pieces, piece.Ignores rule)
    (h : ReadAlike rule pattern) : ReadAlike rule (pieces ++ pattern) := by
  induction pieces with
  | nil => exact h
  | cons piece pieces ih =>
      obtain ⟨hpiece, hpieces⟩ := List.forall_mem_cons.mp hpieces
      exact (ih hpieces).cons hpiece

lemma readAlike_of_ignores (h : ∀ piece ∈ pattern, piece.Ignores rule) :
    ReadAlike rule pattern := by
  have hnil : ReadAlike rule [] := fun cs => rfl
  have happend := hnil.append h
  rwa [List.append_nil] at happend

lemma isSome_match?_wordEnd (text : String) (cs : List Char) :
    (Pattern.match? [.literal text, .wordEnd] cs).isSome =
      (dropPrefix? text.toList cs).any fun rest => !rest.head?.any isWord := by
  have hend (rest : List Char) :
      (Pattern.match? [.wordEnd] rest).isSome = !rest.head?.any isWord := by
    cases rest with
    | nil => rfl
    | cons c rest => cases hc : isWord c <;> simp [Piece.read?, hc, Pattern.match?]
  rw [isSome_match?_cons, Piece.read?, Option.any_map]
  exact congrArg (Option.any · (dropPrefix? text.toList cs)) (funext hend)

/-- A name that ends as a word does, and that occurrences of a rule cannot meet. Where it meets what
the rule writes, that goes on as a word. -/
structure NameIgnores (rule : Rule) (name : List Char) : Prop where
  opening : Clear rule.opening name
  lead : ∀ u ∈ name.tails, u = [] ∨ compatible u rule.lead = false ∨
    u <+: rule.lead ∧ (rule.lead.drop u.length).head?.any isWord = true
  word : rule.lead.head?.any isWord = true

instance (rule : Rule) (name : List Char) : Decidable (NameIgnores rule name) :=
  decidable_of_iff (Clear rule.opening name ∧ (∀ u ∈ name.tails, u = [] ∨
    compatible u rule.lead = false ∨
      u <+: rule.lead ∧ (rule.lead.drop u.length).head?.any isWord = true) ∧
    rule.lead.head?.any isWord = true)
    ⟨fun ⟨h₁, h₂, h₃⟩ => ⟨h₁, h₂, h₃⟩, fun ⟨h₁, h₂, h₃⟩ => ⟨h₁, h₂, h₃⟩⟩

/-- Such a name is found alike. -/
lemma readAlike_name {text : String} (h : NameIgnores rule text.toList) :
    ReadAlike rule [.literal text, .wordEnd] := by
  obtain ⟨hopening, hlead, hword⟩ := h
  intro cs
  rw [isSome_match?_wordEnd, isSome_match?_wordEnd]
  generalize text.toList = literal at hopening hlead
  induction literal generalizing cs with
  | nil =>
      cases cs with
      | nil => rfl
      | cons c cs =>
          rcases apply_cons_cases rule c cs with ⟨-, happly⟩ | ⟨hp, t, happly⟩
          · rw [happly]
            rfl
          · obtain ⟨d, lead, hd, -⟩ := exists_lead_eq_cons rule
            have hc : isWord c = true := by
              rw [eq_p_of_opening hp]
              decide +kernel
            have hd' : isWord d = true := by simpa [hd] using hword
            simp [dropPrefix?, happly, hd, hd', hc]
  | cons e literal ih =>
      rw [Clear, List.tails_cons, List.forall_mem_cons] at hopening
      rw [List.tails_cons, List.forall_mem_cons] at hlead
      obtain ⟨ho, hopening⟩ := hopening
      obtain ⟨hl, hlead⟩ := hlead
      cases cs with
      | nil => rfl
      | cons c cs =>
          rcases apply_cons_cases rule c cs with ⟨-, happly⟩ | ⟨⟨t, ht⟩, t', happly⟩
          · rw [happly, dropPrefix?, dropPrefix?]
            split_ifs
            · exact ih cs hopening hlead
            · rfl
          · rw [happly, ← ht, dropPrefix?_of_compatible (ho.resolve_left (by simp))]
            rcases hl.resolve_left (by simp) with hout | ⟨⟨v, hv⟩, hgoes⟩
            · rw [dropPrefix?_of_compatible hout]
            · rw [← hv, List.drop_left] at hgoes
              have hne : v ≠ [] := by
                rintro rfl
                simp at hgoes
              obtain ⟨d, v, rfl⟩ := List.exists_cons_of_ne_nil hne
              rw [← hv, List.append_assoc, dropPrefix?_append_self]
              simpa using hgoes

/-! ### The key of a header -/

/-- What follows the key in a lookup of a header. -/
def closing : Pattern := [.quote, .blanks, .literal ")"]

/-- Whether the key of a lookup ends in a text with the next quote. -/
def keyCloses (cs : List Char) : Bool := (closing.match? (cs.dropWhile fun c => !isQuote c)).isSome

lemma keyCloses_append (h : ∀ c ∈ s, isQuote c = false) (cs : List Char) :
    keyCloses (s ++ cs) = keyCloses cs := by
  have hs : ∀ c ∈ s, (!isQuote c) = true := by simpa using h
  rw [keyCloses, List.dropWhile_append_of_pos hs, keyCloses]

lemma keyCloses_quote (hc : isQuote c = true) (cs : List Char) :
    keyCloses (c :: cs) = (closing.match? (c :: cs)).isSome := by
  simp [keyCloses, hc]

/-- How a declaration is made up. -/
lemma exists_declaration_eq (h : testPattern.match? cs = some o) :
    ∃ x q q', (∀ c ∈ x, isQuote c = false) ∧ isQuote q = true ∧ isQuote q' = true ∧
      o.text = x ++ q :: (o.captured ++ [q']) := by
  obtain ⟨x₁, cs₁, o₁, hr₁, h₁, ht₁, hc₁, -⟩ := exists_of_match_cons h
  obtain ⟨x₂, cs₂, o₂, hr₂, h₂, ht₂, hc₂, -⟩ := exists_of_match_cons h₁
  obtain ⟨x₃, cs₃, o₃, hr₃, h₃, ht₃, hc₃, -⟩ := exists_of_match_cons h₂
  obtain ⟨x₄, cs₄, o₄, hr₄, h₄, ht₄, hc₄, -⟩ := exists_of_match_cons h₃
  obtain ⟨x₅, cs₅, o₅, hr₅, h₅, ht₅, hc₅, -⟩ := exists_of_match_cons h₄
  obtain ⟨x₆, cs₆, o₆, hr₆, h₆, ht₆, hc₆, -⟩ := exists_of_match_cons h₅
  obtain ⟨x₇, cs₇, o₇, hr₇, h₇, ht₇, hc₇, -⟩ := exists_of_match_cons h₆
  obtain rfl := Option.some.inj h₇
  obtain ⟨q, hq, rfl, -⟩ := read?_quote_eq_some.mp hr₅
  obtain ⟨q', hq', rfl, -⟩ := read?_quote_eq_some.mp hr₇
  have hliteral {text : String} {cs read rest : List Char}
      (hr : (Piece.literal text).read? cs = some (read, rest))
      (htext : ∀ c ∈ text.toList, isQuote c = false) : ∀ c ∈ read, isQuote c = false :=
    fun c hc => htext c (Piece.allows_of_mem_read hr hc)
  have hblanks {cs read rest : List Char} (hr : Piece.blanks.read? cs = some (read, rest)) :
      ∀ c ∈ read, isQuote c = false := fun c hc =>
    isQuote_of_isBlank (Piece.allows_of_mem_read hr hc)
  have hcaptured : o.captured = x₆ := by
    rw [hc₁, hc₂, hc₃, hc₄, hc₅, hc₆, hc₇]
    exact List.append_nil x₆
  refine ⟨x₁ ++ (x₂ ++ (x₃ ++ x₄)), q, q', ?_, hq, hq', ?_⟩
  · simp only [List.forall_mem_append]
    exact ⟨hliteral hr₁ (by decide), hblanks hr₂, hliteral hr₃ (by decide), hblanks hr₄⟩
  · rw [hcaptured, ht₁, ht₂, ht₃, ht₄, ht₅, ht₆, ht₇]
    simp only [List.append_assoc, List.cons_append, List.nil_append, List.append_nil]

/-- White space and a closing bracket. -/
lemma isSome_closing_quote {q : Char} (hq : isQuote q = true) (cs : List Char) :
    (closing.match? (q :: cs)).isSome = ((cs.dropWhile isBlank).head? == some ')') := by
  have hbracket (ds : List Char) :
      (Pattern.match? [.literal ")"] ds).isSome = (ds.head? == some ')') := by
    cases ds with
    | nil => rfl
    | cons d ds =>
        rw [isSome_match?_cons, Piece.read?, show ")".toList = [')'] from rfl, dropPrefix?]
        split_ifs with hd
        · rw [← hd]
          rfl
        · simp [Ne.symm hd]
  rw [closing, isSome_match?_cons, Piece.read?]
  simp only [hq, if_true, Option.any_some]
  rw [isSome_match?_cons, Piece.read?, Option.any_some, hbracket]

/-- What follows the name of a test does not decide whether a closing bracket begins it. -/
lemma isSome_closing_name {q q' : Char} (hq : isQuote q = true) (hq' : isQuote q' = true)
    (name cs : List Char) :
    (closing.match? (q :: (name ++ q' :: cs))).isSome =
      ((name.dropWhile isBlank).head? == some ')') := by
  rw [isSome_closing_quote hq, List.dropWhile_append]
  split_ifs with hname
  · rw [List.isEmpty_iff.mp hname]
    rcases isQuote_iff.mp hq' with rfl | rfl <;> rfl
  · rw [List.head?_append_of_ne_nil _ (by simpa using hname)]

/-- A rule that reads no quotes and writes none leaves the next quote where it is. -/
lemma keyCloses_replace (hquotes : rule.quotes = false) (h : rule.pattern.match? cs = some o)
    (t : List Char) :
    keyCloses (o.text ++ t) = keyCloses t ∧
      keyCloses (rule.replacement o.captured ++ t) = keyCloses t := by
  have hplain (d : Char) (hd : d ∉ ['"', '\'']) : isQuote d = false :=
    Bool.eq_false_iff.mpr fun hquote => hd (by rcases isQuote_iff.mp hquote with rfl | rfl <;> simp)
  constructor
  · refine keyCloses_append (fun d hd => hplain d fun hmem => ?_) t
    exact plain_of_match hquotes h d hd (List.mem_append_left ['\\'] hmem)
  · refine keyCloses_append (fun d hd => hplain d fun hmem => ?_) t
    refine safe_replacement hquotes h d hd ?_
    rcases List.mem_pair.mp hmem with rfl | rfl <;> decide

/-- Where the first quote is that of a declaration, the name behind it decides, and that is written
as it is read. -/
lemma keyCloses_declaration (h : testPattern.match? cs = some o) (t t' : List Char) :
    keyCloses (Rule.testDeclaration.replacement o.captured ++ t) = keyCloses (o.text ++ t') := by
  obtain ⟨x, q, q', hx, hq, hq', htext⟩ := exists_declaration_eq h
  have hit : ∀ d ∈ "it(".toList, isQuote d = false := by decide
  have hwritten : Rule.testDeclaration.replacement o.captured ++ t =
      "it(".toList ++ '"' :: (o.captured ++ '"' :: t) := by
    rw [replacement_testDeclaration]
    simp
  have hread : o.text ++ t' = x ++ q :: (o.captured ++ q' :: t') := by
    rw [htext]
    simp
  rw [hwritten, hread, keyCloses_append hx, keyCloses_append hit, keyCloses_quote hq,
    keyCloses_quote (by decide), isSome_closing_name hq hq',
    isSome_closing_name (by decide) (by decide)]

/-- The first rules do not change whether a key ends with the next quote. -/
lemma keyCloses_apply (hrule : rule.quotes = false ∨ rule = .testDeclaration) (cs : List Char) :
    keyCloses (rule.apply cs) = keyCloses cs := by
  induction hlen : cs.length using Nat.strong_induction_on generalizing cs with
  | _ n ih =>
    subst hlen
    cases cs with
    | nil => rfl
    | cons c cs =>
        cases hm : rule.pattern.match? (c :: cs) with
        | none =>
            by_cases hc : isQuote c = true
            · have halike : ReadAlike rule closing := by
                refine readAlike_of_ignores ?_
                cases rule <;> decide +kernel
              have hkept := halike (c :: cs)
              rw [apply_of_none hm] at hkept ⊢
              rwa [keyCloses_quote hc, keyCloses_quote hc]
            · have hplain : ∀ d ∈ [c], isQuote d = false := by simpa using hc
              have hskip := keyCloses_append hplain (rule.apply cs)
              have hskip' := keyCloses_append hplain cs
              rw [List.singleton_append] at hskip hskip'
              rw [apply_of_none hm, hskip, hskip', ih cs.length (by simp) cs rfl]
        | some o =>
            rw [apply_of_match hm, ← Pattern.match?_append hm]
            rcases hrule with hquotes | rfl
            · obtain ⟨hread, hwritten⟩ := keyCloses_replace hquotes hm o.rest
              obtain ⟨-, hwritten'⟩ := keyCloses_replace hquotes hm (rule.apply o.rest)
              rw [hread, hwritten', ih _ (length_rest_lt hm) _ rfl]
            · exact keyCloses_declaration hm _ _

/-- The pattern for the lookup of a header by its key, without the name of the object. -/
lemma readAlike_key (hrule : rule.quotes = false ∨ rule = .testDeclaration) :
    ReadAlike rule (.unquoted :: closing) := fun cs => by
  have hread (ds : List Char) : (Pattern.match? (.unquoted :: closing) ds).isSome =
      (ds.head?.any (fun c => !isQuote c) && keyCloses ds) := by
    rw [isSome_match?_cons, Piece.read?, run?, keyCloses]
    cases ds with
    | nil => rfl
    | cons d ds =>
        by_cases hd : isQuote d = true <;> simp [hd]
  rw [hread, hread, keyCloses_apply hrule]
  cases cs with
  | nil => rfl
  | cons c cs =>
      obtain ⟨d, lead, hd, -, -, hquote⟩ := exists_lead_eq_cons rule
      rcases apply_cons_cases rule c cs with ⟨-, happly⟩ | ⟨hopening, t, happly⟩
      · rw [happly]
        rfl
      · rw [happly, hd, eq_p_of_opening hopening]
        simp [hquote, show isQuote 'p' = false from rfl]

end RequestSuite.Script
