/-
Assertions about the status survive in any script.

* `StatusAssertion`: the two ways in which a script asserts a status code, with white space wherever
  it may stand; `written`: what both become;
* `Reads`, `reads_of_statusEquality`, `reads_of_statusHave`: the rules that read them;
* `infix_apply_of_misses`: a word that a rule keeps wherever it stands;
* `written_kept`: every rule keeps a written assertion;
* `status_assertion_written`: so the adaptation of a script with an assertion in it has the written
  one.
-/
import RequestSuite.Proofs.RewriteSteps
import RequestSuite.Proofs.Surroundings

namespace RequestSuite.Text

variable {c : Char}

/-- A decimal digit is no white space. -/
lemma isBlank_of_isDecimalDigit (h : isDecimalDigit c = true) : isBlank c = false := by
  have hapart : (decimalDigitRanges.all fun range => blankRanges.all fun blank =>
      range.2 < blank.1 ∨ blank.2 < range.1) = true := by decide +kernel
  obtain ⟨range, hrange, hle, hge⟩ := exists_range_of_isDecimalDigit h
  by_contra hblank
  rw [Bool.not_eq_false] at hblank
  obtain ⟨blank, hmem, hle', hge'⟩ := exists_range_of_isBlank hblank
  have hranges := List.all_eq_true.mp (List.all_eq_true.mp hapart range hrange) blank hmem
  simp only [decide_eq_true_eq] at hranges
  omega

end RequestSuite.Text

namespace RequestSuite.Script

open Text (isBlank isWord isDecimalDigit isBlank_of_isDecimalDigit)

/-! ### Assertions -/

/-- The parts of `pm.expect(pm.response.code).to.equal(N)`, with white space between them. -/
def equalityParts (code b₁ b₂ b₃ b₄ b₅ b₆ : List Char) : List (List Char) :=
  ["pm.expect".toList, b₁, "(".toList, b₂, "pm.response.code".toList, b₃, ").to.equal".toList, b₄,
    "(".toList, b₅, code, b₆, ")".toList]

/-- The parts of `pm.response.to.have.status(N)`, with white space between them. -/
def statusParts (code b₁ b₂ b₃ : List Char) : List (List Char) :=
  ["pm.response.to.have.status".toList, b₁, "(".toList, b₂, code, b₃, ")".toList]

/-- An assertion that the response has a status code, in one of its two forms, with white space
wherever the patterns allow it. -/
inductive StatusAssertion (code : List Char) : List Char → Prop
  | equality {b₁ b₂ b₃ b₄ b₅ b₆ : List Char}
      (h : ∀ b ∈ [b₁, b₂, b₃, b₄, b₅, b₆], ∀ c ∈ b, isBlank c = true) :
      StatusAssertion code (equalityParts code b₁ b₂ b₃ b₄ b₅ b₆).flatten
  | status {b₁ b₂ b₃ : List Char} (h : ∀ b ∈ [b₁, b₂, b₃], ∀ c ∈ b, isBlank c = true) :
      StatusAssertion code (statusParts code b₁ b₂ b₃).flatten

/-- How the assertion of the generated suite begins. -/
def writtenWord : List Char := "expect(response.status).to.equal(".toList

/-- The assertion of the generated suite. -/
def written (code : List Char) : List Char := writtenWord ++ (code ++ ")".toList)

variable {rule : Rule} {pieces : Pattern} {code b cs captured rest s t text w word : List Char}
  {c : Char} {o : Occurrence}

/-! ### Reading an assertion -/

/-- A pattern is read at the start of a text, with what it captures and what it leaves. -/
def Reads (pattern : Pattern) (cs captured rest : List Char) : Prop :=
  ∃ text, pattern.match? cs = some ⟨text, captured, rest⟩

lemma Reads.nil : Reads [] cs [] cs := ⟨[], rfl⟩

lemma Reads.literal {text : String} (h : Reads pieces cs captured rest) :
    Reads (.literal text :: pieces) (text.toList ++ cs) captured rest := by
  obtain ⟨read, hread⟩ := h
  refine ⟨text.toList ++ read, ?_⟩
  rw [Pattern.match?, Piece.read?, dropPrefix?_append_self, Option.map_some]
  simp only [hread, Piece.captures, Bool.false_eq_true, if_false]

lemma takeWhile_append_of_head {p : Char → Bool} (hb : ∀ c ∈ b, p c = true)
    (hc : cs.head?.any p = false) : (b ++ cs).takeWhile p = b := by
  rw [List.takeWhile_append_of_pos hb]
  cases cs with
  | nil => simp
  | cons c cs => rw [List.takeWhile_cons_of_neg (by simpa using hc), List.append_nil]

lemma Reads.blanks (h : Reads pieces cs captured rest) (hb : ∀ c ∈ b, isBlank c = true)
    (hc : cs.head?.any isBlank = false) : Reads (.blanks :: pieces) (b ++ cs) captured rest := by
  obtain ⟨read, hread⟩ := h
  have htake := takeWhile_append_of_head hb hc
  refine ⟨b ++ read, ?_⟩
  rw [Pattern.match?, Piece.read?, htake, dropWhile_of_takeWhile htake]
  simp only [hread, Piece.captures, Bool.false_eq_true, if_false]

lemma Reads.digits (h : Reads pieces cs [] rest) (hcode : ∀ c ∈ code, isDecimalDigit c = true)
    (hne : code ≠ []) (hc : cs.head?.any isDecimalDigit = false) :
    Reads (.digits :: pieces) (code ++ cs) code rest := by
  obtain ⟨read, hread⟩ := h
  have htake := takeWhile_append_of_head hcode hc
  refine ⟨code ++ read, ?_⟩
  rw [Pattern.match?, Piece.read?, run?_of_takeWhile htake hne]
  simp only [hread, Piece.captures, if_true, List.append_nil]

/-- The code, the white space after it and the closing bracket. -/
lemma reads_code (hne : code ≠ []) (hcode : ∀ c ∈ code, isDecimalDigit c = true)
    (hb : ∀ c ∈ b, isBlank c = true) :
    Reads [.digits, .blanks, .literal ")"] (code ++ (b ++ (")".toList ++ t))) code t := by
  refine ((Reads.nil.literal).blanks hb rfl).digits hcode hne ?_
  cases b with
  | nil => rfl
  | cons c b =>
      have hc := hb c List.mem_cons_self
      by_contra hdigit
      rw [Bool.not_eq_false] at hdigit
      rw [isBlank_of_isDecimalDigit (by simpa using hdigit)] at hc
      cases hc

lemma head?_any_isBlank_code (hne : code ≠ []) (hcode : ∀ c ∈ code, isDecimalDigit c = true)
    (t : List Char) : (code ++ t).head?.any isBlank = false := by
  obtain ⟨c, code, rfl⟩ := List.exists_cons_of_ne_nil hne
  simpa using isBlank_of_isDecimalDigit (hcode c List.mem_cons_self)

/-! ### Words that rules keep or replace -/

/-- A rule that reads a plain word replaces it wherever it stands. -/
lemma infix_apply_of_reads (hp : PlainWord w word) (hm : rule.pattern.Misses w)
    (hcapture : .unquoted ∉ rule.pattern) (hreads : ∀ t, Reads rule.pattern (word ++ t) captured t)
    (h : word <:+: s) : rule.replacement captured <:+: rule.apply s := by
  obtain ⟨front, back, rfl⟩ := h
  rw [List.append_assoc]
  refine infix_apply (fun t => ?_) (fun c s t o ho => ?_) front back
  · obtain ⟨text, htext⟩ := hreads t
    exact ⟨rule.apply t, apply_of_match htext⟩
  · exact Or.inl ((hp.before_or_captured hm ho).resolve_right fun hin => hcapture hin.1)

/-- A rule that reads nothing in a plain word keeps it wherever it stands, unless it captures it and
does not keep what it captures. -/
lemma infix_apply_of_misses (hp : PlainWord w word) (hm : rule.pattern.Misses w)
    (hstill : Still rule word)
    (hkeep : .unquoted ∈ rule.pattern → ∀ captured, word <:+: captured →
      word <:+: rule.replacement captured)
    (h : word <:+: s) : word <:+: rule.apply s := by
  obtain ⟨front, back, rfl⟩ := h
  rw [List.append_assoc]
  refine infix_apply (fun t => ⟨rule.apply t, hstill t⟩) (fun c s t o ho => ?_) front back
  refine (hp.before_or_captured hm ho).imp_right fun ⟨hmem, hin⟩ => ?_
  exact (hkeep hmem _ hin).trans (List.prefix_append _ _).isInfix

lemma infix_declaration (h : word <:+: captured) :
    word <:+: Rule.testDeclaration.replacement captured := by
  have hin : captured <:+: "it(\"".toList ++ captured ++ ['"'] := List.infix_append _ _ _
  exact h.trans hin

/-! ### The written assertion -/

lemma still_code (hcode : ∀ c ∈ code, isDecimalDigit c = true) (rule : Rule) : Still rule code :=
  still_of_ne fun c hc hp => by
    have hdigit := hcode c hc
    rw [hp] at hdigit
    exact absurd hdigit (by decide +kernel)

lemma still_blanks (hb : ∀ c ∈ b, isBlank c = true) (rule : Rule) : Still rule b :=
  still_of_ne fun c hc hp => by
    have hblank := hb c hc
    rw [hp] at hblank
    exact absurd hblank (by decide)

lemma plainWord_written (hcode : ∀ c ∈ code, isDecimalDigit c = true) :
    PlainWord writtenWord (written code) where
  ne_nil := by decide
  begins := ⟨code ++ ")".toList, rfl⟩
  quoteless := by
    rw [written, List.forall_mem_append, List.forall_mem_append]
    exact ⟨by decide, fun c hc => isQuote_of_isDecimalDigit (hcode c hc), by decide⟩

lemma still_written (hcode : ∀ c ∈ code, isDecimalDigit c = true) (rule : Rule) :
    Still rule (written code) := by
  have hword : Still rule writtenWord := still_of_clear (by cases rule <;> decide +kernel)
  exact hword.append ((still_code hcode rule).append (still_of_ne (by decide)))

/-- Where an occurrence of a name that ends as a word does can reach into the written assertion,
what it leaves is the rest of that. -/
lemma before_or_into_written {text : String} {front back : List Char}
    (hword : writtenWord = front ++ back)
    (hinto : ∀ u ∈ text.toList.tail.tails, u ≠ [] → compatible u writtenWord = true → u = front)
    (h : Pattern.match? [.literal text, .wordEnd] (c :: s ++ (written code ++ t)) = some o) :
    (∃ s', c :: s = o.text ++ s' ∧ o.rest = s' ++ (written code ++ t)) ∨
      o.rest = back ++ (code ++ ")".toList ++ t) ∧ o.rest.head?.any isWord = false := by
  refine (before_or_into h).imp_right fun ⟨u, hu, hne, hcut, hend⟩ => ⟨?_, hend⟩
  rw [written, List.append_assoc] at hcut
  obtain rfl := hinto u hu hne (compatible_of_append hcut.symm)
  rw [hword, List.append_assoc] at hcut
  exact (List.append_cancel_left hcut).symm

/-- **The rules that come after the first two keep the written assertion.** What stands before it
may end as a call begins: then `pm.` is taken away from it. -/
lemma written_kept (hcode : ∀ c ∈ code, isDecimalDigit c = true) (hrule : rule ∈ Rule.all.drop 2)
    (h : written code <:+: s) : written code <:+: rule.apply s := by
  have hplain := plainWord_written hcode
  have hstill := still_written hcode rule
  have hsettled : ∀ c ∈ written code, Text.Settled c := by
    rw [written, List.forall_mem_append, List.forall_mem_append]
    exact ⟨by decide +kernel, fun c hc => Text.settled_of_isDecimalDigit (hcode c hc),
      by decide +kernel⟩
  cases rule with
  | testDeclaration | statusEquality => exact absurd hrule (by decide)
  | headerLookup =>
      refine infix_apply_of_misses hplain (by decide +kernel) hstill (fun _ captured hin => ?_) h
      have hlower := Text.infix_lower hsettled hin
      exact hlower.trans (List.infix_append _ _ _)
  | statusHave | bodyJson | bodyText =>
      exact infix_apply_of_misses hplain (by decide +kernel) hstill
        (fun hmem => absurd hmem (by decide)) h
  | statusAccess | responseTime =>
      obtain ⟨front, back, rfl⟩ := h
      rw [List.append_assoc]
      refine infix_apply (fun t => ⟨_, hstill t⟩) (fun c s t o ho => ?_) front back
      have hword : writtenWord = ['e'] ++ "xpect(response.status).to.equal(".toList := rfl
      refine (before_or_into_written hword (by decide +kernel) ho).imp_right fun ⟨hrest, hend⟩ => ?_
      have hhead : o.rest.head? = some 'x' := by
        rw [hrest]
        rfl
      rw [hhead] at hend
      exact absurd hend (by decide +kernel)
  | expectPrefix =>
      obtain ⟨front, back, rfl⟩ := h
      rw [List.append_assoc]
      refine infix_apply (fun t => ⟨_, hstill t⟩) (fun c s t o ho => ?_) front back
      have hword : writtenWord = "expect".toList ++ "(response.status).to.equal(".toList := rfl
      refine (before_or_into_written hword (by decide +kernel) ho).imp_right fun ⟨hrest, _⟩ => ?_
      -- `pm.` in front of the assertion and its first word are replaced by that word
      have hopened : Still .expectPrefix "(response.status).to.equal(".toList :=
        still_of_clear (by decide +kernel)
      have hclosed : Still .expectPrefix ")".toList := still_of_ne (by decide)
      have hback := hopened.append ((still_code hcode _).append hclosed)
      have hexpect : Rule.expectPrefix.replacement o.captured = "expect".toList := rfl
      rw [hrest, ← List.append_assoc, hback, hexpect, written, hword]
      exact ⟨[], Rule.expectPrefix.apply t, by simp only [List.nil_append, List.append_assoc]⟩

/-! ### The assertion in a script -/

/-- A part of an assertion: a fixed word, white space or the code. -/
inductive AssertionPart (words : List (List Char)) (code : List Char) : List Char → Prop
  | word {part : List Char} (h : part ∈ words) : AssertionPart words code part
  | blanks {part : List Char} (h : ∀ c ∈ part, isBlank c = true) : AssertionPart words code part
  | code : AssertionPart words code code

variable {words parts : List (List Char)}

lemma plainWord_flatten (hcode : ∀ c ∈ code, isDecimalDigit c = true)
    (hwords : ∀ word ∈ words, ∀ c ∈ word, isQuote c = false) (hne : word ≠ [])
    (h : ∀ part ∈ word :: parts, AssertionPart words code part) :
    PlainWord word (word :: parts).flatten where
  ne_nil := hne
  begins := ⟨parts.flatten, rfl⟩
  quoteless := by
    intro c hc
    obtain ⟨part, hpart, hmem⟩ := List.mem_flatten.mp hc
    cases h part hpart with
    | word hword => exact hwords part hword c hmem
    | blanks hb => exact isQuote_of_isBlank (hb c hmem)
    | code => exact isQuote_of_isDecimalDigit (hcode c hmem)

lemma still_flatten (hcode : ∀ c ∈ code, isDecimalDigit c = true)
    (hwords : ∀ word ∈ words, Clear rule.opening word)
    (h : ∀ part ∈ parts, AssertionPart words code part) : Still rule parts.flatten := by
  induction parts with
  | nil => exact fun t => rfl
  | cons part parts ih =>
      obtain ⟨hpart, hparts⟩ := List.forall_mem_cons.mp h
      refine Still.append ?_ (ih hparts)
      cases hpart with
      | word hword => exact still_of_clear (hwords part hword)
      | blanks hb => exact still_blanks hb rule
      | code => exact still_code hcode rule

/-- The fixed words of the first form. -/
def equalityWords : List (List Char) :=
  ["pm.expect", "(", "pm.response.code", ").to.equal", ")"].map String.toList

/-- The fixed words of the second form. -/
def statusWords : List (List Char) := ["pm.response.to.have.status", "(", ")"].map String.toList

lemma assertionPart_of_mem_equalityParts {b₁ b₂ b₃ b₄ b₅ b₆ : List Char}
    (hb : ∀ b ∈ [b₁, b₂, b₃, b₄, b₅, b₆], ∀ c ∈ b, isBlank c = true) :
    ∀ part ∈ equalityParts code b₁ b₂ b₃ b₄ b₅ b₆, AssertionPart equalityWords code part := by
  simp only [List.forall_mem_cons] at hb
  obtain ⟨h₁, h₂, h₃, h₄, h₅, h₆, -⟩ := hb
  simp only [equalityParts, List.forall_mem_cons]
  exact ⟨.word (by decide), .blanks h₁, .word (by decide), .blanks h₂, .word (by decide),
    .blanks h₃, .word (by decide), .blanks h₄, .word (by decide), .blanks h₅, .code, .blanks h₆,
    .word (by decide), by simp⟩

lemma assertionPart_of_mem_statusParts {b₁ b₂ b₃ : List Char}
    (hb : ∀ b ∈ [b₁, b₂, b₃], ∀ c ∈ b, isBlank c = true) :
    ∀ part ∈ statusParts code b₁ b₂ b₃, AssertionPart statusWords code part := by
  simp only [List.forall_mem_cons] at hb
  obtain ⟨h₁, h₂, h₃, -⟩ := hb
  simp only [statusParts, List.forall_mem_cons]
  exact ⟨.word (by decide), .blanks h₁, .word (by decide), .blanks h₂, .code, .blanks h₃,
    .word (by decide), by simp⟩

/-- The second rule reads the first form, with the code for what it captures. -/
lemma reads_equalityParts {b₁ b₂ b₃ b₄ b₅ b₆ : List Char} (hne : code ≠ [])
    (hcode : ∀ c ∈ code, isDecimalDigit c = true)
    (hb : ∀ b ∈ [b₁, b₂, b₃, b₄, b₅, b₆], ∀ c ∈ b, isBlank c = true) (t : List Char) :
    Reads Rule.statusEquality.pattern ((equalityParts code b₁ b₂ b₃ b₄ b₅ b₆).flatten ++ t)
      code t := by
  simp only [List.forall_mem_cons] at hb
  obtain ⟨h₁, h₂, h₃, h₄, h₅, h₆, -⟩ := hb
  simp only [equalityParts, List.flatten_cons, List.flatten_nil, List.append_assoc]
  refine Reads.literal (Reads.blanks ?_ h₁ rfl)
  refine Reads.literal (Reads.blanks ?_ h₂ rfl)
  refine Reads.literal (Reads.blanks ?_ h₃ rfl)
  refine Reads.literal (Reads.blanks ?_ h₄ rfl)
  refine Reads.literal (Reads.blanks ?_ h₅ (head?_any_isBlank_code hne hcode _))
  exact reads_code hne hcode h₆

/-- The third rule reads the second form. -/
lemma reads_statusParts {b₁ b₂ b₃ : List Char} (hne : code ≠ [])
    (hcode : ∀ c ∈ code, isDecimalDigit c = true)
    (hb : ∀ b ∈ [b₁, b₂, b₃], ∀ c ∈ b, isBlank c = true) (t : List Char) :
    Reads Rule.statusHave.pattern ((statusParts code b₁ b₂ b₃).flatten ++ t) code t := by
  simp only [List.forall_mem_cons] at hb
  obtain ⟨h₁, h₂, h₃, -⟩ := hb
  simp only [statusParts, List.flatten_cons, List.flatten_nil, List.append_assoc]
  refine Reads.literal (Reads.blanks ?_ h₁ rfl)
  refine Reads.literal (Reads.blanks ?_ h₂ (head?_any_isBlank_code hne hcode _))
  exact reads_code hne hcode h₃

/-- The first three rules write an assertion: the first keeps both forms, and the second the form
that is left to the third. -/
lemma StatusAssertion.infix_written (h : StatusAssertion code text) (hne : code ≠ [])
    (hcode : ∀ c ∈ code, isDecimalDigit c = true) (hs : text <:+: s) :
    written code <:+: applyRules (Rule.all.take 3) s := by
  have hname (captured : List Char) (hin : text <:+: captured) :
      text <:+: Rule.testDeclaration.replacement captured := infix_declaration hin
  cases h with
  | equality hb =>
      have hparts : ∀ part ∈ _, AssertionPart equalityWords code part :=
        assertionPart_of_mem_equalityParts hb
      have hplain := plainWord_flatten hcode (by decide) (by decide) hparts
      have hfirst : Still .testDeclaration _ := still_flatten hcode (by decide +kernel) hparts
      have hkept := infix_apply_of_misses hplain (by decide +kernel) hfirst (fun _ => hname) hs
      have hwritten := infix_apply_of_reads hplain (by decide +kernel) (by decide)
        (reads_equalityParts hne hcode hb) hkept
      exact written_kept hcode (by decide) hwritten
  | status hb =>
      have hparts : ∀ part ∈ _, AssertionPart statusWords code part :=
        assertionPart_of_mem_statusParts hb
      have hplain := plainWord_flatten hcode (by decide) (by decide) hparts
      have hfirst : Still .testDeclaration _ := still_flatten hcode (by decide +kernel) hparts
      have hsecond : Still .statusEquality _ := still_flatten hcode (by decide +kernel) hparts
      have hkept := infix_apply_of_misses hplain (by decide +kernel) hfirst (fun _ => hname) hs
      have hkept' := infix_apply_of_misses hplain (by decide +kernel) hsecond
        (fun hmem => absurd hmem (by decide)) hkept
      exact infix_apply_of_reads hplain (by decide +kernel) (by decide)
        (reads_statusParts hne hcode hb) hkept'

/-- What each of some rules keeps all of them keep. -/
lemma infix_applyRules {rules : List Rule}
    (hkeep : ∀ rule ∈ rules, ∀ s, word <:+: s → word <:+: rule.apply s) (h : word <:+: s) :
    word <:+: applyRules rules s := by
  induction rules generalizing s with
  | nil => exact h
  | cons rule rules ih =>
      obtain ⟨hrule, hrules⟩ := List.forall_mem_cons.mp hkeep
      exact ih hrules (hrule s h)

/-- **A status assertion survives in any script.** Whatever stands before and after it, and however
much white space stands in it, the adapted script has the written assertion with the same code: a
test may be declared around it, a header be looked up by it, or the name of a call be left dangling
in front of it. -/
theorem status_assertion_written (hne : code ≠ []) (hcode : ∀ c ∈ code, isDecimalDigit c = true)
    (h : StatusAssertion code text) (before after : List Char) :
    "expect(response.status).to.equal(".toList ++ code ++ [')'] <:+:
      (adapt (some (before ++ text ++ after))).text := by
  have hwritten : written code <:+: applyRules (Rule.all.take 3) (before ++ text ++ after) :=
    h.infix_written hne hcode (List.infix_append _ _ _)
  have hkeep (rule : Rule) (hrule : rule ∈ Rule.all.drop 3) (s : List Char) :
      written code <:+: s → written code <:+: rule.apply s :=
    written_kept hcode (List.drop_subset 1 (Rule.all.drop 2) hrule)
  have hall : applyRules Rule.all (before ++ text ++ after) =
      applyRules (Rule.all.drop 3) (applyRules (Rule.all.take 3) (before ++ text ++ after)) := rfl
  rw [text_adapt, hall, List.append_assoc _ code]
  exact infix_applyRules hkeep hwritten

/-- Inside the key of a header, behind the dangling name of a call, with digits that are not those
of ASCII. -/
theorem status_assertion_written_in_key :
    let code := "٢٠٠".toList
    let text := "pm.expect ( pm.response.code\t).to.equal\n(٢٠٠ )".toList
    code ≠ [] ∧ (∀ c ∈ code, isDecimalDigit c = true) ∧ StatusAssertion code text ∧
      "expect(response.status).to.equal(".toList ++ code ++ [')'] <:+:
        (adapt (some ("pm.response.headers.get(\"pm.".toList ++ text ++ "\")".toList))).text := by
  intro code text
  have hne : code ≠ [] := by decide
  have hcode : ∀ c ∈ code, isDecimalDigit c = true := by decide +kernel
  have h : StatusAssertion code text := by
    have htext : text = (equalityParts code [' '] [' '] ['\t'] ['\n'] [] [' ']).flatten := by
      decide +kernel
    rw [htext]
    exact .equality (by decide +kernel)
  exact ⟨hne, hcode, h, status_assertion_written hne hcode h _ _⟩

end RequestSuite.Script
