/-
Rewriting a script never leads back to it.

* `Sign`, `sign?`: the characters of `pm.`, in capitals and in small letters;
* `mentions`: how often `pm.` stands in a text, in capitals or small letters;
  `mentions_append_of_head`, `mentions_append_of_last`: texts that share none;
* `mentions_lowerFrom`: lower case makes none and spoils none;
* `RewriteStep`: one occurrence of a rule's pattern is replaced; `RewriteStep.mentions_lt`: this
  leaves fewer of them;
* `Rewrites.steps`, `applyRules_steps`: what rules do to a text is a sequence of such steps, or
  nothing, where no pattern occurs;
* `fell_back_iff`: so a script is left as it was only if nothing in it was recognised.
-/
import Mathlib.Logic.Relation
import RequestSuite.Proofs.SmallLetters
import RequestSuite.Proofs.Surroundings
import RequestSuite.Proofs.TestName

namespace RequestSuite.Script

open Text (lower lowerChar lowerFrom lowerCodePoint form lowerFrom_cons eq_or_of_mem_lowerChar)

/-! ### How often the object is named -/

/-- The three characters of `pm.`. -/
inductive Sign
  | p
  | m
  | dot
  deriving DecidableEq, Repr

/-- The sign that a character is, in either case. -/
def sign? (c : Char) : Option Sign :=
  if c = 'p' ∨ c = 'P' then some .p
  else if c = 'm' ∨ c = 'M' then some .m
  else if c = '.' then some .dot
  else none

/-- Whether a text starts with some signs. -/
def startsWith : List Sign → List Char → Bool
  | [], _ => true
  | _ :: _, [] => false
  | sign :: signs, c :: cs => sign? c == some sign && startsWith signs cs

/-- How often `pm.` stands in a text, in capitals or small letters. -/
def mentions : List Char → ℕ
  | [] => 0
  | c :: cs => (startsWith [.p, .m, .dot] (c :: cs)).toNat + mentions cs

variable {c : Char} {s t : List Char}

lemma startsWith_append_cons (hc : sign? c = none) (signs : List Sign) (s t : List Char) :
    startsWith signs (s ++ c :: t) = startsWith signs s := by
  induction signs generalizing s with
  | nil => cases s <;> rfl
  | cons sign signs ih => cases s with
    | nil => simp [startsWith, hc]
    | cons x s => rw [List.cons_append, startsWith, startsWith, ih]

lemma startsWith_append {signs : List Sign} (h : startsWith signs s = true) (t : List Char) :
    startsWith signs (s ++ t) = true := by
  induction signs generalizing s with
  | nil => cases s <;> rfl
  | cons sign signs ih => cases s with
    | nil => simp [startsWith] at h
    | cons x s =>
        rw [startsWith, Bool.and_eq_true] at h
        rw [List.cons_append, startsWith, h.1, ih h.2, Bool.and_self]

/-- A character that is no sign parts a text. -/
lemma mentions_append_cons (hc : sign? c = none) (s t : List Char) :
    mentions (s ++ c :: t) = mentions s + mentions t := by
  induction s with
  | nil => simp [mentions, startsWith, hc]
  | cons x s ih =>
      have hstart := startsWith_append_cons hc [.p, .m, .dot] (x :: s) t
      rw [List.cons_append] at hstart ⊢
      rw [mentions, hstart, ih, mentions, Nat.add_assoc]

/-- Two texts, the second of which does not start with a sign. -/
lemma mentions_append_of_head (h : t.head?.bind sign? = none) (s : List Char) :
    mentions (s ++ t) = mentions s + mentions t := by
  cases t with
  | nil => simp [mentions]
  | cons c t =>
      have htail := mentions_append_cons h [] t
      rw [List.nil_append] at htail
      rw [mentions_append_cons h, htail, mentions, Nat.zero_add]

lemma mentions_append_of_last (h : s.getLast?.bind sign? = none) (t : List Char) :
    mentions (s ++ t) = mentions s + mentions t := by
  rcases List.eq_nil_or_concat s with rfl | ⟨s, c, rfl⟩
  · simp [mentions]
  · rw [List.concat_eq_append, List.getLast?_concat, Option.bind_some] at h
    rw [List.concat_eq_append, List.append_assoc, List.singleton_append, mentions_append_cons h,
      mentions_append_cons h, mentions, Nat.add_zero]

/-- No mention is lost where texts are put together. -/
lemma le_mentions_append (s t : List Char) : mentions s + mentions t ≤ mentions (s ++ t) := by
  induction s with
  | nil => simp [mentions]
  | cons x s ih =>
      have hstart : (startsWith [.p, .m, .dot] (x :: s)).toNat ≤
          (startsWith [.p, .m, .dot] (x :: s ++ t)).toNat := by
        refine Bool.toNat_le_toNat fun h => ?_
        exact startsWith_append h t
      rw [List.cons_append] at hstart ⊢
      rw [mentions, mentions]
      omega

lemma mentions_le_of_infix (h : s <:+: t) : mentions s ≤ mentions t := by
  obtain ⟨front, back, rfl⟩ := h
  have hfront := le_mentions_append front s
  have hback := le_mentions_append (front ++ s) back
  omega

/-! ### Lower case -/

lemma mem_of_sign? {sign : Sign} (h : sign? c = some sign) : c ∈ ['p', 'P', 'm', 'M', '.'] := by
  unfold sign? at h
  split_ifs at h with hp hm hd
  · rcases hp with rfl | rfl <;> decide
  · rcases hm with rfl | rfl <;> decide
  · subst hd
    decide

/-- The form of a sign in lower case is one sign, and that of another character has none. -/
lemma sign?_form (before : List Char) (c : Char) (after : List Char) :
    ∃ d ds, form before c after = d :: ds ∧ sign? d = sign? c ∧
      ∀ e ∈ ds, sign? e = none ∧ sign? c = none := by
  by_cases hsigma : c = 'Σ'
  · rw [form, if_pos hsigma, hsigma]
    split_ifs
    · exact ⟨'ς', [], rfl, by decide, by simp⟩
    · exact ⟨'σ', [], rfl, by decide, by simp⟩
  rw [form, if_neg hsigma, lowerChar]
  by_cases hdotted : c = 'İ'
  · rw [if_pos hdotted, hdotted]
    exact ⟨'i', ['\u0307'], rfl, by decide, by decide⟩
  rw [if_neg hdotted]
  refine ⟨_, [], rfl, ?_, by simp⟩
  cases hc : sign? c with
  | some sign =>
      have hmem := mem_of_sign? hc
      rw [← hc]
      simp only [List.mem_cons, List.not_mem_nil, or_false] at hmem
      rcases hmem with rfl | rfl | rfl | rfl | rfl <;> decide +kernel
  | none =>
      -- no other character has a sign for its form
      generalize hd : Char.ofNat (lowerCodePoint c.toNat) = d
      cases hsign : sign? d with
      | none => rfl
      | some sign =>
          have hmem := mem_of_sign? hsign
          have hform : d ∈ lowerChar c := by
            rw [lowerChar, if_neg hdotted, hd]
            exact List.mem_singleton_self d
          have hsmall : ∀ d ∈ ['p', 'P', 'm', 'M', '.'], d.toNat < 128 ∧ d.toNat ≠ 0 ∧
              d ∉ ['i', 'k'] ∧ (97 ≤ d.toNat → sign? (Char.ofNat (d.toNat - 32)) = sign? d) := by
            decide
          obtain ⟨hlt, hne, hother, hcapital⟩ := hsmall d hmem
          rcases eq_or_of_mem_lowerChar hform hlt hne with rfl | ⟨hfirst, -, he⟩ | hik
          · rw [hc] at hsign
            exact absurd hsign (by simp)
          · have hsame := hcapital (by omega)
            rw [he, Nat.add_sub_cancel, Char.ofNat_toNat, hc, hsign] at hsame
            exact absurd hsame (by simp)
          · exact absurd hik hother

/-- What the form of the first character leads to: where that is a sign, the form of the rest
follows it at once. -/
lemma exists_lowerFrom_cons (before : List Char) (c : Char) (cs : List Char) :
    ∃ d rest, lowerFrom before (c :: cs) = d :: rest ∧ sign? d = sign? c ∧
      (sign? c ≠ none → rest = lowerFrom (c :: before) cs) ∧
      mentions rest = mentions (lowerFrom (c :: before) cs) := by
  obtain ⟨d, ds, hform, hd, hds⟩ := sign?_form before c cs
  refine ⟨d, ds ++ lowerFrom (c :: before) cs, ?_, hd, fun hc => ?_, ?_⟩
  · rw [lowerFrom_cons, hform, List.cons_append]
  · cases ds with
    | nil => rfl
    | cons e ds => exact absurd (hds e List.mem_cons_self).2 hc
  · clear hform
    induction ds with
    | nil => rfl
    | cons e ds ih =>
        obtain ⟨he, hds⟩ := List.forall_mem_cons.mp hds
        have hcut := mentions_append_cons he.1 [] (ds ++ lowerFrom (c :: before) cs)
        rw [List.nil_append, mentions, Nat.zero_add] at hcut
        rw [List.cons_append, hcut, ih hds]

lemma startsWith_lowerFrom (signs : List Sign) (before cs : List Char) :
    startsWith signs (lowerFrom before cs) = startsWith signs cs := by
  induction signs generalizing before cs with
  | nil => cases cs <;> cases lowerFrom before _ <;> rfl
  | cons sign signs ih => cases cs with
    | nil => rfl
    | cons c cs =>
        obtain ⟨d, rest, heq, hd, hrest, -⟩ := exists_lowerFrom_cons before c cs
        rw [heq, startsWith, startsWith, hd]
        cases hc : sign? c with
        | none => rfl
        | some sign' => rw [hrest (by simp [hc]), ih]

/-- **Lower case makes no mentions and spoils none.** -/
lemma mentions_lowerFrom (before cs : List Char) :
    mentions (lowerFrom before cs) = mentions cs := by
  induction cs generalizing before with
  | nil => rfl
  | cons c cs ih =>
      have hstart := startsWith_lowerFrom [.p, .m, .dot] before (c :: cs)
      obtain ⟨d, rest, heq, -, -, hrest⟩ := exists_lowerFrom_cons before c cs
      rw [heq] at hstart ⊢
      rw [mentions, hstart, hrest, ih, mentions]

/-! ### One occurrence replaced -/

/-- What is captured by a pattern that captures once at most is a part of what is read. -/
lemma Pattern.captured_infix {pattern : Pattern} {cs : List Char} {o : Occurrence}
    (h : pattern.match? cs = some o) (hp : (pattern.filter Piece.captures).length ≤ 1) :
    o.captured <:+: o.text := by
  induction pattern generalizing cs o with
  | nil =>
      obtain rfl := Option.some.inj h
      exact List.infix_rfl
  | cons piece pieces ih =>
      obtain ⟨read, rest, o', -, ho, ht, hcap, -⟩ := exists_of_match_cons h
      rw [ht, hcap]
      by_cases hpiece : piece.captures = true
      · rw [if_pos hpiece]
        have hnone : o'.captured = [] := List.eq_nil_iff_forall_not_mem.mpr fun c hc => by
          obtain ⟨other, hmem, hcaptures, -⟩ := Pattern.allows_of_mem_captured ho hc
          rw [List.filter_cons_of_pos hpiece, List.length_cons] at hp
          have hnil := List.eq_nil_of_length_eq_zero (Nat.le_zero.mp (Nat.le_of_succ_le_succ hp))
          exact List.filter_eq_nil_iff.mp hnil other hmem hcaptures
        rw [hnone, List.append_nil]
        exact (List.prefix_append _ _).isInfix
      · rw [if_neg hpiece]
        rw [List.filter_cons_of_neg hpiece] at hp
        exact (ih ho hp).trans (List.suffix_append _ _).isInfix

variable {rule : Rule}

lemma exists_pattern_eq (rule : Rule) : ∃ text, ∃ pieces : List Piece,
    rule.pattern = .literal text :: pieces ∧ mentions text.toList = 1 ∧
      (pieces.filter Piece.captures).length ≤ 1 := by
  cases rule <;> exact ⟨_, _, rfl, by decide, by decide⟩

/-- An occurrence names the object before what it captures. -/
lemma mentions_captured_lt {cs : List Char} {o : Occurrence}
    (h : rule.pattern.match? cs = some o) : mentions o.captured < mentions o.text := by
  obtain ⟨text, pieces, hpattern, hone, hcaptures⟩ := exists_pattern_eq rule
  rw [hpattern] at h
  obtain ⟨read, rest, o', hread, ho, ht, hcap, -⟩ := exists_of_match_cons h
  obtain ⟨r, -, he⟩ := Option.map_eq_some_iff.mp hread
  obtain ⟨rfl, -⟩ := Prod.mk.inj he
  have hinfix := mentions_le_of_infix (Pattern.captured_infix ho hcaptures)
  have happend := le_mentions_append text.toList o'.text
  have hcaptured : o.captured = o'.captured := hcap
  rw [ht, hcaptured]
  omega

/-- A text without mentions that has no sign at either end. -/
structure Silent (word : List Char) : Prop where
  ne_nil : word ≠ []
  head : word.head?.bind sign? = none
  last : word.getLast?.bind sign? = none
  none : mentions word = 0

instance (word : List Char) : Decidable (Silent word) :=
  decidable_of_iff (word ≠ [] ∧ word.head?.bind sign? = none ∧ word.getLast?.bind sign? = none ∧
    mentions word = 0)
    ⟨fun ⟨h₁, h₂, h₃, h₄⟩ => ⟨h₁, h₂, h₃, h₄⟩, fun ⟨h₁, h₂, h₃, h₄⟩ => ⟨h₁, h₂, h₃, h₄⟩⟩

lemma Silent.mentions_append {word : List Char} (h : Silent word) (s t : List Char) :
    mentions (s ++ (word ++ t)) = mentions s + mentions t := by
  rw [mentions_append_of_head, mentions_append_of_last h.last, h.none, Nat.zero_add]
  rw [List.head?_append_of_ne_nil _ h.ne_nil]
  exact h.head

lemma Silent.mentions_frame {front back : List Char} (hfront : Silent front) (hback : Silent back)
    (s word t : List Char) :
    mentions (s ++ (front ++ word ++ back ++ t)) = mentions s + mentions word + mentions t := by
  rw [List.append_assoc, List.append_assoc, hfront.mentions_append, hback.mentions_append,
    Nat.add_assoc]

/-- What a rule writes mentions nothing that was not mentioned in what it captured. -/
lemma mentions_replacement_le (rule : Rule) (captured s t : List Char) :
    mentions (s ++ (rule.replacement captured ++ t)) ≤
      mentions s + mentions captured + mentions t := by
  have hfixed {word : List Char} (h : Silent word) :
      mentions (s ++ (word ++ t)) ≤ mentions s + mentions captured + mentions t := by
    rw [h.mentions_append]
    omega
  cases rule with
  | testDeclaration =>
      have hfront : Silent "it(\"".toList := by decide
      exact (hfront.mentions_frame (by decide) s captured t).le
  | statusEquality | statusHave =>
      have hfront : Silent "expect(response.status).to.equal(".toList := by decide
      exact (hfront.mentions_frame (by decide) s captured t).le
  | headerLookup =>
      have hfront : Silent "response.headers[\"".toList := by decide
      have hback : Silent "\"]".toList := by decide
      have hframe := hfront.mentions_frame hback s (lower captured) t
      rw [lower, mentions_lowerFrom] at hframe
      exact hframe.le
  | statusAccess => exact hfixed (show Silent "response.status".toList by decide)
  | bodyJson => exact hfixed (show Silent "response.body".toList by decide)
  | bodyText => exact hfixed (show Silent "response.text".toList by decide)
  | expectPrefix => exact hfixed (show Silent "expect".toList by decide)
  | responseTime =>
      let comment := "/* Response time not directly supported in Supertest */".toList
      exact hfixed (show Silent comment by decide)

/-- One occurrence of a rule's pattern, anywhere in a text, is replaced. -/
inductive RewriteStep : List Char → List Char → Prop
  | replace (rule : Rule) (before : List Char) {o : Occurrence} {after : List Char}
      (h : rule.pattern.match? (o.text ++ after) = some o) :
      RewriteStep (before ++ (o.text ++ after)) (before ++ (rule.replacement o.captured ++ after))

/-- **Each step leaves fewer mentions.** -/
lemma RewriteStep.mentions_lt (h : RewriteStep s t) : mentions t < mentions s := by
  cases h with
  | @replace rule before o after hm =>
    have hlt := mentions_captured_lt hm
    have htext := le_mentions_append o.text after
    have hbefore := le_mentions_append before (o.text ++ after)
    have hafter := mentions_replacement_le rule o.captured before after
    omega

/-- **No sequence of steps leads back to where it started.** -/
lemma not_transGen_self (text : List Char) : ¬ Relation.TransGen RewriteStep text text := by
  have hlt {s t : List Char} (h : Relation.TransGen RewriteStep s t) : mentions t < mentions s := by
    induction h with
    | single h => exact h.mentions_lt
    | tail _ h ih => exact h.mentions_lt.trans ih
  exact fun h => (hlt h).false

/-! ### Rules as sequences of steps -/

/-- A rule goes through the whole of a text. -/
lemma rewrites_apply (rule : Rule) (text : List Char) :
    Rewrites rule [] text (rule.apply text) := by
  induction hlen : text.length using Nat.strong_induction_on generalizing text with
  | _ n ih =>
    subst hlen
    cases text with
    | nil => exact .nil
    | cons c cs =>
        cases hm : rule.pattern.match? (c :: cs) with
        | none =>
            rw [apply_of_none hm]
            exact .keep (by rwa [List.append_nil]) (ih cs.length (by simp) cs rfl)
        | some o =>
            have happend := Pattern.match?_append hm
            have hmatch : rule.pattern.match? (o.text ++ o.rest ++ []) = some o := by
              rw [List.append_nil, happend, hm]
            have hreplace := Rewrites.replace hmatch (ih _ (length_rest_lt hm) o.rest rfl)
            rwa [happend, ← apply_of_match hm] at hreplace

/-- What a rule does to a text is a sequence of steps, or nothing, where its pattern does not
occur. -/
lemma Rewrites.steps (h : Rewrites rule [] s t) (before : List Char) :
    t = s ∧ occurs rule.pattern s = false ∨
      Relation.TransGen RewriteStep (before ++ s) (before ++ t) := by
  induction h generalizing before with
  | nil => exact Or.inl ⟨rfl, occurs_nil rule⟩
  | @keep c s s' hm rest ih =>
      rcases ih (before ++ [c]) with ⟨rfl, hoccurs⟩ | hsteps
      · refine Or.inl ⟨rfl, ?_⟩
        rw [List.append_nil] at hm
        rw [occurs, hm, hoccurs]
        rfl
      · refine Or.inr ?_
        simpa using hsteps
  | @replace o s s' hm rest ih =>
      rw [List.append_nil] at hm
      have hstep := RewriteStep.replace rule before hm
      rcases ih (before ++ rule.replacement o.captured) with ⟨rfl, -⟩ | hsteps
      · exact Or.inr (.single hstep)
      · rw [List.append_assoc, List.append_assoc] at hsteps
        exact Or.inr (.head hstep hsteps)

/-- So is what several rules do, one after another. -/
lemma applyRules_steps (rules : List Rule) (text : List Char) :
    applyRules rules text = text ∧ (∀ rule ∈ rules, occurs rule.pattern text = false) ∨
      Relation.TransGen RewriteStep text (applyRules rules text) := by
  induction rules generalizing text with
  | nil => exact Or.inl ⟨rfl, by simp⟩
  | cons rule rules ih =>
      rw [applyRules, List.foldl_cons, ← applyRules]
      rcases (rewrites_apply rule text).steps [] with ⟨heq, hoccurs⟩ | hfirst
      · rw [heq]
        rcases ih text with ⟨hrules, hnone⟩ | hsteps
        · refine Or.inl ⟨hrules, ?_⟩
          rw [List.forall_mem_cons]
          exact ⟨hoccurs, hnone⟩
        · exact Or.inr hsteps
      · rcases ih (rule.apply text) with ⟨heq, -⟩ | hsteps
        · rw [heq]
          exact Or.inr hfirst
        · exact Or.inr (hfirst.trans hsteps)

/-- Rules leave a text as it is exactly if none of their patterns occurs in it. -/
lemma applyRules_eq_self_iff (rules : List Rule) (text : List Char) :
    applyRules rules text = text ↔ ∀ rule ∈ rules, occurs rule.pattern text = false := by
  refine ⟨fun heq => ?_, fun hnone => ?_⟩
  · rcases applyRules_steps rules text with ⟨-, hnone⟩ | hsteps
    · exact hnone
    · rw [heq] at hsteps
      exact absurd hsteps (not_transGen_self text)
  · induction rules with
    | nil => rfl
    | cons rule rules ih =>
        obtain ⟨hrule, hrules⟩ := List.forall_mem_cons.mp hnone
        rw [applyRules, List.foldl_cons, (rewrites_apply rule text).eq_self hrule]
        exact ih hrules

/-- **A script falls back exactly if nothing in it is recognised**: it is missing or empty, or the
pattern of no rule occurs in it. Rules in any order leave a text as it is only if none of their
patterns occurs in it, and no sequence of single replacements leads back to the text it started
from. -/
theorem fell_back_iff :
    (∀ script, (adapt script).fellBack = true ↔ script = none ∨ script = some [] ∨
      ∃ text, script = some text ∧ ∀ rule ∈ Rule.all, occurs rule.pattern text = false) ∧
    (∀ rules text, applyRules rules text = text ↔
      ∀ rule ∈ rules, occurs rule.pattern text = false) ∧
    ∀ text, ¬ Relation.TransGen RewriteStep text text := by
  refine ⟨fun script => ?_, applyRules_eq_self_iff, not_transGen_self⟩
  cases script with
  | none => simp [adapt, adaptWith]
  | some text => cases text with
    | nil => simp [adapt, adaptWith]
    | cons c cs =>
        have hfell : (adapt (some (c :: cs))).fellBack =
            decide (applyRules Rule.all (c :: cs) = c :: cs) := rfl
        rw [hfell, decide_eq_true_eq, applyRules_eq_self_iff]
        simp

/-- A key that becomes a call in lower case is rewritten once more, and does not come back. -/
example : (adapt (some "pm.response.headers.get(\"PM.EXPECT\")".toList)).text =
    "response.headers[\"expect\"]".toList := by decide +kernel

end RequestSuite.Script
