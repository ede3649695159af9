/-
Changes in the text of a literal in double quotes.

* `LiteralMode.escapes`, `escapeOpen`: whether the next character is escaped by a backslash;
* `Broken`: texts with a quote that ends the literal too early; `readRest_ne_of_broken`: they are
  not the rest of one literal;
* `exists_run_of_readRest`, `readRest_of_run`: a body read in two steps;
* `readRest_swap`: text without quotes has the same value in quotes of either kind;
* `marks`: a count of some code units in a value;
* `readRest_of_start`, `readRest_start_append`: text that may stand in the place of other text.
-/
import RequestSuite.Proofs.StringLiteral

namespace RequestSuite.Literal

open Text (hexValue?)

variable {q c : Char} {mode mode' mid : LiteralMode} {value out : List ℕ} {w rest : List Char}

/-! ### Escaped characters -/

/-- Whether a backslash stands before the next character and escapes it. -/
def LiteralMode.escapes : LiteralMode → Bool
  | escape => true
  | _ => false

/-- Whether the next character is escaped after some text, which may itself start behind a backslash
that escapes. -/
def escapeOpen (escaped : Bool) : List Char → Bool
  | [] => escaped
  | c :: cs => escapeOpen (c == '\\' && !escaped) cs

lemma escapeOpen_append (escaped : Bool) (s t : List Char) :
    escapeOpen escaped (s ++ t) = escapeOpen (escapeOpen escaped s) t := by
  induction s generalizing escaped with
  | nil => rfl
  | cons c s ih => exact ih _

lemma escapeOpen_concat (escaped : Bool) (s : List Char) (hc : c ≠ '\\') :
    escapeOpen escaped (s ++ [c]) = false := by
  rw [escapeOpen_append]
  simp [escapeOpen, hc]

/-- A text behind which something is escaped ends with a backslash. -/
lemma getLast?_of_escapeOpen {s : List Char} (h : escapeOpen false s = true) :
    s.getLast? = some '\\' := by
  rcases List.eq_nil_or_concat s with rfl | ⟨t, c, rfl⟩
  · simp [escapeOpen] at h
  · rw [List.concat_eq_append] at h ⊢
    by_contra hc
    rw [escapeOpen_concat false t (fun he => hc (by simp [he]))] at h
    simp at h

lemma escapes_of_plainStep (h : plainStep q c = some (mode', out)) :
    mode'.escapes = (c == '\\') := by
  rw [plainStep] at h
  split_ifs at h <;>
  · obtain ⟨rfl, -⟩ := Prod.mk.inj (Option.some.inj h)
    simp_all [LiteralMode.escapes]

/-- A hexadecimal digit is no backslash. -/
lemma escapes_of_hexStep {left number : ℕ} (h : hexStep left number c = some (mode', out)) :
    c ≠ '\\' ∧ mode'.escapes = false := by
  have hnone : hexValue? '\\' = none := by decide
  rw [hexStep] at h
  split at h
  · simp at h
  · next n hn =>
    refine ⟨fun he => ?_, ?_⟩
    · rw [he, hnone] at hn
      simp at hn
    · split at h <;>
      · obtain ⟨rfl, -⟩ := Prod.mk.inj (Option.some.inj h)
        rfl

/-- Nothing inside braces is a backslash. -/
lemma escapes_of_bracedStep {number : Option ℕ} (h : bracedStep number c = some (mode', out)) :
    c ≠ '\\' ∧ mode'.escapes = false := by
  have hnone : hexValue? '\\' = none := by decide
  rw [bracedStep] at h
  split_ifs at h with hc
  · obtain ⟨n, -, he⟩ := Option.map_eq_some_iff.mp h
    obtain ⟨rfl, -⟩ := Prod.mk.inj he
    exact ⟨by rw [hc]; decide, rfl⟩
  · split at h
    · simp at h
    · next n hn =>
      split_ifs at h
      obtain ⟨rfl, -⟩ := Prod.mk.inj (Option.some.inj h)
      refine ⟨fun he => ?_, rfl⟩
      rw [he, hnone] at hn
      simp at hn

/-- An escaped character does not escape the next. -/
lemma escapes_of_escapeStep (h : escapeStep q c = some (mode', out)) : mode'.escapes = false := by
  rw [escapeStep, digitStep] at h
  split at h
  · obtain ⟨rfl, -⟩ := Prod.mk.inj (Option.some.inj h)
    rfl
  · split_ifs at h
    case neg =>
      split at h <;>
      · obtain ⟨rfl, -⟩ := Prod.mk.inj (Option.some.inj h)
        rfl
    all_goals
      obtain ⟨rfl, -⟩ := Prod.mk.inj (Option.some.inj h)
      rfl

/-- A character is escaped exactly behind a backslash that is not. -/
lemma escapes_of_step (h : mode.step q c = some (mode', out)) :
    mode'.escapes = (c == '\\' && !mode.escapes) := by
  cases mode with
  | body => simpa [LiteralMode.escapes] using escapes_of_plainStep h
  | escape => simpa [LiteralMode.escapes] using escapes_of_escapeStep h
  | afterReturn =>
      simp only [LiteralMode.step] at h
      split_ifs at h with hn
      · obtain ⟨rfl, -⟩ := Prod.mk.inj (Option.some.inj h)
        simp [hn, LiteralMode.escapes]
      · simpa [LiteralMode.escapes] using escapes_of_plainStep h
  | dollar =>
      simp only [LiteralMode.step] at h
      split_ifs at h
      simpa [LiteralMode.escapes] using escapes_of_plainStep h
  | hex left number =>
      obtain ⟨hc, hm⟩ := escapes_of_hexStep h
      simp [hm, hc]
  | unicode =>
      simp only [LiteralMode.step] at h
      split_ifs at h with hb
      · obtain ⟨rfl, -⟩ := Prod.mk.inj (Option.some.inj h)
        simp [hb, LiteralMode.escapes]
      · obtain ⟨hc, hm⟩ := escapes_of_hexStep h
        simp [hm, hc]
  | braced number =>
      obtain ⟨hc, hm⟩ := escapes_of_bracedStep h
      simp [hm, hc]
  | octal left number =>
      simp only [LiteralMode.step] at h
      split at h
      · next n left' n' hn =>
        obtain ⟨rfl, -⟩ := Prod.mk.inj (Option.some.inj h)
        have hnone : octalValue? '\\' = none := by decide
        have hc : c ≠ '\\' := fun he => by
          rw [he, hnone] at hn
          simp at hn
        simp [hc, LiteralMode.escapes]
      · obtain ⟨⟨last, more⟩, hp, he⟩ := Option.map_eq_some_iff.mp h
        obtain ⟨rfl, -⟩ := Prod.mk.inj he
        simpa [LiteralMode.escapes] using escapes_of_plainStep hp
  | zero =>
      simp only [LiteralMode.step] at h
      split_ifs at h
      simpa [LiteralMode.escapes] using escapes_of_plainStep h

/-- What is escaped after a text that reads through. -/
lemma escapes_of_run {s : List Char} (h : runLiteral q mode s = some (mid, out)) :
    mid.escapes = escapeOpen mode.escapes s := by
  induction s generalizing mode out with
  | nil =>
      obtain ⟨rfl, -⟩ := Prod.mk.inj (Option.some.inj h)
      rfl
  | cons c s ih =>
      rw [runLiteral] at h
      split at h
      · simp at h
      · next mode₁ out₁ hs =>
        obtain ⟨⟨last, more⟩, hr, he⟩ := Option.map_eq_some_iff.mp h
        obtain ⟨rfl, -⟩ := Prod.mk.inj he
        rw [ih hr, escapes_of_step hs]
        rfl

/-! ### Literals that end too early -/

/-- A text with a quote that ends the literal before the end of the text, which may itself start
behind a backslash that escapes. -/
def Broken (escaped : Bool) (w : List Char) : Prop :=
  ∃ u v, w = u ++ '"' :: v ∧ v ≠ [] ∧ escapeOpen escaped u = false

lemma Broken.append {escaped : Bool} {s : List Char} (h : Broken (escapeOpen escaped s) w) :
    Broken escaped (s ++ w) := by
  obtain ⟨u, v, rfl, hv, hu⟩ := h
  refine ⟨s ++ u, v, ?_, hv, ?_⟩
  · rw [List.append_assoc]
  · rw [escapeOpen_append, hu]

lemma step_quote_eq_none (h : mode.escapes = false) : mode.step '"' '"' = none := by
  cases mode with
  | escape => simp [LiteralMode.escapes] at h
  | octal left number => cases left <;> rfl
  | hex left number => rfl
  | braced number => rfl
  | _ => rfl

/-- **A broken text is not the rest of one literal.** -/
lemma readRest_ne_of_broken (h : Broken mode.escapes w) (value : List ℕ) :
    readRest '"' mode w ≠ some (value, []) := by
  obtain ⟨u, v, rfl, hv, hu⟩ := h
  intro hr
  induction u generalizing mode value with
  | nil =>
      rw [List.nil_append, readRest] at hr
      split_ifs at hr
      · exact hv (Prod.mk.inj (Option.some.inj hr)).2
      · rw [step_quote_eq_none hu] at hr
        simp at hr
  | cons c u ih =>
      rw [List.cons_append, readRest] at hr
      split_ifs at hr
      · have hnil := (Prod.mk.inj (Option.some.inj hr)).2
        simp at hnil
      · split at hr
        · simp at hr
        · next mode' out hs =>
          obtain ⟨⟨v', r'⟩, hr', he⟩ := Option.map_eq_some_iff.mp hr
          obtain ⟨-, rfl⟩ := Prod.mk.inj he
          rw [escapeOpen, ← escapes_of_step hs] at hu
          exact ih v' hu hr'

/-! ### Values of literals -/

/-- The value of a text that is a literal is read from its body. -/
lemma literalValue?_cons (hq : isDelimiter q = true) :
    literalValue? (q :: w) = some value ↔ readRest q .body w = some (value, []) := by
  rw [literalValue?, readLiteral, if_pos hq]
  cases readRest q .body w with
  | none => simp
  | some p =>
      obtain ⟨v, r⟩ := p
      cases r <;> simp

lemma readRest_cons (hc : c ≠ q) (w : List Char) :
    readRest q mode (c :: w) =
      (mode.step q c).bind fun (mode', out) =>
        (readRest q mode' w).map fun (value, rest) => (out ++ value, rest) := by
  rw [readRest, if_neg fun h => hc h.1]
  cases mode.step q c <;> rfl

/-- A body is read through its first part, which has no quote, and then on. -/
lemma exists_run_of_readRest {s : List Char} (hs : ∀ c ∈ s, c ≠ q)
    (h : readRest q mode (s ++ w) = some (value, rest)) :
    ∃ mid out value', runLiteral q mode s = some (mid, out) ∧
      readRest q mid w = some (value', rest) ∧ value = out ++ value' := by
  induction s generalizing mode value with
  | nil => exact ⟨mode, [], value, rfl, h, rfl⟩
  | cons c s ih =>
      obtain ⟨hc, hs⟩ := List.forall_mem_cons.mp hs
      rw [List.cons_append, readRest_cons hc] at h
      obtain ⟨⟨mode', out⟩, hstep, h⟩ := Option.bind_eq_some_iff.mp h
      obtain ⟨⟨value₁, rest₁⟩, h₁, he⟩ := Option.map_eq_some_iff.mp h
      obtain ⟨rfl, rfl⟩ := Prod.mk.inj he
      obtain ⟨mid, out', value', hr, hb, rfl⟩ := ih hs h₁
      refine ⟨mid, out ++ out', value', ?_, hb, by rw [List.append_assoc]⟩
      rw [runLiteral_cons hstep, hr]
      rfl

/-- A body whose first part reads through, and has no quote, is read on from there. -/
lemma readRest_of_run {s : List Char} (hs : ∀ c ∈ s, c ≠ q)
    (h : runLiteral q mode s = some (mid, out)) (hb : readRest q mid w = some (value, rest)) :
    readRest q mode (s ++ w) = some (out ++ value, rest) := by
  induction s generalizing mode out with
  | nil =>
      obtain ⟨rfl, rfl⟩ := Prod.mk.inj (Option.some.inj h)
      exact hb
  | cons c s ih =>
      obtain ⟨hc, hs⟩ := List.forall_mem_cons.mp hs
      rw [runLiteral] at h
      split at h
      · simp at h
      · next mode' out' hstep =>
        obtain ⟨⟨last, more⟩, hr, he⟩ := Option.map_eq_some_iff.mp h
        obtain ⟨rfl, rfl⟩ := Prod.mk.inj he
        rw [List.cons_append, readRest_cons hc, hstep]
        simp only [Option.bind_some, ih hs hr, Option.map_some, List.append_assoc]

lemma step_swap (hd : c ≠ '"') (hs : c ≠ '\'') : mode.step '\'' c = mode.step '"' c := by
  have hplain : plainStep '\'' c = plainStep '"' c := by
    simp [plainStep, hd, hs]
  cases mode <;> simp [LiteralMode.step, escapeStep, digitStep, hplain]

/-- **Text without quotes has the same value in quotes of either kind.** -/
lemma readRest_swap {n : List Char} (hd : '"' ∉ n) (hs : '\'' ∉ n) :
    readRest '\'' mode (n ++ ['\'']) = readRest '"' mode (n ++ ['"']) := by
  induction n generalizing mode with
  | nil =>
      cases mode with
      | octal left number => cases left <;> rfl
      | _ => rfl
  | cons c n ih =>
      rw [List.mem_cons, not_or] at hd hs
      rw [List.cons_append, List.cons_append, readRest_cons (Ne.symm hs.1),
        readRest_cons (Ne.symm hd.1), step_swap (Ne.symm hd.1) (Ne.symm hs.1)]
      simp only [ih hd.2 hs.2]

/-! ### A count that tells values apart -/

/-- How many letters `m` and apostrophes a value has. -/
def marks (value : List ℕ) : ℕ := value.countP fun n => n == 0x6d || n == 0x27

lemma marks_append (value value' : List ℕ) :
    marks (value ++ value') = marks value + marks value' := List.countP_append

/-- A character that is neither has none. -/
lemma marks_charUnits_eq_zero (hm : c ≠ 'm') (hs : c ≠ '\'') : marks (charUnits c) = 0 := by
  have hn : c.toNat ≠ 0x6d := fun h => hm (Char.toNat_inj.mp h)
  have hn' : c.toNat ≠ 0x27 := fun h => hs (Char.toNat_inj.mp h)
  rw [marks, charUnits, pointUnits]
  split_ifs
  · simp [hn, hn']
  · simp only [List.countP_eq_zero, List.mem_cons, List.not_mem_nil, or_false,
      Bool.or_eq_true, beq_iff_eq]
    rintro n (h | h) <;> omega

/-- Text without apostrophes has a mark for each letter `m`. -/
lemma marks_units {t : List Char} (h : '\'' ∉ t) : marks (units t) = t.count 'm' := by
  induction t with
  | nil => rfl
  | cons c t ih =>
      rw [List.mem_cons, not_or] at h
      rw [units_cons, marks_append, ih h.2, List.count_cons]
      by_cases hm : c = 'm'
      · subst hm
        have hone : marks (charUnits 'm') = 1 := by decide
        simp [hone, Nat.add_comm]
      · simp [hm, marks_charUnits_eq_zero hm (Ne.symm h.1)]

/-- Text without quotes and backslashes that is read in a body stands for itself. -/
lemma run_plain {t : List Char} (ht : ∀ c ∈ t, c ≠ '"' ∧ c ≠ '\\')
    (h : runLiteral '"' .body t = some (mid, out)) : mid = .body ∧ out = units t := by
  induction t generalizing out with
  | nil =>
      obtain ⟨rfl, rfl⟩ := Prod.mk.inj (Option.some.inj h)
      exact ⟨rfl, rfl⟩
  | cons c t ih =>
      obtain ⟨⟨hd, hb⟩, ht⟩ := List.forall_mem_cons.mp ht
      by_cases hn : c = '\n' ∨ c = '\r'
      · simp [runLiteral, LiteralMode.step, plainStep, hd, hb, hn] at h
      · have hstep : LiteralMode.body.step '"' c = some (.body, charUnits c) := by
          simp [LiteralMode.step, plainStep, hd, hb, hn]
        rw [runLiteral_cons hstep] at h
        obtain ⟨⟨last, more⟩, hr, he⟩ := Option.map_eq_some_iff.mp h
        obtain ⟨rfl, rfl⟩ := Prod.mk.inj he
        obtain ⟨rfl, rfl⟩ := ih ht hr
        exact ⟨rfl, rfl⟩

/-- Text on one line without quotes and backslashes is read in a body. -/
lemma run_safe {t : List Char} (ht : ∀ c ∈ t, c ∉ ['"', '\\', '\n', '\r']) :
    runLiteral '"' .body t = some (.body, units t) := by
  induction t with
  | nil => rfl
  | cons c t ih =>
      obtain ⟨hc, ht⟩ := List.forall_mem_cons.mp ht
      have hstep : LiteralMode.body.step '"' c = some (.body, charUnits c) := by
        simp only [List.mem_cons, List.not_mem_nil, or_false, not_or] at hc
        simp [LiteralMode.step, plainStep, hc]
      rw [runLiteral_cons hstep, ih ht]
      rfl

/-! ### Text in the place of other text -/

/-- Where the letter `p` is read, other characters are that begin no number. They end a pending
escape as it does. -/
lemma step_of_step_p (h : mode.step '"' 'p' = some (mid, out)) {c : Char}
    (hc : c ∈ ['p', 'e', 'r', '/']) :
    ∃ out', mode.step '"' c = some (.body, out') ∧ marks out' = marks mode.pending := by
  have hdigit : hexValue? 'p' = none := by decide
  simp only [List.mem_cons, List.not_mem_nil, or_false] at hc
  cases mode with
  | hex left number => simp [LiteralMode.step, hexStep, hdigit] at h
  | unicode => simp [LiteralMode.step, hexStep, hdigit] at h
  | braced number => simp [LiteralMode.step, bracedStep, hdigit] at h
  | octal left number =>
      have hpend : marks (LiteralMode.octal left number).pending = marks [number] := rfl
      rw [hpend]
      rcases hc with rfl | rfl | rfl | rfl <;> cases left <;>
        exact ⟨_, rfl, marks_append [number] _⟩
  | _ => rcases hc with rfl | rfl | rfl | rfl <;> exact ⟨_, rfl, rfl⟩

/-- A body that begins with the letter `p` and more plain text. -/
lemma readRest_of_start {t : List Char} (ht : ∀ c ∈ t, c ≠ '"' ∧ c ≠ '\\')
    (h : readRest '"' mode ('p' :: t ++ w) = some (value, [])) :
    (∃ step, mode.step '"' 'p' = some step) ∧
      ∃ value', readRest '"' .body w = some (value', []) ∧
        marks value = marks mode.pending + marks (units t) + marks value' := by
  rw [List.cons_append, readRest_cons (by decide)] at h
  obtain ⟨⟨mid, out⟩, hstep, h⟩ := Option.bind_eq_some_iff.mp h
  obtain ⟨⟨value₁, rest₁⟩, h₁, he⟩ := Option.map_eq_some_iff.mp h
  obtain ⟨rfl, rfl⟩ := Prod.mk.inj he
  obtain ⟨out', hstep', hout⟩ := step_of_step_p hstep (List.mem_cons_self)
  rw [hstep] at hstep'
  obtain ⟨rfl, rfl⟩ := Prod.mk.inj (Option.some.inj hstep')
  obtain ⟨mid, out', value', hr, hb, rfl⟩ := exists_run_of_readRest (fun c hc => (ht c hc).1) h₁
  obtain ⟨rfl, rfl⟩ := run_plain ht hr
  refine ⟨⟨_, hstep⟩, value', hb, ?_⟩
  rw [marks_append, marks_append, hout, Nat.add_assoc]

/-- Other plain text in its place. -/
lemma readRest_start_append {c : Char} {r : List Char} {step : LiteralMode × List ℕ}
    (hp : mode.step '"' 'p' = some step) (hc : c ∈ ['e', 'r', '/'])
    (hr : ∀ c ∈ r, c ∉ ['"', '\\', '\n', '\r'])
    (h : readRest '"' .body w = some (value, [])) :
    ∃ value', readRest '"' mode (c :: r ++ w) = some (value', []) ∧
      marks value' = marks mode.pending + marks (units r) + marks value := by
  obtain ⟨out, hstep, hout⟩ := step_of_step_p hp (List.mem_cons_of_mem _ hc)
  have hquote : ∀ c ∈ r, c ≠ '"' := fun c hm he => hr c hm (by simp [he])
  have hne : c ≠ '"' := by
    rintro rfl
    exact absurd hc (by decide)
  refine ⟨out ++ (units r ++ value), ?_, ?_⟩
  · rw [List.cons_append, readRest_cons hne, hstep]
    simp only [Option.bind_some, readRest_of_run hquote (run_safe hr) h, Option.map_some]
  · rw [marks_append, marks_append, hout, Nat.add_assoc]

end RequestSuite.Literal
