/-
String literals of ECMAScript and their values.

* `charUnits`, `units`: the code units of a text; `units_injective`: they determine it;
* `LiteralMode`, `LiteralMode.step`: one character of a literal in quotes of a kind, and the code
  units it adds to the value;
* `runLiteral`: several characters; `runLiteral_append`: one text after another;
* `readLiteral`, `literalValue?`: a literal at the start of a text, and the value of a text that
  is one literal;
* `literalValue?_eq_some_iff`: one literal is a quote, a body that reads through without that
  quote, and the quote again.

A literal in backquotes is a template without substitutions. Line and paragraph separators may
stand in a literal, line feeds and carriage returns only in a template or behind a backslash.
Octal escapes are read as in a script that is not strict.
-/
import Mathlib.Tactic
import RequestSuite.Text.Hex

namespace RequestSuite.Literal

open Text (hexValue?)

/-! ### Code units -/

/-- The code units of a code point. -/
def pointUnits (n : ℕ) : List ℕ :=
  if n < 0x10000 then [n] else [0xd800 + (n - 0x10000) / 0x400, 0xdc00 + (n - 0x10000) % 0x400]

/-- The code units of a character. -/
def charUnits (c : Char) : List ℕ := pointUnits c.toNat

/-- The code units of a text. -/
def units (text : List Char) : List ℕ := text.flatMap charUnits

@[simp] lemma units_nil : units [] = [] := rfl

@[simp] lemma units_cons (c : Char) (cs : List Char) : units (c :: cs) = charUnits c ++ units cs :=
  rfl

lemma toNat_not_surrogate (c : Char) :
    c.toNat < 0xd800 ∨ 0xdfff < c.toNat ∧ c.toNat < 0x110000 := by
  have h := c.valid
  simp only [UInt32.isValidChar, Nat.isValidChar] at h
  exact h

/-- The units of a character are read back from the front of any list of units: a high surrogate
is never a character of its own. -/
lemma charUnits_append_inj {c d : Char} {u v : List ℕ} (h : charUnits c ++ u = charUnits d ++ v) :
    c = d ∧ u = v := by
  have hc := toNat_not_surrogate c
  have hd := toNat_not_surrogate d
  have hinj : c.toNat = d.toNat → c = d := fun hn => Char.toNat_inj.mp hn
  simp only [charUnits, pointUnits] at h
  split_ifs at h with h1 h2 h2
  · obtain ⟨hn, rfl⟩ := List.cons.inj h
    exact ⟨hinj hn, rfl⟩
  · obtain ⟨hn, -⟩ := List.cons.inj h
    omega
  · obtain ⟨hn, -⟩ := List.cons.inj h
    omega
  · simp only [List.cons_append, List.nil_append, List.cons.injEq] at h
    obtain ⟨h3, h4, rfl⟩ := h
    exact ⟨hinj (by omega), rfl⟩

lemma charUnits_ne_nil (c : Char) : charUnits c ≠ [] := by
  simp only [charUnits, pointUnits]
  split_ifs <;> simp

/-- A text is determined by its code units. -/
theorem units_injective : Function.Injective units := by
  intro s
  induction s with
  | nil =>
      intro t h
      cases t with
      | nil => rfl
      | cons d ds =>
          rw [units_nil, units_cons] at h
          exact absurd (List.append_eq_nil_iff.mp h.symm).1 (charUnits_ne_nil d)
  | cons c cs ih =>
      intro t h
      cases t with
      | nil =>
          rw [units_nil, units_cons] at h
          exact absurd (List.append_eq_nil_iff.mp h).1 (charUnits_ne_nil c)
      | cons d ds =>
          obtain ⟨rfl, hcs⟩ := charUnits_append_inj h
          rw [ih hcs]

/-! ### The grammar of literals -/

/-- Where the next character of a literal stands. -/
inductive LiteralMode
  | body
  /-- After a backslash. -/
  | escape
  /-- After a carriage return, which a line feed would belong to. -/
  | afterReturn
  /-- After a dollar sign in a template. -/
  | dollar
  /-- Before `left + 1` more hexadecimal digits of a number. -/
  | hex (left value : ℕ)
  /-- After the letter of a number of four digits or in braces. -/
  | unicode
  /-- Inside braces, after the digits of `value`. -/
  | braced (value : Option ℕ)
  /-- After an octal digit, before at most `left` more. -/
  | octal (left value : ℕ)
  /-- After an escaped zero in a template, which no digit may follow. -/
  | zero
  deriving DecidableEq, Repr

/-- A quote that delimits literals. -/
def isDelimiter (q : Char) : Bool := q == '\'' || q == '"' || q == '`'

/-- The code unit of a backslash and one letter. -/
def escapedLetter? (c : Char) : Option ℕ :=
  if c = 'b' then some 8
  else if c = 't' then some 9
  else if c = 'n' then some 10
  else if c = 'v' then some 11
  else if c = 'f' then some 12
  else if c = 'r' then some 13
  else none

/-- The value of an octal digit. -/
def octalValue? (c : Char) : Option ℕ :=
  if '0'.toNat ≤ c.toNat ∧ c.toNat ≤ '7'.toNat then some (c.toNat - '0'.toNat) else none

/-- A character outside every escape. -/
def plainStep (q c : Char) : Option (LiteralMode × List ℕ) :=
  if c = q then none
  else if c = '\\' then some (.escape, [])
  else if q = '`' then
    if c = '\r' then some (.afterReturn, [10])
    else if c = '$' then some (.dollar, charUnits c)
    else some (.body, charUnits c)
  else if c = '\n' ∨ c = '\r' then none
  else some (.body, charUnits c)

/-- A digit after a backslash. -/
def digitStep (q c : Char) : Option (LiteralMode × List ℕ) :=
  if q = '`' then if c = '0' then some (.zero, [0]) else none
  else
    match octalValue? c with
    | some n => some (.octal (if n ≤ 3 then 2 else 1) n, [])
    | none => some (.body, charUnits c)

/-- A character after a backslash. -/
def escapeStep (q c : Char) : Option (LiteralMode × List ℕ) :=
  match escapedLetter? c with
  | some n => some (.body, [n])
  | none =>
    if c = 'x' then some (.hex 1 0, [])
    else if c = 'u' then some (.unicode, [])
    else if c = '\r' then some (.afterReturn, [])
    else if c = '\n' ∨ c = '\u2028' ∨ c = '\u2029' then some (.body, [])
    else if c.isDigit then digitStep q c
    else some (.body, charUnits c)

/-- A digit of a number with a fixed count of digits. -/
def hexStep (left value : ℕ) (c : Char) : Option (LiteralMode × List ℕ) :=
  match hexValue? c with
  | none => none
  | some n =>
    match left with
    | 0 => some (.body, [16 * value + n])
    | left + 1 => some (.hex left (16 * value + n), [])

/-- A character inside braces. -/
def bracedStep (value : Option ℕ) (c : Char) : Option (LiteralMode × List ℕ) :=
  if c = '}' then value.map fun n => (.body, pointUnits n)
  else
    match hexValue? c with
    | none => none
    | some n =>
      if 16 * value.getD 0 + n ≤ 0x10ffff then some (.braced (some (16 * value.getD 0 + n)), [])
      else none

namespace LiteralMode

/-- Whether the quote may end a literal here. -/
def closes : LiteralMode → Bool
  | body | afterReturn | dollar | octal .. | zero => true
  | _ => false

/-- The code units of an escape that the next character ends. -/
def pending : LiteralMode → List ℕ
  | octal _ value => [value]
  | _ => []

/-- The mode after a character of a literal in quotes `q`, and the code units that it adds. -/
def step (q : Char) (mode : LiteralMode) (c : Char) : Option (LiteralMode × List ℕ) :=
  match mode with
  | body => plainStep q c
  | escape => escapeStep q c
  | afterReturn => if c = '\n' then some (.body, []) else plainStep q c
  | dollar => if c = '{' then none else plainStep q c
  | hex left value => hexStep left value c
  | unicode => if c = '{' then some (.braced none, []) else hexStep 3 0 c
  | braced value => bracedStep value c
  | octal left value =>
    match left, octalValue? c with
    | left + 1, some n => some (.octal left (8 * value + n), [])
    | _, _ => (plainStep q c).map fun (mode, out) => (mode, value :: out)
  | zero => if c.isDigit then none else plainStep q c

end LiteralMode

/-- The mode after some characters of a literal, and the code units that they add. -/
def runLiteral (q : Char) (mode : LiteralMode) : List Char → Option (LiteralMode × List ℕ)
  | [] => some (mode, [])
  | c :: cs =>
    match mode.step q c with
    | none => none
    | some (mode', out) => (runLiteral q mode' cs).map fun (last, more) => (last, out ++ more)

/-- The rest of a literal in quotes `q`: its value, and what follows it. -/
def readRest (q : Char) (mode : LiteralMode) : List Char → Option (List ℕ × List Char)
  | [] => none
  | c :: cs =>
    if c = q ∧ mode.closes then some (mode.pending, cs)
    else
      match mode.step q c with
      | none => none
      | some (mode', out) => (readRest q mode' cs).map fun (value, rest) => (out ++ value, rest)

/-- The value of the literal at the start of a text, and what follows it. -/
def readLiteral : List Char → Option (List ℕ × List Char)
  | [] => none
  | q :: cs => if isDelimiter q then readRest q .body cs else none

/-- The value of a text that is one literal and nothing else. -/
def literalValue? (text : List Char) : Option (List ℕ) :=
  match readLiteral text with
  | some (value, []) => some value
  | _ => none

/-! ### Reading through the body of a literal -/

@[simp] lemma runLiteral_nil (q : Char) (mode : LiteralMode) :
    runLiteral q mode [] = some (mode, []) := rfl

lemma runLiteral_cons {q c : Char} {mode mode' : LiteralMode} {out : List ℕ} {cs : List Char}
    (h : mode.step q c = some (mode', out)) :
    runLiteral q mode (c :: cs) =
      (runLiteral q mode' cs).map fun (last, more) => (last, out ++ more) := by
  rw [runLiteral, h]

/-- One text after another. -/
lemma runLiteral_append {q : Char} {mode mode' : LiteralMode} {s t : List Char} {out : List ℕ}
    (h : runLiteral q mode s = some (mode', out)) :
    runLiteral q mode (s ++ t) =
      (runLiteral q mode' t).map fun (last, more) => (last, out ++ more) := by
  induction s generalizing mode out with
  | nil =>
      simp only [runLiteral_nil, Option.some.injEq, Prod.mk.injEq] at h
      obtain ⟨rfl, rfl⟩ := h
      simp
  | cons c cs ih =>
      cases hs : mode.step q c with
      | none => simp [runLiteral, hs] at h
      | some p =>
          obtain ⟨mode₁, out₁⟩ := p
          rw [runLiteral_cons hs] at h
          obtain ⟨⟨mode₂, out₂⟩, h2, he⟩ := Option.map_eq_some_iff.mp h
          simp only [Prod.mk.injEq] at he
          obtain ⟨rfl, rfl⟩ := he
          rw [List.cons_append, runLiteral_cons hs, ih h2, Option.map_map]
          congr 1
          funext p
          simp

/-- The quote cannot be read outside an escape. -/
lemma step_quote_of_closes {q : Char} {mode : LiteralMode} (hq : isDelimiter q)
    (h : mode.closes) : mode.step q q = none := by
  have hnd : q.isDigit = false ∧ octalValue? q = none ∧ q ≠ '\n' ∧ q ≠ '{' := by
    simp only [isDelimiter, Bool.or_eq_true, beq_iff_eq] at hq
    rcases hq with (rfl | rfl) | rfl <;> decide
  obtain ⟨hd, ho, hn, hb⟩ := hnd
  cases mode with
  | octal left value => cases left <;> simp [LiteralMode.step, plainStep, ho]
  | body => simp [LiteralMode.step, plainStep]
  | afterReturn => simp [LiteralMode.step, plainStep, hn]
  | dollar => simp [LiteralMode.step, plainStep]
  | zero => simp [LiteralMode.step, plainStep, hd]
  | escape => simp [LiteralMode.closes] at h
  | hex left value => simp [LiteralMode.closes] at h
  | unicode => simp [LiteralMode.closes] at h
  | braced value => simp [LiteralMode.closes] at h

/-- A body that reads through ends at the quote after it. -/
lemma readRest_append {q : Char} {mode last : LiteralMode} {s rest : List Char} {out : List ℕ}
    (hq : isDelimiter q) (h : runLiteral q mode s = some (last, out)) (hl : last.closes) :
    readRest q mode (s ++ q :: rest) = some (out ++ last.pending, rest) := by
  induction s generalizing mode out with
  | nil =>
      simp only [runLiteral_nil, Option.some.injEq, Prod.mk.injEq] at h
      obtain ⟨rfl, rfl⟩ := h
      simp [readRest, hl]
  | cons c cs ih =>
      cases hs : mode.step q c with
      | none => simp [runLiteral, hs] at h
      | some p =>
          obtain ⟨mode₁, out₁⟩ := p
          rw [runLiteral_cons hs] at h
          obtain ⟨⟨mode₂, out₂⟩, h2, he⟩ := Option.map_eq_some_iff.mp h
          simp only [Prod.mk.injEq] at he
          obtain ⟨rfl, rfl⟩ := he
          have hc : ¬ (c = q ∧ mode.closes = true) := by
            rintro ⟨rfl, hm⟩
            rw [step_quote_of_closes hq hm] at hs
            exact absurd hs (by simp)
          simp [readRest, hc, hs, ih h2]

/-- A literal that ends with the text ends at its last character, and its body reads through. -/
lemma exists_of_readRest {q : Char} {mode : LiteralMode} {text : List Char} {value : List ℕ}
    (h : readRest q mode text = some (value, [])) :
    ∃ s last out, text = s ++ [q] ∧ runLiteral q mode s = some (last, out) ∧ last.closes ∧
      value = out ++ last.pending := by
  induction text generalizing mode value with
  | nil => simp [readRest] at h
  | cons c cs ih =>
      rw [readRest] at h
      split_ifs at h with hc
      · obtain ⟨rfl, hm⟩ := hc
        simp only [Option.some.injEq, Prod.mk.injEq] at h
        obtain ⟨rfl, rfl⟩ := h
        exact ⟨[], mode, [], rfl, rfl, hm, rfl⟩
      · cases hs : mode.step q c with
        | none => simp [hs] at h
        | some p =>
            obtain ⟨mode₁, out₁⟩ := p
            simp only [hs] at h
            obtain ⟨⟨v, r⟩, h2, he⟩ := Option.map_eq_some_iff.mp h
            simp only [Prod.mk.injEq] at he
            obtain ⟨rfl, rfl⟩ := he
            obtain ⟨s, last, out, rfl, hr, hl, rfl⟩ := ih h2
            refine ⟨c :: s, last, out₁ ++ out, rfl, ?_, hl, by simp⟩
            rw [runLiteral_cons hs, hr]
            rfl

/-- One literal is a quote, a body that reads through, and the quote again. -/
theorem literalValue?_eq_some_iff {text : List Char} {value : List ℕ} :
    literalValue? text = some value ↔
      ∃ q s last out, text = q :: s ++ [q] ∧ isDelimiter q = true ∧
        runLiteral q .body s = some (last, out) ∧ last.closes = true ∧
        value = out ++ last.pending := by
  constructor
  · intro h
    rw [literalValue?] at h
    split at h
    · next v hr =>
      obtain rfl := Option.some.inj h
      cases text with
      | nil => simp [readLiteral] at hr
      | cons q cs =>
          rw [readLiteral] at hr
          split_ifs at hr with hq
          obtain ⟨s, last, out, rfl, h1, h2, h3⟩ := exists_of_readRest hr
          exact ⟨q, s, last, out, rfl, hq, h1, h2, h3⟩
    · simp at h
  · rintro ⟨q, s, last, out, rfl, hq, hr, hl, rfl⟩
    rw [literalValue?, List.cons_append, readLiteral, if_pos hq, readRest_append hq hr hl]

end RequestSuite.Literal
