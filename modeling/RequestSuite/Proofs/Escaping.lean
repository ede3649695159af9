/-
Escaped texts read back as literals of every kind of quotes.

* `runLiteral_unicode`: four hexadecimal digits are read as the number they were written from;
* `runLiteral_escapeLetter`, `runLiteral_escapeChar`: an escaped character adds its own code units
  to the value, in quotes of any kind;
* `runLiteral_escape`: so does a whole text;
* `escape_forall`, `escape_no_lineTerminator`: no line terminator is left in an escaped text;
* `escapePasses`, `escapePasses_eq`: escaping in one pass after another comes to the same;
* `escaped_text_is_literal`: between quotes of any kind an escaped text is one literal whose value
  is the text, and no two texts are escaped alike.
-/
import Mathlib.Data.Bool.AllAny
import RequestSuite.Proofs.StringLiteral
import RequestSuite.Script.Literal

namespace RequestSuite.Script

open Literal
open Text (hex hexDigit hexValue? hexValue?_hexDigit)

variable {q : Char}

/-! ### Numbers of four digits -/

lemma hexDigit_forall {p : Char → Prop} (h : ∀ k : Fin 16, p (hexDigit k)) {n : ℕ} (hn : n < 16) :
    p (hexDigit n) := h ⟨n, hn⟩

lemma hexDigit_ne_brace {n : ℕ} (h : n < 16) : hexDigit n ≠ '{' :=
  hexDigit_forall (p := (· ≠ '{')) (by decide) h

/-- A digit before others of the same number. -/
lemma runLiteral_hex_succ {left value n : ℕ} (h : n < 16) (cs : List Char) :
    runLiteral q (.hex (left + 1) value) (hexDigit n :: cs) =
      runLiteral q (.hex left (16 * value + n)) cs := by
  have hstep : LiteralMode.step q (.hex (left + 1) value) (hexDigit n) =
      some (.hex left (16 * value + n), []) := by
    simp [LiteralMode.step, hexStep, hexValue?_hexDigit h]
  rw [runLiteral_cons hstep]
  simp

/-- Four digits behind the letter of a number are read as the number they were written from. -/
lemma runLiteral_unicode {n : ℕ} (h : n < 0x10000) :
    runLiteral q .unicode (hex 4 n) = some (.body, [n]) := by
  have h4 : hex 4 n = [hexDigit (n / 16 / 16 / 16 % 16), hexDigit (n / 16 / 16 % 16),
      hexDigit (n / 16 % 16), hexDigit (n % 16)] := by simp [hex]
  have hlt (m : ℕ) : m % 16 < 16 := Nat.mod_lt m (by omega)
  have hfirst : LiteralMode.step q .unicode (hexDigit (n / 16 / 16 / 16 % 16)) =
      some (.hex 2 (n / 16 / 16 / 16 % 16), []) := by
    simp [LiteralMode.step, hexDigit_ne_brace (hlt _), hexStep, hexValue?_hexDigit (hlt _)]
  rw [h4, runLiteral_cons hfirst, runLiteral_hex_succ (hlt _), runLiteral_hex_succ (hlt _)]
  have hlast : 16 * (16 * (16 * (n / 16 / 16 / 16 % 16) + n / 16 / 16 % 16) + n / 16 % 16) +
      n % 16 = n := by omega
  simp [runLiteral, LiteralMode.step, hexStep, hexValue?_hexDigit (hlt _), hlast]

/-! ### Characters -/

/-- The characters that are escaped by a backslash and themselves. -/
def isMark (c : Char) : Bool := c == '\\' || c == '\'' || c == '"' || c == '`'

/-- The characters at which a line of a script ends. -/
def isLineTerminator (c : Char) : Bool :=
  c == '\n' || c == '\r' || c == '\u2028' || c == '\u2029'

/-- The modes between two characters of a text that is being read back. -/
def Between (mode : LiteralMode) : Prop := mode = .body ∨ mode = .dollar

lemma step_backslash {mode : LiteralMode} (hq : isDelimiter q) (hm : Between mode) :
    mode.step q '\\' = some (.escape, []) := by
  have hne : q ≠ '\\' := by
    rintro rfl
    exact absurd hq (by decide)
  rcases hm with rfl | rfl <;> simp [LiteralMode.step, plainStep, Ne.symm hne]

/-- A control character or line separator reads back from its letters. -/
lemma runLiteral_escapeLetter {c : Char} {letters : List Char}
    (h : escapeLetter? c = some letters) :
    runLiteral q .escape letters = some (.body, charUnits c) := by
  have hnumber (hc : c.toNat < 0x10000) :
      runLiteral q .escape ('u' :: hex 4 c.toNat) = some (.body, charUnits c) := by
    have hstep : LiteralMode.step q .escape 'u' = some (.unicode, []) := rfl
    rw [runLiteral_cons hstep, runLiteral_unicode hc]
    simp [charUnits, pointUnits, hc]
  simp only [escapeLetter?] at h
  split_ifs at h with h1 h2 h3 h4 h5 h6 h7
  · obtain rfl := Option.some.inj h; subst h1; rfl
  · obtain rfl := Option.some.inj h; subst h2; rfl
  · obtain rfl := Option.some.inj h; subst h3; rfl
  · obtain rfl := Option.some.inj h; subst h4; rfl
  · obtain rfl := Option.some.inj h; subst h5; rfl
  · obtain rfl := Option.some.inj h; subst h6; rfl
  · obtain rfl := Option.some.inj h
    refine hnumber ?_
    simp only [Bool.or_eq_true, decide_eq_true_eq] at h7
    rcases h7 with ((h7 | h7) | rfl) | rfl
    · omega
    · omega
    · decide
    · decide

lemma not_lineTerminator_of_escapeLetter {c : Char} (h : escapeLetter? c = none) :
    isLineTerminator c = false := by
  simp only [escapeLetter?] at h
  split_ifs at h with h1 h2 h3 h4 h5 h6 h7
  simp only [Bool.or_eq_true, decide_eq_true_eq, not_or] at h7
  simp [isLineTerminator, h1, h2, h7]

/-- An escaped character adds its own code units to the value of a literal. Only a dollar sign that
stands as it is is remembered, and it must not meet a brace. -/
lemma runLiteral_escapeChar {mode : LiteralMode} {c : Char} (hq : isDelimiter q)
    (hm : Between mode) (hb : mode = .dollar → c ≠ '{') :
    ∃ last, runLiteral q mode (escapeChar c) = some (last, charUnits c) ∧
      (last = .body ∨ last = .dollar ∧ c = '$') := by
  rw [escapeChar]
  split_ifs with hc
  · refine ⟨.body, ?_, Or.inl rfl⟩
    have hs : LiteralMode.escape.step q c = some (.body, charUnits c) := by
      simp only [Bool.or_eq_true, decide_eq_true_eq] at hc
      rcases hc with ((rfl | rfl) | rfl) | rfl <;> rfl
    rw [runLiteral_cons (step_backslash hq hm), runLiteral_cons hs]
    simp
  · simp only [Bool.or_eq_true, decide_eq_true_eq, not_or] at hc
    obtain ⟨⟨⟨h1, h2⟩, h3⟩, h4⟩ := hc
    cases hl : escapeLetter? c with
    | some letters =>
        refine ⟨.body, ?_, Or.inl rfl⟩
        simp only
        rw [runLiteral_cons (step_backslash hq hm), runLiteral_escapeLetter hl]
        simp
    | none =>
        have ht := not_lineTerminator_of_escapeLetter hl
        simp only [isLineTerminator, Bool.or_eq_false_iff, beq_eq_false_iff_ne] at ht
        obtain ⟨⟨⟨hn, hr⟩, -⟩, -⟩ := ht
        have hcq : c ≠ q := by
          rintro rfl
          simp only [isDelimiter, Bool.or_eq_true, beq_iff_eq] at hq
          rcases hq with (h | h) | h
          · exact h2 h
          · exact h3 h
          · exact h4 h
        have hstep : mode.step q c = plainStep q c := by
          rcases hm with rfl | rfl
          · rfl
          · simp [LiteralMode.step, hb rfl]
        by_cases hd : q = '`' ∧ c = '$'
        · have hs : mode.step q c = some (.dollar, charUnits c) := by
            rw [hstep]
            simp [plainStep, hd]
          exact ⟨.dollar, by rw [runLiteral_cons hs]; simp, Or.inr ⟨rfl, hd.2⟩⟩
        · have hs : mode.step q c = some (.body, charUnits c) := by
            rw [hstep]
            by_cases hqt : q = '`'
            · have hcd : c ≠ '$' := fun h => hd ⟨hqt, h⟩
              simp [plainStep, h1, h4, hr, hqt, hcd]
            · simp [plainStep, hcq, h1, hn, hr, hqt]
          exact ⟨.body, by rw [runLiteral_cons hs]; simp, Or.inl rfl⟩

/-! ### Texts -/

/-- An escaped text adds its code units to the value of a literal in quotes of any kind. The
induction is on the text; a dollar sign read as it is cannot meet a brace, because a dollar sign
before a brace is escaped. -/
lemma runLiteral_escape {mode : LiteralMode} (hq : isDelimiter q) (hm : Between mode)
    (s : List Char) (hb : mode = .dollar → s.head? ≠ some '{') :
    ∃ last, runLiteral q mode (escape s) = some (last, units s) ∧ Between last := by
  induction s generalizing mode with
  | nil => exact ⟨mode, rfl, hm⟩
  | cons c cs ih =>
      rw [escape_cons]
      split_ifs with hd
      · -- a dollar sign before a brace
        simp only [Bool.and_eq_true, decide_eq_true_eq] at hd
        obtain ⟨rfl, -⟩ := hd
        have hbody : Between .body := Or.inl rfl
        obtain ⟨last, hr, hl⟩ := ih hbody (by simp)
        have hs : LiteralMode.escape.step q '$' = some (.body, charUnits '$') := by rfl
        refine ⟨last, ?_, hl⟩
        rw [runLiteral_cons (step_backslash hq hm), runLiteral_cons hs, hr]
        simp
      · obtain ⟨mode', hr, hm'⟩ := runLiteral_escapeChar (c := c) hq hm (by
          intro h hc
          exact hb h (by simp [hc]))
        have hbetween : Between mode' := by
          rcases hm' with rfl | ⟨rfl, -⟩
          · exact Or.inl rfl
          · exact Or.inr rfl
        obtain ⟨last, hr', hl⟩ := ih hbetween (by
          rintro rfl hhead
          rcases hm' with h | ⟨-, rfl⟩
          · exact absurd h (by simp)
          · simp [hhead] at hd)
        refine ⟨last, ?_, hl⟩
        rw [runLiteral_append hr, hr']
        simp

/-- A text and its escaped form between quotes of some kind. -/
lemma readLiteral_escape (hq : isDelimiter q) (s rest : List Char) :
    readLiteral (q :: escape s ++ q :: rest) = some (units s, rest) := by
  have hbody : Between .body := Or.inl rfl
  obtain ⟨last, hr, hl⟩ := runLiteral_escape hq hbody s (by simp)
  have hclose : last.closes = true ∧ last.pending = [] := by
    rcases hl with rfl | rfl <;> exact ⟨rfl, rfl⟩
  rw [List.cons_append, readLiteral, if_pos hq, readRest_append hq hr hclose.1, hclose.2]
  simp

/-- What holds of the letters of escapes and of hexadecimal digits holds of every letter that stands
for a character. -/
lemma escapeLetter_forall {p : Char → Prop} {c : Char} {letters : List Char}
    (hletter : ∀ c ∈ ['n', 'r', 't', 'b', 'f', 'v', 'u'], p c)
    (hdigit : ∀ n < 16, p (hexDigit n)) (h : escapeLetter? c = some letters) :
    ∀ d ∈ letters, p d := by
  have hlt (m : ℕ) : p (hexDigit (m % 16)) := hdigit _ (Nat.mod_lt m (by omega))
  simp only [List.forall_mem_cons] at hletter
  simp only [escapeLetter?] at h
  split_ifs at h <;> obtain rfl := Option.some.inj h <;> simp [hex, hletter, hlt]

/-- What holds of every mark, hexadecimal digit and letter of an escape, and of every character
without an escape, holds of every character of an escaped text. -/
lemma escape_forall {p : Char → Prop} (hmark : ∀ c, isMark c → p c)
    (hletter : ∀ c ∈ ['n', 'r', 't', 'b', 'f', 'v', 'u'], p c)
    (hdigit : ∀ n < 16, p (hexDigit n)) (hplain : ∀ c, escapeLetter? c = none → p c)
    (s : List Char) : ∀ c ∈ escape s, p c := by
  have hback : p '\\' := hmark _ (by decide)
  have hdollar : p '$' := hplain _ (by decide)
  induction s with
  | nil => simp [escape]
  | cons c cs ih =>
      rw [escape_cons]
      split_ifs with hd
      · simpa [hback, hdollar] using ih
      · rw [List.forall_mem_append]
        refine ⟨?_, ih⟩
        rw [escapeChar]
        split_ifs with hc
        · have hcm : isMark c = true := by simpa [isMark] using hc
          simpa [hback] using hmark c hcm
        · cases hl : escapeLetter? c with
          | some letters => simpa [hback] using escapeLetter_forall hletter hdigit hl
          | none => simpa using hplain c hl

/-- No line terminator is left in an escaped text. -/
lemma escape_no_lineTerminator (s : List Char) :
    (escape s).any isLineTerminator = false := by
  rw [List.any_eq_false]
  refine escape_forall ?_ (List.all_iff_forall_prop.mp (by decide)) ?_ ?_ s
  · intro c hc
    simp only [isMark, Bool.or_eq_true, beq_iff_eq] at hc
    rcases hc with ((rfl | rfl) | rfl) | rfl <;> decide
  · intro n hn
    exact hexDigit_forall (p := fun c => ¬ isLineTerminator c = true) (by decide) hn
  · intro c hc
    simp [not_lineTerminator_of_escapeLetter hc]

/-! ### One pass after another -/

/-- Puts a backslash before every `mark`. -/
def escapeMark (mark : Char) (s : List Char) : List Char :=
  s.flatMap fun c => if c = mark then ['\\', c] else [c]

/-- The form of a control character or line separator. -/
def escapeControl (c : Char) : List Char :=
  match escapeLetter? c with
  | some letters => '\\' :: letters
  | none => [c]

/-- Puts a backslash before every dollar sign that meets a brace. -/
def escapeTemplate : List Char → List Char
  | '$' :: '\x7b' :: cs => '\\' :: '$' :: '\x7b' :: escapeTemplate cs
  | c :: cs => c :: escapeTemplate cs
  | [] => []

/-- Escapes the backslashes of a text, then its quotes, control characters and starts of
substitutions, each in what the passes before have made of it. -/
def escapePasses (s : List Char) : List Char :=
  let marked := ['\\', '\'', '"', '`'].foldl (fun s mark => escapeMark mark s) s
  escapeTemplate (marked.flatMap escapeControl)

/-- The passes before the last treat each character by itself. -/
lemma flatMap_escapeChar (s : List Char) :
    (['\\', '\'', '"', '`'].foldl (fun s mark => escapeMark mark s) s).flatMap escapeControl =
      s.flatMap escapeChar := by
  simp only [List.foldl_cons, List.foldl_nil, escapeMark, List.flatMap_assoc]
  refine List.flatMap_congr fun c _ => ?_
  by_cases hmark : isMark c = true
  · simp only [isMark, Bool.or_eq_true, beq_iff_eq] at hmark
    rcases hmark with ((rfl | rfl) | rfl) | rfl <;> rfl
  · simp only [isMark, Bool.or_eq_true, beq_iff_eq, not_or] at hmark
    cases hl : escapeLetter? c <;> simp [escapeChar, escapeControl, hmark, hl]

lemma escapeTemplate_cons {c : Char} {cs : List Char} (h : c = '$' → cs.head? ≠ some '\x7b') :
    escapeTemplate (c :: cs) = c :: escapeTemplate cs := by
  rw [escapeTemplate]
  rintro cs' rfl rfl
  exact h rfl rfl

/-- A text without dollar signs stays as it is. -/
lemma escapeTemplate_append {s : List Char} (h : '$' ∉ s) (t : List Char) :
    escapeTemplate (s ++ t) = s ++ escapeTemplate t := by
  induction s with
  | nil => rfl
  | cons c cs ih =>
      rw [List.mem_cons, not_or] at h
      rw [List.cons_append, escapeTemplate_cons fun hc => absurd hc.symm h.1, ih h.2,
        List.cons_append]

/-- Only a dollar sign is escaped with one. -/
lemma dollar_notMem_escapeChar {c : Char} (h : c ≠ '$') : '$' ∉ escapeChar c := by
  have hdigit : ∀ n < 16, hexDigit n ≠ '$' := fun n hn =>
    hexDigit_forall (p := (· ≠ '$')) (by decide) hn
  rw [escapeChar]
  split_ifs with hc
  · simp [h.symm]
  · cases hl : escapeLetter? c with
    | some letters =>
        have hletters : ∀ d ∈ letters, d ≠ '$' :=
          escapeLetter_forall (List.all_iff_forall_prop.mp (by decide)) hdigit hl
        simpa using fun hm => hletters _ hm rfl
    | none => simpa using h.symm

/-- A text starts with a brace after the passes before the last only if it did before. -/
lemma head_flatMap_escapeChar (s : List Char) :
    (s.flatMap escapeChar).head? = some '\x7b' ↔ s.head? = some '\x7b' := by
  cases s with
  | nil => rfl
  | cons c cs =>
      rw [List.flatMap_cons, escapeChar]
      split_ifs with hc
      · simp only [Bool.or_eq_true, decide_eq_true_eq] at hc
        rcases hc with ((rfl | rfl) | rfl) | rfl <;> simp
      · cases hl : escapeLetter? c with
        | some letters =>
            have hne : c ≠ '\x7b' := by
              rintro rfl
              have hnone : escapeLetter? '\x7b' = none := by decide
              simp [hnone] at hl
            simp [hne]
        | none => simp

/-- The passes together escape as one does that looks at each character once. -/
lemma escapePasses_eq (s : List Char) : escapePasses s = escape s := by
  rw [escapePasses, flatMap_escapeChar]
  induction s with
  | nil => rfl
  | cons c cs ih =>
      rw [escape_cons, List.flatMap_cons]
      by_cases hc : c = '$'
      · subst hc
        have hdollar : escapeChar '$' = ['$'] := by decide
        rw [hdollar, List.singleton_append]
        split_ifs with hd
        · have hhead : (cs.flatMap escapeChar).head? = some '\x7b' :=
            (head_flatMap_escapeChar cs).mpr (by simpa using hd)
          obtain ⟨rest, hrest⟩ := List.head?_eq_some_iff.mp hhead
          rw [hrest] at ih ⊢
          calc
            escapeTemplate ('$' :: '\x7b' :: rest) =
                '\\' :: '$' :: '\x7b' :: escapeTemplate rest := by rw [escapeTemplate]
            _ = '\\' :: '$' :: escapeTemplate ('\x7b' :: rest) := by
              rw [escapeTemplate_cons (by simp)]
            _ = '\\' :: '$' :: escape cs := by rw [ih]
        · have hhead : (cs.flatMap escapeChar).head? ≠ some '\x7b' := fun h =>
            hd (by simpa using (head_flatMap_escapeChar cs).mp h)
          rw [escapeTemplate_cons fun _ => hhead, ih]
          rfl
      · rw [escapeTemplate_append (dollar_notMem_escapeChar hc), ih, if_neg (by simp [hc])]

/-- **Escaped texts are literals**: in single quotes, as `quote` puts it, in double quotes and in
backquotes an escaped text is one complete literal whose value is the text, whatever follows. The
reading ends at the closing quote, so none before it is left unescaped, and a template so read has
no substitution. No line terminator is left in it, and no two texts are escaped alike. The same
comes of escaping in passes, each over what the others have made of the text. -/
theorem escaped_text_is_literal :
    (∀ s rest : List Char, readLiteral (quote s ++ rest) = some (units s, rest) ∧
      readLiteral ('"' :: escape s ++ '"' :: rest) = some (units s, rest) ∧
      readLiteral ('`' :: escape s ++ '`' :: rest) = some (units s, rest) ∧
      (escape s).any isLineTerminator = false) ∧
    Function.Injective units ∧ Function.Injective quote ∧ Function.Injective escape ∧
    ∀ s, escapePasses s = escape s := by
  have hread (s : List Char) := readLiteral_escape (rfl : isDelimiter '\'' = true) s []
  have hinj : Function.Injective escape := by
    intro s t h
    have hs := hread s
    rw [h, hread t] at hs
    simp only [Option.some.injEq, Prod.mk.injEq, and_true] at hs
    exact (units_injective hs).symm
  refine ⟨fun s rest => ⟨?_, readLiteral_escape rfl s rest, readLiteral_escape rfl s rest,
    escape_no_lineTerminator s⟩, units_injective, ?_, hinj, escapePasses_eq⟩
  · have happend : quote s ++ rest = '\'' :: escape s ++ '\'' :: rest := by simp [quote]
    rw [happend]
    exact readLiteral_escape rfl s rest
  · intro s t h
    rw [quote, quote, List.cons_append, List.cons_append, List.cons.injEq] at h
    exact hinj (List.append_cancel_right h.2)

end RequestSuite.Script
