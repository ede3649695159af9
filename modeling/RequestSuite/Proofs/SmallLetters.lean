/-
What lower case does to single characters.

* `eq_or_of_mem_lowerChar`: which characters have a form in ASCII;
* `lowerCodePoint_lands`: a form is its own form;
* `form`, `lowerFrom_cons`: the form of a character between others;
* `Settled`: a character that is its own form; decimal digits, white space and all that lower case
  makes are (`settled_of_mem_lowerFrom`), and no capital of ASCII is;
* `lower_of_settled`, `infix_lower`: settled text stays as it is, also inside another one.
-/
import Mathlib.Tactic
import RequestSuite.Text.Blank
import RequestSuite.Text.Lower
import RequestSuite.Text.Word

namespace RequestSuite.Text

variable {c : Char}

/-! ### White space -/

/-- The white space of Unicode and the four separators, as ranges. -/
def blankRanges : List (ℕ × ℕ) :=
  [(0x09, 0x0d), (0x1c, 0x20), (0x85, 0x85), (0xa0, 0xa0), (0x1680, 0x1680), (0x2000, 0x200a),
    (0x2028, 0x2029), (0x202f, 0x202f), (0x205f, 0x205f), (0x3000, 0x3000)]

lemma exists_range_of_isBlank (h : isBlank c = true) :
    ∃ range ∈ blankRanges, range.1 ≤ c.toNat ∧ c.toNat ≤ range.2 := by
  simp only [isBlank, Bool.or_eq_true, Bool.and_eq_true, decide_eq_true_eq, beq_iff_eq] at h
  simp only [blankRanges, List.mem_cons, List.not_mem_nil, or_false, exists_eq_or_imp,
    exists_eq_left]
  omega

/-! ### Code points -/

/-- Whether a number is in a run. -/
def CaseRun.Has (r : CaseRun) (n : ℕ) : Prop := r.first ≤ n ∧ n ≤ r.last ∧ r.step ∣ n - r.first

/-- The run that decides the form of a character, if there is one. -/
lemma lowerCodePoint_cases (n : ℕ) : lowerCodePoint n = n ∨
    ∃ r ∈ lowerRuns, r.Has n ∧ lowerCodePoint n = (n + r.distance).toNat := by
  rw [lowerCodePoint]
  split
  · next r hr =>
    have hp := List.find?_some hr
    simp only [Bool.and_eq_true, decide_eq_true_eq, beq_iff_eq] at hp
    exact Or.inr ⟨r, List.mem_of_find?_eq_some hr,
      ⟨hp.1.1, hp.1.2, Nat.dvd_of_mod_eq_zero hp.2⟩, rfl⟩
  · exact Or.inl rfl

/-- A character whose form is in ASCII is that form, or its capital, or the sign of the kelvin. -/
lemma lowerCodePoint_of_lt {n : ℕ} (h : lowerCodePoint n < 128) :
    lowerCodePoint n = n ∨ 65 ≤ n ∧ n ≤ 90 ∧ lowerCodePoint n = n + 32 ∨
      lowerCodePoint n = 107 := by
  have hruns : (lowerRuns.all fun r => (r.first = 65 ∧ r.last = 90 ∧ r.distance = 32) ∨
      (r.first = r.last ∧ r.first + r.distance = 107) ∨ 128 ≤ r.first + r.distance) = true := by
    decide +kernel
  rcases lowerCodePoint_cases n with he | ⟨r, hr, ⟨hfirst, hlast, -⟩, he⟩
  · exact Or.inl he
  · have hrun := List.all_eq_true.mp hruns r hr
    simp only [decide_eq_true_eq] at hrun
    omega

lemma toNat_ofNat_of_ne {n : ℕ} (h : (Char.ofNat n).toNat ≠ 0) : (Char.ofNat n).toNat = n := by
  by_cases hvalid : n.isValidChar
  · rw [Char.ofNat, dif_pos hvalid]
    rfl
  · rw [Char.ofNat, dif_neg hvalid] at h
    exact absurd rfl h

/-- A character of ASCII in the form of another one is that one or its small letter. `İ` and the
sign of the kelvin give two more. -/
lemma eq_or_of_mem_lowerChar {d : Char} (h : d ∈ lowerChar c) (hd : d.toNat < 128)
    (hne : d.toNat ≠ 0) :
    d = c ∨ 65 ≤ c.toNat ∧ c.toNat ≤ 90 ∧ d.toNat = c.toNat + 32 ∨ d ∈ ['i', 'k'] := by
  rw [lowerChar] at h
  split_ifs at h
  · rcases List.mem_pair.mp h with rfl | rfl
    · exact Or.inr (Or.inr (by decide))
    · exact absurd hd (by decide)
  · obtain rfl := List.mem_singleton.mp h
    have hvalue := toNat_ofNat_of_ne hne
    rw [hvalue] at hd
    rcases lowerCodePoint_of_lt hd with he | ⟨hfirst, hlast, he⟩ | he
    · exact Or.inl (by rw [he, Char.ofNat_toNat])
    · exact Or.inr (Or.inl ⟨hfirst, hlast, by rw [hvalue, he]⟩)
    · refine Or.inr (Or.inr ?_)
      rw [he]
      decide

/-- The range of the table in which a decimal digit lies. -/
lemma exists_range_of_isDecimalDigit (h : isDecimalDigit c = true) :
    ∃ range ∈ decimalDigitRanges, range.1 ≤ c.toNat ∧ c.toNat ≤ range.2 := by
  rw [isDecimalDigit] at h
  split_ifs at h with hlt
  · have hdigit : (48 : ℕ) ≤ c.toNat ∧ c.toNat ≤ 57 := by
      rw [Char.isDigit, Bool.and_eq_true, decide_eq_true_eq, decide_eq_true_eq] at h
      exact h
    exact ⟨(48, 57), List.mem_cons_self, hdigit⟩
  · obtain ⟨range, hrange, hc⟩ := List.any_eq_true.mp h
    exact ⟨range, hrange, by simpa using hc⟩

/-- The run of the numbers that a run leads to. -/
def CaseRun.landing (r : CaseRun) : CaseRun :=
  ⟨(r.first + r.distance).toNat, (r.last + r.distance).toNat, r.step, 0⟩

/-- What a number of a run is led to is in its landing. -/
lemma CaseRun.Has.landing {r : CaseRun} {n : ℕ} (h : r.Has n) (hr : 0 ≤ r.first + r.distance) :
    r.landing.Has (n + r.distance).toNat := by
  obtain ⟨hfirst, hlast, hstep⟩ := h
  have hmoved : ((n : ℤ) + r.distance).toNat - ((r.first : ℤ) + r.distance).toNat =
      n - r.first := by omega
  refine ⟨?_, ?_, ?_⟩
  · show ((r.first : ℤ) + r.distance).toNat ≤ _
    omega
  · show _ ≤ ((r.last : ℤ) + r.distance).toNat
    omega
  · rwa [CaseRun.landing, hmoved]

/-- A test that two runs have no number in common: one ends before the other starts, or they go by
even steps from numbers of different parity. -/
def CaseRun.avoids (r r' : CaseRun) : Bool :=
  r.last.blt r'.first || r'.last.blt r.first ||
    (r.first == r.last || r.step % 2 == 0) && r'.step % 2 == 0 && (r.first + r'.first) % 2 == 1

lemma CaseRun.Has.not_has {r r' : CaseRun} {n : ℕ} (h : r.Has n) (hr : r.avoids r' = true) :
    ¬ r'.Has n := by
  rintro ⟨hfirst', hlast', hstep'⟩
  obtain ⟨hfirst, hlast, hstep⟩ := h
  simp only [avoids, Bool.or_eq_true, Bool.and_eq_true, Nat.blt_eq, beq_iff_eq] at hr
  rcases hr with (hr | hr) | ⟨⟨hr, heven'⟩, hodd⟩
  · omega
  · omega
  · have hparity' : 2 ∣ n - r'.first := (Nat.dvd_of_mod_eq_zero heven').trans hstep'
    rcases hr with hsingle | heven
    · omega
    · have hparity : 2 ∣ n - r.first := (Nat.dvd_of_mod_eq_zero heven).trans hstep
      omega

lemma CaseRun.Has.lowerCodePoint_eq {r : CaseRun} {n : ℕ} (h : r.Has n)
    (hr : lowerRuns.all r.avoids = true) : lowerCodePoint n = n := by
  rcases lowerCodePoint_cases n with he | ⟨r', hr', hhas', -⟩
  · exact he
  · exact absurd hhas' (h.not_has (List.all_eq_true.mp hr r' hr'))

lemma lowerCodePoint_of_ranges {ranges : List (ℕ × ℕ)} {n : ℕ}
    (hranges : (ranges.all fun range => lowerRuns.all
      (CaseRun.avoids ⟨range.1, range.2, 1, 0⟩)) = true)
    (h : ∃ range ∈ ranges, range.1 ≤ n ∧ n ≤ range.2) : lowerCodePoint n = n := by
  obtain ⟨range, hrange, hle, hge⟩ := h
  exact CaseRun.Has.lowerCodePoint_eq ⟨hle, hge, one_dvd _⟩
    (List.all_eq_true.mp hranges range hrange)

/-- **Lower case is reached in one step**: no run leads into another one, and none leads to `İ`. -/
lemma lowerCodePoint_lands (n : ℕ) :
    lowerCodePoint (lowerCodePoint n) = lowerCodePoint n ∧
      (lowerCodePoint n = 0x130 → n = 0x130) := by
  have hruns : (lowerRuns.all fun r => 0 ≤ r.first + r.distance ∧
      r.landing.avoids ⟨0x130, 0x130, 2, 0⟩ = true ∧ lowerRuns.all r.landing.avoids = true) =
      true := by decide +kernel
  rcases lowerCodePoint_cases n with he | ⟨r, hr, hhas, he⟩
  · rw [he, he]
    exact ⟨rfl, id⟩
  · have hrun := List.all_eq_true.mp hruns r hr
    rw [decide_eq_true_eq] at hrun
    obtain ⟨hpositive, hdotted, hothers⟩ := hrun
    have hlands : r.landing.Has (lowerCodePoint n) := he ▸ hhas.landing hpositive
    refine ⟨hlands.lowerCodePoint_eq hothers, fun heq => ?_⟩
    rw [heq] at hlands
    exact absurd ⟨le_rfl, le_rfl, by simp⟩ (hlands.not_has hdotted)

/-! ### Characters in a text -/

/-- The form of a character that stands after `before` and before `after`. -/
def form (before : List Char) (c : Char) (after : List Char) : List Char :=
  if c = 'Σ' then [if meetsCased before && !meetsCased after then 'ς' else 'σ'] else lowerChar c

lemma lowerFrom_cons (before : List Char) (c : Char) (cs : List Char) :
    lowerFrom before (c :: cs) = form before c cs ++ lowerFrom (c :: before) cs := rfl

/-- A character that is its own form wherever it stands. -/
def Settled (c : Char) : Prop := c ≠ 'Σ' ∧ lowerChar c = [c]

instance (c : Char) : Decidable (Settled c) := inferInstanceAs (Decidable (_ ∧ _))

lemma settled_of_lowerCodePoint (h : lowerCodePoint c.toNat = c.toNat) (hne : c ≠ 'İ') :
    Settled c := by
  refine ⟨?_, by rw [lowerChar, if_neg hne, h, Char.ofNat_toNat]⟩
  rintro rfl
  exact absurd h (by decide)

lemma settled_of_isDecimalDigit (h : isDecimalDigit c = true) : Settled c := by
  refine settled_of_lowerCodePoint (lowerCodePoint_of_ranges (by decide +kernel)
    (exists_range_of_isDecimalDigit h)) ?_
  rintro rfl
  exact absurd h (by decide +kernel)

lemma settled_of_isBlank (h : isBlank c = true) : Settled c := by
  refine settled_of_lowerCodePoint (lowerCodePoint_of_ranges (by decide +kernel)
    (exists_range_of_isBlank h)) ?_
  rintro rfl
  exact absurd h (by decide)

/-- **A form is its own form.** -/
lemma settled_of_mem_lowerChar {d : Char} (h : d ∈ lowerChar c) : Settled d := by
  rw [lowerChar] at h
  split_ifs at h with hdotted
  · rcases List.mem_pair.mp h with rfl | rfl <;> decide
  · obtain ⟨hlands, hnot⟩ := lowerCodePoint_lands c.toNat
    obtain rfl := List.mem_singleton.mp h
    by_cases hzero : (Char.ofNat (lowerCodePoint c.toNat)).toNat = 0
    · rw [← Char.ofNat_toNat (Char.ofNat _), hzero]
      decide
    · have hvalue := toNat_ofNat_of_ne hzero
      refine settled_of_lowerCodePoint (by rw [hvalue, hlands]) fun hd => hdotted ?_
      rw [← Char.toNat_inj]
      exact hnot (by rw [← hvalue, hd]; rfl)

/-- Lower case consists of characters that are their own forms. -/
lemma settled_of_mem_lowerFrom {before cs : List Char} {d : Char} (h : d ∈ lowerFrom before cs) :
    Settled d := by
  induction cs generalizing before with
  | nil => simp [lowerFrom] at h
  | cons c cs ih =>
      rw [lowerFrom_cons, List.mem_append] at h
      rcases h with h | h
      · rw [form] at h
        split_ifs at h
        · obtain rfl := List.mem_singleton.mp h
          decide
        · obtain rfl := List.mem_singleton.mp h
          decide
        · exact settled_of_mem_lowerChar h
      · exact ih h

lemma exists_of_isUpper (h : c.isUpper = true) : ∃ k < 26, c = Char.ofNat (65 + k) := by
  have hbounds : 65 ≤ c.toNat ∧ c.toNat ≤ 90 := of_decide_eq_true h
  refine ⟨c.toNat - 65, by omega, ?_⟩
  rw [show 65 + (c.toNat - 65) = c.toNat by omega, Char.ofNat_toNat]

lemma Settled.not_isUpper (h : Settled c) : c.isUpper = false := by
  have hcapitals : ∀ k < 26, ¬ Settled (Char.ofNat (65 + k)) := by decide
  by_contra hupper
  obtain ⟨k, hk, rfl⟩ := exists_of_isUpper (by simpa using hupper)
  exact hcapitals k hk h

/-- Settled text is left as it is. -/
lemma lowerFrom_append_of_settled {word : List Char} (h : ∀ c ∈ word, Settled c)
    (before cs : List Char) :
    lowerFrom before (word ++ cs) = word ++ lowerFrom (word.reverse ++ before) cs := by
  induction word generalizing before with
  | nil => rfl
  | cons c word ih =>
      obtain ⟨⟨hsigma, hform⟩, hword⟩ := List.forall_mem_cons.mp h
      rw [List.cons_append, lowerFrom_cons, form, if_neg hsigma, hform, ih hword]
      simp

lemma lower_of_settled {cs : List Char} (h : ∀ c ∈ cs, Settled c) : lower cs = cs := by
  have hcs := lowerFrom_append_of_settled h [] []
  rwa [List.append_nil, lowerFrom, List.append_nil] at hcs

/-- What follows a text is put into lower case behind it. -/
lemma exists_lowerFrom_append (before cs ds : List Char) :
    ∃ cs', lowerFrom before (cs ++ ds) = cs' ++ lowerFrom (cs.reverse ++ before) ds := by
  induction cs generalizing before with
  | nil => exact ⟨[], rfl⟩
  | cons c cs ih =>
      obtain ⟨cs', hcs⟩ := ih (c :: before)
      refine ⟨form before c (cs ++ ds) ++ cs', ?_⟩
      rw [List.cons_append, lowerFrom_cons, hcs]
      simp

lemma infix_lower {word cs : List Char} (h : ∀ c ∈ word, Settled c) (hw : word <:+: cs) :
    word <:+: lower cs := by
  obtain ⟨before, after, rfl⟩ := hw
  obtain ⟨before', hbefore⟩ := exists_lowerFrom_append [] before (word ++ after)
  rw [lower, List.append_assoc, hbefore, lowerFrom_append_of_settled h, ← List.append_assoc]
  exact List.infix_append _ _ _

end RequestSuite.Text
