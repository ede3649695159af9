/-
The numbers of JSON texts read back.

* `NumberEnds`: the texts before which a number ends;
* `takeDigits_append`, `takeFraction_point`, `takeExponent_mark`: the parts of a number, one after
  another; `number_of_parts`: a number of these parts;
* `NumberText`: a text that is read as a number, whatever ends it;
* `numberText_digits`: the digits of a whole number;
* `numberText_layout`: the digits of any other number, with a point among them, before or behind
  them, or with an exponent; `exists_numberText`: every finite number is written so.
-/
import RequestSuite.Json.Printer
import RequestSuite.Json.Reader
import RequestSuite.Proofs.DecimalText

namespace RequestSuite.Json

variable {digits whole fraction cs rest : List Char} {c : Char} {exponent? : Option ℤ}

/-! ### The parts of a number -/

/-- Digits. -/
def AllDigits (cs : List Char) : Prop := ∀ c ∈ cs, c.isDigit = true

/-- A text that does not go on with a digit. -/
def DigitsEnd (rest : List Char) : Prop := ∀ c ∈ rest.head?, c.isDigit = false

/-- The texts before which a number ends. -/
def NumberEnds (rest : List Char) : Prop :=
  ∀ c ∈ rest.head?, c.isDigit = false ∧ c ≠ '.' ∧ c ≠ 'e' ∧ c ≠ 'E'

lemma NumberEnds.digitsEnd (h : NumberEnds rest) : DigitsEnd rest := fun c hc => (h c hc).1

lemma digitsEnd_cons (hc : c.isDigit = false) (rest : List Char) : DigitsEnd (c :: rest) := by
  intro d hd
  obtain rfl := Option.some.inj hd
  exact hc

lemma numberEnds_cons (hc : c.isDigit = false ∧ c ≠ '.' ∧ c ≠ 'e' ∧ c ≠ 'E') (rest : List Char) :
    NumberEnds (c :: rest) := by
  intro d hd
  obtain rfl := Option.some.inj hd
  exact hc

/-- A decision of finitely many cases that is true of all digits. -/
lemma digit_forall {p : Char → Prop} (h : ∀ k : Fin 10, p (Nat.digitChar k))
    (hc : c.isDigit = true) : p c := by
  simp only [Char.isDigit, Bool.and_eq_true, decide_eq_true_eq] at hc
  have hlow : 48 ≤ c.toNat := hc.1
  have hhigh : c.toNat ≤ 57 := hc.2
  have hchar : c = Nat.digitChar (c.toNat - 48) := by
    have hall : ∀ k : Fin 10, Char.ofNat (k + 48) = Nat.digitChar k := by decide
    have hk := hall ⟨c.toNat - 48, by omega⟩
    rwa [show c.toNat - 48 + 48 = c.toNat by omega, Char.ofNat_toNat] at hk
  rw [hchar]
  exact h ⟨c.toNat - 48, by omega⟩

lemma allDigits_toDigits (n : ℕ) : AllDigits (Nat.toDigits 10 n) := fun _ hc =>
  Nat.isDigit_of_mem_toDigits (by decide) (by decide) hc

lemma allDigits_zeros (n : ℕ) : AllDigits (zeros n) := by
  intro c hc
  rw [List.eq_of_mem_replicate hc]
  decide

lemma AllDigits.append (h : AllDigits cs) (h' : AllDigits digits) : AllDigits (cs ++ digits) :=
  List.forall_mem_append.mpr ⟨h, h'⟩

lemma allDigits_drop (h : AllDigits digits) (count : ℕ) : AllDigits (digits.drop count) :=
  fun c hc => h c (List.mem_of_mem_drop hc)

lemma takeDigits_append (h : AllDigits digits) (hrest : DigitsEnd rest) :
    takeDigits (digits ++ rest) = (digits, rest) := by
  rw [takeDigits, List.takeWhile_append_of_pos h, List.dropWhile_append_of_pos h]
  cases rest with
  | nil => simp
  | cons c rest => simp [hrest c rfl]

lemma takeFraction_point (h : AllDigits digits) (hne : digits ≠ []) (hrest : DigitsEnd rest) :
    takeFraction ('.' :: (digits ++ rest)) = (digits, rest) := by
  have hempty : digits.isEmpty = false := by simpa using hne
  simp [takeFraction, takeDigits_append h hrest, hempty]

lemma takeFraction_end (h : NumberEnds rest) : takeFraction rest = ([], rest) := by
  cases rest with
  | nil => rfl
  | cons c rest =>
      have hc := (h c rfl).2.1
      unfold takeFraction
      split
      · next heq => exact absurd (List.cons.inj heq).1 hc
      · rfl

lemma takeExponent_mark (negative : Bool) (h : AllDigits digits) (hne : digits ≠ [])
    (hrest : DigitsEnd rest) :
    takeExponent ('e' :: (if negative then '-' else '+') :: (digits ++ rest)) =
      (some (if negative then -(digitsValue digits : ℤ) else digitsValue digits), rest) := by
  have hempty : digits.isEmpty = false := by simpa using hne
  cases negative <;> simp [takeExponent, takeDigits_append h hrest, hempty]

lemma takeExponent_end (h : NumberEnds rest) : takeExponent rest = (none, rest) := by
  cases rest with
  | nil => rfl
  | cons c rest =>
      obtain ⟨-, -, he, hE⟩ := h c rfl
      simp [takeExponent, he, hE]

/-- The digits before the point: a zero does not stand before others. -/
structure IsWhole (whole : List Char) : Prop where
  allDigits : AllDigits whole
  ne_nil : whole ≠ []
  leading : whole.head? = some '0' → whole = ['0']

/-- What a number is read as, from its parts. -/
lemma number_of_parts (opened : ℕ) (negative : Bool) (hwhole : IsWhole whole)
    (hcs : DigitsEnd cs) {after : List Char} (hfraction : takeFraction cs = (fraction, after))
    (hexponent : takeExponent after = (exponent?, rest)) :
    number opened negative (whole ++ cs) =
      if fraction.isEmpty && exponent?.isNone then
        if maxDigits < whole.length then .error ⟨.tooManyDigits whole.length, opened⟩
        else .ok (.int (if negative then -(digitsValue whole : ℤ) else digitsValue whole), rest)
      else .ok (.float (.ofParts negative whole fraction (exponent?.getD 0)), rest) := by
  obtain ⟨c, others, rfl⟩ := List.exists_cons_of_ne_nil hwhole.ne_nil
  by_cases hc : c = '0'
  · subst hc
    obtain rfl := (List.cons.inj (hwhole.leading rfl)).2
    simp [number, hfraction, hexponent]
  · have hdigits := takeDigits_append hwhole.allDigits hcs
    rw [List.cons_append] at hdigits
    simp [number, hc, hdigits, hfraction, hexponent]

/-! ### Texts of numbers -/

/-- A text that is read as a number, whatever ends it, and that starts with a digit. -/
structure NumberText (negative : Bool) (cs : List Char) (result : Json) : Prop where
  head : ∃ c rest, cs = c :: rest ∧ c.isDigit = true
  reads : ∀ opened rest, NumberEnds rest →
    number opened negative (cs ++ rest) = .ok (result, rest)

lemma IsWhole.head (h : IsWhole whole) (cs : List Char) :
    ∃ c rest, whole ++ cs = c :: rest ∧ c.isDigit = true := by
  obtain ⟨c, others, rfl⟩ := List.exists_cons_of_ne_nil h.ne_nil
  exact ⟨c, others ++ cs, rfl, h.allDigits c List.mem_cons_self⟩

lemma isWhole_toDigits (n : ℕ) : IsWhole (Nat.toDigits 10 n) where
  allDigits := allDigits_toDigits n
  ne_nil := Nat.toDigits_ne_nil
  leading h := by
    rcases Nat.eq_zero_or_pos n with rfl | hpos
    · rfl
    · exact absurd h (head?_toDigits hpos)

/-- **Whole numbers** are read back, if their digits are not too many. -/
lemma numberText_digits (negative : Bool) {n : ℕ} (h : (Nat.toDigits 10 n).length ≤ maxDigits) :
    NumberText negative (Nat.toDigits 10 n) (.int (if negative then -(n : ℤ) else n)) where
  head := by simpa using (isWhole_toDigits n).head []
  reads opened rest hrest := by
    rw [number_of_parts opened negative (isWhole_toDigits n) hrest.digitsEnd
      (takeFraction_end hrest) (takeExponent_end hrest), digitsValue_toDigits]
    simp [not_lt.mpr h]

/-- A number with digits after its point, and perhaps an exponent. -/
lemma numberText_of_fraction (negative : Bool) (hwhole : IsWhole whole) (h : AllDigits fraction)
    (hne : fraction ≠ []) :
    NumberText negative (whole ++ '.' :: fraction)
      (.float (.ofParts negative whole fraction 0)) where
  head := hwhole.head _
  reads opened rest hrest := by
    have hempty : fraction.isEmpty = false := by simpa using hne
    rw [List.append_assoc, List.cons_append,
      number_of_parts opened negative hwhole (digitsEnd_cons rfl _)
        (takeFraction_point h hne hrest.digitsEnd) (takeExponent_end hrest), hempty]
    rfl

/-- A number with an exponent, and perhaps with digits after its point. -/
lemma numberText_of_exponent (negative negativeExponent : Bool) (hwhole : IsWhole whole)
    (h : AllDigits fraction) (hd : AllDigits digits) (hne : digits ≠ []) :
    NumberText negative
      (whole ++ (if fraction = [] then [] else '.' :: fraction) ++
        'e' :: (if negativeExponent then '-' else '+') :: digits)
      (.float (.ofParts negative whole fraction
        (if negativeExponent then -(digitsValue digits : ℤ) else digitsValue digits))) where
  head := by
    rw [List.append_assoc]
    exact hwhole.head _
  reads opened rest hrest := by
    have hmark := takeExponent_mark negativeExponent hd hne hrest.digitsEnd
    by_cases hfraction : fraction = []
    · subst hfraction
      have hnone (tail : List Char) : takeFraction ('e' :: tail) = ([], 'e' :: tail) := rfl
      rw [if_pos rfl, List.append_nil, List.append_assoc, List.cons_append, List.cons_append,
        number_of_parts opened negative hwhole (digitsEnd_cons rfl _) (hnone _) hmark]
      rfl
    · rw [if_neg hfraction, List.append_assoc, List.append_assoc, List.cons_append,
        List.cons_append, List.cons_append,
        number_of_parts opened negative hwhole (digitsEnd_cons rfl _)
          (takeFraction_point h hfraction (digitsEnd_cons rfl _)) hmark]
      simp

/-! ### The layout of a number -/

section Layout

variable (h : AllDigits digits) (hne : digits ≠ []) (hhead : digits.head? ≠ some '0') (point : ℤ)
include h hne

lemma isWhole_take (hhead : digits.head? ≠ some '0') {count : ℕ} (hcount : 0 < count) :
    IsWhole (digits.take count) where
  allDigits c hc := h c (List.mem_of_mem_take hc)
  ne_nil := by
    rw [Ne, List.take_eq_nil_iff, not_or]
    exact ⟨hcount.ne', hne⟩
  leading hzero := by
    rw [List.head?_take, if_neg hcount.ne'] at hzero
    exact absurd hzero hhead

/-- A number below one, with zeros behind its point. -/
lemma numberText_small (negative : Bool) (hpoint : point ≤ 0) :
    NumberText negative ('0' :: '.' :: zeros (-point).toNat ++ digits)
      (.float (.ofDecimal negative (digitsValue digits) (point - digits.length))) := by
  have hzero : IsWhole ['0'] := ⟨allDigits_zeros 1, by decide, fun _ => rfl⟩
  have htext := numberText_of_fraction negative hzero
    ((allDigits_zeros (-point).toNat).append h) (by simp [hne])
  have hvalue : digitsValue (['0'] ++ (zeros (-point).toNat ++ digits)) = digitsValue digits := by
    rw [digitsValue_append, digitsValue_append, digitsValue_zeros]
    simp [digitsValue]
  have hscale : 0 - ((zeros (-point).toNat ++ digits).length : ℤ) = point - digits.length := by
    rw [List.length_append, length_zeros]
    omega
  rw [Binary64.ofParts, hvalue, hscale] at htext
  exact htext

include hhead

/-- A whole number, with zeros behind its digits and a last one behind its point. -/
lemma numberText_large (negative : Bool) (hpoint : digits.length ≤ point.toNat) :
    NumberText negative (digits ++ zeros (point.toNat - digits.length) ++ ['.', '0'])
      (.float (.ofDecimal negative (digitsValue digits) (point - digits.length))) := by
  have hwhole : IsWhole (digits ++ zeros (point.toNat - digits.length)) := by
    refine ⟨h.append (allDigits_zeros _), by simp [hne], fun hzero => absurd ?_ hhead⟩
    rwa [List.head?_append_of_ne_nil _ hne] at hzero
  have htext := numberText_of_fraction negative hwhole (allDigits_zeros 1) (by decide)
  have hpos : 0 < digits.length := List.length_pos_of_ne_nil hne
  have hvalue : digitsValue (digits ++ zeros (point.toNat - digits.length) ++ zeros 1) =
      digitsValue digits * 10 ^ (point.toNat - digits.length + 1) := by
    rw [digitsValue_append, digitsValue_append, digitsValue_zeros, digitsValue_zeros, length_zeros,
      length_zeros, Nat.add_zero, Nat.add_zero, mul_assoc, ← pow_add]
  have hdecimal : Binary64.ofDecimal negative
      (digitsValue digits * 10 ^ (point.toNat - digits.length + 1)) (0 - 1) =
        Binary64.ofDecimal negative (digitsValue digits) (point - digits.length) := by
    refine Binary64.ofDecimal_congr negative ?_
    have hscale :
        ((point.toNat - digits.length + 1 : ℕ) : ℤ) + (0 - 1) = point - digits.length := by omega
    rw [← hscale, zpow_add₀ (by norm_num), zpow_natCast]
    push_cast
    ring
  rw [Binary64.ofParts, hvalue, length_zeros, Nat.cast_one, hdecimal] at htext
  exact htext

/-- A number with its point among its digits. -/
lemma numberText_between (negative : Bool) (hpos : 0 < point)
    (hpoint : point.toNat < digits.length) :
    NumberText negative (digits.take point.toNat ++ '.' :: digits.drop point.toNat)
      (.float (.ofDecimal negative (digitsValue digits) (point - digits.length))) := by
  have hcount : 0 < point.toNat := by omega
  have hfraction : digits.drop point.toNat ≠ [] := by
    rw [Ne, List.drop_eq_nil_iff]
    omega
  have htext := numberText_of_fraction negative (isWhole_take h hne hhead hcount)
    (allDigits_drop h point.toNat) hfraction
  have hscale : 0 - ((digits.drop point.toNat).length : ℤ) = point - digits.length := by
    rw [List.length_drop]
    omega
  rw [Binary64.ofParts, List.take_append_drop, hscale] at htext
  exact htext

/-- A number with one digit before its point, and an exponent. -/
lemma numberText_scientific (negative : Bool) (e : ℤ) (padding : ℕ) :
    NumberText negative
      (digits.take 1 ++ (if digits.length ≤ 1 then [] else '.' :: digits.drop 1) ++
        ['e', if e < 0 then '-' else '+'] ++ zeros padding ++ Nat.toDigits 10 e.natAbs)
      (.float (.ofDecimal negative (digitsValue digits) (e + 1 - digits.length))) := by
  have hwhole := isWhole_take h hne hhead Nat.one_pos
  have htext := numberText_of_exponent negative (decide (e < 0)) hwhole (allDigits_drop h 1)
    ((allDigits_zeros padding).append (allDigits_toDigits e.natAbs))
    (by simp [Nat.toDigits_ne_nil])
  have hvalue : digitsValue (zeros padding ++ Nat.toDigits 10 e.natAbs) = e.natAbs := by
    rw [digitsValue_append, digitsValue_zeros, digitsValue_toDigits, Nat.zero_mul, Nat.zero_add]
  have hexponent : (if decide (e < 0) then -(e.natAbs : ℤ) else e.natAbs) = e := by
    simp only [decide_eq_true_eq]
    split_ifs <;> omega
  have hpos : 0 < digits.length := List.length_pos_of_ne_nil hne
  have hscale : e - ((digits.drop 1).length : ℤ) = e + 1 - digits.length := by
    rw [List.length_drop]
    omega
  rw [Binary64.ofParts, List.take_append_drop, hvalue, hexponent, hscale] at htext
  simpa only [List.drop_eq_nil_iff, decide_eq_true_eq, List.append_assoc, List.cons_append,
    List.nil_append] using htext

/-- **Every layout is read** as the number that its digits and its point make. -/
lemma numberText_layout (negative : Bool) :
    NumberText negative (numberStyle.layout digits point)
      (.float (.ofDecimal negative (digitsValue digits) (point - digits.length))) := by
  unfold NumberStyle.layout
  simp only
  split
  · have htext := numberText_scientific h hne hhead negative (point - 1)
      (numberStyle.exponentDigits - (Nat.toDigits 10 (point - 1).natAbs).length)
    rw [sub_add_cancel] at htext
    exact htext
  · split
    · next hsmall => exact numberText_small h hne point negative hsmall
    · split
      · next hlarge => exact numberText_large h hne hhead point negative hlarge
      · next hsmall hlarge =>
        exact numberText_between h hne hhead point negative (by omega) (by omega)

end Layout

/-- **Every finite number is read back**: its text is a sign and the text of a number. -/
lemma exists_numberText (negative : Bool) {m : ℕ} {e : ℤ} (h : Binary64.Canonical m e) :
    ∃ cs, numberStyle.text (.finite negative m e) = (if negative then ['-'] else []) ++ cs ∧
      NumberText negative cs (.float (.finite negative m e)) := by
  rcases Nat.eq_zero_or_pos m with rfl | hm
  · have hleast : e = -1074 := by
      rcases h.full with hfull | hleast
      · exact absurd hfull (by decide)
      · exact hleast
    have hzero : IsWhole ['0'] := ⟨allDigits_zeros 1, by decide, fun _ => rfl⟩
    have htext := numberText_of_fraction negative hzero (allDigits_zeros 1) (by decide)
    subst hleast
    exact ⟨['0', '.', '0'], rfl, htext⟩
  · have hread := Binary64.ofDecimal_withoutZeros negative h hm
    have hdigits : 0 < (Binary64.shortest m e).digits := by
      refine Nat.pos_of_ne_zero fun hzero => hm.ne' ?_
      have hshortest := Binary64.ofDecimal_shortest negative h hm
      rw [hzero] at hshortest
      exact (Binary64.finite.inj hshortest).2.1.symm
    obtain ⟨hne, hhead⟩ := head?_withoutZeros Nat.toDigits_ne_nil (head?_toDigits hdigits)
    have hall : AllDigits (withoutZeros (Nat.toDigits 10 (Binary64.shortest m e).digits)) :=
      fun c hc => allDigits_toDigits _ c ((prefix_withoutZeros _).subset hc)
    have htext := numberText_layout hall hne hhead
      ((Nat.toDigits 10 (Binary64.shortest m e).digits).length + (Binary64.shortest m e).scale)
      negative
    rw [hread] at htext
    refine ⟨_, ?_, htext⟩
    unfold NumberStyle.text
    simp only [if_neg hm.ne']
    rfl

end RequestSuite.Json
