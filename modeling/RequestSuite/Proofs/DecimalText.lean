/-
Decimal digits and the binary numbers that are read from them.

* `digitsValue_append`, `digitsValue_zeros`, `digitsValue_toDigits`: what digits amount to;
* `head?_toDigits`, `exists_withoutZeros`: the digits of a number have no zero in front, and those
  at their end can be left off;
* `size_le_iff`: the position of the first digit, by the value of a decimal number;
* `ofDecimal_congr`: what a decimal number is read as depends on its value alone;
* `ofDecimal_of_canonical`: a decimal number that is a finite binary one is read as it;
* `ofDecimal_shortest`: the shortest digits of a finite number are read as the number.
-/
import Mathlib.Data.List.TakeWhile
import RequestSuite.Decimal.Reader
import RequestSuite.Decimal.Shortest
import RequestSuite.Proofs.NearestNumber

namespace RequestSuite

/-! ### Digits -/

lemma digitsValue_eq (cs : List Char) : digitsValue cs = Nat.ofDigitChars 10 cs 0 := by
  rw [Nat.ofDigitChars_eq_foldl, digitsValue]
  congr 1
  funext n c
  rw [Nat.mul_comm]
  rfl

lemma digitsValue_append (s t : List Char) :
    digitsValue (s ++ t) = digitsValue s * 10 ^ t.length + digitsValue t := by
  rw [digitsValue_eq, Nat.ofDigitChars_append, Nat.ofDigitChars_eq_ofDigitChars_zero,
    ← digitsValue_eq, ← digitsValue_eq, Nat.mul_comm]

lemma digitsValue_zeros (n : ℕ) : digitsValue (zeros n) = 0 := by
  rw [digitsValue_eq, zeros, Nat.ofDigitChars_replicate_zero, Nat.mul_zero]

lemma length_zeros (n : ℕ) : (zeros n).length = n := List.length_replicate

lemma digitsValue_toDigits (n : ℕ) : digitsValue (Nat.toDigits 10 n) = n := by
  rw [digitsValue_eq, Nat.ofDigitChars_ten_toDigits]

/-- The digits of a positive number do not start with a zero. -/
lemma head?_toDigits {n : ℕ} (h : 0 < n) : (Nat.toDigits 10 n).head? ≠ some '0' := by
  induction n using Nat.strong_induction_on with
  | _ n ih =>
      rw [Nat.toDigits_eq_if (by omega)]
      split_ifs with hn
      · interval_cases n <;> decide
      · rw [List.head?_append_of_ne_nil _ Nat.toDigits_ne_nil]
        exact ih (n / 10) (by omega) (by omega)

/-- Digits without the zeros at their end. -/
def withoutZeros (digits : List Char) : List Char :=
  (digits.reverse.dropWhile (· == '0')).reverse

/-- The zeros at the end can be put back. -/
lemma exists_withoutZeros (digits : List Char) :
    ∃ count, digits = withoutZeros digits ++ zeros count := by
  have hsplit := List.takeWhile_append_dropWhile (p := (· == '0')) (l := digits.reverse)
  have hzeros : digits.reverse.takeWhile (· == '0') =
      zeros (digits.reverse.takeWhile (· == '0')).length :=
    List.eq_replicate_iff.mpr
      ⟨rfl, fun c hc => beq_iff_eq.mp (List.mem_takeWhile_imp (p := (· == '0')) hc)⟩
  refine ⟨(digits.reverse.takeWhile (· == '0')).length, ?_⟩
  have hreverse := congrArg List.reverse hsplit
  rw [List.reverse_append, List.reverse_reverse, hzeros, zeros, List.reverse_replicate] at hreverse
  exact hreverse.symm

lemma prefix_withoutZeros (digits : List Char) : withoutZeros digits <+: digits := by
  obtain ⟨count, hcount⟩ := exists_withoutZeros digits
  exact ⟨zeros count, hcount.symm⟩

/-- What is left starts as the digits did, if that is not with a zero. -/
lemma head?_withoutZeros {digits : List Char} (hne : digits ≠ [])
    (hhead : digits.head? ≠ some '0') :
    withoutZeros digits ≠ [] ∧ (withoutZeros digits).head? ≠ some '0' := by
  obtain ⟨count, hcount⟩ := exists_withoutZeros digits
  have hleft : withoutZeros digits ≠ [] := by
    intro hnil
    rw [hnil, List.nil_append] at hcount
    cases count with
    | zero => exact hne hcount
    | succ count => exact hhead (by rw [hcount]; rfl)
  refine ⟨hleft, ?_⟩
  rwa [hcount, List.head?_append_of_ne_nil _ hleft] at hhead

/-! ### The value of a decimal number -/

lemma cast_power_ten (digits : ℕ) (scale : ℤ) :
    ((digits * power 10 scale : ℕ) : ℚ) / power 10 (-scale) = digits * 10 ^ scale := by
  have hcast := cast_power_div (show 0 < 10 by decide) scale
  rw [Nat.cast_ofNat] at hcast
  rw [Nat.cast_mul, mul_div_assoc, hcast]

/-- The first digit of a decimal number stands below a power of ten if the number does. -/
lemma size_le_iff {digits : ℕ} (h : 0 < digits) (scale k : ℤ) :
    ((Nat.toDigits 10 digits).length : ℤ) + scale ≤ k ↔ (digits : ℚ) * 10 ^ scale < 10 ^ k := by
  have hpos : 0 < (Nat.toDigits 10 digits).length := Nat.length_toDigits_pos
  have hscale : (0 : ℚ) < 10 ^ scale := by positivity
  have hten : (10 : ℚ) ≠ 0 := by norm_num
  have hshift : (10 : ℚ) ^ k = 10 ^ (k - scale) * 10 ^ scale := by
    rw [← zpow_add₀ hten, sub_add_cancel]
  rw [hshift, mul_lt_mul_iff_left₀ hscale]
  rcases le_or_gt (k - scale) 0 with hle | hgt
  · have hone : (10 : ℚ) ^ (k - scale) ≤ 1 := zpow_le_one_of_nonpos₀ (by norm_num) hle
    have hdigits : (1 : ℚ) ≤ digits := by exact_mod_cast h
    exact iff_of_false (by omega) (not_lt.mpr (hone.trans hdigits))
  · obtain ⟨n, hn⟩ := Int.eq_ofNat_of_zero_le hgt.le
    have hiff := Nat.length_toDigits_le_iff (n := digits) (show 1 < 10 by decide)
      (show 0 < n by omega)
    rw [hn, zpow_natCast]
    have hcast : (digits : ℚ) < 10 ^ n ↔ digits < 10 ^ n := by norm_cast
    rw [hcast, ← hiff]
    omega

namespace Binary64

variable {digits digits' m : ℕ} {scale scale' e : ℤ}

/-- **What a decimal number is read as** depends on its value alone. -/
lemma ofDecimal_congr (negative : Bool)
    (h : (digits : ℚ) * 10 ^ scale = digits' * 10 ^ scale') :
    ofDecimal negative digits scale = ofDecimal negative digits' scale' := by
  have hscale : (10 : ℚ) ^ scale ≠ 0 := by positivity
  have hscale' : (10 : ℚ) ^ scale' ≠ 0 := by positivity
  have hzero : digits = 0 ↔ digits' = 0 := by
    constructor <;> rintro rfl <;> simpa [hscale, hscale'] using h
  by_cases hdigits : digits = 0
  · simp only [ofDecimal, if_pos hdigits, if_pos (hzero.mp hdigits)]
  · have hdigits' := mt hzero.mpr hdigits
    have hsize : ((Nat.toDigits 10 digits).length : ℤ) + scale =
        (Nat.toDigits 10 digits').length + scale' := by
      have hiff (k : ℤ) : ((Nat.toDigits 10 digits).length : ℤ) + scale ≤ k ↔
          ((Nat.toDigits 10 digits').length : ℤ) + scale' ≤ k := by
        rw [size_le_iff (Nat.pos_of_ne_zero hdigits), size_le_iff (Nat.pos_of_ne_zero hdigits'), h]
      exact le_antisymm ((hiff _).mpr le_rfl) ((hiff _).mp le_rfl)
    have hratio : ofRatio negative (digits * power 10 scale) (power 10 (-scale)) =
        ofRatio negative (digits' * power 10 scale') (power 10 (-scale')) :=
      ofRatio_congr negative (power_pos (by decide) _) (power_pos (by decide) _)
        (by rw [cast_power_ten, cast_power_ten, h])
    simp only [ofDecimal, if_neg hdigits, if_neg hdigits', hsize, hratio]

lemma range_bounds : 2 ^ 1074 ≤ 10 ^ 331 ∧ 2 ^ 1024 < 10 ^ 310 := by decide +kernel

/-- The values of finite numbers lie within these bounds. -/
lemma Canonical.value_bounds (h : Canonical m e) (hm : 0 < m) :
    (10 : ℚ) ^ (-331 : ℤ) ≤ m * 2 ^ e ∧ (m : ℚ) * 2 ^ e < 10 ^ (310 : ℤ) := by
  obtain ⟨hleast, hgreatest⟩ := range_bounds
  constructor
  · have hone : (1 : ℚ) ≤ m := by exact_mod_cast hm
    have hpower : (2 : ℚ) ^ (-1074 : ℤ) ≤ 2 ^ e :=
      zpow_le_zpow_right₀ one_le_two h.exponent_ge
    have hbound : (10 : ℚ) ^ (-331 : ℤ) ≤ 2 ^ (-1074 : ℤ) := by
      rw [zpow_neg, zpow_neg]
      refine inv_anti₀ (by positivity) ?_
      exact_mod_cast hleast
    calc (10 : ℚ) ^ (-331 : ℤ) ≤ 1 * 2 ^ (-1074 : ℤ) := by rwa [one_mul]
      _ ≤ m * 2 ^ e := by gcongr
  · have hlt : (m : ℚ) < 2 ^ (53 : ℤ) := by exact_mod_cast h.mantissa_lt
    have hpower : (2 : ℚ) ^ e ≤ 2 ^ (971 : ℤ) := zpow_le_zpow_right₀ one_le_two h.exponent_le
    calc (m : ℚ) * 2 ^ e < 2 ^ (53 : ℤ) * 2 ^ e := by gcongr
      _ ≤ 2 ^ (53 : ℤ) * 2 ^ (971 : ℤ) := mul_le_mul_of_nonneg_left hpower (by positivity)
      _ = 2 ^ (1024 : ℤ) := by rw [← zpow_add₀ two_ne_zero]; rfl
      _ < 10 ^ (310 : ℤ) := by exact_mod_cast hgreatest

/-- **A decimal number that is a finite binary one** is read as it. -/
lemma ofDecimal_of_canonical (negative : Bool) (h : Canonical m e) (hm : 0 < m)
    (hvalue : (digits : ℚ) * 10 ^ scale = m * 2 ^ e) :
    ofDecimal negative digits scale = .finite negative m e := by
  obtain ⟨hlow, hhigh⟩ := h.value_bounds hm
  have hdigits : digits ≠ 0 := by
    rintro rfl
    have hpos : (0 : ℚ) < m * 2 ^ e := lt_of_lt_of_le (by positivity) hlow
    rw [← hvalue, Nat.cast_zero, zero_mul] at hpos
    exact lt_irrefl _ hpos
  rw [← hvalue] at hlow hhigh
  have hbelow := (size_le_iff (Nat.pos_of_ne_zero hdigits) scale 310).mpr hhigh
  have habove := mt (size_le_iff (Nat.pos_of_ne_zero hdigits) scale (-331)).mp (not_lt.mpr hlow)
  simp only [ofDecimal, if_neg hdigits, if_neg (not_lt.mpr hbelow)]
  rw [if_neg (by omega)]
  exact ofRatio_of_canonical negative h hm (power_pos (by decide) _)
    ((cast_power_ten _ _).trans hvalue)

lemma getD_find?_cases {α : Type} (p : α → Bool) (l : List α) (d : α) :
    p ((l.find? p).getD d) = true ∨ (l.find? p).getD d = d := by
  cases h : l.find? p with
  | none => exact Or.inr rfl
  | some a => exact Or.inl (List.find?_some h)

/-- The shortest digits are read as the number, or are its exact value. -/
lemma shortest_cases (m : ℕ) (e : ℤ) :
    ofDecimal false (shortest m e).digits (shortest m e).scale = .finite false m e ∨
      shortest m e =
        if e ≥ 0 then ⟨m * power 2 e, 0⟩ else ⟨m * power 5 (-e), e⟩ := by
  have hcases := getD_find?_cases
    (fun d : Digits => ofDecimal false d.digits d.scale == .finite false m e)
    ((List.range 17).flatMap fun i => neighbours (m * power 2 e) (power 2 (-e))
      (places (m * power 2 e) (power 2 (-e)) - (i + 1 : ℕ)))
    (if e ≥ 0 then ⟨m * power 2 e, 0⟩ else ⟨m * power 5 (-e), e⟩)
  exact hcases.imp_left beq_iff_eq.mp

/-- **The shortest digits** of a finite number are read as the number. -/
lemma ofDecimal_shortest (negative : Bool) (h : Canonical m e) (hm : 0 < m) :
    ofDecimal negative (shortest m e).digits (shortest m e).scale = .finite negative m e := by
  rcases shortest_cases m e with hreads | hexact
  · exact ofDecimal_sign hreads negative
  · refine ofDecimal_of_canonical negative h hm ?_
    rw [hexact]
    split_ifs with he
    · obtain ⟨n, rfl⟩ := Int.eq_ofNat_of_zero_le he
      simp [power]
    · obtain ⟨n, rfl⟩ : ∃ n : ℕ, e = -n := ⟨(-e).toNat, by omega⟩
      have hten : (10 : ℚ) ^ n = 5 ^ n * 2 ^ n := by
        rw [← mul_pow]
        norm_num
      simp only [power, Nat.pow_eq, neg_neg, Int.toNat_natCast, zpow_neg, zpow_natCast, hten]
      push_cast
      field_simp

/-- So are these digits with the zeros at their end left off. -/
lemma ofDecimal_withoutZeros (negative : Bool) (h : Canonical m e) (hm : 0 < m) :
    ofDecimal negative (digitsValue (withoutZeros (Nat.toDigits 10 (shortest m e).digits)))
      ((Nat.toDigits 10 (shortest m e).digits).length + (shortest m e).scale -
        (withoutZeros (Nat.toDigits 10 (shortest m e).digits)).length) =
      .finite negative m e := by
  set digits := Nat.toDigits 10 (shortest m e).digits with hdigits
  obtain ⟨count, hcount⟩ := exists_withoutZeros digits
  have hvalue : (shortest m e).digits = digitsValue (withoutZeros digits) * 10 ^ count := by
    have happend := congrArg digitsValue hcount
    rwa [digitsValue_append, digitsValue_zeros, length_zeros, Nat.add_zero, hdigits,
      digitsValue_toDigits, ← hdigits] at happend
  have hlength := congrArg List.length hcount
  rw [List.length_append, length_zeros] at hlength
  rw [← ofDecimal_shortest negative h hm]
  refine ofDecimal_congr negative ?_
  have hscale : (digits.length : ℤ) + (shortest m e).scale - (withoutZeros digits).length =
      count + (shortest m e).scale := by omega
  rw [hscale, zpow_add₀ (by norm_num), zpow_natCast]
  conv_rhs => rw [hvalue]
  push_cast
  ring

end Binary64

end RequestSuite
