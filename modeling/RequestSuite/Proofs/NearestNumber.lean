/-
The binary number nearest to a quotient.

* `cast_power_div`: the two sides of a power are its numerator and denominator;
* `floorLog2_eq`: the exponent that is found is the binary logarithm of the quotient;
* `ofRatio_congr`: the nearest number depends on the value of the quotient alone;
* `Canonical`: mantissa and exponent of a finite number; `ofRatio_of_canonical`: such a number is
  nearest to its own value, and `canonical_of_ofRatio`, `canonical_of_ofDecimal`: every finite
  number that comes out has such;
* `ofRatio_of_large`: values out of range are infinite; `exists_canonical`: what a short mantissa
  and an exponent amount to is a finite number, unless it is out of range;
* `ofRatio_sign`, `ofDecimal_sign`: both signs are alike.
-/
import Mathlib.Data.Int.Log
import Mathlib.Tactic
import RequestSuite.Decimal.Binary64

namespace RequestSuite

/-! ### Powers and quotients -/

lemma power_pos {base : ℕ} (h : 0 < base) (e : ℤ) : 0 < power base e := Nat.pow_pos h

lemma cast_power_div {base : ℕ} (h : 0 < base) (e : ℤ) :
    (power base e : ℚ) / power base (-e) = (base : ℚ) ^ e := by
  have hbase : (base : ℚ) ≠ 0 := by exact_mod_cast h.ne'
  rcases Int.eq_nat_or_neg e with ⟨n, rfl | rfl⟩
  · simp [power]
  · simp [power]

/-- Where a quotient has the same factor above and below, it is rounded as without it. -/
lemma roundQuotient_mul {k : ℕ} (hk : 0 < k) (num den : ℕ) :
    roundQuotient (k * num) (k * den) = roundQuotient num den := by
  have hless : k * den < 2 * (k * (num % den)) ↔ den < 2 * (num % den) := by
    rw [Nat.mul_left_comm, Nat.mul_lt_mul_left hk]
  have htie : 2 * (k * (num % den)) = k * den ↔ 2 * (num % den) = den := by
    rw [Nat.mul_left_comm, Nat.mul_right_inj hk.ne']
  simp only [roundQuotient, Nat.mul_div_mul_left _ _ hk, Nat.mul_mod_mul_left, hless, beq_eq_decide,
    htie]

lemma roundQuotient_congr {num den num' den' : ℕ} (hden : 0 < den) (hden' : 0 < den')
    (h : num * den' = num' * den) : roundQuotient num den = roundQuotient num' den' := by
  rw [← roundQuotient_mul hden' num den, ← roundQuotient_mul hden num' den', Nat.mul_comm den' num,
    h, Nat.mul_comm num' den, Nat.mul_comm den' den]

lemma roundQuotient_bounds (num den : ℕ) :
    num / den ≤ roundQuotient num den ∧ roundQuotient num den ≤ num / den + 1 := by
  simp only [roundQuotient]
  split_ifs <;> omega

/-! ### Binary logarithms -/

namespace Binary64

variable {negative negative' : Bool} {num den num' den' m : ℕ} {e : ℤ}

/-- **The exponent that is found** is the binary logarithm of the quotient. -/
lemma floorLog2_eq (hnum : 0 < num) (hden : 0 < den) :
    floorLog2 num den = Int.log 2 ((num : ℚ) / den) := by
  have hn : (0 : ℚ) < num := by exact_mod_cast hnum
  have hd : (0 : ℚ) < den := by exact_mod_cast hden
  have hq : (0 : ℚ) < num / den := div_pos hn hd
  have hnlow : (2 : ℚ) ^ num.log2 ≤ num := by exact_mod_cast Nat.log2_self_le hnum.ne'
  have hnhigh : (num : ℚ) < 2 ^ (num.log2 + 1) := by exact_mod_cast Nat.lt_log2_self
  have hdlow : (2 : ℚ) ^ den.log2 ≤ den := by exact_mod_cast Nat.log2_self_le hden.ne'
  have hdhigh : (den : ℚ) < 2 ^ (den.log2 + 1) := by exact_mod_cast Nat.lt_log2_self
  set start : ℤ := (num.log2 : ℤ) - den.log2 with hstart
  have hbelow : Int.log 2 ((num : ℚ) / den) < start + 1 := by
    rw [← Int.lt_zpow_iff_log_lt Nat.one_lt_two hq, Nat.cast_ofNat, div_lt_iff₀ hd]
    have hpower : (2 : ℚ) ^ (start + 1) * 2 ^ den.log2 = 2 ^ (num.log2 + 1) := by
      rw [← zpow_natCast, ← zpow_natCast, ← zpow_add₀ two_ne_zero]
      congr 1
      push_cast
      omega
    calc (num : ℚ) < 2 ^ (num.log2 + 1) := hnhigh
      _ = 2 ^ (start + 1) * 2 ^ den.log2 := hpower.symm
      _ ≤ 2 ^ (start + 1) * den := by gcongr
  have habove : start - 1 ≤ Int.log 2 ((num : ℚ) / den) := by
    rw [← Int.zpow_le_iff_le_log Nat.one_lt_two hq, Nat.cast_ofNat, le_div_iff₀ hd]
    have hpower : (2 : ℚ) ^ (start - 1) * 2 ^ (den.log2 + 1) = 2 ^ num.log2 := by
      rw [← zpow_natCast, ← zpow_natCast, ← zpow_add₀ two_ne_zero]
      congr 1
      push_cast
      omega
    calc (2 : ℚ) ^ (start - 1) * den ≤ 2 ^ (start - 1) * 2 ^ (den.log2 + 1) := by gcongr
      _ = 2 ^ num.log2 := hpower
      _ ≤ num := hnlow
  have htest : den * power 2 start ≤ num * power 2 (-start) ↔
      start ≤ Int.log 2 ((num : ℚ) / den) := by
    have hside : (0 : ℚ) < power 2 (-start) := by exact_mod_cast power_pos Nat.two_pos _
    have hcast := cast_power_div Nat.two_pos start
    rw [← Int.zpow_le_iff_le_log Nat.one_lt_two hq, ← hcast, div_le_div_iff₀ hside hd]
    norm_cast
    rw [Nat.mul_comm den]
  simp only [floorLog2, ← hstart, htest]
  split_ifs <;> omega

lemma floorLog2_congr (hnum : 0 < num) (hden : 0 < den) (hnum' : 0 < num') (hden' : 0 < den')
    (h : (num : ℚ) / den = num' / den') : floorLog2 num den = floorLog2 num' den' := by
  rw [floorLog2_eq hnum hden, floorLog2_eq hnum' hden', h]

/-- **The nearest number depends on the value of the quotient alone.** -/
lemma ofRatio_congr (negative : Bool) (hden : 0 < den) (hden' : 0 < den')
    (h : (num : ℚ) / den = num' / den') :
    ofRatio negative num den = ofRatio negative num' den' := by
  have hd : (den : ℚ) ≠ 0 := by exact_mod_cast hden.ne'
  have hd' : (den' : ℚ) ≠ 0 := by exact_mod_cast hden'.ne'
  have hcross : num * den' = num' * den := by
    rw [div_eq_div_iff hd hd'] at h
    exact_mod_cast h
  have hzero : num = 0 ↔ num' = 0 := by
    constructor <;> rintro rfl <;> simpa [hden.ne', hden'.ne'] using hcross
  by_cases hnum : num = 0
  · simp only [ofRatio, if_pos hnum, if_pos (hzero.mp hnum)]
  · have hnum' := mt hzero.mpr hnum
    have hlog := floorLog2_congr (Nat.pos_of_ne_zero hnum) hden (Nat.pos_of_ne_zero hnum') hden' h
    simp only [ofRatio, if_neg hnum, if_neg hnum', hlog]
    set e := max (floorLog2 num' den' - 52) leastExponent
    have hround : roundQuotient (num * power 2 (-e)) (den * power 2 e) =
        roundQuotient (num' * power 2 (-e)) (den' * power 2 e) := by
      refine roundQuotient_congr (Nat.mul_pos hden (power_pos Nat.two_pos _))
        (Nat.mul_pos hden' (power_pos Nat.two_pos _)) ?_
      rw [Nat.mul_mul_mul_comm, hcross, Nat.mul_mul_mul_comm]
    rw [hround]

/-! ### Finite numbers -/

/-- Mantissa and exponent of a finite number: the exponent is the least that the mantissa allows. -/
structure Canonical (m : ℕ) (e : ℤ) : Prop where
  mantissa_lt : m < 2 ^ 53
  exponent_ge : -1074 ≤ e
  exponent_le : e ≤ 971
  full : 2 ^ 52 ≤ m ∨ e = -1074

/-- A bound on a quotient in the scale of an exponent. -/
lemma scaled_lt_iff (hden : 0 < den) (k : ℕ) (e : ℤ) :
    num * power 2 (-e) < k * (den * power 2 e) ↔ (num : ℚ) / den < k * 2 ^ e := by
  have hd : (0 : ℚ) < den := by exact_mod_cast hden
  have hside : (0 : ℚ) < power 2 (-e) := by exact_mod_cast power_pos Nat.two_pos _
  have hcast := cast_power_div Nat.two_pos e
  rw [Nat.cast_ofNat] at hcast
  rw [← hcast, ← mul_div_assoc, div_lt_div_iff₀ hd hside, ← Nat.cast_lt (α := ℚ)]
  push_cast
  rw [mul_right_comm (k : ℚ), mul_assoc (k : ℚ) den]

/-- A quotient that is a whole number in the scale of an exponent. -/
lemma scaled_eq (hden : 0 < den) (h : (num : ℚ) / den = m * 2 ^ e) :
    num * power 2 (-e) = m * (den * power 2 e) := by
  have hd : (den : ℚ) ≠ 0 := by exact_mod_cast hden.ne'
  have hside : (power 2 (-e) : ℚ) ≠ 0 := by exact_mod_cast (power_pos Nat.two_pos _).ne'
  have hcast := cast_power_div Nat.two_pos e
  rw [Nat.cast_ofNat] at hcast
  rw [← hcast, ← mul_div_assoc, div_eq_div_iff hd hside] at h
  have hnat : (num : ℚ) * power 2 (-e) = m * (den * power 2 e) := by
    rw [h]
    ring
  exact_mod_cast hnat

/-- **A finite number is nearest to its own value.** -/
lemma ofRatio_of_canonical (negative : Bool) (h : Canonical m e) (hm : 0 < m) (hden : 0 < den)
    (hvalue : (num : ℚ) / den = m * 2 ^ e) : ofRatio negative num den = .finite negative m e := by
  have hmq : (0 : ℚ) < m := by exact_mod_cast hm
  have hscale : (0 : ℚ) < 2 ^ e := by positivity
  have hq : (0 : ℚ) < num / den := hvalue ▸ mul_pos hmq hscale
  have hnum : num ≠ 0 := by
    rintro rfl
    simp at hq
  have hbelow : Int.log 2 ((num : ℚ) / den) < 53 + e := by
    rw [← Int.lt_zpow_iff_log_lt Nat.one_lt_two hq, hvalue, Nat.cast_ofNat,
      zpow_add₀ two_ne_zero]
    have hlt : (m : ℚ) < 2 ^ (53 : ℤ) := by exact_mod_cast h.mantissa_lt
    gcongr
  have hexponent : max (floorLog2 num den - 52) leastExponent = e := by
    rw [floorLog2_eq (Nat.pos_of_ne_zero hnum) hden, leastExponent]
    have hge := h.exponent_ge
    rcases h.full with hfull | rfl
    · have habove : 52 + e ≤ Int.log 2 ((num : ℚ) / den) := by
        rw [← Int.zpow_le_iff_le_log Nat.one_lt_two hq, hvalue, Nat.cast_ofNat,
          zpow_add₀ two_ne_zero]
        have hle : (2 : ℚ) ^ (52 : ℤ) ≤ m := by exact_mod_cast hfull
        gcongr
      omega
    · omega
  have hwhole : m ≠ power 2 53 := h.mantissa_lt.ne
  have hround : roundQuotient (num * power 2 (-e)) (den * power 2 e) = m := by
    rw [scaled_eq hden hvalue]
    exact roundQuotient_exact (Nat.mul_pos hden (power_pos Nat.two_pos _))
  simp only [ofRatio, if_neg hnum, hexponent, hround, if_neg hwhole, ofMantissa,
    if_neg (not_lt.mpr h.exponent_le)]

/-- **Every finite number that comes out** has the least exponent, and the sign that is asked
for. -/
lemma canonical_of_ofRatio (hden : 0 < den) (h : ofRatio negative num den = .finite negative' m e) :
    negative' = negative ∧ Canonical m e := by
  by_cases hnum : num = 0
  · rw [ofRatio, if_pos hnum, zero] at h
    obtain ⟨rfl, rfl, rfl⟩ := Binary64.finite.inj h
    exact ⟨rfl, by decide, by decide, by decide, Or.inr rfl⟩
  have hq : (0 : ℚ) < num / den := by
    have hn : (0 : ℚ) < num := by exact_mod_cast Nat.pos_of_ne_zero hnum
    have hd : (0 : ℚ) < den := by exact_mod_cast hden
    exact div_pos hn hd
  simp only [ofRatio, if_neg hnum, floorLog2_eq (Nat.pos_of_ne_zero hnum) hden] at h
  set log := Int.log 2 ((num : ℚ) / den) with hlog
  set start := max (log - 52) leastExponent with hstart
  set above := num * power 2 (-start)
  set below := den * power 2 start
  have hleast : leastExponent = -1074 := rfl
  have hpos : 0 < below := Nat.mul_pos hden (power_pos Nat.two_pos _)
  have hlt : above < 2 ^ 53 * below := by
    rw [scaled_lt_iff hden]
    have hbound : (num : ℚ) / den < 2 ^ (53 + start) := by
      have hle : log < 53 + start := by omega
      simpa using (Int.lt_zpow_iff_log_lt (R := ℚ) Nat.one_lt_two hq).mpr hle
    rwa [zpow_add₀ two_ne_zero] at hbound
  have hsmall : above / below < 2 ^ 53 := Nat.div_lt_of_lt_mul (by rwa [Nat.mul_comm])
  obtain ⟨hlow, hhigh⟩ := roundQuotient_bounds above below
  have hpower : power 2 53 = 2 ^ 53 := rfl
  have hhalf : power 2 52 = 2 ^ 52 := rfl
  split_ifs at h with hwhole
  · rw [ofMantissa] at h
    split_ifs at h with hrange
    obtain ⟨rfl, rfl, rfl⟩ := Binary64.finite.inj h
    exact ⟨rfl, by rw [hhalf]; omega, by omega, by omega, Or.inl hhalf.ge⟩
  · rw [ofMantissa] at h
    split_ifs at h with hrange
    obtain ⟨rfl, rfl, rfl⟩ := Binary64.finite.inj h
    refine ⟨rfl, by omega, by omega, by omega, ?_⟩
    rcases le_or_gt leastExponent (log - 52) with hle | hgt
    · left
      refine le_trans ?_ hlow
      rw [Nat.le_div_iff_mul_le hpos, ← not_lt, scaled_lt_iff hden, not_lt]
      have hbound : (2 : ℚ) ^ (52 + start) ≤ num / den := by
        have hle' : 52 + start ≤ log := by omega
        simpa using (Int.zpow_le_iff_le_log (R := ℚ) Nat.one_lt_two hq).mpr hle'
      rwa [zpow_add₀ two_ne_zero] at hbound
    · right
      omega

/-- **Values out of range are infinite.** -/
lemma ofRatio_of_large (negative : Bool) (hden : 0 < den) (h : (2 : ℚ) ^ 1024 ≤ num / den) :
    ofRatio negative num den = .infinite negative := by
  have hq : (0 : ℚ) < num / den := lt_of_lt_of_le (by positivity) h
  have hnum : num ≠ 0 := by
    rintro rfl
    simp at hq
  have hlog : 1024 ≤ Int.log 2 ((num : ℚ) / den) := by
    rw [← Int.zpow_le_iff_le_log Nat.one_lt_two hq]
    exact_mod_cast h
  have hstart : 971 < max (Int.log 2 ((num : ℚ) / den) - 52) leastExponent := by omega
  have hnext : 971 < max (Int.log 2 ((num : ℚ) / den) - 52) leastExponent + 1 := by omega
  simp only [ofRatio, if_neg hnum, floorLog2_eq (Nat.pos_of_ne_zero hnum) hden, ofMantissa,
    if_pos hstart, if_pos hnext, ite_self]

/-- What a short mantissa and an exponent amount to is a finite number, unless it is out of
range. -/
lemma exists_canonical (hm : 0 < m) (hlt : m < 2 ^ 53) (he : -1074 ≤ e)
    (hrange : (m : ℚ) * 2 ^ e < 2 ^ 1024) :
    ∃ m' e', Canonical m' e' ∧ 0 < m' ∧ (m' : ℚ) * 2 ^ e' = m * 2 ^ e := by
  have hlow := Nat.log2_self_le hm.ne'
  have hhigh : m < 2 ^ (m.log2 + 1) := Nat.lt_log2_self
  have hlog : m.log2 ≤ 52 := by
    have hbound := (Nat.log2_lt hm.ne').mpr hlt
    omega
  -- The mantissa is doubled until it is full or the exponent is the least one.
  set k : ℕ := min (52 - m.log2) (e + 1074).toNat with hk
  have hvalue : ((m * 2 ^ k : ℕ) : ℚ) * 2 ^ (e - k) = m * 2 ^ e := by
    push_cast
    rw [mul_assoc, ← zpow_natCast, ← zpow_add₀ two_ne_zero]
    congr 2
    ring
  have hmantissa : m * 2 ^ k < 2 ^ 53 := by
    calc m * 2 ^ k < 2 ^ (m.log2 + 1) * 2 ^ k := by gcongr
      _ = 2 ^ (m.log2 + 1 + k) := (pow_add _ _ _).symm
      _ ≤ 2 ^ 53 := Nat.pow_le_pow_right Nat.two_pos (by omega)
  have hfull : 2 ^ 52 ≤ m * 2 ^ k ∨ e - k = -1074 := by
    rcases le_or_gt (52 - m.log2) (e + 1074).toNat with hle | hgt
    · left
      calc 2 ^ 52 = 2 ^ m.log2 * 2 ^ k := by
            rw [← pow_add]
            congr 1
            omega
        _ ≤ m * 2 ^ k := by gcongr
    · right
      omega
  refine ⟨m * 2 ^ k, e - k, ⟨hmantissa, by omega, ?_, hfull⟩, by positivity, hvalue⟩
  rcases hfull with hfull | hleast
  · by_contra hlarge
    have hbound : (2 : ℚ) ^ 1024 ≤ ((m * 2 ^ k : ℕ) : ℚ) * 2 ^ (e - k) := by
      have hle : (2 : ℚ) ^ 52 ≤ ((m * 2 ^ k : ℕ) : ℚ) := by exact_mod_cast hfull
      have hexp : (2 : ℚ) ^ (972 : ℤ) ≤ 2 ^ (e - k) := zpow_le_zpow_right₀ one_le_two (by omega)
      calc (2 : ℚ) ^ 1024 = 2 ^ 52 * 2 ^ (972 : ℤ) := by rw [zpow_ofNat, ← pow_add]
        _ ≤ _ := by gcongr
    rw [hvalue] at hbound
    exact absurd hrange (not_lt.mpr hbound)
  · omega

/-! ### Signs and decimal numbers -/

lemma ofMantissa_sign {m' : ℕ} {e' : ℤ} (h : ofMantissa false m' e' = .finite false m e)
    (negative : Bool) : ofMantissa negative m' e' = .finite negative m e := by
  rw [ofMantissa] at h ⊢
  split_ifs at h ⊢
  obtain ⟨-, rfl, rfl⟩ := Binary64.finite.inj h
  rfl

lemma ofRatio_sign (h : ofRatio false num den = .finite false m e) (negative : Bool) :
    ofRatio negative num den = .finite negative m e := by
  simp only [ofRatio] at h ⊢
  split_ifs at h ⊢
  · simpa [zero] using h
  · exact ofMantissa_sign h negative
  · exact ofMantissa_sign h negative

lemma ofDecimal_sign {digits : ℕ} {scale : ℤ} (h : ofDecimal false digits scale = .finite false m e)
    (negative : Bool) : ofDecimal negative digits scale = .finite negative m e := by
  simp only [ofDecimal] at h ⊢
  split_ifs at h ⊢
  · simpa [zero] using h
  · simpa [zero] using h
  · exact ofRatio_sign h negative

/-- Every finite number that a decimal number is read as has the least exponent. -/
lemma canonical_of_ofDecimal {digits : ℕ} {scale : ℤ}
    (h : ofDecimal negative digits scale = .finite negative' m e) :
    negative' = negative ∧ Canonical m e := by
  have hzero : ∀ {n : Bool}, zero n = .finite negative' m e → negative' = n ∧ Canonical m e := by
    intro n hn
    obtain ⟨rfl, rfl, rfl⟩ := Binary64.finite.inj hn
    exact ⟨rfl, by decide, by decide, by decide, Or.inr rfl⟩
  simp only [ofDecimal] at h
  split_ifs at h
  · exact hzero h
  · exact hzero h
  · exact canonical_of_ofRatio (power_pos (by decide) _) h

end Binary64

end RequestSuite
