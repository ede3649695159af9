/-
How often a call is made again, and how long is waited.

* `Binary64.seconds`, `Binary64.IsDelay`: the length of a delay, and the numbers that are one;
* `inRange`: what a length is in the range of numbers;
* `seconds_lt_iff`, `seconds_scale`: delays are compared by their lengths, and doubled exactly;
* `seconds_delay`: the delay after some failures is the doubled base delay, at most the greatest;
* `stateAfter`, `answerAfter`: a call made over and over again;
* `RetryPolicy.retries`: how often it is made again;
* `RetriedExactly`: a call with retries as it is to be made;
* `retried_exactly_iff`: it is, exactly if no doubled delay leaves the range of numbers;
  `busy_write_retried`: at a file that is busy three times; `busy_write_cut_off`: at one that is
  busy for long.
-/
import Mathlib.Data.ENNReal.Real
import RequestSuite.Proofs.NearestNumber
import RequestSuite.Proofs.Retries

namespace RequestSuite

open scoped ENNReal

/-! ### Lengths of delays -/

namespace Binary64

variable {x y : Binary64} {negative : Bool} {m : ℕ} {e : ℤ}

/-- The length of a delay in seconds. A negative number counts as none. -/
noncomputable def seconds : Binary64 → ℝ≥0∞
  | .finite negative m e => if negative then 0 else ENNReal.ofReal ((m * 2 ^ e : ℚ) : ℝ)
  | .infinite negative => if negative then 0 else ⊤
  | .nan => 0

/-- The numbers that are delays: those that are not negative, zero of either sign and infinity among
them. -/
def IsDelay : Binary64 → Prop
  | .finite negative m e => Canonical m e ∧ (negative = true → m = 0)
  | .infinite negative => negative = false
  | .nan => False

lemma seconds_finite (h : IsDelay (.finite negative m e)) :
    seconds (.finite negative m e) = ENNReal.ofReal ((m * 2 ^ e : ℚ) : ℝ) := by
  rw [seconds]
  split_ifs with hn
  · simp [h.2 hn]
  · rfl

/-- A finite delay counted in a unit no greater than its own. -/
lemma unitsOf_mul (h : IsDelay (.finite negative m e)) {unit : ℤ} (hunit : unit ≤ e) :
    (unitsOf unit negative m e : ℚ) * 2 ^ unit = m * 2 ^ e := by
  obtain ⟨n, rfl⟩ : ∃ n : ℕ, e = unit + n := ⟨(e - unit).toNat, by omega⟩
  have hpower : power 2 (unit + n - unit) = 2 ^ n := by simp [power]
  have hunits : unitsOf unit negative m (unit + n) = m * 2 ^ n := by
    rw [unitsOf, hpower]
    split_ifs with hn
    · simp [h.2 hn]
    · push_cast
      rfl
  rw [hunits, zpow_add₀ two_ne_zero, zpow_natCast]
  push_cast
  ring

/-- Delays are compared by their lengths. -/
lemma seconds_lt_iff (hx : x.IsDelay) (hy : y.IsDelay) :
    x.lt y = true ↔ x.seconds < y.seconds := by
  match x, y, hx, hy with
  | .infinite n, .infinite n', hx, hy => simp [lt, seconds, show n = false from hx]
  | .infinite n, .finite n' m e, hx, hy => simp [lt, seconds, show n = false from hx]
  | .finite n m e, .infinite n', hx, hy =>
      rw [seconds_finite hx]
      simp only [lt, seconds, show n' = false from hy, if_neg Bool.false_ne_true]
      exact iff_of_true rfl ENNReal.ofReal_lt_top
  | .finite n m e, .finite n' m' e', hx, hy =>
      have hnonneg : (0 : ℚ) ≤ m * 2 ^ e := by positivity
      have hunit : (0 : ℚ) < 2 ^ min e e' := by positivity
      rw [lt, decide_eq_true_eq, seconds_finite hx, seconds_finite hy,
        ENNReal.ofReal_lt_ofReal_iff_of_nonneg (by exact_mod_cast hnonneg), Rat.cast_lt,
        ← unitsOf_mul hx (min_le_left e e'), ← unitsOf_mul hy (min_le_right e e'),
        mul_lt_mul_iff_left₀ hunit, Int.cast_lt]

end Binary64

/-! ### The range of numbers -/

/-- The first length that is out of the range of numbers. -/
noncomputable def rangeEnd : ℝ≥0∞ := 2 ^ 1024

/-- What a length is in the range of numbers. -/
noncomputable def inRange (length : ℝ≥0∞) : ℝ≥0∞ := if length < rangeEnd then length else ⊤

lemma inRange_mono : Monotone inRange := by
  intro a b hab
  rw [inRange, inRange]
  split_ifs with ha hb hb
  · exact hab
  · exact le_top
  · exact absurd (lt_of_le_of_lt hab hb) ha
  · exact le_rfl

lemma ofReal_lt_rangeEnd (q : ℚ) (hq : 0 ≤ q) :
    ENNReal.ofReal (q : ℝ) < rangeEnd ↔ q < 2 ^ 1024 := by
  have hend : rangeEnd = ENNReal.ofReal (((2 : ℚ) ^ 1024 : ℚ) : ℝ) := by
    rw [rangeEnd, Rat.cast_pow, Rat.cast_ofNat, ENNReal.ofReal_pow zero_le_two,
      ENNReal.ofReal_ofNat]
  rw [hend, ENNReal.ofReal_lt_ofReal_iff_of_nonneg (by exact_mod_cast hq), Rat.cast_lt]

namespace Binary64

variable {x : Binary64} {negative : Bool} {m : ℕ} {e : ℤ}

/-- A delay is in the range of numbers. -/
lemma inRange_seconds (h : x.IsDelay) : inRange x.seconds = x.seconds := by
  match x, h with
  | .infinite n, h =>
      rw [seconds, show n = false from h, inRange]
      exact ite_self ⊤
  | .finite n m e, h =>
      have hnonneg : (0 : ℚ) ≤ m * 2 ^ e := by positivity
      have hm : (m : ℚ) < 2 ^ 53 := by exact_mod_cast h.1.mantissa_lt
      have hrange : (m : ℚ) * 2 ^ e < 2 ^ 1024 := by
        have he : (2 : ℚ) ^ e ≤ 2 ^ (971 : ℤ) := zpow_le_zpow_right₀ one_le_two h.1.exponent_le
        calc (m : ℚ) * 2 ^ e ≤ m * 2 ^ (971 : ℤ) := mul_le_mul_of_nonneg_left he m.cast_nonneg
          _ < 2 ^ 53 * 2 ^ (971 : ℤ) := mul_lt_mul_of_pos_right hm (zpow_pos two_pos _)
          _ = 2 ^ 1024 := by rw [zpow_ofNat, ← pow_add]
      rw [seconds_finite h, inRange, if_pos ((ofReal_lt_rangeEnd _ hnonneg).mpr hrange)]

/-- **A delay is doubled exactly**, unless the result is out of range. -/
lemma seconds_scale (h : x.IsDelay) (k : ℕ) :
    (x.scale k).IsDelay ∧ (x.scale k).seconds = inRange (x.seconds * 2 ^ k) := by
  match x, h with
  | .infinite n, h =>
      have htop : (⊤ : ℝ≥0∞) * 2 ^ k = ⊤ := ENNReal.top_mul (by simp)
      obtain rfl : n = false := h
      refine ⟨rfl, ?_⟩
      change (⊤ : ℝ≥0∞) = inRange (⊤ * 2 ^ k)
      rw [htop, inRange, ite_self]
  | .finite n m e, h =>
      have hlength : seconds (.finite n m e) * 2 ^ k =
          ENNReal.ofReal ((m * 2 ^ (e + k) : ℚ) : ℝ) := by
        rw [seconds_finite h, zpow_add₀ two_ne_zero, zpow_natCast, ← mul_assoc,
          Rat.cast_mul _ (2 ^ k), ENNReal.ofReal_mul (by positivity), Rat.cast_pow, Rat.cast_ofNat,
          ENNReal.ofReal_pow zero_le_two, ENNReal.ofReal_ofNat]
      have hden := power_pos Nat.two_pos (-(e + k))
      have hvalue : ((m * power 2 (e + k) : ℕ) : ℚ) / power 2 (-(e + k)) = m * 2 ^ (e + k) := by
        rw [Nat.cast_mul, mul_div_assoc, cast_power_div Nat.two_pos, Nat.cast_ofNat]
      have hnonneg : (0 : ℚ) ≤ m * 2 ^ (e + k) := by positivity
      rw [hlength, scale, ofDyadic]
      rcases Nat.eq_zero_or_pos m with rfl | hm
      · have hzero : Canonical 0 leastExponent := ⟨by decide, by decide, by decide, Or.inr rfl⟩
        simp only [Nat.zero_mul, ofRatio, if_pos, zero]
        refine ⟨⟨hzero, fun _ => rfl⟩, ?_⟩
        simp [seconds, inRange, rangeEnd]
      · have hpositive : n = false := by
          by_contra hn
          exact hm.ne' (h.2 (by simpa using hn))
        subst hpositive
        by_cases hrange : (m : ℚ) * 2 ^ (e + k) < 2 ^ 1024
        · have hexponent := h.1.exponent_ge
          obtain ⟨m', e', hcanonical, hm', hsame⟩ :=
            exists_canonical hm h.1.mantissa_lt (show -1074 ≤ e + k by omega) hrange
          rw [ofRatio_of_canonical false hcanonical hm' hden (hvalue.trans hsame.symm)]
          have hdelay : IsDelay (.finite false m' e') := ⟨hcanonical, by simp⟩
          refine ⟨hdelay, ?_⟩
          rw [seconds_finite hdelay, hsame, inRange,
            if_pos ((ofReal_lt_rangeEnd _ hnonneg).mpr hrange)]
        · rw [ofRatio_of_large false hden (by rw [hvalue]; exact not_lt.mp hrange)]
          refine ⟨rfl, ?_⟩
          rw [inRange, if_neg (mt (ofReal_lt_rangeEnd _ hnonneg).mp hrange)]
          rfl

end Binary64

/-- **The delay after some failures** is the base delay doubled as often, at most the greatest
delay, in the range of numbers. -/
lemma seconds_delay {policy : RetryPolicy} (hbase : policy.baseDelay.IsDelay)
    (hmax : policy.maxDelay.IsDelay) {k : ℕ} {delay : Binary64} (h : policy.delay? k = some delay) :
    delay.seconds = inRange (min (policy.baseDelay.seconds * 2 ^ k) policy.maxDelay.seconds) := by
  obtain ⟨hscaled, hlength⟩ := Binary64.seconds_scale hbase k
  have hcapped : delay = if policy.maxDelay.lt (policy.baseDelay.scale k) then policy.maxDelay
      else policy.baseDelay.scale k := by
    rw [RetryPolicy.delay?] at h
    split_ifs at h with hnone
    exact (Option.some.inj h).symm
  rw [inRange_mono.map_min, ← hlength, Binary64.inRange_seconds hmax, hcapped]
  split_ifs with hless
  · exact (min_eq_right ((Binary64.seconds_lt_iff hmax hscaled).mp hless).le).symm
  · exact (min_eq_left (not_lt.mp (mt (Binary64.seconds_lt_iff hmax hscaled).mpr hless))).symm

/-- Every decimal number that is not negative is a delay. -/
lemma isDelay_ofDecimal (digits : ℕ) (scale : ℤ) :
    (Binary64.ofDecimal false digits scale).IsDelay := by
  cases h : Binary64.ofDecimal false digits scale with
  | nan =>
      simp only [Binary64.ofDecimal, Binary64.ofRatio, Binary64.ofMantissa, Binary64.zero] at h
      split_ifs at h
  | infinite negative =>
      simp only [Binary64.ofDecimal, Binary64.ofRatio, Binary64.ofMantissa, Binary64.zero] at h
      split_ifs at h <;> exact (Binary64.infinite.inj h).symm
  | finite negative m e =>
      obtain ⟨rfl, hcanonical⟩ := Binary64.canonical_of_ofDecimal h
      exact ⟨hcanonical, by simp⟩

/-! ### A call made over and over again -/

variable {σ : Type} {backend : Backend σ} {policy : RetryPolicy} {call : Call}

/-- The state after a call is made `n` times. -/
def stateAfter (backend : Backend σ) (call : Call) (n : ℕ) (s : σ) : σ :=
  (fun s => (backend call s).2)^[n] s

/-- The answer to a call that has been made `n` times before. -/
def answerAfter (backend : Backend σ) (call : Call) (n : ℕ) (s : σ) : Answer :=
  (backend call (stateAfter backend call n s)).1

lemma call_stateAfter (backend : Backend σ) (call : Call) (n : ℕ) (s : σ) :
    backend call (stateAfter backend call n s) =
      (answerAfter backend call n s, stateAfter backend call (n + 1) s) :=
  Prod.ext rfl (Function.iterate_succ_apply' (fun s => (backend call s).2) n s).symm

/-- Whether an answer is final: the call has succeeded, or its failure will not pass. -/
def isFinal : Answer → Bool
  | .error (.os error) => !error.isTransient
  | _ => true

/-- How often a call is made again: the least number after which its answer is final or no attempt
is left. -/
def RetryPolicy.retries (policy : RetryPolicy) (backend : Backend σ) (call : Call) (s : σ) : ℕ :=
  Nat.find (p := fun k => isFinal (answerAfter backend call k s) = true ∨
    k = policy.maxRetries.toNat) ⟨_, Or.inr rfl⟩

lemma exists_of_not_final {answer : Answer} (h : isFinal answer = false) :
    ∃ cause, answer = .error (.os cause) ∧ cause.isTransient = true := by
  match answer, h with
  | .error (.os cause), h => exact ⟨cause, rfl, by simpa [isFinal] using h⟩

/-- Failures in a row are the answers to the call made over and over again. -/
lemma Fails.answerAfter_eq {causes : List OsError} {s s' : σ} (h : Fails backend call causes s s') :
    s' = stateAfter backend call causes.length s ∧
      ∀ j (hj : j < causes.length), answerAfter backend call j s = .error (.os causes[j]) := by
  induction h with
  | none s => exact ⟨rfl, by simp⟩
  | @again cause causes s s₁ s' first others ih =>
      have hstate : ∀ n, stateAfter backend call (n + 1) s = stateAfter backend call n s₁ := by
        intro n
        rw [stateAfter, Function.iterate_succ_apply, first]
        rfl
      refine ⟨by rw [ih.1, List.length_cons, hstate], fun j hj => ?_⟩
      cases j with
      | zero => exact congrArg Prod.fst first
      | succ j =>
          rw [answerAfter, hstate]
          exact ih.2 j (by simpa using hj)

/-- Answers that are not final are failures in a row. -/
lemma exists_fails {n : ℕ} {s : σ}
    (h : ∀ j < n, isFinal (answerAfter backend call j s) = false) :
    ∃ causes : List OsError, causes.length = n ∧
      Fails backend call causes s (stateAfter backend call n s) := by
  induction n generalizing s with
  | zero => exact ⟨[], rfl, .none s⟩
  | succ n ih =>
      obtain ⟨cause, hcause, -⟩ := exists_of_not_final (h 0 n.succ_pos)
      obtain ⟨causes, hlength, hfails⟩ := @ih (backend call s).2 fun j hj => h (j + 1) (by omega)
      exact ⟨cause :: causes, by rw [List.length_cons, hlength],
        .again (Prod.ext hcause rfl) hfails⟩

/-- **Every call settles**, after as many failures as it is made again. -/
lemma exists_settles_retries (policy : RetryPolicy) (backend : Backend σ) (call : Call) (s : σ) :
    ∃ causes : List OsError, causes.length = policy.retries backend call s ∧
      Settles policy backend call causes
        (answerAfter backend call (policy.retries backend call s) s) s
        (stateAfter backend call (policy.retries backend call s + 1) s) := by
  have hex : ∃ k, isFinal (answerAfter backend call k s) = true ∨ k = policy.maxRetries.toNat :=
    ⟨_, Or.inr rfl⟩
  have hopen : ∀ j < policy.retries backend call s,
      isFinal (answerAfter backend call j s) = false := fun j hj => by
    simpa using (not_or.mp (Nat.find_min hex hj)).1
  obtain ⟨causes, hlength, hfails⟩ := exists_fails hopen
  have hanswers := hfails.answerAfter_eq.2
  refine ⟨causes, hlength, ⟨_, hfails, call_stateAfter backend call _ s⟩, fun cause hcause => ?_,
    ?_, fun cause hcause ht => ?_⟩
  · obtain ⟨j, hj, rfl⟩ := List.getElem_of_mem hcause
    have hfailed := hopen j (hlength ▸ hj)
    rw [hanswers j hj] at hfailed
    simpa [isFinal] using hfailed
  · rw [hlength]
    exact Nat.find_min' hex (Or.inr rfl)
  · rw [hlength]
    refine (Nat.find_spec hex).resolve_left fun hfinal => ?_
    change isFinal (answerAfter backend call (policy.retries backend call s) s) = true at hfinal
    rw [hcause] at hfinal
    simp [isFinal, ht] at hfinal

/-- A call that settles is made again after each of its failures. -/
lemma Settles.retries_eq {causes : List OsError} {answer : Answer} {s s' : σ}
    (h : Settles policy backend call causes answer s s') :
    policy.retries backend call s = causes.length ∧
      answerAfter backend call causes.length s = answer := by
  obtain ⟨s₁, hfails, hlast⟩ := h.attempts
  obtain ⟨rfl, hanswers⟩ := hfails.answerAfter_eq
  have hanswer : answerAfter backend call causes.length s = answer := congrArg Prod.fst hlast
  refine ⟨(Nat.find_eq_iff _).mpr ⟨?_, fun j hj => ?_⟩, hanswer⟩
  · rw [hanswer]
    rcases hfinal : isFinal answer with _ | _
    · obtain ⟨cause, rfl, ht⟩ := exists_of_not_final hfinal
      exact Or.inr (h.last cause rfl ht)
    · exact Or.inl rfl
  · have hallowed := h.allowed
    have ht := h.transient _ (List.getElem_mem hj)
    rw [hanswers j hj, not_or]
    exact ⟨by simp [isFinal, ht], by omega⟩

/-! ### Calls with retries -/

/-- A call with retries as it is to be made: with one pause before each time that it is made again
and none behind the last, with the last answer, and with the state after that many calls and one
more. Each pause follows a failure that may pass, and lasts as long as the base delay doubled as
often as the call has been made again before, at most the greatest delay. So the pauses grow up to
that delay. -/
structure RetriedExactly (policy : RetryPolicy) (backend : Backend σ) (call : Call)
    (s : Retrying σ) (waits : List Pause) (outcome : Answer × Retrying σ) : Prop where
  answer : outcome.1 = answerAfter backend call (policy.retries backend call s.store) s.store
  calls : outcome.2.store =
    stateAfter backend call (policy.retries backend call s.store + 1) s.store
  pauses : outcome.2.pauses = s.pauses ++ waits
  count : waits.length = policy.retries backend call s.store
  wait : ∀ j p, waits[j]? = some p → p.call = call ∧ p.attempt = j + 1 ∧
    answerAfter backend call j s.store = .error (.os p.error) ∧ p.error.isTransient = true ∧
    p.delay.seconds =
      inRange (min (policy.baseDelay.seconds * 2 ^ j) policy.maxDelay.seconds)
  rising : waits.Pairwise fun p q => p.delay.seconds ≤ q.delay.seconds
  capped : ∀ p ∈ waits, p.delay.seconds ≤ policy.maxDelay.seconds

/-- Whether a delay can be doubled so often that a call can be made again some times. -/
def RetryPolicy.Reaches (policy : RetryPolicy) (retries : ℕ) : Prop :=
  ∀ n, policy.maxDoublings = some n → retries ≤ n + 1

lemma delay?_eq_none_iff (policy : RetryPolicy) (k : ℕ) :
    policy.delay? k = none ↔ ∃ n, policy.maxDoublings = some n ∧ n < k := by
  rw [RetryPolicy.delay?]
  cases policy.maxDoublings <;> simp

lemma waits_iff_reaches (policy : RetryPolicy) (causes : List OsError) :
    policy.Waits causes ↔ policy.Reaches causes.length := by
  constructor
  · intro hwaits n hn
    by_contra hmore
    exact hwaits (n + 1) (by omega) ((delay?_eq_none_iff policy _).mpr ⟨n, hn, n.lt_succ_self⟩)
  · intro hreaches k hk hnone
    obtain ⟨n, hn, hlt⟩ := (delay?_eq_none_iff policy k).mp hnone
    have hle := hreaches n hn
    omega

/-- The pauses after some failures, one by one. -/
lemma getElem?_pauses (policy : RetryPolicy) (call : Call) (causes : List OsError) {tried : ℕ}
    (hd : ∀ k < causes.length, policy.delay? (tried + k) ≠ none) (j : ℕ) :
    (policy.pauses call tried causes)[j]? = causes[j]?.bind fun cause =>
      (policy.delay? (tried + j)).map fun delay => ⟨call, cause, delay, tried + j + 1⟩ := by
  induction causes generalizing tried j with
  | nil => rfl
  | cons cause causes ih =>
      obtain ⟨delay, hdelay⟩ := Option.ne_none_iff_exists'.mp (hd 0 (by simp))
      rw [Nat.add_zero] at hdelay
      rw [RetryPolicy.pauses, hdelay]
      cases j with
      | zero => simp [hdelay]
      | succ j =>
          have hnext : ∀ k < causes.length, policy.delay? (tried + 1 + k) ≠ none := by
            intro k hk
            rw [Nat.add_assoc, Nat.add_comm 1]
            exact hd (k + 1) (by simpa using hk)
          rw [List.getElem?_cons_succ, List.getElem?_cons_succ, ih hnext j, Nat.add_assoc tried,
            Nat.add_comm 1]

/-- As many pauses are made as there are failures, if there are enough delays. -/
lemma length_pauses (policy : RetryPolicy) (call : Call) (causes : List OsError) {tried : ℕ}
    (hd : ∀ k < causes.length, policy.delay? (tried + k) ≠ none) :
    (policy.pauses call tried causes).length = causes.length := by
  induction causes generalizing tried with
  | nil => rfl
  | cons cause causes ih =>
      obtain ⟨delay, hdelay⟩ := Option.ne_none_iff_exists'.mp (hd 0 (by simp))
      rw [Nat.add_zero] at hdelay
      rw [RetryPolicy.pauses, hdelay]
      refine congrArg (· + 1) (ih fun k hk => ?_)
      rw [Nat.add_assoc, Nat.add_comm 1]
      exact hd (k + 1) (by simpa using hk)

/-- **Delays grow, up to the greatest.** -/
lemma delay_le {base greatest : ℝ≥0∞} (hgreatest : inRange greatest = greatest) {i j : ℕ}
    (h : i ≤ j) :
    inRange (min (base * 2 ^ i) greatest) ≤ inRange (min (base * 2 ^ j) greatest) ∧
      inRange (min (base * 2 ^ i) greatest) ≤ greatest := by
  have hpower : (2 : ℝ≥0∞) ^ i ≤ 2 ^ j := pow_le_pow_right₀ one_le_two h
  refine ⟨inRange_mono (min_le_min_right _ (mul_le_mul_right hpower base)), ?_⟩
  conv_rhs => rw [← hgreatest]
  exact inRange_mono (min_le_right _ _)

/-- A call is made exactly as it is to be where there are enough delays. -/
lemma retriedExactly_of_reaches (hbase : policy.baseDelay.IsDelay)
    (hmax : policy.maxDelay.IsDelay) (s : Retrying σ)
    (h : policy.Reaches (policy.retries backend call s.store)) :
    ∃ waits, RetriedExactly policy backend call s waits (retrying policy backend call s) := by
  obtain ⟨causes, hlength, hsettles⟩ := exists_settles_retries policy backend call s.store
  have hwaits := (waits_iff_reaches policy causes).mpr (hlength ▸ h)
  have hdelays : ∀ k < causes.length, policy.delay? (0 + k) ≠ none := fun k hk => by
    rw [Nat.zero_add]
    exact hwaits k hk
  have hrun := retrying_of_settles hsettles hwaits s.pauses
  obtain ⟨s₁, hfails, -⟩ := hsettles.attempts
  have hwait : ∀ j p, (policy.pauses call 0 causes)[j]? = some p → p.call = call ∧
      p.attempt = j + 1 ∧ answerAfter backend call j s.store = .error (.os p.error) ∧
      p.error.isTransient = true ∧ p.delay.seconds =
        inRange (min (policy.baseDelay.seconds * 2 ^ j) policy.maxDelay.seconds) := by
    intro j p hp
    rw [getElem?_pauses policy call causes hdelays, Nat.zero_add] at hp
    obtain ⟨cause, hcause, hp⟩ := Option.bind_eq_some_iff.mp hp
    obtain ⟨delay, hdelay, rfl⟩ := Option.map_eq_some_iff.mp hp
    obtain ⟨hj, rfl⟩ := List.getElem?_eq_some_iff.mp hcause
    exact ⟨rfl, rfl, hfails.answerAfter_eq.2 j hj, hsettles.transient _ (List.getElem_mem hj),
      seconds_delay hbase hmax hdelay⟩
  have hgreatest := Binary64.inRange_seconds hmax
  rw [hrun]
  refine ⟨policy.pauses call 0 causes, rfl, rfl, rfl,
    (length_pauses policy call causes hdelays).trans hlength, hwait, ?_, fun p hp => ?_⟩
  · refine List.pairwise_iff_getElem.mpr fun i j hi hj hlt => ?_
    rw [(hwait i _ (List.getElem?_eq_getElem hi)).2.2.2.2,
      (hwait j _ (List.getElem?_eq_getElem hj)).2.2.2.2]
    exact (delay_le hgreatest hlt.le).1
  · obtain ⟨j, hj, rfl⟩ := List.getElem_of_mem hp
    rw [(hwait j _ (List.getElem?_eq_getElem hj)).2.2.2.2]
    exact (delay_le hgreatest le_rfl).2

/-- Where there are not, the call ends at the first failure without a delay. -/
lemma retrying_of_not_reaches {s : Retrying σ} {n : ℕ} (hn : policy.maxDoublings = some n)
    (hmore : n + 1 < policy.retries backend call s.store) :
    ∃ waits : List Pause, waits.length = n + 1 ∧ retrying policy backend call s =
      (.error .delayTooLarge,
        ⟨stateAfter backend call (n + 2) s.store, s.pauses ++ waits⟩) := by
  obtain ⟨causes, hlength, hsettles⟩ := exists_settles_retries policy backend call s.store
  have hbefore : ∀ i < n + 1, policy.delay? i ≠ none := by
    intro i hi hnone
    obtain ⟨n', hn', hlt⟩ := (delay?_eq_none_iff policy i).mp hnone
    obtain rfl : n = n' := Option.some.inj (hn.symm.trans hn')
    omega
  have hnone := (delay?_eq_none_iff policy (n + 1)).mpr ⟨n, hn, n.lt_succ_self⟩
  obtain ⟨s₁, s₂, hfails, hcause, hrun⟩ := retrying_of_no_delay hsettles (hlength ▸ hmore) hnone
    hbefore s.pauses
  have htake : (causes.take (n + 1)).length = n + 1 := by
    rw [List.length_take]
    omega
  obtain ⟨rfl, -⟩ := hfails.answerAfter_eq
  rw [htake, call_stateAfter backend call] at hcause
  refine ⟨_, ?_, by rw [hrun, ← (Prod.mk.inj hcause).2]⟩
  refine (length_pauses policy call _ fun k hk => ?_).trans htake
  rw [Nat.zero_add]
  exact hbefore k (htake ▸ hk)

/-! ### The calls that are made -/

/-- A log shows a call that is made over and over again. -/
lemma stateAfter_logged (backend : Backend σ) (call : Call) (n : ℕ) (s : σ) (log : CallLog) :
    stateAfter (logged backend) call n (s, log) =
      (stateAfter backend call n s,
        log ++ (List.range n).map fun j => (call, answerAfter backend call j s)) := by
  induction n with
  | zero => simp [stateAfter]
  | succ n ih =>
      have hnext : stateAfter (logged backend) call (n + 1) (s, log) =
          (logged backend call (stateAfter (logged backend) call n (s, log))).2 :=
        (congrArg Prod.snd (call_stateAfter _ _ _ _)).symm
      rw [hnext, ih, logged_eq (call_stateAfter backend call n s), List.range_succ, List.map_append,
        ← List.append_assoc]
      rfl

lemma answerAfter_logged (backend : Backend σ) (call : Call) (n : ℕ) (s : σ) (log : CallLog) :
    answerAfter (logged backend) call n (s, log) = answerAfter backend call n s := by
  rw [answerAfter, stateAfter_logged]
  rfl

lemma retries_logged (policy : RetryPolicy) (backend : Backend σ) (call : Call) (s : σ)
    (log : CallLog) :
    policy.retries (logged backend) call (s, log) = policy.retries backend call s := by
  simp only [RetryPolicy.retries, answerAfter_logged]

/-- **A call with retries is made exactly as it is to be** (`RetriedExactly`) if its delay is not
doubled too often: on every file system, with whatever answers. A log then shows this call, as often
as it is made again and once more, and nothing else. Otherwise the call is made until there is no
delay left, although it has failed only with failures that may pass and not as often as is allowed,
and ends without an answer of the file system. -/
theorem retried_exactly_iff (hbase : policy.baseDelay.IsDelay) (hmax : policy.maxDelay.IsDelay)
    (backend : Backend σ) (call : Call) (s : Retrying σ) :
    let retries := policy.retries backend call s.store
    ((∃ waits, RetriedExactly policy backend call s waits (retrying policy backend call s)) ↔
      policy.Reaches retries) ∧
    (policy.Reaches retries → ∀ log,
      (retrying policy (logged backend) call ⟨(s.store, log), s.pauses⟩).2.store.2 =
        log ++ (List.range (retries + 1)).map fun j =>
          (call, answerAfter backend call j s.store)) ∧
    ∀ n, policy.maxDoublings = some n → n + 1 < retries → ∃ waits : List Pause,
      waits.length = n + 1 ∧ retrying policy backend call s = (.error .delayTooLarge,
        ⟨stateAfter backend call (n + 2) s.store, s.pauses ++ waits⟩) := by
  intro retries
  refine ⟨⟨fun ⟨waits, hexact⟩ n hn => ?_, retriedExactly_of_reaches hbase hmax s⟩,
    fun hreaches log => ?_, fun n hn hmore => retrying_of_not_reaches hn hmore⟩
  · by_contra hmore
    obtain ⟨waits', hlength, hrun⟩ := retrying_of_not_reaches hn (not_le.mp hmore)
    have hpauses := hexact.pauses
    rw [hrun, List.append_cancel_left_eq] at hpauses
    have hcount := hexact.count
    rw [← hpauses, hlength] at hcount
    exact hmore hcount.ge
  · have hsame := retries_logged policy backend call s.store log
    have hlogged : policy.Reaches (policy.retries (logged backend) call (s.store, log)) :=
      hsame.symm ▸ hreaches
    obtain ⟨waits, hexact⟩ :=
      retriedExactly_of_reaches hbase hmax ⟨(s.store, log), s.pauses⟩ hlogged
    rw [hexact.calls, hsame, stateAfter_logged]

/-- A file in memory that is busy for some calls. -/
def busyFor (calls : ℕ) : Retrying (Faulty Memory) where
  store := { store := {}, faults := [⟨"write", "a", 11, "Resource unavailable", calls⟩] }

/-- A write on it succeeds in the end, if as many attempts are allowed. -/
lemma settles_busyFor (policy : RetryPolicy) {calls : ℕ} (h : calls ≤ policy.maxRetries.toNat) :
    ∃ s', Settles policy (faulty memory) (.write "a" "x")
      (List.replicate calls ⟨11, "Resource unavailable", "a"⟩) (.ok none) (busyFor calls).store
      s' := by
  have hpath : "a".toList.isSuffixOf "a".toList = true := by decide
  have hfails := fails_replicate memory (.write "a" "x")
    ⟨"write", "a", 11, "Resource unavailable", calls⟩ rfl hpath {} [] calls 0
  refine ⟨_, ⟨_, hfails, rfl⟩, fun cause hcause => ?_, by simpa using h, by simp⟩
  rw [List.eq_of_mem_replicate hcause]
  rfl

/-- Three failures of a write are waited out. -/
theorem busy_write_retried :
    ({} : RetryPolicy).baseDelay.IsDelay ∧ ({} : RetryPolicy).maxDelay.IsDelay ∧
      ∃ waits : List Pause, waits.length = 3 ∧
        RetriedExactly {} (faulty memory) (.write "a" "x") (busyFor 3) waits
          (retrying {} (faulty memory) (.write "a" "x") (busyFor 3)) := by
  have hbase : ({} : RetryPolicy).baseDelay.IsDelay := isDelay_ofDecimal 5 (-2)
  have hmax : ({} : RetryPolicy).maxDelay.IsDelay := isDelay_ofDecimal 1 0
  obtain ⟨s', hsettles⟩ :=
    settles_busyFor {} (show 3 ≤ ({} : RetryPolicy).maxRetries.toNat by decide)
  have hretries :
      ({} : RetryPolicy).retries (faulty memory) (.write "a" "x") (busyFor 3).store = 3 :=
    hsettles.retries_eq.1
  obtain ⟨waits, hexact⟩ := (retried_exactly_iff hbase hmax (faulty memory) (.write "a" "x")
    (busyFor 3)).1.mpr fun n hn => by
      obtain rfl : 1023 = n := Option.some.inj hn
      rw [hretries]
      decide
  exact ⟨hbase, hmax, waits, hexact.count.trans hretries, hexact⟩

/-- A write that would succeed after as many failures as are allowed, all of which may pass, ends
without an answer of the file system: the doubled delay leaves the range of numbers first. -/
theorem busy_write_cut_off :
    ({ maxRetries := 1025 } : RetryPolicy).retries (faulty memory) (.write "a" "x")
        (busyFor 1025).store = 1025 ∧
      answerAfter (faulty memory) (.write "a" "x") 1025 (busyFor 1025).store = .ok none ∧
      (retrying { maxRetries := 1025 } (faulty memory) (.write "a" "x") (busyFor 1025)).1 =
        .error .delayTooLarge ∧
      ¬ ∃ waits, RetriedExactly { maxRetries := 1025 } (faulty memory) (.write "a" "x")
        (busyFor 1025) waits
        (retrying { maxRetries := 1025 } (faulty memory) (.write "a" "x") (busyFor 1025)) := by
  obtain ⟨s', hsettles⟩ :=
    settles_busyFor { maxRetries := 1025 } (show 1025 ≤ (1025 : ℤ).toNat by decide)
  have hlength :
      (List.replicate 1025 (⟨11, "Resource unavailable", "a"⟩ : OsError)).length = 1025 :=
    List.length_replicate
  have hretries := hsettles.retries_eq
  rw [hlength] at hretries
  have hdoublings : ({ maxRetries := 1025 } : RetryPolicy).maxDoublings = some 1023 := rfl
  obtain ⟨waits, -, hrun⟩ := retrying_of_not_reaches (s := busyFor 1025) hdoublings
    (by rw [hretries.1]; decide)
  refine ⟨hretries.1, hretries.2, congrArg Prod.fst hrun, fun ⟨waits', hexact⟩ => ?_⟩
  have hanswer := hexact.answer
  rw [hrun, hretries.1, hretries.2] at hanswer
  cases hanswer

end RequestSuite
