/-
Where the string and template literals of a script stand.

* `stateAt`: the state of the scanner before a position; `isCode_of_mem_code`: at the positions of
  the code it reads code;
* `IsLiteral`: a literal from its opening quotation mark to its closing one;
* `IsLiteral.not_mem_code`: no position in a literal is one of the code;
* `IsLiteral.slice`: a literal in a stretch of the script that is read for itself;
* `IsLiteral.in_or_out`: a literal lies inside a test or outside it;
* `IsLiteral.infix_inject`: a literal of a test stays when a set-up is put into the test.
-/
import RequestSuite.Proofs.Injection
import RequestSuite.Proofs.ReworkedLines

namespace RequestSuite.Script

open Text (isBlank Trimmed trim infix_trim infix_dropWhile)

variable {text block setup : List Char} {quote c : Char} {start stop i k first last : ℕ}

/-! ### Places -/

/-- The state of the scanner before a position of a text. -/
def stateAt (text : List Char) (i : ℕ) : State := State.through {} text[i]? (text.take i)

lemma head?_take_or (text : List Char) (k : ℕ) : (text.take k).head?.or text[k]? = text.head? := by
  cases text with
  | nil => simp
  | cons c text => cases k <;> simp

lemma stateAt_add (text : List Char) (i k : ℕ) :
    stateAt text (i + k) = (stateAt text i).through text[i + k]? ((text.drop i).take k) := by
  have hnext : ((text.drop i).take k).head?.or text[i + k]? = text[i]? := by
    rw [← List.getElem?_drop, head?_take_or, List.head?_drop]
  rw [stateAt, List.take_add, State.through_append, hnext, stateAt]

lemma stateAt_succ (h : text[i]? = some c) :
    stateAt text (i + 1) = (stateAt text i).step c text[i + 1]? := by
  have hone : (text.drop i).take 1 = [c] := by
    rw [List.take_one, List.head?_drop, h]
    rfl
  rw [stateAt_add, hone]
  rfl

/-- The state at a position of the code that is read from a state. -/
lemma isCode_of_mem_codeFrom {s : State} (h : (i, c) ∈ codeFrom first s text) :
    ∃ k, i = first + k ∧
      (s.through text[k]? (text.take k)).isCode c text[k + 1]? = true := by
  induction text generalizing first s with
  | nil => simp [codeFrom] at h
  | cons d text ih =>
      have later (h : (i, c) ∈ codeFrom (first + 1) (s.step d text.head?) text) :
          ∃ k, i = first + k ∧ (s.through (d :: text)[k]? ((d :: text).take k)).isCode c
            (d :: text)[k + 1]? = true := by
        obtain ⟨k, rfl, hcode⟩ := ih h
        refine ⟨k + 1, by omega, ?_⟩
        rw [List.take_succ_cons, State.through, List.getElem?_cons_succ, head?_take_or]
        exact hcode
      rw [codeFrom] at h
      split_ifs at h with hd
      · rcases List.mem_cons.mp h with h | h
        · obtain ⟨rfl, rfl⟩ := Prod.mk.inj h
          exact ⟨0, rfl, by simpa [State.through, List.head?_eq_getElem?] using hd⟩
        · exact later h
      · exact later h

/-- At the positions of the code the scanner reads code, outside every template. -/
lemma mode_of_mem_code (h : (i, c) ∈ code text) :
    (∃ last, (stateAt text i).mode.readsCode? c = some last ∧
      opened? last c text[i + 1]? = none) ∧ (stateAt text i).depths = [] := by
  obtain ⟨k, rfl, hcode⟩ := isCode_of_mem_codeFrom h
  rw [Nat.zero_add]
  unfold State.isCode at hcode
  rw [stateAt]
  split at hcode
  · next last hlast => simp_all
  · cases hcode

/-- The first letter of a call is read alike wherever it is code. -/
lemma step_letter {s : State} {last : Option Char} (h : s.mode.readsCode? 'i' = some last)
    (hdepths : s.depths = []) (next : Option Char) :
    s.step 'i' next = State.step {} 'i' next ∧ s.isCode 'i' next = State.isCode {} 'i' next := by
  have hopened (last : Option Char) : opened? last 'i' next = none := by simp [opened?]
  have hafter (last : Option Char) : lastAfter last 'i' = some 'i' := rfl
  constructor
  · simp only [State.step, h, hopened, hdepths]
    simp [Mode.readsCode?, afterCode, hafter]
  · simp only [State.isCode, h, hopened, hdepths]
    simp [Mode.readsCode?]

lemma getElem?_slice (h : k < stop - start) : (slice text start stop)[k]? = text[start + k]? := by
  rw [slice, List.getElem?_take_of_lt h, List.getElem?_drop]

lemma getLast?_slice (hlt : start < stop) (hle : stop ≤ text.length) :
    (slice text start stop).getLast? = text[stop - 1]? := by
  have hlength : (slice text start stop).length = stop - start := by
    rw [slice, List.length_take, List.length_drop]
    omega
  rw [List.getLast?_eq_getElem?, hlength, getElem?_slice (by omega)]
  congr 1
  omega

lemma infix_drop (hi : i ≤ start) : slice text start stop <:+: text.drop i := by
  obtain ⟨k, rfl⟩ : ∃ k, start = i + k := ⟨start - i, by omega⟩
  refine (List.take_prefix _ _).isInfix.trans ?_
  rw [← List.drop_drop]
  exact (List.drop_suffix _ _).isInfix

/-! ### Literals -/

/-- A place inside the literal that a quotation mark opens where the counts are `depths`: between
its quotation marks, or in a substitution of it. -/
def State.Within (quote : Char) (depths : List ℕ) (s : State) : Prop :=
  s.depths = depths ∧ s.mode ∈ [.quoted quote, .quotedEscape quote] ∨
    quote = '`' ∧ (s.depths = depths ∧ s.mode ∈ [.template, .templateEscape, .templateDollar] ∨
      depths.length < s.depths.length)

instance (quote : Char) (depths : List ℕ) (s : State) : Decidable (s.Within quote depths) :=
  inferInstanceAs (Decidable (_ ∨ _))

/-- A string or template literal from its opening quotation mark at `start` to the position `stop`
after its closing one. -/
structure IsLiteral (text : List Char) (quote : Char) (start stop : ℕ) : Prop where
  quote_mem : quote ∈ ['\'', '"', '`']
  lt : start + 1 < stop
  start_eq : text[start]? = some quote
  stop_eq : text[stop - 1]? = some quote
  opens : ∃ last, (stateAt text start).mode = .code last
  within : ∀ i, start < i → i < stop → (stateAt text i).Within quote (stateAt text start).depths
  closes : stateAt text stop = ⟨.code (some quote), (stateAt text start).depths⟩

instance : Decidable (IsLiteral text quote start stop) :=
  decidable_of_iff
    (quote ∈ ['\'', '"', '`'] ∧ start + 1 < stop ∧ text[start]? = some quote ∧
      text[stop - 1]? = some quote ∧ ((stateAt text start).mode.readsCode? ' ').isSome = true ∧
      (∀ i < stop, start < i → (stateAt text i).Within quote (stateAt text start).depths) ∧
      stateAt text stop = ⟨.code (some quote), (stateAt text start).depths⟩)
    ⟨fun ⟨hquote, hlt, hstart, hstop, hopens, hwithin, hcloses⟩ => by
      refine ⟨hquote, hlt, hstart, hstop, ?_, fun i hl hr => hwithin i hr hl, hcloses⟩
      cases hmode : (stateAt text start).mode <;> simp_all [Mode.readsCode?],
    fun h => ⟨h.quote_mem, h.lt, h.start_eq, h.stop_eq, by
      obtain ⟨last, hmode⟩ := h.opens
      rw [hmode]
      rfl, fun i hr hl => h.within i hl hr, h.closes⟩⟩

lemma isBlank_of_quote (h : quote ∈ ['\'', '"', '`']) : isBlank quote = false := by
  simp only [List.mem_cons, List.not_mem_nil, or_false] at h
  rcases h with rfl | rfl | rfl <;> rfl

lemma opened?_of_quote (h : quote ∈ ['\'', '"', '`']) (last next : Option Char) :
    opened? last quote next ≠ none := by
  simp only [List.mem_cons, List.not_mem_nil, or_false] at h
  rcases h with rfl | rfl | rfl <;> simp [opened?]

namespace IsLiteral

variable (h : IsLiteral text quote start stop)
include h

/-- **No position in a literal is one of the code outside literals.** -/
lemma not_mem_code (hi : (i, c) ∈ code text) : i < start ∨ stop ≤ i := by
  by_contra hin
  push Not at hin
  obtain ⟨⟨last, hlast, hopened⟩, hdepths⟩ := mode_of_mem_code hi
  rcases Nat.eq_or_lt_of_le hin.1 with rfl | hlt
  · have hget := getElem?_of_mem_code hi
    rw [h.start_eq, Option.some.injEq] at hget
    exact opened?_of_quote h.quote_mem last text[start + 1]? (hget ▸ hopened)
  · rcases h.within i hlt hin.2 with ⟨-, hmode⟩ | ⟨-, ⟨-, hmode⟩ | hdeep⟩
    · simp only [List.mem_cons, List.not_mem_nil, or_false] at hmode
      rcases hmode with hmode | hmode <;> simp [hmode, Mode.readsCode?] at hlast
    · simp only [List.mem_cons, List.not_mem_nil, or_false] at hmode
      rcases hmode with hmode | hmode | hmode <;> simp [hmode, Mode.readsCode?] at hlast
    · rw [hdepths] at hdeep
      simp at hdeep

lemma stop_le : stop ≤ text.length := by
  have := (List.getElem?_eq_some_iff.mp h.stop_eq).1
  have := h.lt
  omega

/-- A literal starts and ends with its quotation marks. -/
lemma trimmed : Trimmed (slice text start stop) := by
  have hlt := h.lt
  have hstart : (slice text start stop)[0]? = some quote := by
    rw [getElem?_slice (by omega), Nat.add_zero, h.start_eq]
  have hstop : (slice text start stop).getLast? = some quote := by
    rw [getLast?_slice (by omega) h.stop_le, h.stop_eq]
  refine ⟨?_, quote, hstop, isBlank_of_quote h.quote_mem⟩
  cases hslice : slice text start stop with
  | nil => simp [hslice] at hstart
  | cons c rest =>
      obtain rfl : c = quote := by simpa [hslice] using hstart
      exact ⟨c, rest, rfl, isBlank_of_quote h.quote_mem⟩

/-- **A literal lies inside a test or outside it.** -/
lemma in_or_out {span : ℕ × ℕ} (hspan : span ∈ spans text) :
    span.1 < start ∧ stop ≤ span.2 ∨ stop ≤ span.1 ∨ span.2 ≤ start := by
  obtain ⟨hopens, close, hcloses, hend⟩ := isTest_of_mem_spans hspan
  have hlt := h.lt
  have hclose := lt_testEnd text close
  rcases h.not_mem_code hopens.mem_code with hi | hi
  · rcases h.not_mem_code hcloses.mem_code with hc | hc
    · -- after the closing parenthesis only spaces, tabs and a semicolon go with the test
      refine Or.inr (Or.inr ?_)
      by_contra hlate
      rcases eq_of_lt_testEnd hc (by omega) h.start_eq with rfl | rfl | rfl <;>
        exact absurd h.quote_mem (by decide)
    · exact Or.inl ⟨hi, by omega⟩
  · exact Or.inr (Or.inl hi)

/-- A literal in a stretch of the script, if the stretch is read for itself as it is read in the
script. -/
lemma in_slice (hfirst : first ≤ start) (hlast : stop ≤ last)
    (hsame : ∀ after k, start ≤ first + k → (stateAt text first).through after
      ((text.drop first).take k) = State.through {} after ((text.drop first).take k)) :
    IsLiteral (slice text first last) quote (start - first) (stop - first) := by
  have hlt := h.lt
  have htake {k : ℕ} (hk : k ≤ last - first) :
      (slice text first last).take k = (text.drop first).take k := by
    rw [slice, List.take_take, Nat.min_eq_left hk]
  have hstate {i : ℕ} (hl : start ≤ i) (hr : i < last) :
      stateAt (slice text first last) (i - first) = stateAt text i := by
    obtain ⟨k, rfl⟩ : ∃ k, i = first + k := ⟨i - first, by omega⟩
    rw [Nat.add_sub_cancel_left, stateAt_add, hsame _ _ hl, stateAt, getElem?_slice (by omega),
      htake (by omega)]
  -- what follows the closing quotation mark does not matter
  have hend : stateAt (slice text first last) (stop - first) = stateAt text stop := by
    obtain ⟨k, rfl⟩ : ∃ k, stop = first + k := ⟨stop - first, by omega⟩
    have hblind : Blind ((text.drop first).take k) := by
      intro c hc
      have hslice : (text.drop first).take k = slice text first (first + k) := by
        rw [slice, Nat.add_sub_cancel_left]
      rw [hslice, getLast?_slice (by omega) h.stop_le, h.stop_eq, Option.some.injEq] at hc
      have := h.quote_mem
      simp only [List.mem_cons, List.not_mem_nil, or_false] at this
      rcases this with rfl | rfl | rfl <;> subst hc <;> decide
    rw [Nat.add_sub_cancel_left, stateAt_add, hsame _ _ (by omega), stateAt, htake (by omega),
      (State.through_blind hblind _ _).1]
  refine ⟨h.quote_mem, by omega, ?_, ?_, ?_, fun i hl hr => ?_, ?_⟩
  · rw [getElem?_slice (by omega), Nat.add_sub_cancel' hfirst, h.start_eq]
  · rw [getElem?_slice (by omega), ← h.stop_eq]
    congr 1
    omega
  · rw [hstate le_rfl (by omega)]
    exact h.opens
  · have hi := @hstate (first + i) (by omega) (by omega)
    rw [Nat.add_sub_cancel_left] at hi
    rw [hi, hstate le_rfl (by omega)]
    exact h.within _ (by omega) (by omega)
  · rw [hend, hstate le_rfl (by omega)]
    exact h.closes

/-- A literal of a test, in the test for itself. -/
lemma in_test {span : ℕ × ℕ} (hspan : span ∈ spans text) (hl : span.1 < start)
    (hr : stop ≤ span.2) :
    IsLiteral (slice text span.1 span.2) quote (start - span.1) (stop - span.1) := by
  obtain ⟨hopens, -⟩ := isTest_of_mem_spans hspan
  refine h.in_slice hl.le hr fun after k hk => ?_
  -- the first letter of the call is read alike at any place in code
  have hget := getElem?_of_mem_code hopens.mem_code
  obtain ⟨⟨last, hlast, -⟩, hdepths⟩ := mode_of_mem_code hopens.mem_code
  obtain ⟨k, rfl⟩ : ∃ k', k = k' + 1 := ⟨k - 1, by omega⟩
  have hdrop : text.drop span.1 = 'i' :: text.drop (span.1 + 1) := by
    obtain ⟨hlt, hget⟩ := List.getElem?_eq_some_iff.mp hget
    simp only at hget
    rw [List.drop_eq_getElem_cons hlt, hget]
  rw [hdrop, List.take_succ_cons, State.through, State.through, (step_letter hlast hdepths _).1]

lemma infix_take (hi : stop ≤ i) : slice text start stop <:+: text.take i :=
  @infix_slice text start stop 0 i (Nat.zero_le _) (by have := h.lt; omega) hi

/-- An arrow stands in front of a literal or behind it. -/
lemma arrow_before_or_after (harrow : (i, '=') ∈ code text) (htip : text[i + 1]? = some '>') :
    stop ≤ i ∨ i + 2 ≤ start := by
  rcases h.not_mem_code harrow with hi | hi
  · -- the literal does not start at the tip of the arrow
    refine Or.inr (Nat.lt_of_le_of_ne hi fun heq => ?_)
    rw [heq, h.start_eq, Option.some.injEq] at htip
    exact absurd (htip ▸ h.quote_mem) (by decide)
  · exact Or.inl hi

/-- Putting a set-up into a test leaves its literals as they are. -/
lemma infix_inject (setup : List Char) : slice text start stop <:+: inject text setup := by
  have hlt := h.lt
  have hword := h.trimmed
  have hwhole : slice text start stop <:+: text := infix_drop (Nat.zero_le start)
  rw [inject]
  split_ifs with hempty
  · exact hwhole
  · cases hcallback : callback text with
    | missing => exact hwhole
    | block brace =>
        simp only
        rcases h.not_mem_code (mem_of_callbackIn_block hcallback) with hb | hb
        · have hspace : ∀ c, isBlank c = false → (c == ' ') = false := by
            intro c hc
            cases hspace : c == ' ' with
            | false => rfl
            | true => rw [beq_iff_eq.mp hspace] at hc; cases hc
          have hrest := infix_dropWhile hword hspace (infix_drop hb)
          split_ifs
          · exact hrest.trans (List.suffix_append _ _).isInfix
          · exact (hrest.trans (List.suffix_cons '\n' _).isInfix).trans
              (List.suffix_append _ _).isInfix
        · exact (h.infix_take (Nat.le_succ_of_le hb)).trans
            ((List.prefix_append _ _).trans (List.prefix_append _ _)).isInfix
    | expression first last =>
        simp only
        obtain ⟨⟨i, rfl, harrow, htip⟩, c, hlast, -⟩ := edges_of_callback_expression hcallback
        rcases h.arrow_before_or_after harrow htip with hi | hi
        · simp only [List.append_assoc]
          exact (h.infix_take (by omega)).trans (List.prefix_append _ _).isInfix
        · rcases h.not_mem_code hlast with hl | hl
          · exact (infix_drop hl.le).trans (List.suffix_append _ _).isInfix
          · refine (infix_trim hword (infix_slice hi (by omega) hl)).trans ?_
            exact (List.suffix_append _ _).isInfix.trans
              ((List.prefix_append _ _).trans (List.prefix_append _ _)).isInfix

end IsLiteral

end RequestSuite.Script
