/-
Calls made again after failures.

* `Fails`: failures of one call in a row;
* `Settles`: how a call ends that is made again after failures that may pass, as often as is
  allowed; `exists_settles`: every call that creates or writes something does;
* `RetryPolicy.pauses`: the pauses after failures;
* `retrying_of_settles`, `retrying_of_no_delay`: one call on a file system that makes it again;
* `Weathered`: calls that all succeed in the end; `weathered_or_gives_up`: they do, or there is a
  first that does not;
* `Overruns`: some call fails so often that no delay is left before the next attempt;
  `not_overruns`: none does where few attempts are allowed;
* `perform_of_weathered`, `perform_of_overruns`: steps one after another;
* `fails_replicate`: a fault that strikes one call several times.
-/
import RequestSuite.Proofs.CallLog
import RequestSuite.Store.Retry

namespace RequestSuite

variable {σ : Type} {backend : Backend σ} {policy : RetryPolicy}

/-! ### One call -/

/-- A call fails several times in a row. -/
inductive Fails (backend : Backend σ) (call : Call) : List OsError → σ → σ → Prop
  | none (s : σ) : Fails backend call [] s s
  | again {cause : OsError} {causes : List OsError} {s s₁ s' : σ}
      (first : backend call s = (.error (.os cause), s₁))
      (others : Fails backend call causes s₁ s') : Fails backend call (cause :: causes) s s'

/-- A call that is made again as a policy allows ends with an answer, after some failures. These may
all pass and are no more than allowed. If the answer is a failure too, it is one that does not pass,
or no attempt is left. -/
structure Settles (policy : RetryPolicy) (backend : Backend σ) (call : Call)
    (causes : List OsError) (answer : Answer) (s s' : σ) : Prop where
  attempts : ∃ s₁, Fails backend call causes s s₁ ∧ backend call s₁ = (answer, s')
  transient : ∀ cause ∈ causes, cause.isTransient = true
  allowed : causes.length ≤ policy.maxRetries.toNat
  last : ∀ cause, answer = .error (.os cause) → cause.isTransient = true →
    causes.length = policy.maxRetries.toNat

/-- Whether there is a delay after each of some failures. -/
def RetryPolicy.Waits (policy : RetryPolicy) (causes : List OsError) : Prop :=
  ∀ k < causes.length, policy.delay? k ≠ none

/-- The pauses after some failures of a call, up to the first failure without a delay. -/
def RetryPolicy.pauses (policy : RetryPolicy) (call : Call) :
    (tried : ℕ) → List OsError → List Pause
  | _, [] => []
  | tried, cause :: causes =>
    match policy.delay? tried with
    | some delay => ⟨call, cause, delay, tried + 1⟩ :: policy.pauses call (tried + 1) causes
    | none => []

/-- Failures have no effect on a file system that fails cleanly. -/
lemma Fails.view_eq {τ : Type} {view : σ → τ} {effect : Call → τ → τ} {call : Call}
    {causes : List OsError} {s s' : σ} (hb : FailsCleanly backend view effect)
    (hc : call.changes = true) (h : Fails backend call causes s s') : view s' = view s := by
  induction h with
  | none s => rfl
  | @again cause causes s s₁ s' first others ih =>
      rcases hb call s hc with ⟨text, s₂, h₂, -⟩ | ⟨cause', s₂, h₂, hv⟩
      · simp [first] at h₂
      · obtain ⟨-, rfl⟩ := Prod.mk.inj (first.symm.trans h₂)
        rw [ih, hv]

/-- What a settled call leaves: its effect if it has succeeded, and nothing new otherwise. -/
lemma Settles.view_eq {τ : Type} {view : σ → τ} {effect : Call → τ → τ} {call : Call}
    {causes : List OsError} {answer : Answer} {s s' : σ} (hb : FailsCleanly backend view effect)
    (hc : call.changes = true) (h : Settles policy backend call causes answer s s') :
    (∀ text, answer = .ok text → view s' = effect call (view s)) ∧
      ∀ cause, answer = .error (.os cause) → view s' = view s := by
  obtain ⟨s₁, hfails, hlast⟩ := h.attempts
  rw [← hfails.view_eq hb hc]
  rcases hb call s₁ hc with ⟨text, s₂, h₂, hv⟩ | ⟨cause, s₂, h₂, hv⟩
  all_goals
    obtain ⟨rfl, rfl⟩ := Prod.mk.inj (hlast.symm.trans h₂)
    simp [hv]

/-- On a file system that fails cleanly every call settles that creates or writes something. The
induction is on the number of attempts that are left. -/
lemma exists_settles {τ : Type} {view : σ → τ} {effect : Call → τ → τ} {call : Call}
    (hb : FailsCleanly backend view effect) (hc : call.changes = true) (policy : RetryPolicy)
    (s : σ) :
    ∃ causes answer s', Settles policy backend call causes answer s s' ∧
      ((∃ text, answer = .ok text) ∨ ∃ cause, answer = .error (.os cause)) := by
  suffices h : ∀ left s, ∃ causes answer s' s₁,
      (Fails backend call causes s s₁ ∧ backend call s₁ = (answer, s')) ∧
      (∀ cause ∈ causes, cause.isTransient = true) ∧ causes.length ≤ left ∧
      (∀ cause, answer = .error (.os cause) → cause.isTransient = true → causes.length = left) ∧
      ((∃ text, answer = .ok text) ∨ ∃ cause, answer = .error (.os cause)) by
    obtain ⟨causes, answer, s', s₁, ha, ht, hl, hlast, hor⟩ := h policy.maxRetries.toNat s
    exact ⟨causes, answer, s', ⟨⟨s₁, ha⟩, ht, hl, hlast⟩, hor⟩
  intro left
  induction left with
  | zero =>
      intro s
      rcases hb call s hc with ⟨text, s', h, -⟩ | ⟨cause, s', h, -⟩
      · exact ⟨[], _, s', s, ⟨.none s, h⟩, by simp, le_rfl, by simp, Or.inl ⟨text, rfl⟩⟩
      · exact ⟨[], _, s', s, ⟨.none s, h⟩, by simp, le_rfl, by simp, Or.inr ⟨cause, rfl⟩⟩
  | succ left ih =>
      intro s
      rcases hb call s hc with ⟨text, s', h, -⟩ | ⟨cause, s', h, -⟩
      · exact ⟨[], _, s', s, ⟨.none s, h⟩, by simp, by simp, by simp, Or.inl ⟨text, rfl⟩⟩
      · by_cases hcause : cause.isTransient = true
        · obtain ⟨causes, answer, s'', s₁, ⟨hf, ha⟩, ht, hl, hlast, hor⟩ := ih s'
          refine ⟨cause :: causes, answer, s'', s₁, ⟨.again h hf, ha⟩, ?_, ?_, ?_, hor⟩
          · exact List.forall_mem_cons.mpr ⟨hcause, ht⟩
          · simpa using hl
          · intro c hc' ht'
            rw [List.length_cons, hlast c hc' ht']
        · refine ⟨[], _, s', s, ⟨.none s, h⟩, by simp, by simp, ?_, Or.inr ⟨cause, rfl⟩⟩
          rintro c heq ht
          obtain rfl : cause = c := by simpa using heq
          exact absurd ht hcause

section Attempts

variable {call : Call} {cause : OsError} {s₁ : σ} {s : Retrying σ} {left tried : ℕ}

/-- After a failure that may pass, and a pause, the call is made again. -/
lemma callAgain_of_delay {delay : Binary64}
    (h : backend call s.store = (.error (.os cause), s₁)) (hc : cause.isTransient = true)
    (hleft : tried + (left + 1) = policy.maxRetries.toNat)
    (hd : policy.delay? tried = some delay) :
    callAgain policy backend call (left + 1) tried s =
      callAgain policy backend call left (tried + 1)
        ⟨s₁, s.pauses ++ [⟨call, cause, delay, tried + 1⟩]⟩ := by
  have hlt : tried < policy.maxRetries.toNat := by omega
  simp [callAgain, h, RetryPolicy.next, hc, hlt, hd]

lemma callAgain_of_no_delay (h : backend call s.store = (.error (.os cause), s₁))
    (hc : cause.isTransient = true) (hleft : tried + (left + 1) = policy.maxRetries.toNat)
    (hd : policy.delay? tried = none) :
    callAgain policy backend call (left + 1) tried s =
      (.error .delayTooLarge, { s with store := s₁ }) := by
  have hlt : tried < policy.maxRetries.toNat := by omega
  simp [callAgain, h, RetryPolicy.next, hc, hlt, hd]

/-- An answer that is no failure, a failure that does not pass and one after the last attempt are
final. -/
lemma callAgain_of_last {answer : Answer} (h : backend call s.store = (answer, s₁))
    (hlast : ∀ cause, answer = .error (.os cause) → cause.isTransient = true → left = 0) :
    callAgain policy backend call left tried s = (answer, { s with store := s₁ }) := by
  cases left with
  | zero => simp [callAgain, h]
  | succ left =>
      have hnext : policy.next call tried answer = .finish answer := by
        rcases answer with (cause | - | -) | text
        · have hc : cause.isTransient ≠ true := fun hc => by simpa using hlast cause rfl hc
          simp [RetryPolicy.next, hc]
        all_goals rfl
      simp [callAgain, h, hnext]

/-- Failures that may pass, each followed by a delay, are waited out. -/
lemma callAgain_of_fails {causes : List OsError} {s s' : σ} (h : Fails backend call causes s s')
    (ht : ∀ cause ∈ causes, cause.isTransient = true) (hl : causes.length ≤ left)
    (hleft : tried + left = policy.maxRetries.toNat)
    (hd : ∀ k < causes.length, policy.delay? (tried + k) ≠ none) (pauses : List Pause) :
    callAgain policy backend call left tried ⟨s, pauses⟩ =
      callAgain policy backend call (left - causes.length) (tried + causes.length)
        ⟨s', pauses ++ policy.pauses call tried causes⟩ := by
  induction h generalizing left tried pauses with
  | none s => simp [RetryPolicy.pauses]
  | @again cause causes s s₁ s' first others ih =>
      obtain ⟨hcause, ht'⟩ := List.forall_mem_cons.mp ht
      rw [List.length_cons] at hl hd
      obtain ⟨left, rfl⟩ : ∃ k, left = k + 1 := ⟨left - 1, by omega⟩
      obtain ⟨delay, hdelay⟩ := Option.ne_none_iff_exists'.mp (hd 0 (by omega))
      rw [callAgain_of_delay first hcause hleft hdelay]
      have hnext : ∀ k < causes.length, policy.delay? (tried + 1 + k) ≠ none := by
        intro k hk
        rw [Nat.add_assoc, Nat.add_comm 1]
        exact hd (k + 1) (by omega)
      have hleft' : tried + 1 + left = policy.maxRetries.toNat := by omega
      have hpauses : policy.pauses call tried (cause :: causes) =
          ⟨call, cause, delay, tried + 1⟩ :: policy.pauses call (tried + 1) causes := by
        rw [Nat.add_zero] at hdelay
        rw [RetryPolicy.pauses, hdelay]
      rw [ih ht' (Nat.le_of_succ_le_succ hl) hleft' hnext, hpauses, List.append_assoc,
        List.length_cons, show left + 1 - (causes.length + 1) = left - causes.length from by omega,
        show tried + 1 + causes.length = tried + (causes.length + 1) from by omega]
      rfl

end Attempts

/-- Some failures end where the first of them do, with the next failure. -/
lemma Fails.take {call : Call} {causes : List OsError} {s s' : σ}
    (h : Fails backend call causes s s') (k : ℕ) (hk : k < causes.length) :
    ∃ s₁ s₂, Fails backend call (causes.take k) s s₁ ∧
      backend call s₁ = (.error (.os causes[k]), s₂) := by
  induction h generalizing k with
  | none s => simp at hk
  | @again cause causes s s₁ s' first others ih =>
      cases k with
      | zero => exact ⟨s, s₁, .none s, first⟩
      | succ k =>
          obtain ⟨s₂, s₃, hf, hc⟩ := ih k (by simpa using hk)
          exact ⟨s₂, s₃, .again first hf, hc⟩

/-- **A settled call with retries** ends with the answer of its last attempt, if there is a delay
after each failure before it. -/
theorem retrying_of_settles {call : Call} {causes : List OsError} {answer : Answer} {s s' : σ}
    (h : Settles policy backend call causes answer s s') (hd : policy.Waits causes)
    (pauses : List Pause) :
    retrying policy backend call ⟨s, pauses⟩ =
      (answer, ⟨s', pauses ++ policy.pauses call 0 causes⟩) := by
  obtain ⟨s₁, hfails, hanswer⟩ := h.attempts
  rw [retrying, callAgain_of_fails hfails h.transient h.allowed (Nat.zero_add _)
    (fun k hk => by rw [Nat.zero_add]; exact hd k hk) pauses, callAgain_of_last hanswer]
  intro cause hc ht
  rw [h.last cause hc ht, Nat.sub_self]

/-- Otherwise it ends at the first failure without a delay. -/
theorem retrying_of_no_delay {call : Call} {causes : List OsError} {answer : Answer} {s s' : σ}
    (h : Settles policy backend call causes answer s s') {k : ℕ} (hk : k < causes.length)
    (hnone : policy.delay? k = none) (hbefore : ∀ i < k, policy.delay? i ≠ none)
    (pauses : List Pause) :
    ∃ s₁ s₂, Fails backend call (causes.take k) s s₁ ∧
      backend call s₁ = (.error (.os causes[k]), s₂) ∧
      retrying policy backend call ⟨s, pauses⟩ =
        (.error .delayTooLarge, ⟨s₂, pauses ++ policy.pauses call 0 (causes.take k)⟩) := by
  obtain ⟨s', hfails, -⟩ := h.attempts
  obtain ⟨s₁, s₂, hfirst, hcause⟩ := hfails.take k hk
  have hlength : (causes.take k).length = k := by
    rw [List.length_take]
    omega
  have hallowed := h.allowed
  have hrun := callAgain_of_fails hfirst (fun c hc => h.transient c (List.mem_of_mem_take hc))
    (show (causes.take k).length ≤ policy.maxRetries.toNat by omega) (Nat.zero_add _)
    (fun i hi => by
      rw [hlength] at hi
      rw [Nat.zero_add]
      exact hbefore i hi) pauses
  rw [hlength, Nat.zero_add] at hrun
  obtain ⟨left, hleft⟩ : ∃ left, policy.maxRetries.toNat - k = left + 1 :=
    ⟨policy.maxRetries.toNat - k - 1, by omega⟩
  rw [hleft] at hrun
  refine ⟨s₁, s₂, hfirst, hcause, ?_⟩
  rw [retrying, hrun]
  exact callAgain_of_no_delay hcause (h.transient _ (List.getElem_mem hk)) (by omega) hnone

/-- A call with a failure that no delay follows ends without an answer of the file system. -/
theorem retrying_of_overrun {call : Call} {causes : List OsError} {answer : Answer} {s s' : σ}
    (h : Settles policy backend call causes answer s s') (hd : ¬ policy.Waits causes)
    (pauses : List Pause) :
    ∃ stopped, retrying policy backend call ⟨s, pauses⟩ = (.error .delayTooLarge, stopped) := by
  have hex : ∃ k, k < causes.length ∧ policy.delay? k = none := by
    simpa [RetryPolicy.Waits] using hd
  classical
  obtain ⟨hk, hnone⟩ := Nat.find_spec hex
  obtain ⟨-, s₂, -, -, hrun⟩ := retrying_of_no_delay h hk hnone
    (fun i hi hi' => Nat.find_min hex hi ⟨by omega, hi'⟩) pauses
  exact ⟨_, hrun⟩

/-! ### Calls one after another -/

/-- Calls made one after another that all succeed in the end. -/
inductive Weathered (policy : RetryPolicy) (backend : Backend σ) : List Call → σ → σ → Prop
  | none (s : σ) : Weathered policy backend [] s s
  | next {call : Call} {calls : List Call} {causes : List OsError} {text : Option String}
      {s s₁ s' : σ} (first : Settles policy backend call causes (.ok text) s s₁)
      (others : Weathered policy backend calls s₁ s') :
      Weathered policy backend (call :: calls) s s'

/-- Calls made one after another, one of which fails so often that no delay is left. -/
inductive Overruns (policy : RetryPolicy) (backend : Backend σ) : List Call → σ → Prop
  | here {call : Call} {calls : List Call} {causes : List OsError} {answer : Answer} {s s' : σ}
      (first : Settles policy backend call causes answer s s') (stuck : ¬ policy.Waits causes) :
      Overruns policy backend (call :: calls) s
  | later {call : Call} {calls : List Call} {causes : List OsError} {text : Option String}
      {s s₁ : σ} (first : Settles policy backend call causes (.ok text) s s₁)
      (others : Overruns policy backend calls s₁) : Overruns policy backend (call :: calls) s

lemma Overruns.append {calls : List Call} {s : σ} (h : Overruns policy backend calls s)
    (calls' : List Call) : Overruns policy backend (calls ++ calls') s := by
  induction h with
  | here first stuck => exact .here first stuck
  | later first others ih => exact .later first ih

lemma Weathered.append_overruns {calls calls' : List Call} {s s' : σ}
    (h : Weathered policy backend calls s s') (h' : Overruns policy backend calls' s') :
    Overruns policy backend (calls ++ calls') s := by
  induction h with
  | none s => exact h'
  | next first others ih => exact .later first (ih h')

/-- Calls that succeed do so up to any of them. -/
lemma Weathered.split {calls calls' : List Call} {s s' : σ}
    (h : Weathered policy backend (calls ++ calls') s s') :
    ∃ s₁, Weathered policy backend calls s s₁ ∧ Weathered policy backend calls' s₁ s' := by
  induction calls generalizing s with
  | nil => exact ⟨s, .none s, h⟩
  | cons call calls ih =>
      cases h with
      | next first others =>
          obtain ⟨s₁, hcalls, hrest⟩ := ih others
          exact ⟨s₁, .next first hcalls, hrest⟩

/-- What calls leave that succeed in the end. -/
lemma Weathered.view_eq {τ : Type} {view : σ → τ} {effect : Call → τ → τ} {calls : List Call}
    {s s' : σ} (hb : FailsCleanly backend view effect)
    (hc : ∀ call ∈ calls, call.changes = true) (h : Weathered policy backend calls s s') :
    view s' = effects effect calls (view s) := by
  induction h with
  | none s => rfl
  | next first others ih =>
      obtain ⟨hcall, hcalls⟩ := List.forall_mem_cons.mp hc
      rw [ih hcalls, (first.view_eq hb hcall).1 _ rfl, effects_cons]

/-- Calls all succeed in the end, or there is a first that gives up. -/
lemma weathered_or_gives_up {τ : Type} {view : σ → τ} {effect : Call → τ → τ}
    (hb : FailsCleanly backend view effect) (policy : RetryPolicy) {calls : List Call}
    (hc : ∀ call ∈ calls, call.changes = true) (s : σ) :
    (∃ s', Weathered policy backend calls s s') ∨
      ∃ before call after s₁ causes cause s₂, calls = before ++ call :: after ∧
        Weathered policy backend before s s₁ ∧
        Settles policy backend call causes (.error (.os cause)) s₁ s₂ := by
  induction calls generalizing s with
  | nil => exact Or.inl ⟨s, .none s⟩
  | cons call calls ih =>
      obtain ⟨hcall, hcalls⟩ := List.forall_mem_cons.mp hc
      obtain ⟨causes, answer, s₁, hsettles, ⟨text, rfl⟩ | ⟨cause, rfl⟩⟩ :=
        exists_settles hb hcall policy s
      · rcases ih hcalls s₁ with ⟨s', h⟩ | ⟨before, last, after, s₂, cs, cause, s₃, rfl, hw, hs⟩
        · exact Or.inl ⟨s', .next hsettles h⟩
        · exact Or.inr ⟨call :: before, last, after, s₂, cs, cause, s₃, rfl, .next hsettles hw, hs⟩
      · exact Or.inr ⟨[], call, calls, s, causes, cause, s₁, rfl, .none s, hsettles⟩

/-- Steps whose calls succeed in the end all succeed, if delays are left. -/
lemma perform_of_weathered {steps : List Step} {s s' : σ}
    (h : Weathered policy backend (steps.map Step.call) s s')
    (hd : ¬ Overruns policy backend (steps.map Step.call) s) (pauses : List Pause) :
    ∃ pauses', perform (retrying policy backend) steps ⟨s, pauses⟩ = (none, ⟨s', pauses'⟩) := by
  induction steps generalizing s pauses with
  | nil =>
      cases h with
      | none => exact ⟨pauses, rfl⟩
  | cons step steps ih =>
      rw [List.map_cons] at h hd
      cases h with
      | next first others =>
          have hwaits := not_not.mp fun hstuck => hd (.here first hstuck)
          rw [perform_cons_ok steps (retrying_of_settles first hwaits pauses)]
          exact ih others (fun hothers => hd (.later first hothers)) _

/-- Steps one of whose calls fails too often end with that call, and with no failure of the file
system. -/
lemma perform_of_overruns {steps : List Step} {s : σ}
    (h : Overruns policy backend (steps.map Step.call) s) (pauses : List Pause) :
    ∃ step stopped, perform (retrying policy backend) steps ⟨s, pauses⟩ =
      (some (step, .delayTooLarge), stopped) := by
  induction steps generalizing s pauses with
  | nil => cases h
  | cons step steps ih =>
      rw [List.map_cons] at h
      cases h with
      | here first stuck =>
          obtain ⟨stopped, hrun⟩ := retrying_of_overrun first stuck pauses
          exact ⟨step, stopped, perform_cons_error steps hrun⟩
      | @later _ _ causes _ _ _ first others =>
          by_cases hwaits : policy.Waits causes
          · rw [perform_cons_ok steps (retrying_of_settles first hwaits pauses)]
            exact ih others _
          · obtain ⟨stopped, hrun⟩ := retrying_of_overrun first hwaits pauses
            exact ⟨step, stopped, perform_cons_error steps hrun⟩

/-- Where no more attempts are allowed than there are delays, no call overruns. -/
lemma not_overruns (h : ∀ n, policy.maxDoublings = some n → policy.maxRetries.toNat ≤ n + 1)
    (backend : Backend σ) (calls : List Call) (s : σ) : ¬ Overruns policy backend calls s := by
  intro hover
  induction hover with
  | @here call calls causes answer s s' first stuck =>
      refine stuck fun k hk => ?_
      have hallowed := first.allowed
      cases hn : policy.maxDoublings with
      | none => simp [RetryPolicy.delay?, hn]
      | some n =>
          have hle : k ≤ n := by
            have hn' := h n hn
            omega
          simp [RetryPolicy.delay?, hn, hle]
  | later first others ih => exact ih

/-! ### Calls that faults strike -/

/-- Steps that succeed at once succeed in the end. -/
lemma weathered_of_perform (policy : RetryPolicy) {steps : List Step} {s s' : σ}
    (h : perform backend steps s = (none, s')) :
    Weathered policy backend (steps.map Step.call) s s' := by
  induction steps generalizing s with
  | nil =>
      obtain rfl : s = s' := congrArg Prod.snd h
      exact .none s
  | cons step steps ih =>
      obtain ⟨answer, s₁, hb⟩ : ∃ answer s₁, backend step.call s = (answer, s₁) := ⟨_, _, rfl⟩
      cases answer with
      | ok text =>
          rw [perform_cons_ok steps hb] at h
          exact .next ⟨⟨s, .none s, hb⟩, by simp, by simp, by simp⟩ (ih h)
      | error error =>
          rw [perform_cons_error steps hb] at h
          simp at h

/-- A fault strikes a call as often as it says. -/
lemma fails_replicate (backend : Backend σ) (call : Call) (fault : StoreFault)
    (hop : fault.operation = call.operation)
    (hend : fault.pathEnd.toList.isSuffixOf call.path.toList = true) (store : σ)
    (faults : List StoreFault) (n calls : ℕ) :
    Fails (faulty backend) call (List.replicate n ⟨fault.errno, fault.reason, call.path⟩)
      ⟨store, { fault with times := n } :: faults, calls⟩
      ⟨store, { fault with times := 0 } :: faults, calls + n⟩ := by
  induction n generalizing calls with
  | zero => exact .none _
  | succ n ih =>
      have hstrike : strike? call ({ fault with times := ((n + 1 : ℕ) : Int) } :: faults) =
          some (⟨fault.errno, fault.reason, call.path⟩, { fault with times := n } :: faults) := by
        simp [strike?, StoreFault.strikes, hop, hend]
      have hlater := ih (calls + 1)
      rw [Nat.add_right_comm] at hlater
      exact .again (by rw [faulty, hstrike]) hlater

end RequestSuite
