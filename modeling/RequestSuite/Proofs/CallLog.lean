/-
Calls on file systems that may fail.

* `Call.changes`: the calls that create or write something;
* `FailsCleanly`: a file system whose calls either have their effect or fail before it;
  `failsCleanly_memory` and `failsCleanly_faulty` give two;
* `logged`: a file system that keeps a log of the calls made on it and of their answers;
* `Succeeded`, `effects`: a log of calls none of which failed, and what these calls leave;
* `perform_append_of_none`, `perform_append_of_some`: some calls, then others;
* `perform_logged`: calls made one after another all succeed, or all before the first that fails
  do, and that one is the last;
* `perform_memory`, `perform_logged_fst`: in memory none fails, and a log changes nothing.
-/
import Mathlib.Tactic
import RequestSuite.Build.Run
import RequestSuite.Store.Memory

namespace RequestSuite

variable {σ τ : Type}

/-- Whether a call creates or writes something. -/
def Call.changes : Call → Bool
  | .read _ => false
  | .mkdir _ => true
  | .write .. => true

/-- A file system whose calls fail cleanly, seen through `view`: a call that creates or writes
something either succeeds and has its effect, or fails with an error of the system and has none.
Which calls fail may depend on the whole state, also on what is not seen of it. -/
def FailsCleanly (backend : Backend σ) (view : σ → τ) (effect : Call → τ → τ) : Prop :=
  ∀ call s, call.changes = true →
    (∃ text s', backend call s = (.ok text, s') ∧ view s' = effect call (view s)) ∨
      ∃ cause s', backend call s = (.error (.os cause), s') ∧ view s' = view s

/-- The effect of a call on the file system in memory. -/
def memoryEffect (call : Call) (m : Memory) : Memory := (memory call m).2

/-- In memory every call that creates or writes something succeeds. -/
lemma memory_of_changes {call : Call} (m : Memory) (h : call.changes = true) :
    memory call m = (.ok none, memoryEffect call m) := by
  cases call with
  | read path => simp [Call.changes] at h
  | mkdir path =>
      rw [memoryEffect, memory]
      split_ifs <;> rfl
  | write path text => rfl

lemma failsCleanly_memory : FailsCleanly memory id memoryEffect := fun _ m h =>
  Or.inl ⟨none, _, memory_of_changes m h, rfl⟩

/-- A file system that fails as faults say fails cleanly where the one below it does. -/
lemma failsCleanly_faulty {backend : Backend σ} {view : σ → τ} {effect : Call → τ → τ}
    (h : FailsCleanly backend view effect) :
    FailsCleanly (faulty backend) (fun s => view s.store) effect := by
  intro call s hc
  cases hs : strike? call s.faults with
  | some struck =>
      obtain ⟨cause, faults⟩ := struck
      exact Or.inr ⟨cause, { s with faults, calls := s.calls + 1 }, by rw [faulty, hs], rfl⟩
  | none =>
      rcases h call s.store hc with ⟨text, store, hb, hv⟩ | ⟨cause, store, hb, hv⟩
      · exact Or.inl ⟨text, { s with store, calls := s.calls + 1 }, by rw [faulty, hs, hb], hv⟩
      · exact Or.inr ⟨cause, { s with store, calls := s.calls + 1 }, by rw [faulty, hs, hb], hv⟩

/-! ### Logs -/

/-- Calls with their answers, in the order in which they were made. -/
abbrev CallLog := List (Call × Answer)

/-- A file system that keeps a log of the calls made on it. -/
def logged (backend : Backend σ) : Backend (σ × CallLog) := fun call s =>
  let (answer, store) := backend call s.1
  (answer, (store, s.2 ++ [(call, answer)]))

lemma logged_eq {backend : Backend σ} {call : Call} {s s' : σ} {answer : Answer}
    (h : backend call s = (answer, s')) (log : CallLog) :
    logged backend call (s, log) = (answer, (s', log ++ [(call, answer)])) := by
  rw [logged, h]

/-- A log of some calls none of which failed. -/
def Succeeded (calls : List Call) (log : CallLog) : Prop :=
  log.map Prod.fst = calls ∧ ∀ entry ∈ log, ∃ text, entry.2 = .ok text

lemma succeeded_nil : Succeeded [] [] := ⟨rfl, by simp⟩

lemma Succeeded.cons {calls : List Call} {log : CallLog} (call : Call) (text : Option String)
    (h : Succeeded calls log) : Succeeded (call :: calls) ((call, .ok text) :: log) := by
  refine ⟨by rw [List.map_cons, h.1], ?_⟩
  rw [List.forall_mem_cons]
  exact ⟨⟨text, rfl⟩, h.2⟩

lemma Succeeded.append {calls calls' : List Call} {log log' : CallLog} (h : Succeeded calls log)
    (h' : Succeeded calls' log') : Succeeded (calls ++ calls') (log ++ log') := by
  refine ⟨by rw [List.map_append, h.1, h'.1], ?_⟩
  rw [List.forall_mem_append]
  exact ⟨h.2, h'.2⟩

/-- What some calls leave that have their effect one after another. -/
def effects (effect : Call → τ → τ) (calls : List Call) (store : τ) : τ :=
  calls.foldl (fun store call => effect call store) store

lemma effects_cons (effect : Call → τ → τ) (call : Call) (calls : List Call) (store : τ) :
    effects effect (call :: calls) store = effects effect calls (effect call store) := rfl

lemma effects_append (effect : Call → τ → τ) (calls calls' : List Call) (store : τ) :
    effects effect (calls ++ calls') store =
      effects effect calls' (effects effect calls store) := by
  rw [effects, List.foldl_append]
  rfl

/-! ### Steps made one after another -/

variable {backend : Backend σ} {view : σ → τ} {effect : Call → τ → τ}

lemma perform_cons_ok {step : Step} {s s' : σ} {text : Option String} (steps : List Step)
    (h : backend step.call s = (.ok text, s')) :
    perform backend (step :: steps) s = perform backend steps s' := by
  rw [perform, h]

lemma perform_cons_error {step : Step} {s s' : σ} {error : StoreError} (steps : List Step)
    (h : backend step.call s = (.error error, s')) :
    perform backend (step :: steps) s = (some (step, error), s') := by
  rw [perform, h]

/-- Steps that succeed are followed by the others. -/
lemma perform_append_of_none {steps : List Step} {s s' : σ} (steps' : List Step)
    (h : perform backend steps s = (none, s')) :
    perform backend (steps ++ steps') s = perform backend steps' s' := by
  induction steps generalizing s with
  | nil =>
      obtain rfl : s = s' := congrArg Prod.snd h
      rfl
  | cons step steps ih =>
      obtain ⟨answer, s₁, hb⟩ : ∃ answer s₁, backend step.call s = (answer, s₁) := ⟨_, _, rfl⟩
      cases answer with
      | ok text =>
          rw [perform_cons_ok steps hb] at h
          rw [List.cons_append, perform_cons_ok _ hb, ih h]
      | error error =>
          rw [perform_cons_error steps hb] at h
          simp at h

/-- Steps one of which fails are not followed by others. -/
lemma perform_append_of_some {steps : List Step} {s s' : σ} {failure : Step × StoreError}
    (steps' : List Step) (h : perform backend steps s = (some failure, s')) :
    perform backend (steps ++ steps') s = (some failure, s') := by
  induction steps generalizing s with
  | nil => simp [perform] at h
  | cons step steps ih =>
      obtain ⟨answer, s₁, hb⟩ : ∃ answer s₁, backend step.call s = (answer, s₁) := ⟨_, _, rfl⟩
      cases answer with
      | ok text =>
          rw [perform_cons_ok steps hb] at h
          rw [List.cons_append, perform_cons_ok _ hb, ih h]
      | error error =>
          rw [perform_cons_error steps hb] at h
          rw [List.cons_append, perform_cons_error _ hb, h]

/-- **Steps on a file system that fails cleanly**: either all succeed, and the store is what their
calls leave, or there is a first that fails. Then the calls before it have succeeded, the store is
what they leave, the log ends with the failed call, and its error is what is reported. -/
theorem perform_logged (hb : FailsCleanly backend view effect) {steps : List Step}
    (hs : ∀ step ∈ steps, step.call.changes = true) (s : σ) (log : CallLog) :
    (∃ s' made, perform (logged backend) steps (s, log) = (none, (s', log ++ made)) ∧
      Succeeded (steps.map Step.call) made ∧
      view s' = effects effect (steps.map Step.call) (view s)) ∨
    ∃ before step after cause s' made, steps = before ++ step :: after ∧
      perform (logged backend) steps (s, log) =
        (some (step, .os cause), (s', log ++ made ++ [(step.call, .error (.os cause))])) ∧
      Succeeded (before.map Step.call) made ∧
      view s' = effects effect (before.map Step.call) (view s) := by
  induction steps generalizing s log with
  | nil => exact Or.inl ⟨s, [], by simp [perform], succeeded_nil, rfl⟩
  | cons step steps ih =>
      obtain ⟨hstep, hsteps⟩ := List.forall_mem_cons.mp hs
      rcases hb step.call s hstep with ⟨text, s₁, h₁, hv⟩ | ⟨cause, s₁, h₁, hv⟩
      · rw [perform_cons_ok _ (logged_eq h₁ log)]
        rcases ih hsteps s₁ (log ++ [(step.call, .ok text)]) with
          ⟨s', made, hp, hm, hv'⟩ | ⟨before, last, after, cause, s', made, rfl, hp, hm, hv'⟩
        · refine Or.inl ⟨s', (step.call, .ok text) :: made, ?_, hm.cons _ _, ?_⟩
          · rw [hp, List.append_assoc, List.singleton_append]
          · rw [List.map_cons, effects_cons, ← hv, hv']
        · refine Or.inr ⟨step :: before, last, after, cause, s',
            (step.call, .ok text) :: made, rfl, ?_, hm.cons _ _, ?_⟩
          · rw [hp, List.append_assoc log, List.singleton_append]
          · rw [List.map_cons, effects_cons, ← hv, hv']
      · refine Or.inr ⟨[], step, steps, cause, s₁, [], rfl, ?_, succeeded_nil, hv⟩
        rw [perform_cons_error _ (logged_eq h₁ log), List.append_nil]

/-- Steps in memory all succeed. -/
lemma perform_memory {steps : List Step} (hs : ∀ step ∈ steps, step.call.changes = true)
    (m : Memory) :
    perform memory steps m = (none, effects memoryEffect (steps.map Step.call) m) := by
  induction steps generalizing m with
  | nil => rfl
  | cons step steps ih =>
      obtain ⟨hstep, hsteps⟩ := List.forall_mem_cons.mp hs
      rw [perform_cons_ok steps (memory_of_changes m hstep), ih hsteps, List.map_cons,
        effects_cons]

/-- A log changes nothing of what steps do. -/
lemma perform_logged_fst (backend : Backend σ) (steps : List Step) (s : σ) (log : CallLog) :
    ∃ log', perform (logged backend) steps (s, log) =
      ((perform backend steps s).1, ((perform backend steps s).2, log')) := by
  induction steps generalizing s log with
  | nil => exact ⟨log, rfl⟩
  | cons step steps ih =>
      obtain ⟨answer, s₁, hb⟩ : ∃ answer s₁, backend step.call s = (answer, s₁) := ⟨_, _, rfl⟩
      have hl := logged_eq hb log
      cases answer with
      | ok text =>
          rw [perform_cons_ok steps hb, perform_cons_ok steps hl]
          exact ih _ _
      | error error =>
          rw [perform_cons_error steps hb, perform_cons_error steps hl]
          exact ⟨_, rfl⟩

end RequestSuite
