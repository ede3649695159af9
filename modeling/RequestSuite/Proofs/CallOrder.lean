/-
The order of a build's calls, whatever the file system answers.

* `InTurn`: a log of calls each of which has been made after the one before it had succeeded;
* `InTurn.before`: what such a log holds before one of its calls;
* `perform_inTurn`: steps keep to their order on every file system;
* `build_inTurn`: a build keeps to the order of its tasks.
-/
import RequestSuite.Proofs.Execution

namespace RequestSuite

variable {σ : Type}

/-- A log of some calls made in their order, perhaps not to the end. A call is followed by the next
only if it has succeeded. -/
inductive InTurn : List Call → CallLog → Prop
  | left (calls : List Call) : InTurn calls []
  | failed (call : Call) (calls : List Call) (error : StoreError) :
      InTurn (call :: calls) [(call, .error error)]
  | succeeded (call : Call) (text : Option String) {calls : List Call} {log : CallLog}
      (later : InTurn calls log) : InTurn (call :: calls) ((call, .ok text) :: log)

lemma InTurn.of_append {calls : List Call} {log : CallLog} (h : InTurn calls log)
    (more : List Call) : InTurn (calls ++ more) log := by
  induction h with
  | left => exact .left _
  | failed call calls error => exact .failed call (calls ++ more) error
  | succeeded call text _ ih => exact .succeeded call text ih

/-- Calls that have all succeeded may be followed by others. -/
lemma Succeeded.append_inTurn {calls calls' : List Call} {log log' : CallLog}
    (h : Succeeded calls log) (h' : InTurn calls' log') :
    InTurn (calls ++ calls') (log ++ log') := by
  obtain ⟨rfl, hok⟩ := h
  induction log with
  | nil => exact h'
  | cons entry log ih =>
      obtain ⟨call, answer⟩ := entry
      obtain ⟨⟨text, rfl⟩, hlog⟩ := List.forall_mem_cons.mp hok
      exact .succeeded call text (ih hlog)

/-- **Before a call** come the calls that stand before it, and all of them have succeeded. -/
theorem InTurn.before {calls : List Call} {before after : CallLog} {entry : Call × Answer}
    (h : InTurn calls (before ++ entry :: after)) :
    ∃ first later, calls = first ++ entry.1 :: later ∧ Succeeded first before := by
  induction before generalizing calls with
  | nil =>
      cases h with
      | failed call calls error => exact ⟨[], calls, rfl, succeeded_nil⟩
      | @succeeded call text calls log later => exact ⟨[], calls, rfl, succeeded_nil⟩
  | cons earlier before ih =>
      generalize hlog : earlier :: before ++ entry :: after = log at h
      cases h with
      | left => simp at hlog
      | failed call calls error => simp at hlog
      | succeeded call text later =>
          rw [List.cons_append, List.cons.injEq] at hlog
          obtain ⟨rfl, rfl⟩ := hlog
          obtain ⟨first, rest, rfl, hfirst⟩ := ih later
          exact ⟨call :: first, rest, rfl, hfirst.cons call text⟩

/-- The steps of a list are made in their order, and all of them have succeeded if none is said to
have failed. -/
lemma perform_inTurn (backend : Backend σ) (steps : List Step) (s : σ) (log : CallLog) :
    ∃ failed s' made, perform (logged backend) steps (s, log) = (failed, (s', log ++ made)) ∧
      InTurn (steps.map Step.call) made ∧
      (failed = none → Succeeded (steps.map Step.call) made) := by
  induction steps generalizing s log with
  | nil => exact ⟨none, s, [], by simp [perform], .left _, fun _ => succeeded_nil⟩
  | cons step steps ih =>
      obtain ⟨answer, s₁, hb⟩ : ∃ answer s₁, backend step.call s = (answer, s₁) := ⟨_, _, rfl⟩
      have hl := logged_eq hb log
      cases answer with
      | ok text =>
          obtain ⟨failed, s', made, hp, hturn, hall⟩ := ih s₁ (log ++ [(step.call, .ok text)])
          refine ⟨failed, s', (step.call, .ok text) :: made, ?_, hturn.succeeded step.call text,
            fun hnone => (hall hnone).cons step.call text⟩
          rw [perform_cons_ok steps hl, hp, List.append_assoc, List.singleton_append]
      | error error =>
          refine ⟨some (step, error), s₁, [(step.call, .error error)], perform_cons_error steps hl,
            .failed step.call (steps.map Step.call) error, fun hnone => ?_⟩
          simp at hnone

lemma store_ofFailure (phases : List Phase) (step : Step) (error : StoreError) (s : σ) :
    (Execution.ofFailure phases step error s).store = s := by
  cases error <;> rfl

/-- The calls of an outline are made in their order. -/
lemma execute_inTurn (o : Outline) (backend : Backend σ) (s : σ) :
    InTurn ((o.opening ++ o.files).map Step.call) (o.execute (logged backend) (s, [])).store.2 := by
  obtain ⟨failed, s₁, log, hp, hturn, hall⟩ := perform_inTurn backend o.opening s []
  rw [List.map_append, Outline.execute, hp]
  cases failed with
  | some failure =>
      simp only [store_ofFailure]
      exact hturn.of_append _
  | none =>
      obtain ⟨failed', s₂, log', hp', hturn', -⟩ := perform_inTurn backend o.files s₁ ([] ++ log)
      have hboth : InTurn (o.opening.map Step.call ++ o.files.map Step.call) ([] ++ log ++ log') :=
        (hall rfl).append_inTurn hturn'
      simp only [hp']
      cases failed' with
      | some failure =>
          simp only [store_ofFailure]
          exact hboth
      | none => exact hboth

/-- **A build makes the calls of its tasks in their order**, on every file system, with every stack
and with all documents: the next only after the one before it has succeeded. -/
theorem build_inTurn (stack : Stack) (backend : Backend σ) (options : Options)
    (collection environment : Json) (root : String) (s : σ) :
    InTurn
      ((tasks options collection).map
        (Task.call options collection environment (FilePath.parse root)))
      (build stack (logged backend) options collection environment root (s, [])).store.2 := by
  by_cases hc : (checkCollection collection).ok = true
  swap
  · simpa [build, prepare, hc] using InTurn.left _
  by_cases he : (checkEnvironment environment).ok = true
  swap
  · simpa [build, prepare, hc, he] using InTurn.left _
  rcases prepared_or_unread hc he stack with hprepared | ⟨phases, overflow, hunread⟩
  swap
  · rw [hunread.build_eq]
    exact .left _
  obtain ⟨rest, hrest⟩ := exists_planTasks_eq_append stack options collection
  have hturn := execute_inTurn (outline stack options collection environment (FilePath.parse root))
    backend s
  rw [outline_opening, outline_files, ← List.map_append, map_call_step] at hturn
  rw [hprepared.build_eq, tasks, hrest, ← List.append_assoc, List.map_append]
  exact hturn.of_append _

end RequestSuite
