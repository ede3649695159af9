/-
Builds on file systems that may fail at any call.

* `Reached`: what a build has come to that has made some calls;
* `BuildEnd`: how a build ends: with its report, or with the first call that failed;
* `BuildStuck`, `ComesToOverflow`: how a build ends that finds the stack full, and when it does;
* `perform_tasks`: the tasks of a build on a file system that fails cleanly;
* `Prepared.buildEnd_of_root_error`, `Prepared.buildEnd_of_plan_error`,
  `Prepared.buildEnd_of_no_error`, `Prepared.buildStuck_of_no_error`: how a build ends that has been
  worked out, by the first of its calls that fails;
* `Prepared.build_ends`, `Unread.buildStuck`: every build of usable documents ends in one of these ways;
* `exists_build_logged`, `build_logged`: the log by which the calls are seen changes nothing;
* `build_stops_at_first_failure`: the calls of a build are those of its tasks, in order, up to the
  first that fails, exactly if there is room on the stack for what comes before it;
* `build_ends_at_deep_body`: a build that ends while it writes test files, though no call fails.
-/
import RequestSuite.Proofs.Execution

namespace RequestSuite

variable {σ τ : Type}

/-- How a build ends whose tasks `done` have succeeded: the calls of these tasks are the first in
the log, and what they leave is what is seen of the store. -/
structure Reached (view : σ → τ) (effect : Call → τ → τ) (calls : List Call) (start : τ)
    (log : CallLog) (store : σ) : Prop where
  log_succeeded : Succeeded calls log
  view_store : view store = effects effect calls start

variable (view : σ → τ) (effect : Call → τ → τ) (call : Task → Call) (all : List Task) (start : τ)

/-- How a build ends that has the tasks `all`, seen in its result, its phases, its log and what is
left of the store. -/
inductive BuildEnd (run : Execution (σ × CallLog)) : Prop
  /-- All tasks are done, and there is a report. -/
  | done (outcome : Outcome)
      (reached : Reached view effect (all.map call) start run.store.2 run.store.1)
      (result : run.result = .ok outcome)
      (phases : run.phases = openingPhases ++ [.walking, .done])
  /-- The call of a task has failed, and it is the last that was made. -/
  | failed (before after : List Task) (task : Task) (cause : OsError) (log : CallLog)
      (order : all = before ++ task :: after)
      (last : run.store.2 = log ++ [(call task, .error (.os cause))])
      (reached : Reached view effect (before.map call) start log run.store.1)
      (result : run.result = .error (.emission (call task).path task.request? cause))
      (phases : run.phases = failedPhases task.phase)

/-- How a build ends that finds the stack full after the tasks `first`: these are done, it ends in
the phases and with the overflow of `stop?`, and there is no word of a request. -/
structure BuildStuck (first : List Task) (stop? : Option (List Phase × Overflow))
    (run : Execution (σ × CallLog)) : Prop where
  stopped : ∃ overflow, stop? = some (run.phases, overflow) ∧
    run.result = .error (.overflow overflow)
  reached : Reached view effect (first.map call) start run.store.2 run.store.1

/-- Whether a build comes to something for which there is no room on the stack, as no call before
it fails. -/
def ComesToOverflow (stack : Stack) (backend : Backend σ) (options : Options)
    (collection environment : Json) (root : FilePath) (s : σ) : Prop :=
  (firstOverflow? stack options collection environment).isSome = true ∧
    (perform backend ((reachableTasks stack options collection environment).map
      (Task.step options collection environment root)) s).1 = none

instance (stack : Stack) (backend : Backend σ) (options : Options)
    (collection environment : Json) (root : FilePath) (s : σ) :
    Decidable (ComesToOverflow stack backend options collection environment root s) :=
  inferInstanceAs (Decidable (_ ∧ _))

variable {view : σ → τ} {effect : Call → τ → τ} {backend : Backend σ} {stack : Stack}
variable {options : Options} {collection environment : Json} {root : String}

/-- The tasks of some steps, made one after another on a file system that fails cleanly and keeps a
log. -/
lemma perform_tasks (hb : FailsCleanly backend view effect) (options : Options)
    (collection environment : Json) (root : FilePath) (list : List Task) (s : σ) (log : CallLog) :
    (∃ s' made, perform (logged backend)
        (list.map (Task.step options collection environment root)) (s, log) =
          (none, (s', log ++ made)) ∧
      Reached view effect (list.map (Task.call options collection environment root)) (view s) made
        s') ∨
    ∃ before task after cause s' made, list = before ++ task :: after ∧
      perform (logged backend)
        (list.map (Task.step options collection environment root)) (s, log) =
          (some (task.step options collection environment root, .os cause),
            (s', log ++ made ++
              [(task.call options collection environment root, .error (.os cause))])) ∧
      Reached view effect (before.map (Task.call options collection environment root)) (view s)
        made s' := by
  rcases perform_logged hb (changes_of_mem_map_step options collection environment root list) s
      log with
    ⟨s', made, hp, hm, hv⟩ | ⟨before, step, after, cause, s', made, heq, hp, hm, hv⟩
  · rw [map_call_step] at hm hv
    exact Or.inl ⟨s', made, hp, hm, hv⟩
  · obtain ⟨first, task, later, hlist, rfl, rfl⟩ := exists_of_map_step_eq_append heq
    rw [map_call_step] at hm hv
    exact Or.inr ⟨first, task, later, cause, s', made, hlist, hp, hm, hv⟩

lemma Reached.append {calls calls' : List Call} {start : τ} {log log' : CallLog} {store store' : σ}
    (h : Reached view effect calls start log store)
    (h' : Reached view effect calls' (view store) log' store') :
    Reached view effect (calls ++ calls') start (log ++ log') store' := by
  refine ⟨h.log_succeeded.append h'.log_succeeded, ?_⟩
  rw [h'.view_store, h.view_store, effects_append]

/-- A log changes nothing of whether a build finds the stack full. -/
lemma comesToOverflow_iff_logged (stack : Stack) (backend : Backend σ) (options : Options)
    (collection environment : Json) (root : FilePath) (s : σ) (log : CallLog) :
    ComesToOverflow stack (logged backend) options collection environment root (s, log) ↔
      ComesToOverflow stack backend options collection environment root s := by
  obtain ⟨log', h⟩ := perform_logged_fst backend
    ((reachableTasks stack options collection environment).map
      (Task.step options collection environment root)) s log
  rw [ComesToOverflow, ComesToOverflow, h]

/-- A build that finds the stack full is not done. -/
lemma getLast?_of_firstOverflow? {phases : List Phase} {overflow : Overflow}
    (h : firstOverflow? stack options collection environment = some (phases, overflow)) :
    phases.getLast? ≠ some .done := by
  rw [firstOverflow?] at h
  split at h
  · obtain ⟨rfl, -⟩ := Prod.mk.inj (Option.some.inj h)
    simp
  · obtain ⟨rfl, -⟩ := Prod.mk.inj (Option.some.inj h)
    simp
  · obtain ⟨obstacle, -, heq⟩ := Option.map_eq_some_iff.mp h
    obtain ⟨rfl, -⟩ := Prod.mk.inj heq
    simp

/-- Documents for which there is no room on the stack before the first call. -/
lemma Unread.buildStuck {phases : List Phase} {overflow : Overflow}
    (h : Unread stack collection environment phases overflow) (s : σ) :
    let call := Task.call options collection environment (FilePath.parse root)
    BuildStuck view effect call (view s) (reachableTasks stack options collection environment)
        (firstOverflow? stack options collection environment)
        (build stack (logged backend) options collection environment root (s, [])) ∧
      ComesToOverflow stack (logged backend) options collection environment (FilePath.parse root)
        (s, []) := by
  intro call
  rw [ComesToOverflow, h.build_eq, h.reachableTasks_eq, h.firstOverflow?_eq]
  exact ⟨⟨⟨overflow, rfl, rfl⟩, succeeded_nil, rfl⟩, rfl, rfl⟩

namespace Prepared

variable {s s₁ s₂ : σ} {log made : CallLog} {before after : List Task} {task : Task}
variable {cause : OsError}

/-- A call at the root that fails ends a build. -/
lemma buildEnd_of_root_error (h : Prepared stack collection environment)
    (hp : perform (logged backend) ((rootTasks options).map
      (Task.step options collection environment (FilePath.parse root))) (s, []) =
        (some (task.step options collection environment (FilePath.parse root), .os cause), (s₁,
          made ++ [(task.call options collection environment (FilePath.parse root),
            .error (.os cause))])))
    (hcut : rootTasks options = before ++ task :: after)
    (hreached : Reached view effect
      (before.map (Task.call options collection environment (FilePath.parse root))) (view s) made
      s₁) :
    BuildEnd view effect (Task.call options collection environment (FilePath.parse root))
      (tasks options collection) (view s)
      (build stack (logged backend) options collection environment root (s, [])) := by
  have hmem : task ∈ rootTasks options := by simp [hcut]
  have hphase : task.phase = .emitting := phase_of_mem_rootTasks hmem
  rw [← outline_opening stack] at hp
  rw [h.build_eq, execute_of_opening_error hp]
  refine .failed before (after ++ planTasks (planOf options collection)) task cause made ?_ rfl
    hreached rfl ?_
  · rw [tasks, hcut, List.append_assoc, List.cons_append]
  · rw [hphase]

/-- Another call that fails ends a build. -/
lemma buildEnd_of_plan_error (h : Prepared stack collection environment)
    (hp : perform (logged backend) ((rootTasks options).map
      (Task.step options collection environment (FilePath.parse root))) (s, []) =
        (none, (s₁, log)))
    (hp' : perform (logged backend) ((plannedTasks stack options collection).map
      (Task.step options collection environment (FilePath.parse root))) (s₁, log) =
        (some (task.step options collection environment (FilePath.parse root), .os cause), (s₂,
          made ++ [(task.call options collection environment (FilePath.parse root),
            .error (.os cause))])))
    (hcut : plannedTasks stack options collection = before ++ task :: after)
    (hreached : Reached view effect ((rootTasks options ++ before).map
      (Task.call options collection environment (FilePath.parse root))) (view s) made s₂) :
    BuildEnd view effect (Task.call options collection environment (FilePath.parse root))
      (tasks options collection) (view s)
      (build stack (logged backend) options collection environment root (s, [])) := by
  obtain ⟨rest, hrest⟩ := exists_planTasks_eq_append stack options collection
  have hmem : task ∈ plannedTasks stack options collection := by simp [hcut]
  have hphase : task.phase = .walking := phase_of_mem_plannedTasks hmem
  rw [← outline_opening stack] at hp
  rw [← outline_files] at hp'
  rw [h.build_eq, execute_of_files_error hp hp']
  refine .failed (rootTasks options ++ before) (after ++ rest) task cause made ?_ rfl hreached rfl
    ?_
  · rw [tasks, hrest, hcut]
    simp
  · rw [hphase]

/-- A build none of whose calls fails ends with its report, if there is room for all its files. -/
lemma buildEnd_of_no_error (h : Prepared stack collection environment)
    (hp : perform (logged backend) ((rootTasks options).map
      (Task.step options collection environment (FilePath.parse root))) (s, []) =
        (none, (s₁, log)))
    (hp' : perform (logged backend) ((plannedTasks stack options collection).map
      (Task.step options collection environment (FilePath.parse root))) (s₁, log) =
        (none, (s₂, made)))
    (hreached : Reached view effect
      ((rootTasks options ++ plannedTasks stack options collection).map
        (Task.call options collection environment (FilePath.parse root))) (view s) made s₂)
    (ho : (outline stack options collection environment (FilePath.parse root)).obstacle = none) :
    BuildEnd view effect (Task.call options collection environment (FilePath.parse root))
      (tasks options collection) (view s)
      (build stack (logged backend) options collection environment root (s, [])) := by
  rw [plannedTasks_of_no_obstacle ho] at hreached
  rw [← outline_opening stack] at hp
  rw [← outline_files] at hp'
  rw [h.build_eq, execute_of_no_error hp hp', Outline.result, ho]
  exact .done _ hreached rfl rfl

/-- If there is no room for one of its files, a build none of whose calls fails does not go on
there. -/
lemma buildStuck_of_no_error (h : Prepared stack collection environment)
    (hp : perform (logged backend) ((rootTasks options).map
      (Task.step options collection environment (FilePath.parse root))) (s, []) =
        (none, (s₁, log)))
    (hp' : perform (logged backend) ((plannedTasks stack options collection).map
      (Task.step options collection environment (FilePath.parse root))) (s₁, log) =
        (none, (s₂, made)))
    (hreached : Reached view effect
      ((rootTasks options ++ plannedTasks stack options collection).map
        (Task.call options collection environment (FilePath.parse root))) (view s) made s₂)
    {overflow : Overflow}
    (ho : (outline stack options collection environment (FilePath.parse root)).obstacle =
      some overflow) :
    BuildStuck view effect (Task.call options collection environment (FilePath.parse root))
      (view s) (reachableTasks stack options collection environment)
      (firstOverflow? stack options collection environment)
      (build stack (logged backend) options collection environment root (s, [])) := by
  rw [← h.reachableTasks_eq] at hreached
  rw [← outline_opening stack] at hp
  rw [← outline_files] at hp'
  rw [h.build_eq, execute_of_no_error hp hp', Outline.result, h.firstOverflow?_eq, ho]
  exact ⟨⟨overflow, rfl, rfl⟩, hreached⟩

/-- How a build that is worked out ends. The tasks at the root come first, in a phase of their own,
and the others follow only if none of these fails. -/
lemma build_ends (h : Prepared stack collection environment)
    (hb : FailsCleanly backend view effect) (s : σ) :
    let run := build stack (logged backend) options collection environment root (s, [])
    let call := Task.call options collection environment (FilePath.parse root)
    let stuck := ComesToOverflow stack (logged backend) options collection environment
      (FilePath.parse root) (s, [])
    BuildEnd view effect call (tasks options collection) (view s) run ∧ ¬ stuck ∨
      BuildStuck view effect call (view s) (reachableTasks stack options collection environment)
        (firstOverflow? stack options collection environment) run ∧ stuck := by
  intro run call stuck
  have hreach : reachableTasks stack options collection environment = _ := h.reachableTasks_eq
  have hfirst : firstOverflow? stack options collection environment = _ :=
    h.firstOverflow?_eq (FilePath.parse root)
  set others := plannedTasks stack options collection with hothers
  rcases perform_tasks hb options collection environment (FilePath.parse root) (rootTasks options) s
      [] with
    ⟨s₁, made, hp, hreached⟩ | ⟨before, task, after, cause, s₁, made, hcut, hp, hreached⟩
  · have hboth := perform_append_of_none (others.map
      (Task.step options collection environment (FilePath.parse root))) hp
    rw [← List.map_append, ← hreach] at hboth
    rcases perform_tasks hb options collection environment (FilePath.parse root) others s₁
        ([] ++ made) with
      ⟨s₂, made', hp', hreached'⟩ | ⟨before, task, after, cause, s₂, made', hcut, hp', hreached'⟩
    · have hall := hreached.append hreached'
      rw [← List.map_append] at hall
      have hnone := hboth.trans hp'
      cases ho : (outline stack options collection environment (FilePath.parse root)).obstacle with
      | none =>
          refine Or.inl ⟨h.buildEnd_of_no_error hp hp' hall ho, fun hstuck => ?_⟩
          simpa [hfirst, ho] using hstuck.1
      | some overflow =>
          refine Or.inr ⟨h.buildStuck_of_no_error hp hp' hall ho, ?_, ?_⟩
          · simp [hfirst, ho]
          · rw [hnone]
    · have hall := hreached.append hreached'
      rw [← List.map_append] at hall
      have hsome := hboth.trans hp'
      refine Or.inl ⟨h.buildEnd_of_plan_error hp hp' hcut hall, fun hstuck => ?_⟩
      have hnone := hstuck.2
      rw [hsome] at hnone
      simp at hnone
  · have hsome := perform_append_of_some (others.map
      (Task.step options collection environment (FilePath.parse root))) hp
    rw [← List.map_append, ← hreach] at hsome
    refine Or.inl ⟨h.buildEnd_of_root_error hp hcut hreached, fun hstuck => ?_⟩
    have hnone := hstuck.2
    rw [hsome] at hnone
    simp at hnone

end Prepared

/-- A log changes nothing of what a build does, whatever is in it already. -/
lemma exists_build_logged (stack : Stack) (backend : Backend σ) (options : Options)
    (collection environment : Json) (root : String) (s : σ) (log : CallLog) :
    let run := build stack backend options collection environment root s
    ∃ log', build stack (logged backend) options collection environment root (s, log) =
      ⟨run.result, run.phases, (run.store, log')⟩ := by
  intro run
  simp only [run, build]
  cases prepare stack options collection environment root with
  | error e => exact ⟨log, rfl⟩
  | ok o =>
      simp only [Outline.execute]
      obtain ⟨log₁, hlog₁⟩ := perform_logged_fst backend o.opening s log
      rw [hlog₁]
      obtain ⟨failed, s₁, hp⟩ : ∃ failed s₁, perform backend o.opening s = (failed, s₁) :=
        ⟨_, _, rfl⟩
      rw [hp]
      cases failed with
      | some failure =>
          obtain ⟨step, error⟩ := failure
          cases error <;> exact ⟨log₁, rfl⟩
      | none =>
          obtain ⟨log₂, hlog₂⟩ := perform_logged_fst backend o.files s₁ log₁
          simp only [hlog₂]
          obtain ⟨failed', s₂, hp'⟩ : ∃ failed s₂, perform backend o.files s₁ = (failed, s₂) :=
            ⟨_, _, rfl⟩
          rw [hp']
          cases failed' with
          | some failure =>
              obtain ⟨step, error⟩ := failure
              cases error <;> exact ⟨log₂, rfl⟩
          | none => exact ⟨log₂, rfl⟩

/-- A build is what is seen of one with a log. -/
lemma build_logged (stack : Stack) (backend : Backend σ) (options : Options)
    (collection environment : Json) (root : String) (s : σ) :
    let run := build stack (logged backend) options collection environment root (s, [])
    build stack backend options collection environment root s =
      ⟨run.result, run.phases, run.store.1⟩ := by
  intro run
  obtain ⟨log, hlog⟩ := exists_build_logged stack backend options collection environment root s []
  simp only [run, hlog]

section Conclusions

variable {call : Task → Call} {all first : List Task} {start : τ} {run : Execution (σ × CallLog)}

/-- The calls of a build that ends so are the first of its tasks. -/
lemma BuildEnd.calls_prefix (h : BuildEnd view effect call all start run) :
    run.store.2.map Prod.fst <+: all.map call := by
  cases h with
  | done outcome reached =>
      rw [reached.log_succeeded.1]
  | failed before after task cause log order last reached =>
      rw [last, order, List.map_append, reached.log_succeeded.1]
      exact ⟨after.map call, by simp⟩

/-- A build that ends so is done exactly if there is a report. -/
lemma BuildEnd.done_iff (h : BuildEnd view effect call all start run) :
    run.phases.getLast? = some .done ↔ ∃ outcome, run.result = .ok outcome := by
  cases h with
  | done outcome reached result phases =>
      rw [result, phases]
      exact ⟨fun _ => ⟨outcome, rfl⟩, fun _ => rfl⟩
  | failed before after task cause log order last reached result phases =>
      rw [result, phases, failedPhases, List.getLast?_append]
      simp

/-- A build that does not go on has not ended with a report or a failed call. -/
lemma BuildStuck.not_end {stop? : Option (List Phase × Overflow)}
    (h : BuildStuck view effect call start first stop? run) :
    ¬ BuildEnd view effect call all start run := by
  obtain ⟨overflow, -, hresult⟩ := h.stopped
  rintro (⟨outcome, -, hdone⟩ | ⟨first, later, task, cause, log, -, -, -, hfailed⟩)
  · rw [hresult] at hdone
    cases hdone
  · rw [hresult] at hfailed
    cases hfailed

/-- A build that does not go on is not done, and there is no report. -/
lemma BuildStuck.done_iff (h : BuildStuck view effect call start first
      (firstOverflow? stack options collection environment) run) :
    run.phases.getLast? = some .done ↔ ∃ outcome, run.result = .ok outcome := by
  obtain ⟨overflow, hstop, hresult⟩ := h.stopped
  refine iff_of_false (getLast?_of_firstOverflow? hstop) ?_
  rintro ⟨outcome, hdone⟩
  rw [hresult] at hdone
  cases hdone

end Conclusions

/-- **Builds stop at the first call that fails.** On a file system whose calls fail cleanly, on any
schedule, a build of usable documents ends with all of its calls made and a report, or with the
first call that fails, which its error names together with the request of the task, if that is a
test file; exactly the builds that find the stack full do not. Those end where they do, after the
tasks before, without a report and without an error that names a request. The calls of a build are
in any case the first of its tasks in order, what is left of the store is what the successful ones
leave, and the last phase is that of success exactly if there is a report. The log by which the
calls are seen changes nothing. -/
theorem build_stops_at_first_failure (stack : Stack) (hb : FailsCleanly backend view effect)
    (hc : (checkCollection collection).ok = true)
    (he : (checkEnvironment environment).ok = true) (s : σ) :
    let call := Task.call options collection environment (FilePath.parse root)
    let stuck := ComesToOverflow stack backend options collection environment (FilePath.parse root)
      s
    let run := build stack (logged backend) options collection environment root (s, [])
    (BuildEnd view effect call (tasks options collection) (view s) run ↔ ¬ stuck) ∧
      (BuildStuck view effect call (view s) (reachableTasks stack options collection environment)
        (firstOverflow? stack options collection environment) run ↔ stuck) ∧
      run.store.2.map Prod.fst <+: (tasks options collection).map call ∧
      (run.phases.getLast? = some .done ↔ ∃ outcome, run.result = .ok outcome) ∧
      build stack backend options collection environment root s =
        ⟨run.result, run.phases, run.store.1⟩ := by
  intro call stuck run
  have hlogged := build_logged stack backend options collection environment root s
  have hstuck := comesToOverflow_iff_logged stack backend options collection environment
    (FilePath.parse root) s []
  have hends : BuildEnd view effect call (tasks options collection) (view s) run ∧ ¬ stuck ∨
      BuildStuck view effect call (view s) (reachableTasks stack options collection environment)
        (firstOverflow? stack options collection environment) run ∧ stuck := by
    simp only [stuck, ← hstuck]
    rcases prepared_or_unread hc he stack with hprepared | ⟨phases, overflow, hunread⟩
    · exact hprepared.build_ends hb s
    · exact Or.inr (hunread.buildStuck s)
  rcases hends with ⟨hend, hnot⟩ | ⟨hstop, hcomes⟩
  · exact ⟨iff_of_true hend hnot, iff_of_false (fun hstop => hstop.not_end hend) hnot,
      hend.calls_prefix, hend.done_iff, hlogged⟩
  · obtain ⟨rest, hrest⟩ := exists_tasks_eq_append stack options collection environment
    refine ⟨iff_of_false hstop.not_end (not_not_intro hcomes), iff_of_true hstop hcomes, ?_,
      hstop.done_iff, hlogged⟩
    rw [hrest, List.map_append, hstop.reached.log_succeeded.1]
    exact List.prefix_append _ _

/-- A collection of two requests. -/
def twoRequests : Json :=
  .obj [("info", .obj [("name", .str "API"), ("schema", .str "v2")]),
    ("item", .arr [.obj [("name", .str "First"), ("request", .str "https://host/first")],
      .obj [("name", .str "Second"), ("request", .str "https://host/second")]])]

/-- A file system in memory on which one test file cannot be written. -/
def fullDisk : Faulty Memory where
  store := {}
  faults := [⟨"write", "second.test.js", 28, "No space left on device", 1⟩]

/-- A build of two requests whose second file cannot be written ends with that call, and the calls
it has made are the first of its tasks. -/
theorem build_stops_at_full_disk :
    let call := Task.call {} twoRequests .null (FilePath.parse "out")
    let run := build .ample (logged (faulty memory)) {} twoRequests .null "out" (fullDisk, [])
    (checkCollection twoRequests).ok = true ∧ (checkEnvironment .null).ok = true ∧
      BuildEnd (fun s => s.store) memoryEffect call (tasks {} twoRequests) {} run ∧
      run.store.2.map Prod.fst <+: (tasks {} twoRequests).map call ∧
      run.phases = failedPhases .walking := by
  intro call run
  have hc : (checkCollection twoRequests).ok = true := by decide +kernel
  have he : (checkEnvironment .null).ok = true := by decide +kernel
  have hstuck : ¬ ComesToOverflow .ample (faulty memory) {} twoRequests .null
      (FilePath.parse "out") fullDisk := by
    decide +kernel
  obtain ⟨hend, -, hprefix, -⟩ :=
    build_stops_at_first_failure .ample (failsCleanly_faulty failsCleanly_memory) hc he fullDisk
  exact ⟨hc, he, hend.mpr hstuck, hprefix, by decide +kernel⟩

/-! ### A body of too many levels -/

/-- A body of many opening brackets. -/
def bracketText : String := String.ofList (List.replicate 2000 '[')

/-- A collection whose one request has such a body. -/
def bracketDocument : Json :=
  .obj [("info", .obj [("name", .str "API"), ("schema", .str "v2")]),
    ("item", .arr [.obj [("name", .str "Deep"), ("request", .obj [("method", .str "POST"),
      ("url", .str "/deep"),
      ("body", .obj [("mode", .str "raw"), ("raw", .str bracketText)])])]])]

/-- A stack that is too small for a body that starts with so many brackets. -/
lemma exists_readingOverflow_shallow (levels count : ℕ) (hpos : 0 < levels) (h : levels ≤ count) :
    ∃ overflow, readingOverflow? (.shallow levels)
      (some ⟨"raw", some (String.ofList (List.replicate count '['))⟩) = some overflow := by
  have hstarts : (List.replicate levels '[').isPrefixOf (List.replicate count '[') = true :=
    List.isPrefixOf_iff_prefix.mpr (List.prefix_replicate_iff.mpr ⟨by simpa using h, by simp⟩)
  have hne : String.ofList (List.replicate count '[') ≠ "" := by
    rw [Ne, String.ofList_eq_empty_iff, List.replicate_eq_nil_iff]
    omega
  rw [readingOverflow?, if_neg hne, String.toList_ofList, Stack.shallow]
  simp only [hstarts]
  exact ⟨_, rfl⟩

/-- Its one entry is the obstacle of its outline. -/
lemma outline_bracketDocument :
    ∃ overflow, (outline (.shallow 1000) {} bracketDocument .null
      (FilePath.parse "out")).obstacle = some overflow := by
  obtain ⟨overflow, hoverflow⟩ : ∃ overflow, readingOverflow? (.shallow 1000)
      (some ⟨"raw", some bracketText⟩) = some overflow :=
    exists_readingOverflow_shallow 1000 2000 (by norm_num) (by norm_num)
  have hbody : (planOf {} bracketDocument).entries.map (fun entry => entry.request.body) =
      [some ⟨"raw", some bracketText⟩] := rfl
  obtain ⟨entry, hentry, he⟩ := List.map_eq_singleton_iff.mp hbody
  have hplanned : (Stack.shallow 1000).overflow? (.layout bracketDocument) = none := rfl
  refine ⟨overflow, ?_⟩
  rw [outline_obstacle, hplanned, Option.none_or, hentry, List.findSome?_singleton, entryOverflow?,
    Suite.testOverflow?, he, hoverflow, Option.some_or]

/-- A build of usable documents may end while it writes test files, neither failed nor done, though
no call fails: a body for which the stack has no room ends it without a report. -/
theorem build_ends_at_deep_body :
    let run := build (.shallow 1000) memory {} bracketDocument .null "out" {}
    (checkCollection bracketDocument).ok = true ∧ (checkEnvironment .null).ok = true ∧
      FailsCleanly memory id memoryEffect ∧
      run.phases = openingPhases ++ [.walking] ∧
      run.phases ∉ [openingPhases ++ [.failed], openingPhases ++ [.walking, .failed],
        openingPhases ++ [.walking, .done]] ∧
      ∀ outcome, run.result ≠ .ok outcome := by
  intro run
  have hc : (checkCollection bracketDocument).ok = true := by decide +kernel
  have he : (checkEnvironment .null).ok = true := by decide +kernel
  have hprepared : Prepared (.shallow 1000) bracketDocument .null := ⟨hc, he, rfl, rfl⟩
  obtain ⟨overflow, hoverflow⟩ := outline_bracketDocument
  have hopening := perform_memory (changes_of_mem_map_step {} bracketDocument .null
    (FilePath.parse "out") (rootTasks {})) {}
  have hfiles := perform_memory (changes_of_mem_map_step {} bracketDocument .null
    (FilePath.parse "out") (plannedTasks (.shallow 1000) {} bracketDocument))
  rw [← outline_opening (.shallow 1000)] at hopening
  rw [← outline_files] at hfiles
  obtain ⟨store, hrun⟩ : ∃ store, run =
      ⟨.error (.overflow overflow), openingPhases ++ [.walking], store⟩ := by
    simp only [run]
    rw [hprepared.build_eq, execute_of_no_error hopening (hfiles _), Outline.result, hoverflow]
    exact ⟨_, rfl⟩
  rw [hrun]
  exact ⟨hc, he, failsCleanly_memory, rfl, by simp [openingPhases], by simp⟩

end RequestSuite
