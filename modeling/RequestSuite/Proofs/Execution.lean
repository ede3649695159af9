/-
How the outline of a build is executed.

* `openingPhases`, `failedPhases`: the phases of a build up to its shared module, and of one that
  has failed;
* `Prepared`: documents whose build is worked out; `Unread`, `prepared_or_unread`: what becomes of
  others;
* `execute_of_opening_error`, `execute_of_files_error`, `execute_of_no_error`: what an outline comes
  to, by the first of its calls that fails;
* `of_result_ok`: what a build with a report has come through;
* `Prepared.build_memory`: builds in memory, where no call fails.
-/
import RequestSuite.Proofs.Tasks

namespace RequestSuite

variable {σ : Type} {backend : Backend σ}
variable {stack : Stack} {options : Options} {collection environment : Json} {root : String}

/-- The phases up to the one in which the shared module is written. -/
def openingPhases : List Phase := [.idle, .validating, .extracting, .emitting]

/-- The phases of a build that fails at a call made in `phase`. -/
def failedPhases (phase : Phase) : List Phase :=
  openingPhases ++ (if phase = .walking then [.walking] else []) ++ [.failed]

/-- Documents whose build is worked out: they are usable, and there is room on the stack to read the
one and to take from both what the shared module needs. -/
structure Prepared (stack : Stack) (collection environment : Json) : Prop where
  collection_ok : (checkCollection collection).ok = true
  environment_ok : (checkEnvironment environment).ok = true
  items_fit : stack.overflow? (.items collection) = none
  extraction_fits : stack.overflow? (.extraction collection environment) = none

lemma prepared_ample (hc : (checkCollection collection).ok = true)
    (he : (checkEnvironment environment).ok = true) :
    Prepared .ample collection environment := ⟨hc, he, rfl, rfl⟩

lemma Prepared.build_eq (h : Prepared stack collection environment) (backend : Backend σ) (s : σ) :
    build stack backend options collection environment root s =
      (outline stack options collection environment (FilePath.parse root)).execute backend s := by
  rw [build, prepare, h.collection_ok, h.environment_ok, h.items_fit, h.extraction_fits]
  rfl

lemma Prepared.reachableTasks_eq (h : Prepared stack collection environment) :
    reachableTasks stack options collection environment =
      rootTasks options ++ plannedTasks stack options collection := by
  rw [reachableTasks, h.items_fit, h.extraction_fits]
  rfl

lemma Prepared.firstOverflow?_eq (h : Prepared stack collection environment) (root : FilePath) :
    firstOverflow? stack options collection environment =
      (outline stack options collection environment root).obstacle.map
        (openingPhases ++ [.walking], ·) := by
  rw [firstOverflow?, h.items_fit, h.extraction_fits]
  rfl

/-- Documents whose build ends before its first call, as there is no room on the stack. -/
structure Unread (stack : Stack) (collection environment : Json) (phases : List Phase)
    (overflow : Overflow) : Prop where
  firstOverflow?_eq : ∀ options,
    firstOverflow? stack options collection environment = some (phases, overflow)
  reachableTasks_eq : ∀ options, reachableTasks stack options collection environment = []
  build_eq : ∀ {σ : Type} (backend : Backend σ) (options : Options) (root : String) (s : σ),
    build stack backend options collection environment root s =
      ⟨.error (.overflow overflow), phases, s⟩

/-- **Builds of usable documents** are worked out, or end before their first call. -/
lemma prepared_or_unread (hc : (checkCollection collection).ok = true)
    (he : (checkEnvironment environment).ok = true) (stack : Stack) :
    Prepared stack collection environment ∨
      ∃ phases overflow, Unread stack collection environment phases overflow := by
  cases hitems : stack.overflow? (.items collection) with
  | some overflow =>
      refine Or.inr ⟨[.idle, .validating], overflow, fun options => ?_, fun options => ?_,
        fun backend options root s => ?_⟩
      · rw [firstOverflow?, hitems]
      · rw [reachableTasks, hitems]
        rfl
      · rw [build, prepare, hc, he, hitems]
        rfl
  | none =>
      cases hextraction : stack.overflow? (.extraction collection environment) with
      | none => exact Or.inl ⟨hc, he, hitems, hextraction⟩
      | some overflow =>
          refine Or.inr ⟨[.idle, .validating, .extracting], overflow, fun options => ?_,
            fun options => ?_, fun backend options root s => ?_⟩
          · rw [firstOverflow?, hitems, hextraction]
          · rw [reachableTasks, hitems, hextraction]
            rfl
          · rw [build, prepare, hc, he, hitems, hextraction]
            rfl

/-! ### The calls of an outline -/

section Execute

variable {o : Outline} {s s₁ s₂ : σ} {step : Step} {cause : OsError}

lemma execute_of_opening_error (h : perform backend o.opening s = (some (step, .os cause), s₁)) :
    o.execute backend s =
      ⟨.error (.emission step.call.path step.request cause), failedPhases .emitting, s₁⟩ := by
  rw [Outline.execute, h]
  rfl

lemma execute_of_files_error (h : perform backend o.opening s = (none, s₁))
    (h' : perform backend o.files s₁ = (some (step, .os cause), s₂)) :
    o.execute backend s =
      ⟨.error (.emission step.call.path step.request cause), failedPhases .walking, s₂⟩ := by
  rw [Outline.execute, h]
  simp only [h']
  rfl

/-- A build none of whose calls fail comes to what its outline says. -/
lemma execute_of_no_error (h : perform backend o.opening s = (none, s₁))
    (h' : perform backend o.files s₁ = (none, s₂)) :
    o.execute backend s =
      ⟨o.result, openingPhases ++ [.walking] ++ (if o.obstacle.isNone then [.done] else []),
        s₂⟩ := by
  rw [Outline.execute, h]
  simp only [h']
  rfl

end Execute

/-- Only builds that are worked out and have no obstacle come to a report, and it is that of their
outline. -/
lemma of_result_ok {s : σ} {outcome : Outcome}
    (h : (build stack backend options collection environment root s).result = .ok outcome) :
    Prepared stack collection environment ∧
      (outline stack options collection environment (FilePath.parse root)).obstacle = none ∧
      outcome = (outline stack options collection environment (FilePath.parse root)).outcome := by
  by_cases hc : (checkCollection collection).ok = true
  swap
  · simp [build, prepare, hc] at h
  by_cases he : (checkEnvironment environment).ok = true
  swap
  · simp [build, prepare, hc, he] at h
  rcases prepared_or_unread hc he stack with hprepared | ⟨phases, overflow, hunread⟩
  swap
  · rw [hunread.build_eq] at h
    cases h
  rw [hprepared.build_eq] at h
  set o := outline stack options collection environment (FilePath.parse root)
  have hresult : o.result = .ok outcome := by
    obtain ⟨failed, s₁, hp⟩ : ∃ failed s₁, perform backend o.opening s = (failed, s₁) :=
      ⟨_, _, rfl⟩
    obtain ⟨failed', s₂, hp'⟩ : ∃ failed s₂, perform backend o.files s₁ = (failed, s₂) :=
      ⟨_, _, rfl⟩
    cases failed with
    | some failure =>
        obtain ⟨step, error⟩ := failure
        rw [Outline.execute, hp] at h
        cases error <;> simp [Execution.ofFailure] at h
    | none =>
        cases failed' with
        | some failure =>
            obtain ⟨step, error⟩ := failure
            rw [Outline.execute, hp] at h
            simp only [hp'] at h
            cases error <;> simp [Execution.ofFailure] at h
        | none =>
            rw [execute_of_no_error hp hp'] at h
            exact h
  refine ⟨hprepared, ?_⟩
  rw [Outline.result] at hresult
  cases hobstacle : o.obstacle with
  | some overflow => simp [hobstacle] at hresult
  | none =>
      rw [hobstacle] at hresult
      exact ⟨rfl, (Except.ok.inj hresult).symm⟩

/-- In memory a build that is worked out and has no obstacle does all its tasks. -/
lemma Prepared.build_memory (h : Prepared stack collection environment)
    (ho : (outline stack options collection environment (FilePath.parse root)).obstacle = none)
    (m : Memory) :
    build stack memory options collection environment root m =
      ⟨.ok (outline stack options collection environment (FilePath.parse root)).outcome,
        openingPhases ++ [.walking, .done],
        effects memoryEffect ((tasks options collection).map
          (Task.call options collection environment (FilePath.parse root))) m⟩ := by
  have hopening := perform_memory (changes_of_mem_map_step options collection environment
    (FilePath.parse root) (rootTasks options)) m
  have hfiles := perform_memory (changes_of_mem_map_step options collection environment
    (FilePath.parse root) (plannedTasks stack options collection))
  rw [← outline_opening stack] at hopening
  rw [← outline_files] at hfiles
  have hall : tasks options collection =
      rootTasks options ++ plannedTasks stack options collection := by
    rw [plannedTasks_of_no_obstacle ho, tasks]
  rw [h.build_eq, execute_of_no_error hopening (hfiles _), Outline.result, ho,
    outline_opening, outline_files, map_call_step, map_call_step, ← effects_append,
    ← List.map_append, ← hall]
  rfl

end RequestSuite
