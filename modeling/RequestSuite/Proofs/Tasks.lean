/-
The tasks of a build: what it creates and writes, in order.

* `Task`, `tasks`: the root, the shared module, each planned directory, each planned test file;
* `Task.call`, `Task.request?`, `Task.phase`: the call of a task, the request it is for, and the
  phase in which it is done;
* `sharedText`: the text of the shared module;
* `map_call_step`, `exists_of_map_step_eq_append`: tasks and their steps, one to one;
* `writableTasks`, `reachableTasks`: the tasks before the first for which there is no room on the
  stack; `exists_tasks_eq_append`: they are the first tasks of all;
* `outline_opening`, `outline_files`: the steps of an outline are these tasks;
* `firstOverflow?`: what a build says there, and the phases in which it ends.
-/
import Mathlib.Data.List.TakeWhile
import Mathlib.Tactic
import RequestSuite.Proofs.CallLog

namespace RequestSuite

/-- A task of a build. -/
inductive Task
  | root
  | setup
  | directory (segments : List String)
  | test (entry : Layout.Entry)
  deriving DecidableEq, Repr

/-- The plan for the nodes of a collection document. -/
def planOf (options : Options) (collection : Json) : Layout.Plan :=
  Layout.plan options.flatten (readCollection collection).1.children

/-- The text of the shared module of a build. -/
def sharedText (options : Options) (collection environment : Json) : String :=
  let c := (readCollection collection).1
  Suite.setupText (baseUrlOf c).1 (mergeEnvironment environment c.bindings) options.enhanced

/-- The tasks at the root. -/
def rootTasks (options : Options) : List Task :=
  .root :: if options.emitSetup then [.setup] else []

/-- The tasks of a plan: its directories, then its files. -/
def planTasks (plan : Layout.Plan) : List Task :=
  plan.directories.map .directory ++ plan.entries.map .test

/-- All tasks of a build, in order. -/
def tasks (options : Options) (collection : Json) : List Task :=
  rootTasks options ++ planTasks (planOf options collection)

namespace Task

/-- The call of a task, for a suite below `root`. -/
def call (options : Options) (collection environment : Json) (root : FilePath) : Task → Call
  | .root => .mkdir root.text
  | .setup => .write (setupPath root) (sharedText options collection environment)
  | .directory segments => .mkdir (root.join segments).text
  | .test entry => .write (entryPath root entry) (entryText options entry)

/-- The request of a task. Only test files have one. -/
def request? : Task → Option String
  | .test entry => some entry.request.name
  | _ => none

/-- The phase in which a task is done. -/
def phase : Task → Phase
  | .root | .setup => .emitting
  | .directory _ | .test _ => .walking

/-- The step of a task. -/
def step (options : Options) (collection environment : Json) (root : FilePath) (task : Task) :
    Step :=
  ⟨task.call options collection environment root, task.request?⟩

lemma call_changes (options : Options) (collection environment : Json) (root : FilePath)
    (task : Task) : (task.call options collection environment root).changes = true := by
  cases task <;> rfl

end Task

lemma map_call_step (options : Options) (collection environment : Json) (root : FilePath)
    (list : List Task) :
    (list.map (Task.step options collection environment root)).map Step.call =
      list.map (Task.call options collection environment root) := by
  rw [List.map_map]
  rfl

lemma changes_of_mem_map_step (options : Options) (collection environment : Json)
    (root : FilePath) (list : List Task) :
    ∀ step ∈ list.map (Task.step options collection environment root),
      step.call.changes = true := by
  intro step hs
  obtain ⟨task, -, rfl⟩ := List.mem_map.mp hs
  exact Task.call_changes options collection environment root task

/-- Where the steps of some tasks are cut, the tasks are. -/
lemma exists_of_map_step_eq_append {options : Options} {collection environment : Json}
    {root : FilePath} {list : List Task} {before after : List Step} {step : Step}
    (h : list.map (Task.step options collection environment root) = before ++ step :: after) :
    ∃ first task later, list = first ++ task :: later ∧
      before = first.map (Task.step options collection environment root) ∧
      step = task.step options collection environment root := by
  obtain ⟨first, rest, rfl, hfirst, hrest⟩ := List.map_eq_append_iff.mp h
  obtain ⟨task, later, rfl, htask, -⟩ := List.map_eq_cons_iff.mp hrest
  exact ⟨first, task, later, rfl, hfirst.symm, htask.symm⟩

lemma phase_of_mem_rootTasks {options : Options} {task : Task} (h : task ∈ rootTasks options) :
    task.phase = .emitting := by
  rw [rootTasks] at h
  split_ifs at h
  · rcases List.mem_pair.mp h with rfl | rfl <;> rfl
  · obtain rfl := List.mem_singleton.mp h
    rfl

/-- The tasks of a plan before the first for which there is no room on the stack. -/
def writableTasks (stack : Stack) (plan : Layout.Plan) : List Task :=
  plan.directories.map .directory ++ (writable stack plan).map .test

lemma phase_of_mem_writableTasks {stack : Stack} {plan : Layout.Plan} {task : Task}
    (h : task ∈ writableTasks stack plan) : task.phase = .walking := by
  rw [writableTasks, List.mem_append, List.mem_map, List.mem_map] at h
  rcases h with ⟨segments, -, rfl⟩ | ⟨entry, -, rfl⟩ <;> rfl

/-- The tasks of the plan of a build that are reached, if its tasks at the root are. -/
def plannedTasks (stack : Stack) (options : Options) (collection : Json) : List Task :=
  if (stack.overflow? (.layout collection)).isSome then []
  else writableTasks stack (planOf options collection)

lemma phase_of_mem_plannedTasks {stack : Stack} {options : Options} {collection : Json}
    {task : Task} (h : task ∈ plannedTasks stack options collection) : task.phase = .walking := by
  rw [plannedTasks] at h
  split_ifs at h
  · cases h
  · exact phase_of_mem_writableTasks h

section Outline

variable (stack : Stack) (options : Options) (collection environment : Json) (root : FilePath)

lemma outline_opening : (outline stack options collection environment root).opening =
    (rootTasks options).map (Task.step options collection environment root) := by
  simp only [outline, openingSteps, rootTasks]
  split_ifs <;> rfl

/-- The other steps of an outline are the tasks of its plan. -/
lemma outline_files : (outline stack options collection environment root).files =
    (plannedTasks stack options collection).map
      (Task.step options collection environment root) := by
  have hfiles : (fileSteps stack options root (planOf options collection)) =
      (writableTasks stack (planOf options collection)).map
        (Task.step options collection environment root) := by
    simp only [fileSteps, writableTasks, List.map_append, List.map_map]
    rfl
  rw [plannedTasks, apply_ite (List.map _), ← hfiles]
  rfl

lemma outline_obstacle : (outline stack options collection environment root).obstacle =
    (stack.overflow? (.layout collection)).or
      ((planOf options collection).entries.findSome? (entryOverflow? stack)) := rfl

end Outline

/-! ### Room on the stack -/

/-- The first overflow of a build none of whose calls fails, and the phases in which it ends. -/
def firstOverflow? (stack : Stack) (options : Options) (collection environment : Json) :
    Option (List Phase × Overflow) :=
  match stack.overflow? (.items collection),
      stack.overflow? (.extraction collection environment) with
  | some overflow, _ => some ([.idle, .validating], overflow)
  | none, some overflow => some ([.idle, .validating, .extracting], overflow)
  | none, none =>
    ((stack.overflow? (.layout collection)).or
      ((planOf options collection).entries.findSome? (entryOverflow? stack))).map
        ([.idle, .validating, .extracting, .emitting, .walking], ·)

/-- The tasks of a build before its first overflow. -/
def reachableTasks (stack : Stack) (options : Options) (collection environment : Json) :
    List Task :=
  if (stack.overflow? (.items collection)).isSome ∨
      (stack.overflow? (.extraction collection environment)).isSome then []
  else rootTasks options ++ plannedTasks stack options collection

variable {stack : Stack} {options : Options} {collection environment : Json} {root : FilePath}

/-- The tasks of a plan that are reached are its first. -/
lemma exists_planTasks_eq_append (stack : Stack) (options : Options) (collection : Json) :
    ∃ rest, planTasks (planOf options collection) =
      plannedTasks stack options collection ++ rest := by
  rw [plannedTasks]
  split_ifs
  · exact ⟨_, rfl⟩
  · set plan := planOf options collection
    refine ⟨(plan.entries.dropWhile fun entry => (entryOverflow? stack entry).isNone).map .test, ?_⟩
    rw [planTasks, writableTasks, writable, List.append_assoc, ← List.map_append,
      List.takeWhile_append_dropWhile]

/-- The tasks of a build that are reached are its first. -/
lemma exists_tasks_eq_append (stack : Stack) (options : Options) (collection environment : Json) :
    ∃ rest, tasks options collection =
      reachableTasks stack options collection environment ++ rest := by
  rw [reachableTasks]
  split_ifs
  · exact ⟨_, rfl⟩
  · obtain ⟨rest, hrest⟩ := exists_planTasks_eq_append stack options collection
    exact ⟨rest, by rw [tasks, hrest, List.append_assoc]⟩

/-- If there is room for everything, all tasks of a plan are reached. -/
lemma plannedTasks_of_no_obstacle
    (h : (outline stack options collection environment root).obstacle = none) :
    plannedTasks stack options collection = planTasks (planOf options collection) := by
  rw [outline_obstacle, Option.or_eq_none_iff, List.findSome?_eq_none_iff] at h
  obtain ⟨hlayout, hentries⟩ := h
  have hall : writable stack (planOf options collection) = (planOf options collection).entries :=
    List.takeWhile_eq_self_iff.mpr fun entry he => by rw [hentries entry he]; rfl
  rw [plannedTasks, hlayout, Option.isSome_none, if_neg Bool.false_ne_true, writableTasks, hall,
    planTasks]

end RequestSuite
