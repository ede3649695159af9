/-
Builds on file systems that make failed calls again.

* `RetriesInvisible`: a build with retries does what it does without failures, or ends at the first
  call that gives up;
* `Prepared.build_of_weathered`, `Prepared.build_of_given_up`, `Prepared.build_of_overruns`: how a
  build with retries ends that is worked out; `Unread.retriesInvisible`: others are not concerned;
* `retries_invisible_iff`: retries are invisible exactly if no call fails too often for a delay;
* `busyFile`, `busyRoot`: a file that is busy for a while, and a directory that is busy for long.
-/
import RequestSuite.Proofs.BuildFailure
import RequestSuite.Proofs.Retries

namespace RequestSuite

variable {σ : Type} {backend : Backend σ} {policy : RetryPolicy}

variable {view : σ → Memory} {stack : Stack} {options : Options} {collection environment : Json}
variable {root : String}

/-- What a caller may expect of a build on a file system that makes calls again. If all its calls
succeed in the end, it comes to what it comes to on the store itself, through the same phases, and
leaves the same. If there is a first call that gives up, the build fails with that call and its last
failure, and leaves what the calls before it leave. -/
structure RetriesInvisible (stack : Stack) (policy : RetryPolicy) (backend : Backend σ)
    (view : σ → Memory) (options : Options) (collection environment : Json) (root : String)
    (s : Retrying σ) : Prop where
  weathered : ∀ s',
    Weathered policy backend ((reachableTasks stack options collection environment).map
      (Task.call options collection environment (FilePath.parse root))) s.store s' →
    let run := build stack (retrying policy backend) options collection environment root s
    let plain := build stack memory options collection environment root (view s.store)
    run.result = plain.result ∧ run.phases = plain.phases ∧ view run.store.store = plain.store
  givenUp : ∀ before task after causes cause s₁ s₂,
    reachableTasks stack options collection environment = before ++ task :: after →
    Weathered policy backend
      (before.map (Task.call options collection environment (FilePath.parse root))) s.store s₁ →
    Settles policy backend (task.call options collection environment (FilePath.parse root)) causes
      (.error (.os cause)) s₁ s₂ →
    let run := build stack (retrying policy backend) options collection environment root s
    run.result = .error (.emission
      (task.call options collection environment (FilePath.parse root)).path task.request? cause) ∧
      run.phases = failedPhases task.phase ∧
      view run.store.store = effects memoryEffect
        (before.map (Task.call options collection environment (FilePath.parse root)))
        (view s.store)

lemma changes_of_reachable (options : Options) (collection environment : Json) (root : FilePath)
    (list : List Task) :
    ∀ call ∈ list.map (Task.call options collection environment root), call.changes = true := by
  intro call hc
  obtain ⟨task, -, rfl⟩ := List.mem_map.mp hc
  exact Task.call_changes options collection environment root task

namespace Prepared

lemma steps_eq (h : Prepared stack collection environment) (options : Options) (root : FilePath) :
    (outline stack options collection environment root).opening ++
      (outline stack options collection environment root).files =
    (reachableTasks stack options collection environment).map
      (Task.step options collection environment root) := by
  rw [outline_opening, outline_files, h.reachableTasks_eq, List.map_append]

/-- A build in memory comes to what its outline says, and leaves what its tasks leave. -/
lemma build_memory_eq (h : Prepared stack collection environment) (m : Memory) :
    build stack memory options collection environment root m =
      ⟨(outline stack options collection environment (FilePath.parse root)).result,
        openingPhases ++ [.walking] ++
          (if (outline stack options collection environment (FilePath.parse root)).obstacle.isNone
            then [.done] else []),
        effects memoryEffect ((reachableTasks stack options collection environment).map
          (Task.call options collection environment (FilePath.parse root))) m⟩ := by
  have hopening := perform_memory (changes_of_mem_map_step options collection environment
    (FilePath.parse root) (rootTasks options)) m
  have hfiles := perform_memory (changes_of_mem_map_step options collection environment
    (FilePath.parse root) (plannedTasks stack options collection))
  rw [← outline_opening stack] at hopening
  rw [← outline_files] at hfiles
  rw [h.build_eq, execute_of_no_error hopening (hfiles _), outline_opening, outline_files,
    map_call_step, map_call_step, ← effects_append, ← List.map_append, h.reachableTasks_eq]

/-- A build with retries whose calls all succeed in the end does what it does in memory. -/
lemma build_of_weathered (h : Prepared stack collection environment)
    (hb : FailsCleanly backend view memoryEffect) {s : Retrying σ} {s' : σ}
    (hw : Weathered policy backend ((reachableTasks stack options collection environment).map
      (Task.call options collection environment (FilePath.parse root))) s.store s')
    (hd : ¬ Overruns policy backend ((reachableTasks stack options collection environment).map
      (Task.call options collection environment (FilePath.parse root))) s.store) :
    let run := build stack (retrying policy backend) options collection environment root s
    let plain := build stack memory options collection environment root (view s.store)
    run.result = plain.result ∧ run.phases = plain.phases ∧
      view run.store.store = plain.store := by
  have hview := hw.view_eq hb (changes_of_reachable options collection environment _ _)
  rw [h.reachableTasks_eq, List.map_append] at hw hd
  obtain ⟨s₁, hroot, hplan⟩ := hw.split
  have hd₁ := fun ho => hd (Overruns.append ho _)
  have hd₂ := fun ho => hd (hroot.append_overruns ho)
  rw [← map_call_step] at hroot hplan hd₁ hd₂
  obtain ⟨pauses₁, hopening⟩ := perform_of_weathered hroot hd₁ s.pauses
  obtain ⟨pauses₂, hfiles⟩ := perform_of_weathered hplan hd₂ pauses₁
  rw [← outline_opening stack] at hopening
  rw [← outline_files] at hfiles
  intro run plain
  simp only [run, plain]
  rw [h.build_memory_eq, h.build_eq, execute_of_no_error hopening hfiles]
  exact ⟨rfl, rfl, hview⟩

end Prepared

/-- Where two lists in a row are cut, one of them is. -/
lemma cut_of_append {α : Type} {list list' before after : List α} {x : α}
    (h : list ++ list' = before ++ x :: after) :
    (∃ later, list = before ++ x :: later) ∨
      ∃ first, before = list ++ first ∧ list' = first ++ x :: after := by
  rcases List.append_eq_append_iff.mp h with ⟨first, hbefore, hlist'⟩ | ⟨rest, hlist, hrest⟩
  · exact Or.inr ⟨first, hbefore, hlist'⟩
  · cases rest with
    | nil => exact Or.inr ⟨[], by simpa using hlist.symm, by simpa using hrest.symm⟩
    | cons y rest =>
        obtain ⟨rfl, -⟩ := List.cons.inj hrest
        exact Or.inl ⟨rest, hlist⟩

/-- Steps up to a call that gives up. -/
lemma perform_of_given_up {before : List Task} {task : Task} {causes : List OsError}
    {cause : OsError} {s s₁ s₂ : σ} (after : List Task)
    (hw : Weathered policy backend
      (before.map (Task.call options collection environment (FilePath.parse root))) s s₁)
    (hs : Settles policy backend (task.call options collection environment (FilePath.parse root))
      causes (.error (.os cause)) s₁ s₂)
    (hd : ¬ Overruns policy backend ((before ++ task :: after).map
      (Task.call options collection environment (FilePath.parse root))) s) (pauses : List Pause) :
    ∃ pauses', perform (retrying policy backend) ((before ++ task :: after).map
        (Task.step options collection environment (FilePath.parse root))) ⟨s, pauses⟩ =
      (some (task.step options collection environment (FilePath.parse root), .os cause),
        ⟨s₂, pauses'⟩) := by
  rw [List.map_append] at hd ⊢
  have hd₁ := fun ho => hd (Overruns.append ho _)
  have hwaits := not_not.mp fun hstuck => hd (hw.append_overruns (.here hs hstuck))
  rw [← map_call_step] at hw hd₁
  obtain ⟨pauses₁, hbefore⟩ := perform_of_weathered hw hd₁ pauses
  obtain ⟨pauses₂, hlast⟩ : ∃ pauses₂, retrying policy backend
      (task.call options collection environment (FilePath.parse root)) ⟨s₁, pauses₁⟩ =
        (.error (.os cause), ⟨s₂, pauses₂⟩) := ⟨_, retrying_of_settles hs hwaits pauses₁⟩
  refine ⟨pauses₂, ?_⟩
  rw [perform_append_of_none _ hbefore, List.map_cons]
  exact perform_cons_error _ hlast

namespace Prepared

/-- A build with retries ends with the first call that gives up. -/
lemma build_of_given_up (h : Prepared stack collection environment)
    (hb : FailsCleanly backend view memoryEffect)
    {before after : List Task} {task : Task} {causes : List OsError} {cause : OsError}
    {s : Retrying σ} {s₁ s₂ : σ}
    (hcut : reachableTasks stack options collection environment = before ++ task :: after)
    (hw : Weathered policy backend
      (before.map (Task.call options collection environment (FilePath.parse root))) s.store s₁)
    (hs : Settles policy backend (task.call options collection environment (FilePath.parse root))
      causes (.error (.os cause)) s₁ s₂)
    (hd : ¬ Overruns policy backend ((reachableTasks stack options collection environment).map
      (Task.call options collection environment (FilePath.parse root))) s.store) :
    let run := build stack (retrying policy backend) options collection environment root s
    run.result = .error (.emission
      (task.call options collection environment (FilePath.parse root)).path task.request? cause) ∧
      run.phases = failedPhases task.phase ∧
      view run.store.store = effects memoryEffect
        (before.map (Task.call options collection environment (FilePath.parse root)))
        (view s.store) := by
  have hview : view s₂ = effects memoryEffect
      (before.map (Task.call options collection environment (FilePath.parse root)))
      (view s.store) := by
    rw [(hs.view_eq hb (Task.call_changes options collection environment _ task)).2 _ rfl,
      hw.view_eq hb (changes_of_reachable options collection environment _ _)]
  intro run
  simp only [run]
  rw [h.reachableTasks_eq] at hcut
  -- the call is one at the root, or one of the plan behind those
  rcases cut_of_append hcut with ⟨later, hroot⟩ | ⟨first, rfl, hplan⟩
  · have hmem : task ∈ rootTasks options := by simp [hroot]
    have hphase : task.phase = .emitting := phase_of_mem_rootTasks hmem
    rw [h.reachableTasks_eq, List.map_append] at hd
    have hd₁ := fun ho => hd (Overruns.append ho _)
    rw [hroot] at hd₁
    obtain ⟨pauses', hopening⟩ := perform_of_given_up later hw hs hd₁ s.pauses
    rw [← hroot, ← outline_opening stack] at hopening
    rw [h.build_eq, execute_of_opening_error hopening, hphase]
    exact ⟨rfl, rfl, hview⟩
  · have hmem : task ∈ plannedTasks stack options collection := by simp [hplan]
    have hphase : task.phase = .walking := phase_of_mem_plannedTasks hmem
    rw [h.reachableTasks_eq, List.map_append] at hd
    rw [List.map_append] at hw
    obtain ⟨s', hroot, hfirst⟩ := hw.split
    have hd₁ := fun ho => hd (Overruns.append ho _)
    have hd₂ := fun ho => hd (hroot.append_overruns ho)
    rw [← map_call_step] at hroot hd₁
    rw [hplan] at hd₂
    obtain ⟨pauses₁, hopening⟩ := perform_of_weathered hroot hd₁ s.pauses
    obtain ⟨pauses₂, hfiles⟩ := perform_of_given_up after hfirst hs hd₂ pauses₁
    rw [← outline_opening stack] at hopening
    rw [← hplan, ← outline_files] at hfiles
    rw [h.build_eq, execute_of_files_error hopening hfiles, hphase]
    exact ⟨rfl, rfl, hview⟩

/-- A build with retries one of whose calls fails too often ends with neither a report nor an error
that names a call. -/
lemma build_of_overruns (h : Prepared stack collection environment) {s : Retrying σ}
    (hover : Overruns policy backend ((reachableTasks stack options collection environment).map
      (Task.call options collection environment (FilePath.parse root))) s.store) :
    (build stack (retrying policy backend) options collection environment root s).result =
      .error (.stopped .delayTooLarge) := by
  rw [← map_call_step, ← h.steps_eq] at hover
  obtain ⟨step, stopped, hrun⟩ := perform_of_overruns hover s.pauses
  rw [h.build_eq]
  set o := outline stack options collection environment (FilePath.parse root)
  obtain ⟨failed, s₁, hopening⟩ : ∃ failed s₁,
      perform (retrying policy backend) o.opening s = (failed, s₁) := ⟨_, _, rfl⟩
  rw [Outline.execute, hopening]
  cases failed with
  | some failure =>
      have hfailure := (perform_append_of_some o.files hopening).symm.trans hrun
      obtain rfl := Option.some.inj (Prod.mk.inj hfailure).1
      rfl
  | none =>
      have hfiles : perform (retrying policy backend) o.files s₁ =
          (some (step, .delayTooLarge), stopped) :=
        (perform_append_of_none o.files hopening).symm.trans hrun
      simp only [hfiles]
      rfl

end Prepared

lemma not_overruns_nil (policy : RetryPolicy) (backend : Backend σ) (s : σ) :
    ¬ Overruns policy backend [] s := nofun

/-- A build that ends before its first call does so with retries as in memory. -/
lemma Unread.retriesInvisible {phases : List Phase} {overflow : Overflow}
    (h : Unread stack collection environment phases overflow) (policy : RetryPolicy)
    (backend : Backend σ) (view : σ → Memory) (options : Options) (root : String)
    (s : Retrying σ) :
    RetriesInvisible stack policy backend view options collection environment root s := by
  refine ⟨fun s' hw => ?_, fun before task after causes cause s₁ s₂ hcut => ?_⟩
  · intro run plain
    simp only [run, plain]
    rw [h.build_eq, h.build_eq]
    exact ⟨rfl, rfl, rfl⟩
  · rw [h.reachableTasks_eq] at hcut
    simp at hcut

/-- **Retries are invisible to a build exactly if no call fails too often for a delay.** On a file
system that fails cleanly, in whatever way, a build of usable documents with retries does what it
does in memory if all its calls succeed in the end, and ends with the first call that gives up
otherwise; one of the two is always the case. The builds that do not are those one of whose calls
fails, always with failures that may pass and no more often than is allowed, until the doubled delay
has left the range of numbers: they end without an error that names a call. On every stack retries
change nothing of where it is full. -/
theorem retries_invisible_iff (stack : Stack) (hb : FailsCleanly backend view memoryEffect)
    (hc : (checkCollection collection).ok = true) (he : (checkEnvironment environment).ok = true)
    (policy : RetryPolicy) (s : Retrying σ) :
    let all := reachableTasks stack options collection environment
    let call := Task.call options collection environment (FilePath.parse root)
    let run := build stack (retrying policy backend) options collection environment root s
    (RetriesInvisible stack policy backend view options collection environment root s ↔
      ¬ Overruns policy backend (all.map call) s.store) ∧
      (Overruns policy backend (all.map call) s.store →
        run.result = .error (.stopped .delayTooLarge)) ∧
      ((∃ s', Weathered policy backend (all.map call) s.store s') ∨
        ∃ before task after causes cause s₁ s₂, all = before ++ task :: after ∧
          Weathered policy backend (before.map call) s.store s₁ ∧
          Settles policy backend (call task) causes (.error (.os cause)) s₁ s₂) := by
  intro all call run
  have hcases : (∃ s', Weathered policy backend (all.map call) s.store s') ∨
      ∃ before task after causes cause s₁ s₂, all = before ++ task :: after ∧
        Weathered policy backend (before.map call) s.store s₁ ∧
        Settles policy backend (call task) causes (.error (.os cause)) s₁ s₂ := by
    rcases weathered_or_gives_up hb policy
        (changes_of_reachable options collection environment (FilePath.parse root) all) s.store with
      hw | ⟨before, call, after, s₁, causes, cause, s₂, hcut, hw, hs⟩
    · exact Or.inl hw
    · obtain ⟨first, rest, hlist, rfl, hrest⟩ := List.map_eq_append_iff.mp hcut
      obtain ⟨task, later, rfl, rfl, -⟩ := List.map_eq_cons_iff.mp hrest
      exact Or.inr ⟨first, task, later, causes, cause, s₁, s₂, hlist, hw, hs⟩
  rcases prepared_or_unread hc he stack with hprepared | ⟨phases, overflow, hunread⟩
  swap
  · have hnone : ¬ Overruns policy backend (all.map call) s.store := by
      simp only [all, hunread.reachableTasks_eq]
      exact not_overruns_nil policy backend s.store
    exact ⟨iff_of_true (hunread.retriesInvisible policy backend view options root s) hnone,
      fun hover => absurd hover hnone, hcases⟩
  refine ⟨⟨fun hinvisible hover => ?_, fun hover => ⟨fun s' hw => ?_, ?_⟩⟩,
    fun hover => hprepared.build_of_overruns hover, hcases⟩
  · have hstopped := hprepared.build_of_overruns hover
    rcases hcases with ⟨s', hw⟩ | ⟨before, task, after, causes, cause, s₁, s₂, hcut, hw, hs⟩
    · have hresult := (hinvisible.weathered s' hw).1
      rw [hprepared.build_memory_eq, hstopped, Outline.result] at hresult
      split at hresult <;> cases hresult
    · have hresult := (hinvisible.givenUp before task after causes cause s₁ s₂ hcut hw hs).1
      rw [hstopped] at hresult
      cases hresult
  · exact hprepared.build_of_weathered hb hw hover
  · intro before task after causes cause s₁ s₂ hcut hw hs
    exact hprepared.build_of_given_up hb hcut hw hs hover

/-- A file system in memory on which one test file is busy for three calls. -/
def busyFile : Retrying (Faulty Memory) where
  store :=
    { store := {}, faults := [⟨"write", "second.test.js", 16, "Device or resource busy", 3⟩] }

/-- Three failures of a write are not seen in a build: it goes through the phases of one without
failures, and leaves the same. -/
theorem retries_invisible_at_busy_file :
    (checkCollection twoRequests).ok = true ∧ (checkEnvironment .null).ok = true ∧
      FailsCleanly (faulty memory) (fun s => s.store) memoryEffect ∧
      RetriesInvisible .ample {} (faulty memory) (fun s => s.store) {} twoRequests .null "out"
        busyFile ∧
      (build .ample (retrying {} (faulty memory)) {} twoRequests .null "out" busyFile).phases =
        openingPhases ++ [.walking, .done] := by
  have hc : (checkCollection twoRequests).ok = true := by decide
  have he : (checkEnvironment .null).ok = true := by decide
  have hb := failsCleanly_faulty failsCleanly_memory
  have hfew : ∀ n, ({} : RetryPolicy).maxDoublings = some n →
      ({} : RetryPolicy).maxRetries.toNat ≤ n + 1 := by
    intro n hn
    obtain rfl : 1023 = n := Option.some.inj hn
    decide
  have hinvisible : RetriesInvisible .ample {} (faulty memory) (fun s => s.store) {} twoRequests
      .null "out" busyFile :=
    (retries_invisible_iff .ample hb hc he {} busyFile).1.mpr (not_overruns hfew _ _ _)
  exact ⟨hc, he, hb, hinvisible, by decide⟩

/-- As many attempts as there are delays, and one more. -/
def patientPolicy : RetryPolicy := { maxRetries := 1025 }

/-- A file system in memory whose root is busy for as many calls. -/
def busyRoot : Retrying (Faulty Memory) where
  store := { store := {}, faults := [⟨"mkdir", "out", 11, "Resource unavailable", 1025⟩] }

/-- The failures of the busy root. -/
def busyCauses : List OsError := List.replicate 1025 ⟨11, "Resource unavailable", "out"⟩

/-- The first call succeeds in the end. -/
lemma settles_busyRoot :
    Settles patientPolicy (faulty memory) (.mkdir "out") busyCauses (.ok none) busyRoot.store
      ⟨memoryEffect (.mkdir "out") {}, [⟨"mkdir", "out", 11, "Resource unavailable", 0⟩],
        1026⟩ := by
  have hfails := fails_replicate memory (.mkdir "out")
    ⟨"mkdir", "out", 11, "Resource unavailable", 1025⟩ rfl rfl {} [] 1025 0
  refine ⟨⟨_, hfails, rfl⟩, fun cause hcause => ?_, ?_, ?_⟩
  · rw [List.eq_of_mem_replicate hcause]
    rfl
  · rw [busyCauses, List.length_replicate]
    decide
  · intro cause hanswer
    cases hanswer

/-- The tasks of two requests. -/
def twoTasks : List Task := tasks {} twoRequests

/-- The other calls succeed at once. -/
lemma weathered_busyRoot :
    ∃ s', Weathered patientPolicy (faulty memory)
      (twoTasks.map (Task.call {} twoRequests .null (FilePath.parse "out"))) busyRoot.store s' := by
  have hlist : twoTasks = .root :: twoTasks.tail := rfl
  obtain ⟨failed, s', hrun⟩ : ∃ failed s', perform (faulty memory)
      (twoTasks.tail.map (Task.step {} twoRequests .null (FilePath.parse "out")))
      ⟨memoryEffect (.mkdir "out") {}, [⟨"mkdir", "out", 11, "Resource unavailable", 0⟩], 1026⟩ =
        (failed, s') := ⟨_, _, rfl⟩
  obtain rfl : failed = none := (congrArg Prod.fst hrun).symm.trans (by decide)
  have hothers := weathered_of_perform patientPolicy hrun
  rw [map_call_step] at hothers
  rw [hlist]
  exact ⟨s', .next settles_busyRoot hothers⟩

/-- A build may end without a report although every failure may pass and no call fails more often
than is allowed: the doubled delay leaves the range of numbers first. -/
theorem retries_show_at_busy_root :
    let calls := twoTasks.map (Task.call {} twoRequests .null (FilePath.parse "out"))
    let run := build .ample (retrying patientPolicy (faulty memory)) {} twoRequests .null "out"
      busyRoot
    (checkCollection twoRequests).ok = true ∧ (checkEnvironment .null).ok = true ∧
      FailsCleanly (faulty memory) (fun s => s.store) memoryEffect ∧
      (∃ s', Weathered patientPolicy (faulty memory) calls busyRoot.store s') ∧
      run.result = .error (.stopped .delayTooLarge) ∧
      (∃ outcome, (build .ample memory {} twoRequests .null "out" {}).result = .ok outcome) ∧
      ¬ RetriesInvisible .ample patientPolicy (faulty memory) (fun s => s.store) {} twoRequests
        .null "out" busyRoot := by
  intro calls run
  have hc : (checkCollection twoRequests).ok = true := by decide
  have he : (checkEnvironment .null).ok = true := by decide
  have hover : Overruns patientPolicy (faulty memory) calls busyRoot.store := by
    refine .here settles_busyRoot fun hwaits => hwaits 1024 ?_ rfl
    rw [busyCauses, List.length_replicate]
    decide
  have hstopped : run.result = .error (.stopped .delayTooLarge) :=
    (prepared_ample hc he).build_of_overruns hover
  have hplain : ∃ outcome,
      (build .ample memory {} twoRequests .null "out" {}).result = .ok outcome := by
    rw [(prepared_ample hc he).build_memory (by decide)]
    exact ⟨_, rfl⟩
  refine ⟨hc, he, failsCleanly_faulty failsCleanly_memory, weathered_busyRoot, hstopped, hplain,
    fun hinvisible => ?_⟩
  obtain ⟨s', hweathered⟩ := weathered_busyRoot
  obtain ⟨outcome, houtcome⟩ := hplain
  have hresult := (hinvisible.weathered s' hweathered).1
  have hsame := (hstopped.symm.trans hresult).trans houtcome
  cases hsame

end RequestSuite
