/-
What a build leaves in memory.

* `Call.writes?`, `Call.creates?`: what a call writes, and which directory it creates;
* `effects_memory`: what some calls leave in memory;
* `effects_effects`: calls made once more change nothing;
* `entryPath_eq`, `setupPath_eq`, `setup_ne_entry`: where the files of a plan lie;
* `groupsOf`: all groups of some nodes;
* `Delivered`: the files of a build, their order, and its report;
* `build_delivers`: every build that comes to a report has delivered it.
-/
import RequestSuite.Proofs.Execution
import RequestSuite.Proofs.KeyedWrites
import RequestSuite.Proofs.PathText

namespace RequestSuite

/-! ### Calls in memory -/

/-- The path and the text of a call that writes. -/
def Call.writes? : Call → Option (String × String)
  | .write path text => some (normal path, text)
  | _ => none

/-- The path of a call that creates a directory. -/
def Call.creates? : Call → Option String
  | .mkdir path => some (normal path)
  | _ => none

/-- Directories with some more, each of them once. -/
def withDirectories (more directories : List String) : List String :=
  more.foldl (fun known path => if known.contains path then known else known ++ [path]) directories

/-- A call in memory puts what it writes and adds the directory it creates. -/
lemma memoryEffect_eq (call : Call) (m : Memory) :
    memoryEffect call m =
      ⟨m.files.putAll call.writes?.toList, withDirectories call.creates?.toList m.directories⟩ := by
  cases call with
  | read path =>
      rw [memoryEffect, memory]
      cases m.files.get? (normal path) <;> rfl
  | mkdir path =>
      rw [memoryEffect, memory]
      simp only [Call.writes?, Call.creates?, withDirectories, Keyed.putAll, Option.toList,
        List.foldl_cons, List.foldl_nil]
      split_ifs <;> rfl
  | write path text => rfl

/-- What some calls leave in memory: what they write, put in order, and the directories they
create. -/
lemma effects_memory (calls : List Call) (m : Memory) :
    effects memoryEffect calls m =
      ⟨m.files.putAll (calls.filterMap Call.writes?),
        withDirectories (calls.filterMap Call.creates?) m.directories⟩ := by
  induction calls generalizing m with
  | nil => rfl
  | cons call calls ih =>
      rw [effects_cons, ih, memoryEffect_eq, List.filterMap_cons, List.filterMap_cons]
      cases call.writes? <;> cases call.creates? <;> rfl

/-- What is added is there afterwards, with all that was there. -/
lemma mem_withDirectories {more directories : List String} {path : String} :
    path ∈ withDirectories more directories ↔ path ∈ more ∨ path ∈ directories := by
  induction more generalizing directories with
  | nil => simp [withDirectories]
  | cons first more ih =>
      rw [withDirectories, List.foldl_cons, ← withDirectories, ih, List.mem_cons]
      split_ifs with h
      · rw [List.contains_iff_mem] at h
        constructor
        · tauto
        · rintro ((rfl | hm) | hd)
          · exact Or.inr h
          · exact Or.inl hm
          · exact Or.inr hd
      · rw [List.mem_append, List.mem_singleton]
        tauto

/-- Known directories are not added. -/
lemma withDirectories_of_subset {more directories : List String}
    (h : ∀ path ∈ more, path ∈ directories) : withDirectories more directories = directories := by
  induction more with
  | nil => rfl
  | cons first more ih =>
      obtain ⟨hf, hm⟩ := List.forall_mem_cons.mp h
      rw [withDirectories, List.foldl_cons, if_pos (List.contains_iff_mem.mpr hf)]
      exact ih hm

/-- **Calls made once more change nothing.** -/
lemma effects_effects (calls : List Call) (m : Memory) :
    effects memoryEffect calls (effects memoryEffect calls m) = effects memoryEffect calls m := by
  have hknown : ∀ path ∈ calls.filterMap Call.creates?,
      path ∈ withDirectories (calls.filterMap Call.creates?) m.directories :=
    fun path h => mem_withDirectories.mpr (Or.inl h)
  rw [effects_memory, effects_memory, Keyed.putAll_putAll, withDirectories_of_subset hknown]

/-! ### The files of a plan -/

lemma entryPath_eq (root : FilePath) {flatten : Bool} {nodes : List Node} {entry : Layout.Entry}
    (h : entry ∈ (Layout.plan flatten nodes).entries) :
    entryPath root entry = root.below entry.path :=
  FilePath.join_text root (by simp) (Layout.isName_of_mem_entries h)

lemma setupPath_eq (root : FilePath) : setupPath root = root.below Suite.setupFileName :=
  FilePath.join_text root (by simp) (by decide)

/-- No entry's file is the shared module: its name is longer. -/
lemma setup_ne_entry {root : FilePath} (hr : root.Proper) {flatten : Bool} {nodes : List Node}
    {entry : Layout.Entry} (h : entry ∈ (Layout.plan flatten nodes).entries) :
    root.below Suite.setupFileName ≠ root.below entry.path := by
  refine FilePath.below_ne_below hr fun heq => ?_
  have hsetup : (FilePath.parse Suite.setupFileName).components = [Suite.setupFileName] := by decide
  rw [Layout.Entry.path, FilePath.parse_joinPath (by simp) (Layout.isName_of_mem_entries h),
    hsetup] at heq
  have hlast := congrArg List.getLast? heq
  rw [List.getLast?_concat, List.getLast?_singleton, Option.some_inj] at hlast
  have hlen : Layout.testExtension.length < (Layout.fileName entry.request.name).length :=
    Layout.length_fileName _
  rw [← hlast] at hlen
  exact absurd hlen (by decide)

/-- The files of a build with their texts, in the order in which they are written. -/
def writtenFiles (options : Options) (collection environment : Json) (root : FilePath) :
    List (String × String) :=
  (if options.emitSetup then
      [(root.below Suite.setupFileName, sharedText options collection environment)]
    else []) ++
    (planOf options collection).entries.map fun entry =>
      (root.below entry.path, entryText options entry)

section Files

variable {options : Options} {collection environment : Json} {root : FilePath}

/-- The tasks of a build write its files. -/
lemma filterMap_writes_tasks (hr : root.Proper) :
    ((tasks options collection).map (Task.call options collection environment root)).filterMap
      Call.writes? = writtenFiles options collection environment root := by
  have hroot : (Call.writes? ∘ Task.call options collection environment root) .root = none := rfl
  have hsetup : (Call.writes? ∘ Task.call options collection environment root) .setup =
      some (root.below Suite.setupFileName, sharedText options collection environment) := by
    rw [Function.comp_apply, Task.call, setupPath_eq, Call.writes?, FilePath.normal_below hr]
  have hopening : (rootTasks options).filterMap
      (Call.writes? ∘ Task.call options collection environment root) =
      if options.emitSetup then
        [(root.below Suite.setupFileName, sharedText options collection environment)]
      else [] := by
    rw [rootTasks, List.filterMap_cons_none hroot]
    split_ifs
    · rw [List.filterMap_cons_some hsetup, List.filterMap_nil]
    · rfl
  have hdirectories : ∀ directory ∈ (planOf options collection).directories,
      (Call.writes? ∘ Task.call options collection environment root ∘ Task.directory) directory =
        none := fun directory _ => rfl
  have hentries : ∀ entry ∈ (planOf options collection).entries,
      (Call.writes? ∘ Task.call options collection environment root ∘ Task.test) entry =
        some (root.below entry.path, entryText options entry) := fun entry he => by
    rw [Function.comp_apply, Function.comp_apply, Task.call, entryPath_eq root he, Call.writes?,
      FilePath.normal_below hr]
  rw [List.filterMap_map, tasks, List.filterMap_append, hopening, planTasks, List.filterMap_append,
    List.filterMap_map, List.filterMap_map, Function.comp_assoc, Function.comp_assoc,
    List.filterMap_eq_nil_iff.mpr hdirectories, List.filterMap_congr hentries,
    List.filterMap_eq_map', List.nil_append, writtenFiles]

/-- The last file with a path is the shared module, or that of the last entry with this path. -/
lemma findRev_writtenFiles (hr : root.Proper) (path : String) :
    ((writtenFiles options collection environment root).findRev? fun file => file.1 == path) =
      if options.emitSetup ∧ path = root.below Suite.setupFileName then
        some (path, sharedText options collection environment)
      else
        ((planOf options collection).entries.findRev? fun entry =>
          root.below entry.path == path).map fun entry => (path, entryText options entry) := by
  rw [writtenFiles, List.findRev?_eq_find?_reverse, List.reverse_append, List.find?_append,
    ← List.map_reverse, List.find?_map, List.findRev?_eq_find?_reverse]
  have hcomp : ((fun file => file.1 == path) ∘ fun entry : Layout.Entry =>
      (root.below entry.path, entryText options entry)) =
      fun entry => root.below entry.path == path := rfl
  rw [hcomp]
  cases hfind : (planOf options collection).entries.reverse.find? fun entry =>
      root.below entry.path == path with
  | some entry =>
      have hpath : root.below entry.path = path := by simpa using List.find?_some hfind
      have hmem := List.mem_reverse.mp (List.mem_of_find?_eq_some hfind)
      have hne : path ≠ root.below Suite.setupFileName := fun h =>
        setup_ne_entry hr hmem (h.symm.trans hpath.symm)
      simp [hpath, hne]
  | none =>
      by_cases hs : options.emitSetup = true
      · by_cases hp : path = root.below Suite.setupFileName
        · simp [hs, hp]
        · simp [hs, hp, Ne.symm hp]
      · simp [hs]

end Files

/-! ### Groups -/

mutual

/-- The groups of a node, each with its children and before those below it. -/
def groupsOfNode : Node → List (String × List Node)
  | .group name children => (name, children) :: groupsOf children
  | .request _ => []

/-- The groups of some nodes, each with its children and before those below it. -/
def groupsOf : List Node → List (String × List Node)
  | [] => []
  | node :: nodes => groupsOfNode node ++ groupsOf nodes

end

mutual

/-- A node's folders are its groups with children. -/
lemma folderCountOfNode_eq (node : Node) :
    Layout.folderCountOfNode node =
      (groupsOfNode node).countP fun group => !group.2.isEmpty := by
  cases node with
  | group name children =>
      rw [groupsOfNode, List.countP_cons, ← folderCount_eq children]
      cases children with
      | nil => rfl
      | cons first others => rfl
  | request r => rfl

lemma folderCount_eq (nodes : List Node) :
    Layout.folderCount nodes = (groupsOf nodes).countP fun group => !group.2.isEmpty := by
  cases nodes with
  | nil => rfl
  | cons node nodes =>
      rw [groupsOf, List.countP_append, Layout.folderCount, folderCountOfNode_eq node,
        folderCount_eq nodes]

end

/-! ### Builds with a report -/

/-- What a build of `collection` and `environment` below `root` has delivered that found the file
system `before`, left `after` and reported `outcome`. -/
structure Delivered (options : Options) (collection environment : Json) (root : FilePath)
    (before after : Memory) (outcome : Outcome) : Prop where
  /-- The shared module is where it belongs. Elsewhere the last planned request with a path has its
  test file there, and no other file has changed. -/
  file : ∀ path, after.files.get? path =
    if options.emitSetup ∧ path = root.below Suite.setupFileName then
      some (sharedText options collection environment)
    else
      (((planOf options collection).entries.findRev? fun entry =>
        root.below entry.path == path).map (entryText options)).or (before.files.get? path)
  /-- New files come after the old ones, in the order in which they were first written. -/
  order : after.files.keys =
    before.files.keys ++ (outcome.written.filter fun path => path ∉ before.files.keys).eraseDups
  written : outcome.written =
    (if options.emitSetup then [root.below Suite.setupFileName] else []) ++
      (planOf options collection).entries.map fun entry => root.below entry.path
  /-- The plan has an entry for each request, in document order. -/
  requests : (planOf options collection).entries.map Layout.Entry.request =
    (readCollection collection).1.requests
  files : outcome.files = (readCollection collection).1.requests.length
  fallbacks : outcome.fallbacks =
    (readCollection collection).1.requests.countP fun request => (adaptationOf request).fellBack
  folders : outcome.folders =
    (groupsOf (readCollection collection).1.children).countP fun group => !group.2.isEmpty
  warnings : outcome.warnings =
    (checkCollection collection).warnings.map .document ++
      (checkEnvironment environment).warnings.map .document ++
      (readCollection collection).2.map .reading ++
      (if baseUrl? (readCollection collection).1.requests = none then [.noBaseUrl] else []) ++
      (planOf options collection).collisions.map .collision

section Report

variable {stack : Stack} {options : Options} {collection environment : Json}

lemma baseUrlOf_warnings (c : Collection) :
    (baseUrlOf c).2 = if baseUrl? c.requests = none then [.noBaseUrl] else [] := by
  rw [baseUrlOf]
  cases baseUrl? c.requests <;> rfl

/-- The paths in a report are those of the files of its build. -/
lemma outline_written (stack : Stack) (options : Options) (collection environment : Json)
    (root : FilePath) :
    (outline stack options collection environment root).outcome.written =
      (writtenFiles options collection environment root).map Prod.fst := by
  have hentries : ∀ entry ∈ (planOf options collection).entries,
      entryPath root entry = root.below entry.path := fun entry he => entryPath_eq root he
  have hwritten : (outline stack options collection environment root).outcome.written =
      (if options.emitSetup then [setupPath root] else []) ++
        (planOf options collection).entries.map (entryPath root) := rfl
  rw [hwritten, List.map_congr_left hentries, setupPath_eq, writtenFiles, List.map_append,
    List.map_map]
  split_ifs <;> rfl

/-- What the tasks of a build leave, with the report of its outline, has been delivered. -/
lemma delivered_outline {root : FilePath} (hr : root.Proper) (m : Memory) :
    Delivered options collection environment root m
      (effects memoryEffect
        ((tasks options collection).map (Task.call options collection environment root)) m)
      (outline stack options collection environment root).outcome := by
  have hrequests : (planOf options collection).entries.map Layout.Entry.request =
      (readCollection collection).1.requests := Layout.map_request_entriesOf _ _ _ _
  have hfiles : (effects memoryEffect ((tasks options collection).map
      (Task.call options collection environment root)) m).files =
      m.files.putAll (writtenFiles options collection environment root) := by
    rw [effects_memory, filterMap_writes_tasks hr]
  have hwritten := outline_written stack options collection environment root
  refine ⟨fun path => ?_, ?_, ?_, hrequests, ?_, ?_, folderCount_eq _, ?_⟩
  · rw [hfiles, Keyed.get?_putAll, findRev_writtenFiles hr]
    split_ifs with h
    · rw [Option.map_some, Option.some_or]
    · rw [Option.map_map]
      simp only [Function.comp_def]
  · rw [hfiles, Keyed.keys_putAll, hwritten]
  · rw [hwritten, writtenFiles, List.map_append, List.map_map]
    split_ifs <;> rfl
  · rw [← hrequests, List.length_map]
    rfl
  · rw [← hrequests, List.countP_map]
    rfl
  · rw [← baseUrlOf_warnings]
    rfl

end Report

/-- **What a build delivers.** Whenever a build in memory comes to a report, whatever files there
were, it has written the shared module if that is asked for and the test file of every request, the
last of those that share a path; it has touched nothing else; and its report counts and lists what
it did. Building once more finds everything as it is to be and changes nothing. -/
theorem build_delivers {stack : Stack} {options : Options} {collection environment : Json}
    {root : String} {m : Memory} {outcome : Outcome}
    (h : (build stack memory options collection environment root m).result = .ok outcome) :
    let run := build stack memory options collection environment root m
    Delivered options collection environment (FilePath.parse root) m run.store outcome ∧
      build stack memory options collection environment root run.store = run := by
  intro run
  obtain ⟨hprepared, ho, rfl⟩ := of_result_ok h
  simp only [run, hprepared.build_memory ho]
  exact ⟨delivered_outline (FilePath.proper_parse root) m, by rw [effects_effects]⟩

/-- A collection of two requests that share a file. -/
def sameNames : Json :=
  .obj [("info", .obj [("name", .str "API"), ("schema", .str "v2")]),
    ("item", .arr [.obj [("name", .str "Get user"), ("request", .str "https://host/a")],
      .obj [("name", .str "get-user"), ("request", .str "https://host/b")]])]

/-- A file system that holds an earlier test file and a note. -/
def earlierFiles : Memory where
  files := [("out/get-user.test.js", "// earlier"), ("out/note.txt", "keep")]

/-- Of two requests that share a file with an earlier one the second is kept, in the place of the
earlier file. -/
theorem same_names_delivered :
    let run := build .ample memory {} sameNames .null "out" earlierFiles
    ∃ outcome, run.result = .ok outcome ∧
      Delivered {} sameNames .null (FilePath.parse "out") earlierFiles run.store outcome ∧
      build .ample memory {} sameNames .null "out" run.store = run ∧
      run.store.files.keys = ["out/get-user.test.js", "out/note.txt", "out/setup.js"] ∧
      run.store.files.get? "out/note.txt" = some "keep" := by
  have hc : (checkCollection sameNames).ok = true := by decide +kernel
  have he : (checkEnvironment .null).ok = true := by decide +kernel
  have ho : (outline .ample {} sameNames .null (FilePath.parse "out")).obstacle = none := by
    decide +kernel
  have hresult := congrArg Execution.result ((prepared_ample hc he).build_memory ho earlierFiles)
  have hdelivered := build_delivers hresult
  exact ⟨_, hresult, hdelivered.1, hdelivered.2, by decide +kernel, by decide +kernel⟩

end RequestSuite
