/-
What the options of a build change.

* `putAll_cons_of_notMem`: an entry in front of a map stays there while others are put;
* `entries_flattened`, `map_entries_congr`: a flattened plan has the same entries, all at the root;
* `lastComponent`, `map_path_flattened`: the files of such entries;
* `length_collisionsOf_le`: files that move together collide as often or more often;
* `testFiles`, `setupFile`, `store_eq`: what a build leaves that starts with nothing;
* `plainWarnings`, `testPaths_outline`: what an outline says of itself and of its plan;
* `Flattened`, `Alike`: what two builds of the same documents have in common, by what their options
  have in common;
* `options_change_what_they_name`: it is so of every two builds that start with nothing.
-/
import RequestSuite.Proofs.BuildResult
import RequestSuite.Proofs.Collisions

namespace RequestSuite

/-! ### Maps -/

/-- An entry in front of a map stays there while entries with other keys are put. -/
lemma Keyed.putAll_cons_of_notMem {α : Type} {key : String} {entries : List (String × α)}
    (h : key ∉ entries.map Prod.fst) (value : α) (m : Keyed α) :
    putAll entries ((key, value) :: m) = (key, value) :: putAll entries m := by
  induction entries generalizing m with
  | nil => rfl
  | cons entry entries ih =>
      rw [List.map_cons, List.mem_cons, not_or] at h
      have hput : put entry.1 entry.2 ((key, value) :: m) = (key, value) :: put entry.1 entry.2 m :=
        if_neg h.1
      rw [putAll_cons, putAll_cons, hput]
      exact ih h.2 _

/-! ### Flattened plans -/

namespace Layout

variable {nodes : List Node}

/-- An entry at the root. -/
def Entry.atRoot (entry : Entry) : Entry := { entry with directory := [] }

mutual

/-- The flattened entries of a node are its entries with another directory. -/
lemma entriesOfNode_true (flatten : Bool) (directory directory' : List String)
    (parent : Option String) (node : Node) :
    entriesOfNode true directory parent node =
      (entriesOfNode flatten directory' parent node).map fun entry => { entry with directory } := by
  cases node with
  | group name children =>
      rw [entriesOfNode, entriesOfNode, if_pos rfl]
      exact entriesOf_true flatten directory _ (some name) children
  | request r => rfl

/-- The flattened entries of some nodes are their entries with another directory. -/
lemma entriesOf_true (flatten : Bool) (directory directory' : List String)
    (parent : Option String) (nodes : List Node) :
    entriesOf true directory parent nodes =
      (entriesOf flatten directory' parent nodes).map fun entry => { entry with directory } := by
  cases nodes with
  | nil => rfl
  | cons node nodes =>
      rw [entriesOf, entriesOf, List.map_append,
        entriesOfNode_true flatten directory directory' parent node,
        entriesOf_true flatten directory directory' parent nodes]

end

/-- **A flattened plan has the same entries**, all at the root. -/
lemma entries_flattened (flatten : Bool) (nodes : List Node) :
    (plan true nodes).entries = (plan flatten nodes).entries.map Entry.atRoot :=
  entriesOf_true flatten [] [] none nodes

/-- Flattened or not, a plan has the same requests with the same parents. -/
lemma map_entries_congr {β : Type} {f : Entry → β} (hf : ∀ entry, f entry.atRoot = f entry)
    (flatten flatten' : Bool) (nodes : List Node) :
    (plan flatten' nodes).entries.map f = (plan flatten nodes).entries.map f := by
  have hroot (flatten : Bool) :
      (plan true nodes).entries.map f = (plan flatten nodes).entries.map f := by
    rw [entries_flattened flatten, List.map_map]
    exact List.map_congr_left fun entry _ => hf entry
  rw [← hroot flatten, ← hroot flatten']

/-- The last component of a path. -/
def lastComponent (path : String) : String :=
  (FilePath.parse path).components.getLast?.getD ""

lemma path_atRoot {flatten : Bool} {entry : Entry} (h : entry ∈ (plan flatten nodes).entries) :
    entry.atRoot.path = lastComponent entry.path := by
  have hparts := FilePath.parse_joinPath (by simp) (isName_of_mem_entries h)
  have hname : entry.atRoot.path = fileName entry.request.name := rfl
  rw [hname, lastComponent, Entry.path, hparts, List.getLast?_concat, Option.getD_some]

lemma map_path_flattened (flatten : Bool) (nodes : List Node) :
    (plan true nodes).entries.map Entry.path =
      (plan flatten nodes).entries.map fun entry => lastComponent entry.path := by
  rw [entries_flattened flatten, List.map_map]
  exact List.map_congr_left fun entry h => path_atRoot h

/-- **Files whose paths are replaced by images of them collide as often or more often**: there are
no more different paths than before. -/
lemma length_collisionsOf_le {entries entries' : List Entry} {f : String → String}
    (h : entries'.map Entry.path = (entries.map Entry.path).map f) :
    (collisionsOf entries).length ≤ (collisionsOf entries').length := by
  have hlength : entries'.length = entries.length := by
    simpa using congrArg List.length h
  have hpaths : (entries'.map Entry.path).toFinset.card ≤
      (entries.map Entry.path).toFinset.card := by
    have himage : (entries'.map Entry.path).toFinset =
        (entries.map Entry.path).toFinset.image f := by
      ext path
      rw [h]
      simp
    rw [himage]
    exact Finset.card_image_le
  have hcount := length_collisionsOf_add_card entries
  have hcount' := length_collisionsOf_add_card entries'
  omega

end Layout

/-! ### The files and directories of a build -/

section Store

variable (options : Options) (collection environment : Json) (root : FilePath)

/-- The test files of a build with their texts, in the order in which they are written. -/
def testFiles : List (String × String) :=
  (planOf options collection).entries.map fun entry =>
    (root.below entry.path, entryText options entry)

/-- The shared module of a build with its text, if it is written. -/
def setupFile : List (String × String) :=
  if options.emitSetup then
    [(root.below Suite.setupFileName, sharedText options collection environment)]
  else []

variable {root}

lemma setup_notMem_testFiles (hr : root.Proper) :
    root.below Suite.setupFileName ∉ (testFiles options collection root).map Prod.fst := by
  rw [testFiles, List.map_map]
  intro hmem
  obtain ⟨entry, hentry, hpath⟩ := List.mem_map.mp hmem
  exact setup_ne_entry hr hentry hpath.symm

/-- The tasks of a build create the root and the planned directories. -/
lemma filterMap_creates_tasks :
    ((tasks options collection).map (Task.call options collection environment root)).filterMap
      Call.creates? =
        normal root.text ::
          (planOf options collection).directories.map fun directory =>
            normal (root.join directory).text := by
  have hdirectories : ∀ directory ∈ (planOf options collection).directories,
      (Call.creates? ∘ Task.call options collection environment root ∘ Task.directory) directory =
        some (normal (root.join directory).text) := fun directory _ => rfl
  have hentries : ∀ entry ∈ (planOf options collection).entries,
      (Call.creates? ∘ Task.call options collection environment root ∘ Task.test) entry = none :=
    fun entry _ => rfl
  have hopening : (rootTasks options).filterMap
      (Call.creates? ∘ Task.call options collection environment root) = [normal root.text] := by
    rw [rootTasks]
    split_ifs <;> rfl
  rw [List.filterMap_map, tasks, List.filterMap_append, hopening, planTasks, List.filterMap_append,
    List.filterMap_map, List.filterMap_map, Function.comp_assoc, Function.comp_assoc,
    List.filterMap_eq_nil_iff.mpr hentries, List.filterMap_congr hdirectories,
    List.filterMap_eq_map', List.append_nil, List.singleton_append]

/-- **What a build leaves that starts with nothing**: the shared module in front of the test files,
the last of those that share a path, and the directories. -/
lemma store_eq (hr : root.Proper) :
    effects memoryEffect
        ((tasks options collection).map (Task.call options collection environment root)) {} =
      { files := setupFile options collection environment root ++
          Keyed.ofList (testFiles options collection root)
        directories := withDirectories (normal root.text ::
          (planOf options collection).directories.map fun directory =>
            normal (root.join directory).text) [] } := by
  have hfiles : Keyed.putAll (writtenFiles options collection environment root) [] =
      setupFile options collection environment root ++
        Keyed.ofList (testFiles options collection root) := by
    rw [writtenFiles, setupFile]
    split_ifs
    · rw [List.singleton_append, List.singleton_append, Keyed.putAll_cons, Keyed.put, ← testFiles,
        Keyed.putAll_cons_of_notMem (setup_notMem_testFiles options collection hr), Keyed.ofList]
    · rfl
  rw [effects_memory, filterMap_writes_tasks hr, filterMap_creates_tasks, hfiles]

end Store

/-! ### Two builds -/

/-- Whether a warning is of a file that is written again. -/
def Warning.isCollision : Warning → Bool
  | .collision _ => true
  | _ => false

/-- The paths of the test files in a report. -/
def Outcome.testPaths (options : Options) (outcome : Outcome) : List String :=
  outcome.written.drop (if options.emitSetup then 1 else 0)

/-- The files of a file system but for the shared module. -/
def Memory.besideSetup (root : FilePath) (m : Memory) : Keyed String :=
  m.files.filter fun file => file.1 != root.below Suite.setupFileName

/-- Beside the shared module there are the test files. -/
lemma besideSetup_eq (options : Options) (collection environment : Json) {root : FilePath}
    (hr : root.Proper) (directories : List String) :
    Memory.besideSetup root
        ⟨setupFile options collection environment root ++
          Keyed.ofList (testFiles options collection root), directories⟩ =
      Keyed.ofList (testFiles options collection root) := by
  have htests : ∀ file ∈ Keyed.ofList (testFiles options collection root),
      (file.1 != root.below Suite.setupFileName) = true := by
    intro file hfile
    have hkey : file.1 ∈ (Keyed.ofList (testFiles options collection root)).keys :=
      List.mem_map_of_mem hfile
    rw [Keyed.ofList, Keyed.keys_putAll] at hkey
    have hpath : file.1 ∈ (testFiles options collection root).map Prod.fst := by
      simpa [Keyed.keys] using hkey
    exact bne_iff_ne.mpr fun heq => setup_notMem_testFiles options collection hr (heq ▸ hpath)
  have hsetup : (setupFile options collection environment root).filter
      (fun file => file.1 != root.below Suite.setupFileName) = [] := by
    rw [setupFile]
    split_ifs <;> simp
  rw [Memory.besideSetup, List.filter_append, hsetup, List.filter_eq_self.mpr htests,
    List.nil_append]

/-- What becomes of a build with directories if it is flattened. -/
structure Flattened (options options' : Options) (collection : Json) (root : FilePath)
    (outcome outcome' : Outcome) : Prop where
  nested : outcome.testPaths options =
    ((planOf options collection).entries.map Layout.Entry.path).map root.below
  /-- Of the path of each test file below the root its last component is left. -/
  paths : outcome'.testPaths options' =
    (((planOf options collection).entries.map Layout.Entry.path).map
      Layout.lastComponent).map root.below
  /-- Each test file is that of the same request with the same parent, and imports the shared module
  from its own directory. -/
  texts : (planOf options' collection).entries.map (entryText options') =
    (planOf options collection).entries.map fun entry =>
      Suite.testText options'.enhanced entry.request 0 entry.parent (adaptationOf entry.request)
  depths : ∀ entry ∈ (planOf options' collection).entries, entry.depth = 0
  /-- There are at least as many collisions. -/
  collisions : outcome.warnings.countP Warning.isCollision ≤
    outcome'.warnings.countP Warning.isCollision

/-- What two builds of the same documents below `root` have in common, by what their options have in
common. -/
structure Alike (options options' : Options) (collection environment : Json) (root : FilePath)
    (run run' : Execution Memory) (outcome outcome' : Outcome) : Prop where
  files : outcome'.files = outcome.files
  folders : outcome'.folders = outcome.folders
  fallbacks : outcome'.fallbacks = outcome.fallbacks
  baseUrl : outcome'.baseUrl = outcome.baseUrl
  bindings : outcome'.environment = outcome.environment
  warnings : (outcome'.warnings.filter fun warning => !warning.isCollision) =
    outcome.warnings.filter fun warning => !warning.isCollision
  /-- The same requests are planned in the same order, in groups of the same name. -/
  planned : ((planOf options' collection).entries.map fun entry => (entry.request, entry.parent)) =
    (planOf options collection).entries.map fun entry => (entry.request, entry.parent)
  /-- Both flattened or neither, they have the same directories and test files, and the same
  collisions. -/
  places : options'.flatten = options.flatten →
    outcome'.testPaths options' = outcome.testPaths options ∧
      run'.store.directories = run.store.directories ∧ outcome'.warnings = outcome.warnings
  /-- If both measure or neither does, too, all test files are the same. -/
  texts : options'.flatten = options.flatten → options'.enhanced = options.enhanced →
    (planOf options' collection).entries.map (entryText options') =
      (planOf options collection).entries.map (entryText options) ∧
    run'.store.besideSetup root = run.store.besideSetup root
  /-- The shared module is one more file, the first that is written. Nothing else changes. -/
  setup : options.emitSetup = false → options' = { options with emitSetup := true } →
    run'.result =
      .ok { outcome with written := root.below Suite.setupFileName :: outcome.written } ∧
    run'.phases = run.phases ∧
    run'.store.directories = run.store.directories ∧
    run'.store.files =
      (root.below Suite.setupFileName, sharedText options' collection environment) ::
        run.store.files
  flattened : options.flatten = false → options'.flatten = true →
    Flattened options options' collection root outcome outcome'

section Outcomes

variable (stack : Stack) (options options' : Options) (collection environment : Json)
  (root : FilePath)

lemma testPaths_outline :
    (outline stack options collection environment root).outcome.testPaths options =
      ((planOf options collection).entries.map Layout.Entry.path).map root.below := by
  rw [Outcome.testPaths, outline_written, writtenFiles, List.map_append, List.map_map, List.map_map]
  split_ifs <;> rfl

/-- The warnings of an outline that are not of its plan. -/
def plainWarnings : List Warning :=
  (checkCollection collection).warnings.map .document ++
    (checkEnvironment environment).warnings.map .document ++
    (readCollection collection).2.map .reading ++ (baseUrlOf (readCollection collection).1).2

lemma warnings_outline : (outline stack options collection environment root).outcome.warnings =
    plainWarnings collection environment ++
      (planOf options collection).collisions.map .collision := rfl

/-- No warning that is not of the plan is a collision. -/
lemma isCollision_of_mem_plainWarnings {warning : Warning}
    (h : warning ∈ plainWarnings collection environment) : warning.isCollision = false := by
  simp only [plainWarnings, List.mem_append, List.mem_map, baseUrlOf_warnings] at h
  rcases h with ((⟨_, -, rfl⟩ | ⟨_, -, rfl⟩) | ⟨_, -, rfl⟩) | h
  · rfl
  · rfl
  · rfl
  · split_ifs at h
    · obtain rfl := List.mem_singleton.mp h
      rfl
    · cases h

lemma filter_warnings_outline :
    ((outline stack options collection environment root).outcome.warnings.filter fun warning =>
      !warning.isCollision) = plainWarnings collection environment := by
  have hplain : ∀ warning ∈ plainWarnings collection environment, (!warning.isCollision) = true :=
    fun _ h => by rw [isCollision_of_mem_plainWarnings collection environment h]; rfl
  rw [warnings_outline, List.filter_append, List.filter_eq_self.mpr hplain,
    List.filter_eq_nil_iff.mpr (by simp [Warning.isCollision]), List.append_nil]

/-- The collisions in the report of an outline are those of its plan. -/
lemma countP_warnings_outline :
    (outline stack options collection environment root).outcome.warnings.countP
        Warning.isCollision =
      (planOf options collection).collisions.length := by
  have hplain : ∀ warning ∈ plainWarnings collection environment, ¬ warning.isCollision = true :=
    fun _ h => by rw [isCollision_of_mem_plainWarnings collection environment h]; simp
  rw [warnings_outline, List.countP_append, List.countP_eq_zero.mpr hplain, List.countP_map,
    Nat.zero_add]
  exact List.countP_eq_length.mpr fun collision _ => rfl

/-- Flattened or not, an outline has the same obstacle. -/
lemma obstacle_congr :
    (outline stack options' collection environment root).obstacle =
      (outline stack options collection environment root).obstacle := by
  have hentries := Layout.map_entries_congr (f := fun entry => entryOverflow? stack entry)
    (fun _ => rfl) options.flatten options'.flatten (readCollection collection).1.children
  have hfirst (options : Options) :
      (planOf options collection).entries.findSome? (entryOverflow? stack) =
        ((planOf options collection).entries.map fun entry =>
          entryOverflow? stack entry).findSome? id := by
    rw [List.findSome?_map]
    rfl
  rw [outline_obstacle, outline_obstacle, hfirst options, hfirst options', planOf, planOf, hentries]

variable {options options'}

/-- What becomes of an outline with directories if it is flattened. -/
lemma flattened_outline (h : options'.flatten = true) :
    Flattened options options' collection root
      (outline stack options collection environment root).outcome
      (outline stack options' collection environment root).outcome := by
  have hentries : (planOf options' collection).entries =
      (planOf options collection).entries.map Layout.Entry.atRoot := by
    rw [planOf, h]
    exact Layout.entries_flattened _ _
  have hpaths : (planOf options' collection).entries.map Layout.Entry.path =
      ((planOf options collection).entries.map Layout.Entry.path).map Layout.lastComponent := by
    rw [planOf, h, Layout.map_path_flattened options.flatten, List.map_map]
    rfl
  refine ⟨testPaths_outline stack options collection environment root, ?_, ?_, ?_, ?_⟩
  · rw [testPaths_outline, hpaths]
  · rw [hentries, List.map_map]
    rfl
  · rw [hentries]
    intro entry hentry
    obtain ⟨entry, -, rfl⟩ := List.mem_map.mp hentry
    rfl
  · rw [countP_warnings_outline, countP_warnings_outline]
    exact Layout.length_collisionsOf_le hpaths

/-- What two outlines of the same documents have in common, and what they leave. -/
lemma alike_outline {phases : List Phase} (hr : root.Proper) :
    Alike options options' collection environment root
      ⟨.ok (outline stack options collection environment root).outcome, phases,
        effects memoryEffect
          ((tasks options collection).map (Task.call options collection environment root)) {}⟩
      ⟨.ok (outline stack options' collection environment root).outcome, phases,
        effects memoryEffect
          ((tasks options' collection).map (Task.call options' collection environment root)) {}⟩
      (outline stack options collection environment root).outcome
      (outline stack options' collection environment root).outcome := by
  have hplanned {β : Type} {f : Layout.Entry → β} (hf : ∀ entry, f entry.atRoot = f entry) :
      (planOf options' collection).entries.map f = (planOf options collection).entries.map f :=
    Layout.map_entries_congr hf _ _ _
  have hplan (h : options'.flatten = options.flatten) :
      planOf options' collection = planOf options collection := by rw [planOf, h, ← planOf]
  rw [store_eq options collection environment hr, store_eq options' collection environment hr]
  refine ⟨?_, rfl, ?_, rfl, rfl, ?_, ?_, fun h => ⟨?_, ?_, ?_⟩, fun h h' => ?_, ?_,
    fun _ h => flattened_outline stack collection environment root h⟩
  · have hlength := congrArg List.length (hplanned (f := Layout.Entry.request) fun _ => rfl)
    rw [List.length_map, List.length_map] at hlength
    exact hlength
  · have hcount := congrArg (List.countP fun request => (adaptationOf request).fellBack)
      (hplanned (f := Layout.Entry.request) fun _ => rfl)
    rw [List.countP_map, List.countP_map] at hcount
    exact hcount
  · rw [filter_warnings_outline, filter_warnings_outline]
  · exact hplanned fun _ => rfl
  · rw [testPaths_outline, testPaths_outline, hplan h]
  · rw [hplan h]
  · rw [warnings_outline, warnings_outline, hplan h]
  · have htext : entryText options' = entryText options := by
      funext entry
      rw [entryText, entryText, h']
    have htests : testFiles options' collection root = testFiles options collection root := by
      rw [testFiles, testFiles, hplan h, htext]
    exact ⟨by rw [hplan h, htext], by
      rw [besideSetup_eq options collection environment hr,
        besideSetup_eq options' collection environment hr, htests]⟩
  · rintro hs rfl
    have hwritten : (outline stack { options with emitSetup := true } collection environment
        root).outcome.written = root.below Suite.setupFileName ::
          (outline stack options collection environment root).outcome.written := by
      rw [outline_written, outline_written, writtenFiles, writtenFiles, hs]
      rfl
    refine ⟨?_, rfl, rfl, ?_⟩
    · rw [← hwritten]
      rfl
    · rw [setupFile, setupFile, hs]
      rfl

end Outcomes

/-- **Options change only what they name.** If a build in memory that starts with nothing comes to a
report, so does that of the same documents with any other options. The reports agree but for the
paths of the files and the collisions. Those of the test files depend on flattening alone, and their
texts on flattening and measuring; the shared module is one more file in front. Flattened, each test
file keeps the last component of its path, and there are no fewer collisions. -/
theorem options_change_what_they_name {stack : Stack} {options : Options}
    {collection environment : Json} {root : String} {outcome : Outcome} (options' : Options)
    (h : (build stack memory options collection environment root {}).result = .ok outcome) :
    ∃ outcome', (build stack memory options' collection environment root {}).result = .ok outcome' ∧
      Alike options options' collection environment (FilePath.parse root)
        (build stack memory options collection environment root {})
        (build stack memory options' collection environment root {}) outcome outcome' := by
  obtain ⟨hprepared, ho, rfl⟩ := of_result_ok h
  have ho' :
      (outline stack options' collection environment (FilePath.parse root)).obstacle = none := by
    rw [obstacle_congr stack options, ho]
  rw [hprepared.build_memory ho, hprepared.build_memory ho']
  exact ⟨_, rfl, alike_outline stack collection environment _ (FilePath.proper_parse root)⟩

/-- A collection of two groups, each with a request of the same name. -/
def twoLists : Json :=
  .obj [("info", .obj [("name", .str "API"), ("schema", .str "v2")]),
    ("item", .arr [
      .obj [("name", .str "Users"), ("item", .arr [
        .obj [("name", .str "List"), ("request", .str "https://host/users")]])],
      .obj [("name", .str "Teams"), ("item", .arr [
        .obj [("name", .str "List"), ("request", .str "https://host/teams")]])]])]

/-- Flattened, two requests of the same name share a file. -/
theorem two_lists_flattened :
    ∃ outcome outcome',
      (build .ample memory {} twoLists .null "out" {}).result = .ok outcome ∧
      (build .ample memory { flatten := true, emitSetup := false } twoLists .null "out" {}).result =
        .ok outcome' ∧
      outcome.warnings = [] ∧
      outcome'.testPaths { flatten := true, emitSetup := false } =
        ["out/list.test.js", "out/list.test.js"] ∧
      outcome'.files = 2 ∧ outcome'.baseUrl = "https://host" := by
  have hc : (checkCollection twoLists).ok = true := by decide +kernel
  have he : (checkEnvironment .null).ok = true := by decide +kernel
  have ho : (outline .ample {} twoLists .null (FilePath.parse "out")).obstacle = none := by
    decide +kernel
  have hresult := congrArg Execution.result ((prepared_ample hc he).build_memory ho {})
  obtain ⟨outcome', hresult', halike⟩ :=
    options_change_what_they_name { flatten := true, emitSetup := false } hresult
  have hpaths : ((((planOf {} twoLists).entries.map Layout.Entry.path).map
      Layout.lastComponent).map (FilePath.parse "out").below) =
        ["out/list.test.js", "out/list.test.js"] := by decide +kernel
  have hflattened := halike.flattened rfl rfl
  exact ⟨_, outcome', hresult, hresult', by decide +kernel, hflattened.paths.trans hpaths,
    halike.files.trans (by decide +kernel), halike.baseUrl.trans (by decide +kernel)⟩

end RequestSuite
