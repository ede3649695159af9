/-
No name leads a file out of its suite.

* `Plain`: segments of word characters and hyphens; `plain_directoryName` and `exists_fileName_eq`
  show that all names become such segments;
* `DirectoryPath`, `TestPath`: the paths of directories and of test files;
* `Leads`: a path that is another one or lies above it; `TestPath.not_leads_directory` and
  `TestPath.eq_of_leads` say that a test file is above nothing else;
* `Apart`: the outputs of a plan do not get in each other's way;
* `within_join`: plain segments lead down from every directory;
* `outputs_stay_inside`: whatever the names, all calls of a build are for paths at or below its
  root.
-/
import RequestSuite.Proofs.DirectoryOrder

namespace RequestSuite

namespace Layout

/-! ### Segments -/

/-- A segment of letters, numbers and hyphens: of word characters other than the low line, and of
hyphens. -/
def Plain (segment : String) : Prop :=
  segment ≠ "" ∧ ∀ c ∈ segment.toList, Text.isWord c = true ∧ c ≠ '_' ∨ c = '-'

instance (segment : String) : Decidable (Plain segment) :=
  decidable_of_iff
    (segment ≠ "" ∧ segment.toList.all fun c => (Text.isWord c && c != '_') || c == '-')
    (by simp [Plain])

/-- A plain segment has neither points nor slashes. -/
lemma Plain.notMem {segment : String} (h : Plain segment) {c : Char} (hc : c = '.' ∨ c = '/') :
    c ∉ segment.toList := by
  intro hmem
  rcases h.2 c hmem with ⟨hword, -⟩ | rfl
  · rcases hc with rfl | rfl
    · exact absurd hword (by decide)
    · exact absurd hword (by decide)
  · exact absurd hc (by decide)

/-- A plain segment is a component of paths that leads down. -/
lemma Plain.isName {segment : String} (h : Plain segment) :
    FilePath.IsName segment ∧ segment ≠ ".." := by
  have hdot : '.' ∉ segment.toList := h.notMem (Or.inl rfl)
  refine ⟨⟨h.1, ?_, h.notMem (Or.inr rfl)⟩, ?_⟩
  · rintro rfl
    exact hdot (by decide)
  · rintro rfl
    exact hdot (by decide)

/-- Hyphenated names are plain if their default is. -/
lemma plain_hyphenate (name : List Char) {default : List Char}
    (h : Plain (String.ofList default)) : Plain (String.ofList (hyphenate name default)) := by
  obtain ⟨hne, hplain⟩ := h
  rw [String.toList_ofList] at hplain
  have hdefault : default ≠ [] := fun hnil => hne (by rw [hnil])
  refine ⟨fun hempty => ?_, fun c hc => ?_⟩
  · rw [← String.toList_eq_nil_iff, String.toList_ofList] at hempty
    exact hyphenate_ne_nil hdefault hempty
  · rw [String.toList_ofList] at hc
    rcases mem_hyphenate hc with hd | rfl | ha
    · exact hplain c hd
    · exact Or.inr rfl
    · refine Or.inl ⟨by rw [Text.isWord, ha, Bool.true_or], ?_⟩
      rintro rfl
      exact absurd ha (by decide)

lemma plain_directoryName (group : String) : Plain (directoryName group) :=
  plain_hyphenate group.toList (by decide)

lemma exists_fileName_eq (request : String) :
    ∃ stem, Plain stem ∧ fileName request = stem ++ testExtension :=
  ⟨_, plain_hyphenate request.toList (by decide), rfl⟩

/-! ### Paths -/

/-- The path of a directory: plain segments with slashes between them. -/
def DirectoryPath (path : String) : Prop :=
  ∃ parts, parts ≠ [] ∧ (∀ part ∈ parts, Plain part) ∧ path = joinPath parts

/-- The path of a test file: plain segments with slashes between them, the last of them followed by
the ending of all test files. -/
def TestPath (path : String) : Prop :=
  ∃ parts stem, (∀ part ∈ parts, Plain part) ∧ Plain stem ∧
    path = joinPath (parts ++ [stem ++ testExtension])

/-- Whether a path is another one or leads to a directory above it. -/
def Leads (path path' : String) : Prop := segments path.toList <+: segments path'.toList

variable {path path' : String}

/-- The segments of a directory's path have no points. -/
lemma DirectoryPath.notMem_segments (h : DirectoryPath path) :
    ∀ segment ∈ segments path.toList, segment ≠ [] ∧ '.' ∉ segment := by
  obtain ⟨parts, hne, hplain, rfl⟩ := h
  rw [segments_joinPath hne fun part hp => (hplain part hp).notMem (Or.inr rfl)]
  intro segment hs
  obtain ⟨part, hp, rfl⟩ := List.mem_map.mp hs
  exact ⟨fun hnil => (hplain part hp).1 (String.toList_eq_nil_iff.mp hnil),
    (hplain part hp).notMem (Or.inl rfl)⟩

/-- The segments of a test file's path: some without points, then the name of the file. -/
lemma TestPath.exists_segments (h : TestPath path) :
    ∃ parts stem, segments path.toList = parts ++ [stem ++ testExtension.toList] ∧
      (∀ part ∈ parts, part ≠ [] ∧ '.' ∉ part) ∧ stem ≠ [] := by
  obtain ⟨parts, stem, hplain, hstem, rfl⟩ := h
  refine ⟨parts.map String.toList, stem.toList, ?_, fun segment hs => ?_,
    fun hnil => hstem.1 (String.toList_eq_nil_iff.mp hnil)⟩
  · rw [segments_joinPath (by simp), List.map_append, List.map_singleton, String.toList_append]
    intro part hp
    rw [List.mem_append, List.mem_singleton] at hp
    rcases hp with hp | rfl
    · exact (hplain part hp).notMem (Or.inr rfl)
    · rw [String.toList_append, List.mem_append, not_or]
      exact ⟨hstem.notMem (Or.inr rfl), by decide⟩
  · obtain ⟨part, hp, rfl⟩ := List.mem_map.mp hs
    exact ⟨fun hnil => (hplain part hp).1 (String.toList_eq_nil_iff.mp hnil),
      (hplain part hp).notMem (Or.inl rfl)⟩

lemma eq_of_segments (h : segments path.toList = segments path'.toList) : path = path' := by
  rw [← String.toList_inj, ← Text.intercalate_fields '/' path.toList,
    ← Text.intercalate_fields '/' path'.toList]
  exact congrArg (List.intercalate ['/']) h

lemma TestPath.not_leads_directory (h : TestPath path) (h' : DirectoryPath path') :
    ¬ Leads path path' := by
  intro hleads
  obtain ⟨parts, stem, hsegments, -, -⟩ := h.exists_segments
  have hmem : stem ++ testExtension.toList ∈ segments path.toList := by simp [hsegments]
  exact (h'.notMem_segments _ (hleads.subset hmem)).2
    (List.mem_append_right stem (by decide))

/-- No test file is above another one. -/
lemma TestPath.eq_of_leads (h : TestPath path) (h' : TestPath path') (hleads : Leads path path') :
    path = path' := by
  obtain ⟨parts, stem, hsegments, -, -⟩ := h.exists_segments
  obtain ⟨parts', stem', hsegments', hplain', -⟩ := h'.exists_segments
  rw [Leads, hsegments'] at hleads
  rcases List.prefix_concat_iff.mp hleads with heq | hprefix
  · exact eq_of_segments (heq.trans hsegments'.symm)
  · have hmem : stem ++ testExtension.toList ∈ parts' := hprefix.subset (by simp [hsegments])
    exact absurd (List.mem_append_right stem (by decide)) (hplain' _ hmem).2

/-- No test file is the shared module. -/
lemma TestPath.ne_setup (h : TestPath path) : path ≠ Suite.setupFileName := by
  rintro rfl
  obtain ⟨parts, stem, hsegments, -, hstem⟩ := h.exists_segments
  have hsetup : segments Suite.setupFileName.toList = [Suite.setupFileName.toList] := by decide
  rw [hsetup] at hsegments
  have hlast := congrArg List.getLast? hsegments
  rw [List.getLast?_concat, List.getLast?_singleton, Option.some_inj] at hlast
  have hlength := congrArg List.length hlast
  rw [List.length_append] at hlength
  have hpositive := List.length_pos_of_ne_nil hstem
  have hnames : Suite.setupFileName.toList.length = 8 ∧ testExtension.toList.length = 8 := by decide
  omega

/-- No segment of a test file's path leads up or nowhere. -/
lemma TestPath.no_steps (h : TestPath path) :
    ∀ segment ∈ segments path.toList, segment ≠ [] ∧ segment ≠ ['.'] ∧ segment ≠ ['.', '.'] := by
  obtain ⟨parts, stem, hsegments, hplain, hstem⟩ := h.exists_segments
  intro segment hs
  rw [hsegments, List.mem_append, List.mem_singleton] at hs
  rcases hs with hs | rfl
  · obtain ⟨hne, hdot⟩ := hplain segment hs
    refine ⟨hne, ?_, ?_⟩ <;> rintro rfl <;> exact hdot List.mem_cons_self
  · have hlength : 2 < (stem ++ testExtension.toList).length := by
      have hextension : testExtension.toList.length = 8 := by decide
      rw [List.length_append]
      omega
    refine ⟨?_, ?_, ?_⟩ <;> intro heq <;> rw [heq] at hlength <;> exact absurd hlength (by decide)

lemma DirectoryPath.no_steps (h : DirectoryPath path) :
    ∀ segment ∈ segments path.toList, segment ≠ [] ∧ segment ≠ ['.'] ∧ segment ≠ ['.', '.'] := by
  intro segment hs
  obtain ⟨hne, hdot⟩ := h.notMem_segments segment hs
  refine ⟨hne, ?_, ?_⟩ <;> rintro rfl <;> exact hdot List.mem_cons_self

/-! ### The outputs of a plan -/

/-- The outputs of a plan have proper paths and do not get in each other's way. -/
structure Apart (p : Plan) : Prop where
  directory : ∀ directory ∈ p.directories, DirectoryPath (joinPath directory)
  file : ∀ entry ∈ p.entries, TestPath entry.path
  /-- No segment is empty or leads up or nowhere. -/
  no_steps : ∀ path ∈ p.directories.map joinPath ++ p.entries.map Entry.path,
    ∀ segment ∈ segments path.toList, segment ≠ [] ∧ segment ≠ ['.'] ∧ segment ≠ ['.', '.']
  not_setup : ∀ entry ∈ p.entries, entry.path ≠ Suite.setupFileName
  /-- No file is a directory or above one. -/
  not_directory : ∀ entry ∈ p.entries, ∀ directory ∈ p.directories,
    ¬ Leads entry.path (joinPath directory)
  /-- No file is above another one. -/
  not_above : ∀ entry ∈ p.entries, ∀ entry' ∈ p.entries,
    Leads entry.path entry'.path → entry.path = entry'.path

variable {flatten : Bool} {nodes : List Node}

lemma directoryPath_of_mem {directory : List String}
    (h : directory ∈ (plan flatten nodes).directories) : DirectoryPath (joinPath directory) := by
  refine ⟨directory, (isName_of_mem_directories h).1, fun part hp => ?_, rfl⟩
  obtain ⟨-, names, -, rfl⟩ := mem_directories.mp h
  obtain ⟨name, -, rfl⟩ := List.mem_map.mp hp
  exact plain_directoryName name

lemma testPath_of_mem {entry : Entry} (h : entry ∈ (plan flatten nodes).entries) :
    TestPath entry.path := by
  obtain ⟨stem, hstem, hname⟩ := exists_fileName_eq entry.request.name
  exact ⟨entry.directory, stem,
    forall_directory_of_mem_entries flatten plain_directoryName h, hstem,
    by rw [Entry.path, hname]⟩

/-- The outputs of every plan stay apart. -/
lemma apart_plan (flatten : Bool) (nodes : List Node) : Apart (plan flatten nodes) where
  directory := fun _ => directoryPath_of_mem
  file := fun _ => testPath_of_mem
  no_steps := by
    intro path hp
    rw [List.mem_append, List.mem_map, List.mem_map] at hp
    rcases hp with ⟨directory, hd, rfl⟩ | ⟨entry, he, rfl⟩
    · exact (directoryPath_of_mem hd).no_steps
    · exact (testPath_of_mem he).no_steps
  not_setup := fun _ he => (testPath_of_mem he).ne_setup
  not_directory := fun _ he _ hd =>
    (testPath_of_mem he).not_leads_directory (directoryPath_of_mem hd)
  not_above := fun _ he _ he' => (testPath_of_mem he).eq_of_leads (testPath_of_mem he')

end Layout

/-! ### Paths below the root -/

namespace FilePath

/-- A component that leads down to what it is called. -/
def IsDownward (part : String) : Prop := IsName part ∧ part ≠ ".."

instance (part : String) : Decidable (IsDownward part) := by unfold IsDownward; infer_instance

/-- Components that lead down stay when steps up are followed. -/
lemma withoutSteps_append (components : List String) {parts : List String}
    (h : ∀ part ∈ parts, part ≠ "..") :
    withoutSteps (components ++ parts) = withoutSteps components ++ parts := by
  induction parts using List.reverseRecOn with
  | nil => simp
  | append_singleton parts part ih =>
      have hparts := ih fun p hp => h p (List.mem_append_left _ hp)
      have hpart : part ≠ ".." := h part (by simp)
      rw [withoutSteps, List.reverse_eq_iff] at hparts
      rw [← List.append_assoc, withoutSteps, List.foldl_append, hparts, List.foldl_cons,
        List.foldl_nil, if_neg hpart]
      simp

lemma root_join (path : FilePath) (parts : List String) : (path.join parts).root = path.root := rfl

/-- **Components that lead down** lead below a path, from wherever it is seen. -/
lemma within_join (directory path : FilePath) {parts : List String}
    (h : ∀ part ∈ parts, part ≠ "..") :
    within directory (path.join parts) = (within directory path).join parts := by
  by_cases hroot : path.root = .relative
  · rw [within, within, root_join, if_pos hroot, if_pos hroot, join, join, ← List.append_assoc,
      withoutSteps_append _ h]
  · rw [within, within, root_join, if_neg hroot, if_neg hroot, join, join,
      withoutSteps_append _ h]

end FilePath

open FilePath (IsDownward)

/-- The components of a task's path below the root. -/
def Task.parts : Task → List String
  | .root => []
  | .setup => [Suite.setupFileName]
  | .directory segments => segments
  | .test entry => entry.directory ++ [Layout.fileName entry.request.name]

/-- The call of a task is for its path below the root. -/
lemma Task.call_path (options : Options) (collection environment : Json) (root : FilePath)
    (task : Task) :
    (task.call options collection environment root).path = (root.join task.parts).text := by
  cases task with
  | root => rw [Task.call, Call.path, Task.parts, FilePath.join, List.append_nil]
  | setup => rfl
  | directory segments => rfl
  | test entry => rfl

lemma isDownward_fileName (request : String) : IsDownward (Layout.fileName request) := by
  refine ⟨Layout.isName_fileName request, fun h => ?_⟩
  have hlength : 8 < (Layout.fileName request).length := Layout.length_fileName request
  rw [h] at hlength
  exact absurd hlength (by decide)

/-- The paths of all tasks of a build lead down from the root. -/
lemma isDownward_of_mem_tasks {options : Options} {collection : Json} {task : Task}
    (h : task ∈ tasks options collection) : ∀ part ∈ task.parts, IsDownward part := by
  rw [tasks, List.mem_append, rootTasks, planTasks, List.mem_append, List.mem_map, List.mem_map]
    at h
  cases task with
  | root => simp [Task.parts]
  | setup => simp only [Task.parts, List.mem_singleton, forall_eq]; decide
  | directory segments =>
      have hd : segments ∈ (planOf options collection).directories := by
        split_ifs at h <;> simpa using h
      intro part hp
      obtain ⟨-, names, -, rfl⟩ := Layout.mem_directories.mp hd
      obtain ⟨name, -, rfl⟩ := List.mem_map.mp hp
      exact (Layout.plain_directoryName name).isName
  | test entry =>
      have he : entry ∈ (planOf options collection).entries := by
        split_ifs at h <;> simpa using h
      intro part hp
      rw [Task.parts, List.mem_append, List.mem_singleton] at hp
      rcases hp with hp | rfl
      · exact Layout.forall_directory_of_mem_entries options.flatten
          (fun group => (Layout.plain_directoryName group).isName) he part hp
      · exact isDownward_fileName _

/-- **No name leads a file out of its suite.** Whatever groups and requests are called, the
directories and files of a plan have paths of plain segments, none of which leads up; no file is the
shared module, a directory, or above a directory or another file. So all calls that a build makes,
on every file system, are for its root or for paths below it, also after all steps up in the path of
the root itself have been followed, from wherever. -/
theorem outputs_stay_inside :
    (∀ flatten nodes, Layout.Apart (Layout.plan flatten nodes)) ∧
      ∀ {σ : Type} (stack : Stack) (backend : Backend σ) (options : Options)
        (collection environment : Json) (root : String) (s : σ),
        ∀ made ∈ (build stack (logged backend) options collection environment root (s, [])).store.2,
          ∃ parts, (∀ part ∈ parts, IsDownward part) ∧
            FilePath.parse made.1.path = (FilePath.parse root).join parts ∧
            ∀ directory : FilePath, directory.within (FilePath.parse made.1.path) =
              (directory.within (FilePath.parse root)).join parts := by
  refine ⟨Layout.apart_plan, fun stack backend options collection environment root s made
    hmade => ?_⟩
  have hturn := build_inTurn stack backend options collection environment root s
  obtain ⟨before, after, hsplit⟩ := List.append_of_mem hmade
  rw [hsplit] at hturn
  obtain ⟨first, later, hcalls, -⟩ := hturn.before
  have hcall : made.1 ∈ (tasks options collection).map
      (Task.call options collection environment (FilePath.parse root)) := by simp [hcalls]
  obtain ⟨task, htask, hcall⟩ := List.mem_map.mp hcall
  have hdown := isDownward_of_mem_tasks htask
  have hparse : FilePath.parse made.1.path = (FilePath.parse root).join task.parts := by
    rw [← hcall, Task.call_path]
    exact FilePath.parse_text ((FilePath.proper_parse root).join fun part hp => (hdown part hp).1)
  refine ⟨task.parts, hdown, hparse, fun directory => ?_⟩
  rw [hparse]
  exact FilePath.within_join directory _ fun part hp => (hdown part hp).2

/-- A collection whose names would lead out of the suite. -/
def dottedNames : Json :=
  .obj [("info", .obj [("name", .str "API"), ("schema", .str "v2")]),
    ("item", .arr [.obj [("name", .str ".."),
      ("item", .arr [.obj [("name", .str "../../etc/passwd"),
        ("request", .str "https://host/one")]])]])]

/-- A request called `../../etc/passwd` in a group called `..` has its file in a directory of the
suite. -/
theorem dotted_names_stay_inside :
    let path := "../out/folder/etc-passwd.test.js"
    let log := (build .ample (logged memory) testsOnly dottedNames .null "../out" ({}, [])).store.2
    ∃ text, (.write path text, .ok none) ∈ log ∧
      ∃ parts, (∀ part ∈ parts, IsDownward part) ∧
        FilePath.parse path = (FilePath.parse "../out").join parts ∧
        ∀ directory : FilePath, directory.within (FilePath.parse path) =
          (directory.within (FilePath.parse "../out")).join parts := by
  intro path log
  let entry : Layout.Entry :=
    ⟨{ name := "../../etc/passwd", url := "https://host/one" }, ["folder"], some ".."⟩
  have hlast : log[2]? = some (.write path (entryText testsOnly entry), .ok none) := by rfl
  have hmem := List.mem_of_getElem? hlast
  exact ⟨_, hmem,
    outputs_stay_inside.2 .ample memory testsOnly dottedNames .null "../out" {} _ hmem⟩

end RequestSuite
