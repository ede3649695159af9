/-
The directories of a plan, and when they are created.

* `eraseDups_concat`: lists without repetitions, one element more at a time;
* `GroupPath`: the names that lead from the top of a tree to a group with children;
* `mem_directoriesOf`: the directories of a tree are those of these groups;
* `ParentsFirst`: each directory comes after its parent; `parentsFirst_directoriesOf` and
  `ParentsFirst.eraseDups` show it of a plan's directories;
* `inits_sublist`: so all directories above one of them come before it, the outermost first;
* `directory_of_mem_entriesOf`: every entry lies at the root or in one of the directories;
* `Ordered`: all of this for a plan;
* `directories_created_first`: no build writes a test file before it has created all directories
  above it.
-/
import RequestSuite.Proofs.BuildResult
import RequestSuite.Proofs.CallOrder
import RequestSuite.Proofs.ImportPath

namespace RequestSuite

/-! ### Lists without repetitions -/

section EraseDups

variable {α : Type} [BEq α] [LawfulBEq α]

lemma eraseDups_concat (l : List α) (a : α) :
    (l ++ [a]).eraseDups = if a ∈ l then l.eraseDups else l.eraseDups ++ [a] := by
  rw [List.eraseDups_append, List.removeAll]
  by_cases h : a ∈ l <;> simp [h, List.eraseDups_cons]

/-- What is kept is there once. -/
lemma nodup_eraseDups (l : List α) : l.eraseDups.Nodup := by
  induction l using List.reverseRecOn with
  | nil => simp
  | append_singleton l a ih =>
      rw [eraseDups_concat]
      split_ifs with h
      · exact ih
      · rw [← List.concat_eq_append]
        exact ih.concat fun hmem => h (List.mem_eraseDups.mp hmem)

/-- Elements that a function keeps apart are kept in the same places. -/
lemma eraseDups_map {β : Type} [BEq β] [LawfulBEq β] {f : α → β} {l : List α}
    (h : ∀ a ∈ l, ∀ b ∈ l, f a = f b → a = b) : (l.map f).eraseDups = l.eraseDups.map f := by
  induction l using List.reverseRecOn with
  | nil => simp
  | append_singleton l a ih =>
      have hl : (l.map f).eraseDups = l.eraseDups.map f := ih fun b hb c hc =>
        h b (List.mem_append_left _ hb) c (List.mem_append_left _ hc)
      have hmem : f a ∈ l.map f ↔ a ∈ l := by
        refine ⟨fun hf => ?_, List.mem_map_of_mem⟩
        obtain ⟨b, hb, heq⟩ := List.mem_map.mp hf
        exact h b (List.mem_append_left _ hb) a (by simp) heq ▸ hb
      rw [List.map_append, List.map_singleton, eraseDups_concat, eraseDups_concat, hl]
      by_cases ha : a ∈ l
      · rw [if_pos ha, if_pos (hmem.mpr ha)]
      · rw [if_neg ha, if_neg (mt hmem.mp ha), List.map_append, List.map_singleton]

end EraseDups

/-- What stands before an element that a first part does not hold begins with this part. -/
lemma prefix_of_append_eq {α : Type} {first second before after : List α} {a : α}
    (h : first ++ second = before ++ a :: after) (ha : a ∉ first) : first <+: before := by
  rcases List.append_eq_append_iff.mp h with ⟨rest, rfl, -⟩ | ⟨rest, rfl, hrest⟩
  · exact List.prefix_append first rest
  · cases rest with
    | nil => simp
    | cons b rest =>
        obtain ⟨rfl, -⟩ := List.cons.inj hrest
        simp at ha

namespace Layout

/-! ### Groups with children -/

/-- The names of the groups, each inside the one before it, that lead from the top of a tree to a
group with children. -/
inductive GroupPath : List Node → List String → Prop
  | top {nodes : List Node} {name : String} {children : List Node}
      (here : .group name children ∈ nodes) (filled : children ≠ []) : GroupPath nodes [name]
  | inside {nodes : List Node} {name : String} {children : List Node} {names : List String}
      (here : .group name children ∈ nodes) (inner : GroupPath children names) :
      GroupPath nodes (name :: names)

lemma not_groupPath_nil (names : List String) : ¬ GroupPath [] names := by
  rintro (⟨h, -⟩ | ⟨h, -⟩) <;> simp at h

lemma not_groupPath_request (r : Request) (names : List String) :
    ¬ GroupPath [.request r] names := by
  rintro (⟨h, -⟩ | ⟨h, -⟩) <;> simp at h

/-- A group is found at the first node or at the others. -/
lemma groupPath_cons {node : Node} {nodes : List Node} {names : List String} :
    GroupPath (node :: nodes) names ↔ GroupPath [node] names ∨ GroupPath nodes names := by
  constructor
  · rintro (⟨h, hf⟩ | ⟨h, hi⟩)
    · rcases List.mem_cons.mp h with rfl | h
      · exact Or.inl (.top List.mem_cons_self hf)
      · exact Or.inr (.top h hf)
    · rcases List.mem_cons.mp h with rfl | h
      · exact Or.inl (.inside List.mem_cons_self hi)
      · exact Or.inr (.inside h hi)
  · rintro ((⟨h, hf⟩ | ⟨h, hi⟩) | (⟨h, hf⟩ | ⟨h, hi⟩))
    · exact .top (List.mem_cons.mpr (Or.inl (List.mem_singleton.mp h))) hf
    · exact .inside (List.mem_cons.mpr (Or.inl (List.mem_singleton.mp h))) hi
    · exact .top (List.mem_cons_of_mem _ h) hf
    · exact .inside (List.mem_cons_of_mem _ h) hi

/-- What leads to a group from a single one: its name, then what leads on from its children. -/
lemma groupPath_group {name : String} {children : List Node} {names : List String} :
    GroupPath [.group name children] names ↔
      ∃ rest, names = name :: rest ∧
        (rest = [] ∧ children ≠ [] ∨ GroupPath children rest) := by
  constructor
  · rintro (⟨h, hf⟩ | ⟨h, hi⟩) <;> obtain ⟨rfl, rfl⟩ := Node.group.inj (List.mem_singleton.mp h)
    · exact ⟨[], rfl, Or.inl ⟨rfl, hf⟩⟩
    · exact ⟨_, rfl, Or.inr hi⟩
  · rintro ⟨rest, rfl, ⟨rfl, hf⟩ | hi⟩
    · exact .top List.mem_cons_self hf
    · exact .inside List.mem_cons_self hi

lemma directoriesOfNode_group {children : List Node} (h : children ≠ []) (base : List String)
    (name : String) :
    directoriesOfNode base (.group name children) =
      (base ++ [directoryName name]) :: directoriesOf (base ++ [directoryName name]) children := by
  obtain ⟨first, others, rfl⟩ := List.exists_cons_of_ne_nil h
  rfl

mutual

/-- The directories of a node are those of its groups with children. -/
lemma mem_directoriesOfNode (base directory : List String) (node : Node) :
    directory ∈ directoriesOfNode base node ↔
      ∃ names, GroupPath [node] names ∧ directory = base ++ names.map directoryName := by
  cases node with
  | group name children =>
      by_cases hc : children = []
      · subst hc
        refine iff_of_false (by simp [directoriesOfNode]) ?_
        rintro ⟨names, hn, -⟩
        obtain ⟨rest, -, ⟨-, hf⟩ | hrest⟩ := groupPath_group.mp hn
        · exact hf rfl
        · exact not_groupPath_nil rest hrest
      rw [directoriesOfNode_group hc, List.mem_cons,
        mem_directoriesOf (base ++ [directoryName name]) directory children]
      constructor
      · rintro (rfl | ⟨names, hn, rfl⟩)
        · exact ⟨[name], .top List.mem_cons_self hc, rfl⟩
        · exact ⟨name :: names, .inside List.mem_cons_self hn, by simp⟩
      · rintro ⟨names, hn, rfl⟩
        obtain ⟨rest, rfl, ⟨rfl, -⟩ | hrest⟩ := groupPath_group.mp hn
        · exact Or.inl rfl
        · exact Or.inr ⟨rest, hrest, by simp⟩
  | request r => simp [directoriesOfNode, not_groupPath_request]

/-- **The directories of a tree** are those of its groups with children, each called after the
groups that lead to it. -/
lemma mem_directoriesOf (base directory : List String) (nodes : List Node) :
    directory ∈ directoriesOf base nodes ↔
      ∃ names, GroupPath nodes names ∧ directory = base ++ names.map directoryName := by
  cases nodes with
  | nil => simp [directoriesOf, not_groupPath_nil]
  | cons node nodes =>
      rw [directoriesOf, List.mem_append, mem_directoriesOfNode base directory node,
        mem_directoriesOf base directory nodes, ← exists_or]
      exact exists_congr fun names => by rw [← or_and_right, ← groupPath_cons]

end

/-! ### Parents first -/

/-- Each directory comes after its parent, unless that is `base`. -/
def ParentsFirst (base : List String) (directories : List (List String)) : Prop :=
  ∀ before directory after, directories = before ++ directory :: after →
    directory.dropLast = base ∨ directory.dropLast ∈ before

variable {base directory : List String} {directories directories' : List (List String)}

lemma parentsFirst_nil : ParentsFirst base [] := by
  intro before directory after h
  simp at h

/-- The parent of one more directory has to be there. -/
lemma parentsFirst_concat :
    ParentsFirst base (directories ++ [directory]) ↔
      ParentsFirst base directories ∧
        (directory.dropLast = base ∨ directory.dropLast ∈ directories) := by
  constructor
  · refine fun h => ⟨fun before d after hd => ?_, h directories directory [] rfl⟩
    exact h before d (after ++ [directory]) (by simp [hd])
  · rintro ⟨h, hlast⟩ before d after hd
    rcases List.eq_nil_or_concat' after with rfl | ⟨after, last, rfl⟩
    · obtain ⟨rfl, hlast'⟩ := List.append_inj' hd rfl
      obtain rfl := List.singleton_inj.mp hlast'
      exact hlast
    · rw [← List.cons_append, ← List.append_assoc] at hd
      exact h before d after (List.append_inj' hd rfl).1

/-- Directories below the same one may follow each other. -/
lemma ParentsFirst.append (h : ParentsFirst base directories)
    (h' : ParentsFirst base directories') : ParentsFirst base (directories ++ directories') := by
  induction directories' using List.reverseRecOn with
  | nil => simpa using h
  | append_singleton more d ih =>
      obtain ⟨hmore, hd⟩ := parentsFirst_concat.mp h'
      rw [← List.append_assoc, parentsFirst_concat]
      exact ⟨ih hmore, hd.imp_right (List.mem_append_right directories)⟩

/-- The directories below one may follow it. -/
lemma ParentsFirst.cons (h : ParentsFirst directory directories)
    (hd : directory.dropLast = base) : ParentsFirst base (directory :: directories) := by
  induction directories using List.reverseRecOn with
  | nil =>
      rw [← List.nil_append [directory], parentsFirst_concat]
      exact ⟨parentsFirst_nil, Or.inl hd⟩
  | append_singleton more d ih =>
      obtain ⟨hmore, hlast⟩ := parentsFirst_concat.mp h
      rw [← List.cons_append, parentsFirst_concat]
      exact ⟨ih hmore, Or.inr (List.mem_cons.mpr hlast)⟩

/-- The first places of the directories are enough. -/
lemma ParentsFirst.eraseDups (h : ParentsFirst base directories) :
    ParentsFirst base directories.eraseDups := by
  induction directories using List.reverseRecOn with
  | nil => exact parentsFirst_nil
  | append_singleton more d ih =>
      obtain ⟨hmore, hd⟩ := parentsFirst_concat.mp h
      rw [eraseDups_concat]
      split_ifs
      · exact ih hmore
      · exact parentsFirst_concat.mpr ⟨ih hmore, hd.imp_right List.mem_eraseDups.mpr⟩

mutual

/-- The directories of a node come after their parents. -/
lemma parentsFirst_directoriesOfNode (base : List String) (node : Node) :
    ParentsFirst base (directoriesOfNode base node) := by
  cases node with
  | group name children =>
      by_cases hc : children = []
      · subst hc
        exact parentsFirst_nil
      · rw [directoriesOfNode_group hc]
        exact (parentsFirst_directoriesOf _ children).cons List.dropLast_concat
  | request r => exact parentsFirst_nil

/-- The directories of a tree come after their parents. -/
lemma parentsFirst_directoriesOf (base : List String) (nodes : List Node) :
    ParentsFirst base (directoriesOf base nodes) := by
  cases nodes with
  | nil => exact parentsFirst_nil
  | cons node nodes =>
      rw [directoriesOf]
      exact (parentsFirst_directoriesOfNode base node).append
        (parentsFirst_directoriesOf base nodes)

end

/-- **All directories above one** of a list with parents first come before it, the outermost first.
The induction goes up from the directory and needs only what comes before it. -/
lemma inits_sublist (h : ParentsFirst [] directories) (hd : directory ∈ directories) :
    directory.inits.Sublist ([] :: directories) := by
  induction directory using List.reverseRecOn generalizing directories with
  | nil => simp
  | append_singleton parent name ih =>
      obtain ⟨before, after, rfl⟩ := List.append_of_mem hd
      have hparent := h before (parent ++ [name]) after rfl
      rw [List.dropLast_concat] at hparent
      have hbefore : ParentsFirst [] before := fun b d a hb =>
        h b d (a ++ (parent ++ [name]) :: after) (by simp [hb])
      have hinits : parent.inits.Sublist ([] :: before) := by
        rcases hparent with rfl | hmem
        · simp
        · exact ih hbefore hmem
      have hlast : [parent ++ [name]].Sublist ((parent ++ [name]) :: after) := by simp
      simpa [List.inits_append] using hinits.append hlast

/-! ### The directories of a plan -/

mutual

/-- The entries of a node lie in its base or in one of its directories. -/
lemma directory_of_mem_entriesOfNode {flatten : Bool} {base : List String}
    {parent : Option String} {node : Node} {entry : Entry}
    (h : entry ∈ entriesOfNode flatten base parent node) :
    entry.directory = base ∨
      flatten = false ∧ entry.directory ∈ directoriesOfNode base node := by
  cases node with
  | group name children =>
      rw [entriesOfNode] at h
      have hchildren := directory_of_mem_entriesOf h
      cases flatten with
      | true => simpa using hchildren
      | false =>
          have hc : children ≠ [] := by
            rintro rfl
            simp [entriesOf] at h
          rw [directoriesOfNode_group hc, List.mem_cons]
          exact Or.inr ⟨rfl, hchildren.imp_right And.right⟩
  | request r =>
      rw [entriesOfNode, List.mem_singleton] at h
      exact Or.inl (by rw [h])

/-- The entries of a tree lie in its base or in one of its directories. -/
lemma directory_of_mem_entriesOf {flatten : Bool} {base : List String} {parent : Option String}
    {nodes : List Node} {entry : Entry} (h : entry ∈ entriesOf flatten base parent nodes) :
    entry.directory = base ∨ flatten = false ∧ entry.directory ∈ directoriesOf base nodes := by
  cases nodes with
  | nil => simp [entriesOf] at h
  | cons node nodes =>
      rw [entriesOf, List.mem_append] at h
      rw [directoriesOf, List.mem_append]
      rcases h with h | h
      · exact (directory_of_mem_entriesOfNode h).imp_right (And.imp_right Or.inl)
      · exact (directory_of_mem_entriesOf h).imp_right (And.imp_right Or.inr)

end

variable {flatten : Bool} {nodes : List Node}

/-- The directories of a plan are those of the groups with children, and flattened there are
none. -/
lemma mem_directories :
    directory ∈ (plan flatten nodes).directories ↔
      flatten = false ∧ ∃ names, GroupPath nodes names ∧ directory = names.map directoryName := by
  cases flatten with
  | true => simp [plan]
  | false =>
      have hdirectories : (plan false nodes).directories = (directoriesOf [] nodes).eraseDups := rfl
      simp [hdirectories, List.mem_eraseDups, mem_directoriesOf]

lemma parentsFirst_directories : ParentsFirst [] (plan flatten nodes).directories := by
  cases flatten with
  | true => exact parentsFirst_nil
  | false => exact (parentsFirst_directoriesOf [] nodes).eraseDups

/-- A directory of a plan has at least one part, and all its parts are components of paths. -/
lemma isName_of_mem_directories (h : directory ∈ (plan flatten nodes).directories) :
    directory ≠ [] ∧ ∀ part ∈ directory, FilePath.IsName part := by
  obtain ⟨-, names, hnames, rfl⟩ := mem_directories.mp h
  refine ⟨fun hnil => ?_, fun part hp => ?_⟩
  · rw [List.map_eq_nil_iff] at hnil
    cases hnames <;> cases hnil
  · obtain ⟨name, -, rfl⟩ := List.mem_map.mp hp
    exact isName_directoryName name

/-- Directories with the same path are the same. -/
lemma joinPath_inj {directory' : List String} (h : directory ∈ (plan flatten nodes).directories)
    (h' : directory' ∈ (plan flatten nodes).directories)
    (heq : joinPath directory = joinPath directory') : directory = directory' := by
  obtain ⟨hne, hnames⟩ := isName_of_mem_directories h
  obtain ⟨hne', hnames'⟩ := isName_of_mem_directories h'
  have hsegments := segments_joinPath hne fun part hp => (hnames part hp).2.2
  rw [heq, segments_joinPath hne' fun part hp => (hnames' part hp).2.2] at hsegments
  exact (List.map_injective_iff.mpr (fun _ _ => String.toList_injective) hsegments).symm

lemma nodup_directories : ((plan flatten nodes).directories.map joinPath).Nodup := by
  have hnodup : (plan flatten nodes).directories.Nodup := by
    cases flatten with
    | true => exact List.nodup_nil
    | false => exact nodup_eraseDups _
  exact hnodup.map_on fun directory h directory' h' heq => joinPath_inj h h' heq

lemma directory_mem_directories {entry : Entry} (h : entry ∈ (plan flatten nodes).entries)
    (hne : entry.directory ≠ []) : entry.directory ∈ (plan flatten nodes).directories := by
  obtain ⟨rfl, hd⟩ := (directory_of_mem_entriesOf h).resolve_left hne
  exact List.mem_eraseDups.mpr hd

/-- The directories of a plan are in order. -/
structure Ordered (flatten : Bool) (nodes : List Node) (p : Plan) : Prop where
  nodup : (p.directories.map joinPath).Nodup
  parents_first : ParentsFirst [] p.directories
  /-- They are those of the groups with children. Flattened, there are none. -/
  mem_iff : ∀ directory, directory ∈ p.directories ↔
    flatten = false ∧ ∃ names, GroupPath nodes names ∧ directory = names.map directoryName
  /-- An entry that does not lie at the root lies in one of them. -/
  of_entry : ∀ entry ∈ p.entries, entry.directory ≠ [] → entry.directory ∈ p.directories

lemma ordered_plan (flatten : Bool) (nodes : List Node) :
    Ordered flatten nodes (plan flatten nodes) :=
  ⟨nodup_directories, parentsFirst_directories, fun _ => mem_directories,
    fun _ => directory_mem_directories⟩

end Layout

/-! ### Directories of a build -/

section Builds

variable {options : Options} {collection environment : Json} {root : FilePath}

/-- The tasks that come before all test files. -/
def openingTasks (options : Options) (collection : Json) : List Task :=
  rootTasks options ++ (planOf options collection).directories.map Task.directory

lemma tasks_eq (options : Options) (collection : Json) :
    tasks options collection =
      openingTasks options collection ++ (planOf options collection).entries.map Task.test := by
  rw [tasks, planTasks, openingTasks, List.append_assoc]

/-- The calls that create an entry's directories, the root first. -/
def directoryCalls (root : FilePath) (entry : Layout.Entry) : List Call :=
  entry.directory.inits.map fun directory => .mkdir (root.join directory).text

/-- The directories of an entry are created by the root's task and those of the plan, the root
first. -/
lemma directoryCalls_sublist {entry : Layout.Entry}
    (h : entry ∈ (planOf options collection).entries) :
    (directoryCalls root entry).Sublist
      ((openingTasks options collection).map
        (Task.call options collection environment root)) := by
  have hinits : entry.directory.inits.Sublist ([] :: (planOf options collection).directories) := by
    by_cases hne : entry.directory = []
    · simp [hne]
    · exact Layout.inits_sublist Layout.parentsFirst_directories
        (Layout.directory_mem_directories h hne)
  have hroot : root.join [] = root := by simp [FilePath.join]
  have hcalls : ([] :: (planOf options collection).directories).map
      (fun directory => Call.mkdir (root.join directory).text) =
      [Task.root.call options collection environment root] ++
        ((planOf options collection).directories.map Task.directory).map
          (Task.call options collection environment root) := by
    rw [List.map_cons, hroot, List.map_map]
    rfl
  rw [directoryCalls, openingTasks, List.map_append]
  refine (hinits.map _).trans ?_
  rw [hcalls]
  refine List.Sublist.append ?_ (List.Sublist.refl _)
  rw [rootTasks, List.map_cons]
  exact (List.nil_sublist _).cons_cons _

/-- No task at the root and none for a directory writes an entry's file. -/
lemma write_notMem (hr : root.Proper) {entry : Layout.Entry}
    (h : entry ∈ (planOf options collection).entries) (text : String) :
    Call.write (entryPath root entry) text ∉
      (openingTasks options collection).map
        (Task.call options collection environment root) := by
  intro hmem
  obtain ⟨task, htask, hcall⟩ := List.mem_map.mp hmem
  cases task with
  | root => simp [Task.call] at hcall
  | setup =>
      rw [Task.call, Call.write.injEq, setupPath_eq, entryPath_eq root h] at hcall
      exact setup_ne_entry hr h hcall.1
  | directory segments => simp [Task.call] at hcall
  | test other =>
      rw [openingTasks, rootTasks] at htask
      split_ifs at htask <;> simp at htask

/-- Every task that writes is that of the shared module or of an entry. -/
lemma of_write_mem {path text : String}
    (h : Call.write path text ∈
      (tasks options collection).map (Task.call options collection environment root)) :
    path = setupPath root ∨
      ∃ entry ∈ (planOf options collection).entries,
        path = entryPath root entry ∧ text = entryText options entry := by
  obtain ⟨task, htask, hcall⟩ := List.mem_map.mp h
  cases task with
  | root => simp [Task.call] at hcall
  | setup => exact Or.inl (Call.write.inj hcall).1.symm
  | directory segments => simp [Task.call] at hcall
  | test entry =>
      have hentry : entry ∈ (planOf options collection).entries := by
        rw [tasks_eq, openingTasks, rootTasks] at htask
        split_ifs at htask <;> simpa using htask
      obtain ⟨hpath, htext⟩ := Call.write.inj hcall
      exact Or.inr ⟨entry, hentry, hpath.symm, htext.symm⟩

end Builds

/-- **Directories are created first.** The directories of a plan are those of the groups with
children, each of them once and after its parent, and every entry lies in one of them or at the
root. So on every file system, whatever it answers, a build that writes something writes the shared
module or a test file, and before it writes a test file it has created the root and all directories
above the file, the outermost first, and none of these calls has failed. -/
theorem directories_created_first :
    (∀ flatten nodes, Layout.Ordered flatten nodes (Layout.plan flatten nodes)) ∧
      ∀ {σ : Type} (stack : Stack) (backend : Backend σ) (options : Options)
        (collection environment : Json) (root : String) (s : σ),
        let place := FilePath.parse root
        let entries := (planOf options collection).entries
        let run := build stack (logged backend) options collection environment root (s, [])
        let log := run.store.2
        (∀ path text answer, (.write path text, answer) ∈ log →
          path = setupPath place ∨
            ∃ entry ∈ entries, path = entryPath place entry ∧ text = entryText options entry) ∧
        ∀ entry ∈ entries, ∀ before text answer after,
          log = before ++ (.write (entryPath place entry) text, answer) :: after →
            ∃ made, made.Sublist before ∧ Succeeded (directoryCalls place entry) made := by
  refine ⟨Layout.ordered_plan, fun stack backend options collection environment root s => ?_⟩
  intro place entries run log
  have hturn : InTurn ((tasks options collection).map
      (Task.call options collection environment place)) log :=
    build_inTurn stack backend options collection environment root s
  refine ⟨fun path text answer hmem => ?_, fun entry he before text answer after hlog => ?_⟩
  · obtain ⟨before, after, hsplit⟩ := List.append_of_mem hmem
    rw [hsplit] at hturn
    obtain ⟨first, later, hcalls, -⟩ := hturn.before
    have hwrite : Call.write path text ∈ (tasks options collection).map
        (Task.call options collection environment place) := by
      rw [hcalls]
      exact List.mem_append_right _ List.mem_cons_self
    exact of_write_mem hwrite
  · rw [hlog] at hturn
    obtain ⟨first, later, hcalls, hfirst⟩ := hturn.before
    rw [tasks_eq, List.map_append] at hcalls
    have hopening := prefix_of_append_eq hcalls
      (write_notMem (FilePath.proper_parse root) he text)
    have hsublist := (directoryCalls_sublist he).trans hopening.sublist
    obtain ⟨rfl, hok⟩ := hfirst
    obtain ⟨made, hmade, hcalled⟩ := List.sublist_map_iff.mp hsublist
    exact ⟨made, hmade, hcalled.symm, fun entry hm => hok entry (hmade.subset hm)⟩

/-- A collection with a request in a group of a group. -/
def nestedGroups : Json :=
  .obj [("info", .obj [("name", .str "API"), ("schema", .str "v2")]),
    ("item", .arr [.obj [("name", .str "Api"), ("item", .arr [.obj [("name", .str "User Accounts"),
      ("item", .arr [.obj [("name", .str "Get One"), ("request", .str "https://host/one")]])]])]])]

/-- A build that writes test files only. -/
def testsOnly : Options := { emitSetup := false }

/-- The file of a request two groups deep is written after three directories have been created. -/
theorem nested_directories_created :
    let entry : Layout.Entry :=
      ⟨{ name := "Get One", url := "https://host/one" }, ["api", "user-accounts"],
        some "User Accounts"⟩
    let path := "out/api/user-accounts/get-one.test.js"
    let log := (build .ample (logged memory) testsOnly nestedGroups .null "out" ({}, [])).store.2
    entry ∈ (planOf testsOnly nestedGroups).entries ∧
      ∃ before, log = before ++ [(.write path (entryText testsOnly entry), .ok none)] ∧
        ∃ made, made.Sublist before ∧
          Succeeded [.mkdir "out", .mkdir "out/api", .mkdir "out/api/user-accounts"] made := by
  intro entry path log
  have hmem : entry ∈ (planOf testsOnly nestedGroups).entries := by decide +kernel
  have hlog : log = log.dropLast ++ [(.write path (entryText testsOnly entry), .ok none)] := by
    rfl
  have hpath : entryPath (FilePath.parse "out") entry = path := by decide +kernel
  have hcalls : directoryCalls (FilePath.parse "out") entry =
      [.mkdir "out", .mkdir "out/api", .mkdir "out/api/user-accounts"] := by decide +kernel
  have hmade := (directories_created_first.2 .ample memory testsOnly nestedGroups .null "out" {}).2
    entry hmem log.dropLast (entryText testsOnly entry) (.ok none) []
  rw [hpath, hcalls] at hmade
  exact ⟨hmem, log.dropLast, hlog, hmade hlog⟩

end RequestSuite
