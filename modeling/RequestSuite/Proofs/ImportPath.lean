/-
The way from a test file to the shared module.

* `segments`, `directoryOf`, `under`: paths with slashes, taken apart and put together;
* `follow`, `resolve`: where a path leads from the root, if it never leaves it;
* `segments_joinPath`: the segments of parts put together;
* `segments_importPath`: the written way up;
* `segments_path`, `follow_directory`: the directories of an entry are what they are called;
* `resolve_importPath`: from an entry's directory it leads to the root;
* `import_resolves`: every test file finds the shared module at the root.
-/
import RequestSuite.Build.Outline
import RequestSuite.Proofs.Escaping
import RequestSuite.Proofs.FileText
import RequestSuite.Proofs.PathText

namespace RequestSuite

namespace Layout

open Text (fields)

/-! ### Following a path -/

/-- The segments of a path. -/
def segments (path : List Char) : List (List Char) := fields (· == '/') path

/-- The path of the directory that a file lies in. It is empty for a file at the root. -/
def directoryOf (path : List Char) : List Char := List.intercalate ['/'] (segments path).dropLast

/-- A path as seen from a directory. -/
def under (directory path : List Char) : List Char :=
  if directory = [] then path else directory ++ '/' :: path

/-- The place that a segment leads to from a place. Places are given by their segments, the
innermost first. Two points lead up, but nowhere from the root. -/
def enter (place : List (List Char)) (segment : List Char) : Option (List (List Char)) :=
  if segment = [] ∨ segment = ['.'] then some place
  else if segment = ['.', '.'] then place.tail?
  else some (segment :: place)

/-- The place that some segments lead to from a place, one after another. -/
def follow (place : List (List Char)) (segments : List (List Char)) : Option (List (List Char)) :=
  segments.foldlM enter place

/-- The segments of the place that a path leads to from the root, if it never leads above it. -/
def resolve (path : List Char) : Option (List (List Char)) :=
  (follow [] (segments path)).map List.reverse

/-- A segment that leads to what it is called. -/
def Named (segment : List Char) : Prop := segment ≠ [] ∧ '/' ∉ segment ∧ '.' ∉ segment

/-- A named segment leads to what it is called. -/
lemma enter_named {name : List Char} (h : Named name) (place : List (List Char)) :
    enter place name = some (name :: place) := by
  obtain ⟨hne, -, hdot⟩ := h
  have hstay : ¬ (name = [] ∨ name = ['.']) := by
    rintro (rfl | rfl)
    · exact hne rfl
    · exact hdot List.mem_cons_self
  have hup : name ≠ ['.', '.'] := by
    rintro rfl
    exact hdot List.mem_cons_self
  rw [enter, if_neg hstay, if_neg hup]

/-- Named segments are followed one after another. -/
lemma follow_named {names : List (List Char)} (h : ∀ name ∈ names, Named name)
    (place rest : List (List Char)) :
    follow place (names ++ rest) = follow (names.reverse ++ place) rest := by
  induction names generalizing place with
  | nil => rfl
  | cons name names ih =>
      obtain ⟨hname, hnames⟩ := List.forall_mem_cons.mp h
      calc follow place (name :: names ++ rest)
          = (enter place name).bind fun place' => follow place' (names ++ rest) := rfl
        _ = follow (name :: place) (names ++ rest) := by rw [enter_named hname, Option.bind_some]
        _ = follow ((name :: names).reverse ++ place) rest := by
            rw [ih hnames, List.reverse_cons, List.append_assoc, List.singleton_append]

lemma follow_up (place rest : List (List Char)) :
    follow place (List.replicate place.length ['.', '.'] ++ rest) = follow [] rest := by
  induction place with
  | nil => rfl
  | cons segment place ih => exact ih

/-! ### The written way up -/

/-- The segments of a text, a slash and more text. -/
lemma segments_append_cons (path rest : List Char) :
    segments (path ++ '/' :: rest) = segments path ++ segments rest := by
  induction path with
  | nil => rfl
  | cons c path ih =>
      simp only [segments] at ih ⊢
      rw [List.cons_append, fields, fields, ih]
      split_ifs with hc
      · rfl
      · obtain ⟨first, others, hf⟩ := List.exists_cons_of_ne_nil
          (Text.fields_ne_nil (· == '/') path)
        rw [hf]
        rfl

lemma segments_of_notMem {path : List Char} (h : '/' ∉ path) : segments path = [path] :=
  Text.fields_of_not_separates fun _ hc => beq_eq_false_iff_ne.mpr fun he => h (he ▸ hc)

/-- Parts put together with slashes are the segments of their path. -/
lemma segments_joinPath {parts : List String} (hne : parts ≠ [])
    (h : ∀ part ∈ parts, '/' ∉ part.toList) :
    segments (joinPath parts).toList = parts.map String.toList := by
  have hslash : "/".toList = ['/'] := rfl
  rw [joinPath, String.toList_intercalate, segments, hslash]
  refine Text.fields_intercalate (by simpa using hne) fun piece hp => ?_
  obtain ⟨part, hpart, rfl⟩ := List.mem_map.mp hp
  exact h part hpart

/-- **The segments of the way up**: one step for each level, then the file. -/
lemma segments_importPath {depth : ℕ} (hd : depth ≠ 0) {file : List Char} (hf : '/' ∉ file) :
    segments (importPath depth file) = List.replicate depth ['.', '.'] ++ [file] := by
  rw [importPath, if_neg hd]
  clear hd
  induction depth with
  | zero => simpa using segments_of_notMem hf
  | succ depth ih =>
      have hsplit : (List.replicate (depth + 1) "../".toList).flatten ++ file =
          ['.', '.'] ++ '/' :: ((List.replicate depth "../".toList).flatten ++ file) := by
        rw [List.replicate_succ, List.flatten_cons, List.append_assoc]
        rfl
      rw [hsplit, segments_append_cons, ih, segments_of_notMem (by decide), List.replicate_succ]
      rfl

/-! ### The directories of an entry -/

variable {flatten : Bool} {nodes : List Node} {entry : Entry}

lemma named_directoryName (group : String) : Named (directoryName group).toList := by
  rw [directoryName, String.toList_ofList]
  exact ⟨hyphenate_ne_nil (by decide), notMem_hyphenate (by decide) (Or.inl rfl),
    notMem_hyphenate (by decide) (Or.inr rfl)⟩

lemma segments_path (h : entry ∈ (plan flatten nodes).entries) :
    segments entry.path.toList =
      entry.directory.map String.toList ++ [(fileName entry.request.name).toList] := by
  have hparts := isName_of_mem_entries h
  rw [Entry.path, segments_joinPath (by simp) fun part hp => (hparts part hp).2.2,
    List.map_append, List.map_singleton]

/-- The directories of an entry are followed from the root to its depth. -/
lemma follow_directory (h : entry ∈ (plan flatten nodes).entries) (rest : List (List Char)) :
    ∃ place, place.length = entry.depth ∧
      follow [] (entry.directory.map String.toList ++ rest) = follow place rest := by
  have hnamed : ∀ name ∈ entry.directory.map String.toList, Named name := by
    intro name hn
    obtain ⟨part, hpart, rfl⟩ := List.mem_map.mp hn
    exact forall_directory_of_mem_entries (P := fun part => Named part.toList) flatten
      named_directoryName h part hpart
  refine ⟨(entry.directory.map String.toList).reverse, ?_, ?_⟩
  · rw [List.length_reverse, List.length_map, Entry.depth]
  · rw [follow_named hnamed, List.append_nil]

/-- **From an entry's directory the way up to a file leads to that file at the root.** -/
lemma resolve_importPath (h : entry ∈ (plan flatten nodes).entries) {file : List Char}
    (hslash : '/' ∉ file) (hfile : enter [] file = some [file]) :
    resolve (under (directoryOf entry.path.toList) (importPath entry.depth file)) =
      some [file] := by
  have hdirectory : directoryOf entry.path.toList =
      List.intercalate ['/'] (entry.directory.map String.toList) := by
    rw [directoryOf, segments_path h, List.dropLast_concat]
  have hend : follow [] [file] = some [file] := by rw [follow, List.foldlM_cons, hfile]; rfl
  rw [hdirectory]
  by_cases hd : entry.directory = []
  · -- at the root the way starts with a point, which leads nowhere
    have hdepth : entry.depth = 0 := by rw [Entry.depth, hd]; rfl
    have hway : importPath entry.depth file = ['.'] ++ '/' :: file := by
      rw [hdepth, importPath, if_pos rfl]
      rfl
    rw [hd, List.map_nil, List.intercalate_nil, under, if_pos rfl, hway, resolve,
      segments_append_cons, segments_of_notMem (by decide), segments_of_notMem hslash]
    exact congrArg (Option.map List.reverse) hend
  · have hdepth : entry.depth ≠ 0 := by
      rw [Entry.depth, Ne, List.length_eq_zero_iff]
      exact hd
    have hnamed : ∀ part ∈ entry.directory, Named part.toList :=
      forall_directory_of_mem_entries flatten named_directoryName h
    have hsegments : segments (List.intercalate ['/'] (entry.directory.map String.toList)) =
        entry.directory.map String.toList := by
      refine Text.fields_intercalate (by simpa using hd) fun piece hp => ?_
      obtain ⟨part, hpart, rfl⟩ := List.mem_map.mp hp
      exact (hnamed part hpart).2.1
    have hne : List.intercalate ['/'] (entry.directory.map String.toList) ≠ [] := by
      intro hnil
      rw [hnil] at hsegments
      obtain ⟨part, hpart⟩ := List.exists_mem_of_ne_nil _ hd
      have hmem : part.toList ∈ segments [] := hsegments ▸ List.mem_map_of_mem hpart
      exact (hnamed part hpart).1 (by simpa [segments, fields] using hmem)
    obtain ⟨place, hlength, hplace⟩ :=
      follow_directory h (List.replicate entry.depth ['.', '.'] ++ [file])
    rw [under, if_neg hne, resolve, segments_append_cons, hsegments,
      segments_importPath hdepth hslash, hplace, ← hlength, follow_up, hend]
    rfl

end Layout

/-- **Every test file finds the shared module.** The depth of a planned file is the number of
directories in its path, and what the first line of the file asks for, read as a literal and
followed from the file's directory without ever leaving the root, is the shared module at the
root. -/
theorem import_resolves {options : Options} {nodes : List Node} {entry : Layout.Entry}
    (h : entry ∈ (Layout.plan options.flatten nodes).entries) :
    let way := Layout.importPath entry.depth Suite.setupFileName.toList
    (Layout.segments entry.path.toList).dropLast.length = entry.depth ∧
      (∃ rest, (entryText options entry).toList =
          (Suite.importHead options.enhanced).toList ++ (Script.quote way ++ rest) ∧
        Literal.readLiteral (Script.quote way ++ rest) = some (Literal.units way, rest)) ∧
      Layout.resolve (Layout.under (Layout.directoryOf entry.path.toList) way) =
        some [Suite.setupFileName.toList] := by
  intro way
  refine ⟨?_, ?_, Layout.resolve_importPath h (by decide) (by decide)⟩
  · rw [Layout.segments_path h, List.dropLast_concat, List.length_map, Layout.Entry.depth]
  · obtain ⟨rest, htext⟩ := Suite.exists_testText options.enhanced entry.request entry.depth
      entry.parent (adaptationOf entry.request)
    refine ⟨");\n".toList ++ rest, ?_, ?_⟩
    · rw [entryText, htext, List.append_assoc]
    · have hread := Script.readLiteral_escape (q := '\'') rfl way (");\n".toList ++ rest)
      simpa [Script.quote] using hread

/-- Groups that are called `..` and `a/b` get directories of their own, two levels deep. -/
theorem import_resolves_from_below :
    let request : Request := { name := "Get One" }
    let nodes := [Node.group ".." [.group "a/b" [.request request]]]
    let entry : Layout.Entry := ⟨request, ["folder", "a-b"], some "a/b"⟩
    entry ∈ (Layout.plan (Options.flatten {}) nodes).entries ∧
      entry.path = "folder/a-b/get-one.test.js" ∧
      Layout.importPath entry.depth Suite.setupFileName.toList = "../../setup.js".toList ∧
      Layout.resolve (Layout.under (Layout.directoryOf entry.path.toList)
        "../../setup.js".toList) = some [Suite.setupFileName.toList] := by
  intro request nodes entry
  have hmem : entry ∈ (Layout.plan (Options.flatten {}) nodes).entries := by decide +kernel
  refine ⟨hmem, by decide +kernel, by decide, ?_⟩
  exact (@import_resolves {} nodes entry hmem).2.2

end RequestSuite
