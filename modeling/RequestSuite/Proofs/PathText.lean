/-
Written paths and what is read back from them.

* `fields_append_sep`, `fields_intercalate`: the pieces of two texts with a separator between them,
  and of pieces put together; `exists_mem_fields_iff`: what pieces hold;
* `spelling`, `Parts`: texts of some slashes and of parts with slashes between them; `parse_spelling`
  gives their normal form case by case, and `exists_spelling` finds every text among them;
* `IsName`: the components that a path keeps; `Proper`: paths of such components only;
* `parse_text`, `normal_text`: a proper path is what is read from its text, which is normal;
* `below`: the path of a file given relative to a directory; `join_text` and `below_ne_below`;
* `isName_directoryName`, `isName_fileName`: the names made for groups and requests are components;
* `forall_directory_of_mem_entries`: what holds of them holds of the directories of an entry;
* `isName_of_mem_entries`: so an entry's path consists of components.
-/
import Mathlib.Data.List.TakeWhile
import Mathlib.Tactic
import RequestSuite.Layout.Plan
import RequestSuite.Store.Path

namespace RequestSuite

/-- The pieces of two texts with a separator between them. -/
lemma Text.fields_append_sep {separates : Char → Bool} {sep : Char} (hs : separates sep = true)
    (cs ds : List Char) :
    fields separates (cs ++ sep :: ds) = fields separates cs ++ fields separates ds := by
  induction cs with
  | nil => simp [fields, hs]
  | cons c cs ih =>
      obtain ⟨piece, pieces, hpieces⟩ := List.exists_cons_of_ne_nil (fields_ne_nil separates cs)
      rw [List.cons_append, fields, fields, ih, hpieces]
      split_ifs <;> rfl

lemma Text.fields_of_not_separates {separates : Char → Bool} {piece : List Char}
    (hp : ∀ c ∈ piece, separates c = false) : fields separates piece = [piece] := by
  induction piece with
  | nil => rfl
  | cons c piece ih =>
      obtain ⟨hc, hp⟩ := List.forall_mem_cons.mp hp
      simp [fields, hc, ih hp, consFirst]

lemma Text.fields_append_cons {separates : Char → Bool} {piece : List Char} {sep : Char}
    (hp : ∀ c ∈ piece, separates c = false) (hs : separates sep = true) (cs : List Char) :
    fields separates (piece ++ sep :: cs) = piece :: fields separates cs := by
  rw [fields_append_sep hs, fields_of_not_separates hp, List.singleton_append]

/-- The pieces of a text hold its characters but the separators. -/
lemma Text.exists_mem_fields_iff {separates : Char → Bool} {c : Char} {cs : List Char} :
    (∃ piece ∈ fields separates cs, c ∈ piece) ↔ c ∈ cs ∧ separates c = false := by
  induction cs with
  | nil => simp [fields]
  | cons d ds ih =>
      rw [fields]
      split_ifs with hd
      · rw [List.exists_mem_cons_iff, ih, List.mem_cons]
        constructor
        · rintro (hc | ⟨hc, hsep⟩)
          · simp at hc
          · exact ⟨Or.inr hc, hsep⟩
        · rintro ⟨rfl | hc, hsep⟩
          · rw [hd] at hsep
            cases hsep
          · exact Or.inr ⟨hc, hsep⟩
      · obtain ⟨first, others, hf⟩ := List.exists_cons_of_ne_nil (fields_ne_nil separates ds)
        rw [hf, List.exists_mem_cons_iff] at ih
        rw [hf, consFirst, List.exists_mem_cons_iff, List.mem_cons, or_assoc, ih, List.mem_cons]
        constructor
        · rintro (rfl | ⟨hc, hsep⟩)
          · exact ⟨Or.inl rfl, by simpa using hd⟩
          · exact ⟨Or.inr hc, hsep⟩
        · rintro ⟨rfl | hc, hsep⟩
          · exact Or.inl rfl
          · exact Or.inr ⟨hc, hsep⟩

/-- Pieces put together with a separator that none of them holds are the pieces of the text. -/
lemma Text.fields_intercalate {sep : Char} {pieces : List (List Char)} (hne : pieces ≠ [])
    (h : ∀ piece ∈ pieces, sep ∉ piece) :
    fields (· == sep) (List.intercalate [sep] pieces) = pieces := by
  induction pieces with
  | nil => exact absurd rfl hne
  | cons piece pieces ih =>
      obtain ⟨hp, hps⟩ := List.forall_mem_cons.mp h
      have hpiece : ∀ c ∈ piece, (c == sep) = false := fun c hc =>
        beq_eq_false_iff_ne.mpr fun he => hp (he ▸ hc)
      cases pieces with
      | nil => simpa using fields_of_not_separates hpiece
      | cons second pieces =>
          rw [List.intercalate_cons_cons, List.append_assoc, List.singleton_append,
            fields_append_cons hpiece (by simp), ih (by simp) hps]

namespace FilePath

/-! ### Spellings -/

/-- A text of some slashes at the start, and parts with a slash between each two. -/
def spelling (slashes : ℕ) (parts : List String) : String :=
  String.ofList (List.replicate slashes '/' ++ List.intercalate ['/'] (parts.map String.toList))

lemma toList_spelling (slashes : ℕ) (parts : List String) :
    (spelling slashes parts).toList =
      List.replicate slashes '/' ++ List.intercalate ['/'] (parts.map String.toList) :=
  String.toList_ofList

/-- Parts between slashes, the first of which is not empty. -/
structure Parts (parts : List String) : Prop where
  notMem : ∀ part ∈ parts, '/' ∉ part.toList
  head_ne : parts.head? ≠ some ""

/-- The root of a text with some slashes at its start: exactly two are kept as two, and more count
as one. -/
def rootOfSlashes : ℕ → PathRoot
  | 0 => .relative
  | 2 => .double
  | _ => .single

/-- The parts that a path keeps: `..` among them, but not `.` and empty ones. -/
def keptParts (parts : List String) : List String :=
  parts.filter fun part => part != "" && part != "."

/-- What follows the slashes does not start with one. -/
lemma Parts.head_intercalate_ne {parts : List String} (h : Parts parts) :
    (List.intercalate ['/'] (parts.map String.toList)).head? ≠ some '/' := by
  cases parts with
  | nil => simp
  | cons part parts =>
      have hne : part ≠ "" := fun he => h.head_ne (by rw [he]; rfl)
      obtain ⟨c, cs, hc⟩ := List.exists_cons_of_ne_nil
        (fun he => hne (String.toList_eq_nil_iff.mp he))
      have hslash := h.notMem part List.mem_cons_self
      rw [hc, List.mem_cons, not_or] at hslash
      have hhead : (List.intercalate ['/'] ((part :: parts).map String.toList)).head? = some c := by
        cases parts <;> simp [hc, List.intercalate_cons_cons]
      rw [hhead, ne_eq, Option.some_inj]
      exact fun he => hslash.1 he.symm

/-- The slashes tell the root. -/
lemma rootOf_replicate_append (slashes : ℕ) {cs : List Char} (h : cs.head? ≠ some '/') :
    rootOf (List.replicate slashes '/' ++ cs) = rootOfSlashes slashes := by
  obtain rfl | ⟨c, cs, rfl, hc⟩ : cs = [] ∨ ∃ c rest, cs = c :: rest ∧ c ≠ '/' := by
    cases cs with
    | nil => exact Or.inl rfl
    | cons c cs => exact Or.inr ⟨c, cs, rfl, fun he => h (by rw [he]; rfl)⟩
  · match slashes with
    | 0 | 1 | 2 | slashes + 3 => rfl
  · match slashes with
    | 0 | 1 | 2 | slashes + 3 => simp [rootOf, rootOfSlashes, List.replicate_succ, hc]

lemma fields_replicate_append (slashes : ℕ) (cs : List Char) :
    Text.fields (· == '/') (List.replicate slashes '/' ++ cs) =
      List.replicate slashes [] ++ Text.fields (· == '/') cs := by
  induction slashes with
  | zero => rfl
  | succ slashes ih => simp [List.replicate_succ, Text.fields, ih]

lemma map_ofList_map_toList (parts : List String) :
    (parts.map String.toList).map String.ofList = parts := by
  rw [List.map_map]
  exact List.map_id'' (fun part => String.ofList_toList) parts

/-- **The normal form of a spelling.** One slash at the start and three or more are the same, two
are not; empty parts and `.` are dropped, and all others are kept, `..` too. -/
theorem parse_spelling (slashes : ℕ) {parts : List String} (h : Parts parts) :
    parse (spelling slashes parts) = ⟨rootOfSlashes slashes, keptParts parts⟩ := by
  have hpieces : ((Text.fields (· == '/') (List.intercalate ['/']
      (parts.map String.toList))).map String.ofList).filter (fun part => part != "" && part != ".") =
        keptParts parts := by
    by_cases hne : parts = []
    · subst hne
      rfl
    · rw [Text.fields_intercalate (by simpa using hne) (List.forall_mem_map.mpr h.notMem),
        map_ofList_map_toList, keptParts]
  rw [parse, toList_spelling, rootOf_replicate_append slashes h.head_intercalate_ne,
    fields_replicate_append, List.map_append, List.filter_append, hpieces]
  simp

/-- Every text is the spelling of a path. -/
theorem exists_spelling (text : String) :
    ∃ slashes parts, Parts parts ∧ text = spelling slashes parts := by
  obtain ⟨slashes, cs, hcs, htext⟩ :
      ∃ slashes cs, cs.head? ≠ some '/' ∧ text.toList = List.replicate slashes '/' ++ cs := by
    refine ⟨(text.toList.takeWhile (· == '/')).length, text.toList.dropWhile (· == '/'), ?_, ?_⟩
    · intro he
      have hhead := List.head?_dropWhile_not (· == '/') text.toList
      rw [he] at hhead
      simp at hhead
    · have hslashes : List.replicate (text.toList.takeWhile (· == '/')).length '/' =
          text.toList.takeWhile (· == '/') :=
        (List.eq_replicate_iff.mpr ⟨rfl, fun c hc => by simpa using List.mem_takeWhile_imp hc⟩).symm
      rw [hslashes, List.takeWhile_append_dropWhile]
  cases cs with
  | nil =>
      refine ⟨slashes, [], ⟨nofun, nofun⟩, ?_⟩
      rw [← String.toList_inj, toList_spelling, htext]
      rfl
  | cons c cs =>
      have hc : c ≠ '/' := fun he => hcs (by rw [he]; rfl)
      obtain ⟨first, others, hfields⟩ :=
        List.exists_cons_of_ne_nil (Text.fields_ne_nil (· == '/') cs)
      have hpieces : Text.fields (· == '/') (c :: cs) = (c :: first) :: others := by
        rw [Text.fields, if_neg (by simpa using hc), hfields, Text.consFirst]
      have hparts : (((c :: first) :: others).map String.ofList).map String.toList =
          (c :: first) :: others := by
        rw [List.map_map]
        exact List.map_id'' (fun piece => String.toList_ofList) _
      refine ⟨slashes, ((c :: first) :: others).map String.ofList, ⟨?_, ?_⟩, ?_⟩
      · rw [List.forall_mem_map]
        intro piece hpiece hslash
        rw [← hpieces] at hpiece
        rw [String.toList_ofList] at hslash
        simpa using Text.not_separates_of_mem hpiece '/' hslash
      · rw [List.map_cons, List.head?_cons, ne_eq, Option.some_inj, ← String.toList_inj,
          String.toList_ofList]
        exact List.cons_ne_nil _ _
      · rw [← String.toList_inj, toList_spelling, hparts, ← hpieces, Text.intercalate_fields, htext]

/-! ### Proper paths -/

/-- A component that a path keeps: not empty, not `.`, and without slashes. -/
def IsName (part : String) : Prop := part ≠ "" ∧ part ≠ "." ∧ '/' ∉ part.toList

instance (part : String) : Decidable (IsName part) := by unfold IsName; infer_instance

/-- A path all of whose components are kept when it is read. -/
def Proper (path : FilePath) : Prop := ∀ part ∈ path.components, IsName part

/-- What is read is proper. -/
lemma proper_parse (text : String) : (parse text).Proper := by
  intro part hp
  rw [parse, List.mem_filter, List.mem_map] at hp
  obtain ⟨⟨piece, hpiece, rfl⟩, hkept⟩ := hp
  simp only [Bool.and_eq_true, bne_iff_ne] at hkept
  refine ⟨hkept.1, hkept.2, fun hslash => ?_⟩
  rw [String.toList_ofList] at hslash
  simpa using Text.not_separates_of_mem hpiece '/' hslash

lemma Proper.join {path : FilePath} (h : path.Proper) {parts : List String}
    (hp : ∀ part ∈ parts, IsName part) : (path.join parts).Proper := by
  intro part hmem
  rw [FilePath.join, List.mem_append] at hmem
  exact hmem.elim (h part) (hp part)

lemma parts_of_isName {parts : List String} (h : ∀ part ∈ parts, IsName part) : Parts parts where
  notMem part hp := (h part hp).2.2
  head_ne hhead := (h "" (List.mem_of_head? hhead)).1 rfl

/-- The slashes of a root. -/
def slashesOf : PathRoot → ℕ
  | .relative => 0
  | .single => 1
  | .double => 2

lemma text_eq_spelling {path : FilePath} (hne : path.components ≠ []) :
    path.text = spelling (slashesOf path.root) path.components := by
  have hempty : path.components.isEmpty = false := by simpa using hne
  rw [text, hempty, Bool.and_false, if_neg Bool.false_ne_true, ← String.toList_inj,
    toList_spelling, String.toList_append, String.toList_intercalate]
  cases path.root <;> rfl

/-- **A proper path is what is read from its text.** -/
theorem parse_text {path : FilePath} (h : path.Proper) : parse path.text = path := by
  obtain ⟨root, parts⟩ := path
  by_cases hne : parts = []
  · subst hne
    cases root <;> rfl
  · have hkept : keptParts parts = parts := List.filter_eq_self.mpr fun part hp => by
      simpa using ⟨(h part hp).1, (h part hp).2.1⟩
    rw [text_eq_spelling hne, parse_spelling _ (parts_of_isName h), hkept]
    cases root <;> rfl

lemma normal_text {path : FilePath} (h : path.Proper) : normal path.text = path.text := by
  rw [normal, parse_text h]

/-! ### Files below a directory -/

/-- The path of the file that lies at a relative path below a directory. -/
def below (root : FilePath) (path : String) : String :=
  (root.join (parse path).components).text

/-- Relative paths are read back as their components. -/
lemma parse_joinPath {parts : List String} (hne : parts ≠ []) (h : ∀ part ∈ parts, IsName part) :
    parse (Layout.joinPath parts) = ⟨.relative, parts⟩ := by
  have htext : Layout.joinPath parts = text ⟨.relative, parts⟩ := by
    rw [text_eq_spelling hne, ← String.toList_inj, Layout.joinPath, String.toList_intercalate,
      toList_spelling]
    rfl
  rw [htext]
  exact parse_text h

lemma join_text (root : FilePath) {parts : List String} (hne : parts ≠ [])
    (h : ∀ part ∈ parts, IsName part) :
    (root.join parts).text = root.below (Layout.joinPath parts) := by
  rw [below, parse_joinPath hne h]

lemma normal_below {root : FilePath} (h : root.Proper) (path : String) :
    normal (root.below path) = root.below path :=
  normal_text (h.join (proper_parse path))

/-- Files with other components lie at other paths. -/
lemma below_ne_below {root : FilePath} (h : root.Proper) {path path' : String}
    (hne : (parse path).components ≠ (parse path').components) :
    root.below path ≠ root.below path' := by
  intro heq
  have hjoin : root.join (parse path).components = root.join (parse path').components := by
    rw [← parse_text (h.join (proper_parse path)), ← parse_text (h.join (proper_parse path'))]
    exact congrArg parse heq
  rw [join, join, FilePath.mk.injEq] at hjoin
  exact hne (List.append_cancel_left hjoin.2)

end FilePath

/-! ### Names of files and directories -/

namespace Layout

open FilePath (IsName)

lemma isAlphanumeric_of_mem_words {name word : List Char} (h : word ∈ words name) :
    word ≠ [] ∧ ∀ c ∈ word, Text.isAlphanumeric c = true := by
  rw [words, List.mem_filter] at h
  refine ⟨by simpa using h.2, fun c hc => ?_⟩
  simpa using Text.not_separates_of_mem h.1 c hc

/-- What is in pieces put together is in a piece or is the separator. -/
lemma mem_intercalate {sep c : Char} {pieces : List (List Char)}
    (h : c ∈ List.intercalate [sep] pieces) : c = sep ∨ ∃ piece ∈ pieces, c ∈ piece := by
  induction pieces with
  | nil => simp at h
  | cons piece pieces ih =>
      cases pieces with
      | nil => exact Or.inr ⟨piece, List.mem_cons_self, by simpa using h⟩
      | cons second pieces =>
          rw [List.intercalate_cons_cons, List.mem_append, List.mem_append,
            List.mem_singleton] at h
          rcases h with (h | h) | h
          · exact Or.inr ⟨piece, List.mem_cons_self, h⟩
          · exact Or.inl h
          · rcases ih h with h | ⟨other, hmem, h⟩
            · exact Or.inl h
            · exact Or.inr ⟨other, List.mem_cons_of_mem _ hmem, h⟩

/-- A name with hyphens has only the hyphens, the default's characters and letters and numbers. -/
lemma mem_hyphenate {name default : List Char} {c : Char} (h : c ∈ hyphenate name default) :
    c ∈ default ∨ c = '-' ∨ Text.isAlphanumeric c = true := by
  rw [hyphenate] at h
  split at h
  · exact Or.inl h
  · rcases mem_intercalate h with h | ⟨word, hword, hc⟩
    · exact Or.inr (Or.inl h)
    · exact Or.inr (Or.inr ((isAlphanumeric_of_mem_words hword).2 c hc))

/-- A name with hyphens is not empty. -/
lemma hyphenate_ne_nil {name default : List Char} (h : default ≠ []) :
    hyphenate name default ≠ [] := by
  rw [hyphenate]
  split
  · exact h
  · next hwords =>
    obtain ⟨word, ws, hw⟩ := List.exists_cons_of_ne_nil hwords
    have hword : word ≠ [] := (isAlphanumeric_of_mem_words (hw ▸ List.mem_cons_self)).1
    rw [hw]
    cases ws with
    | nil => simpa using hword
    | cons second ws => simp [List.intercalate_cons_cons]

/-- A name with hyphens holds neither slashes nor dots if its default does not. -/
lemma notMem_hyphenate {name default : List Char} {c : Char} (h : c ∉ default)
    (hc : c = '/' ∨ c = '.') : c ∉ hyphenate name default := by
  intro hmem
  rcases mem_hyphenate hmem with hd | rfl | ha
  · exact h hd
  · exact absurd hc (by decide)
  · rcases hc with rfl | rfl
    · exact absurd ha (by decide)
    · exact absurd ha (by decide)

/-- The directory of a group is a component. -/
lemma isName_directoryName (group : String) : IsName (directoryName group) := by
  have hne : hyphenate group.toList "folder".toList ≠ [] := hyphenate_ne_nil (by decide)
  refine ⟨fun h => ?_, fun h => ?_, ?_⟩
  · rw [directoryName, ← String.toList_inj, String.toList_ofList] at h
    exact hne h
  · rw [directoryName, ← String.toList_inj, String.toList_ofList] at h
    have hdot : '.' ∉ hyphenate group.toList "folder".toList :=
      notMem_hyphenate (by decide) (Or.inr rfl)
    rw [h] at hdot
    exact hdot (by decide)
  · rw [directoryName, String.toList_ofList]
    exact notMem_hyphenate (by decide) (Or.inl rfl)

lemma length_fileName (request : String) :
    testExtension.length < (fileName request).length := by
  have hne : hyphenate request.toList "request".toList ≠ [] := hyphenate_ne_nil (by decide)
  have hlen := List.length_pos_of_ne_nil hne
  rw [fileName, String.length_append, String.length_ofList]
  omega

/-- The file of a request is a component. -/
lemma isName_fileName (request : String) : IsName (fileName request) := by
  have hlen : 8 < (fileName request).length := length_fileName request
  refine ⟨fun h => ?_, fun h => ?_, ?_⟩
  · rw [h] at hlen
    exact absurd hlen (by decide)
  · rw [h] at hlen
    exact absurd hlen (by decide)
  · rw [fileName, String.toList_append, String.toList_ofList, List.mem_append, not_or]
    exact ⟨notMem_hyphenate (by decide) (Or.inl rfl), by decide⟩

section Directories

variable {P : String → Prop} (flatten : Bool)

mutual

/-- What holds of the directories of all groups holds of those of a node's entries. -/
lemma forall_directory_of_mem_entriesOfNode (hP : ∀ group, P (directoryName group))
    (directory : List String) (parent : Option String) (h : ∀ part ∈ directory, P part)
    (node : Node) :
    ∀ entry ∈ entriesOfNode flatten directory parent node, ∀ part ∈ entry.directory, P part := by
  cases node with
  | group name children =>
      rw [entriesOfNode]
      refine forall_directory_of_mem_entriesOf hP _ _ ?_ children
      intro part hp
      split_ifs at hp
      · exact h part hp
      · rw [List.mem_append, List.mem_singleton] at hp
        rcases hp with hp | rfl
        · exact h part hp
        · exact hP name
  | request r =>
      intro entry he
      rw [entriesOfNode, List.mem_singleton] at he
      rw [he]
      exact h

/-- What holds of the directories of all groups holds of those of the entries of some nodes. -/
lemma forall_directory_of_mem_entriesOf (hP : ∀ group, P (directoryName group))
    (directory : List String) (parent : Option String) (h : ∀ part ∈ directory, P part)
    (nodes : List Node) :
    ∀ entry ∈ entriesOf flatten directory parent nodes, ∀ part ∈ entry.directory, P part := by
  cases nodes with
  | nil => simp [entriesOf]
  | cons node nodes =>
      intro entry he
      rw [entriesOf, List.mem_append] at he
      exact he.elim (forall_directory_of_mem_entriesOfNode hP directory parent h node entry)
        (forall_directory_of_mem_entriesOf hP directory parent h nodes entry)

end

lemma forall_directory_of_mem_entries (hP : ∀ group, P (directoryName group))
    {nodes : List Node} {entry : Entry} (h : entry ∈ (plan flatten nodes).entries) :
    ∀ part ∈ entry.directory, P part :=
  forall_directory_of_mem_entriesOf flatten hP [] none (by simp) nodes entry h

end Directories

/-- The directories and the file of a planned entry are components. -/
lemma isName_of_mem_entries {flatten : Bool} {nodes : List Node} {entry : Entry}
    (h : entry ∈ (plan flatten nodes).entries) :
    ∀ part ∈ entry.directory ++ [fileName entry.request.name], IsName part := by
  intro part hp
  rw [List.mem_append, List.mem_singleton] at hp
  rcases hp with hp | rfl
  · exact forall_directory_of_mem_entries flatten isName_directoryName h part hp
  · exact isName_fileName _

end Layout

end RequestSuite
