/-
What the file system in memory holds after any calls.

* `SamePath`, `normal_inj`: texts that spell one path are those with one normal form;
  `samePath_spelling_iff` tells them by their slashes and parts;
* `Call.textFor?`, `latestText?`: the text that a call, or the latest of some calls, writes to a
  path, however it is spelled;
* `memoryAfter`: an empty memory after some calls; `memoryAfter_eq` gives its files and
  directories, `get?_memoryAfter` the text of each path;
* `rememberedAnswer`: what is answered to a call after others;
* `Remembers`: a memory that answers and changes as these calls demand;
* `memory_remembers`: so does an empty memory after any calls.
-/
import RequestSuite.Proofs.PlanWalk

namespace RequestSuite

/-! ### Spellings of a path -/

/-- Whether two texts spell one path: they start at the same place and have the same components,
empty ones and `.` left out. -/
def SamePath (path path' : String) : Prop := FilePath.parse path = FilePath.parse path'

instance (path path' : String) : Decidable (SamePath path path') :=
  inferInstanceAs (Decidable (_ = _))

lemma samePath_normal (path : String) : SamePath (normal path) path :=
  FilePath.parse_text (FilePath.proper_parse path)

lemma normal_normal (path : String) : normal (normal path) = normal path :=
  congrArg FilePath.text (samePath_normal path)

/-- **Two texts have one normal form** exactly if they spell one path. -/
lemma normal_inj {path path' : String} : normal path = normal path' ↔ SamePath path path' := by
  refine ⟨fun h => ?_, fun h => congrArg FilePath.text h⟩
  calc
    FilePath.parse path = FilePath.parse (normal path) := (samePath_normal path).symm
    _ = FilePath.parse (normal path') := by rw [h]
    _ = FilePath.parse path' := samePath_normal path'

/-- **Two spellings are of one path** exactly if their slashes at the start stand for one root and
they keep the same parts. -/
theorem samePath_spelling_iff {slashes slashes' : ℕ} {parts parts' : List String}
    (h : FilePath.Parts parts) (h' : FilePath.Parts parts') :
    SamePath (FilePath.spelling slashes parts) (FilePath.spelling slashes' parts') ↔
      FilePath.rootOfSlashes slashes = FilePath.rootOfSlashes slashes' ∧
        FilePath.keptParts parts = FilePath.keptParts parts' := by
  rw [SamePath, FilePath.parse_spelling slashes h, FilePath.parse_spelling slashes' h',
    FilePath.mk.injEq]

example : SamePath "//a/./b//../c/" "//a/b/../c" ∧ SamePath "" "./" ∧ SamePath "/a" "///a" ∧
    ¬ SamePath "/a" "//a" ∧ ¬ SamePath "a/b/../c" "a/c" := by decide

/-! ### What a history leaves -/

/-- The text that a call writes to a path, if it does. -/
def Call.textFor? (path : String) : Call → Option String
  | .write path' text => if SamePath path' path then some text else none
  | _ => none

/-- The text that the latest of some calls has written to a path. -/
def latestText? (calls : List Call) (path : String) : Option String :=
  (calls.filterMap (Call.textFor? path)).getLast?

lemma latestText?_concat (calls : List Call) (call : Call) (path : String) :
    latestText? (calls ++ [call]) path = (call.textFor? path).or (latestText? calls path) := by
  rw [latestText?, List.filterMap_append, List.getLast?_append, latestText?]
  cases h : call.textFor? path <;> simp [h]

/-- An empty memory after some calls. -/
def memoryAfter (calls : List Call) : Memory := effects memoryEffect calls {}

lemma memoryAfter_eq (calls : List Call) :
    memoryAfter calls =
      ⟨Keyed.ofList (calls.filterMap Call.writes?), (calls.filterMap Call.creates?).eraseDups⟩ := by
  rw [memoryAfter, effects_memory, Layout.withDirectories_nil]
  rfl

/-- What a call leaves at a path: the text that it writes there, or what was there before. -/
lemma get?_memoryEffect (call : Call) (m : Memory) (path : String) :
    (memoryEffect call m).files.get? (normal path) =
      (call.textFor? path).or (m.files.get? (normal path)) := by
  cases call with
  | read path' =>
      rw [memoryEffect_eq]
      rfl
  | mkdir path' =>
      rw [memoryEffect_eq]
      rfl
  | write path' text =>
      rw [memoryEffect, memory_write_get?, Call.textFor?]
      by_cases h : SamePath path' path
      · rw [if_pos (normal_inj.mpr h).symm, if_pos h, Option.some_or]
      · rw [if_neg fun hn => h (normal_inj.mp hn.symm), if_neg h, Option.none_or]

/-- **A path holds the latest text** that was written to it. -/
lemma get?_memoryAfter (calls : List Call) (path : String) :
    (memoryAfter calls).files.get? (normal path) = latestText? calls path := by
  induction calls using List.reverseRecOn with
  | nil => rfl
  | append_singleton calls call ih =>
      rw [memoryAfter, effects_append, latestText?_concat, ← ih]
      exact get?_memoryEffect call _ path

/-! ### Answers -/

/-- What is answered to a call after some others: the latest text of a path to whoever reads it, or
that there is no such file. -/
def rememberedAnswer (calls : List Call) : Call → Answer
  | .read path =>
    match latestText? calls path with
    | some text => .ok (some text)
    | none => .error (.os ⟨2, "No such file", normal path⟩)
  | _ => .ok none

/-- A memory that is a map over paths, whatever spelling they are given in, as some calls have
made it. -/
structure Remembers (calls : List Call) (m : Memory) : Prop where
  /-- The next call is answered from the calls before it. -/
  answer : ∀ call, (memory call m).1 = rememberedAnswer calls call
  /-- The files are in the order of their first writes, each once and under its normal form. -/
  files : m.files.keys = ((calls.filterMap Call.writes?).map Prod.fst).eraseDups
  files_nodup : m.files.keys.Nodup
  files_normal : ∀ key ∈ m.files.keys, normal key = key
  /-- The directories are in the order in which they were first created, each once. -/
  directories : m.directories = (calls.filterMap Call.creates?).eraseDups
  directories_nodup : m.directories.Nodup
  /-- Reading changes nothing, found or not. -/
  read_keeps : ∀ path, (memory (.read path) m).2 = m
  /-- Creating a directory changes no file. -/
  mkdir_keeps : ∀ path, (memory (.mkdir path) m).2.files = m.files
  /-- Writing changes no directory and no other path. -/
  write_keeps : ∀ path text, (memory (.write path text) m).2.directories = m.directories ∧
    ∀ path', ¬ SamePath path path' →
      (memory (.write path text) m).2.files.get? (normal path') = m.files.get? (normal path')

/-- What is written has a path in normal form. -/
lemma normal_of_mem_writes {calls : List Call} {key : String}
    (h : key ∈ (calls.filterMap Call.writes?).map Prod.fst) : normal key = key := by
  obtain ⟨entry, hentry, rfl⟩ := List.mem_map.mp h
  obtain ⟨call, -, hcall⟩ := List.mem_filterMap.mp hentry
  cases call with
  | read path => simp [Call.writes?] at hcall
  | mkdir path => simp [Call.writes?] at hcall
  | write path text =>
      rw [Call.writes?, Option.some_inj] at hcall
      rw [← hcall]
      exact normal_normal path

/-- **The memory is a map over paths.** After any calls on an empty memory, a path that is read has
the text of the latest write to it under any spelling of the path, and there is no such file if
there is none; files and directories stand under their normal forms in the order of their first
use, each once; a write changes no directory and no other path, creating a directory changes no
file, and reading changes nothing. -/
theorem memory_remembers (calls : List Call) : Remembers calls (memoryAfter calls) := by
  have hkeys : (memoryAfter calls).files.keys =
      ((calls.filterMap Call.writes?).map Prod.fst).eraseDups := by
    rw [memoryAfter_eq, Keyed.ofList, Keyed.keys_putAll]
    simp [Keyed.keys]
  have hdirectories : (memoryAfter calls).directories =
      (calls.filterMap Call.creates?).eraseDups := by rw [memoryAfter_eq]
  refine
    { answer := fun call => ?_
      files := hkeys
      files_nodup := hkeys ▸ nodup_eraseDups _
      files_normal := fun key h => normal_of_mem_writes (List.mem_eraseDups.mp (hkeys ▸ h))
      directories := hdirectories
      directories_nodup := hdirectories ▸ nodup_eraseDups _
      read_keeps := fun path => memoryEffect_eq (.read path) _
      mkdir_keeps := fun path => ?_
      write_keeps := fun path text => ⟨rfl, fun path' hne => ?_⟩ }
  · cases call with
    | read path =>
        rw [memory, get?_memoryAfter, rememberedAnswer]
        cases latestText? calls path <;> rfl
    | mkdir path =>
        rw [memory_of_changes _ rfl]
        rfl
    | write path text => rfl
  · rw [← memoryEffect, memoryEffect_eq]
    rfl
  · have hother := get?_memoryEffect (.write path text) (memoryAfter calls) path'
    rwa [Call.textFor?, if_neg hne, Option.none_or] at hother

end RequestSuite
