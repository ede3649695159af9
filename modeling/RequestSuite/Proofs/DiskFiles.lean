/-
Files on a disk.

* `encodeFault?_eq_none`, `encodeFault?_joinedLines`: texts that have bytes;
* `unifyBreaks_of_notMem`: texts that are read as they have been written;
* `disk_read`, `disk_write`: one call that reads or writes a file;
* `readsAs_disk`: a file that holds the text of a JSON value is read as this value;
* `convert_of_perform`: conversions whose steps all succeed.
-/
import RequestSuite.Proofs.FileText
import RequestSuite.Proofs.JsonRoundTrip
import RequestSuite.Proofs.Refusal
import RequestSuite.Proofs.Retries

namespace RequestSuite

variable {d d' : Disk} {path : String} {key : DiskKey}

/-! ### Texts and their bytes -/

/-- A text without the character that announces surrogates has bytes. -/
lemma encodeFault?_eq_none {text : List Char} (h : Text.marker ∉ text) :
    Text.encodeFault? text = none := by
  have hpoints : Text.points text = text.map Char.toNat := by
    induction text with
    | nil => rfl
    | cons c text ih =>
        obtain ⟨hc, htext⟩ := not_or.mp (List.mem_cons.not.mp h)
        rw [Text.points_cons (Ne.symm hc), ih htext, List.map_cons]
  have hchar (c : Char) : (!Text.isSurrogate c.toNat) = true := by
    have hvalid : c.toNat < 0xd800 ∨ 0xdfff < c.toNat ∧ c.toNat < 0x110000 := c.valid
    simp only [Text.isSurrogate, Bool.not_eq_true', Bool.and_eq_false_iff, decide_eq_false_iff_not]
    omega
  have hall : ((Text.points text).takeWhile fun n => !Text.isSurrogate n) = Text.points text := by
    rw [hpoints, List.takeWhile_eq_self_iff, List.forall_mem_map]
    exact fun c _ => hchar c
  rw [Text.encodeFault?]
  simp only [hall, List.drop_length]

/-- So have lines without it. -/
lemma encodeFault?_joinedLines {lines : List String}
    (h : ∀ line ∈ lines, Text.marker ∉ line.toList) :
    Text.encodeFault? (Suite.joinedLines lines).toList = none := by
  have hnewline : Text.marker ≠ '\n' := by decide
  refine encodeFault?_eq_none ?_
  rw [Suite.toList_joinedLines]
  induction lines with
  | nil => exact List.not_mem_nil
  | cons line lines ih =>
      obtain ⟨hline, hlines⟩ := List.forall_mem_cons.mp h
      rw [List.map_cons]
      cases lines with
      | nil => rwa [List.map_nil, Suite.joinLines_singleton]
      | cons second lines =>
          rw [List.map_cons, Suite.joinLines_cons_cons, ← List.map_cons, List.mem_append,
            List.mem_cons]
          rintro (hmem | hmem | hmem)
          · exact hline hmem
          · exact hnewline hmem
          · exact ih hlines hmem

/-- A text without carriage returns is read as it has been written. -/
lemma unifyBreaks_of_notMem {cs : List Char} (h : '\r' ∉ cs) : Text.unifyBreaks cs = cs := by
  induction cs with
  | nil => rfl
  | cons c cs ih =>
      obtain ⟨hc, hcs⟩ := not_or.mp (List.mem_cons.not.mp h)
      rw [Text.unifyBreaks, ih hcs, if_neg (Ne.symm hc)]
      rintro - rfl
      exact absurd rfl hc

/-! ### Calls -/

lemma disk_read {cs : List Char} (hkey : d.resolve (.parse path) = .ok key)
    (hfile : d.node? key = some (.file (String.ofList cs))) (hcs : '\r' ∉ cs) :
    disk (.read path) d = (.ok (some (String.ofList cs)), d) := by
  simp only [disk, Disk.fileText, hkey, hfile, String.toList_ofList, unifyBreaks_of_notMem hcs]

lemma disk_write {text : String} (key : DiskKey)
    (hdirectory : d.ensureDirectory (FilePath.parse path).parent = (none, d'))
    (hkey : d'.resolve (.parse path) = .ok key) (hfree : d'.node? key ≠ some .directory)
    (htext : Text.encodeFault? text.toList = none) :
    disk (.write path text) d = (.ok none, d'.set key (.file text)) := by
  simp only [disk, hdirectory, Disk.putFile, hkey, if_neg hfree, htext, Disk.Change.answer]

/-- **A file that holds the text of a JSON value** is read as this value, under every policy of
retries. -/
lemma readsAs_disk {v : Json} (policy : RetryPolicy) (key : DiskKey)
    (hkey : d.resolve (.parse path) = .ok key)
    (hfile : d.node? key = some (.file (String.ofList (v.pretty 0))))
    (hreturn : '\r' ∉ v.pretty 0) (hfits : Json.Fits v) :
    ReadsAs .ample (retrying policy disk) path v ⟨d, []⟩ ⟨d, []⟩ := by
  have hread := disk_read hkey hfile hreturn
  refine ⟨some (String.ofList (v.pretty 0)), ?_, rfl, ?_⟩
  · exact retrying_of_settles ⟨⟨d, .none d, hread⟩, by simp, by simp, by simp⟩
      (by simp [RetryPolicy.Waits]) []
  · rw [Option.getD_some, String.toList_ofList]
    exact Json.read_pretty 0 hfits

/-! ### Conversions -/

section Conversions

variable {σ : Type} {backend : Backend σ} {stack : Stack} {options : Options} {collection : Json}
variable {root : String} {s s₁ s₂ : σ}

lemma exists_perform_retrying (policy : RetryPolicy) {steps : List Step}
    (hdelays : ∀ n, policy.maxDoublings = some n → policy.maxRetries.toNat ≤ n + 1)
    (h : perform backend steps s = (none, s₁)) :
    ∃ s', perform (retrying policy backend) steps ⟨s, []⟩ = (none, s') := by
  obtain ⟨pauses, hperform⟩ := perform_of_weathered (weathered_of_perform policy h)
    (not_overruns hdelays backend _ _) []
  exact ⟨_, hperform⟩

/-- **A conversion of a collection that is read, all of whose steps succeed,** comes to what its
outline says. -/
lemma convert_of_perform {o : Outline} (hread : ReadsAs stack backend path collection s s₁)
    (hprepared : Prepared stack collection .null)
    (ho : outline stack options collection .null (.parse root) = o)
    (hperform : perform backend (o.opening ++ o.files) s₁ = (none, s₂)) :
    (convert stack backend options path none root s).1 = o.result := by
  have hnone : EnvironmentReadsAs stack backend none .null s₁ s₁ := Or.inl ⟨Or.inl rfl, rfl, rfl⟩
  rw [convert_of_documents hread hnone, hprepared.build_eq, ho]
  obtain ⟨failure?, s₃, hopening⟩ : ∃ failure? s₃,
      perform backend o.opening s₁ = (failure?, s₃) := ⟨_, _, rfl⟩
  cases failure? with
  | some failure =>
      rw [perform_append_of_some _ hopening] at hperform
      cases hperform
  | none =>
      rw [perform_append_of_none _ hopening] at hperform
      rw [execute_of_no_error hopening hperform]

end Conversions

end RequestSuite
