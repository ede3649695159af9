/-
Documents that are refused before anything is written.

* `CollectionFlaw`, `EnvironmentFlaw`: the flaws of documents; `checkCollection_names`,
  `checkEnvironment_names`: the checks find exactly these;
* `ReadsAs`, `Unusable`: a path is read as a document, or the error that is owed where it is not;
* `Refusal`: the error owed by a conversion, in the order in which documents are looked at;
* `OutputWaits`: a conversion that owes an error ends with it, and has made no call but reads;
* `StopsUndecoded`: conversions that come to a file whose bytes are those of no text;
* `build_of_sound`: documents without flaws are enough for a report;
* `output_waits_iff`: output waits for the documents exactly if they come to no such file.
-/
import RequestSuite.Proofs.BuildFailure
import RequestSuite.Store.Disk

namespace RequestSuite

variable {σ τ : Type}

/-! ### Flaws of documents -/

/-- The flaws of a collection. Where there is no object, or an empty one, there is no other. -/
inductive CollectionFlaw (document : Json) : DocumentError → Prop
  | noObject (h : ∀ field fields, document ≠ .obj (field :: fields)) :
      CollectionFlaw document .collectionMissing
  | noInfo {field : String × Json} {fields : List (String × Json)}
      (h : document = .obj (field :: fields))
      (hinfo : ∀ info, Keyed.get? "info" (field :: fields) ≠ some (.obj info)) :
      CollectionFlaw document .infoMissing
  | noItems {field : String × Json} {fields : List (String × Json)}
      (h : document = .obj (field :: fields))
      (hitems : ∀ items, Keyed.get? "item" (field :: fields) ≠ some (.arr items)) :
      CollectionFlaw document .itemsMissing

/-- The flaw of an environment that is there: it holds no list of values. -/
inductive EnvironmentFlaw (document : Json) : DocumentError → Prop
  | noValues (h : document ≠ .null)
      (hvalues : ∀ fields values, document = .obj fields →
        Keyed.get? "values" fields ≠ some (.arr values)) :
      EnvironmentFlaw document .valuesMissing

/-- A report that names every flaw, once. -/
def Report.Names (report : Report) (flaw : DocumentError → Prop) : Prop :=
  report.errors.Nodup ∧ ∀ error, error ∈ report.errors ↔ flaw error

lemma errors_append (r r' : Report) : (r ++ r').errors = r.errors ++ r'.errors := rfl

lemma errors_warnUnless (holds : Bool) (warning : DocumentWarning) :
    (warnUnless holds warning).errors = [] := by
  cases holds <;> rfl

lemma errors_checkInfo (info : Json) :
    (checkInfo info).errors = if info.isObject then [] else [.infoMissing] := by
  rw [checkInfo]
  split_ifs with h
  · rw [errors_append, errors_warnUnless, errors_warnUnless, List.nil_append]
  · rfl

lemma errors_checkItems (items : Json) :
    (checkItems items).errors = if items.items?.isSome then [] else [.itemsMissing] := by
  cases items with
  | arr items => exact errors_warnUnless _ _
  | _ => rfl

lemma errors_checkValues (values : Json) :
    (checkValues values).errors = if values.items?.isSome then [] else [.valuesMissing] := by
  cases values with
  | arr values => cases values <;> rfl
  | _ => rfl

lemma errors_checkCollection_obj (field : String × Json) (fields : List (String × Json)) :
    (checkCollection (.obj (field :: fields))).errors =
      (if (Json.member "info" (.obj (field :: fields))).isObject then [] else [.infoMissing]) ++
        if (Json.member "item" (.obj (field :: fields))).items?.isSome then []
        else [.itemsMissing] := by
  rw [← errors_checkInfo, ← errors_checkItems, ← errors_append]
  rfl

lemma isObject_member {key : String} {fields : List (String × Json)} :
    (Json.member key (.obj fields)).isObject = true ↔
      ∃ members, Keyed.get? key fields = some (.obj members) := by
  rw [Json.member]
  rcases Keyed.get? key fields with _ | value
  · simp [Json.isObject]
  · cases value <;> simp [Json.isObject]

lemma isSome_items?_member {key : String} {fields : List (String × Json)} :
    (Json.member key (.obj fields)).items?.isSome = true ↔
      ∃ items, Keyed.get? key fields = some (.arr items) := by
  rw [Json.member]
  rcases Keyed.get? key fields with _ | value
  · simp [Json.items?]
  · cases value <;> simp [Json.items?]

/-- Whether a document is an object that is not empty. -/
lemma eq_obj_cons_or (document : Json) :
    (∃ field fields, document = .obj (field :: fields)) ∨
      (checkCollection document = ⟨[.collectionMissing], []⟩ ∧
        ∀ field fields, document ≠ .obj (field :: fields)) := by
  cases document with
  | obj fields =>
      cases fields with
      | nil => exact Or.inr ⟨rfl, by simp⟩
      | cons field fields => exact Or.inl ⟨field, fields, rfl⟩
  | _ => exact Or.inr ⟨rfl, by simp⟩

/-- The flaws of an object that is not empty. -/
lemma collectionFlaw_obj_iff {field : String × Json} {fields : List (String × Json)}
    {error : DocumentError} :
    CollectionFlaw (.obj (field :: fields)) error ↔
      (error = .infoMissing ∧
        ¬ (Json.member "info" (.obj (field :: fields))).isObject = true) ∨
        (error = .itemsMissing ∧
          ¬ (Json.member "item" (.obj (field :: fields))).items?.isSome = true) := by
  rw [isObject_member, isSome_items?_member, not_exists, not_exists]
  constructor
  · rintro (⟨h⟩ | ⟨h, hinfo⟩ | ⟨h, hitems⟩)
    · exact absurd rfl (h field fields)
    · cases h
      exact Or.inl ⟨rfl, hinfo⟩
    · cases h
      exact Or.inr ⟨rfl, hitems⟩
  · rintro (⟨rfl, hinfo⟩ | ⟨rfl, hitems⟩)
    · exact .noInfo rfl hinfo
    · exact .noItems rfl hitems

/-- The flaw of an environment. -/
lemma environmentFlaw_iff {document : Json} {error : DocumentError} :
    EnvironmentFlaw document error ↔ error = .valuesMissing ∧ document ≠ .null ∧
      ∀ fields, document = .obj fields →
        ¬ (Json.member "values" (.obj fields)).items?.isSome = true := by
  simp only [isSome_items?_member, not_exists]
  constructor
  · rintro ⟨hnull, hvalues⟩
    exact ⟨rfl, hnull, fun fields hfields values => hvalues fields values hfields⟩
  · rintro ⟨rfl, hnull, hvalues⟩
    exact .noValues hnull fun fields values hfields => hvalues fields hfields values

/-- **The check of a collection** names every flaw, once, and nothing else. -/
theorem checkCollection_names (document : Json) :
    (checkCollection document).Names (CollectionFlaw document) := by
  rcases eq_obj_cons_or document with ⟨field, fields, rfl⟩ | ⟨hcheck, hnone⟩
  · rw [Report.Names, errors_checkCollection_obj]
    simp only [collectionFlaw_obj_iff]
    split_ifs <;> simp_all
  · rw [Report.Names, hcheck]
    refine ⟨List.nodup_singleton _, fun error => ⟨fun h => ?_, ?_⟩⟩
    · obtain rfl := List.mem_singleton.mp h
      exact .noObject hnone
    · rintro (⟨-⟩ | ⟨h, -⟩ | ⟨h, -⟩)
      · exact List.mem_singleton_self _
      all_goals exact absurd h (hnone _ _)

/-- The check of an environment names its flaw, once. -/
theorem checkEnvironment_names (document : Json) :
    (checkEnvironment document).Names (EnvironmentFlaw document) := by
  rw [Report.Names]
  simp only [environmentFlaw_iff]
  cases document with
  | null => simp [checkEnvironment, Json.isNull]
  | obj fields =>
      have herrors : (checkEnvironment (.obj fields)).errors =
          if (Json.member "values" (.obj fields)).items?.isSome then [] else [.valuesMissing] := by
        rw [← errors_checkValues]
        exact (errors_append _ _).trans (by rw [errors_warnUnless, List.nil_append])
      rw [herrors]
      by_cases h : (Json.member "values" (.obj fields)).items?.isSome = true
      · rw [if_pos h]
        refine ⟨List.nodup_nil, fun error => iff_of_false (List.not_mem_nil) ?_⟩
        rintro ⟨-, -, hvalues⟩
        exact hvalues fields rfl h
      · rw [if_neg h]
        refine ⟨List.nodup_singleton _, fun error => ?_⟩
        rw [List.mem_singleton, iff_self_and]
        rintro -
        exact ⟨nofun, fun fields' heq => by cases heq; exact h⟩
  | _ => simp [checkEnvironment, Json.isNull, Json.isObject]

lemma Report.Names.ok_iff {report : Report} {flaw : DocumentError → Prop} (h : report.Names flaw) :
    report.ok = true ↔ ∀ error, ¬ flaw error := by
  rw [Report.ok, List.isEmpty_iff, List.eq_nil_iff_forall_not_mem]
  exact forall_congr' fun error => not_congr (h.2 error)

/-! ### Reading documents -/

/-- A path is read as a document. -/
def ReadsAs (stack : Stack) (backend : Backend σ) (path : String) (document : Json) (s s' : σ) :
    Prop :=
  ∃ text, backend (.read path) s = (.ok text, s') ∧
    stack.overflow? (.document (text.getD "").toList) = none ∧
    Json.read (text.getD "").toList = .ok document

/-- The path of an environment, if one is given, is read as a document. None is null, and so is an
empty path. -/
def EnvironmentReadsAs (stack : Stack) (backend : Backend σ) (path : Option String)
    (document : Json) (s s' : σ) : Prop :=
  (path = none ∨ path = some "") ∧ document = .null ∧ s' = s ∨
    ∃ given, path = some given ∧ given ≠ "" ∧ ReadsAs stack backend given document s s'

/-- An error that is owed for the answer to a call that reads a path: the file cannot be read, what
it holds is not JSON, or it holds no text at all. -/
inductive Unusable (stack : Stack) (path : String) : Answer → BuildError → Prop
  | unread (cause : OsError) :
      Unusable stack path (.error (.os cause)) (.unreadable path cause.reasonText)
  | malformed {text : Option String} {fault : Json.Fault}
      (fits : stack.overflow? (.document (text.getD "").toList) = none)
      (h : Json.read (text.getD "").toList = .error fault) :
      Unusable stack path (.ok text)
        (.unreadable path ("invalid JSON - " ++ fault.message (text.getD "").toList))
  | undecoded (fault : Text.DecodeFault) (reason : String) :
      Unusable stack path (.error (.undecodable fault)) (.unreadable path reason)

variable {stack : Stack} {path : String} {answer : Answer} {error : BuildError}

lemma documentOf_of_readsAs {backend : Backend σ} {document : Json} {s s' : σ}
    (h : ReadsAs stack backend path document s s') :
    ∃ answer, backend (.read path) s = (answer, s') ∧
      documentOf stack path answer = .ok document := by
  obtain ⟨text, hanswer, hfits, hread⟩ := h
  exact ⟨_, hanswer, by simp only [documentOf, hfits, hread]⟩

lemma documentOf_of_unusable (h : Unusable stack path answer error)
    (hd : ∀ fault, answer ≠ .error (.undecodable fault)) :
    documentOf stack path answer = .error error := by
  cases h with
  | unread cause => rfl
  | malformed hfits hread => simp only [documentOf, hfits, hread]
  | undecoded fault reason => exact absurd rfl (hd fault)

section Convert

variable {backend : Backend σ} {options : Options} {collectionPath root : String}
variable {environmentPath : Option String} {collection environment : Json}
variable {s s₁ s₂ : σ}

lemma convert_of_collection_error (h : backend (.read collectionPath) s = (answer, s₁))
    (he : documentOf stack collectionPath answer = .error error) :
    convert stack backend options collectionPath environmentPath root s = (.error error, s₁) := by
  simp only [convert, readDocument, h, he]

/-- Of a path that is not empty the environment is read. -/
lemma readEnvironmentAt_of_ne (hpath : path ≠ "") (s : σ) :
    readEnvironmentAt stack backend (some path) s = readDocument stack backend path s := by
  unfold readEnvironmentAt
  split
  · next heq => cases heq
  · next heq => exact absurd (Option.some.inj heq) hpath
  · next heq =>
    obtain rfl := Option.some.inj heq
    rfl

lemma convert_of_environment_error (hpath : path ≠ "")
    (hc : ReadsAs stack backend collectionPath collection s s₁)
    (h : backend (.read path) s₁ = (answer, s₂))
    (he : documentOf stack path answer = .error error) :
    convert stack backend options collectionPath (some path) root s = (.error error, s₂) := by
  obtain ⟨answer', hanswer, hdocument⟩ := documentOf_of_readsAs hc
  simp only [convert, readEnvironmentAt_of_ne hpath, readDocument, hanswer, hdocument, h, he]

/-- The environment that is read. -/
lemma readEnvironmentAt_of_readsAs
    (he : EnvironmentReadsAs stack backend environmentPath environment s s₁) :
    readEnvironmentAt stack backend environmentPath s = (.ok environment, s₁) := by
  obtain ⟨rfl | rfl, rfl, rfl⟩ | ⟨path, rfl, hpath, hread⟩ := he
  · rfl
  · rfl
  · obtain ⟨answer, hanswer, hdocument⟩ := documentOf_of_readsAs hread
    rw [readEnvironmentAt_of_ne hpath, readDocument, hanswer]
    simp only [hdocument]

lemma convert_of_documents (hc : ReadsAs stack backend collectionPath collection s s₁)
    (he : EnvironmentReadsAs stack backend environmentPath environment s₁ s₂) :
    convert stack backend options collectionPath environmentPath root s =
      ((build stack backend options collection environment root s₂).result,
        (build stack backend options collection environment root s₂).store) := by
  obtain ⟨answer, hanswer, hdocument⟩ := documentOf_of_readsAs hc
  simp only [convert, readDocument, hanswer, hdocument, readEnvironmentAt_of_readsAs he]

lemma readDocument_logged (stack : Stack) (backend : Backend σ) (path : String) (s : σ)
    (log : CallLog) :
    ∃ log', readDocument stack (logged backend) path (s, log) =
      ((readDocument stack backend path s).1, ((readDocument stack backend path s).2, log')) := by
  obtain ⟨answer, s₁, h⟩ : ∃ answer s₁, backend (.read path) s = (answer, s₁) := ⟨_, _, rfl⟩
  refine ⟨log ++ [(.read path, answer)], ?_⟩
  simp only [readDocument, h, logged_eq h log]

/-- Reading an environment with a log. -/
lemma readEnvironmentAt_logged (stack : Stack) (backend : Backend σ) (path : Option String) (s : σ)
    (log : CallLog) :
    ∃ log', readEnvironmentAt stack (logged backend) path (s, log) =
      ((readEnvironmentAt stack backend path s).1,
        ((readEnvironmentAt stack backend path s).2, log')) := by
  rcases path with _ | path
  · exact ⟨log, rfl⟩
  by_cases hpath : path = ""
  · subst hpath
    exact ⟨log, rfl⟩
  · rw [readEnvironmentAt_of_ne hpath, readEnvironmentAt_of_ne hpath]
    exact readDocument_logged stack backend path s log

/-- A conversion is what is seen of one with a log. -/
lemma convert_logged (stack : Stack) (backend : Backend σ) (options : Options)
    (collectionPath : String) (environmentPath : Option String) (root : String) (s : σ) :
    let run := convert stack (logged backend) options collectionPath environmentPath root (s, [])
    convert stack backend options collectionPath environmentPath root s = (run.1, run.2.1) := by
  intro run
  simp only [run, convert]
  obtain ⟨log₁, h₁⟩ := readDocument_logged stack backend collectionPath s []
  obtain ⟨collection?, s₁, hc⟩ : ∃ document s₁,
      readDocument stack backend collectionPath s = (document, s₁) := ⟨_, _, rfl⟩
  rw [h₁, hc]
  cases collection? with
  | error error => rfl
  | ok collection =>
      obtain ⟨log₂, h₂⟩ := readEnvironmentAt_logged stack backend environmentPath s₁ log₁
      obtain ⟨environment?, s₂, he⟩ : ∃ document s₂,
          readEnvironmentAt stack backend environmentPath s₁ = (document, s₂) := ⟨_, _, rfl⟩
      simp only [h₂, he]
      cases environment? with
      | error error => rfl
      | ok environment =>
          obtain ⟨log, hlog⟩ :=
            exists_build_logged stack backend options collection environment root s₂ log₂
          simp only [hlog]

end Convert

/-! ### Refusals -/

section Refusal

variable (stack : Stack) (backend : Backend σ) (collectionPath : String)
variable (environmentPath : Option String) (s : σ)

/-- The error that a conversion owes. Both documents are read before either is checked, and the
collection is looked at first each time. -/
inductive Refusal : BuildError → Prop
  | collectionUnusable {answer : Answer} {error : BuildError} {s₁ : σ}
      (read : backend (.read collectionPath) s = (answer, s₁))
      (unusable : Unusable stack collectionPath answer error) : Refusal error
  | environmentUnusable {path : String} {collection : Json} {answer : Answer} {error : BuildError}
      {s₁ s₂ : σ} (given : environmentPath = some path) (present : path ≠ "")
      (first : ReadsAs stack backend collectionPath collection s s₁)
      (read : backend (.read path) s₁ = (answer, s₂))
      (unusable : Unusable stack path answer error) : Refusal error
  | collectionFlawed {collection environment : Json} {report : Report} {flaw : DocumentError}
      {s₁ s₂ : σ} (first : ReadsAs stack backend collectionPath collection s s₁)
      (second : EnvironmentReadsAs stack backend environmentPath environment s₁ s₂)
      (flawed : CollectionFlaw collection flaw)
      (complete : report.Names (CollectionFlaw collection)) : Refusal (.collection report)
  | environmentFlawed {collection environment : Json} {report : Report} {flaw : DocumentError}
      {s₁ s₂ : σ} (first : ReadsAs stack backend collectionPath collection s s₁)
      (second : EnvironmentReadsAs stack backend environmentPath environment s₁ s₂)
      (sound : ∀ error, ¬ CollectionFlaw collection error)
      (flawed : EnvironmentFlaw environment flaw)
      (complete : report.Names (EnvironmentFlaw environment)) : Refusal (.environment report)

/-- A conversion comes to a file whose bytes are those of no text: its collection, or its
environment after a collection that is read. -/
inductive StopsUndecoded : Prop
  | collection {fault : Text.DecodeFault} {s₁ : σ}
      (read : backend (.read collectionPath) s = (.error (.undecodable fault), s₁))
  | environment {path : String} {collection : Json} {fault : Text.DecodeFault} {s₁ s₂ : σ}
      (given : environmentPath = some path) (present : path ≠ "")
      (first : ReadsAs stack backend collectionPath collection s s₁)
      (read : backend (.read path) s₁ = (.error (.undecodable fault), s₂))

/-- Reading changes nothing of what is seen of a file system. -/
def ReadsKeep (view : σ → τ) : Prop :=
  ∀ path s, view (backend (.read path) s).2 = view s

/-- No call has been made that creates or writes something, and all is seen as it was. -/
structure Untouched (view : σ → τ) (after : σ × CallLog) : Prop where
  reads : ∀ entry ∈ after.2, entry.1.changes = false
  same : view after.1 = view s

/-- What is owed to the caller of a conversion whose documents are refused: the error, and that
nothing has been touched. -/
def OutputWaits (view : σ → τ) (options : Options) (root : String) : Prop :=
  (∃ error, Refusal stack backend collectionPath environmentPath s error) →
    let run := convert stack (logged backend) options collectionPath environmentPath root (s, [])
    (∃ error, run.1 = .error error ∧
      Refusal stack backend collectionPath environmentPath s error) ∧ Untouched s view run.2

end Refusal

lemma memory_read {m : Memory} (text : String) (h : m.files.get? (normal path) = some text) :
    memory (.read path) m = (.ok (some text), m) := by
  simp only [memory, h]

lemma readsKeep_memory : ReadsKeep memory id := by
  intro path m
  simp only [memory]
  split <;> rfl

lemma readsKeep_disk : ReadsKeep disk id := by
  intro path d
  simp only [disk]
  split <;> rfl

section Reads

variable {backend : Backend σ} {view : σ → τ} {s s₁ s₂ : σ} {log : CallLog} {document : Json}

lemma untouched_nil (view : σ → τ) (s : σ) : Untouched s view (s, []) := ⟨by simp, rfl⟩

lemma Untouched.read (hr : ReadsKeep backend view) (h : Untouched s view (s₁, log))
    (hread : backend (.read path) s₁ = (answer, s₂)) :
    Untouched s view (s₂, log ++ [(.read path, answer)]) := by
  refine ⟨?_, ?_⟩
  · rw [List.forall_mem_append, List.forall_mem_singleton]
    exact ⟨h.reads, rfl⟩
  · have hkeep := hr path s₁
    rw [hread] at hkeep
    exact hkeep.trans h.same

lemma Untouched.readsAs (hr : ReadsKeep backend view) (h : Untouched s view (s₁, log))
    (hread : ReadsAs stack backend path document s₁ s₂) :
    ∃ log', ReadsAs stack (logged backend) path document (s₁, log) (s₂, log') ∧
      Untouched s view (s₂, log') := by
  obtain ⟨text, hanswer, hdocument⟩ := hread
  exact ⟨_, ⟨text, logged_eq hanswer log, hdocument⟩, h.read hr hanswer⟩

lemma Untouched.environmentReadsAs (hr : ReadsKeep backend view) (h : Untouched s view (s₁, log))
    {environmentPath : Option String}
    (hread : EnvironmentReadsAs stack backend environmentPath document s₁ s₂) :
    ∃ log', EnvironmentReadsAs stack (logged backend) environmentPath document (s₁, log)
      (s₂, log') ∧ Untouched s view (s₂, log') := by
  obtain ⟨hpath, rfl, rfl⟩ | ⟨path, rfl, hpath, hread⟩ := hread
  · exact ⟨log, Or.inl ⟨hpath, rfl, rfl⟩, h⟩
  · obtain ⟨log', hread', huntouched⟩ := h.readsAs hr hread
    exact ⟨log', Or.inr ⟨path, rfl, hpath, hread'⟩, huntouched⟩

end Reads

section Builds

variable {backend : Backend σ} {options : Options} {collection environment : Json} {root : String}

lemma build_of_collectionFlaw {flaw : DocumentError} (h : CollectionFlaw collection flaw) (s : σ) :
    build stack backend options collection environment root s =
      ⟨.error (.collection (checkCollection collection)), [.idle, .validating, .failed], s⟩ := by
  have hok : (checkCollection collection).ok ≠ true := fun hok =>
    (checkCollection_names collection).ok_iff.mp hok flaw h
  simp [build, prepare, hok]

lemma build_of_environmentFlaw (hc : ∀ error, ¬ CollectionFlaw collection error)
    {flaw : DocumentError} (h : EnvironmentFlaw environment flaw) (s : σ) :
    build stack backend options collection environment root s =
      ⟨.error (.environment (checkEnvironment environment)), [.idle, .validating, .failed], s⟩ := by
  have hok : (checkEnvironment environment).ok ≠ true := fun hok =>
    (checkEnvironment_names environment).ok_iff.mp hok flaw h
  simp [build, prepare, (checkCollection_names collection).ok_iff.mpr hc, hok]

/-- A file system on which every call that creates or writes something succeeds. -/
def NeverFails (backend : Backend σ) : Prop :=
  ∀ call s, call.changes = true → ∃ text s', backend call s = (.ok text, s')

/-- On such a file system all steps succeed. -/
lemma perform_of_neverFails (hn : NeverFails backend) {steps : List Step}
    (hs : ∀ step ∈ steps, step.call.changes = true) (s : σ) :
    ∃ s', perform backend steps s = (none, s') := by
  induction steps generalizing s with
  | nil => exact ⟨s, rfl⟩
  | cons step steps ih =>
      obtain ⟨hstep, hsteps⟩ := List.forall_mem_cons.mp hs
      obtain ⟨text, s₁, h₁⟩ := hn step.call s hstep
      rw [perform_cons_ok steps h₁]
      exact ih hsteps s₁

/-- **Documents without flaws are enough for a report**, whatever else they hold, if no call fails
and there is room on the stack. -/
theorem build_of_sound (root : String) (hn : NeverFails backend)
    (hc : ∀ error, ¬ CollectionFlaw collection error)
    (he : ∀ error, ¬ EnvironmentFlaw environment error)
    (hd : firstOverflow? stack options collection environment = none) (s : σ) :
    ∃ outcome s', build stack backend options collection environment root s =
      ⟨.ok outcome, openingPhases ++ [.walking, .done], s'⟩ := by
  have hprepared : Prepared stack collection environment := by
    rcases prepared_or_unread ((checkCollection_names collection).ok_iff.mpr hc)
      ((checkEnvironment_names environment).ok_iff.mpr he) stack with
      hprepared | ⟨phases, overflow, hunread⟩
    · exact hprepared
    · rw [hunread.firstOverflow?_eq] at hd
      cases hd
  have hobstacle :
      (outline stack options collection environment (FilePath.parse root)).obstacle = none := by
    rw [hprepared.firstOverflow?_eq (FilePath.parse root), Option.map_eq_none_iff] at hd
    exact hd
  have hsteps := changes_of_mem_map_step options collection environment (FilePath.parse root)
  obtain ⟨s₁, hopening⟩ := perform_of_neverFails hn (hsteps (rootTasks options)) s
  obtain ⟨s₂, hfiles⟩ := perform_of_neverFails hn
    (hsteps (plannedTasks stack options collection)) s₁
  rw [← outline_opening stack] at hopening
  rw [← outline_files] at hfiles
  refine ⟨(outline stack options collection environment (FilePath.parse root)).outcome, s₂, ?_⟩
  rw [hprepared.build_eq, execute_of_no_error hopening hfiles, Outline.result, hobstacle]
  rfl

end Builds

section Waits

variable {backend : Backend σ} {view : σ → τ} {options : Options} {collectionPath root : String}
variable {environmentPath : Option String} {s : σ}

/-- A conversion that owes an error ends with it, unless it comes to a file that holds no text. -/
lemma outputWaits_of_not_undecoded (hr : ReadsKeep backend view)
    (hd : ¬ StopsUndecoded stack backend collectionPath environmentPath s) :
    OutputWaits stack backend collectionPath environmentPath s view options root := by
  rintro ⟨error, hrefusal⟩ run
  have hstart := untouched_nil view s
  cases hrefusal with
  | collectionUnusable read unusable =>
      have hdocument := documentOf_of_unusable unusable fun fault heq =>
        hd (.collection (heq ▸ read))
      have hrun : run = _ := convert_of_collection_error (logged_eq read []) hdocument
      rw [hrun]
      exact ⟨⟨_, rfl, .collectionUnusable read unusable⟩, hstart.read hr read⟩
  | environmentUnusable given present first read unusable =>
      subst given
      have hdocument := documentOf_of_unusable unusable fun fault heq =>
        hd (.environment rfl present first (heq ▸ read))
      obtain ⟨log, hfirst, huntouched⟩ := hstart.readsAs hr first
      have hrun : run = _ :=
        convert_of_environment_error present hfirst (logged_eq read log) hdocument
      rw [hrun]
      exact ⟨⟨_, rfl, .environmentUnusable rfl present first read unusable⟩,
        huntouched.read hr read⟩
  | @collectionFlawed collection environment report flaw s₁ s₂ first second flawed complete =>
      obtain ⟨log₁, hfirst, huntouched⟩ := hstart.readsAs hr first
      obtain ⟨log₂, hsecond, huntouched⟩ := huntouched.environmentReadsAs hr second
      have hrun : run = _ := convert_of_documents hfirst hsecond
      rw [hrun, build_of_collectionFlaw flawed]
      exact ⟨⟨_, rfl, .collectionFlawed first second flawed (checkCollection_names collection)⟩,
        huntouched⟩
  | @environmentFlawed collection environment report flaw s₁ s₂ first second sound flawed =>
      obtain ⟨log₁, hfirst, huntouched⟩ := hstart.readsAs hr first
      obtain ⟨log₂, hsecond, huntouched⟩ := huntouched.environmentReadsAs hr second
      have hrun : run = _ := convert_of_documents hfirst hsecond
      rw [hrun, build_of_environmentFlaw sound flawed]
      exact ⟨⟨_, rfl,
        .environmentFlawed first second sound flawed (checkEnvironment_names environment)⟩,
        huntouched⟩

/-- A conversion that comes to a file that holds no text owes an error, and ends with another. -/
lemma refusal_of_undecoded (options : Options) (root : String)
    (hd : StopsUndecoded stack backend collectionPath environmentPath s) :
    (∃ error, Refusal stack backend collectionPath environmentPath s error) ∧
      ∃ fault, (convert stack (logged backend) options collectionPath environmentPath root
        (s, [])).1 = .error (.stopped (.undecodable fault)) := by
  cases hd with
  | @collection fault s₁ read =>
      refine ⟨⟨_, .collectionUnusable read (.undecoded fault "")⟩, fault, ?_⟩
      rw [convert_of_collection_error (logged_eq read []) rfl]
  | @environment path collection fault s₁ s₂ given present first read =>
      subst given
      refine ⟨⟨_, .environmentUnusable rfl present first read (.undecoded fault "")⟩, fault, ?_⟩
      obtain ⟨text, hanswer, hcollection⟩ := first
      rw [convert_of_environment_error present ⟨text, logged_eq hanswer [], hcollection⟩
        (logged_eq read _) rfl]

lemma not_refusal_stopped (cause : StoreError) :
    ¬ Refusal stack backend collectionPath environmentPath s (.stopped cause) := by
  intro h
  cases h with
  | collectionUnusable read unusable => cases unusable
  | environmentUnusable given present first read unusable => cases unusable

/-- **Output waits for the documents, and sound documents are enough for it.** A conversion that
owes an error for its documents ends with that error, has made no call but reads and has touched
nothing, exactly if it does not come to a file whose bytes are those of no text. Conversely a build
of documents without flaws has a report, whatever else they hold, if no call fails and there is room
on the stack; and so has a conversion that reads such documents. The log by which the calls are seen
changes nothing. -/
theorem output_waits_iff (stack : Stack) (hr : ReadsKeep backend view) (options : Options)
    (collectionPath : String) (environmentPath : Option String) (root : String) (s : σ) :
    (OutputWaits stack backend collectionPath environmentPath s view options root ↔
      ¬ StopsUndecoded stack backend collectionPath environmentPath s) ∧
      (NeverFails backend → ∀ collection environment,
        (∀ error, ¬ CollectionFlaw collection error) →
        (∀ error, ¬ EnvironmentFlaw environment error) →
        firstOverflow? stack options collection environment = none →
        (∃ outcome, (build stack backend options collection environment root s).result =
          .ok outcome) ∧
          ∀ s₁ s₂, ReadsAs stack backend collectionPath collection s s₁ →
            EnvironmentReadsAs stack backend environmentPath environment s₁ s₂ →
            ∃ outcome,
              (convert stack backend options collectionPath environmentPath root s).1 =
                .ok outcome) ∧
      let run := convert stack (logged backend) options collectionPath environmentPath root (s, [])
      convert stack backend options collectionPath environmentPath root s = (run.1, run.2.1) := by
  refine ⟨⟨fun hwaits hundecoded => ?_, outputWaits_of_not_undecoded hr⟩,
    fun hn collection environment hc he hd => ⟨?_, fun s₁ s₂ first second => ?_⟩,
    convert_logged stack backend options collectionPath environmentPath root s⟩
  · obtain ⟨hrefusal, fault, hfault⟩ := refusal_of_undecoded options root hundecoded
    obtain ⟨error, hresult, howed⟩ := (hwaits hrefusal).1
    obtain rfl := Except.error.inj (hfault.symm.trans hresult)
    exact not_refusal_stopped _ howed
  · obtain ⟨outcome, s', hbuild⟩ := build_of_sound root hn hc he hd s
    exact ⟨outcome, by rw [hbuild]⟩
  · obtain ⟨outcome, s', hbuild⟩ := build_of_sound root hn hc he hd s₂
    exact ⟨outcome, by rw [convert_of_documents first second, hbuild]⟩

end Waits

/-- A collection with two flaws, and an environment with one. -/
def flawedFiles : Memory where
  files := [("collection.json", "\x7b\"item\": 5\x7d"), ("environment.json", "[]")]

/-- Both flaws of the collection are named, and the environment is not looked at. -/
theorem flawed_files_refused :
    let environment : Option String := some "environment.json"
    ReadsKeep memory id ∧
      OutputWaits .ample memory "collection.json" environment flawedFiles id {} "out" ∧
      (convert .ample memory {} "collection.json" environment "out" flawedFiles).1 =
        .error (.collection ⟨[.infoMissing, .itemsMissing], []⟩) := by
  intro environment
  have hfirst : memory (.read "collection.json") flawedFiles = _ :=
    memory_read "\x7b\"item\": 5\x7d" (by decide +kernel)
  have hsecond : memory (.read "environment.json") flawedFiles = _ :=
    memory_read "[]" (by decide +kernel)
  have hdecoded : ¬ StopsUndecoded .ample memory "collection.json" environment flawedFiles := by
    intro hundecoded
    cases hundecoded with
    | collection read => cases (Prod.mk.inj (hfirst.symm.trans read)).1
    | environment given present first read =>
        obtain rfl := Option.some.inj given
        obtain ⟨text, hanswer, -⟩ := first
        obtain ⟨-, rfl⟩ := Prod.mk.inj (hfirst.symm.trans hanswer)
        cases (Prod.mk.inj (hsecond.symm.trans read)).1
  have hwaits := output_waits_iff .ample readsKeep_memory {} "collection.json" environment "out"
    flawedFiles
  exact ⟨readsKeep_memory, hwaits.1.mpr hdecoded, by decide +kernel⟩

/-- A word in Latin letters with an accent, between quotation marks, one byte for each character. -/
def latinWord : Text.Undecodable where
  bytes := [0x22, 0x43, 0x61, 0x66, 0xe9, 0x22]
  fault := ⟨.continuation, 4, 1, 0xe9⟩
  decode_eq := rfl

/-- A collection file that holds it. -/
def latinDisk : Disk := [(["collection.json"], .binary latinWord)]

/-- A file that is not JSON may end a conversion without the error that is owed: where its bytes are
those of no text, nothing names its path. -/
theorem latin_file_not_refused :
    ReadsKeep disk id ∧
      (∃ error, Refusal .ample disk "collection.json" none latinDisk error) ∧
      (convert .ample disk {} "collection.json" none "out" latinDisk).1 =
        .error (.stopped (.undecodable latinWord.fault)) ∧
      ¬ OutputWaits .ample disk "collection.json" none latinDisk id {} "out" := by
  have hread : disk (.read "collection.json") latinDisk =
      (.error (.undecodable latinWord.fault), latinDisk) := by decide +kernel
  have hundecoded : StopsUndecoded .ample disk "collection.json" none latinDisk :=
    .collection hread
  obtain ⟨hrefusal, fault, hfault⟩ := refusal_of_undecoded {} "out" hundecoded
  refine ⟨readsKeep_disk, hrefusal, by rw [convert_of_collection_error hread rfl],
    fun hwaits => ?_⟩
  obtain ⟨error, hresult, howed⟩ := (hwaits hrefusal).1
  obtain rfl := Except.error.inj (hfault.symm.trans hresult)
  exact not_refusal_stopped _ howed

end RequestSuite
