/-
What the command line reports of a conversion.

* `Printable`, `Shown`: messages that a console prints, and those that it shows as they are;
* `printAll_eq`, `say_eq`, `say_of_not`: runs that print their messages;
* `printable_statistics_iff`: what is said of numbers can always be printed;
* `Reports`: a run has printed some messages as they are, one after another;
* `map_append_eq_iff`: texts that are shown one for each message;
* `conversion`, `convertAt_of_printable`: the conversion of a run, and how it is concluded;
* `ReportedExactly`: when a run reports some messages, by what they say;
* `report_verbatim_iff`: when a run reports its warnings and errors as they are;
* `draftDisk`, `conversion_draft`: a collection on a disk, and its conversion;
  `plain_report_kept`, `draft_report_breaks`: a run whose report is kept, and one whose is lost.
-/
import RequestSuite.Command.Run
import RequestSuite.Proofs.ConsoleText
import RequestSuite.Proofs.DiskFiles

namespace RequestSuite.Command

variable {console : Console} {width : ℕ}

/-! ### Messages that can be printed -/

/-- A message that a console prints. -/
def Printable (console : Console) (m : Message) : Prop := (console m.markup).isSome = true

/-- A message that a console shows as it is meant to be shown. -/
def Shown (console : Console) (m : Message) : Prop := console m.markup = some m.plain

instance (console : Console) (m : Message) : Decidable (Printable console m) :=
  inferInstanceAs (Decidable (_ = _))

/-- What a console shows of a message. -/
def shownText (console : Console) (m : Message) : String := (console m.markup).getD ""

lemma Shown.printable {m : Message} (h : Shown console m) : Printable console m := by
  rw [Printable, h, Option.isSome_some]

lemma shownText_eq_plain_iff {m : Message} (h : Printable console m) :
    shownText console m = m.plain ↔ Shown console m := by
  obtain ⟨text, htext⟩ := Option.isSome_iff_exists.mp h
  rw [shownText, Shown, htext, Option.getD_some, Option.some_inj]

/-- Messages are printed one after another if all of them can be. -/
lemma printAll_eq {ms : List Message} (h : ∀ m ∈ ms, Printable console m) :
    printAll console ms = (ms.map (shownText console), true) := by
  induction ms with
  | nil => rfl
  | cons m ms ih =>
      obtain ⟨hm, hms⟩ := List.forall_mem_cons.mp h
      obtain ⟨text, htext⟩ := Option.isSome_iff_exists.mp hm
      rw [printAll, htext, ih hms, List.map_cons, shownText, htext, Option.getD_some]

lemma printAll_snd_of_not {ms : List Message} (h : ¬ ∀ m ∈ ms, Printable console m) :
    (printAll console ms).2 = false := by
  induction ms with
  | nil => exact absurd (fun m hm => (List.not_mem_nil hm).elim) h
  | cons m ms ih =>
      rw [printAll]
      cases htext : console m.markup with
      | none => rfl
      | some text =>
          refine ih fun hms => h (List.forall_mem_cons.mpr ⟨?_, hms⟩)
          rw [Printable, htext, Option.isSome_some]

lemma say_eq {ms : List Message} (h : ∀ m ∈ ms, Printable console m) (printed : List String)
    (code : ℕ) :
    Transcript.say console printed ms code =
      ⟨code, printed ++ ms.map (shownText console), none⟩ := by
  rw [Transcript.say, printAll_eq h]

/-- A run that cannot print its messages fails. -/
lemma say_of_not {ms : List Message} (h : ¬ ∀ m ∈ ms, Printable console m) (printed : List String)
    (code : ℕ) :
    Transcript.say console printed ms code =
      .ofFailure (printed ++ (printAll console ms).1) .unprintable := by
  have hsnd := printAll_snd_of_not h
  rw [Transcript.say]
  cases hall : printAll console ms with
  | mk more complete =>
      rw [hall] at hsnd
      obtain rfl : complete = false := hsnd
      rfl

/-- A message that closes no tag, and has bytes. -/
structure Message.IsOpen (m : Message) : Prop where
  closes_none : ¬ ['[', '/'] <:+: m.said.toList
  encodes : Text.encodeFault? m.said.toList = none

instance (m : Message) : Decidable m.IsOpen :=
  decidable_of_iff (¬ ['[', '/'] <:+: m.said.toList ∧ Text.encodeFault? m.said.toList = none)
    ⟨fun h => ⟨h.1, h.2⟩, fun h => ⟨h.closes_none, h.encodes⟩⟩

/-- A message with nothing to interpret, and with room on a line. -/
structure Message.IsPlain (width : ℕ) (m : Message) : Prop where
  plain : Plain m.said.toList
  fits : columns m.plain.toList ≤ width

instance (width : ℕ) (m : Message) : Decidable (m.IsPlain width) :=
  decidable_of_iff (Plain m.said.toList ∧ columns m.plain.toList ≤ width)
    ⟨fun h => ⟨h.1, h.2⟩, fun h => ⟨h.plain, h.fits⟩⟩

lemma Message.IsOpen.printable (hlaws : console.Laws width) {m : Message} (h : m.IsOpen) :
    Printable console m := hlaws.prints m h.closes_none h.encodes

lemma Message.IsPlain.shown (hlaws : console.Laws width) {m : Message} (h : m.IsPlain width) :
    Shown console m := hlaws.shows m h.plain h.fits

lemma not_printable_of_closesTag (hlaws : console.Laws width) {m : Message}
    (h : ClosesTag m.said.toList) : ¬ Printable console m := by
  rw [Printable, hlaws.raises m h]
  exact Bool.false_ne_true

/-! ### Numbers -/

lemma isOpen_of_notMem {m : Message} (hopen : '[' ∉ m.said.toList)
    (hmarker : Text.marker ∉ m.said.toList) : m.IsOpen where
  closes_none hpart := hopen (hpart.subset List.mem_cons_self)
  encodes := encodeFault?_eq_none hmarker

lemma notMem_number {c : Char} (h : c.isDigit = false) (n : ℕ) : c ∉ (toString n).toList := by
  intro hmem
  rw [Nat.toString_eq_repr, Nat.toList_repr] at hmem
  rw [Nat.isDigit_of_mem_toDigits (by decide) (by decide) hmem] at h
  cases h

/-- A message about a number can be printed. -/
lemma isOpen_number (before after : String)
    (h : '[' ∉ before.toList ++ after.toList ∧ Text.marker ∉ before.toList ++ after.toList)
    (n : ℕ) : (Message.info (before ++ toString n ++ after)).IsOpen := by
  have hnumber {c : Char} (hdigit : c.isDigit = false) (hc : c ∉ before.toList ++ after.toList) :
      c ∉ (before ++ toString n ++ after).toList := by
    rw [List.mem_append, not_or] at hc
    rw [String.toList_append, String.toList_append, List.mem_append, List.mem_append]
    rintro ((hmem | hmem) | hmem)
    · exact hc.1 hmem
    · exact notMem_number hdigit n hmem
    · exact hc.2 hmem
  exact isOpen_of_notMem (hnumber (by decide) h.1) (hnumber (by decide) h.2)

/-- What is said of a suite that has been generated. -/
def generated (output : FilePath) (files : ℕ) : Message :=
  .info ("Generated " ++ toString files ++ " test files in " ++ output.text)

/-- What is said of its base URL. -/
def baseUrlMessage (url : String) : Message := .info ("Base URL: " ++ url)

/-- What is said after the warnings of a conversion that has succeeded. -/
def statistics (output : FilePath) (o : Outcome) : List Message :=
  [.done "Conversion completed successfully!", generated output o.files] ++
    (unlessZero o.folders (.info ("Created " ++ toString o.folders ++ " folders")) ++
      ([baseUrlMessage o.baseUrl] ++
        (unlessZero (o.environment.getD []).length
          (.info ("Environment variables: " ++ toString (o.environment.getD []).length)) ++
          unlessZero o.fallbacks
            (.info (toString o.fallbacks ++
              " request(s) fell back to the default status assertion")))))

/-- The warnings of a conversion that has succeeded. -/
def warningsOf (o : Outcome) : List Message := o.warnings.map fun w => .warning w.message

lemma closingMessages_eq (output : FilePath) (o : Outcome) :
    closingMessages output o = warningsOf o ++ statistics output o := by
  simp only [closingMessages, warningsOf, statistics, generated, baseUrlMessage, List.append_assoc]

lemma forall_mem_unlessZero {p : Message → Prop} {m : Message} (h : p m) (n : ℕ) :
    ∀ m' ∈ unlessZero n m, p m' := by
  rw [unlessZero]
  split_ifs
  · exact nofun
  · exact List.forall_mem_singleton.mpr h

/-- **Of the statistics only the messages that name the output directory and the base URL can
fail.** -/
lemma printable_statistics_iff (hlaws : console.Laws width) (output : FilePath) (o : Outcome) :
    (∀ m ∈ statistics output o, Printable console m) ↔
      Printable console (generated output o.files) ∧
        Printable console (baseUrlMessage o.baseUrl) := by
  have hdone : Message.IsOpen (.done "Conversion completed successfully!") := by decide
  have hfolders := isOpen_number "Created " " folders" (by decide) o.folders
  have hbindings := isOpen_number "Environment variables: " "" (by decide)
    (o.environment.getD []).length
  have hfallbacks := isOpen_number "" " request(s) fell back to the default status assertion"
    (by decide) o.fallbacks
  rw [String.append_empty] at hbindings
  rw [String.empty_append] at hfallbacks
  simp only [statistics, List.forall_mem_append, List.forall_mem_cons]
  constructor
  · exact fun h => ⟨h.1.2.1, h.2.2.1.1⟩
  · exact fun h => ⟨⟨hdone.printable hlaws, h.1, nofun⟩,
      forall_mem_unlessZero (hfolders.printable hlaws) _, ⟨h.2, nofun⟩,
      forall_mem_unlessZero (hbindings.printable hlaws) _,
      forall_mem_unlessZero (hfallbacks.printable hlaws) _⟩

/-! ### Reports -/

/-- A run ends with a code, and after what it has printed `before` it has printed some messages as
they are meant to be shown, one after another. -/
def Reports (transcript : Transcript) (before : List String) (exitCode : ℕ)
    (messages : List Message) : Prop :=
  transcript.exitCode = exitCode ∧
    ∃ after, transcript.printed = before ++ (messages.map Message.plain ++ after)

/-- Texts for some things are the same as others, with more behind them, if and only if they are one
by one. -/
lemma map_append_eq_iff {α β : Type} {f g : α → β} {as : List α} (rest : List β) :
    (∃ after, as.map f ++ rest = as.map g ++ after) ↔ ∀ a ∈ as, f a = g a := by
  constructor
  · rintro ⟨after, h⟩
    exact List.map_inj_left.mp (List.append_inj_left h (by rw [List.length_map, List.length_map]))
  · intro h
    exact ⟨rest, by rw [List.map_inj_left.mpr h]⟩

/-- A run that says some messages, and others behind them, reports the former if and only if all can
be printed and these are shown as they are. -/
lemma reports_say_iff (messages others : List Message) (before : List String) :
    Reports (.say console before (messages ++ others) 0) before 0 messages ↔
      (∀ m ∈ others, Printable console m) ∧ ∀ m ∈ messages, Shown console m := by
  by_cases hall : ∀ m ∈ messages ++ others, Printable console m
  · obtain ⟨hmessages, hothers⟩ := List.forall_mem_append.mp hall
    rw [say_eq hall, Reports, List.map_append]
    simp only [List.append_cancel_left_eq, true_and, map_append_eq_iff]
    rw [and_iff_right hothers]
    exact forall₂_congr fun m hm => shownText_eq_plain_iff (hmessages m hm)
  · rw [say_of_not hall]
    refine iff_of_false (fun h => absurd h.1 (by simp [Transcript.ofFailure])) fun h => hall ?_
    exact List.forall_mem_append.mpr ⟨fun m hm => (h.2 m hm).printable, h.1⟩

/-- A run that says one message and ends with 1 does so in any case, and reports it if and only if
it is shown as it is. -/
lemma reports_say_singleton_iff (console : Console) (m : Message) (before : List String) :
    (Transcript.say console before [m] 1).exitCode = 1 ∧
      (Reports (.say console before [m] 1) before 1 [m] ↔ Shown console m) := by
  by_cases hm : Printable console m
  · rw [say_eq (List.forall_mem_singleton.mpr hm), Reports]
    refine ⟨rfl, ?_⟩
    rw [← shownText_eq_plain_iff hm]
    simp
  · rw [say_of_not fun h => hm (List.forall_mem_singleton.mp h)]
    have hnone : console m.markup = none := by
      rwa [Printable, Bool.not_eq_true, Option.isSome_eq_false_iff, Option.isNone_iff_eq_none] at hm
    refine ⟨rfl, iff_of_false ?_ fun h => hm h.printable⟩
    rintro ⟨-, after, hprinted⟩
    rw [printAll, hnone] at hprinted
    simp [Transcript.ofFailure] at hprinted

/-- When a run reports some messages, by what these and the other messages say that name something
of the run: exactly if all are printed and those are shown as they are. So they are reported if they
have nothing to interpret, unlike those that hold a tag; and what closes a tag that is not open ends
the run with 1. -/
structure ReportedExactly (console : Console) (width : ℕ) (transcript : Transcript)
    (before : List String) (exitCode : ℕ) (named messages : List Message) : Prop where
  reports_iff : Reports transcript before exitCode messages ↔
    (∀ m ∈ named, Printable console m) ∧ ∀ m ∈ messages, Shown console m
  of_plain : (∀ m ∈ named, m.IsOpen) → (∀ m ∈ messages, m.IsPlain width) →
    Reports transcript before exitCode messages
  not_of_tag : (∃ m ∈ messages, HoldsTag m.said.toList) →
    ¬ Reports transcript before exitCode messages
  of_closing : (∃ m ∈ named ++ messages, ClosesTag m.said.toList) →
    transcript.exitCode = 1 ∧ ¬ Reports transcript before exitCode messages

/-- All of this follows from the laws of the console, if the exit code is 1 where something cannot
be printed. -/
lemma reportedExactly_of_iff (hlaws : console.Laws width) {transcript : Transcript}
    {before : List String} {exitCode : ℕ} {named messages : List Message}
    (hiff : Reports transcript before exitCode messages ↔
      (∀ m ∈ named, Printable console m) ∧ ∀ m ∈ messages, Shown console m)
    (hcode : (∃ m ∈ named ++ messages, ¬ Printable console m) → transcript.exitCode = 1) :
    ReportedExactly console width transcript before exitCode named messages where
  reports_iff := hiff
  of_plain hopen hplain := hiff.mpr
    ⟨fun m hm => (hopen m hm).printable hlaws, fun m hm => (hplain m hm).shown hlaws⟩
  not_of_tag := by
    rintro ⟨m, hm, htag⟩ hreports
    exact hlaws.hides m htag ((hiff.mp hreports).2 m hm)
  of_closing := by
    rintro ⟨m, hm, hcloses⟩
    have hnot := not_printable_of_closesTag hlaws hcloses
    refine ⟨hcode ⟨m, hm, hnot⟩, fun hreports => hnot ?_⟩
    obtain ⟨hnamed, hmessages⟩ := hiff.mp hreports
    rcases List.mem_append.mp hm with hm | hm
    · exact hnamed m hm
    · exact (hmessages m hm).printable

/-! ### Runs -/

/-- The conversion of a run. -/
def conversion (host : Host) (policy : RetryPolicy) (options : Options) (places : Places)
    (d : Disk) : Except BuildError Outcome :=
  (convert host.stack (retrying policy disk) options places.collection.text
    (places.environment.map FilePath.text) places.output.text { store := d }).1

/-- What is said before the conversion. -/
def openingOfRun (directory : FilePath) (places : Places) (silent : Bool) : List Message :=
  if silent then [] else openingMessages directory places

/-- The failures that a message reports. The others end a run as they come. -/
def isReported : BuildError → Bool
  | .stopped _ | .overflow _ => false
  | _ => true

section Run

variable {host : Host} {policy : RetryPolicy} {options : Options} {places : Places} {silent : Bool}
variable {d : Disk}

/-- A run whose opening can be printed concludes with the result of its conversion. -/
lemma convertAt_of_printable
    (h : ∀ m ∈ openingOfRun host.directory places silent, Printable host.console m) :
    (convertAt host policy options places silent d).1 =
      conclude host.console silent places.output
        (printAll host.console (openingOfRun host.directory places silent)).1
        (conversion host policy options places d) := by
  have hopening : openingOf host places silent =
      ⟨0, (openingOfRun host.directory places silent).map (shownText host.console), none⟩ :=
    say_eq h [] 0
  rw [convertAt, hopening, printAll_eq h]
  rfl

/-- A run whose opening cannot be printed ends with it. -/
lemma convertAt_of_not_printable
    (h : ¬ ∀ m ∈ openingOfRun host.directory places silent, Printable host.console m) :
    (convertAt host policy options places silent d).1 =
      .ofFailure (printAll host.console (openingOfRun host.directory places silent)).1
        .unprintable := by
  have hopening : openingOf host places silent =
      .ofFailure (printAll host.console (openingOfRun host.directory places silent)).1
        .unprintable := say_of_not h [] 0
  rw [convertAt, hopening]
  rfl

lemma conclude_of_isReported {e : BuildError} (h : isReported e = true) (silent : Bool)
    (output : FilePath) (before : List String) :
    conclude console silent output before (.error e) =
      .say console before [failureMessage e] 1 := by
  cases e with
  | stopped error => cases h
  | overflow overflow => cases h
  | collection report => rfl
  | environment report => rfl
  | emission path request cause => rfl
  | unreadable path reason => rfl

/-- A run that ends with its opening reports nothing. -/
lemma not_reports_of_not_printable {before : List String} {exitCode : ℕ} {messages : List Message}
    (hne : exitCode = 0 ∨ messages ≠ []) :
    ¬ Reports (.ofFailure before .unprintable) before exitCode messages := by
  rintro ⟨hcode, after, hprinted⟩
  rcases hne with rfl | hne
  · cases hcode
  · rw [Transcript.ofFailure, List.self_eq_append_right, List.append_eq_nil_iff,
      List.map_eq_nil_iff] at hprinted
    exact hne hprinted.1

/-- A conversion that has succeeded. -/
lemma reportedExactly_of_ok (hlaws : host.console.Laws width) {outcome : Outcome}
    (hresult : conversion host policy options places d = .ok outcome) :
    let opening := openingOfRun host.directory places false
    ReportedExactly host.console width (convertAt host policy options places false d).1
      (printAll host.console opening).1 0
      (opening ++ [generated places.output outcome.files, baseUrlMessage outcome.baseUrl])
      (warningsOf outcome) := by
  intro opening
  set before := (printAll host.console opening).1
  have hstatistics := printable_statistics_iff hlaws places.output outcome
  by_cases hopening : ∀ m ∈ opening, Printable host.console m
  · have hrun : (convertAt host policy options places false d).1 =
        .say host.console before (warningsOf outcome ++ statistics places.output outcome) 0 := by
      rw [convertAt_of_printable hopening, hresult, ← closingMessages_eq]
      rfl
    rw [hrun]
    refine reportedExactly_of_iff hlaws ?_ ?_
    · rw [reports_say_iff, hstatistics]
      simp only [List.forall_mem_append, List.forall_mem_cons, and_iff_right hopening,
        List.not_mem_nil, false_implies, implies_true, and_true]
    · rintro ⟨m, hm, hnot⟩
      have hall : ¬ ∀ m ∈ warningsOf outcome ++ statistics places.output outcome,
          Printable host.console m := by
        rw [List.forall_mem_append, hstatistics]
        rintro ⟨hwarnings, hgenerated, hbase⟩
        simp only [List.mem_append, List.mem_cons, List.not_mem_nil, or_false] at hm
        rcases hm with (hm | rfl | rfl) | hm
        · exact hnot (hopening m hm)
        · exact hnot hgenerated
        · exact hnot hbase
        · exact hnot (hwarnings m hm)
      rw [say_of_not hall]
      rfl
  · rw [convertAt_of_not_printable hopening]
    refine reportedExactly_of_iff hlaws ?_ fun _ => rfl
    refine iff_of_false (not_reports_of_not_printable (Or.inl rfl)) fun h => hopening ?_
    exact (List.forall_mem_append.mp h.1).1

/-- A conversion that has failed. -/
lemma reportedExactly_of_error (hlaws : host.console.Laws width) {e : BuildError}
    (hresult : conversion host policy options places d = .error e) (he : isReported e = true) :
    let opening := openingOfRun host.directory places silent
    let transcript := (convertAt host policy options places silent d).1
    transcript.exitCode = 1 ∧ ReportedExactly host.console width transcript
      (printAll host.console opening).1 1 opening [failureMessage e] := by
  intro opening transcript
  by_cases hopening : ∀ m ∈ opening, Printable host.console m
  · have hrun : transcript =
        .say host.console (printAll host.console opening).1 [failureMessage e] 1 := by
      simp only [transcript]
      rw [convertAt_of_printable hopening, hresult, conclude_of_isReported he]
    obtain ⟨hcode, hreports⟩ := reports_say_singleton_iff host.console (failureMessage e)
      (printAll host.console opening).1
    rw [hrun]
    refine ⟨hcode, reportedExactly_of_iff hlaws ?_ fun _ => hcode⟩
    rw [hreports, and_iff_right hopening, List.forall_mem_singleton]
  · have hrun : transcript = .ofFailure (printAll host.console opening).1 .unprintable :=
      convertAt_of_not_printable hopening
    rw [hrun]
    refine ⟨rfl, reportedExactly_of_iff hlaws ?_ fun _ => rfl⟩
    refine iff_of_false (not_reports_of_not_printable (Or.inr (by simp))) fun h => hopening h.1

/-- **When a run reports its conversion as it is**, on a console that keeps to its laws. If the
conversion succeeds, the run ends with 0 after a text for each warning, in order and character by
character, exactly if the console prints the messages that name its paths and its base URL and shows
the warnings as they are; whatever the warnings say, if they have nothing to interpret they are
reported, and if one holds a style tag they are not. If the conversion fails with an error that is
reported, the run ends with 1, and so it is with the text of the error. What closes a tag that is
not open ends the run with 1, though the conversion has succeeded. -/
theorem report_verbatim_iff (hlaws : host.console.Laws width) (policy : RetryPolicy)
    (options : Options) (places : Places) (silent : Bool) (d : Disk) :
    let result := conversion host policy options places d
    let opening := openingOfRun host.directory places silent
    let before := (printAll host.console opening).1
    let transcript := (convertAt host policy options places silent d).1
    (∀ outcome, silent = false → result = .ok outcome →
      ReportedExactly host.console width transcript before 0
        (opening ++ [generated places.output outcome.files, baseUrlMessage outcome.baseUrl])
        (warningsOf outcome)) ∧
    ∀ e, result = .error e → isReported e = true →
      transcript.exitCode = 1 ∧
        ReportedExactly host.console width transcript before 1 opening [failureMessage e] := by
  intro result opening before transcript
  refine ⟨fun outcome hsilent hresult => ?_, fun e hresult he => ?_⟩
  · subst hsilent
    exact reportedExactly_of_ok hlaws hresult
  · exact reportedExactly_of_error hlaws hresult he

end Run

/-! ### Names in brackets -/

/-- A collection of an item without a request, which has a name, and of a request. -/
def draftCollection (name : String) : Json :=
  .obj
    [("info", .obj [("name", .str "API"), ("schema", .str "v2")]),
      ("item", .arr
        [.obj [("name", .str name)],
          .obj [("name", .str "List"), ("request", .str "https://host/list")]])]

/-- A file system that holds it. -/
def draftDisk (name : String) : Disk :=
  [(["c.json"], .file (String.ofList ((draftCollection name).pretty 0)))]

/-- Where it is read, and where its suite is written. -/
def draftPlaces : Places := ⟨.parse "c.json", .parse "out", none⟩

/-- A terminal in a directory. -/
def workHost : Host := ⟨.ample, terminal, .parse "/work"⟩

/-- The build of the collection, worked out. -/
def draftOutline (name : String) : Outline :=
  outline .ample {} (draftCollection name) .null (.parse "out")

/-- What is said of the item. -/
def draftMessage (name : String) : String :=
  "Skipping item \"" ++ name ++ "\": neither a folder nor a request"

/-- What is said before the conversion. -/
def draftOpening : List String := ["[PM] Collection: /work/c.json", "[PM] Output: /work/out"]

lemma printAll_draft :
    printAll terminal (openingOfRun (.parse "/work") draftPlaces false) = (draftOpening, true) := by
  decide +kernel

lemma fits_draftCollection (name : String) : Json.Fits (draftCollection name) := by
  refine .obj (by simp [Keyed.keys]) ?_
  simp only [List.forall_mem_cons]
  refine ⟨.obj (by decide) (by simp [Json.Fits.str]), .arr ?_, List.forall_mem_nil _⟩
  simp only [List.forall_mem_cons]
  exact ⟨.obj (by simp [Keyed.keys]) (by simp [Json.Fits.str]),
    .obj (by decide) (by simp [Json.Fits.str]), List.forall_mem_nil _⟩

/-- Two files are written into a new directory, whatever they hold, if it has bytes. -/
lemma exists_perform_writes (name : String) {setup test : String}
    (hsetup : Text.encodeFault? setup.toList = none)
    (htest : Text.encodeFault? test.toList = none) :
    ∃ d, perform disk
      [⟨.mkdir "out", none⟩, ⟨.write "out/setup.js" setup, none⟩,
        ⟨.write "out/list.test.js" test, some "List"⟩] (draftDisk name) = (none, d) := by
  let root : Disk := draftDisk name ++ [(["out"], .directory)]
  let shared : Disk := root ++ [(["out", "setup.js"], .file setup)]
  have hroot : disk (.mkdir "out") (draftDisk name) = (.ok none, root) := rfl
  have hshared : disk (.write "out/setup.js" setup) root = (.ok none, shared) :=
    disk_write ["out", "setup.js"] (rfl : root.ensureDirectory _ = (none, root)) rfl nofun hsetup
  have hlist : disk (.write "out/list.test.js" test) shared =
      (.ok none, shared ++ [(["out", "list.test.js"], .file test)]) :=
    disk_write ["out", "list.test.js"] (rfl : shared.ensureDirectory _ = (none, shared)) rfl nofun
      htest
  rw [perform_cons_ok _ hroot, perform_cons_ok _ hshared, perform_cons_ok _ hlist]
  exact ⟨_, rfl⟩

/-- The suite of the collection is written. -/
lemma exists_perform_draft (name : String) :
    ∃ d, perform disk ((draftOutline name).opening ++ (draftOutline name).files)
      (draftDisk name) = (none, d) := by
  let setup := Suite.setupText "https://host" none false
  let test := Suite.testText false ⟨"List", "GET", "https://host/list", none, [], none⟩ 0 none {}
  have hsteps : (draftOutline name).opening ++ (draftOutline name).files =
      [⟨.mkdir "out", none⟩, ⟨.write "out/setup.js" setup, none⟩,
        ⟨.write "out/list.test.js" test, some "List"⟩] := rfl
  rw [hsteps]
  exact exists_perform_writes name (encodeFault?_joinedLines (by decide +kernel))
    (encodeFault?_joinedLines (by decide +kernel))

/-- The conversion of the collection succeeds. -/
lemma conversion_draft {name : String} (h : '\r' ∉ (draftCollection name).pretty 0) :
    conversion workHost {} {} draftPlaces (draftDisk name) = .ok (draftOutline name).outcome := by
  have hread : ReadsAs .ample (retrying {} disk) "c.json" (draftCollection name)
      ⟨draftDisk name, []⟩ ⟨draftDisk name, []⟩ :=
    readsAs_disk {} ["c.json"] rfl rfl h (fits_draftCollection name)
  obtain ⟨d, hperform⟩ := exists_perform_draft name
  obtain ⟨s, hretrying⟩ := exists_perform_retrying {} (by rintro n ⟨⟩; decide) hperform
  exact convert_of_perform hread (prepared_ample rfl rfl) rfl hretrying

/-- A name in brackets that is no style is reported as it is. -/
theorem plain_report_kept :
    let transcript := (convertAt workHost {} {} draftPlaces false (draftDisk "[Draft] [0]")).1
    Console.Laws terminal 80 ∧
      Reports transcript draftOpening 0 [.warning (draftMessage "[Draft] [0]")] := by
  intro transcript
  have hresult : conversion workHost {} {} draftPlaces (draftDisk "[Draft] [0]") =
      .ok (draftOutline "[Draft] [0]").outcome := conversion_draft (by decide +kernel)
  have hmessages : warningsOf (draftOutline "[Draft] [0]").outcome =
      [.warning (draftMessage "[Draft] [0]")] := by decide +kernel
  have hreported :=
    (report_verbatim_iff (laws_terminal 80 : workHost.console.Laws 80) {} {} draftPlaces false
      (draftDisk "[Draft] [0]")).1 _ rfl hresult
  have hreports := hreported.of_plain (by decide +kernel) (by rw [hmessages]; decide +kernel)
  have hbefore : (printAll terminal (openingOfRun (.parse "/work") draftPlaces false)).1 =
      draftOpening := by rw [printAll_draft]
  rw [hmessages] at hreports
  exact ⟨laws_terminal 80, hbefore ▸ hreports⟩

/-- A conversion that succeeds is reported as a failure if the name of an item closes a style. -/
theorem draft_report_breaks :
    let transcript := (convertAt workHost {} {} draftPlaces false (draftDisk "[/draft]")).1
    Console.Laws terminal 80 ∧
      (∃ outcome, conversion workHost {} {} draftPlaces (draftDisk "[/draft]") = .ok outcome ∧
        warningsOf outcome = [.warning (draftMessage "[/draft]")]) ∧
      transcript.exitCode = 1 ∧ transcript.printed = draftOpening ∧
      ¬ Reports transcript draftOpening 0 [.warning (draftMessage "[/draft]")] := by
  intro transcript
  have hresult : conversion workHost {} {} draftPlaces (draftDisk "[/draft]") =
      .ok (draftOutline "[/draft]").outcome := conversion_draft (by decide +kernel)
  have hmessages : warningsOf (draftOutline "[/draft]").outcome =
      [.warning (draftMessage "[/draft]")] := by decide +kernel
  have hnone : terminal (Message.markup (.warning (draftMessage "[/draft]"))) = none := by
    decide +kernel
  have hopening : ∀ m ∈ openingOfRun workHost.directory draftPlaces false,
      Printable workHost.console m := by decide +kernel
  have hbefore : (printAll workHost.console
      (openingOfRun workHost.directory draftPlaces false)).1 = draftOpening :=
    congrArg Prod.fst printAll_draft
  -- the first message after the conversion ends the run
  have hrun : transcript = ⟨1, draftOpening, some .unprintable⟩ := by
    simp only [transcript]
    rw [convertAt_of_printable hopening, hresult, hbefore, conclude, if_neg (by simp),
      closingMessages_eq, hmessages, List.singleton_append, Transcript.say, printAll]
    simp only [workHost, hnone, List.append_nil]
    rfl
  refine ⟨laws_terminal 80, ⟨_, hresult, hmessages⟩, by rw [hrun], by rw [hrun], ?_⟩
  rw [hrun]
  exact fun h => absurd h.1 (by simp)

end RequestSuite.Command
