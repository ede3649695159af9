/-
What the tests of a script refer to when they are put together.

* `mem_skeleton`: what is seen of a text;
* `fresh_of_brace`: a block starts at a place between two names;
* `refersTo_inject_block`, `refersTo_inject_expression`: a test with a set-up in it refers to what
  the test or the set-up refers to;
* `refers_returned`, `refers_block_end`: the expression of such a test, where it is returned;
* `refersTo_inject`: the set-up stands only in a test whose callback is written there;
* `refersTo_intercalate`: statements, one after another.
-/
import RequestSuite.Proofs.EarlyReads
import RequestSuite.Proofs.Literals

namespace RequestSuite.Script

open Text (isBlank splitLines joinLines trim trimStart trimEnd)

variable {name text test setup block rest cs ds : List Char} {blocks : List (List Char)}
  {brace start stop : ℕ} {c d : Char} {s : State} {scope : Scope}

lemma refersTo_eq (name text : List Char) :
    refersTo name text = Scope.refers {} name (bones true (text ++ ['\n'])) := rfl

lemma fresh_scopeOf (h : (scopeOf text).recent.loose) : (scopeOf text).Fresh :=
  ⟨word_scopeOf text, h⟩

/-! ### Small steps -/

lemma Scope.Fresh.lineFeed (h : scope.Fresh) : scope.scan ['\n'] = scope :=
  scan_blanks_of_idle h.1 lineFeed_blank

lemma fresh_read_edge (hc : isCloser c = true ∨ c = ',') : (scope.read c).Fresh := by
  rcases hc with hc | rfl
  · obtain ⟨hname, hblank⟩ := not_nameChar_of_bracket (Or.inr hc)
    refine fresh_read hname hblank ?_
    rintro rfl
    exact absurd hc (by decide)
  · exact fresh_read (by decide) (by decide) (by decide)

lemma endsName_of_edge (hc : isCloser c = true ∨ c = ',') : endsName c = true := by
  rcases hc with hc | rfl
  · rw [endsName, (not_nameChar_of_bracket (Or.inr hc)).1, Bool.not_false, Bool.or_true]
  · decide

/-- What is seen of a text are its characters, spaces and braces. -/
lemma mem_skeleton {after : Option Char} (h : d ∈ s.skeleton after cs) :
    d ∈ cs ∨ d = ' ' ∨ d = '\x7b' := by
  induction cs generalizing s with
  | nil => simp [State.skeleton] at h
  | cons c cs ih =>
      rw [State.skeleton] at h
      rcases List.mem_append.mp h with h | h
      · unfold State.shown at h
        split at h
        · split at h
          · exact Or.inr (Or.inl (List.mem_singleton.mp h))
          · exact Or.inr (Or.inl (List.mem_singleton.mp h))
          · exact Or.inl (List.mem_singleton.mp h ▸ List.mem_cons_self)
        · split_ifs at h
          · exact Or.inr (Or.inr (List.mem_singleton.mp h))
          · cases h
      · rcases ih h with hmem | hmem
        · exact Or.inl (List.mem_cons_of_mem _ hmem)
        · exact Or.inr hmem

/-! ### A set-up in a block -/

/-- A callback's block starts at a place between two names. -/
lemma fresh_of_brace (h : callback test = .block brace) :
    (Scope.scan {} (bones true (test.take (brace + 1)))).Fresh := by
  obtain ⟨⟨last, hreads, -⟩, -⟩ := mode_of_mem_code (mem_of_callbackIn_block h)
  have hbrace := getElem?_of_callback_block h
  have htake : test.take (brace + 1) = test.take brace ++ ['\x7b'] := by
    rw [List.take_add_one, hbrace]
    rfl
  have hshown : (stateAt test brace).shown '\x7b' none = ['\x7b'] := by
    rw [State.shown, hreads]
    simp [opened?]
  have hfront : bones true (test.take (brace + 1)) =
      (ready true).skeleton (some '\x7b') (test.take brace) ++ ['\x7b'] := by
    rw [bones, htake, State.skeleton_append]
    refine congrArg _ ?_
    rw [stateAt, hbrace] at hshown
    rw [State.skeleton, State.skeleton, List.append_nil]
    exact hshown
  rw [hfront, scan_append]
  exact fresh_read (s := Scope.scan {} _) (c := '\x7b') (by decide) (by decide) (by decide)

/-- A set-up on lines of its own refers to what it refers to for itself. -/
lemma refers_opened (hname : name ≠ []) (hsetup : Closed setup)
    (hrests : (scopeOf setup).recent.loose) (hscope : scope.Fresh) (cs : List Char) :
    scope.refers name
        (['\n'] ++
          (bones true (joinLines ((splitLines setup).map (indent ++ ·)) ++ ['\n']) ++ cs)) =
      (refersTo name setup || Scope.refers {} name cs) := by
  have hsame := @sameReading_setup setup {} hsetup.lined rfl
  have hfeed : scope.refers name ['\n'] = false :=
    refers_signs_of_idle hname hscope.1 fun c hc => endsName_of_isBlank (lineFeed_blank c hc)
  have hrefers := hsame.refers none name hname
  have hscan := hsame.scan none
  generalize joinLines ((splitLines setup).map (indent ++ ·)) ++ ['\n'] = lines at *
  have hfresh : (Scope.scan {} (bones true lines)).Fresh := by
    rw [bones, ← hscan]
    exact fresh_scopeOf hrests
  rw [refers_append, refers_append, hfeed, hscope.lineFeed, hscope.refers,
    (hscope.scan hfresh).refers, Bool.false_or, bones, ← hrefers]
  rfl

/-- **A test whose callback has a block** refers with a set-up in it to what one of them refers
to. -/
lemma refersTo_inject_block (hname : name ≠ []) (htest : Closed test) (hsetup : Closed setup)
    (hrests : (scopeOf setup).recent.loose) (hne : setup.isEmpty = false)
    (hcallback : callback test = .block brace) (hopens : OpensBody test brace setup) :
    refersTo name (inject test setup) = (refersTo name test || refersTo name setup) := by
  obtain ⟨blanks, rest, hparts⟩ := exists_parted htest hne hcallback hopens
  have hfront := fresh_of_brace hcallback
  obtain ⟨hlexed, -, -⟩ := hopens
  generalize test.take (brace + 1) = front at *
  obtain ⟨hbones, -⟩ := bones_opened hsetup hparts.blind hlexed hparts.seam hparts.closes
  rw [← hparts.injected] at hbones
  have hblanks : (Scope.scan {} (bones true front)).refers name blanks = false :=
    refers_signs_of_idle hname hfront.1 fun c hc => endsName_of_isBlank (hparts.blank c hc)
  have htext : refersTo name test = (Scope.refers {} name (bones true front) ||
      Scope.refers {} name (bones true (rest ++ ['\n']))) := by
    rw [refersTo_eq, hparts.bones, refers_append, refers_append, hblanks,
      scan_blanks_of_idle hfront.1 hparts.blank, hfront.refers, Bool.false_or]
  rw [refersTo_eq, hbones, refers_append, refers_opened hname hsetup hrests hfront, htext,
    Bool.or_assoc, Bool.or_comm (refersTo name setup)]

/-! ### A set-up in front of an expression -/

/-- A text between the white space at its ends. -/
lemma exists_trim (text : List Char) : ∃ lead trail, (∀ c ∈ lead, isBlank c = true) ∧
    (∀ c ∈ trail, isBlank c = true) ∧ text = lead ++ (trim text ++ trail) ∧
    (trimStart text).head? = (trim text ++ trail).head? := by
  have hstart : text = text.takeWhile isBlank ++ trimStart text :=
    (List.takeWhile_append_dropWhile (p := isBlank)).symm
  have hend : trimStart text =
      trim text ++ ((trimStart text).reverse.takeWhile isBlank).reverse := by
    have hsplit := List.takeWhile_append_dropWhile (p := isBlank) (l := (trimStart text).reverse)
    rw [trim, trimEnd, Text.dropEndWhile, ← List.reverse_append, hsplit, List.reverse_reverse]
  refine ⟨text.takeWhile isBlank, _, List.all_eq_true.mp List.all_takeWhile, fun c hc => ?_, ?_,
    congrArg List.head? hend⟩
  · exact List.all_eq_true.mp List.all_takeWhile c (List.mem_reverse.mp hc)
  · rw [← hend]
    exact hstart

/-- A text that starts with no slash starts with none where it is returned. -/
lemma not_startsWithSlash_trim (h : ¬ StartsWithSlash text) :
    ¬ StartsWithSlash (trim text ++ [';', '\n']) := by
  obtain ⟨lead, trail, -, -, -, hhead⟩ := exists_trim text
  cases htrim : trim text with
  | nil => simp [StartsWithSlash, isBlank]
  | cons c core =>
      rw [htrim, List.cons_append, List.head?_cons] at hhead
      have hblank : isBlank c = false := by
        have := List.head?_dropWhile_not isBlank text
        rw [show text.dropWhile isBlank = trimStart text from rfl, hhead] at this
        simpa using this
      intro hslash
      rw [StartsWithSlash, List.cons_append,
        List.dropWhile_cons_of_neg (by simp [hblank])] at hslash
      exact h (hhead.trans hslash)

/-- Signs after a text in code end its last name, whichever they are. -/
lemma refers_ending {s : State} {scope : Scope} (hname : name ≠ []) (hsound : Sound s scope)
    (hcs : ∀ c ∈ cs, endsName c = true) (hc : endsName c = true) :
    scope.refers name (s.skeleton none cs ++ [c]) =
      scope.refers name (s.skeleton none [';', '\n']) := by
  have hseen {cs : List Char} (hcs : ∀ c ∈ cs, endsName c = true) :
      ∀ d ∈ s.skeleton none cs, endsName d = true := by
    intro d hd
    rcases mem_skeleton hd with hd | rfl | rfl
    · exact hcs d hd
    · decide
    · decide
  have hsigns : ∀ d ∈ [';', '\n'], endsName d = true := by decide
  have hleft : ∀ d ∈ s.skeleton none cs ++ [c], endsName d = true :=
    List.forall_mem_append.mpr ⟨hseen hcs, by simpa using hc⟩
  rcases hsound.word with ⟨last, hmode⟩ | hidle
  · -- in code the semicolon is seen
    have hshown : s.shown ';' (some '\n') = [';'] := by
      simp [State.shown, hmode, Mode.readsCode?, opened?]
    rw [refers_signs hname hleft, refers_signs hname (hseen hsigns), State.skeleton,
      List.head?_cons, Option.some_or, hshown]
    simp
  · rw [refers_signs_of_idle hname hidle hleft, refers_signs_of_idle hname hidle (hseen hsigns)]

/-- A text, and what follows it, where the latter starts with a character that changes nothing in
the former. -/
lemma bones_append_skeleton (hnext : ∀ d, ds.head? = some d → d ∉ ['/', '*', '\x7b']) :
    bones true (cs ++ ds) = bones true cs ++ ((ready true).through none cs).skeleton none ds := by
  obtain ⟨hthrough, hskeleton⟩ := @State.through_next (ready true) ds.head? cs hnext
  rw [bones, State.skeleton_append, Option.or_none, hthrough, hskeleton]
  rfl

/-- The word in front of an expression that is returned is read for itself. -/
lemma bones_return (hslash : ¬ StartsWithSlash (text ++ [';', '\n'])) :
    bones true ("return ".toList ++ text ++ [';'] ++ ['\n']) =
      "return ".toList ++ bones true (text ++ [';', '\n']) := by
  have hblind : Blind "return ".toList := .of_all rfl
  have hleads : Leads true "return ".toList false := by decide
  have hline : "return ".toList ++ text ++ [';'] ++ ['\n'] =
      "return ".toList ++ (text ++ [';', '\n']) := by simp
  rw [hline, (bones_append hblind hleads _).1,
    (bones_start hslash (fun h => absurd (h ';' (by simp)) (by decide)) false true).1]
  rfl

lemma refers_return (hname : name ≠ []) (hreturn : name ≠ "return".toList) (cs : List Char) :
    Scope.refers {} name ("return ".toList ++ cs) = Scope.refers {} name cs := by
  have hfresh : (Scope.scan {} "return ".toList).Fresh := by decide
  have hword : Scope.refers {} name "return ".toList = false := by
    have hends : name ≠ ['r', 'e', 't', 'u', 'r', 'n'] := hreturn
    simp [Scope.refers, Scope.ends, Scope.read, endsName, isNameChar, Text.isWord,
      Text.isAlphanumeric, isBlank, hends.symm, hname.symm]
  rw [refers_append, hword, hfresh.refers, Bool.false_or]

/-- **A line that returns an expression** refers to what the expression refers to. -/
lemma refers_returned (hname : name ≠ []) (hreturn : name ≠ "return".toList)
    (hslash : ¬ StartsWithSlash text) (hc : endsName c = true) :
    Scope.refers {} name (bones true text ++ [c]) =
      Scope.refers {} name
        (bones true ("return ".toList ++ trim text ++ [';'] ++ ['\n'])) := by
  have hslash' := not_startsWithSlash_trim hslash
  obtain ⟨lead, trail, hlead, htrail, htext, -⟩ := exists_trim text
  generalize trim text = core at *
  subst htext
  -- the expression up to the white space at its end, and what follows it
  have hblank : ∀ d, trail.head? = some d → d ∉ ['/', '*', '\x7b'] := by
    intro d hd hmem
    have hd := htrail d (List.mem_of_head? hd)
    simp only [List.mem_cons, List.not_mem_nil, or_false] at hmem
    rcases hmem with rfl | rfl | rfl <;> exact absurd hd (by decide)
  have hcore := @bones_append_skeleton core trail hblank
  have hline := @bones_append_skeleton core [';', '\n'] (by simp)
  have hsound : Sound ((ready true).through none core) (Scope.scan {} (bones true core)) :=
    (lineStart_ready true rfl).toSound.through none core
  have hleading : Scope.refers {} name lead = false :=
    refers_signs_of_idle hname rfl fun d hd => endsName_of_isBlank (hlead d hd)
  calc Scope.refers {} name (bones true (lead ++ (core ++ trail)) ++ [c])
      = Scope.refers {} name (bones true core ++
          (((ready true).through none core).skeleton none trail ++ [c])) := by
        rw [(bones_blanks hlead true _).1, hcore, List.append_assoc, refers_append, hleading,
          scan_blanks_of_idle rfl hlead, Bool.false_or, List.append_assoc]
    _ = Scope.refers {} name (bones true (core ++ [';', '\n'])) := by
        rw [refers_append,
          refers_ending hname hsound (fun d hd => endsName_of_isBlank (htrail d hd)) hc,
          ← refers_append, ← hline]
    _ = Scope.refers {} name (bones true ("return ".toList ++ core ++ [';'] ++ ['\n'])) := by
        rw [bones_return hslash', refers_return hname hreturn]

/-- The end of a block refers to what the line in front of its brace and what follows it refer to.
-/
lemma refers_block_end (hname : name ≠ []) (hc : isCloser c = true ∨ c = ',') (line : List Char) :
    Scope.refers {} name (indent ++ (bones true (line ++ ['\n']) ++ '\x7d' :: c :: cs)) =
      (refersTo name line || Scope.refers {} name cs) := by
  have hbrace : ((scopeOf line).read '\x7d').word = [] := word_read (by decide)
  have hedge : (((scopeOf line).read '\x7d').read c).Fresh := fresh_read_edge hc
  have hclose : (scopeOf line).refers name ('\x7d' :: c :: cs) = Scope.refers {} name cs := by
    rw [Scope.refers, Scope.refers, ends_of_idle hname (word_scopeOf line),
      ends_of_idle hname hbrace, hedge.refers, Bool.false_or, Bool.false_or]
  have hindent : ∀ d ∈ indent, endsName d = true := fun d hd =>
    endsName_of_isBlank (isBlank_of_mem_indent d hd)
  rw [refers_append, refers_signs_of_idle hname rfl hindent,
    scan_blanks_of_idle rfl isBlank_of_mem_indent, Bool.false_or, refers_append, ← scopeOf_eq,
    hclose]
  rfl

/-- **A test whose callback has an expression** refers with a set-up in it to what one of them
refers to. -/
lemma refersTo_inject_expression (hname : name ≠ []) (hreturn : name ≠ "return".toList)
    (hsetup : Closed setup) (hrests : (scopeOf setup).recent.loose) (hne : setup.isEmpty = false)
    (hcallback : callback test = .expression start stop) (hresult : GivesResult test start stop)
    (hslash : ¬ StartsWithSlash (slice test start stop)) :
    refersTo name (inject test setup) = (refersTo name test || refersTo name setup) := by
  obtain ⟨c, back, hparts⟩ := @exists_answering test setup start stop hne hcallback hresult
  obtain ⟨-, ⟨early, hentered⟩, -, -, -, -⟩ := hresult
  have hexpression := refers_returned hname hreturn hslash (endsName_of_edge hparts.edge)
  generalize "return ".toList ++ trim (slice test start stop) ++ [';'] = line at *
  generalize slice test start stop = result at *
  generalize test.take start = front at *
  obtain ⟨hbones, -⟩ :=
    bones_opened hsetup hparts.blind hparts.lexed (Or.inr hparts.seam) hparts.closes
  rw [← hparts.injected, hparts.bones_front, hparts.bones_rest] at hbones
  set tail := bones (regexMayFollow (some c)) (back ++ ['\n']) with htail
  have hloose : (Recent.arrow).loose := by decide
  have harrow : (Scope.scan {} (bones true front)).Fresh := by
    rw [hentered]
    exact ⟨rfl, hloose⟩
  -- the test up to the end of the call, and the block up to the same place
  have htest : refersTo name test = (Scope.refers {} name (bones true front) ||
      (Scope.refers {} name (bones true result ++ [c]) || Scope.refers {} name tail)) := by
    have hedge : (Scope.scan {} (bones true result ++ [c])).Fresh := by
      rw [scan_append]
      exact fresh_read_edge hparts.edge
    rw [refersTo_eq, hparts.bones, refers_append, harrow.refers, List.append_cons, refers_append,
      hedge.refers]
  have hopening : (Scope.scan {} (bones true front)).refers name " \x7b".toList = false :=
    refers_signs_of_idle hname harrow.1 (by decide)
  have hopened : ((Scope.scan {} (bones true front)).scan " \x7b".toList).Fresh :=
    harrow.scan (by decide)
  rw [refersTo_eq, hbones, List.append_assoc, refers_append, refers_append, hopening,
    refers_opened hname hsetup hrests hopened, refers_block_end hname hparts.edge,
    refersTo_eq name line, ← hexpression, htest, Bool.false_or, Bool.or_assoc,
    Bool.or_comm (refersTo name setup), Bool.or_assoc]

/-! ### The set-up in a test -/

/-- **A test refers with a set-up in it to what it refers to without, and to what the set-up refers
to, unless no callback is written in it.** -/
lemma refersTo_inject (hname : name ≠ []) (hreturn : name ≠ "return".toList) (htest : Closed test)
    (hsetup : Closed setup) (hrests : (scopeOf setup).recent.loose)
    (hplaced : setup ≠ [] → Placed test setup)
    (hslash : ∀ start stop, callback test = .expression start stop →
      ¬ StartsWithSlash (slice test start stop)) :
    refersTo name (inject test setup) =
      (refersTo name test || (refersTo name setup && decide (callback test ≠ .missing))) := by
  by_cases hempty : setup = []
  · have hnone : refersTo name ([] : List Char) = false :=
      refers_signs_of_idle hname rfl (by decide)
    simp [inject, hempty, hnone]
  · have hne : setup.isEmpty = false := by simpa using hempty
    have hplace := hplaced hempty
    unfold Placed at hplace
    cases hcallback : callback test with
    | missing => simp [inject, hne, hcallback]
    | block brace =>
        rw [hcallback] at hplace
        rw [refersTo_inject_block hname htest hsetup hrests hne hcallback hplace]
        simp
    | expression start stop =>
        rw [hcallback] at hplace
        rw [refersTo_inject_expression hname hreturn hsetup hrests hne hcallback hplace
          (hslash start stop hcallback)]
        simp

/-! ### Statements, one after another -/

lemma refersTo_append (hname : name ≠ []) (hblock : Statement block)
    (hstart : rest.head? = some 'i') :
    refersTo name (block ++ "\n\n".toList ++ rest) =
      (refersTo name block || refersTo name rest) := by
  have hfresh := fresh_scopeOf (loose_of_rests hblock.rests)
  have hfeed : (scopeOf block).read '\n' = scopeOf block := hfresh.lineFeed
  rw [refersTo_eq, (bones_statement hblock hstart).1, refers_append, ← scopeOf_eq, Scope.refers,
    ends_of_idle hname hfresh.1, hfeed, hfresh.refers, Bool.false_or]
  rfl

/-- **Statements with empty lines between them** refer to what one of them refers to. -/
lemma refersTo_intercalate (hname : name ≠ []) (h : ∀ block ∈ blocks, Statement block) :
    refersTo name (List.intercalate "\n\n".toList blocks) = blocks.any (refersTo name) := by
  induction blocks with
  | nil => exact refers_signs_of_idle hname rfl (by decide)
  | cons block blocks ih =>
      obtain ⟨hblock, hblocks⟩ := List.forall_mem_cons.mp h
      cases blocks with
      | nil => rw [List.intercalate_singleton, List.any_cons, List.any_nil, Bool.or_false]
      | cons next blocks =>
          obtain ⟨-, hstart, -⟩ := readsEarly_intercalate (List.cons_ne_nil _ _) hblocks
          rw [List.intercalate_cons_cons, List.any_cons, ← ih hblocks]
          exact refersTo_append hname hblock hstart

end RequestSuite.Script
