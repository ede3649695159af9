/-
The scopes of a script, and what is read in them before any test runs.

* `Frame`, `Recent`, `Scope`: the brackets that are open, and what has just been read;
* `Scope.read`, `Scope.scan`: the scope after the skeleton of a text;
* `readsEarly`: whether a text names `response` outside the callbacks of `it` and of `before`;
* `Above.scan`, `early_scan`: inside a callback nothing is read early;
* `scan_within`: a text is read inside other brackets as it is read for itself;
* `scan_body`: what follows a callback's body does not depend on what stands in it.
-/
import RequestSuite.Proofs.Skeleton
import RequestSuite.Text.Word

namespace RequestSuite.Script

open Text (isBlank isWord)

/-- The brackets around a place. -/
inductive Frame
  /-- The arguments of a call of `it` or `before`, and whether the result of an arrow function among
  them is being read. -/
  | call (arrow : Bool)
  /-- The block that is the body of a callback of such a call. -/
  | body
  | other
  deriving DecidableEq, Repr

/-- What runs inside does not run before the calls of `it` and `before` are carried out. -/
def Frame.guards : Frame → Bool
  | .call arrow => arrow
  | .body => true
  | .other => false

/-- What has just been read, as far as it says what comes next. -/
inductive Recent
  /-- A dot: the next name is that of a member. -/
  | dot
  /-- Several dots: what comes next is spread. -/
  | dots
  /-- A name whose call takes a callback. -/
  | callee
  /-- The word `let`. -/
  | binding
  | closed
  | equals
  | arrow
  | other
  deriving DecidableEq, Repr

/-- The characters of names. -/
def isNameChar (c : Char) : Bool := isWord c || c == '$'

/-- What has just been read after a name. -/
def Recent.name (recent : Recent) (word : List Char) : Recent :=
  if recent = .dot then .other
  else if word = "it".toList || word = "before".toList then .callee
  else if word = "let".toList then .binding
  else .other

/-- What has just been read after a sign. -/
def Recent.sign (recent : Recent) (c : Char) : Recent :=
  if c = '.' then if recent = .dot || recent = .dots then .dots else .dot
  else if c = ')' then .closed
  else if c = '=' then .equals
  else if c = '>' && recent = .equals then .arrow
  else .other

/-- What is known of a place in a script. -/
structure Scope where
  /-- The open brackets, innermost first. -/
  frames : List Frame := []
  recent : Recent := .other
  /-- The name that is being read, backwards. -/
  word : List Char := []
  /-- Whether `response` has been read outside the callbacks. -/
  early : Bool := false
  deriving DecidableEq, Repr

/-- Whether a place lies in a callback. -/
def Scope.guarded (s : Scope) : Bool := s.frames.any Frame.guards

/-- Whether a name that comes next refers to a variable: it is no member, and it is not declared. -/
def Recent.refers (recent : Recent) : Bool := recent ≠ .dot && recent ≠ .binding

/-- The end of a name, if one is being read. -/
def Scope.endName (s : Scope) : Scope :=
  if s.word.isEmpty then s
  else
    { s with
      recent := s.recent.name s.word.reverse
      word := []
      early := s.early ||
        (s.word.reverse = "response".toList && s.recent.refers && !s.guarded) }

/-- Notes at the arguments of a call, if they are innermost, whether the result of an arrow function
follows. -/
def turn (arrow : Bool) : List Frame → List Frame
  | .call _ :: frames => .call arrow :: frames
  | frames => frames

/-- The frame that an opening bracket opens. -/
def Scope.opened (s : Scope) (c : Char) : Frame :=
  if c = '(' && s.recent = .callee then .call false
  else if c = '\x7b' && (s.recent = .closed || s.recent = .arrow) then
    match s.frames with
    | .call _ :: _ => .body
    | _ => .other
  else .other

/-- The brackets after a sign. -/
def Scope.framesAfter (s : Scope) (c : Char) : List Frame :=
  if isOpener c then s.opened c :: s.frames
  else if isCloser c then s.frames.tail
  else if c = ',' then turn false s.frames
  else if c = '>' && s.recent = .equals then turn true s.frames
  else s.frames

/-- The scope after a sign. -/
def Scope.sign (s : Scope) (c : Char) : Scope :=
  { s with frames := s.framesAfter c, recent := s.recent.sign c }

/-- The scope after one more character. -/
def Scope.read (s : Scope) (c : Char) : Scope :=
  if isBlank c then s.endName
  else if isNameChar c then { s with word := c :: s.word }
  else s.endName.sign c

/-- The scope after some characters. -/
def Scope.scan (s : Scope) (cs : List Char) : Scope := cs.foldl Scope.read s

/-- The scope at the end of a text, after a line feed. -/
def scopeOf (text : List Char) : Scope := Scope.scan {} (State.skeleton {} none (text ++ ['\n']))

/-- **Whether a text names the variable `response`** in code outside the callbacks that are given to
`it` and to `before`. A declaration by `let` does not count, nor does a member of that name. -/
def readsEarly (text : List Char) : Bool := (scopeOf text).early

variable {s t : Scope} {base fs : List Frame} {c : Char} {cs ds : List Char} {n m : ℕ}

lemma scan_append (s : Scope) (cs ds : List Char) : s.scan (cs ++ ds) = (s.scan cs).scan ds :=
  List.foldl_append

/-! ### Brackets -/

lemma not_nameChar_of_bracket (h : isOpener c = true ∨ isCloser c = true) :
    isNameChar c = false ∧ isBlank c = false := by
  simp only [isOpener, isCloser, Bool.or_eq_true, beq_iff_eq] at h
  rcases h with ((rfl | rfl) | rfl) | (rfl | rfl) | rfl <;> decide

@[simp] lemma endName_frames : s.endName.frames = s.frames := by
  unfold Scope.endName
  split_ifs <;> rfl

lemma read_opener (h : isOpener c = true) : ∃ f, (s.read c).frames = f :: s.frames := by
  obtain ⟨hname, hblank⟩ := not_nameChar_of_bracket (Or.inl h)
  exact ⟨_, by simp [Scope.read, hname, hblank, Scope.sign, Scope.framesAfter, h]; rfl⟩

lemma read_closer (h : isCloser c = true) : (s.read c).frames = s.frames.tail := by
  obtain ⟨hname, hblank⟩ := not_nameChar_of_bracket (Or.inr h)
  have ho : isOpener c = false := by
    by_contra ho
    rw [isCloser_of_isOpener (by simpa using ho)] at h
    simp at h
  simp [Scope.read, hname, hblank, Scope.sign, Scope.framesAfter, h, ho]

/-- Any other character changes the innermost frame at most. -/
lemma read_plain (ho : isOpener c = false) (hc : isCloser c = false) :
    (s.read c).frames = s.frames ∨ ∃ arrow, (s.read c).frames = turn arrow s.frames := by
  unfold Scope.read
  split_ifs
  · exact Or.inl endName_frames
  · exact Or.inl rfl
  · simp only [Scope.sign, Scope.framesAfter, ho, hc, endName_frames, Bool.false_eq_true, if_false]
    split_ifs
    · exact Or.inr ⟨false, rfl⟩
    · exact Or.inr ⟨true, rfl⟩
    · exact Or.inl rfl

/-- The innermost of some frames are no arguments of a call. -/
def Settled (base : List Frame) : Prop := ∀ arrow, base.head? ≠ some (.call arrow)

lemma turn_append (h : Settled base) (arrow : Bool) (fs : List Frame) :
    ∃ fs', turn arrow (fs ++ base) = fs' ++ base ∧ turn arrow fs = fs' ∧
      fs'.length = fs.length := by
  cases fs with
  | nil =>
      cases base with
      | nil => exact ⟨[], rfl, rfl, rfl⟩
      | cons f base =>
          cases f with
          | call a => exact absurd rfl (h a)
          | body => exact ⟨[], rfl, rfl, rfl⟩
          | other => exact ⟨[], rfl, rfl, rfl⟩
  | cons f fs =>
      cases f with
      | call a => exact ⟨.call arrow :: fs, rfl, rfl, rfl⟩
      | body => exact ⟨.body :: fs, rfl, rfl, rfl⟩
      | other => exact ⟨.other :: fs, rfl, rfl, rfl⟩

/-- A number of brackets is open inside others. -/
def Above (base : List Frame) (s : Scope) (n : ℕ) : Prop :=
  ∃ fs, s.frames = fs ++ base ∧ fs.length = n

lemma Above.read (hbase : Settled base) (h : Above base s n) (hc : ¬ (isCloser c = true ∧ n = 0)) :
    Above base (s.read c) (level n c) := by
  obtain ⟨fs, hfs, rfl⟩ := h
  by_cases ho : isOpener c = true
  · obtain ⟨f, hf⟩ := @read_opener s c ho
    exact ⟨f :: fs, by rw [hf, hfs, List.cons_append], by rw [level_opener ho, List.length_cons]⟩
  · by_cases hcl : isCloser c = true
    · cases fs with
      | nil => exact absurd ⟨hcl, rfl⟩ hc
      | cons f fs => exact ⟨fs, by rw [read_closer hcl, hfs]; rfl, by rw [level_closer hcl]; rfl⟩
    · rw [Bool.not_eq_true] at ho hcl
      rw [level_plain ho hcl]
      rcases @read_plain s c ho hcl with hf | ⟨arrow, hf⟩
      · exact ⟨fs, hf.trans hfs, rfl⟩
      · obtain ⟨fs', hfs', -, hlength⟩ := turn_append hbase arrow fs
        exact ⟨fs', by rw [hf, hfs, hfs'], hlength⟩

lemma Above.scan (hbase : Settled base) (h : Above base s n) (hcs : depthAfter? n cs = some m) :
    Above base (s.scan cs) m := by
  induction cs generalizing s n with
  | nil =>
      obtain rfl := Option.some.inj hcs
      exact h
  | cons c cs ih =>
      rw [depthAfter?_cons] at hcs
      split_ifs at hcs with hc
      exact ih (h.read hbase hc) hcs

/-! ### Inside a callback -/

lemma endName_early (h : s.guarded = true) : s.endName.early = s.early := by
  unfold Scope.endName
  split_ifs
  · rfl
  · simp [h]

lemma early_read (h : s.guarded = true) : (s.read c).early = s.early := by
  unfold Scope.read
  split_ifs
  · exact endName_early h
  · rfl
  · exact endName_early h

lemma early_scan (hbase : Settled base) (hguard : base.any Frame.guards = true)
    (h : Above base s n) (hcs : depthAfter? n cs = some m) : (s.scan cs).early = s.early := by
  induction cs generalizing s n with
  | nil => rfl
  | cons c cs ih =>
      rw [depthAfter?_cons] at hcs
      split_ifs at hcs with hc
      have hguarded : s.guarded = true := by
        obtain ⟨fs, hfs, -⟩ := h
        rw [Scope.guarded, hfs, List.any_append, hguard, Bool.or_true]
      exact (ih (h.read hbase hc) hcs).trans (early_read hguarded)

/-! ### Inside other brackets -/

/-- The same scope inside other brackets, after what may have been read early there. -/
def Scope.within (s : Scope) (base : List Frame) (early : Bool) : Scope :=
  { s with frames := s.frames ++ base, early := early || s.early }

lemma endName_within (hguard : base.any Frame.guards = false) (early : Bool) :
    (s.within base early).endName = s.endName.within base early := by
  unfold Scope.endName Scope.within
  simp only
  split_ifs
  · rfl
  · simp only [Scope.guarded, List.any_append, hguard, Bool.or_false, Bool.or_assoc]

lemma opened_within (hbase : Settled base) (early : Bool) (c : Char) :
    (s.within base early).opened c = s.opened c := by
  unfold Scope.opened Scope.within
  simp only
  split_ifs
  · rfl
  · cases s.frames with
    | nil =>
        cases base with
        | nil => rfl
        | cons f base =>
            cases f with
            | call a => exact absurd rfl (hbase a)
            | body => rfl
            | other => rfl
    | cons f fs => cases f <;> rfl
  · rfl

/-- A character is read inside other brackets as it is read for itself, unless it closes them. -/
lemma read_within (hbase : Settled base) (hguard : base.any Frame.guards = false) (early : Bool)
    (hc : ¬ (isCloser c = true ∧ s.frames = [])) :
    (s.within base early).read c = (s.read c).within base early := by
  unfold Scope.read
  rw [endName_within hguard]
  split_ifs
  · rfl
  · rfl
  · have hframes : (s.endName.within base early).framesAfter c =
        s.endName.framesAfter c ++ base := by
      unfold Scope.framesAfter
      rw [opened_within hbase]
      simp only [Scope.within, endName_frames]
      obtain ⟨_, hfalse, hfalse', -⟩ := turn_append hbase false s.frames
      obtain ⟨_, htrue, htrue', -⟩ := turn_append hbase true s.frames
      split_ifs with ho hcl
      · rfl
      · cases hfs : s.frames with
        | nil => exact absurd ⟨hcl, hfs⟩ hc
        | cons f fs => rfl
      · rw [hfalse, hfalse']
      · rw [htrue, htrue']
      · rfl
    rw [Scope.sign, hframes]
    rfl

/-- **A text whose brackets match is read inside other brackets as it is read for itself.** -/
lemma scan_within (hbase : Settled base) (hguard : base.any Frame.guards = false) (early : Bool)
    (hcs : depthAfter? s.frames.length cs = some m) :
    (s.within base early).scan cs = (s.scan cs).within base early := by
  induction cs generalizing s with
  | nil => rfl
  | cons c cs ih =>
      rw [depthAfter?_cons] at hcs
      split_ifs at hcs with hc
      have hlength : (s.read c).frames.length = level s.frames.length c := by
        obtain ⟨fs, hfs, hlength⟩ := Above.read (fun a h => by simp at h)
          (⟨s.frames, (List.append_nil _).symm, rfl⟩ : Above [] s s.frames.length) hc
        rw [← hlength, hfs, List.append_nil]
      have hread := read_within hbase hguard early
        (fun h => hc ⟨h.1, List.length_eq_zero_iff.mpr h.2⟩)
      calc (s.within base early).scan (c :: cs)
          = ((s.within base early).read c).scan cs := rfl
        _ = ((s.read c).within base early).scan cs := by rw [hread]
        _ = ((s.read c).scan cs).within base early := ih (hlength ▸ hcs)

lemma length_scan (hcs : depthAfter? s.frames.length cs = some m) :
    (s.scan cs).frames.length = m := by
  obtain ⟨fs, hfs, hlength⟩ := Above.scan (fun a h => by simp at h)
    (⟨s.frames, (List.append_nil _).symm, rfl⟩ : Above [] s s.frames.length) hcs
  rw [hfs, List.append_nil, hlength]

lemma depthAfter?_scan (h : depthAfter? s.frames.length (cs ++ ds) = some m) :
    depthAfter? s.frames.length cs = some (s.scan cs).frames.length ∧
      depthAfter? (s.scan cs).frames.length ds = some m := by
  rw [depthAfter?_append] at h
  obtain ⟨d, hcs, hds⟩ := Option.bind_eq_some_iff.mp h
  rw [length_scan hcs]
  exact ⟨hcs, hds⟩

/-! ### After a callback -/

lemma sign_closer (h : isCloser c = true) (recent recent' : Recent) :
    recent.sign c = recent'.sign c := by
  simp only [isCloser, Bool.or_eq_true, beq_iff_eq] at h
  rcases h with (rfl | rfl) | rfl <;> rfl

@[simp] lemma endName_word : s.endName.word = [] := by
  unfold Scope.endName
  split_ifs with h
  · exact List.isEmpty_iff.mp h
  · rfl

lemma Above.guarded (h : Above (.body :: base) s n) : s.guarded = true := by
  obtain ⟨fs, hfs, -⟩ := h
  simp [Scope.guarded, hfs, Frame.guards]

/-- Where a callback's body closes, nothing is left of what stands in it. -/
lemma read_body_closer (hs : Above (.body :: base) s 0) (ht : Above (.body :: base) t 0)
    (he : s.early = t.early) (hc : isCloser c = true) : s.read c = t.read c := by
  have hframes {s : Scope} (h : Above (.body :: base) s 0) : (s.read c).frames = base := by
    obtain ⟨fs, hfs, hlength⟩ := h
    obtain rfl := List.length_eq_zero_iff.mp hlength
    rw [read_closer hc, hfs]
    rfl
  have hearly : (s.read c).early = (t.read c).early := by
    rw [early_read hs.guarded, early_read ht.guarded, he]
  have hsame := (hframes hs).trans (hframes ht).symm
  obtain ⟨hname, hblank⟩ := not_nameChar_of_bracket (Or.inr hc)
  simp only [Scope.read, hname, hblank, Bool.false_eq_true, if_false, Scope.sign, endName_word] at *
  rw [hsame, hearly, sign_closer hc s.endName.recent t.endName.recent]

/-- **What follows a callback's body is read in the same way whatever stands in the body.** -/
lemma scan_body (hs : Above (.body :: base) s n) (ht : Above (.body :: base) t n)
    (he : s.early = t.early) (hcs : depthAfter? n cs = none) : s.scan cs = t.scan cs := by
  have hbase : Settled (.body :: base) := fun a h => by simp at h
  induction cs generalizing s t n with
  | nil => simp [depthAfter?] at hcs
  | cons c cs ih =>
      by_cases hc : isCloser c = true ∧ n = 0
      · obtain ⟨hc, rfl⟩ := hc
        exact congrArg (fun s : Scope => s.scan cs) (read_body_closer hs ht he hc)
      · rw [depthAfter?_cons, if_neg hc] at hcs
        have hearly : (s.read c).early = (t.read c).early := by
          rw [early_read hs.guarded, early_read ht.guarded, he]
        exact ih (hs.read hbase hc) (ht.read hbase hc) hearly hcs

/-! ### Between statements -/

/-- A statement may have ended. -/
def Recent.rests (recent : Recent) : Prop := recent = .closed ∨ recent = .other

instance (recent : Recent) : Decidable recent.rests := inferInstanceAs (Decidable (_ ∨ _))

/-- Two scopes differ at most in what was read before the name that is being read, where a statement
may have ended. -/
def Alike (s t : Scope) : Prop :=
  s = t ∨ s.frames = t.frames ∧ s.word = t.word ∧ s.early = t.early ∧ s.word ≠ [] ∧
    s.recent.rests ∧ t.recent.rests

lemma Alike.endName (h : Alike s t) : s.endName = t.endName := by
  rcases h with rfl | ⟨hframes, hword, hearly, hne, hs, ht⟩
  · rfl
  · have hguarded : s.guarded = t.guarded := by rw [Scope.guarded, hframes]; rfl
    have hrefers {recent : Recent} (h : recent.rests) : recent.refers = true := by
      rcases h with rfl | rfl <;> rfl
    have hname {recent : Recent} (h : recent.rests) (word : List Char) :
        recent.name word = Recent.other.name word := by rcases h with rfl | rfl <;> rfl
    have hnot : ¬ t.word.isEmpty = true := by
      rw [← hword]
      simpa using hne
    unfold Scope.endName
    rw [hword, if_neg hnot, if_neg hnot, hname hs, hname ht, hrefers hs, hrefers ht, hguarded,
      hframes, hearly]

lemma Alike.read (h : Alike s t) (c : Char) : Alike (s.read c) (t.read c) := by
  unfold Scope.read
  split_ifs
  · exact Or.inl h.endName
  · rcases h with rfl | ⟨hframes, hword, hearly, hne, hs, ht⟩
    · exact Or.inl rfl
    · exact Or.inr ⟨hframes, by rw [hword], hearly, by simp, hs, ht⟩
  · exact Or.inl (by rw [h.endName])

lemma Alike.scan (h : Alike s t) (cs : List Char) : Alike (s.scan cs) (t.scan cs) := by
  induction cs generalizing s t with
  | nil => exact h
  | cons c cs ih => exact ih (h.read c)

end RequestSuite.Script
