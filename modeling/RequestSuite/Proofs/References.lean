/-
The variables that a script refers to.

* `Scope.ends`, `Scope.refers`, `refersTo`: whether the code of a text refers to a variable;
* `Recent.loose`, `Kin`: places where the same names are references; `Kin.refers`;
* `Scope.Fresh`: a place between two names, with no name of its own ahead;
* `refers_signs`, `refers_word`, `infix_of_refers`: what signs, a word and a text can refer to.
-/
import RequestSuite.Proofs.Scopes

namespace RequestSuite.Script

open Text (isBlank)

/-- A character that is part of no name. -/
def endsName (c : Char) : Bool := isBlank c || !isNameChar c

/-- Whether a character ends a name that refers to a variable. -/
def Scope.ends (s : Scope) (name : List Char) (c : Char) : Bool :=
  endsName c && s.word.reverse = name && s.recent.refers

/-- Whether some characters refer to a variable. -/
def Scope.refers (s : Scope) (name : List Char) : List Char → Bool
  | [] => false
  | c :: cs => s.ends name c || (s.read c).refers name cs

/-- **Whether a text refers to a variable** in its code, the substitutions of templates included. A
member of that name does not count, nor does a declaration by `let`; any other use of the name
does. -/
def refersTo (name text : List Char) : Bool :=
  Scope.refers {} name (State.skeleton {} none (text ++ ['\n']))

variable {s t : Scope} {name cs : List Char} {c : Char}

lemma refers_append (s : Scope) (name cs ds : List Char) :
    s.refers name (cs ++ ds) = (s.refers name cs || (s.scan cs).refers name ds) := by
  induction cs generalizing s with
  | nil => rfl
  | cons c cs ih => rw [List.cons_append, Scope.refers, Scope.refers, ih, Bool.or_assoc]; rfl

/-! ### Places where the same names are references -/

/-- What has been read does not change what the next name refers to. -/
def Recent.loose (recent : Recent) : Prop := recent ∉ [.dot, .dots, .binding]

instance (recent : Recent) : Decidable recent.loose := inferInstanceAs (Decidable (_ ∉ _))

lemma loose_of_rests {recent : Recent} (h : recent.rests) : recent.loose := by
  rcases h with rfl | rfl <;> decide

/-- Two places where the same names are references. The brackets around them do not matter. -/
def Kin (s t : Scope) : Prop :=
  s.word = t.word ∧ (s.recent = t.recent ∨ s.recent.loose ∧ t.recent.loose)

/-- A place between two names, where the next name is a reference. -/
def Scope.Fresh (s : Scope) : Prop := s.word = [] ∧ s.recent.loose

instance (s : Scope) : Decidable s.Fresh := inferInstanceAs (Decidable (_ ∧ _))

lemma Kin.of_fresh (hs : s.Fresh) (ht : t.Fresh) : Kin s t :=
  ⟨hs.1.trans ht.1.symm, Or.inr ⟨hs.2, ht.2⟩⟩

lemma Kin.fresh (h : Kin s t) (hs : s.Fresh) : t.Fresh := by
  refine ⟨h.1.symm.trans hs.1, ?_⟩
  rcases h.2 with hrecent | ⟨-, ht⟩
  · exact hrecent ▸ hs.2
  · exact ht

lemma name_of_loose {recent : Recent} (h : recent.loose) (word : List Char) :
    recent.name word = Recent.other.name word := by
  have hdot : recent ≠ .dot := by
    rintro rfl
    exact absurd h (by decide)
  rw [Recent.name, if_neg hdot]
  rfl

/-- After a sign it does not matter what stood before it, unless it was a dot. -/
lemma sign_of_loose {recent : Recent} (h : recent.loose) (c : Char) :
    recent.sign c = .dot ∧ c = '.' ∨ (recent.sign c).loose ∧ c ≠ '.' := by
  by_cases hc : c = '.'
  · refine Or.inl ⟨?_, hc⟩
    have hdots : ¬ (recent = .dot || recent = .dots) = true := by
      intro hrecent
      rcases Bool.or_eq_true_iff.mp hrecent with hrecent | hrecent <;>
        rw [of_decide_eq_true hrecent] at h <;> exact absurd h (by decide)
    rw [Recent.sign, if_pos hc, if_neg hdots]
  · refine Or.inr ⟨?_, hc⟩
    rw [Recent.sign, if_neg hc]
    split_ifs <;> decide

lemma Kin.endName (h : Kin s t) : Kin s.endName t.endName := by
  obtain ⟨hword, hrecent⟩ := h
  unfold Scope.endName
  rw [hword]
  split_ifs with hempty
  · exact ⟨hword, hrecent⟩
  · refine ⟨rfl, Or.inl ?_⟩
    rcases hrecent with hrecent | ⟨hs, ht⟩
    · exact congrArg (fun recent : Recent => recent.name t.word.reverse) hrecent
    · exact (name_of_loose hs _).trans (name_of_loose ht _).symm

lemma Kin.read (h : Kin s t) (c : Char) : Kin (s.read c) (t.read c) := by
  unfold Scope.read
  split_ifs
  · exact h.endName
  · exact ⟨congrArg (c :: ·) h.1, h.2⟩
  · obtain ⟨hword, hrecent⟩ := h.endName
    refine ⟨hword, ?_⟩
    rcases hrecent with hrecent | ⟨hs, ht⟩
    · exact Or.inl (congrArg (fun recent : Recent => recent.sign c) hrecent)
    · rcases sign_of_loose hs c with ⟨hs, hc⟩ | ⟨hs, hc⟩ <;>
        rcases sign_of_loose ht c with ⟨ht, hc'⟩ | ⟨ht, hc'⟩
      · exact Or.inl (hs.trans ht.symm)
      · exact absurd hc hc'
      · exact absurd hc' hc
      · exact Or.inr ⟨hs, ht⟩

lemma Kin.scan (h : Kin s t) (cs : List Char) : Kin (s.scan cs) (t.scan cs) := by
  induction cs generalizing s t with
  | nil => exact h
  | cons c cs ih => exact ih (h.read c)

lemma Kin.ends (h : Kin s t) (name : List Char) (c : Char) : s.ends name c = t.ends name c := by
  obtain ⟨hword, hrecent⟩ := h
  have hrefers : s.recent.refers = t.recent.refers := by
    have hloose {recent : Recent} (h : recent.loose) : recent.refers = true := by
      cases recent <;> first | exact absurd h (by decide) | rfl
    rcases hrecent with hrecent | ⟨hs, ht⟩
    · rw [hrecent]
    · rw [hloose hs, hloose ht]
  rw [Scope.ends, Scope.ends, hword, hrefers]

/-- **The same names are references at kindred places.** -/
lemma Kin.refers (h : Kin s t) (name cs : List Char) : s.refers name cs = t.refers name cs := by
  induction cs generalizing s t with
  | nil => rfl
  | cons c cs ih => rw [Scope.refers, Scope.refers, h.ends, ih (h.read c)]

lemma Scope.Fresh.refers (h : s.Fresh) (name cs : List Char) :
    s.refers name cs = Scope.refers {} name cs :=
  (Kin.of_fresh h (by decide)).refers name cs

lemma Scope.Fresh.scan (h : s.Fresh) (hcs : (Scope.scan {} cs).Fresh) : (s.scan cs).Fresh :=
  ((Kin.of_fresh (by decide) h).scan cs).fresh hcs

/-! ### Signs and names -/

lemma word_read_of_endsName (h : endsName c = true) : (s.read c).word = [] := by
  unfold Scope.read
  split_ifs with hblank hname
  · exact endName_word
  · simp [endsName, hblank, hname] at h
  · exact endName_word

lemma word_read (h : isNameChar c = false) : (s.read c).word = [] :=
  word_read_of_endsName (by rw [endsName, h, Bool.not_false, Bool.or_true])

lemma ends_of_idle (hname : name ≠ []) (hword : s.word = []) (c : Char) :
    s.ends name c = false := by
  simp [Scope.ends, hword, hname.symm]

/-- **Signs** end the name that is being read, and refer to nothing else. -/
lemma refers_signs (hname : name ≠ []) (hcs : ∀ c ∈ cs, endsName c = true) :
    s.refers name cs = (!cs.isEmpty && (decide (s.word.reverse = name) && s.recent.refers)) := by
  have hidle {s : Scope} {cs : List Char} (hword : s.word = [])
      (hcs : ∀ c ∈ cs, endsName c = true) : s.refers name cs = false := by
    induction cs generalizing s with
    | nil => rfl
    | cons c cs ih =>
        obtain ⟨hc, hcs⟩ := List.forall_mem_cons.mp hcs
        rw [Scope.refers, ih (word_read_of_endsName hc) hcs, ends_of_idle hname hword,
          Bool.or_false]
  cases cs with
  | nil => rfl
  | cons c cs =>
      obtain ⟨hc, hcs⟩ := List.forall_mem_cons.mp hcs
      rw [Scope.refers, hidle (word_read_of_endsName hc) hcs, Scope.ends, hc]
      simp

lemma refers_signs_of_idle (hname : name ≠ []) (hword : s.word = [])
    (hcs : ∀ c ∈ cs, endsName c = true) : s.refers name cs = false := by
  rw [refers_signs hname hcs, hword]
  simp [hname.symm]

/-- The characters of a name are read without referring to anything. -/
lemma refers_word (hcs : ∀ c ∈ cs, endsName c = false) :
    s.refers name cs = false ∧ s.scan cs = { s with word := cs.reverse ++ s.word } := by
  induction cs generalizing s with
  | nil => exact ⟨rfl, rfl⟩
  | cons c cs ih =>
      obtain ⟨hc, hcs⟩ := List.forall_mem_cons.mp hcs
      have hblank : isBlank c = false ∧ isNameChar c = true := by simpa [endsName] using hc
      have hread : s.read c = { s with word := c :: s.word } := by
        rw [Scope.read, if_neg (by simp [hblank]), if_pos hblank.2]
      obtain ⟨hrefers, hscan⟩ := @ih (s.read c) hcs
      refine ⟨?_, ?_⟩
      · rw [Scope.refers, hrefers, Scope.ends, hc]
        rfl
      · refine hscan.trans ?_
        rw [hread, List.reverse_cons, List.append_assoc]
        rfl

/-- White space where no name is being read changes nothing. -/
lemma scan_blanks_of_idle (hword : s.word = []) (hcs : ∀ c ∈ cs, isBlank c = true) :
    s.scan cs = s := by
  induction cs with
  | nil => rfl
  | cons c cs ih =>
      obtain ⟨hc, hcs⟩ := List.forall_mem_cons.mp hcs
      have hread : s.read c = s := by
        rw [Scope.read, if_pos hc, Scope.endName, hword]
        rfl
      exact (congrArg (fun s : Scope => s.scan cs) hread).trans (ih hcs)

/-- After a sign other than a dot the next name is a reference. -/
lemma fresh_read (hname : isNameChar c = false) (hblank : isBlank c = false) (hdot : c ≠ '.') :
    (s.read c).Fresh := by
  refine ⟨word_read hname, ?_⟩
  have hsign (recent : Recent) : (recent.sign c).loose := by
    rw [Recent.sign, if_neg hdot]
    split_ifs <;> decide
  rw [Scope.read, if_neg (by simp [hblank]), if_neg (by simp [hname])]
  exact hsign _

lemma endsName_of_isBlank (h : isBlank c = true) : endsName c = true := by
  rw [endsName, h, Bool.true_or]

/-- A text can refer only to a name that stands in it. -/
lemma infix_of_refers (h : s.refers name cs = true) : name <:+: s.word.reverse ++ cs := by
  induction cs generalizing s with
  | nil => simp [Scope.refers] at h
  | cons c cs ih =>
      rw [Scope.refers, Bool.or_eq_true] at h
      rcases h with hends | hrest
      · simp only [Scope.ends, Bool.and_eq_true, decide_eq_true_eq] at hends
        rw [hends.1.2]
        exact (List.prefix_append _ _).isInfix
      · have hread : (s.read c).word = [] ∨ (s.read c).word = c :: s.word := by
          unfold Scope.read
          split_ifs
          · exact Or.inl endName_word
          · exact Or.inr rfl
          · exact Or.inl endName_word
        have hinfix := ih hrest
        rcases hread with hword | hword
        · rw [hword, List.reverse_nil, List.nil_append] at hinfix
          exact hinfix.trans ((List.suffix_cons c cs).isInfix.trans
            (List.suffix_append _ _).isInfix)
        · rw [hword, List.reverse_cons, List.append_assoc] at hinfix
          exact hinfix

end RequestSuite.Script
