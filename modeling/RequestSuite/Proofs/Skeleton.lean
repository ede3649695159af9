/-
The skeleton of a script: its code, with a single character for each literal and comment.

* `State.through`, `State.skeleton`: the state after a text and the skeleton of the text, given the
  character that comes next;
* `through_append`, `skeleton_append`: one text after another;
* `Blind`: a text that what follows it does not change;
* `State.forget`, `forget_through`: of the last character of code, only whether a
  regular expression may follow it matters;
* `Shows`: a text leads from code to code, whatever follows it.
-/
import RequestSuite.Proofs.Brackets

namespace RequestSuite.Script

open Text (isBlank)

/-- What stands in the skeleton for a character: the character if it is code or opens a literal, a
space if it opens a comment, and the brace of a substitution. -/
def State.shown (s : State) (c : Char) (next : Option Char) : List Char :=
  match s.mode.readsCode? c with
  | some last =>
    match opened? last c next with
    | some (.lineComment _) | some (.commentOpen _) => [' ']
    | _ => [c]
  | none => if s.mode = .templateDollar then ['\x7b'] else []

/-- The state after a text that `after` follows. -/
def State.through (s : State) (after : Option Char) : List Char → State
  | [] => s
  | c :: cs => (s.step c (cs.head?.or after)).through after cs

/-- The skeleton of a text that `after` follows. -/
def State.skeleton (s : State) (after : Option Char) : List Char → List Char
  | [] => []
  | c :: cs =>
    s.shown c (cs.head?.or after) ++ (s.step c (cs.head?.or after)).skeleton after cs

namespace State

variable {s t : State} {c : Char} {next after : Option Char} {cs ds : List Char}

lemma through_append (s : State) (after : Option Char) (cs ds : List Char) :
    s.through after (cs ++ ds) = (s.through (ds.head?.or after) cs).through after ds := by
  induction cs generalizing s with
  | nil => rfl
  | cons c cs ih =>
      rw [List.cons_append, through, through, List.head?_append, Option.or_assoc]
      exact ih _

lemma skeleton_append (s : State) (after : Option Char) (cs ds : List Char) :
    s.skeleton after (cs ++ ds) =
      s.skeleton (ds.head?.or after) cs ++
        (s.through (ds.head?.or after) cs).skeleton after ds := by
  induction cs generalizing s with
  | nil => rfl
  | cons c cs ih =>
      rw [List.cons_append, skeleton, skeleton, through, List.head?_append, Option.or_assoc,
        List.append_assoc]
      exact congrArg _ (ih _)

/-! ### What follows -/

/-- Only a slash, a star and a dollar sign are read with a look at what follows. -/
lemma step_next (h : c ∉ ['/', '*', '$']) (next next' : Option Char) :
    s.step c next = s.step c next' ∧ s.shown c next = s.shown c next' := by
  simp only [List.mem_cons, List.not_mem_nil, or_false, not_or] at h
  obtain ⟨hslash, hstar, hdollar⟩ := h
  have hopened (last : Option Char) : opened? last c next = opened? last c next' := by
    simp [opened?, hslash]
  have hinside : s.mode.inside c next = s.mode.inside c next' := by
    cases s.mode <;> simp [Mode.inside, hstar, hdollar]
  simp only [step, shown, hopened, hinside, and_self]

end State

/-- What follows a text does not change how the text is read. -/
def Blind (cs : List Char) : Prop := ∀ c, cs.getLast? = some c → c ∉ ['/', '*', '$']

namespace State

variable {s t : State} {c : Char} {next after : Option Char} {cs ds : List Char}

lemma through_blind (h : Blind cs) (after after' : Option Char) :
    s.through after cs = s.through after' cs ∧ s.skeleton after cs = s.skeleton after' cs := by
  induction cs generalizing s with
  | nil => exact ⟨rfl, rfl⟩
  | cons c cs ih =>
      cases cs with
      | nil =>
          obtain ⟨hstep, hshown⟩ := @step_next s c (h c rfl) after after'
          simp [through, skeleton, hstep, hshown]
      | cons d ds =>
          have htail : Blind (d :: ds) := fun e he => h e (by simpa using he)
          obtain ⟨hthrough, hskeleton⟩ := @ih (s.step c (some d)) htail
          rw [through, through, skeleton, skeleton]
          exact ⟨hthrough, congrArg _ hskeleton⟩

/-- Most characters that can follow do not change how a text is read. -/
lemma through_next (h : ∀ d, after = some d → d ∉ ['/', '*', '\x7b']) :
    s.through after cs = s.through none cs ∧ s.skeleton after cs = s.skeleton none cs := by
  have hend (c : Char) (s : State) : s.step c after = s.step c none ∧
      s.shown c after = s.shown c none := by
    cases after with
    | none => exact ⟨rfl, rfl⟩
    | some d =>
        have hd := h d rfl
        simp only [List.mem_cons, List.not_mem_nil, or_false, not_or] at hd
        obtain ⟨hslash, hstar, hbrace⟩ := hd
        have hopened (last : Option Char) : opened? last c (some d) = opened? last c none := by
          simp [opened?, hslash, hstar]
        have hinside : s.mode.inside c (some d) = s.mode.inside c none := by
          cases s.mode <;> simp [Mode.inside, hslash, hbrace]
        simp only [step, shown, hopened, hinside, and_self]
  induction cs generalizing s with
  | nil => exact ⟨rfl, rfl⟩
  | cons c cs ih =>
      cases cs with
      | nil =>
          obtain ⟨hstep, hshown⟩ := hend c s
          simp [through, skeleton, hstep, hshown]
      | cons d ds =>
          obtain ⟨hthrough, hskeleton⟩ := @ih (s.step c (some d))
          rw [through, through, skeleton, skeleton]
          exact ⟨hthrough, congrArg _ hskeleton⟩

/-! ### What comes before -/

end State

/-- A character of code after which a regular expression may follow exactly where it may after a
given one. -/
def settle (last : Option Char) : Option Char := if regexMayFollow last then none else some ')'

/-- The mode without the last character of code. -/
def Mode.forget : Mode → Mode
  | .code last => .code (settle last)
  | .lineComment last => .lineComment (settle last)
  | .commentOpen last => .commentOpen (settle last)
  | .comment last => .comment (settle last)
  | .commentClose last => .commentClose (settle last)
  | mode => mode

/-- The state without the last character of code. -/
def State.forget (s : State) : State := ⟨s.mode.forget, s.depths⟩

lemma regexMayFollow_settle (last : Option Char) :
    regexMayFollow (settle last) = regexMayFollow last := by
  rw [settle]
  split_ifs with h
  · rw [h]
    rfl
  · rw [Bool.not_eq_true] at h
    rw [h]
    rfl

@[simp] lemma settle_settle (last : Option Char) : settle (settle last) = settle last := by
  rw [settle, regexMayFollow_settle]
  rfl

lemma settle_lastAfter (last : Option Char) (c : Char) :
    settle (lastAfter (settle last) c) = settle (lastAfter last c) := by
  rw [lastAfter, lastAfter]
  split_ifs <;> simp

lemma opened?_settle (last : Option Char) (c : Char) (next : Option Char) :
    (opened? (settle last) c next).map Mode.forget = (opened? last c next).map Mode.forget := by
  simp only [opened?, regexMayFollow_settle]
  split_ifs <;> simp [Mode.forget]

namespace State

variable {s t : State} {c : Char} {next after : Option Char} {cs ds : List Char}

lemma forget_afterCode (depths : List ℕ) (last : Option Char) (c : Char) :
    (afterCode depths (settle last) c).forget = (afterCode depths last c).forget := by
  unfold afterCode
  cases depths with
  | nil => simp [forget, Mode.forget, settle_lastAfter]
  | cons d ds =>
      simp only
      split_ifs
      · simp [forget, Mode.forget, settle_lastAfter]
      · cases d <;> simp [forget, Mode.forget, settle_lastAfter]
      · simp [forget, Mode.forget, settle_lastAfter]

/-- Reading a character of code. -/
lemma forget_readCode (depths : List ℕ) (last : Option Char) (c : Char) (next : Option Char) :
    (match opened? (settle last) c next with
      | some mode => (⟨mode, depths⟩ : State)
      | none => afterCode depths (settle last) c).forget =
    (match opened? last c next with
      | some mode => (⟨mode, depths⟩ : State)
      | none => afterCode depths last c).forget := by
  have hopened := opened?_settle last c next
  cases h : opened? last c next with
  | none =>
      rw [h, Option.map_none, Option.map_eq_none_iff] at hopened
      rw [hopened]
      exact forget_afterCode depths last c
  | some mode =>
      rw [h, Option.map_some, Option.map_eq_some_iff] at hopened
      obtain ⟨mode', hmode', heq⟩ := hopened
      rw [hmode']
      simp only [forget, heq]

/-- What stands in the skeleton for a character of code. -/
lemma shown_readCode (last : Option Char) (c : Char) (next : Option Char) :
    (match opened? (settle last) c next with
      | some (.lineComment _) | some (.commentOpen _) => [' ']
      | _ => [c]) =
    (match opened? last c next with
      | some (.lineComment _) | some (.commentOpen _) => [' ']
      | _ => [c]) := by
  simp only [opened?, regexMayFollow_settle]
  split_ifs <;> rfl

/-- A character is read alike from states that differ in the last character of code only. -/
lemma forget_step (s : State) (c : Char) (next : Option Char) :
    (s.forget.step c next).forget = (s.step c next).forget ∧
      s.forget.shown c next = s.shown c next := by
  obtain ⟨mode, depths⟩ := s
  cases mode with
  | code last => exact ⟨forget_readCode depths last c next, shown_readCode last c next⟩
  | lineComment last =>
      by_cases hc : c = '\n'
      · subst hc
        exact ⟨forget_readCode depths last '\n' next, shown_readCode last '\n' next⟩
      · simp [step, shown, forget, Mode.forget, Mode.readsCode?, hc, Mode.inside]
  | comment last =>
      simp only [step, shown, forget, Mode.forget, Mode.readsCode?, Mode.inside]
      split_ifs <;> simp
  | _ => simp [step, shown, forget, Mode.forget, Mode.readsCode?, Mode.inside]

lemma forget_through (h : s.forget = t.forget) :
    (s.through after cs).forget = (t.through after cs).forget ∧
      s.skeleton after cs = t.skeleton after cs := by
  induction cs generalizing s t with
  | nil => exact ⟨h, rfl⟩
  | cons c cs ih =>
      obtain ⟨hs, hs'⟩ := forget_step s c (cs.head?.or after)
      obtain ⟨ht, ht'⟩ := forget_step t c (cs.head?.or after)
      obtain ⟨hthrough, hskeleton⟩ := ih (hs.symm.trans (h ▸ ht))
      rw [through, through, skeleton, skeleton, hskeleton, ← hs', ← ht', h]
      exact ⟨hthrough, rfl⟩

end State

/-! ### From code to code -/

/-- The state in code outside every template, where a regular expression may follow or not. -/
def ready (regex : Bool) : State := ⟨.code (if regex then none else some ')'), []⟩

@[simp] lemma forget_ready (regex : Bool) : (ready regex).forget = ready regex := by
  cases regex <;> rfl

lemma forget_code (last : Option Char) :
    (⟨.code last, []⟩ : State).forget = ready (regexMayFollow last) := by
  simp [State.forget, Mode.forget, settle, ready]

/-- **A text leads from code to code**, whatever follows it, and shows some characters. -/
def Shows (regex : Bool) (text : List Char) (regex' : Bool) (skeleton : List Char) : Prop :=
  ∀ after, ((ready regex).through after text).forget = ready regex' ∧
    (ready regex).skeleton after text = skeleton

variable {r r' r'' : Bool} {cs ds xs ys : List Char}

lemma Shows.nil (r : Bool) : Shows r [] r [] := fun _ => ⟨forget_ready r, rfl⟩

/-- Texts that lead from code to code, one after another. -/
lemma Shows.append (h : Shows r cs r' xs) (h' : Shows r' ds r'' ys) :
    Shows r (cs ++ ds) r'' (xs ++ ys) := by
  intro after
  obtain ⟨hthrough, hskeleton⟩ := h (ds.head?.or after)
  obtain ⟨hthrough', hskeleton'⟩ := h' after
  rw [← forget_ready r'] at hthrough
  obtain ⟨hforget, hsame⟩ := @State.forget_through _ _ after ds hthrough
  rw [State.through_append, State.skeleton_append, hskeleton, hforget, hsame, hskeleton']
  exact ⟨hthrough', rfl⟩

lemma Shows.of_blind (h : Blind cs) (hthrough : ((ready r).through none cs).forget = ready r') :
    Shows r cs r' ((ready r).skeleton none cs) := by
  intro after
  obtain ⟨hthrough', hskeleton'⟩ := @State.through_blind (ready r) cs h after none
  rw [hthrough']
  exact ⟨hthrough, hskeleton'⟩

end RequestSuite.Script
