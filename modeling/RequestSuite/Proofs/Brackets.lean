/-
Brackets that are open.

* `level`, `levelAfter`: the brackets open after some characters, where a closing bracket without a
  partner is passed over;
* `depthAfter?`, `Balanced`: the same, where such a bracket is refused;
* `depthAfter?_append`, `depthAfter?_add`: one text after another, and inside other brackets;
* `levelAfter_of_depthAfter?`: both counts agree where the second does not refuse.
-/
import Mathlib.Tactic
import RequestSuite.Script.Lexical

namespace RequestSuite.Script

/-- What all characters of a text satisfy is decided along the text. There is an instance for
predicates of all characters too, and it would go through every one of them. -/
instance decidableForallMem (p : Char → Prop) [DecidablePred p] (cs : List Char) :
    Decidable (∀ c ∈ cs, p c) := List.decidableBAll p cs

/-- The number of open brackets after one more character. A closing bracket without a partner is
passed over. -/
def level (depth : ℕ) (c : Char) : ℕ :=
  if isOpener c then depth + 1 else if isCloser c then depth - 1 else depth

/-- The number of open brackets after some more characters. -/
def levelAfter (depth : ℕ) (cs : List Char) : ℕ := cs.foldl level depth

/-- The number of open brackets after some characters, if none of them closes a bracket that is not
open. -/
def depthAfter? : ℕ → List Char → Option ℕ
  | depth, [] => some depth
  | depth, c :: cs =>
    if isOpener c then depthAfter? (depth + 1) cs
    else if isCloser c then if depth = 0 then none else depthAfter? (depth - 1) cs
    else depthAfter? depth cs

/-- Every bracket that is opened is closed, and no other is. -/
def Balanced (cs : List Char) : Prop := depthAfter? 0 cs = some 0

instance (cs : List Char) : Decidable (Balanced cs) := inferInstanceAs (Decidable (_ = _))

lemma isCloser_of_isOpener {c : Char} (h : isOpener c = true) : isCloser c = false := by
  simp only [isOpener, Bool.or_eq_true, beq_iff_eq] at h
  rcases h with (rfl | rfl) | rfl <;> decide

/-- White space is no bracket. -/
lemma not_bracket_of_isBlank {c : Char} (h : Text.isBlank c = true) :
    isOpener c = false ∧ isCloser c = false := by
  constructor
  · by_contra ho
    simp only [isOpener, Bool.not_eq_false, Bool.or_eq_true, beq_iff_eq] at ho
    rcases ho with (rfl | rfl) | rfl <;> exact absurd h (by decide)
  · by_contra hc
    simp only [isCloser, Bool.not_eq_false, Bool.or_eq_true, beq_iff_eq] at hc
    rcases hc with (rfl | rfl) | rfl <;> exact absurd h (by decide)

variable {depth depth' : ℕ} {c : Char} {cs ds : List Char}

@[simp] lemma level_opener (h : isOpener c = true) : level depth c = depth + 1 := by
  rw [level, if_pos h]

@[simp] lemma level_closer (h : isCloser c = true) : level depth c = depth - 1 := by
  have ho : ¬ isOpener c = true := fun ho => by
    rw [isCloser_of_isOpener ho] at h
    simp at h
  rw [level, if_neg ho, if_pos h]

lemma level_plain (ho : isOpener c = false) (hc : isCloser c = false) : level depth c = depth := by
  simp [level, ho, hc]

lemma levelAfter_append (depth : ℕ) (cs ds : List Char) :
    levelAfter depth (cs ++ ds) = levelAfter (levelAfter depth cs) ds := List.foldl_append

/-- Characters that are no brackets change nothing. -/
lemma levelAfter_plain (h : ∀ c ∈ cs, isOpener c = false ∧ isCloser c = false) :
    levelAfter depth cs = depth := by
  induction cs with
  | nil => rfl
  | cons c cs ih =>
      obtain ⟨⟨ho, hc⟩, hcs⟩ := List.forall_mem_cons.mp h
      rw [levelAfter, List.foldl_cons, level_plain ho hc]
      exact ih hcs

/-- Characters that close no bracket leave all open brackets open. -/
lemma le_levelAfter (h : ∀ c ∈ cs, isCloser c = false) : depth ≤ levelAfter depth cs := by
  induction cs generalizing depth with
  | nil => exact le_rfl
  | cons c cs ih =>
      obtain ⟨hc, hcs⟩ := List.forall_mem_cons.mp h
      have hle : depth ≤ level depth c := by
        rw [level]
        split_ifs <;> simp_all
      exact hle.trans (ih hcs)

/-- A character that is not refused leaves as many brackets open as are counted. -/
lemma depthAfter?_cons :
    depthAfter? depth (c :: cs) =
      if isCloser c = true ∧ depth = 0 then none else depthAfter? (level depth c) cs := by
  rw [depthAfter?]
  by_cases ho : isOpener c = true
  · simp [ho, isCloser_of_isOpener ho]
  · by_cases hc : isCloser c = true
    · simp [ho, hc]
    · simp [ho, hc, level]

/-- One text after another. -/
lemma depthAfter?_append :
    depthAfter? depth (cs ++ ds) =
      (depthAfter? depth cs).bind fun depth' => depthAfter? depth' ds := by
  induction cs generalizing depth with
  | nil => rfl
  | cons c cs ih =>
      rw [List.cons_append, depthAfter?_cons, depthAfter?_cons]
      split_ifs
      · rfl
      · exact ih

/-- What is not refused is not refused inside other brackets. -/
lemma depthAfter?_add (h : depthAfter? depth cs = some depth') (more : ℕ) :
    depthAfter? (depth + more) cs = some (depth' + more) := by
  induction cs generalizing depth with
  | nil =>
      obtain rfl := Option.some.inj h
      rfl
  | cons c cs ih =>
      rw [depthAfter?_cons] at h ⊢
      split_ifs at h with hc
      have hlevel : level (depth + more) c = level depth c + more := by
        simp only [level]
        split_ifs with ho hcl
        · omega
        · have : depth ≠ 0 := fun h0 => hc ⟨hcl, h0⟩
          omega
        · rfl
      rw [if_neg (fun hn => hc ⟨hn.1, by omega⟩), hlevel]
      exact ih h

lemma Balanced.depthAfter? (h : Balanced cs) (depth : ℕ) :
    depthAfter? depth cs = some depth := by
  simpa using depthAfter?_add h depth

lemma levelAfter_of_depthAfter? (h : depthAfter? depth cs = some depth') :
    levelAfter depth cs = depth' := by
  induction cs generalizing depth with
  | nil => exact Option.some.inj h
  | cons c cs ih =>
      rw [depthAfter?_cons] at h
      split_ifs at h
      exact ih h

lemma Balanced.levelAfter (h : Balanced cs) (depth : ℕ) : levelAfter depth cs = depth :=
  levelAfter_of_depthAfter? (h.depthAfter? depth)

/-- Inside a text that is not refused, no bracket that was open before it is closed. -/
lemma le_levelAfter_of_append (h : Balanced (cs ++ ds)) (depth : ℕ) :
    depth ≤ Script.levelAfter depth cs := by
  rw [Balanced, depthAfter?_append] at h
  obtain ⟨mid, hmid, -⟩ := Option.bind_eq_some_iff.mp h
  have hadd := depthAfter?_add hmid depth
  rw [Nat.zero_add] at hadd
  have := levelAfter_of_depthAfter? hadd
  omega

end RequestSuite.Script
