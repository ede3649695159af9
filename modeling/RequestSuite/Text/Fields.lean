/-
Texts taken apart at separators.

* `fields`: the pieces between the characters of a class, at least one;
* `breakAt?`: the part before the first occurrence of a character, and the part after it;
* `breakAtLast?`: the same for the last occurrence;
* `not_separates_of_mem`: no piece holds a separator;
* `intercalate_fields`: pieces put together with the separator give the text back.
-/
import RequestSuite.Text.Lines

namespace RequestSuite.Text

/-- The pieces of a text between the characters of a class. -/
def fields (separates : Char → Bool) : List Char → List (List Char)
  | [] => [[]]
  | c :: cs =>
    if separates c then [] :: fields separates cs else consFirst c (fields separates cs)

/-- What stands before the first occurrence of a character, and what stands after it. -/
def breakAt? (sep : Char) : List Char → Option (List Char × List Char)
  | [] => none
  | c :: cs =>
    if c = sep then some ([], cs)
    else (breakAt? sep cs).map fun (before, after) => (c :: before, after)

/-- What stands before the last occurrence of a character, and what stands after it. -/
def breakAtLast? (sep : Char) (cs : List Char) : Option (List Char × List Char) :=
  (breakAt? sep cs.reverse).map fun (after, before) => (before.reverse, after.reverse)

theorem fields_ne_nil (separates : Char → Bool) (cs : List Char) : fields separates cs ≠ [] := by
  cases cs with
  | nil => simp [fields]
  | cons c cs =>
    simp only [fields]
    split
    · simp
    · cases fields separates cs <;> simp [consFirst]

/-- No piece holds a separator. -/
theorem not_separates_of_mem {separates : Char → Bool} {cs piece : List Char}
    (h : piece ∈ fields separates cs) : ∀ c ∈ piece, separates c = false := by
  induction cs generalizing piece with
  | nil =>
    rw [fields, List.mem_singleton] at h
    simp [h]
  | cons c cs ih =>
    obtain ⟨first, others, hf⟩ := List.exists_cons_of_ne_nil (fields_ne_nil separates cs)
    rw [fields, hf] at h
    rw [hf] at ih
    split at h
    · rcases List.mem_cons.1 h with rfl | h
      · simp
      · exact ih h
    · next hc =>
      rcases List.mem_cons.1 h with rfl | h
      · intro d hd
        rcases List.mem_cons.1 hd with rfl | hd
        · simpa using hc
        · exact ih List.mem_cons_self d hd
      · exact ih (List.mem_cons_of_mem _ h)

/-- The pieces of a text, put together with the separator they were taken apart at, give the text
back. -/
theorem intercalate_fields (sep : Char) (cs : List Char) :
    List.intercalate [sep] (fields (· == sep) cs) = cs := by
  induction cs with
  | nil => rfl
  | cons c cs ih =>
    obtain ⟨first, others, hf⟩ := List.exists_cons_of_ne_nil (fields_ne_nil (· == sep) cs)
    by_cases hc : c = sep
    · subst hc
      simp only [fields, beq_self_eq_true, ↓reduceIte, hf]
      rw [hf] at ih
      rw [List.intercalate_cons_cons, ih]
      rfl
    · simp only [fields, beq_iff_eq, hc, ↓reduceIte, hf, consFirst]
      rw [hf] at ih
      cases others with
      | nil => simpa using ih
      | cons second others =>
        rw [List.intercalate_cons_cons] at ih ⊢
        rw [List.cons_append, List.cons_append, ih]

/-- A separator between the two parts gives the text back. -/
theorem append_of_breakAt? {sep : Char} {cs before after : List Char}
    (h : breakAt? sep cs = some (before, after)) : before ++ sep :: after = cs := by
  induction cs generalizing before with
  | nil => simp [breakAt?] at h
  | cons c cs ih =>
    simp only [breakAt?] at h
    split at h
    · next hc =>
      simp only [Option.some.injEq, Prod.mk.injEq] at h
      rw [← h.1, ← h.2, hc, List.nil_append]
    · obtain ⟨⟨b, a⟩, hb, hp⟩ := Option.map_eq_some_iff.1 h
      simp only [Prod.mk.injEq] at hp
      rw [hp.2] at hb
      rw [← hp.1, List.cons_append, ih hb]

end RequestSuite.Text
