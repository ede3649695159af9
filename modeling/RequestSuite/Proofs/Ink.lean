/-
What is left of a text without its white space.

* `ink`: the characters of a text that are not white space;
* `ink_splitLines`, `ink_joinLines`, `ink_trim`, `ink_indentBlock`: taking a text apart into lines,
  putting lines together, trimming and indenting leave it as it is.
-/
import RequestSuite.Proofs.FileText

namespace RequestSuite.Text

/-- The characters of a text that are not white space. -/
def ink (text : List Char) : List Char := text.filter fun c => !isBlank c

variable {c : Char} {text front back : List Char} {lines : List (List Char)}

@[simp] lemma ink_nil : ink [] = [] := rfl

@[simp] lemma ink_append : ink (front ++ back) = ink front ++ ink back := List.filter_append ..

lemma ink_cons (c : Char) (text : List Char) : ink (c :: text) = ink [c] ++ ink text :=
  @ink_append [c] text

@[simp] lemma ink_blank (h : isBlank c = true) : ink (c :: text) = ink text := by
  simp [ink, h]

lemma ink_eq_nil (h : ∀ c ∈ text, isBlank c = true) : ink text = [] := by
  simpa [ink] using h

lemma infix_ink (h : front <:+: back) : ink front <:+: ink back := h.filter _

/-- Leaving out white space at the start leaves the rest as it is. -/
lemma ink_dropWhile {p : Char → Bool} (h : ∀ c, p c = true → isBlank c = true) :
    ink (text.dropWhile p) = ink text := by
  induction text with
  | nil => rfl
  | cons c text ih =>
      by_cases hc : p c = true
      · rw [List.dropWhile_cons_of_pos hc, ih, ink_blank (h c hc)]
      · rw [List.dropWhile_cons_of_neg hc]

lemma ink_reverse : ink text.reverse = (ink text).reverse := List.filter_reverse

lemma ink_dropEndWhile {p : Char → Bool} (h : ∀ c, p c = true → isBlank c = true) :
    ink (dropEndWhile p text) = ink text := by
  rw [dropEndWhile, ink_reverse, ink_dropWhile h, ink_reverse, List.reverse_reverse]

@[simp] lemma ink_trimEnd : ink (trimEnd text) = ink text := ink_dropEndWhile fun _ h => h

@[simp] lemma ink_trim : ink (trim text) = ink text := by
  rw [trim, ink_trimEnd, trimStart, ink_dropWhile fun _ h => h]

lemma ink_consFirst : (consFirst c lines).flatMap ink = ink [c] ++ lines.flatMap ink := by
  cases lines with
  | nil => simp [consFirst]
  | cons line lines => rw [consFirst, List.flatMap_cons, ink_cons, List.append_assoc]; rfl

/-- The lines of a text hold all that is not white space. -/
@[simp] lemma ink_splitLines (text : List Char) : (splitLines text).flatMap ink = ink text := by
  fun_induction splitLines text with
  | case1 => rfl
  | case2 cs ih =>
      rw [List.flatMap_cons, ih, ink_blank (by decide), ink_blank (by decide)]
      rfl
  | case3 c cs _ hc ih =>
      rw [List.flatMap_cons, ih, ink_blank (isBlank_of_isLineBreak hc)]
      rfl
  | case4 c cs _ hc ih => rw [ink_consFirst, ih, ← ink_cons]

/-- Putting pieces together with white space between them. -/
lemma ink_intercalate {gap : List Char} (h : allBlank gap = true) :
    ink (List.intercalate gap lines) = lines.flatMap ink := by
  induction lines with
  | nil => rfl
  | cons line lines ih =>
      cases lines with
      | nil => simp
      | cons next lines =>
          rw [List.intercalate_cons_cons, ink_append, ink_append,
            ink_eq_nil (List.all_eq_true.mp h), ih,
            List.append_nil]
          rfl

@[simp] lemma ink_joinLines : ink (joinLines lines) = lines.flatMap ink :=
  ink_intercalate rfl

lemma infix_flatMap {f : List Char → List Char} {line : List Char} (h : line ∈ lines) :
    f line <:+: lines.flatMap f := by
  obtain ⟨before, after, rfl⟩ := List.append_of_mem h
  exact ⟨before.flatMap f, after.flatMap f, by simp⟩

end RequestSuite.Text

namespace RequestSuite.Suite

open Text

/-- Indenting a text adds only white space. -/
@[simp] lemma ink_indentBlock (level : ℕ) (text : List Char) :
    ink (indentBlock level text).toList = ink text := by
  rw [indentBlock, toList_joinedLines, ink_joinLines, ← ink_splitLines text, List.map_map,
    List.flatMap_map]
  refine congrArg List.flatten (List.map_congr_left fun line _ => ?_)
  simp only [Function.comp_apply]
  split_ifs with h
  · exact (ink_eq_nil (List.all_eq_true.mp h)).symm
  · have hindent : ink (indentation level).toList = [] := by
      rw [indentation, String.toList_ofList]
      refine ink_eq_nil fun c hc => ?_
      obtain rfl := List.eq_of_mem_replicate hc
      rfl
    rw [String.toList_append, ink_append, hindent, String.toList_ofList]
    rfl

end RequestSuite.Suite
