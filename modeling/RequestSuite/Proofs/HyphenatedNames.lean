/-
The normal form of names with hyphens.

* `Text.runs`: the pieces of a text that are not empty, with the separators between them left out;
  `runs_intercalate` gives those of pieces put together;
* `spacedFrom_of_not_isUpper`: a name without capitals is spaced already;
* `IsWords`: words of letters and numbers in lower case; `isWords_words`, `words_intercalate`: those
  of a name are, and they are found again in the name they are put together to;
* `NormalForm`: a name in normal form;
* `normalForm_hyphenate`: every name is brought into it.
-/
import RequestSuite.Proofs.PathText
import RequestSuite.Proofs.SmallLetters

namespace RequestSuite

/-! ### Runs of characters -/

namespace Text

variable {separates : Char → Bool}

/-- The pieces between the separators of a text that are not empty. -/
def runs (separates : Char → Bool) (cs : List Char) : List (List Char) :=
  (fields separates cs).filter fun piece => !piece.isEmpty

lemma runs_append_sep {sep : Char} (hs : separates sep = true) (cs ds : List Char) :
    runs separates (cs ++ sep :: ds) = runs separates cs ++ runs separates ds := by
  rw [runs, fields_append_sep hs, List.filter_append]
  rfl

lemma runs_of_separates {cs : List Char} (h : ∀ c ∈ cs, separates c = true) :
    runs separates cs = [] := by
  induction cs with
  | nil => rfl
  | cons c cs ih =>
      obtain ⟨hc, hcs⟩ := List.forall_mem_cons.mp h
      exact (runs_append_sep hc [] cs).trans (ih hcs)

lemma runs_separates_append {before : List Char} (h : ∀ c ∈ before, separates c = true)
    (cs : List Char) : runs separates (before ++ cs) = runs separates cs := by
  induction before with
  | nil => rfl
  | cons c before ih =>
      obtain ⟨hc, hbefore⟩ := List.forall_mem_cons.mp h
      exact (runs_append_sep hc [] (before ++ cs)).trans (ih hbefore)

lemma runs_append_separates {after : List Char} (h : ∀ c ∈ after, separates c = true)
    (cs : List Char) : runs separates (cs ++ after) = runs separates cs := by
  cases after with
  | nil => rw [List.append_nil]
  | cons c after =>
      obtain ⟨hc, hafter⟩ := List.forall_mem_cons.mp h
      rw [runs_append_sep hc, runs_of_separates hafter, List.append_nil]

lemma runs_of_not_separates {piece : List Char} (hne : piece ≠ [])
    (h : ∀ c ∈ piece, separates c = false) : runs separates piece = [piece] := by
  rw [runs, fields_of_not_separates h]
  simpa using hne

/-- **Pieces put together** with a separator are the runs of the text. -/
lemma runs_intercalate {sep : Char} (hs : separates sep = true) {pieces : List (List Char)}
    (h : ∀ piece ∈ pieces, piece ≠ [] ∧ ∀ c ∈ piece, separates c = false) :
    runs separates (List.intercalate [sep] pieces) = pieces := by
  induction pieces with
  | nil => rfl
  | cons piece pieces ih =>
      obtain ⟨⟨hne, hp⟩, hps⟩ := List.forall_mem_cons.mp h
      cases pieces with
      | nil => simpa using runs_of_not_separates hne hp
      | cons second pieces =>
          rw [List.intercalate_cons_cons, List.append_assoc, List.singleton_append,
            runs_append_sep hs, runs_of_not_separates hne hp, ih hps, List.singleton_append]

end Text

namespace Layout

open Text (Settled isAlphanumeric isWord lower runs)

variable {name default : List Char} {ws : List (List Char)}

/-! ### Words -/

lemma words_eq (name : List Char) :
    words name = runs (fun c => !isAlphanumeric c) (lower (spaced name)) := rfl

/-- A name without capitals needs no more hyphens. -/
lemma spacedFrom_of_not_isUpper {cs : List Char} (h : ∀ c ∈ cs, c.isUpper = false)
    (last : Option Char) : spacedFrom last cs = cs := by
  induction cs generalizing last with
  | nil => rfl
  | cons c cs ih =>
      obtain ⟨hc, hcs⟩ := List.forall_mem_cons.mp h
      have hsplits : splitsBefore last c cs.head? = false := by
        cases last <;> simp [splitsBefore, hc]
      rw [spacedFrom, hsplits, if_neg Bool.false_ne_true, ih hcs]

/-- Words of letters and numbers that lower case leaves as they are, none of them empty. -/
def IsWords (ws : List (List Char)) : Prop :=
  ∀ w ∈ ws, w ≠ [] ∧ ∀ c ∈ w, isAlphanumeric c = true ∧ Settled c

lemma isWords_words (name : List Char) : IsWords (words name) := by
  intro w hw
  obtain ⟨hne, hword⟩ := isAlphanumeric_of_mem_words hw
  refine ⟨hne, fun c hc => ⟨hword c hc, ?_⟩⟩
  have hmem := Text.exists_mem_fields_iff.mp ⟨w, (List.mem_filter.mp hw).1, hc⟩
  exact Text.settled_of_mem_lowerFrom hmem.1

lemma IsWords.mem_intercalate (h : IsWords ws) {c : Char} (hc : c ∈ List.intercalate ['-'] ws) :
    c = '-' ∨ isAlphanumeric c = true ∧ Settled c := by
  rcases Layout.mem_intercalate hc with rfl | ⟨w, hw, hcw⟩
  · exact Or.inl rfl
  · exact Or.inr ((h w hw).2 c hcw)

lemma IsWords.settled (h : IsWords ws) : ∀ c ∈ List.intercalate ['-'] ws, Settled c := by
  intro c hc
  rcases h.mem_intercalate hc with rfl | ⟨-, hsettled⟩
  · decide
  · exact hsettled

/-- **Words put together** with hyphens are the words of the name. -/
lemma words_intercalate (h : IsWords ws) : words (List.intercalate ['-'] ws) = ws := by
  have hupper : ∀ c ∈ List.intercalate ['-'] ws, c.isUpper = false :=
    fun c hc => (h.settled c hc).not_isUpper
  rw [words_eq, spaced, spacedFrom_of_not_isUpper hupper, Text.lower_of_settled h.settled]
  refine Text.runs_intercalate (by decide) fun w hw => ⟨(h w hw).1, fun c hc => ?_⟩
  rw [((h w hw).2 c hc).1]
  rfl

lemma hyphenate_of_words (h : words name ≠ []) (default : List Char) :
    hyphenate name default = List.intercalate ['-'] (words name) := by
  rw [hyphenate]
  split
  · next hnil => exact absurd hnil h
  · rfl

/-! ### Normal forms -/

/-- A name in normal form: letters and numbers without capitals of ASCII, and single hyphens
between them, which is made into itself. -/
structure NormalForm (default name : List Char) : Prop where
  ne_nil : name ≠ []
  plain : ∀ c ∈ name, isWord c = true ∧ c ≠ '_' ∨ c = '-'
  single : ¬ ['-', '-'] <:+: name
  start : name.head? ≠ some '-'
  finish : name.getLast? ≠ some '-'
  small : ∀ c ∈ name, c.isUpper = false
  kept : hyphenate name default = name

/-- A hyphen at an end of a text, or beside another one, leaves an empty piece. -/
lemma nil_mem_fields_of_hyphen {cs : List Char}
    (h : ['-', '-'] <:+: cs ∨ cs.head? = some '-' ∨ cs.getLast? = some '-') :
    [] ∈ Text.fields (· == '-') cs := by
  have hpiece (before after : List Char) :
      Text.fields (· == '-') (before ++ '-' :: after) =
        Text.fields (· == '-') before ++ Text.fields (· == '-') after :=
    Text.fields_append_sep (by decide) before after
  rcases h with ⟨before, after, rfl⟩ | h | h
  · rw [List.append_assoc, List.cons_append, List.singleton_append, hpiece]
    exact List.mem_append_right _ List.mem_cons_self
  · obtain ⟨cs, rfl⟩ := List.head?_eq_some_iff.mp h
    exact List.mem_cons_self
  · obtain ⟨cs, rfl⟩ := List.getLast?_eq_some_iff.mp h
    rw [hpiece]
    exact List.mem_append_right _ List.mem_cons_self

/-- **Words with hyphens between them** are in normal form. -/
lemma IsWords.normalForm (h : IsWords ws) (hne : ws ≠ []) (default : List Char) :
    NormalForm default (List.intercalate ['-'] ws) := by
  have hplain : ∀ w ∈ ws, '-' ∉ w := fun w hw hmem =>
    absurd ((h w hw).2 '-' hmem).1 (by decide)
  have hfields : [] ∉ Text.fields (· == '-') (List.intercalate ['-'] ws) := by
    rw [Text.fields_intercalate hne hplain]
    exact fun hmem => (h [] hmem).1 rfl
  have hkept : hyphenate (List.intercalate ['-'] ws) default = List.intercalate ['-'] ws := by
    rw [hyphenate_of_words (by rwa [words_intercalate h]), words_intercalate h]
  exact
    { ne_nil := fun hnil => hfields (by rw [hnil]; exact List.mem_cons_self)
      plain := fun c hc => by
        rcases h.mem_intercalate hc with rfl | ⟨halpha, -⟩
        · exact Or.inr rfl
        · refine Or.inl ⟨by rw [isWord, halpha, Bool.true_or], ?_⟩
          rintro rfl
          exact absurd halpha (by decide)
      single := fun hs => hfields (nil_mem_fields_of_hyphen (Or.inl hs))
      start := fun hs => hfields (nil_mem_fields_of_hyphen (Or.inr (Or.inl hs)))
      finish := fun hs => hfields (nil_mem_fields_of_hyphen (Or.inr (Or.inr hs)))
      small := fun c hc => (h.settled c hc).not_isUpper
      kept := hkept }

/-- **Names are brought into normal form**, whatever they hold, if the default for a name without
words is in normal form itself. -/
theorem normalForm_hyphenate (h : NormalForm default default) (name : List Char) :
    NormalForm default (hyphenate name default) := by
  by_cases hwords : words name = []
  · rw [hyphenate, hwords]
    exact h
  · rw [hyphenate_of_words hwords]
    exact (isWords_words name).normalForm hwords default

/-- A name with an acronym, low lines, a capital sigma at the end of a word and a letter that lower
case takes apart is brought into normal form, and so is a name without words. -/
theorem foreign_name_normal :
    NormalForm "folder".toList "folder".toList ∧
      hyphenate "HTTPServer__ΟΔΟΣ İd".toList "folder".toList =
        "http-server-οδος-i-d".toList ∧
      NormalForm "folder".toList (hyphenate "HTTPServer__ΟΔΟΣ İd".toList "folder".toList) ∧
      NormalForm "folder".toList (hyphenate "_-_".toList "folder".toList) := by
  have hfolder : NormalForm "folder".toList "folder".toList :=
    { ne_nil := by decide
      plain := by decide
      single := by decide
      start := by decide
      finish := by decide
      small := by decide
      kept := by decide +kernel }
  exact ⟨hfolder, by decide +kernel, normalForm_hyphenate hfolder _, normalForm_hyphenate hfolder _⟩

end Layout

end RequestSuite
