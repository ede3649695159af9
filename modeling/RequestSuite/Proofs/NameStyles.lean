/-
Names in different styles of spelling.

* `SmallWord`: a word of small letters and digits;
* `Style`, `Style.spell`: words put together as programs and titles spell them;
* `isMargin`: what may stand around a name, punctuation and white space;
* `lowerFrom_eq_map`: lower case of capitals of ASCII between characters that are their own forms;
* `spacedFrom_append`, `spacedFrom_capitalized`: hyphens come before words with a capital, and
  nowhere else;
* `lower_spaced_spell`: in lower case all styles are the words with one separator between them;
* `styles_meet`: so they all have one name with hyphens.
-/
import RequestSuite.Proofs.HyphenatedNames

namespace RequestSuite.Layout

open Text (Settled form isAlphanumeric isBlank lower lowerFrom runs)

variable {c : Char} {w : List Char} {ws : List (List Char)} {before after : List Char}

/-! ### Styles -/

/-- A word: two or more small letters, and then small letters and digits. -/
def SmallWord : List Char → Prop
  | c :: d :: rest => c.isLower = true ∧ d.isLower = true ∧
    ∀ e ∈ rest, e.isLower = true ∨ e.isDigit = true
  | _ => False

instance : DecidablePred SmallWord
  | [] => isFalse id
  | [_] => isFalse id
  | _ :: _ :: _ => inferInstanceAs (Decidable (_ ∧ _ ∧ _))

/-- A word with a capital. -/
def capitalized : List Char → List Char
  | [] => []
  | c :: cs => c.toUpper :: cs

/-- A style in which a name is spelled. -/
inductive Style
  | camel
  | pascal
  | snake
  | kebab
  | spaced
  deriving DecidableEq, Repr

/-- Words put together in a style: `getAllUsers`, `GetAllUsers`, `get_all_users`, `get-all-users`
or `get all users`. -/
def Style.spell : Style → List (List Char) → List Char
  | .camel, [] => []
  | .camel, w :: ws => w ++ ws.flatMap capitalized
  | .pascal, ws => ws.flatMap capitalized
  | .snake, ws => List.intercalate ['_'] ws
  | .kebab, ws => List.intercalate ['-'] ws
  | .spaced, ws => List.intercalate [' '] ws

/-- The punctuation of ASCII. -/
def isPunctuation (c : Char) : Bool :=
  let n := c.toNat
  (0x21 ≤ n && n ≤ 0x2f) || (0x3a ≤ n && n ≤ 0x40) || (0x5b ≤ n && n ≤ 0x60) ||
    (0x7b ≤ n && n ≤ 0x7e)

/-- What may stand around a name. -/
def isMargin (c : Char) : Bool := isPunctuation c || isBlank c

/-! ### Characters -/

lemma exists_of_ascii (h : c.toNat < 128) : ∃ n < 128, c = Char.ofNat n :=
  ⟨c.toNat, h, (Char.ofNat_toNat c).symm⟩

lemma lt_of_isLower (h : c.isLower = true) : c.toNat < 128 :=
  Nat.lt_of_le_of_lt (of_decide_eq_true (Bool.and_eq_true_iff.mp h).2) (by decide)

lemma lt_of_isDigit (h : c.isDigit = true) : c.toNat < 128 :=
  Nat.lt_of_le_of_lt (of_decide_eq_true (Bool.and_eq_true_iff.mp h).2) (by decide)

lemma lt_of_isUpper (h : c.isUpper = true) : c.toNat < 128 :=
  Nat.lt_of_le_of_lt (of_decide_eq_true h).2 (by decide)

lemma small_spec (h : c.isLower = true ∨ c.isDigit = true) :
    isAlphanumeric c = true ∧ Settled c := by
  have hascii : ∀ n < 128, (Char.ofNat n).isLower = true ∨ (Char.ofNat n).isDigit = true →
      isAlphanumeric (Char.ofNat n) = true ∧ Settled (Char.ofNat n) := by decide +kernel
  obtain ⟨n, hn, rfl⟩ := exists_of_ascii (h.elim lt_of_isLower lt_of_isDigit)
  exact hascii n hn h

lemma toUpper_spec (h : c.isLower = true) :
    c.toUpper.isUpper = true ∧ c.toUpper.toLower = c := by
  have hascii : ∀ n < 128, (Char.ofNat n).isLower = true →
      (Char.ofNat n).toUpper.isUpper = true ∧ (Char.ofNat n).toUpper.toLower = Char.ofNat n := by
    decide +kernel
  obtain ⟨n, hn, rfl⟩ := exists_of_ascii (lt_of_isLower h)
  exact hascii n hn h

lemma form_of_isUpper (h : c.isUpper = true) (before after : List Char) :
    form before c after = [c.toLower] := by
  have hascii : ∀ n < 128, (Char.ofNat n).isUpper = true →
      Text.lowerChar (Char.ofNat n) = [(Char.ofNat n).toLower] ∧ Char.ofNat n ≠ 'Σ' := by
    decide +kernel
  obtain ⟨n, hn, rfl⟩ := exists_of_ascii (lt_of_isUpper h)
  rw [form, if_neg (hascii n hn h).2, (hascii n hn h).1]

/-- White space is no letter and no number. -/
lemma isAlphanumeric_of_isBlank (h : isBlank c = true) : isAlphanumeric c = false := by
  have hranges : (Text.alphanumericRanges.all fun range => Text.blankRanges.all fun blank =>
      range.2 < blank.1 ∨ blank.2 < range.1) = true := by decide +kernel
  rw [isAlphanumeric]
  split_ifs with hlt
  · have hascii : ∀ n < 128, isBlank (Char.ofNat n) = true → (Char.ofNat n).isAlphanum = false := by
      decide +kernel
    obtain ⟨n, hn, rfl⟩ := exists_of_ascii hlt
    exact hascii n hn h
  · by_contra hin
    rw [Bool.not_eq_false] at hin
    obtain ⟨range, hrange, hmem⟩ := List.any_eq_true.mp hin
    obtain ⟨blank, hblank, hle, hge⟩ := Text.exists_range_of_isBlank h
    have hapart := List.all_eq_true.mp (List.all_eq_true.mp hranges range hrange) blank hblank
    simp only [decide_eq_true_eq, Bool.and_eq_true] at hapart hmem
    omega

/-- What stands around a name is no part of a word, and its own form. -/
lemma margin_spec (h : isMargin c = true) : isAlphanumeric c = false ∧ Settled c := by
  rw [isMargin, Bool.or_eq_true] at h
  rcases h with h | h
  · have hascii : ∀ n < 128, isPunctuation (Char.ofNat n) = true →
        isAlphanumeric (Char.ofNat n) = false ∧ Settled (Char.ofNat n) := by decide +kernel
    have hlt : c.toNat < 128 := by
      simp only [isPunctuation, Bool.or_eq_true, Bool.and_eq_true, decide_eq_true_eq] at h
      omega
    obtain ⟨n, hn, rfl⟩ := exists_of_ascii hlt
    exact hascii n hn h
  · exact ⟨isAlphanumeric_of_isBlank h, Text.settled_of_isBlank h⟩

lemma not_isUpper_of_small (h : c.isLower = true ∨ c.isDigit = true) : c.isUpper = false :=
  (small_spec h).2.not_isUpper

/-! ### Words -/

namespace SmallWord

lemma exists_cons (hw : SmallWord w) : ∃ c cs, w = c :: cs ∧ c.isLower = true ∧ cs ≠ [] ∧
    ∀ e ∈ cs, e.isLower = true ∨ e.isDigit = true := by
  match w, hw with
  | c :: d :: rest, ⟨hc, hd, hrest⟩ =>
      exact ⟨c, d :: rest, rfl, hc, by simp, List.forall_mem_cons.mpr ⟨Or.inl hd, hrest⟩⟩

lemma small (hw : SmallWord w) : ∀ e ∈ w, e.isLower = true ∨ e.isDigit = true := by
  obtain ⟨c, cs, rfl, hc, -, hcs⟩ := hw.exists_cons
  exact List.forall_mem_cons.mpr ⟨Or.inl hc, hcs⟩

lemma ne_nil (hw : SmallWord w) : w ≠ [] := by
  obtain ⟨c, cs, rfl, -⟩ := hw.exists_cons
  exact List.cons_ne_nil _ _

end SmallWord

/-! ### Lower case -/

/-- A text of capitals of ASCII and characters that are their own forms, and its lower case. -/
def LowersTo (cs ds : List Char) : Prop :=
  (∀ c ∈ cs, Settled c ∨ c.isUpper = true) ∧ cs.map Char.toLower = ds

namespace LowersTo

variable {cs cs' ds ds' : List Char}

lemma append (h : LowersTo cs ds) (h' : LowersTo cs' ds') : LowersTo (cs ++ cs') (ds ++ ds') :=
  ⟨List.forall_mem_append.mpr ⟨h.1, h'.1⟩, by rw [List.map_append, h.2, h'.2]⟩

lemma of_settled (h : ∀ c ∈ cs, Settled c) : LowersTo cs cs := by
  refine ⟨fun c hc => Or.inl (h c hc), ?_⟩
  calc
    cs.map Char.toLower = cs.map id :=
      List.map_congr_left fun c hc => dif_neg (of_decide_eq_false (h c hc).not_isUpper)
    _ = cs := List.map_id cs

lemma of_small (h : ∀ c ∈ cs, c.isLower = true ∨ c.isDigit = true) : LowersTo cs cs :=
  of_settled fun c hc => (small_spec (h c hc)).2

lemma of_margin (h : ∀ c ∈ cs, isMargin c = true) : LowersTo cs cs :=
  of_settled fun c hc => (margin_spec (h c hc)).2

lemma capitalized (hw : SmallWord w) : LowersTo (capitalized w) w := by
  obtain ⟨c, cs, rfl, hc, -, hcs⟩ := hw.exists_cons
  obtain ⟨hupper, hlower⟩ := toUpper_spec hc
  have hfirst : LowersTo [c.toUpper] [c] := ⟨by simp [hupper], by rw [List.map_singleton, hlower]⟩
  exact hfirst.append (of_small hcs)

lemma flatMap {f g : List Char → List Char} (h : ∀ w ∈ ws, LowersTo (f w) (g w)) :
    LowersTo (ws.flatMap f) (ws.flatMap g) := by
  induction ws with
  | nil => exact ⟨by simp, rfl⟩
  | cons w ws ih =>
      obtain ⟨hw, hws⟩ := List.forall_mem_cons.mp h
      exact hw.append (ih hws)

/-- The lower case of such a text does not look at what stands around. -/
lemma lowerFrom (h : LowersTo cs ds) (before : List Char) : Text.lowerFrom before cs = ds := by
  obtain ⟨hcs, rfl⟩ := h
  induction cs generalizing before with
  | nil => rfl
  | cons c cs ih =>
      obtain ⟨hc, hcs⟩ := List.forall_mem_cons.mp hcs
      have hform : form before c cs = [c.toLower] := by
        rcases hc with hc | hc
        · have hself : LowersTo [c] [c] := of_settled (by simpa using hc)
          rw [form, if_neg hc.1, hc.2, ← List.map_singleton, hself.2]
        · exact form_of_isUpper hc before cs
      rw [Text.lowerFrom_cons, hform, ih _ hcs, List.map_cons, List.singleton_append]

end LowersTo

/-! ### Hyphens before capitals -/

/-- What ends a word. -/
def EndsWord (last : Option Char) : Prop :=
  ∃ l, last = some l ∧ (l.isLower = true ∨ l.isDigit = true)

lemma SmallWord.endsWord (hw : SmallWord w) : EndsWord w.getLast? := by
  obtain ⟨l, hl⟩ := Option.ne_none_iff_exists'.mp (List.getLast?_eq_none_iff.not.mpr hw.ne_nil)
  exact ⟨l, hl, hw.small l (List.mem_of_getLast? hl)⟩

lemma EndsWord.splitsBefore {last : Option Char} (h : EndsWord last) (hc : c.isUpper = true)
    (next : Option Char) : splitsBefore last c next = true := by
  obtain ⟨l, rfl, hl⟩ := h
  simp only [Layout.splitsBefore, hc, Bool.true_and, Bool.or_eq_true]
  exact Or.inl hl

/-- A capital at the start of a name starts no word inside it. -/
lemma splitsBefore_of_margin {last : Option Char} (h : ∀ l ∈ last, isMargin l = true) (c : Char)
    (next : Option Char) : splitsBefore last c next = false := by
  cases last with
  | none => rfl
  | some l =>
      obtain ⟨halpha, hsettled⟩ := margin_spec (h l rfl)
      have hplain : ¬ (l.isLower = true ∨ l.isDigit = true) := fun hsmall =>
        Bool.false_ne_true (halpha.symm.trans (small_spec hsmall).1)
      obtain ⟨hlower, hdigit⟩ := not_or.mp hplain
      simp [splitsBefore, hlower, hdigit, hsettled.not_isUpper]

/-- No hyphen comes into a stretch without capitals. -/
lemma spacedFrom_append {cs : List Char} (h : ∀ c ∈ cs, c.isUpper = false) (last : Option Char)
    (ds : List Char) :
    spacedFrom last (cs ++ ds) = cs ++ spacedFrom (cs.getLast?.or last) ds := by
  induction cs generalizing last with
  | nil => rfl
  | cons c cs ih =>
      obtain ⟨hc, hcs⟩ := List.forall_mem_cons.mp h
      have hsplits : splitsBefore last c (cs ++ ds).head? = false := by
        cases last <;> simp [splitsBefore, hc]
      have hlast : cs.getLast?.or (some c) = (c :: cs).getLast?.or last := by
        rw [List.getLast?_cons]
        cases cs.getLast? <;> rfl
      rw [List.cons_append, spacedFrom, hsplits, if_neg Bool.false_ne_true, ih hcs, hlast,
        List.cons_append]

/-- A word with a capital gets at most one hyphen, before its capital. -/
lemma spacedFrom_capitalized (hw : SmallWord w) (last : Option Char) (ds : List Char) :
    spacedFrom last (capitalized w ++ ds) =
      (if splitsBefore last (w.headD ' ').toUpper w.tail.head? then ['-'] else []) ++
        capitalized w ++ spacedFrom w.getLast? ds := by
  obtain ⟨c, cs, rfl, hc, hne, hcs⟩ := hw.exists_cons
  have hupper : ∀ e ∈ cs, e.isUpper = false := fun e he => not_isUpper_of_small (hcs e he)
  have hhead : (cs ++ ds).head? = cs.head? := List.head?_append_of_ne_nil cs hne
  have hlast : cs.getLast?.or (some c.toUpper) = (c :: cs).getLast? := by
    obtain ⟨e, rest, rfl⟩ := List.exists_cons_of_ne_nil hne
    rw [List.getLast?_cons_cons, List.getLast?_cons]
    rfl
  rw [capitalized, List.cons_append, spacedFrom, hhead, spacedFrom_append hupper, hlast]
  rw [List.headD_cons, List.tail_cons]
  split_ifs <;> simp

/-- Words with capitals after another word get a hyphen each. -/
lemma spacedFrom_flatMap (hws : ∀ w ∈ ws, SmallWord w) {last : Option Char} (h : EndsWord last)
    (hafter : ∀ c ∈ after, c.isUpper = false) :
    spacedFrom last (ws.flatMap capitalized ++ after) =
      ws.flatMap (fun w => '-' :: capitalized w) ++ after := by
  induction ws generalizing last with
  | nil => exact spacedFrom_of_not_isUpper hafter last
  | cons w ws ih =>
      obtain ⟨hw, hws⟩ := List.forall_mem_cons.mp hws
      have hsplits : splitsBefore last (w.headD ' ').toUpper w.tail.head? = true := by
        obtain ⟨c, cs, rfl, hc, -⟩ := hw.exists_cons
        exact h.splitsBefore (toUpper_spec hc).1 _
      rw [List.flatMap_cons, List.append_assoc, spacedFrom_capitalized hw, hsplits, if_pos rfl,
        ih hws hw.endsWord]
      simp

/-! ### The styles meet -/

lemma intercalate_cons_eq (sep : Char) (w : List Char) (ws : List (List Char)) :
    List.intercalate [sep] (w :: ws) = w ++ ws.flatMap (sep :: ·) := by
  induction ws generalizing w with
  | nil => simp
  | cons v ws ih =>
      rw [List.intercalate_cons_cons, ih, List.flatMap_cons]
      simp

lemma lowersTo_flatMap (hws : ∀ w ∈ ws, SmallWord w) :
    LowersTo (ws.flatMap fun w => '-' :: capitalized w) (ws.flatMap ('-' :: ·)) := by
  have hhyphen : LowersTo ['-'] ['-'] := LowersTo.of_settled (by decide)
  exact LowersTo.flatMap fun w hw => hhyphen.append (LowersTo.capitalized (hws w hw))

section Margins

variable (hbefore : ∀ c ∈ before, isMargin c = true) (hafter : ∀ c ∈ after, isMargin c = true)

include hbefore hafter

/-- Words with separators between them are left as they are. -/
lemma lower_spaced_intercalate (hws : ∀ w ∈ ws, SmallWord w) {sep : Char}
    (hs : isMargin sep = true) :
    lower (spaced (before ++ List.intercalate [sep] ws ++ after)) =
      before ++ List.intercalate [sep] ws ++ after := by
  have hsettled : ∀ c ∈ before ++ List.intercalate [sep] ws ++ after, Settled c := by
    rw [List.forall_mem_append, List.forall_mem_append]
    refine ⟨⟨fun c hc => (margin_spec (hbefore c hc)).2, fun c hc => ?_⟩,
      fun c hc => (margin_spec (hafter c hc)).2⟩
    rcases mem_intercalate hc with rfl | ⟨w, hw, hcw⟩
    · exact (margin_spec hs).2
    · exact (small_spec ((hws w hw).small c hcw)).2
  rw [spaced, spacedFrom_of_not_isUpper fun c hc => (hsettled c hc).not_isUpper,
    Text.lower_of_settled hsettled]

/-- A first word, with a capital or without, and others with capitals get a hyphen before each
capital but the first, and these are all. -/
lemma lower_spaced_capitals (hws : ∀ w ∈ ws, SmallWord w) {first : List Char}
    (hw : SmallWord w) (hfirst : LowersTo first w)
    (hspaced : ∀ last ds, (∀ l ∈ last, isMargin l = true) →
      spacedFrom last (first ++ ds) = first ++ spacedFrom w.getLast? ds) :
    lower (spaced (before ++ (first ++ ws.flatMap capitalized) ++ after)) =
      before ++ List.intercalate ['-'] (w :: ws) ++ after := by
  have hsmall {cs : List Char} (h : ∀ c ∈ cs, isMargin c = true) : ∀ c ∈ cs, c.isUpper = false :=
    fun c hc => (margin_spec (h c hc)).2.not_isUpper
  have hlast : ∀ l ∈ before.getLast?.or none, isMargin l = true := fun l hl =>
    hbefore l (List.mem_of_getLast? (by simpa using hl))
  have hall : spaced (before ++ (first ++ ws.flatMap capitalized) ++ after) =
      before ++ (first ++ ws.flatMap fun w => '-' :: capitalized w) ++ after := by
    rw [spaced, List.append_assoc, List.append_assoc, spacedFrom_append (hsmall hbefore),
      hspaced _ _ hlast, spacedFrom_flatMap hws hw.endsWord (hsmall hafter)]
    simp
  have hlowers := ((LowersTo.of_margin hbefore).append
    (hfirst.append (lowersTo_flatMap hws))).append (LowersTo.of_margin hafter)
  rw [hall, lower, hlowers.lowerFrom, intercalate_cons_eq]

/-- **In lower case every style** is the words with one separator between them. -/
lemma lower_spaced_spell (hws : ∀ w ∈ ws, SmallWord w) (hne : ws ≠ []) (style : Style) :
    ∃ sep, isMargin sep = true ∧ lower (spaced (before ++ style.spell ws ++ after)) =
      before ++ List.intercalate [sep] ws ++ after := by
  obtain ⟨w, ws, rfl⟩ := List.exists_cons_of_ne_nil hne
  obtain ⟨hw, hrest⟩ := List.forall_mem_cons.mp hws
  cases style with
  | camel =>
      refine ⟨'-', by decide, lower_spaced_capitals hbefore hafter hrest hw
        (LowersTo.of_small hw.small) fun last ds _ => ?_⟩
      obtain ⟨l, hl, -⟩ := hw.endsWord
      rw [spacedFrom_append fun e he => not_isUpper_of_small (hw.small e he), hl]
      rfl
  | pascal =>
      refine ⟨'-', by decide, lower_spaced_capitals hbefore hafter hrest hw
        (LowersTo.capitalized hw) fun last ds hlast => ?_⟩
      rw [spacedFrom_capitalized hw, splitsBefore_of_margin hlast, if_neg Bool.false_ne_true]
      rfl
  | snake => exact ⟨'_', by decide, lower_spaced_intercalate hbefore hafter hws (by decide)⟩
  | kebab => exact ⟨'-', by decide, lower_spaced_intercalate hbefore hafter hws (by decide)⟩
  | spaced => exact ⟨' ', by decide, lower_spaced_intercalate hbefore hafter hws (by decide)⟩

/-- **All styles of spelling meet** in one name: whether words are put together with capitals, low
lines, hyphens or spaces, and whatever punctuation and white space stands around them, the name with
hyphens is the words with a hyphen between each two. -/
theorem styles_meet (hws : ∀ w ∈ ws, SmallWord w) (hne : ws ≠ []) (style : Style)
    (default : List Char) :
    hyphenate (before ++ style.spell ws ++ after) default = List.intercalate ['-'] ws := by
  obtain ⟨sep, hsep, hlower⟩ := lower_spaced_spell hbefore hafter hws hne style
  have hseparates (cs : List Char) (h : ∀ c ∈ cs, isMargin c = true) :
      ∀ c ∈ cs, (!isAlphanumeric c) = true := fun c hc => by rw [(margin_spec (h c hc)).1]; rfl
  have hwords : words (before ++ style.spell ws ++ after) = ws := by
    rw [words_eq, hlower, Text.runs_append_separates (hseparates after hafter),
      Text.runs_separates_append (hseparates before hbefore)]
    refine Text.runs_intercalate (by rw [(margin_spec hsep).1]; rfl) fun w hw =>
      ⟨(hws w hw).ne_nil, fun c hc => ?_⟩
    rw [(small_spec ((hws w hw).small c hc)).1]
    rfl
  rw [hyphenate_of_words (by rwa [hwords]), hwords]

end Margins

/-- The words of a name, the last but one with a digit. -/
def userWords : List (List Char) := ["get".toList, "all2".toList, "users".toList]

/-- Such a name meets all its spellings between tabs, low lines and exclamation marks. -/
theorem user_names_meet :
    (∀ w ∈ userWords, SmallWord w) ∧ userWords ≠ [] ∧ (∀ c ∈ "\t__".toList, isMargin c = true) ∧
      (∀ c ∈ " !".toList, isMargin c = true) ∧
      "\t__".toList ++ Style.pascal.spell userWords ++ " !".toList =
        "\t__GetAll2Users !".toList ∧
      ∀ style default,
        hyphenate ("\t__".toList ++ Style.spell style userWords ++ " !".toList) default =
          "get-all2-users".toList := by
  have hwords : ∀ w ∈ userWords, SmallWord w := by decide
  have hbefore : ∀ c ∈ "\t__".toList, isMargin c = true := by decide
  have hafter : ∀ c ∈ " !".toList, isMargin c = true := by decide
  exact ⟨hwords, by decide, hbefore, hafter, by decide,
    fun style default => styles_meet hbefore hafter hwords (by decide) style default⟩

end RequestSuite.Layout
