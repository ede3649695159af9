/-
What a script sends as the body of a request.

* `Indented`: the lines of a text but the first stand behind a margin; `BreaksIndented`: the margin
  follows every line break, which goes through from the parts of a text to the whole;
  `indented_of_breaksIndented`;
* `breaksIndented_pretty`: so it is with a JSON value written on lines of its own;
* `writtenBody`: what a script gets of a body;
* `BodyKept`: it denotes the body: the same JSON value, or a literal of the same text;
* `body_kept_iff`: this is so of every body for which there is room on the stack, and of no other;
* `value_brackets`: a text of opening brackets is no JSON; `bracket_body_lost`: one that is lost.
-/
import RequestSuite.Proofs.BuildFailure
import RequestSuite.Proofs.Escaping
import RequestSuite.Proofs.JsonRoundTrip
import RequestSuite.Suite.Body

namespace RequestSuite

open Text (fields consFirst fields_ne_nil)

variable {margin margin' : ℕ} {s t : List Char}

/-! ### Margins -/

/-- Every line of a text but the first is behind `margin` spaces. -/
def Indented (margin : ℕ) (text : List Char) : Prop :=
  ∀ line ∈ (fields (· == '\n') text).tail, List.replicate margin ' ' <+: line

/-- Every line break of a text is followed by `margin` spaces. -/
def BreaksIndented (margin : ℕ) (text : List Char) : Prop :=
  ∀ before after, text = before ++ '\n' :: after → List.replicate margin ' ' <+: after

lemma BreaksIndented.of_cons {c : Char} (h : BreaksIndented margin (c :: s)) :
    BreaksIndented margin s :=
  fun before after heq => h (c :: before) after (by rw [heq]; rfl)

/-- The spaces at the start of a text are those of its first line. -/
lemma prefix_first_line {first : List Char} {others : List (List Char)}
    (h : List.replicate margin ' ' <+: s) (hlines : fields (· == '\n') s = first :: others) :
    List.replicate margin ' ' <+: first := by
  induction margin generalizing s first others with
  | zero => exact List.nil_prefix
  | succ margin ih =>
      obtain ⟨t, rfl⟩ := h
      obtain ⟨line, lines, hrest⟩ := List.exists_cons_of_ne_nil
        (fields_ne_nil (· == '\n') (List.replicate margin ' ' ++ t))
      have hsplit : fields (· == '\n') (List.replicate (margin + 1) ' ' ++ t) =
          (' ' :: line) :: lines := by
        rw [List.replicate_succ, List.cons_append, fields, hrest]
        rfl
      rw [hsplit] at hlines
      obtain ⟨rfl, -⟩ := List.cons.inj hlines
      exact List.cons_prefix_cons.mpr ⟨rfl, ih (List.prefix_append _ _) hrest⟩

/-- **Lines are behind a margin** if it follows every line break. -/
lemma indented_of_breaksIndented (h : BreaksIndented margin s) : Indented margin s := by
  induction s with
  | nil => simp [Indented, fields]
  | cons c s ih =>
      obtain ⟨first, others, hrest⟩ := List.exists_cons_of_ne_nil (fields_ne_nil (· == '\n') s)
      have hothers := ih h.of_cons
      rw [Indented, hrest, List.tail_cons] at hothers
      rw [Indented, fields, hrest]
      split_ifs with hc
      · obtain rfl := beq_iff_eq.mp hc
        exact List.forall_mem_cons.mpr ⟨prefix_first_line (h [] s rfl) hrest, hothers⟩
      · exact hothers

lemma BreaksIndented.of_notMem (h : '\n' ∉ s) : BreaksIndented margin s := by
  rintro before after rfl
  exact absurd (List.mem_append_right before List.mem_cons_self) h

lemma BreaksIndented.append (h : BreaksIndented margin s) (h' : BreaksIndented margin t) :
    BreaksIndented margin (s ++ t) := by
  intro before after heq
  rcases List.append_eq_append_iff.mp heq with ⟨gap, rfl, hgap⟩ | ⟨gap, rfl, hgap⟩
  · exact h' gap after hgap
  · cases gap with
    | nil => exact h' [] after hgap.symm
    | cons c gap =>
        obtain ⟨rfl, rfl⟩ := List.cons.inj hgap
        exact (h before gap rfl).trans (List.prefix_append gap t)

namespace Json

lemma breaksIndented_newLine (h : margin ≤ margin') : BreaksIndented margin (newLine margin') := by
  intro before after heq
  cases before with
  | nil =>
      obtain ⟨-, rfl⟩ := List.cons.inj heq
      exact List.prefix_replicate_iff.mpr ⟨by simpa using h, by simp⟩
  | cons c before =>
      have hmem : '\n' ∈ List.replicate margin' ' ' := by
        rw [(List.cons.inj heq).2]
        exact List.mem_append_right _ List.mem_cons_self
      exact absurd (List.eq_of_mem_replicate hmem) (by decide)

mutual

/-- **A JSON value on lines of its own** stands behind its margin. -/
lemma breaksIndented_pretty (margin' : ℕ) (h : margin ≤ margin') (v : Json) :
    BreaksIndented margin (pretty margin' v) := by
  cases v with
  | null => exact (.of_notMem (by decide) : BreaksIndented margin "null".toList)
  | bool b =>
      cases b
      · exact (.of_notMem (by decide) : BreaksIndented margin "false".toList)
      · exact (.of_notMem (by decide) : BreaksIndented margin "true".toList)
  | int n => exact .of_notMem (figures_intText n).notMem
  | float x => exact .of_notMem (figures_text x).notMem
  | str s => exact .of_notMem (notMem_quote s)
  | arr items =>
      have hopen : BreaksIndented margin ['['] := .of_notMem (by decide)
      have hclose : BreaksIndented margin [']'] := .of_notMem (by decide)
      cases items with
      | nil => exact hopen.append hclose
      | cons item items =>
          have hitems := breaksIndented_prettyItems (margin' + 2) (by omega) (item :: items)
          exact ((hopen.append hitems).append (breaksIndented_newLine h)).append hclose
  | obj fields =>
      have hopen : BreaksIndented margin ['\x7b'] := .of_notMem (by decide)
      have hclose : BreaksIndented margin ['\x7d'] := .of_notMem (by decide)
      cases fields with
      | nil => exact hopen.append hclose
      | cons field fields =>
          have hfields := breaksIndented_prettyFields (margin' + 2) (by omega) (field :: fields)
          exact ((hopen.append hfields).append (breaksIndented_newLine h)).append hclose

lemma breaksIndented_prettyItems (margin' : ℕ) (h : margin ≤ margin') (items : List Json) :
    BreaksIndented margin (prettyItems margin' items) := by
  cases items with
  | nil => exact .of_notMem List.not_mem_nil
  | cons item items =>
      have hitem := (breaksIndented_newLine h).append (breaksIndented_pretty margin' h item)
      cases items with
      | nil => exact hitem
      | cons next items =>
          have hcomma : BreaksIndented margin [','] := .of_notMem (by decide)
          exact hitem.append (hcomma.append (breaksIndented_prettyItems margin' h (next :: items)))

lemma breaksIndented_prettyFields (margin' : ℕ) (h : margin ≤ margin')
    (fields : List (String × Json)) :
    BreaksIndented margin (prettyFields margin' fields) := by
  cases fields with
  | nil => exact .of_notMem List.not_mem_nil
  | cons field fields =>
      obtain ⟨key, item⟩ := field
      have hkey := (breaksIndented_newLine h).append (.of_notMem (notMem_quote key))
      have hcolon : BreaksIndented margin [':', ' '] := .of_notMem (by decide)
      have hitem := hkey.append (hcolon.append (breaksIndented_pretty margin' h item))
      cases fields with
      | nil => exact hitem
      | cons next fields =>
          have hcomma : BreaksIndented margin [','] := .of_notMem (by decide)
          have hfields := hcomma.append (breaksIndented_prettyFields margin' h (next :: fields))
          simpa only [prettyFields, List.append_assoc, List.cons_append, List.nil_append] using
            hitem.append hfields

end

end Json

/-! ### Bodies -/

/-- What a script gets of a body: what is said if there is no room on the stack for it, or the text
of what it sends, if anything. -/
def writtenBody (stack : Stack) (level : ℕ) (body : Option Body) :
    Except Overflow (Option (List Char)) :=
  match bodyOverflow? stack body with
  | some overflow => .error overflow
  | none => .ok ((bodyValue? body).map (BodyValue.render level))

/-- The text that a raw body sends as such: the body itself if it is not JSON, and the string that
it holds. -/
def SendsText (raw text : String) : Prop :=
  (∃ fault, Json.read raw.toList = .error fault) ∧ text = raw ∨
    Json.read raw.toList = .ok (.str text)

/-- A script has what a body denotes. A raw body that holds a JSON value, neither null nor a string,
is there as a text that holds the same value, its lines behind the margin of the level; a body that
sends a text is there as one string literal of this text; and nothing is there exactly if the body
is not raw, is empty or holds null. -/
structure BodyKept (level : ℕ) (body : Option Body)
    (written : Except Overflow (Option (List Char))) : Prop where
  value : ∀ raw v, body = some ⟨"raw", some raw⟩ → raw ≠ "" → Json.read raw.toList = .ok v →
    v ≠ .null → (∀ text, v ≠ .str text) →
      ∃ cs, written = .ok (some cs) ∧ Json.read cs = .ok v ∧ Indented (2 * level) cs
  text : ∀ raw text, body = some ⟨"raw", some raw⟩ → raw ≠ "" → SendsText raw text →
    ∃ cs, written = .ok (some cs) ∧ Literal.literalValue? cs = some (Literal.units text.toList)
  absent_iff : written = .ok none ↔
    ∀ raw, body = some ⟨"raw", some raw⟩ → raw = "" ∨ Json.read raw.toList = .ok .null

variable {stack : Stack} {body : Option Body} {raw text : String} {v : Json} {level : ℕ}

lemma bodyValue?_of_json (hraw : raw ≠ "") (h : Json.read raw.toList = .ok v) (hnull : v ≠ .null)
    (hstr : ∀ text, v ≠ .str text) : bodyValue? (some ⟨"raw", some raw⟩) = some (.json v) := by
  simp only [bodyValue?, if_neg hraw, h]

lemma bodyValue?_of_text (hraw : raw ≠ "") (h : SendsText raw text) :
    bodyValue? (some ⟨"raw", some raw⟩) = some (.text text) := by
  rcases h with ⟨⟨fault, hread⟩, rfl⟩ | hread
  · simp only [bodyValue?, if_neg hraw, hread]
  · simp only [bodyValue?, if_neg hraw, hread]

/-- Nothing is sent of a body that is not raw, is empty or holds null. -/
lemma bodyValue?_eq_none_iff :
    bodyValue? body = none ↔
      ∀ raw, body = some ⟨"raw", some raw⟩ → raw = "" ∨ Json.read raw.toList = .ok .null := by
  constructor
  · rintro h raw rfl
    by_contra hne
    obtain ⟨hraw, hnull⟩ := not_or.mp hne
    cases hread : Json.read raw.toList with
    | error fault =>
        rw [bodyValue?_of_text hraw (Or.inl ⟨⟨fault, hread⟩, rfl⟩)] at h
        cases h
    | ok v =>
        rw [hread] at hnull
        by_cases hstr : ∃ text, v = .str text
        · obtain ⟨text, rfl⟩ := hstr
          rw [bodyValue?_of_text hraw (Or.inr hread)] at h
          cases h
        · rw [bodyValue?_of_json hraw hread (fun heq => hnull (congrArg _ heq))
            (not_exists.mp hstr)] at h
          cases h
  · intro h
    unfold bodyValue?
    split
    · next raw =>
      rcases h raw rfl with hraw | hnull
      · rw [if_pos hraw]
      · rw [hnull]
        exact ite_self none
    · rfl

/-- Of a body that is kept a script gets something, or nothing, but no overflow. -/
lemma BodyKept.exists_ok {written : Except Overflow (Option (List Char))}
    (h : BodyKept level body written) : ∃ sent, written = .ok sent := by
  by_cases hnone : ∀ raw, body = some ⟨"raw", some raw⟩ →
      raw = "" ∨ Json.read raw.toList = .ok .null
  · exact ⟨none, h.absent_iff.mpr hnone⟩
  · push Not at hnone
    obtain ⟨raw, hbody, hraw, hnull⟩ := hnone
    cases hread : Json.read raw.toList with
    | error fault =>
        obtain ⟨cs, hwritten, -⟩ := h.text raw raw hbody hraw (Or.inl ⟨⟨fault, hread⟩, rfl⟩)
        exact ⟨_, hwritten⟩
    | ok v =>
        by_cases hstr : ∃ text, v = .str text
        · obtain ⟨text, rfl⟩ := hstr
          obtain ⟨cs, hwritten, -⟩ := h.text raw text hbody hraw (Or.inr hread)
          exact ⟨_, hwritten⟩
        · have hne : v ≠ .null := fun heq => hnull (heq ▸ hread)
          obtain ⟨cs, hwritten, -⟩ := h.value raw v hbody hraw hread hne (not_exists.mp hstr)
          exact ⟨_, hwritten⟩

lemma not_bodyKept_of_overflow {overflow : Overflow} (h : bodyOverflow? stack body = some overflow)
    (level : ℕ) : ¬ BodyKept level body (writtenBody stack level body) := by
  intro hkept
  obtain ⟨sent, hsent⟩ := hkept.exists_ok
  rw [writtenBody, h] at hsent
  cases hsent

lemma literalValue?_quote (text : List Char) :
    Literal.literalValue? (Script.quote text) = some (Literal.units text) := by
  rw [Literal.literalValue?, Script.quote, Script.readLiteral_escape rfl text []]

/-- **Bodies are kept**: what a script sends denotes the body, exactly if there is room on the stack
to look at the body and to write it. This is so at every level of indentation, and of every value,
whatever the names of its members and the texts and numbers in it. -/
theorem body_kept_iff (stack : Stack) (level : ℕ) (body : Option Body) :
    BodyKept level body (writtenBody stack level body) ↔ bodyOverflow? stack body = none := by
  constructor
  · intro hkept
    by_contra hoverflow
    obtain ⟨overflow, hoverflow⟩ := Option.ne_none_iff_exists'.mp hoverflow
    exact not_bodyKept_of_overflow hoverflow level hkept
  · intro hnone
    rw [writtenBody, hnone]
    refine ⟨?_, ?_, ?_⟩
    · rintro raw v rfl hraw hread hnull hstr
      rw [bodyValue?_of_json hraw hread hnull hstr, Option.map_some, Json.render_json]
      exact ⟨_, rfl, Json.read_pretty (2 * level) (Json.fits_of_read hread),
        indented_of_breaksIndented (Json.breaksIndented_pretty (2 * level) le_rfl v)⟩
    · rintro raw text rfl hraw hsends
      rw [bodyValue?_of_text hraw hsends]
      exact ⟨_, rfl, literalValue?_quote text.toList⟩
    · rw [← bodyValue?_eq_none_iff]
      cases bodyValue? body <;> simp

/-! ### A body of opening brackets -/

namespace Json

lemma value_bracket_replicate (steps count : ℕ) :
    value (steps + 1) ('[' :: List.replicate count '[') =
      elements steps [] (List.replicate count '[') := by
  cases count <;> rfl

lemma elements_of_error {steps : ℕ} {cs : List Char} {fault : Fault}
    (h : value steps cs = .error fault) : elements (steps + 1) [] cs = .error fault := by
  rw [elements, h]

/-- Opening brackets without anything behind them are no value. The induction is on their number;
each takes a value and the list that it opens. -/
lemma value_brackets (count : ℕ) : ∀ steps, 2 * count < steps →
    ∃ fault, value steps (List.replicate count '[') = .error fault := by
  induction count with
  | zero =>
      intro steps hs
      obtain ⟨steps, rfl⟩ := Nat.exists_eq_add_one.mpr hs
      exact ⟨_, rfl⟩
  | succ count ih =>
      intro steps hs
      obtain ⟨steps, rfl⟩ : ∃ k, steps = k + 2 := ⟨steps - 2, by omega⟩
      obtain ⟨fault, hfault⟩ := ih steps (by omega)
      exact ⟨fault, by rw [List.replicate_succ, value_bracket_replicate, elements_of_error hfault]⟩

/-- A text of opening brackets is no JSON. -/
lemma read_brackets (count : ℕ) : ∃ fault, read (List.replicate count '[') = .error fault := by
  obtain ⟨fault, hfault⟩ := value_brackets count (2 * count + 1) (by omega)
  have hhead : (List.replicate count '[').head? ≠ some '\ufeff' := by
    rw [List.head?_replicate]
    split_ifs <;> decide
  have hskip : skipSpace (List.replicate count '[') = List.replicate count '[' := by
    cases count <;> rfl
  exact ⟨fault, by rw [read, if_neg hhead, List.length_replicate, hskip, hfault]⟩

end Json

/-- A text of 2000 opening brackets is no JSON, yet it is not sent as a text where the stack has
room for a thousand. -/
theorem bracket_body_lost :
    let body : Option Body := some ⟨"raw", some bracketText⟩
    SendsText bracketText bracketText ∧
      (∃ overflow, writtenBody (.shallow 1000) 3 body = .error overflow) ∧
      ¬ BodyKept 3 body (writtenBody (.shallow 1000) 3 body) := by
  intro body
  obtain ⟨fault, hfault⟩ := Json.read_brackets 2000
  obtain ⟨overflow, hreading⟩ : ∃ overflow, readingOverflow? (.shallow 1000) body = some overflow :=
    exists_readingOverflow_shallow 1000 2000 (by norm_num) (by norm_num)
  have hoverflow : bodyOverflow? (.shallow 1000) body = some overflow := by
    rw [bodyOverflow?, hreading, Option.some_or]
  have hlist : bracketText.toList = List.replicate 2000 '[' := String.toList_ofList
  rw [← hlist] at hfault
  exact ⟨Or.inl ⟨⟨fault, hfault⟩, rfl⟩, ⟨overflow, by rw [writtenBody, hoverflow]⟩,
    not_bodyKept_of_overflow hoverflow 3⟩

end RequestSuite
