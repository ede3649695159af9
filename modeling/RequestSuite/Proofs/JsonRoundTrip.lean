/-
JSON values written on lines of their own, and read back.

* `Fits`: the values that a text can hold;
* `value_cases`, `elements_cases`, `members_cases`: what one step reads; `fits_of_steps`,
  `fits_of_read`: whatever is read of a text fits;
* `stringBody_quoted`: strings are read back, whatever they hold;
* `value_numberText`: so are numbers;
* `value_pretty`, `elements_pretty`, `members_pretty`: a value that fits is read back behind any
  margin; `read_pretty`: and so is a whole text.
-/
import RequestSuite.Proofs.KeyedWrites
import RequestSuite.Proofs.NumberText
import RequestSuite.Proofs.WrittenText
import RequestSuite.Text.Fields

namespace RequestSuite

/-- Numbers of 64 bits, with the least exponent that their mantissa allows. -/
def Binary64.InRange : Binary64 → Prop
  | .nan | .infinite _ => True
  | .finite _ m e => Canonical m e

namespace Json

/-- The values that a text can hold: whole numbers do not have too many digits, and no member of an
object is named twice. -/
inductive Fits : Json → Prop
  | null : Fits .null
  | bool {b : Bool} : Fits (.bool b)
  | int {n : ℤ} (h : (Nat.toDigits 10 n.natAbs).length ≤ maxDigits) : Fits (.int n)
  | float {x : Binary64} (h : x.InRange) : Fits (.float x)
  | str {s : String} : Fits (.str s)
  | arr {items : List Json} (h : ∀ item ∈ items, Fits item) : Fits (.arr items)
  | obj {fields : List (String × Json)} (hnodup : (Keyed.keys fields).Nodup)
      (h : ∀ field ∈ fields, Fits field.2) : Fits (.obj fields)

variable {steps margin opened : ℕ} {cs rest after : List Char} {v item : Json}

/-! ### What is read -/

lemma digitsValue_lt {digits : List Char} (h : AllDigits digits) :
    digitsValue digits < 10 ^ digits.length := by
  induction digits using List.reverseRecOn with
  | nil => decide
  | append_singleton digits c ih =>
      have hc : digitsValue [c] < 10 :=
        digit_forall (p := fun c => digitsValue [c] < 10) (by decide)
          (h c (List.mem_append_right _ List.mem_cons_self))
      have hdigits := ih fun d hd => h d (List.mem_append_left _ hd)
      rw [digitsValue_append, List.length_append, List.length_singleton, pow_one, pow_succ]
      omega

lemma fits_int {n : ℤ} {digits : List Char} (h : AllDigits digits)
    (hlength : digits.length ≤ maxDigits) (hn : n.natAbs = digitsValue digits) :
    Fits (.int n) := by
  refine .int ((Nat.length_toDigits_le_iff (by decide) (by decide)).mpr ?_)
  calc n.natAbs = digitsValue digits := hn
    _ < 10 ^ digits.length := digitsValue_lt h
    _ ≤ 10 ^ maxDigits := Nat.pow_le_pow_right (by decide) hlength

lemma inRange_ofDecimal (negative : Bool) (digits : ℕ) (scale : ℤ) :
    (Binary64.ofDecimal negative digits scale).InRange := by
  cases h : Binary64.ofDecimal negative digits scale with
  | nan => trivial
  | infinite negative => trivial
  | finite negative m e => exact (Binary64.canonical_of_ofDecimal h).2

lemma fits_of_number {negative : Bool} (h : number opened negative cs = .ok (v, rest)) :
    Fits v := by
  unfold number at h
  split at h
  next whole after hsplit =>
  have hwhole : AllDigits whole := by
    split at hsplit
    · obtain ⟨rfl, -⟩ := Prod.mk.inj hsplit
      exact allDigits_zeros 1
    · obtain ⟨rfl, -⟩ := Prod.mk.inj hsplit
      exact fun c hc => List.mem_takeWhile_imp hc
  simp only at h
  split_ifs at h with _ _ hlength
  · obtain ⟨rfl, -⟩ := Prod.mk.inj (Except.ok.inj h)
    exact fits_int hwhole (not_lt.mp hlength) (by rw [Int.natAbs_neg, Int.natAbs_natCast])
  · obtain ⟨rfl, -⟩ := Prod.mk.inj (Except.ok.inj h)
    exact fits_int hwhole (not_lt.mp hlength) (Int.natAbs_natCast _)
  · obtain ⟨rfl, -⟩ := Prod.mk.inj (Except.ok.inj h)
    exact .float (inRange_ofDecimal _ _ _)

/-- A value is by itself, or a list of items or an object of members. -/
lemma value_cases (h : value (steps + 1) cs = .ok (v, rest)) :
    Fits v ∨ (∃ next, elements steps [] next = .ok (v, rest)) ∨
      ∃ next, members steps [] next = .ok (v, rest) := by
  have hok {u : Json} {after : List Char}
      (h : Except.ok (u, after) = (Except.ok (v, rest) : Step Json)) (hu : Fits u) :
      Fits v := by
    obtain ⟨rfl, -⟩ := Prod.mk.inj (Except.ok.inj h)
    exact hu
  unfold value at h
  split at h
  · next text =>
    cases hbody : stringBody ('"' :: text).length none [] text with
    | error fault =>
        rw [hbody] at h
        cases h
    | ok read =>
        rw [hbody] at h
        exact Or.inl (hok h .str)
  · split at h
    · exact Or.inl (hok h (.obj List.nodup_nil (by simp)))
    · exact Or.inr (Or.inr ⟨_, h⟩)
  · split at h
    · exact Or.inl (hok h (.arr (by simp)))
    · exact Or.inr (Or.inl ⟨_, h⟩)
  · exact Or.inl (hok h .null)
  · exact Or.inl (hok h .bool)
  · exact Or.inl (hok h .bool)
  · exact Or.inl (hok h (.float trivial))
  · exact Or.inl (hok h (.float trivial))
  · exact Or.inl (hok h (.float trivial))
  · exact Or.inl (fits_of_number h)
  · exact Or.inl (fits_of_number h)

/-- The items of a list are one item, and no more or others behind a comma. -/
lemma elements_cases {acc : List Json}
    (h : elements (steps + 1) acc cs = .ok (v, rest)) :
    ∃ item after, value steps cs = .ok (item, after) ∧
      (v = .arr (item :: acc).reverse ∨
        ∃ next, elements steps (item :: acc) next = .ok (v, rest)) := by
  unfold elements at h
  cases hvalue : value steps cs with
  | error fault => simp [hvalue] at h
  | ok result =>
      obtain ⟨item, after⟩ := result
      simp only [hvalue] at h
      refine ⟨item, after, rfl, ?_⟩
      split at h
      · obtain ⟨rfl, -⟩ := Prod.mk.inj (Except.ok.inj h)
        exact Or.inl rfl
      · exact Or.inr ⟨_, h⟩
      · cases h

/-- So are the members of an object. -/
lemma members_cases {acc : List (String × Json)}
    (h : members (steps + 1) acc cs = .ok (v, rest)) :
    ∃ key item text after, value steps text = .ok (item, after) ∧
      (v = .obj (Keyed.ofList ((key, item) :: acc).reverse) ∨
        ∃ next, members steps ((key, item) :: acc) next = .ok (v, rest)) := by
  unfold members at h
  split at h
  · split at h
    · cases h
    · split at h
      · split at h
        · cases h
        · next hvalue =>
          split at h
          · obtain ⟨rfl, -⟩ := Prod.mk.inj (Except.ok.inj h)
            exact ⟨_, _, _, _, hvalue, Or.inl rfl⟩
          · exact ⟨_, _, _, _, hvalue, Or.inr ⟨_, h⟩⟩
          · cases h
      · cases h
  · cases h

/-- Whatever is read within some steps fits: values, and the items and members of which lists and
objects are made. -/
lemma fits_of_steps (steps : ℕ) :
    (∀ {cs rest : List Char} {v : Json},
      value steps cs = .ok (v, rest) → Fits v) ∧
    (∀ {acc : List Json} {cs rest : List Char} {v : Json},
      (∀ item ∈ acc, Fits item) → elements steps acc cs = .ok (v, rest) →
        ∃ items, v = .arr items ∧ ∀ item ∈ items, Fits item) ∧
    (∀ {acc : List (String × Json)} {cs rest : List Char} {v : Json},
      (∀ field ∈ acc, Fits field.2) → members steps acc cs = .ok (v, rest) →
        ∃ fields, v = .obj (Keyed.ofList fields) ∧ ∀ field ∈ fields, Fits field.2) := by
  induction steps with
  | zero => exact ⟨fun h => by simp [value] at h, fun _ h => by simp [elements] at h,
      fun _ h => by simp [members] at h⟩
  | succ steps ih =>
      obtain ⟨ihvalue, ihelements, ihmembers⟩ := ih
      refine ⟨fun {cs rest v} h => ?_, fun {acc cs rest v} hacc h => ?_,
        fun {acc cs rest v} hacc h => ?_⟩
      · rcases value_cases h with hfits | ⟨next, hnext⟩ | ⟨next, hnext⟩
        · exact hfits
        · obtain ⟨items, rfl, hitems⟩ := ihelements (by simp) hnext
          exact .arr hitems
        · obtain ⟨fields, rfl, hfields⟩ := ihmembers (by simp) hnext
          refine .obj (Keyed.nodup_keys_putAll _ List.nodup_nil) fun field hfield => ?_
          exact hfields field ((Keyed.mem_of_mem_putAll hfield).resolve_right List.not_mem_nil)
      · obtain ⟨item, after, hitem, hend⟩ := elements_cases h
        have hall : ∀ other ∈ item :: acc, Fits other :=
          List.forall_mem_cons.mpr ⟨ihvalue hitem, hacc⟩
        rcases hend with rfl | ⟨next, hnext⟩
        · exact ⟨_, rfl, fun other hother => hall other (List.mem_reverse.mp hother)⟩
        · exact ihelements hall hnext
      · obtain ⟨key, item, text, after, hitem, hend⟩ := members_cases h
        have hall : ∀ field ∈ (key, item) :: acc, Fits field.2 :=
          List.forall_mem_cons.mpr ⟨ihvalue hitem, hacc⟩
        rcases hend with rfl | ⟨next, hnext⟩
        · exact ⟨_, rfl, fun field hfield => hall field (List.mem_reverse.mp hfield)⟩
        · exact ihmembers hall hnext

/-- **Whatever is read of a text fits.** -/
lemma fits_of_read (h : read cs = .ok v) : Fits v := by
  unfold read at h
  split_ifs at h
  split at h
  · cases h
  · next hvalue =>
    split at h
    · exact Except.ok.inj h ▸ (fits_of_steps _).1 hvalue
    · cases h

/-! ### Strings -/

lemma hex4?_hex {n : ℕ} (h : n < 0x10000) :
    ∃ a b c d, Text.hex 4 n = [a, b, c, d] ∧ hex4? a b c d = some n := by
  have hlt (m : ℕ) : m % 16 < 16 := Nat.mod_lt m (by omega)
  have hvalue : (((n / 16 / 16 / 16 % 16) * 16 + n / 16 / 16 % 16) * 16 + n / 16 % 16) * 16 +
      n % 16 = n := by omega
  refine ⟨_, _, _, _, rfl, ?_⟩
  simp only [hex4?, Text.hexValue?_hexDigit (hlt _), Option.bind_eq_bind, Option.bind_some]
  exact congrArg some hvalue

lemma stringBody_escape {acc : List Char} {letter c : Char} (hletter : letter ≠ 'u')
    (h : simpleEscape? letter = some c) :
    stringBody opened none acc ('\\' :: letter :: rest) =
      stringBody opened none (c :: acc) rest := by
  rw [stringBody.eq_def]
  simp [hletter, h, settle]

/-- An escape of a control character by its number. -/
lemma stringBody_unicode {acc : List Char} {c : Char} (hc : c.toNat < 0x20) (hrest : rest ≠ []) :
    stringBody opened none acc ('\\' :: 'u' :: Text.hex 4 c.toNat ++ rest) =
      stringBody opened none (c :: acc) rest := by
  obtain ⟨a, b, d, e, hhex, hread⟩ := hex4?_hex (show c.toNat < 0x10000 by omega)
  have hempty : rest.isEmpty = false := by simpa using hrest
  have hpoint : putPoint c.toNat acc = c :: acc := by
    have hsurrogate : ¬ Text.isSurrogate c.toNat = true := by
      simp [Text.isSurrogate]
      omega
    have hlast : c.toNat ≠ 0x10ffff := by omega
    rw [putPoint, Text.ofPoint, if_neg hsurrogate, if_neg hlast, Char.ofNat_toNat]
    rfl
  have hhigh : ¬ (0xd800 ≤ c.toNat && c.toNat ≤ 0xdbff) = true := by
    simp
    omega
  rw [hhex]
  simp only [List.cons_append, List.nil_append, stringBody, hempty, hread, hpoint, if_neg hhigh,
    Bool.false_eq_true, if_false]

/-- A character of a string is read back, whatever follows. -/
lemma stringBody_quoteChar (acc : List Char) (c : Char) (hrest : rest ≠ []) :
    stringBody opened none acc (quoteChar c ++ rest) = stringBody opened none (c :: acc) rest := by
  unfold quoteChar
  split_ifs with h1 h2 h3 h4 h5 h6 h7 h8
  · subst h1
    exact stringBody_escape (by decide) rfl
  · subst h2
    exact stringBody_escape (by decide) rfl
  · subst h3
    exact stringBody_escape (by decide) rfl
  · subst h4
    exact stringBody_escape (by decide) rfl
  · subst h5
    exact stringBody_escape (by decide) rfl
  · subst h6
    exact stringBody_escape (by decide) rfl
  · subst h7
    exact stringBody_escape (by decide) rfl
  · exact stringBody_unicode h8 hrest
  · rw [List.singleton_append, stringBody.eq_def]
    simp [h1, h2, h8, settle]

/-- **Strings are read back**, whatever they hold and whatever follows. -/
lemma stringBody_quoted (acc s rest : List Char) :
    stringBody opened none acc (s.flatMap quoteChar ++ '"' :: rest) =
      .ok (String.ofList (acc.reverse ++ s), rest) := by
  induction s generalizing acc with
  | nil => simp [stringBody, settle]
  | cons c s ih =>
      rw [List.flatMap_cons, List.append_assoc, stringBody_quoteChar acc c (by simp), ih]
      simp

lemma quote_append (s : String) (rest : List Char) :
    quote s ++ rest = '"' :: (s.toList.flatMap quoteChar ++ '"' :: rest) := by
  simp [quote]

lemma value_quote (steps : ℕ) (s : String) (rest : List Char) :
    value (steps + 1) (quote s ++ rest) = .ok (.str s, rest) := by
  rw [quote_append]
  unfold value
  simp [stringBody_quoted, Except.map]

/-! ### Numbers -/

lemma value_digit {c : Char} (hc : c.isDigit = true) (steps : ℕ) (rest : List Char) :
    value (steps + 1) (c :: rest) = number (c :: rest).length false (c :: rest) :=
  digit_forall (p := fun c => value (steps + 1) (c :: rest) =
    number (c :: rest).length false (c :: rest)) (by intro k; fin_cases k <;> rfl) hc

lemma value_minus {c : Char} (hc : c.isDigit = true) (steps : ℕ) (rest : List Char) :
    value (steps + 1) ('-' :: c :: rest) =
      number ('-' :: c :: rest).length true (c :: rest) :=
  digit_forall (p := fun c => value (steps + 1) ('-' :: c :: rest) =
    number ('-' :: c :: rest).length true (c :: rest)) (by intro k; fin_cases k <;> rfl) hc

/-- **Numbers are read back**, with their signs. -/
lemma value_numberText {negative : Bool} (h : NumberText negative cs v) (hrest : NumberEnds rest)
    (steps : ℕ) :
    value (steps + 1) ((if negative then ['-'] else []) ++ cs ++ rest) = .ok (v, rest) := by
  obtain ⟨c, tail, rfl, hc⟩ := h.head
  have hread := h.reads
  cases negative with
  | false => exact (value_digit hc steps _).trans (hread _ rest hrest)
  | true => exact (value_minus hc steps _).trans (hread _ rest hrest)

lemma value_intText {n : ℤ} (h : (Nat.toDigits 10 n.natAbs).length ≤ maxDigits)
    (hrest : NumberEnds rest) (steps : ℕ) :
    value (steps + 1) (intText n ++ rest) = .ok (.int n, rest) := by
  have htext := numberText_digits (decide (n < 0)) h
  have hn : (if decide (n < 0) then -(n.natAbs : ℤ) else n.natAbs) = n := by
    simp only [decide_eq_true_eq]
    split_ifs <;> omega
  rw [hn] at htext
  have hread := value_numberText htext hrest steps
  simpa only [intText, decide_eq_true_eq] using hread

lemma value_floatText {x : Binary64} (h : x.InRange) (hrest : NumberEnds rest) (steps : ℕ) :
    value (steps + 1) (numberStyle.text x ++ rest) = .ok (.float x, rest) := by
  cases x with
  | nan => rfl
  | infinite negative => cases negative <;> rfl
  | finite negative m e =>
      obtain ⟨cs, htext, hnumber⟩ := exists_numberText negative h
      rw [htext]
      exact value_numberText hnumber hrest steps

/-! ### Values -/

/-- The start of a value: no white space, and nothing that ends a list or marks a text. -/
def Starts (cs : List Char) : Prop :=
  ∃ c rest, cs = c :: rest ∧ isSpace c = false ∧ c ≠ ']' ∧ c ≠ '\ufeff'

lemma Starts.append (h : Starts cs) (rest : List Char) : Starts (cs ++ rest) := by
  obtain ⟨c, tail, rfl, hc⟩ := h
  exact ⟨c, tail ++ rest, rfl, hc⟩

lemma Starts.skipSpace (h : Starts cs) : skipSpace cs = cs := by
  obtain ⟨c, rest, rfl, hspace, -⟩ := h
  rw [Json.skipSpace, List.dropWhile_cons_of_neg (by simp [hspace])]

lemma starts_number {negative : Bool} (h : NumberText negative cs v) :
    Starts ((if negative then ['-'] else []) ++ cs) := by
  obtain ⟨c, rest, rfl, hc⟩ := h.head
  cases negative with
  | false =>
      exact ⟨c, rest, rfl, digit_forall
        (p := fun c => isSpace c = false ∧ c ≠ ']' ∧ c ≠ '\ufeff') (by decide) hc⟩
  | true => exact ⟨'-', c :: rest, rfl, by decide⟩

lemma starts_quote (s : String) : Starts (quote s) := ⟨'"', _, rfl, by decide⟩

lemma starts_pretty (margin : ℕ) (h : Fits v) : Starts (pretty margin v) := by
  cases h with
  | null => exact ⟨'n', _, rfl, by decide⟩
  | @bool b => cases b <;> exact ⟨_, _, rfl, by decide⟩
  | @int n h =>
      have hstarts := starts_number (numberText_digits (decide (n < 0)) h)
      simpa only [pretty, intText, decide_eq_true_eq] using hstarts
  | @float x h =>
      cases x with
      | nan => exact ⟨'N', _, rfl, by decide⟩
      | infinite negative => cases negative <;> exact ⟨_, _, rfl, by decide⟩
      | finite negative m e =>
          obtain ⟨cs, htext, hnumber⟩ := exists_numberText negative h
          rw [pretty, htext]
          exact starts_number hnumber
  | @str s => exact starts_quote s
  | @arr items => cases items <;> exact ⟨'[', _, rfl, by decide⟩
  | @obj fields => cases fields <;> exact ⟨'\x7b', _, rfl, by decide⟩

lemma skipSpace_newLine (margin : ℕ) (cs : List Char) :
    skipSpace (newLine margin ++ cs) = skipSpace cs := by
  refine List.dropWhile_append_of_pos fun c hc => ?_
  rcases List.mem_cons.mp hc with rfl | hc
  · rfl
  · rw [List.eq_of_mem_replicate hc]
    rfl

lemma numberEnds_newLine (margin : ℕ) (cs : List Char) : NumberEnds (newLine margin ++ cs) :=
  numberEnds_cons (by decide) _

lemma numberEnds_comma (cs : List Char) : NumberEnds (',' :: cs) := numberEnds_cons (by decide) cs

lemma value_bracket (hcs : Starts (skipSpace cs)) :
    value (steps + 1) ('[' :: cs) = elements steps [] (skipSpace cs) := by
  obtain ⟨c, rest, heq, -, hc, -⟩ := hcs
  simp only [value, heq]
  split
  · next h => exact absurd (List.cons.inj h).1 hc
  · rfl

lemma elements_last {acc : List Json} (margin : ℕ)
    (h : value steps cs = .ok (item, newLine margin ++ ']' :: rest)) :
    elements (steps + 1) acc cs = .ok (.arr (acc.reverse ++ [item]), rest) := by
  have hspace : skipSpace (newLine margin ++ ']' :: rest) = ']' :: rest := skipSpace_newLine _ _
  simp only [elements, h, hspace, List.reverse_cons]

lemma elements_next {acc : List Json} (h : value steps cs = .ok (item, ',' :: rest)) :
    elements (steps + 1) acc cs = elements steps (item :: acc) (skipSpace rest) := by
  have hspace : skipSpace (',' :: rest) = ',' :: rest := rfl
  simp only [elements, h, hspace]

lemma value_brace (h : skipSpace cs = '"' :: rest) :
    value (steps + 1) ('\x7b' :: cs) = members steps [] ('"' :: rest) := by
  simp only [value, h]
  rfl

/-- The last member of an object. -/
lemma members_last {acc : List (String × Json)} {key : String} (margin : ℕ) (hcs : Starts cs)
    (h : value steps cs = .ok (item, newLine margin ++ '\x7d' :: rest)) :
    members (steps + 1) acc (quote key ++ ':' :: ' ' :: cs) =
      .ok (.obj (Keyed.ofList (acc.reverse ++ [(key, item)])), rest) := by
  have hcolon (tail : List Char) : skipSpace (':' :: tail) = ':' :: tail := rfl
  have hblank : skipSpace (' ' :: cs) = cs := hcs.skipSpace
  have hspace : skipSpace (newLine margin ++ '\x7d' :: rest) = '\x7d' :: rest :=
    skipSpace_newLine _ _
  rw [quote_append]
  simp only [members, stringBody_quoted, List.reverse_nil, List.nil_append, String.ofList_toList,
    hcolon, hblank, h, hspace, List.reverse_cons]

/-- A member of an object before others. -/
lemma members_next {acc : List (String × Json)} {key : String} (hcs : Starts cs)
    (h : value steps cs = .ok (item, ',' :: rest)) :
    members (steps + 1) acc (quote key ++ ':' :: ' ' :: cs) =
      members steps ((key, item) :: acc) (skipSpace rest) := by
  have hcolon (tail : List Char) : skipSpace (':' :: tail) = ':' :: tail := rfl
  have hblank : skipSpace (' ' :: cs) = cs := hcs.skipSpace
  have hspace : skipSpace (',' :: rest) = ',' :: rest := rfl
  rw [quote_append]
  simp only [members, stringBody_quoted, List.reverse_nil, List.nil_append, String.ofList_toList,
    hcolon, hblank, h, hspace]

lemma skipSpace_prettyItems_one (margin : ℕ) (h : Fits item) (cs : List Char) :
    skipSpace (prettyItems margin [item] ++ cs) = pretty margin item ++ cs := by
  rw [prettyItems, List.append_assoc, skipSpace_newLine,
    ((starts_pretty margin h).append cs).skipSpace]

lemma skipSpace_prettyItems_cons (margin : ℕ) (h : Fits item) (next : Json)
    (items : List Json) (cs : List Char) :
    skipSpace (prettyItems margin (item :: next :: items) ++ cs) =
      pretty margin item ++ ',' :: (prettyItems margin (next :: items) ++ cs) := by
  rw [prettyItems, List.append_assoc, List.append_assoc, skipSpace_newLine,
    ((starts_pretty margin h).append _).skipSpace, List.cons_append]
  simp

lemma skipSpace_prettyFields_one (margin : ℕ) (key : String) (item : Json) (cs : List Char) :
    skipSpace (prettyFields margin [(key, item)] ++ cs) =
      quote key ++ ':' :: ' ' :: (pretty margin item ++ cs) := by
  rw [prettyFields, List.append_assoc, List.append_assoc, skipSpace_newLine,
    ((starts_quote key).append _).skipSpace]
  rfl

lemma skipSpace_prettyFields_cons (margin : ℕ) (key : String) (item : Json)
    (next : String × Json) (fields : List (String × Json)) (cs : List Char) :
    skipSpace (prettyFields margin ((key, item) :: next :: fields) ++ cs) =
      quote key ++ ':' :: ' ' ::
        (pretty margin item ++ ',' :: (prettyFields margin (next :: fields) ++ cs)) := by
  rw [prettyFields, List.append_assoc, List.append_assoc, List.append_assoc, skipSpace_newLine,
    ((starts_quote key).append _).skipSpace]
  · simp
  · simp

/-- The first item of a list, behind its margin. -/
lemma starts_prettyItems (margin : ℕ) {items : List Json} (hne : items ≠ [])
    (h : ∀ item ∈ items, Fits item) (cs : List Char) :
    Starts (skipSpace (prettyItems margin items ++ cs)) := by
  obtain ⟨item, items, rfl⟩ := List.exists_cons_of_ne_nil hne
  have hitem := starts_pretty margin (h item List.mem_cons_self)
  cases items with
  | nil =>
      rw [skipSpace_prettyItems_one margin (h item List.mem_cons_self)]
      exact hitem.append _
  | cons next items =>
      rw [skipSpace_prettyItems_cons margin (h item List.mem_cons_self)]
      exact hitem.append _

lemma skipSpace_prettyFields (margin : ℕ) {fields : List (String × Json)} (hne : fields ≠ [])
    (cs : List Char) :
    ∃ rest, skipSpace (prettyFields margin fields ++ cs) = '"' :: rest := by
  obtain ⟨⟨key, item⟩, fields, rfl⟩ := List.exists_cons_of_ne_nil hne
  cases fields with
  | nil => exact ⟨_, (skipSpace_prettyFields_one margin key item cs).trans (quote_append _ _)⟩
  | cons next fields =>
      exact ⟨_, (skipSpace_prettyFields_cons margin key item next fields cs).trans
        (quote_append _ _)⟩

/-- A list is read back if its items are. -/
lemma value_prettyItems {items : List Json} (h : ∀ item ∈ items, Fits item)
    (hsteps : (pretty margin (.arr items)).length ≤ steps + 1)
    (hread : items ≠ [] → (prettyItems (margin + 2) items).length ≤ steps →
      elements steps []
          (skipSpace (prettyItems (margin + 2) items ++ (newLine margin ++ ']' :: rest))) =
        .ok (.arr items, rest)) :
    value (steps + 1) (pretty margin (.arr items) ++ rest) = .ok (.arr items, rest) := by
  cases items with
  | nil =>
      simp only [pretty, List.cons_append, List.nil_append, value]
      rfl
  | cons item items =>
      have hne : item :: items ≠ [] := List.cons_ne_nil _ _
      have htext : pretty margin (.arr (item :: items)) ++ rest =
          '[' :: (prettyItems (margin + 2) (item :: items) ++ (newLine margin ++ ']' :: rest)) := by
        simp [pretty]
      have hlength : (prettyItems (margin + 2) (item :: items)).length ≤ steps := by
        simp only [pretty, List.length_append, List.length_cons] at hsteps
        omega
      rw [htext, value_bracket (starts_prettyItems _ hne h _)]
      exact hread hne hlength

/-- So is an object whose names differ, if its members are. -/
lemma value_prettyFields {fields : List (String × Json)} (hnodup : (Keyed.keys fields).Nodup)
    (hsteps : (pretty margin (.obj fields)).length ≤ steps + 1)
    (hread : fields ≠ [] → (prettyFields (margin + 2) fields).length ≤ steps →
      members steps []
          (skipSpace (prettyFields (margin + 2) fields ++ (newLine margin ++ '\x7d' :: rest))) =
        .ok (.obj (Keyed.ofList fields), rest)) :
    value (steps + 1) (pretty margin (.obj fields) ++ rest) = .ok (.obj fields, rest) := by
  cases fields with
  | nil =>
      simp only [pretty, List.cons_append, List.nil_append, value]
      rfl
  | cons field fields =>
      have hne : field :: fields ≠ [] := List.cons_ne_nil _ _
      have htext : pretty margin (.obj (field :: fields)) ++ rest =
          '\x7b' :: (prettyFields (margin + 2) (field :: fields) ++
            (newLine margin ++ '\x7d' :: rest)) := by simp [pretty]
      have hlength : (prettyFields (margin + 2) (field :: fields)).length ≤ steps := by
        simp only [pretty, List.length_append, List.length_cons] at hsteps
        omega
      obtain ⟨tail, hstart⟩ := skipSpace_prettyFields (margin + 2) hne
        (newLine margin ++ '\x7d' :: rest)
      rw [htext, value_brace hstart, ← hstart, hread hne hlength, Keyed.ofList,
        Keyed.putAll_of_nodup hnodup, List.nil_append]

mutual

/-- **A value that fits is read back** from its text behind any margin, whatever ends it. Every step
of the reader takes a character at least, so the length of the text is a bound. -/
lemma value_pretty (margin steps : ℕ) (v : Json) (rest : List Char) (h : Fits v)
    (hsteps : (pretty margin v).length ≤ steps) (hrest : NumberEnds rest) :
    value steps (pretty margin v ++ rest) = .ok (v, rest) := by
  have hpos : 0 < (pretty margin v).length := by
    obtain ⟨c, tail, heq, -⟩ := starts_pretty margin h
    rw [heq]
    exact Nat.succ_pos _
  obtain ⟨steps, rfl⟩ := Nat.exists_eq_add_one.mpr (lt_of_lt_of_le hpos hsteps)
  cases v with
  | null => rfl
  | bool b => cases b <;> rfl
  | int n =>
      cases h with
      | int h => exact value_intText h hrest steps
  | float x =>
      cases h with
      | float h => exact value_floatText h hrest steps
  | str s => exact value_quote steps s rest
  | arr items =>
      cases h with
      | arr hitems =>
          exact value_prettyItems hitems hsteps fun hne hlength =>
            elements_pretty (margin + 2) margin steps [] items rest hne hitems hlength
  | obj fields =>
      cases h with
      | obj hnodup hfields =>
          exact value_prettyFields hnodup hsteps fun hne hlength =>
            members_pretty (margin + 2) margin steps [] fields rest hne hfields hlength

/-- The items of a list are read one after another. -/
lemma elements_pretty (margin margin' steps : ℕ) (acc items : List Json) (rest : List Char)
    (hne : items ≠ []) (h : ∀ item ∈ items, Fits item)
    (hsteps : (prettyItems margin items).length ≤ steps) :
    elements steps acc
        (skipSpace (prettyItems margin items ++ (newLine margin' ++ ']' :: rest))) =
      .ok (.arr (acc.reverse ++ items), rest) := by
  cases items with
  | nil => exact absurd rfl hne
  | cons item items =>
      have hitem := h item List.mem_cons_self
      cases items with
      | nil =>
          simp only [prettyItems, newLine, List.length_append, List.length_cons] at hsteps
          obtain ⟨steps, rfl⟩ := Nat.exists_eq_add_one.mpr (show 0 < steps by omega)
          rw [skipSpace_prettyItems_one margin hitem]
          exact elements_last margin' (value_pretty margin steps item _ hitem (by omega)
            (numberEnds_newLine _ _))
      | cons next items =>
          simp only [prettyItems, newLine, List.length_append, List.length_cons] at hsteps
          obtain ⟨steps, rfl⟩ := Nat.exists_eq_add_one.mpr (show 0 < steps by omega)
          have hread := value_pretty margin steps item
            (',' :: (prettyItems margin (next :: items) ++ (newLine margin' ++ ']' :: rest))) hitem
            (by omega) (numberEnds_comma _)
          rw [skipSpace_prettyItems_cons margin hitem, elements_next hread,
            elements_pretty margin margin' steps (item :: acc) (next :: items) rest
              (List.cons_ne_nil _ _) (fun other hother => h other (List.mem_cons_of_mem _ hother))
              (by omega)]
          simp

/-- So are the members of an object. -/
lemma members_pretty (margin margin' steps : ℕ) (acc fields : List (String × Json))
    (rest : List Char) (hne : fields ≠ []) (h : ∀ field ∈ fields, Fits field.2)
    (hsteps : (prettyFields margin fields).length ≤ steps) :
    members steps acc
        (skipSpace (prettyFields margin fields ++ (newLine margin' ++ '\x7d' :: rest))) =
      .ok (.obj (Keyed.ofList (acc.reverse ++ fields)), rest) := by
  cases fields with
  | nil => exact absurd rfl hne
  | cons field fields =>
      obtain ⟨key, item⟩ := field
      have hitem : Fits item := h (key, item) List.mem_cons_self
      cases fields with
      | nil =>
          simp only [prettyFields, newLine, List.length_append, List.length_cons] at hsteps
          obtain ⟨steps, rfl⟩ := Nat.exists_eq_add_one.mpr (show 0 < steps by omega)
          rw [skipSpace_prettyFields_one]
          exact members_last margin' ((starts_pretty margin hitem).append _)
            (value_pretty margin steps item _ hitem (by omega) (numberEnds_newLine _ _))
      | cons next fields =>
          simp only [prettyFields, newLine, List.length_append, List.length_cons] at hsteps
          obtain ⟨steps, rfl⟩ := Nat.exists_eq_add_one.mpr (show 0 < steps by omega)
          have hread := value_pretty margin steps item
            (',' :: (prettyFields margin (next :: fields) ++ (newLine margin' ++ '\x7d' :: rest)))
            hitem (by omega) (numberEnds_comma _)
          rw [skipSpace_prettyFields_cons,
            members_next ((starts_pretty margin hitem).append _) hread,
            members_pretty margin margin' steps ((key, item) :: acc) (next :: fields) rest
              (List.cons_ne_nil _ _) (fun other hother => h other (List.mem_cons_of_mem _ hother))
              (by omega)]
          simp

end

/-- **A value that fits is read back**, behind any margin. -/
lemma read_pretty (margin : ℕ) (h : Fits v) : read (pretty margin v) = .ok v := by
  have hstarts := starts_pretty margin h
  have hmark : (pretty margin v).head? ≠ some '\ufeff' := by
    obtain ⟨c, rest, heq, -, -, hc⟩ := hstarts
    rw [heq]
    exact fun hhead => hc (Option.some.inj hhead)
  have hread := value_pretty margin (2 * (pretty margin v).length + 1) v [] h (by omega)
    (by simp [NumberEnds])
  rw [List.append_nil] at hread
  rw [read, if_neg hmark, hstarts.skipSpace, hread]
  rfl

end Json

end RequestSuite
