/-
What a console shows of a message.

* `HoldsTag`, `ClosesTag`, `Plain`: texts that hold a style tag, that close one that is not open,
  and that hold nothing to interpret;
* `Console.Laws`: what is taken to hold of the console of a run;
* `Marked`: texts in which a terminal finds something to interpret;
* `piecesFrom_spec`: pieces show a part of their text, all of it only if there is no tag;
* `plainText?_eq_some_self_iff`: exactly the texts without marks are shown as they are;
* `isSome_plainText?`, `plainText?_of_closesTag`: a text without `[/` can be printed, and one that
  closes a tag that is not open cannot;
* `plainText?_markup`: what is shown of a message is its label and what is shown of its text;
* `terminal_markup_iff`: when a terminal shows a message as it is; `laws_terminal`: it keeps to the
  laws.
-/
import Mathlib.Data.List.TakeWhile
import Mathlib.Tactic
import RequestSuite.Command.Markup
import RequestSuite.Proofs.Brackets
import RequestSuite.Proofs.PathText
import RequestSuite.Text.Utf8

namespace RequestSuite.Command

open Text (fields)

variable {tag rest text cs : List Char}

/-! ### Consoles -/

/-- A style tag, without its brackets. -/
def IsTag (tag : List Char) : Prop :=
  (tag.head?.map startsTag).getD false = true ∧ ∀ c ∈ tag, c ≠ '[' ∧ c ≠ ']'

/-- A text that holds a style tag, and no backslash in front of it. -/
def HoldsTag (text : List Char) : Prop :=
  ∃ before tag after, text = before ++ '[' :: (tag ++ ']' :: after) ∧ IsTag tag ∧
    before.getLast? ≠ some '\\'

/-- A text that closes a style before any is opened in it. -/
def ClosesTag (text : List Char) : Prop :=
  ∃ before name after, text = before ++ '[' :: '/' :: (name ++ ']' :: after) ∧ '[' ∉ before ∧
    before.getLast? ≠ some '\\' ∧ ∀ c ∈ name, c ≠ '[' ∧ c ≠ ']'

/-- A character that takes up its place on a line. -/
def isVisible (c : Char) : Bool :=
  (0x20 ≤ c.toNat && c.toNat < 0x7f) || (0xa0 ≤ c.toNat && c != Text.marker)

/-- A text with nothing to interpret. -/
structure Plain (text : List Char) : Prop where
  /-- No bracket starts a style tag. -/
  brackets : ∀ c ∈ text, ['[', c] <:+: text → startsTag c = false
  /-- None follows a backslash. -/
  backslashes : ¬ ['\\', '['] <:+: text
  /-- Between two colons, which might name a picture, there is a space. -/
  colons : ∀ part ∈ (fields (· == ':') text).tail.dropLast, ' ' ∈ part
  visible : ∀ c ∈ text, isVisible c = true

instance (text : List Char) : Decidable (Plain text) :=
  decidable_of_iff
    ((∀ c ∈ text, ['[', c] <:+: text → startsTag c = false) ∧ ¬ ['\\', '['] <:+: text ∧
      (∀ part ∈ (fields (· == ':') text).tail.dropLast, ' ' ∈ part) ∧
      ∀ c ∈ text, isVisible c = true)
    ⟨fun h => ⟨h.1, h.2.1, h.2.2.1, h.2.2.2⟩,
      fun h => ⟨h.brackets, h.backslashes, h.colons, h.visible⟩⟩

/-- The columns that a text takes up at most. -/
def columns (text : List Char) : ℕ := (text.map fun c => if c.toNat < 0x7f then 1 else 2).sum

/-- What is taken to hold of a console whose lines have `width` columns: it interprets style tags,
hides them, and does not print what closes one that is not open. -/
structure Console.Laws (console : Console) (width : ℕ) : Prop where
  /-- What closes no tag is printed, if it has bytes. -/
  prints : ∀ m : Message, ¬ ['[', '/'] <:+: m.said.toList →
    Text.encodeFault? m.said.toList = none → (console m.markup).isSome = true
  /-- What closes a tag that is not open is not. -/
  raises : ∀ m : Message, ClosesTag m.said.toList → console m.markup = none
  /-- Tags are not shown. -/
  hides : ∀ m : Message, HoldsTag m.said.toList → console m.markup ≠ some m.plain
  /-- Texts with nothing to interpret are, as they are, if they have room on a line. -/
  shows : ∀ m : Message, Plain m.said.toList → columns m.plain.toList ≤ width →
    console m.markup = some m.plain

/-! ### Tags -/

/-- A text in which a terminal finds something to interpret: a tag, or a backslash before a bracket.
-/
def Marked (text : List Char) : Prop :=
  ['\\', '['] <:+: text ∨ ∃ tag, IsTag tag ∧ '[' :: (tag ++ [']']) <:+: text

/-- The characters inside a tag. -/
def insideTag (c : Char) : Bool := c != '[' && c != ']'

lemma insideTag_iff {c : Char} : insideTag c = true ↔ c ≠ '[' ∧ c ≠ ']' := by
  simp [insideTag]

/-- A tag is taken where one stands. -/
lemma takeTag?_eq_some_iff :
    takeTag? cs = some (tag, rest) ↔ IsTag tag ∧ cs = tag ++ ']' :: rest := by
  constructor
  · intro h
    rw [takeTag?] at h
    split_ifs at h with hstart
    split at h
    · next rest' hdrop =>
      obtain ⟨rfl, rfl⟩ : cs.takeWhile insideTag = tag ∧ rest' = rest :=
        Prod.mk.inj (Option.some.inj h)
      refine ⟨⟨?_, fun c hc => insideTag_iff.mp (List.mem_takeWhile_imp hc)⟩, ?_⟩
      · cases cs with
        | nil => exact absurd hstart (by decide)
        | cons c cs =>
            have hopen : ¬ startsTag '[' = true := by decide
            have hclose : ¬ startsTag ']' = true := by decide
            have hinside : insideTag c = true := by
              rw [insideTag_iff]
              exact ⟨fun h => hopen (h ▸ hstart), fun h => hclose (h ▸ hstart)⟩
            rw [List.takeWhile_cons_of_pos hinside]
            exact hstart
      · have hsplit := List.takeWhile_append_dropWhile (p := insideTag) (l := cs)
        exact hsplit.symm.trans (congrArg _ hdrop)
    · cases h
  · rintro ⟨⟨hstart, hinside⟩, rfl⟩
    have hall : ∀ c ∈ tag, insideTag c = true := fun c hc => insideTag_iff.mpr (hinside c hc)
    have hhead : ((tag ++ ']' :: rest).head?.map startsTag).getD false = true := by
      cases tag with
      | nil => exact absurd hstart (by decide)
      | cons c cs => exact hstart
    have hclose : ¬ insideTag ']' = true := by decide
    have hdrop : (tag ++ ']' :: rest).dropWhile insideTag = ']' :: rest := by
      rw [List.dropWhile_append_of_pos hall, List.dropWhile_cons_of_neg hclose]
    have htake : (tag ++ ']' :: rest).takeWhile insideTag = tag := by
      rw [List.takeWhile_append_of_pos hall, List.takeWhile_cons_of_neg hclose, List.append_nil]
    rw [takeTag?, if_pos hhead]
    unfold insideTag at hdrop htake
    simp only [hdrop, htake]

/-- Whether a tag is found from left to right. -/
def hasTag : List Char → Bool
  | [] => false
  | c :: cs => (c == '[' && (takeTag? cs).isSome) || hasTag cs

/-- A tag is found if and only if there is one. -/
lemma hasTag_iff : hasTag text = true ↔ ∃ tag, IsTag tag ∧ '[' :: (tag ++ [']']) <:+: text := by
  induction text with
  | nil => simp [hasTag]
  | cons c cs ih =>
      rw [hasTag, Bool.or_eq_true, Bool.and_eq_true, beq_iff_eq, ih, Option.isSome_iff_exists]
      constructor
      · rintro (⟨rfl, ⟨tag, rest⟩, htake⟩ | ⟨tag, htag, hpart⟩)
        · obtain ⟨htag, rfl⟩ := takeTag?_eq_some_iff.mp htake
          exact ⟨tag, htag, [], rest, by simp⟩
        · exact ⟨tag, htag, List.infix_cons hpart⟩
      · rintro ⟨tag, htag, hpart⟩
        rcases List.infix_cons_iff.mp hpart with ⟨rest, hrest⟩ | hpart
        · obtain ⟨rfl, hcs⟩ := List.cons.inj hrest
          exact Or.inl ⟨rfl, (tag, rest), takeTag?_eq_some_iff.mpr ⟨htag, by simp [← hcs]⟩⟩
        · exact Or.inr ⟨tag, htag, hpart⟩

/-! ### Plain text -/

lemma unescapeBrackets_sublist (text : List Char) : (unescapeBrackets text).Sublist text := by
  fun_induction unescapeBrackets text with
  | case1 cs ih => exact (ih.cons_cons _).cons _
  | case2 c cs _ ih => exact ih.cons_cons _
  | case3 => exact .slnil

/-- Plain text is shown as it is if and only if no bracket follows a backslash. -/
lemma unescapeBrackets_eq_self_iff :
    unescapeBrackets text = text ↔ ¬ ['\\', '['] <:+: text := by
  fun_induction unescapeBrackets text with
  | case1 cs ih =>
      refine iff_of_false (fun h => ?_) (not_not_intro ⟨[], cs, rfl⟩)
      have hlength := congrArg List.length h
      have hle := (unescapeBrackets_sublist cs).length_le
      simp only [List.length_cons] at hlength
      omega
  | case2 c cs hother ih =>
      rw [List.cons_inj_right, ih, List.infix_cons_iff, not_or]
      refine (and_iff_right ?_).symm
      rintro ⟨rest, hrest⟩
      obtain ⟨rfl, hcs⟩ := List.cons.inj hrest
      exact hother rest rfl hcs.symm
  | case3 => simp

/-! ### Pieces -/

/-- What a piece shows. -/
def Piece.content : Piece → List Char
  | .text cs => cs
  | .tag _ => []

/-- What some pieces show. -/
def content (ps : List Piece) : List Char := ps.flatMap Piece.content

lemma content_append (ps ps' : List Piece) : content (ps ++ ps') = content ps ++ content ps' :=
  List.flatMap_append

/-- Backslashes and a tag are not all shown. -/
lemma content_escapedTag (backslashes : ℕ) (tag : List Char) :
    (content (escapedTag backslashes tag)).Sublist
        (List.replicate backslashes '\\' ++ '[' :: (tag ++ [']'])) ∧
      (content (escapedTag backslashes tag)).length < backslashes + tag.length + 2 := by
  have hhalf : (List.replicate (backslashes / 2) '\\').Sublist
      (List.replicate backslashes '\\') :=
    (List.replicate_sublist_replicate _).mpr (Nat.div_le_self _ _)
  rw [escapedTag]
  split_ifs with hodd
  · have hcontent : content [.text (List.replicate (backslashes / 2) '\\'),
        .text ('[' :: tag ++ [']'])] =
          List.replicate (backslashes / 2) '\\' ++ '[' :: (tag ++ [']']) := by
      simp [content, Piece.content]
    rw [hcontent]
    refine ⟨hhalf.append (List.Sublist.refl _), ?_⟩
    simp only [List.length_append, List.length_replicate, List.length_cons, List.length_nil]
    omega
  · have hcontent : content [.text (List.replicate (backslashes / 2) '\\'), .tag tag] =
        List.replicate (backslashes / 2) '\\' := by
      simp [content, Piece.content]
    rw [hcontent]
    refine ⟨hhalf.trans (List.sublist_append_left _ _), ?_⟩
    rw [List.length_replicate]
    omega

/-- The text before a tag is text up to the backslashes right before the tag. -/
lemma reverse_eq_append_replicate (acc : List Char) :
    acc.reverse = (acc.dropWhile (· == '\\')).reverse ++
      List.replicate (acc.length - (acc.dropWhile (· == '\\')).length) '\\' := by
  have hsplit := List.takeWhile_append_dropWhile (p := (· == '\\')) (l := acc)
  have hlength := congrArg List.length hsplit
  rw [List.length_append] at hlength
  have hslashes : acc.takeWhile (· == '\\') =
      List.replicate (acc.length - (acc.dropWhile (· == '\\')).length) '\\' := by
    rw [List.eq_replicate_iff]
    exact ⟨by omega, fun c hc => by simpa using List.mem_takeWhile_imp hc⟩
  conv_lhs => rw [← hsplit]
  rw [List.reverse_append, hslashes, List.reverse_replicate]

lemma piecesFrom_nil (steps : ℕ) (acc : List Char) :
    piecesFrom steps acc [] = [.text (unescapeBrackets acc.reverse)] := by
  cases steps <;> simp [piecesFrom]

/-- Of the text up to a tag and the tag itself less is shown than there is. -/
lemma piecesFrom_of_tag (htake : takeTag? cs = some (tag, rest)) (steps : ℕ) (acc : List Char) :
    ∃ shown, content (piecesFrom (steps + 1) acc ('[' :: cs)) =
        shown ++ content (piecesFrom steps [] rest) ∧
      shown.Sublist (acc.reverse ++ '[' :: (tag ++ [']'])) ∧
      shown.length < acc.length + tag.length + 2 := by
  have hpieces : piecesFrom (steps + 1) acc ('[' :: cs) =
      .text (unescapeBrackets (acc.dropWhile (· == '\\')).reverse) ::
        (escapedTag (acc.length - (acc.dropWhile (· == '\\')).length) tag ++
          piecesFrom steps [] rest) := by
    rw [piecesFrom, if_pos rfl, htake]
  have hreverse := reverse_eq_append_replicate acc
  have hle := (List.dropWhile_suffix (l := acc) (· == '\\')).length_le
  rw [hpieces, hreverse]
  generalize acc.dropWhile (· == '\\') = before at *
  obtain ⟨htag, hlength⟩ := content_escapedTag (acc.length - before.length) tag
  have hbefore := unescapeBrackets_sublist before.reverse
  refine ⟨unescapeBrackets before.reverse ++
    content (escapedTag (acc.length - before.length) tag), ?_, ?_, ?_⟩
  · rw [List.append_assoc, ← content_append]
    rfl
  · rw [List.append_assoc]
    exact hbefore.append htag
  · have hbeforeLength := hbefore.length_le
    rw [List.length_reverse] at hbeforeLength
    rw [List.length_append]
    omega

/-- A character that starts no tag goes to the plain text. -/
lemma piecesFrom_of_no_tag {c : Char} (hnone : (if c = '[' then takeTag? cs else none) = none)
    (steps : ℕ) (acc : List Char) :
    piecesFrom (steps + 1) acc (c :: cs) = piecesFrom steps (c :: acc) cs ∧
      hasTag (c :: cs) = hasTag cs := by
  refine ⟨by rw [piecesFrom, hnone], ?_⟩
  rw [hasTag]
  by_cases hc : c = '['
  · rw [if_pos hc] at hnone
    rw [hnone, Option.isSome_none, Bool.and_false, Bool.false_or]
  · rw [beq_eq_false_iff_ne.mpr hc, Bool.false_and, Bool.false_or]

/-- **Pieces show a part of their text.** Without a tag they are plain text; with one they show less
than there is. -/
lemma piecesFrom_spec {steps : ℕ} (hsteps : text.length ≤ steps) (acc : List Char) :
    (content (piecesFrom steps acc text)).Sublist (acc.reverse ++ text) ∧
      (hasTag text = false →
        piecesFrom steps acc text = [.text (unescapeBrackets (acc.reverse ++ text))]) ∧
      (hasTag text = true →
        (content (piecesFrom steps acc text)).length < acc.length + text.length) := by
  have hend (acc : List Char) :
      (content [.text (unescapeBrackets acc.reverse)]).Sublist acc.reverse := by
    simpa [content, Piece.content] using unescapeBrackets_sublist acc.reverse
  induction steps generalizing acc text with
  | zero =>
      obtain rfl := List.length_eq_zero_iff.mp (Nat.le_zero.mp hsteps)
      rw [piecesFrom_nil, List.append_nil]
      exact ⟨hend acc, fun _ => rfl, nofun⟩
  | succ steps ih =>
      cases text with
      | nil =>
          rw [piecesFrom_nil, List.append_nil]
          exact ⟨hend acc, fun _ => rfl, nofun⟩
      | cons c cs =>
          rw [List.length_cons, Nat.succ_le_succ_iff] at hsteps
          cases htake : if c = '[' then takeTag? cs else none with
          | none =>
              obtain ⟨hpieces, hsame⟩ := piecesFrom_of_no_tag htake steps acc
              have hspec := ih hsteps (c :: acc)
              rw [List.reverse_cons, List.append_assoc, List.singleton_append] at hspec
              rw [hpieces, hsame]
              refine ⟨hspec.1, hspec.2.1, fun h => ?_⟩
              have hlength := hspec.2.2 h
              rw [List.length_cons] at hlength ⊢
              omega
          | some found =>
              obtain ⟨tag, rest⟩ := found
              split_ifs at htake with hc
              subst hc
              obtain ⟨shown, hshown, hsub, hlength⟩ := piecesFrom_of_tag htake steps acc
              obtain ⟨-, rfl⟩ := takeTag?_eq_some_iff.mp htake
              have hfound : hasTag ('[' :: (tag ++ ']' :: rest)) = true := by
                rw [hasTag, htake]
                rfl
              rw [List.length_append, List.length_cons] at hsteps
              have hrest := (ih (by omega : rest.length ≤ steps) []).1
              have hrestLength := hrest.length_le
              rw [List.reverse_nil, List.nil_append] at hrest hrestLength
              rw [hshown, hfound]
              refine ⟨?_, nofun, fun _ => ?_⟩
              · have hboth := hsub.append hrest
                simpa using hboth
              · simp only [List.length_append, List.length_cons]
                omega

/-! ### What is shown -/

/-- If some pieces can be shown, all their plain text is. -/
lemma eq_content_of_shown? {ps : List Piece} {opened : List String}
    (h : shown? opened ps = some cs) : cs = content ps := by
  induction ps generalizing opened cs with
  | nil => exact (Option.some.inj h).symm
  | cons piece ps ih =>
      unfold shown? at h
      split at h
      · next heq => cases heq
      · next shown ps' heq =>
        obtain ⟨rfl, rfl⟩ := List.cons.inj heq
        obtain ⟨others, hothers, rfl⟩ := Option.map_eq_some_iff.mp h
        rw [ih hothers]
        rfl
      · next tag ps' heq =>
        obtain ⟨rfl, rfl⟩ := List.cons.inj heq
        obtain ⟨left, -, hleft⟩ := Option.bind_eq_some_iff.mp h
        exact ih hleft
      · next tag ps' _ heq =>
        obtain ⟨rfl, rfl⟩ := List.cons.inj heq
        exact ih h

/-- **Exactly the texts without marks are shown as they are.** -/
lemma plainText?_eq_some_self_iff : plainText? text = some text ↔ ¬ Marked text := by
  obtain ⟨-, hplain, hless⟩ := piecesFrom_spec (le_refl text.length) []
  rw [List.reverse_nil, List.nil_append] at hplain
  rw [Marked, ← hasTag_iff, not_or, ← unescapeBrackets_eq_self_iff, Bool.not_eq_true, plainText?,
    pieces]
  constructor
  · intro h
    have hshown := eq_content_of_shown? h
    have hnone : hasTag text = false := by
      by_contra htag
      have hlength := hless (by simpa using htag)
      rw [← hshown, List.length_nil] at hlength
      omega
    rw [hplain hnone] at hshown
    exact ⟨by simpa [content, Piece.content] using hshown.symm, hnone⟩
  · rintro ⟨hself, hnone⟩
    rw [hplain hnone, hself, shown?, shown?, Option.map_some, List.append_nil]

lemma sublist_of_plainText? (h : plainText? text = some cs) : cs.Sublist text := by
  rw [eq_content_of_shown? h]
  exact (piecesFrom_spec (le_refl text.length) []).1

/-- A tag that is found stands in the text. -/
lemma infix_of_mem_piecesFrom {steps : ℕ} {acc : List Char}
    (h : .tag tag ∈ piecesFrom steps acc text) : '[' :: tag <:+: text := by
  induction steps generalizing acc text with
  | zero => simp [piecesFrom] at h
  | succ steps ih =>
      cases text with
      | nil => simp [piecesFrom] at h
      | cons c cs =>
          rw [piecesFrom] at h
          split at h
          · next found rest htake =>
            split_ifs at htake with hc
            obtain ⟨-, rfl⟩ := takeTag?_eq_some_iff.mp htake
            subst hc
            rw [List.mem_cons, List.mem_append] at h
            rcases h with h | h | h
            · cases h
            · have hsame : tag = found := by
                rw [escapedTag] at h
                split_ifs at h <;> simp_all
              exact hsame ▸ ⟨[], ']' :: rest, by simp⟩
            · exact (ih h).trans ⟨'[' :: (found ++ [']']), [], by simp⟩
          · exact List.infix_cons (ih h)

/-- **A text without `[/` can be printed**: no tag is closed in it. -/
lemma isSome_plainText? (h : ¬ ['[', '/'] <:+: text) : (plainText? text).isSome = true := by
  have hopen : ∀ tag, .tag ('/' :: tag) ∉ pieces text := fun tag hmem =>
    h (List.IsInfix.trans ⟨[], tag, rfl⟩ (infix_of_mem_piecesFrom hmem))
  rw [plainText?]
  generalize pieces text = ps at hopen
  generalize ([] : List String) = opened
  induction ps generalizing opened with
  | nil => rfl
  | cons piece ps ih =>
      have hothers : ∀ tag, .tag ('/' :: tag) ∉ ps := fun tag hmem =>
        hopen tag (List.mem_cons_of_mem _ hmem)
      unfold shown?
      split
      · rfl
      · next shown ps' heq =>
        obtain ⟨rfl, rfl⟩ := List.cons.inj heq
        rw [Option.isSome_map]
        exact ih hothers opened
      · next tag ps' heq =>
        obtain ⟨rfl, rfl⟩ := List.cons.inj heq
        exact absurd List.mem_cons_self (hopen tag)
      · next tag ps' _ heq =>
        obtain ⟨rfl, rfl⟩ := List.cons.inj heq
        exact ih hothers _

/-- Text without brackets goes to the plain text. -/
lemma piecesFrom_append {before : List Char} (h : '[' ∉ before) (steps : ℕ) (acc : List Char) :
    piecesFrom (steps + before.length) acc (before ++ text) =
      piecesFrom steps (before.reverse ++ acc) text := by
  induction before generalizing acc with
  | nil => rfl
  | cons c before ih =>
      obtain ⟨hc, hbefore⟩ := not_or.mp (List.mem_cons.not.mp h)
      have hnone : (if c = '[' then takeTag? (before ++ text) else none) = none :=
        if_neg (Ne.symm hc)
      rw [List.length_cons, ← Nat.add_assoc, List.cons_append,
        (piecesFrom_of_no_tag hnone _ acc).1, ih hbefore, List.reverse_cons, List.append_assoc,
        List.singleton_append]

/-- **A text that closes a tag that is not open cannot be printed.** -/
lemma plainText?_of_closesTag (h : ClosesTag text) : plainText? text = none := by
  obtain ⟨before, name, after, rfl, hbefore, hlast, hname⟩ := h
  have htag : takeTag? ('/' :: (name ++ ']' :: after)) = some ('/' :: name, after) :=
    takeTag?_eq_some_iff.mpr ⟨⟨rfl, List.forall_mem_cons.mpr ⟨by decide, hname⟩⟩, rfl⟩
  have hkept : before.reverse.dropWhile (· == '\\') = before.reverse := by
    rw [List.dropWhile_eq_self_iff]
    intro hpos hslash
    rw [beq_iff_eq] at hslash
    refine hlast ?_
    rw [← List.head?_reverse, List.head?_eq_getElem?, List.getElem?_eq_getElem hpos, hslash]
  have hclose (name : List Char) : closeTag? name [] = none := by
    unfold closeTag?
    split_ifs <;> simp_all
  have hlength : (before ++ '[' :: '/' :: (name ++ ']' :: after)).length =
      (name ++ ']' :: after).length + 1 + 1 + before.length := by
    simp only [List.length_append, List.length_cons]
    omega
  rw [plainText?, pieces, hlength, piecesFrom_append hbefore, List.append_nil, piecesFrom,
    if_pos rfl, htag]
  simp only [hkept, Nat.sub_self, escapedTag, Nat.zero_mod, Nat.zero_div, List.replicate_zero,
    zero_ne_one, if_false, List.cons_append, List.nil_append, shown?, hclose, Option.bind_none,
    Option.map_none]

/-! ### Messages -/

/-- What holds of the labels holds of that of a message. -/
lemma forall_label {p : Char → Prop}
    (h : ∀ label ∈ ["[PM]", "[PM][OK]", "[PM][WARN]", "[PM][FAIL]"], ∀ c ∈ label.toList, p c)
    (m : Message) : ∀ c ∈ m.label.toList, p c := by
  cases m with
  | info _ => exact h "[PM]" (by simp)
  | done _ => exact h "[PM][OK]" (by simp)
  | warning _ => exact h "[PM][WARN]" (by simp)
  | failure _ => exact h "[PM][FAIL]" (by simp)

/-- The number of steps does not matter if it is large enough. -/
lemma piecesFrom_congr {steps steps' : ℕ} (h : text.length ≤ steps) (h' : text.length ≤ steps')
    (acc : List Char) : piecesFrom steps acc text = piecesFrom steps' acc text := by
  induction steps generalizing steps' acc text with
  | zero =>
      obtain rfl := List.length_eq_zero_iff.mp (Nat.le_zero.mp h)
      rw [piecesFrom_nil, piecesFrom_nil]
  | succ steps ih =>
      cases text with
      | nil => rw [piecesFrom_nil, piecesFrom_nil]
      | cons c cs =>
          rw [List.length_cons] at h h'
          obtain ⟨steps', rfl⟩ : ∃ n, steps' = n + 1 := ⟨steps' - 1, by omega⟩
          rw [piecesFrom, piecesFrom]
          split
          · next found rest htake =>
            split_ifs at htake
            obtain ⟨-, rfl⟩ := takeTag?_eq_some_iff.mp htake
            rw [List.length_append, List.length_cons] at h h'
            have hrest : piecesFrom steps [] rest = piecesFrom steps' [] rest :=
              ih (by omega) (by omega) []
            rw [hrest]
          · exact ih (by omega) (by omega) _

/-- A label in a color is shown without the color. -/
lemma shown?_label {color : List Char} (hcolor : (Text.trim color).isEmpty = false)
    (hslash : color.head? ≠ some '/') (heq : color.takeWhile (· != '=') = color)
    (label : List Char) (ps : List Piece) :
    shown? [] (.text [] :: .text [] :: .tag color :: .text label :: .text [] ::
      .tag ('/' :: color) :: ps) = (shown? [] ps).map (label ++ ·) := by
  have hclose : closeTag? color [styleName color] = some [] := by
    rw [closeTag?, hcolor, if_neg Bool.false_ne_true, if_pos (by simp)]
    simp
  have hopen (ps : List Piece) :
      shown? [] (.tag color :: ps) = shown? [styleName color] ps := by
    conv_lhs => unfold shown?
    split
    · next h => cases h
    · next h => cases (List.cons.inj h).1
    · next tag ps' h =>
      obtain ⟨hcolor, -⟩ := List.cons.inj h
      obtain rfl := Piece.tag.inj hcolor
      exact absurd rfl hslash
    · next tag ps' _ h =>
      obtain ⟨hcolor, rfl⟩ := List.cons.inj h
      obtain rfl := Piece.tag.inj hcolor
      rw [heq]
  rw [shown?, shown?, hopen, shown?, shown?, shown?, heq, hclose, Option.bind_some]
  simp only [Option.map_map]
  rfl

/-- A label in a color. -/
def labelIn (color label : List Char) : List Char :=
  '[' :: (color ++ ']' :: (label ++ '[' :: '/' :: (color ++ [']'])))

/-- A message is its label in its color, and its text. -/
lemma toList_markup (m : Message) :
    m.markup.toList = labelIn m.color.toList m.label.toList ++ ' ' :: m.said.toList := by
  have hopen : "[".toList = ['['] := rfl
  have hclose : "]".toList = [']'] := rfl
  have hback : "[/".toList = ['[', '/'] := rfl
  have hend : "] ".toList = [']', ' '] := rfl
  simp only [Message.markup, String.toList_append, hopen, hclose, hback, hend, labelIn,
    List.append_assoc, List.cons_append, List.nil_append]

lemma toList_plain (m : Message) : m.plain.toList = m.label.toList ++ ' ' :: m.said.toList := by
  have hspace : " ".toList = [' '] := rfl
  simp only [Message.plain, String.toList_append, hspace, List.append_assoc, List.cons_append,
    List.nil_append]

/-- The steps that lead over the label of a message. -/
def Message.steps (m : Message) : ℕ := m.label.toList.length + 2

/-- The pieces of a message are those of its label and those of its text. -/
lemma piecesFrom_label (m : Message) (more : ℕ) (text : List Char) :
    piecesFrom (more + m.steps) [] (labelIn m.color.toList m.label.toList ++ ' ' :: text) =
      .text [] :: .text [] :: .tag m.color.toList :: .text m.label.toList :: .text [] ::
        .tag ('/' :: m.color.toList) :: piecesFrom more [] (' ' :: text) := by
  cases m <;>
  · unfold Message.steps Message.color Message.label
    repeat rw [String.toList_ofList]
    rfl

/-- **What is shown of a message** is its label and what is shown of its text. -/
lemma plainText?_markup (m : Message) :
    plainText? m.markup.toList = (plainText? (' ' :: m.said.toList)).map (m.label.toList ++ ·) := by
  have hcolors : ∀ color ∈ ["cyan", "green", "yellow", "red"],
      (Text.trim color.toList).isEmpty = false ∧ color.toList.head? ≠ some '/' ∧
        color.toList.takeWhile (· != '=') = color.toList := by decide
  have hcolor : (Text.trim m.color.toList).isEmpty = false ∧ m.color.toList.head? ≠ some '/' ∧
      m.color.toList.takeWhile (· != '=') = m.color.toList := by
    cases m with
    | info _ => exact hcolors "cyan" (by simp)
    | done _ => exact hcolors "green" (by simp)
    | warning _ => exact hcolors "yellow" (by simp)
    | failure _ => exact hcolors "red" (by simp)
  have hsteps : m.steps ≤ (labelIn m.color.toList m.label.toList).length := by
    simp only [Message.steps, labelIn, List.length_cons, List.length_append]
    omega
  have hlength : (labelIn m.color.toList m.label.toList ++ ' ' :: m.said.toList).length =
      (labelIn m.color.toList m.label.toList).length - m.steps + (' ' :: m.said.toList).length +
        m.steps := by
    rw [List.length_append]
    omega
  have hrest : piecesFrom ((labelIn m.color.toList m.label.toList).length - m.steps +
      (' ' :: m.said.toList).length) [] (' ' :: m.said.toList) = pieces (' ' :: m.said.toList) :=
    piecesFrom_congr (by omega) (le_refl _) []
  rw [toList_markup, plainText?, pieces, hlength, piecesFrom_label,
    shown?_label hcolor.1 hcolor.2.1 hcolor.2.2, hrest, ← plainText?]

/-! ### The terminal -/

/-- A text that a terminal shows character by character. -/
def Verbatim (text : List Char) : Prop :=
  ¬ Marked text ∧ ∀ c ∈ text, isHidden c = false ∧ c ≠ '\t'

/-- A text without tabs stays as it is. -/
lemma expandTabs_of_notMem (h : '\t' ∉ text) (column : ℕ) : expandTabs column text = text := by
  induction text generalizing column with
  | nil => rfl
  | cons c cs ih =>
      obtain ⟨hc, hcs⟩ := not_or.mp (List.mem_cons.not.mp h)
      unfold expandTabs
      split
      · next heq => cases heq
      · next heq => exact absurd (List.cons.inj heq).1.symm hc
      · next heq =>
        obtain ⟨rfl, rfl⟩ := List.cons.inj heq
        rw [ih hcs]
      · next heq =>
        obtain ⟨rfl, rfl⟩ := List.cons.inj heq
        rw [ih hcs]

/-- Expanding tabs leaves none, and brings nothing but spaces. -/
lemma mem_expandTabs {column : ℕ} {c : Char} (h : c ∈ expandTabs column text) :
    c ≠ '\t' ∧ (c = ' ' ∨ c ∈ text) := by
  induction text generalizing column with
  | nil => simp [expandTabs] at h
  | cons d ds ih =>
      unfold expandTabs at h
      split at h
      · next heq => cases heq
      · next heq =>
        obtain ⟨rfl, rfl⟩ := List.cons.inj heq
        rcases List.mem_append.mp h with hspace | hmem
        · rw [List.eq_of_mem_replicate hspace]
          exact ⟨by decide, Or.inl rfl⟩
        · exact (ih hmem).imp_right (Or.imp_right (List.mem_cons_of_mem _))
      · next heq =>
        obtain ⟨rfl, rfl⟩ := List.cons.inj heq
        rcases List.mem_cons.mp h with rfl | hmem
        · exact ⟨by decide, Or.inr List.mem_cons_self⟩
        · exact (ih hmem).imp_right (Or.imp_right (List.mem_cons_of_mem _))
      · next htab _ heq =>
        obtain ⟨rfl, rfl⟩ := List.cons.inj heq
        rcases List.mem_cons.mp h with rfl | hmem
        · exact ⟨htab, Or.inr List.mem_cons_self⟩
        · exact (ih hmem).imp_right (Or.imp_right (List.mem_cons_of_mem _))

/-- What starts with a character does not start in a text without it. -/
lemma infix_append_iff {c : Char} (front : List Char) (hc : c ∉ front) :
    c :: cs <:+: front ++ text ↔ c :: cs <:+: text := by
  induction front with
  | nil => rfl
  | cons d front ih =>
      rw [List.mem_cons, not_or] at hc
      rw [List.cons_append, List.infix_cons_iff, ih hc.2, or_iff_right]
      rintro ⟨rest, hrest⟩
      exact hc.1 (List.cons.inj hrest).1

lemma marked_space_iff : Marked (' ' :: text) ↔ Marked text := by
  have hslash : ['\\', '['] <:+: ' ' :: text ↔ ['\\', '['] <:+: text :=
    infix_append_iff [' '] (by decide)
  have hopen (cs : List Char) : '[' :: cs <:+: ' ' :: text ↔ '[' :: cs <:+: text :=
    infix_append_iff [' '] (by decide)
  simp only [Marked, hslash, hopen]

lemma expandTabs_filter_of_quiet (h : ∀ c ∈ text, isHidden c = false ∧ c ≠ '\t') :
    expandTabs 0 (text.filter fun c => !isHidden c) = text := by
  have hfilter : text.filter (fun c => !isHidden c) = text :=
    List.filter_eq_self.mpr fun c hc => by rw [(h c hc).1]; rfl
  rw [hfilter, expandTabs_of_notMem fun htab => (h _ htab).2 rfl]

lemma terminal_markup (m : Message) :
    terminal m.markup = (plainText? (' ' :: m.said.toList)).map fun cs =>
      String.ofList (expandTabs 0 ((m.label.toList ++ cs).filter fun c => !isHidden c)) := by
  rw [terminal, plainText?_markup, Option.map_map]
  rfl

/-- **A terminal shows a message as it is** if and only if its text can be shown character by
character. -/
lemma terminal_markup_iff (m : Message) :
    terminal m.markup = some m.plain ↔ Verbatim m.said.toList := by
  have hquietLabel : ∀ c ∈ m.label.toList, isHidden c = false ∧ c ≠ '\t' :=
    forall_label (by decide) m
  set said := m.said.toList with hsaid
  set whole := m.label.toList ++ ' ' :: said with hwhole
  have hplain : m.plain.toList = whole := toList_plain m
  rw [terminal_markup]
  constructor
  · intro h
    obtain ⟨cs, hcs, heq⟩ := Option.map_eq_some_iff.mp h
    have hshown : expandTabs 0 ((m.label.toList ++ cs).filter fun c => !isHidden c) = whole := by
      rw [← hplain, ← heq, String.toList_ofList]
    have hquiet : ∀ c ∈ whole, isHidden c = false ∧ c ≠ '\t' := by
      intro c hc
      rw [← hshown] at hc
      obtain ⟨htab, rfl | hmem⟩ := mem_expandTabs hc
      · exact ⟨by decide, htab⟩
      · exact ⟨by simpa using (List.mem_filter.mp hmem).2, htab⟩
    have hsub : (m.label.toList ++ cs).Sublist whole :=
      (List.Sublist.refl _).append (sublist_of_plainText? hcs)
    rw [expandTabs_filter_of_quiet fun c hc => hquiet c (hsub.subset hc), hwhole,
      List.append_cancel_left_eq] at hshown
    subst hshown
    exact ⟨fun hmarked => plainText?_eq_some_self_iff.mp hcs (marked_space_iff.mpr hmarked),
      fun c hc => hquiet c (List.mem_append_right _ (List.mem_cons_of_mem _ hc))⟩
  · rintro ⟨hmarked, hquiet⟩
    have hself : plainText? (' ' :: said) = some (' ' :: said) :=
      plainText?_eq_some_self_iff.mpr fun h => hmarked (marked_space_iff.mp h)
    have hwholeQuiet : ∀ c ∈ whole, isHidden c = false ∧ c ≠ '\t' := by
      rw [hwhole, List.forall_mem_append, List.forall_mem_cons]
      exact ⟨hquietLabel, ⟨by decide, by decide⟩, hquiet⟩
    rw [hself, Option.map_some, expandTabs_filter_of_quiet hwholeQuiet, ← hplain,
      String.ofList_toList]

/-- A visible character is neither hidden nor a tab. -/
lemma not_isHidden_of_isVisible {c : Char} (h : isVisible c = true) :
    isHidden c = false ∧ c ≠ '\t' := by
  have hcode : 0x20 ≤ c.toNat := by
    simp only [isVisible, Bool.or_eq_true, Bool.and_eq_true, decide_eq_true_eq] at h
    omega
  refine ⟨?_, ?_⟩
  · simp only [isHidden, List.contains_eq_mem, List.mem_cons, List.not_mem_nil, or_false,
      decide_eq_false_iff_not]
    omega
  · rintro rfl
    exact absurd hcode (by decide)

/-- A plain text is shown character by character. -/
lemma Plain.verbatim (h : Plain text) : Verbatim text := by
  refine ⟨?_, fun c hc => not_isHidden_of_isVisible (h.visible c hc)⟩
  rintro (hslash | ⟨tag, ⟨hstart, -⟩, hpart⟩)
  · exact h.backslashes hslash
  · cases tag with
    | nil => exact absurd hstart (by decide)
    | cons c tag =>
        have hpair : ['[', c] <:+: text :=
          List.IsInfix.trans ⟨[], tag ++ [']'], rfl⟩ hpart
        have hnone := h.brackets c (hpair.subset (by simp)) hpair
        rw [List.head?_cons, Option.map_some, Option.getD_some, hnone] at hstart
        cases hstart

lemma HoldsTag.marked (h : HoldsTag text) : Marked text := by
  obtain ⟨before, tag, after, rfl, htag, -⟩ := h
  exact Or.inr ⟨tag, htag, before, after, by simp⟩

lemma ClosesTag.space (h : ClosesTag text) : ClosesTag (' ' :: text) := by
  obtain ⟨before, name, after, rfl, hbefore, hlast, hname⟩ := h
  refine ⟨' ' :: before, name, after, rfl, by simp [hbefore], ?_, hname⟩
  cases before with
  | nil => simp
  | cons c before => rwa [List.getLast?_cons_cons]

/-- **The terminal keeps to the laws**, however wide a line is taken to be. -/
theorem laws_terminal (width : ℕ) : terminal.Laws width where
  prints m hopen _ := by
    rw [terminal_markup, Option.isSome_map]
    exact isSome_plainText? fun h => hopen ((infix_append_iff [' '] (by decide)).mp h)
  raises m h := by rw [terminal_markup, plainText?_of_closesTag h.space, Option.map_none]
  hides m h heq := ((terminal_markup_iff m).mp heq).1 h.marked
  shows m h _ := (terminal_markup_iff m).mpr h.verbatim

end RequestSuite.Command
