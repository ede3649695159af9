/-
How a script is read: what is code in it, and what stands in string literals.

* `Part`, `State.part`: what a character belongs to;
* `State.reading`: the characters of a text with their parts; `reading_append`, `map_fst_reading`;
* `mask`, `masked`: a text with one placeholder for each string literal;
* `Inert.inside`, `reading_quote`: the literal of a text is one literal, wherever it opens;
* `reading_of_unmarked`: a text that opens no literal and no comment is code;
* `through_of_depthAfter?`, `Inside`, `Bridges`: the same in the substitution of a template, where
  brackets count;
* `Slots`, `slotsText`: literals with text between them; `Joined`: the text between them is read
  as code;
* `Joined.mask_reading`: what is seen of such a text does not depend on the values of the literals;
* `exists_joined`: literals are joined by text that closes no more brackets than are open;
* `LiteralAt`, `Joined.literalAt`: each literal is read where it stands, and has its value.
-/
import RequestSuite.Proofs.Escaping
import RequestSuite.Proofs.WrittenText

namespace RequestSuite.Script

/-! ### Parts -/

/-- What a character of a script belongs to. -/
inductive Part
  | code
  /-- The first quotation mark of a string literal. -/
  | opening
  /-- What follows in that literal, its last quotation mark included. -/
  | inside
  /-- A template, a comment or a regular expression, or a line break that cuts a literal short. -/
  | aside
  deriving DecidableEq, Repr

/-- What a character belongs to, given the one that follows it. -/
def State.part (s : State) (c : Char) (next : Option Char) : Part :=
  match s.mode.readsCode? c with
  | some last =>
    match opened? last c next with
    | none => .code
    | some (.quoted _) => .opening
    | some _ => .aside
  | none =>
    match s.mode with
    | .quoted _ => if c = '\n' then .aside else .inside
    | .quotedEscape _ => .inside
    | _ => .aside

/-- The characters of a text that `after` follows, with what each belongs to. -/
def State.reading (s : State) (after : Option Char) : List Char → List (Char × Part)
  | [] => []
  | c :: cs =>
    (c, s.part c (cs.head?.or after)) :: (s.step c (cs.head?.or after)).reading after cs

/-- What is seen of a character: of a literal only its first quotation mark, which is always written
as a single one. -/
def seen : Char × Part → List Char
  | (_, .opening) => ['\'']
  | (_, .inside) => []
  | (c, _) => [c]

/-- A text as it has been read, with one placeholder for each string literal. -/
def mask (reading : List (Char × Part)) : List Char := reading.flatMap seen

/-- A script with one placeholder for each string literal. -/
def masked (text : List Char) : List Char := mask (({} : State).reading none text)

/-- Characters of code. -/
def asCode (cs : List Char) : List (Char × Part) := cs.map fun c => (c, .code)

variable {s t u : State} {q : Char} {after last : Option Char} {depths : List ℕ}
  {cs ds : List Char}

lemma mask_append (r r' : List (Char × Part)) : mask (r ++ r') = mask r ++ mask r' :=
  List.flatMap_append

lemma map_fst_asCode (cs : List Char) : (asCode cs).map Prod.fst = cs := by
  rw [asCode, List.map_map]
  exact List.map_id' cs

namespace State

lemma map_fst_reading (s : State) (after : Option Char) (cs : List Char) :
    (s.reading after cs).map Prod.fst = cs := by
  induction cs generalizing s with
  | nil => rfl
  | cons c cs ih => rw [reading, List.map_cons, ih]

lemma reading_append (s : State) (after : Option Char) (cs ds : List Char) :
    s.reading after (cs ++ ds) =
      s.reading (ds.head?.or after) cs ++ (s.through (ds.head?.or after) cs).reading after ds := by
  induction cs generalizing s with
  | nil => rfl
  | cons c cs ih =>
      rw [List.cons_append, reading, reading, through, List.head?_append, Option.or_assoc,
        List.cons_append]
      exact congrArg _ (ih _)

end State

/-! ### Literals -/

lemma shown_code_ne_nil (last : Option Char) (depths : List ℕ) (c : Char) (next : Option Char) :
    (⟨.code last, depths⟩ : State).shown c next ≠ [] := by
  simp only [State.shown, Mode.readsCode?]
  split <;> simp

/-- What goes on inside a literal belongs to it, also in the substitution of a template. The
induction is on the text, in both modes that it can be in; it cannot have left the literal, because
nothing of it is seen. -/
lemma inside_of_skeleton (escaped : Bool)
    (hthrough : (⟨if escaped then .quotedEscape q else .quoted q, []⟩ : State).through after cs =
      ⟨.quoted q, []⟩)
    (hskeleton : (⟨if escaped then .quotedEscape q else .quoted q, []⟩ : State).skeleton after cs =
      []) (depths : List ℕ) :
    (⟨if escaped then .quotedEscape q else .quoted q, depths⟩ : State).through after cs =
        ⟨.quoted q, depths⟩ ∧
      (⟨if escaped then .quotedEscape q else .quoted q, depths⟩ : State).reading after cs =
        cs.map fun c => (c, .inside) := by
  induction cs generalizing escaped with
  | nil =>
      cases escaped
      · exact ⟨rfl, rfl⟩
      · simp [State.through] at hthrough
  | cons c cs ih =>
      rw [State.through] at hthrough ⊢
      rw [State.skeleton, List.append_eq_nil_iff] at hskeleton
      rw [State.reading, List.map_cons]
      cases escaped with
      | true =>
          obtain ⟨h, h'⟩ := ih false hthrough hskeleton.2
          exact ⟨h, congrArg _ h'⟩
      | false =>
          by_cases hslash : c = '\\'
          · subst hslash
            obtain ⟨h, h'⟩ := ih true hthrough hskeleton.2
            exact ⟨h, congrArg _ h'⟩
          by_cases hend : c = q ∨ c = '\n'
          · -- the literal would end here, and what follows it would be seen
            have hstep : (⟨.quoted q, []⟩ : State).step c (cs.head?.or after) =
                ⟨.code (some q), []⟩ := by
              simp [State.step, Mode.readsCode?, Mode.inside, hslash, hend]
            simp only [Bool.false_eq_true, if_false] at hthrough hskeleton
            rw [hstep] at hthrough hskeleton
            cases cs with
            | nil => simp [State.through] at hthrough
            | cons d cs =>
                rw [State.skeleton, List.append_eq_nil_iff] at hskeleton
                exact absurd hskeleton.2.1 (shown_code_ne_nil _ _ _ _)
          · have hstep (depths : List ℕ) : (⟨.quoted q, depths⟩ : State).step c
                (cs.head?.or after) = ⟨.quoted q, depths⟩ := by
              simp [State.step, Mode.readsCode?, Mode.inside, hslash, hend]
            have hpart : (⟨.quoted q, depths⟩ : State).part c (cs.head?.or after) = .inside := by
              simp only [State.part, Mode.readsCode?]
              exact if_neg fun hline => hend (Or.inr hline)
            simp only [Bool.false_eq_true, if_false] at hthrough hskeleton ⊢
            rw [hstep] at hthrough hskeleton ⊢
            rw [hpart]
            obtain ⟨h, h'⟩ := ih false hthrough hskeleton.2
            exact ⟨h, congrArg _ h'⟩

lemma Inert.inside (h : Inert q cs) (depths : List ℕ) (after : Option Char) :
    (⟨.quoted q, depths⟩ : State).through after cs = ⟨.quoted q, depths⟩ ∧
      (⟨.quoted q, depths⟩ : State).reading after cs = cs.map fun c => (c, .inside) :=
  inside_of_skeleton false (h after).1 (h after).2 depths

/-- **The literal of a text is one literal**, wherever in code it stands. -/
lemma reading_quote (last : Option Char) (depths : List ℕ) (after : Option Char)
    (value : List Char) :
    (⟨.code last, depths⟩ : State).through after (quote value) = ⟨.code (some '\''), depths⟩ ∧
      (⟨.code last, depths⟩ : State).reading after (quote value) =
        ('\'', .opening) :: (escape value ++ ['\'']).map fun c => (c, .inside) := by
  obtain ⟨hthrough, hreading⟩ :=
    (inert_escape value).inside depths (some '\'')
  have hopen (next : Option Char) : (⟨.code last, depths⟩ : State).step '\'' next =
      ⟨.quoted '\'', depths⟩ ∧ (⟨.code last, depths⟩ : State).part '\'' next = .opening :=
    ⟨rfl, rfl⟩
  rw [quote, List.cons_append, State.through, State.reading, (hopen _).1, (hopen _).2,
    State.through_append, State.reading_append, List.head?_cons, Option.some_or, hthrough,
    hreading, List.map_append]
  exact ⟨rfl, rfl⟩

lemma mask_inside (cs : List Char) : mask (cs.map fun c => (c, .inside)) = [] := by
  rw [mask, List.flatMap_map]
  exact List.flatMap_eq_nil_iff.mpr fun c _ => rfl

lemma mask_reading_quote (last : Option Char) (depths : List ℕ) (after : Option Char)
    (value : List Char) :
    mask ((⟨.code last, depths⟩ : State).reading after (quote value)) = ['\''] := by
  rw [(reading_quote last depths after value).2, mask, List.flatMap_cons]
  exact congrArg _ (mask_inside _)

/-! ### Code -/

/-- The marks that open literals and comments. -/
def marks : List Char := ['\'', '"', '`', '/']

/-- A text without such marks is code. -/
lemma reading_of_unmarked (h : ∀ c ∈ cs, c ∉ marks) (last after : Option Char) :
    (∃ last', (⟨.code last, []⟩ : State).through after cs = ⟨.code last', []⟩) ∧
      (⟨.code last, []⟩ : State).reading after cs = asCode cs := by
  induction cs generalizing last with
  | nil => exact ⟨⟨last, rfl⟩, rfl⟩
  | cons c cs ih =>
      obtain ⟨hc, hcs⟩ := List.forall_mem_cons.mp h
      have hopened (next : Option Char) : opened? last c next = none := by
        simp only [marks, List.mem_cons, List.not_mem_nil, or_false, not_or] at hc
        simp [opened?, hc]
      have hstep (next : Option Char) : (⟨.code last, []⟩ : State).step c next =
          ⟨.code (lastAfter last c), []⟩ ∧ (⟨.code last, []⟩ : State).part c next = .code := by
        simp [State.step, State.part, Mode.readsCode?, hopened, afterCode]
      obtain ⟨hthrough, hreading⟩ := ih hcs (lastAfter last c)
      rw [State.through, State.reading, (hstep _).1, (hstep _).2, hreading]
      exact ⟨hthrough, rfl⟩

variable {depth depth' : ℕ}

/-- In a substitution a character without such a mark counts as a bracket or not at all. -/
lemma step_of_unmarked {c : Char} (hc : c ∉ marks) (last next : Option Char) (depth : ℕ)
    (depths : List ℕ) :
    (⟨.code last, depth :: depths⟩ : State).step c next =
      if isCloser c ∧ depth = 0 then ⟨.template, depths⟩
      else ⟨.code (lastAfter last c), level depth c :: depths⟩ := by
  have hopened : opened? last c next = none := by
    simp only [marks, List.mem_cons, List.not_mem_nil, or_false, not_or] at hc
    simp [opened?, hc]
  have hstep : (⟨.code last, depth :: depths⟩ : State).step c next =
      afterCode (depth :: depths) last c := by
    simp [State.step, Mode.readsCode?, hopened]
  rw [hstep]
  by_cases hopen : isOpener c = true
  · simp [afterCode, hopen, isCloser_of_isOpener hopen]
  by_cases hclose : isCloser c = true
  · cases depth <;> simp [afterCode, level, hopen, hclose]
  · simp [afterCode, level, hopen, hclose]

/-- There such a text is code as long as it closes no more brackets than are open. -/
lemma through_of_depthAfter? (h : ∀ c ∈ cs, c ∉ marks) (hdepth : depthAfter? depth cs = some depth')
    (last after : Option Char) (depths : List ℕ) :
    ∃ last', (⟨.code last, depth :: depths⟩ : State).through after cs =
      ⟨.code last', depth' :: depths⟩ := by
  induction cs generalizing last depth with
  | nil =>
      obtain rfl := Option.some.inj hdepth
      exact ⟨last, rfl⟩
  | cons c cs ih =>
      obtain ⟨hc, hcs⟩ := List.forall_mem_cons.mp h
      rw [depthAfter?_cons] at hdepth
      rw [State.through, step_of_unmarked hc]
      split_ifs at hdepth ⊢
      exact ih hcs hdepth _

/-- The characters that mean something in a template. -/
def templateMarks : List Char := ['`', '\\', '$']

lemma through_template (h : ∀ c ∈ cs, c ∉ templateMarks) (after : Option Char) (depths : List ℕ) :
    (⟨.template, depths⟩ : State).through after cs = ⟨.template, depths⟩ := by
  induction cs with
  | nil => rfl
  | cons c cs ih =>
      obtain ⟨hc, hcs⟩ := List.forall_mem_cons.mp h
      simp only [templateMarks, List.mem_cons, List.not_mem_nil, or_false, not_or] at hc
      have hstep : (⟨.template, depths⟩ : State).step c (cs.head?.or after) =
          ⟨.template, depths⟩ := by
        simp [State.step, Mode.readsCode?, Mode.inside, hc]
      rw [State.through, hstep, ih hcs]

/-- It ends the substitution where it closes more. -/
lemma through_of_depthAfter?_eq_none (h : ∀ c ∈ cs, c ∉ marks ∧ c ∉ templateMarks)
    (hdepth : depthAfter? depth cs = none) (last after : Option Char) (depths : List ℕ) :
    (⟨.code last, depth :: depths⟩ : State).through after cs = ⟨.template, depths⟩ := by
  induction cs generalizing last depth with
  | nil => cases hdepth
  | cons c cs ih =>
      obtain ⟨hc, hcs⟩ := List.forall_mem_cons.mp h
      rw [depthAfter?_cons] at hdepth
      rw [State.through, step_of_unmarked hc.1]
      split_ifs at hdepth ⊢
      · exact through_template (fun c hmem => (hcs c hmem).2) after depths
      · exact ih hcs hdepth _

/-- Where a substitution is being read, that many brackets are open in it at least. -/
def Inside (depth : ℕ) (depths : List ℕ) : Prop := ∀ d ∈ depths.head?, depth ≤ d

/-- A text without such marks, and how many brackets are open before and after it. -/
def Bridges (depth depth' : ℕ) (cs : List Char) : Prop :=
  (∀ c ∈ cs, c ∉ marks) ∧ depthAfter? depth cs = some depth'

instance (depth depth' : ℕ) (cs : List Char) : Decidable (Bridges depth depth' cs) :=
  inferInstanceAs (Decidable (_ ∧ _))

lemma Bridges.append {depth'' : ℕ} (h : Bridges depth depth' cs) (h' : Bridges depth' depth'' ds) :
    Bridges depth depth'' (cs ++ ds) :=
  ⟨List.forall_mem_append.mpr ⟨h.1, h'.1⟩, by rw [depthAfter?_append, h.2, Option.bind_some, h'.2]⟩

/-- A text for each element of a list, each of which closes what it opens. -/
lemma Bridges.flatMap {α : Type} {f : α → List Char} (h : ∀ a, Bridges depth depth (f a))
    (as : List α) : Bridges depth depth (as.flatMap f) := by
  induction as with
  | nil => exact ⟨fun c hc => (List.not_mem_nil hc).elim, rfl⟩
  | cons a as ih => exact (h a).append ih

/-- Such a text is code, in a substitution too if enough brackets are open there. -/
lemma Bridges.through (h : Bridges depth depth' cs) (hinside : Inside depth depths)
    (last after : Option Char) :
    ∃ last' depths', (⟨.code last, depths⟩ : State).through after cs = ⟨.code last', depths'⟩ ∧
      Inside depth' depths' := by
  cases depths with
  | nil =>
      obtain ⟨last', hthrough⟩ := (reading_of_unmarked h.1 last after).1
      exact ⟨last', [], hthrough, nofun⟩
  | cons d depths =>
      obtain ⟨more, rfl⟩ := Nat.exists_eq_add_of_le (hinside d rfl)
      obtain ⟨last', hthrough⟩ :=
        through_of_depthAfter? h.1 (depthAfter?_add h.2 more) last after depths
      refine ⟨last', _, hthrough, fun d hd => ?_⟩
      obtain rfl := Option.some.inj hd
      exact Nat.le_add_right _ _

/-! ### Literals with text between them -/

/-- Literals, each with the text before it. -/
abbrev Slots := List (List Char × List Char)

/-- The text of literals with text between them. -/
def slotsText (slots : Slots) : List Char := slots.flatMap fun slot => slot.1 ++ quote slot.2

/-- The text before each literal is read as code up to there. -/
inductive Joined : State → Slots → State → Prop
  | nil (s : State) : Joined s [] s
  | cons {s t : State} {slot : List Char × List Char} {slots : Slots} {last : Option Char}
      {depths : List ℕ} (code : s.through (some '\'') slot.1 = ⟨.code last, depths⟩)
      (others : Joined ⟨.code (some '\''), depths⟩ slots t) : Joined s (slot :: slots) t

/-- What is seen of literals with texts between them. -/
def State.maskedSlots (s : State) : List (List Char) → List Char
  | [] => []
  | text :: texts =>
    mask (s.reading (some '\'') text) ++
      '\'' :: maskedSlots ⟨.code (some '\''), (s.through (some '\'') text).depths⟩ texts

variable {slots slots' : Slots} {slot : List Char × List Char}

lemma slotsText_append (slots slots' : Slots) :
    slotsText (slots ++ slots') = slotsText slots ++ slotsText slots' := List.flatMap_append

lemma slotsText_cons (slot : List Char × List Char) (slots : Slots) :
    slotsText (slot :: slots) = slot.1 ++ (quote slot.2 ++ slotsText slots) := by
  rw [slotsText, List.flatMap_cons, List.append_assoc]
  rfl

lemma Joined.append (h : Joined s slots t) (h' : Joined t slots' u) :
    Joined s (slots ++ slots') u := by
  induction h with
  | nil s => exact h'
  | cons code others ih => exact .cons code (ih h')

/-- Where literals are joined, they are so up to any of them. -/
lemma Joined.split (h : Joined s (slots ++ slots') u) :
    ∃ t, Joined s slots t ∧ Joined t slots' u := by
  induction slots generalizing s with
  | nil => exact ⟨s, .nil s, h⟩
  | cons slot slots ih =>
      cases h with
      | cons code others =>
          obtain ⟨t, hslots, hslots'⟩ := ih others
          exact ⟨t, .cons code hslots, hslots'⟩

/-- **The values of literals are not seen**: what is seen of a text that joins them is determined by
the text between them, and so is the state after it. -/
lemma Joined.mask_reading (h : Joined s slots t) (after : Option Char) :
    s.through after (slotsText slots) = t ∧
      mask (s.reading after (slotsText slots)) = s.maskedSlots (slots.map Prod.fst) := by
  induction h with
  | nil s => exact ⟨rfl, rfl⟩
  | @cons s t slot slots last depths code others ih =>
      have hhead : (quote slot.2 ++ slotsText slots).head?.or after = some '\'' := rfl
      rw [slotsText_cons, State.through_append, State.reading_append, hhead, code,
        State.through_append, State.reading_append, (reading_quote _ _ _ _).1, mask_append,
        mask_append, mask_reading_quote, List.map_cons, State.maskedSlots, code]
      exact ⟨ih.1, by rw [ih.2]; rfl⟩

/-- Literals are joined alike where the text between them is the same. -/
lemma Joined.of_texts (h : Joined s slots t) (heq : slots.map Prod.fst = slots'.map Prod.fst) :
    Joined s slots' t := by
  induction h generalizing slots' with
  | nil s =>
      obtain rfl := List.map_eq_nil_iff.mp heq.symm
      exact .nil s
  | @cons s t slot slots last depths code others ih =>
      obtain ⟨slot', rest, rfl, hslot, hrest⟩ := List.map_eq_cons_iff.mp heq.symm
      rw [← hslot] at code
      exact .cons code (ih hrest.symm)

/-- Literals are joined by code that closes no more brackets than are open where it starts. -/
lemma exists_joined (h : Bridges depth depth' (slots.flatMap Prod.fst))
    (hinside : Inside depth depths) (last : Option Char) :
    ∃ last' depths', Joined ⟨.code last, depths⟩ slots ⟨.code last', depths'⟩ := by
  induction slots generalizing last depth depths with
  | nil => exact ⟨last, depths, .nil _⟩
  | cons slot slots ih =>
      obtain ⟨hmarks, hdepth⟩ := h
      rw [List.flatMap_cons] at hmarks hdepth
      rw [depthAfter?_append] at hdepth
      obtain ⟨hslot, hslots⟩ := List.forall_mem_append.mp hmarks
      obtain ⟨mid, hmid, hrest⟩ := Option.bind_eq_some_iff.mp hdepth
      obtain ⟨last₁, depths₁, hthrough, hinside₁⟩ :=
        Bridges.through ⟨hslot, hmid⟩ hinside last (some '\'')
      obtain ⟨last', depths', hjoined⟩ := ih ⟨hslots, hrest⟩ hinside₁ (some '\'')
      exact ⟨last', depths', .cons hthrough hjoined⟩

/-- **A literal with a value stands in a script** between two parts of it: its quotation mark opens
a literal where it stands, and that literal is read as the value. -/
structure LiteralAt (text before after value : List Char) : Prop where
  text_eq : text = before ++ (quote value ++ after)
  opens : (({} : State).through (some '\'') before).part '\'' none = .opening
  reads : Literal.readLiteral (quote value ++ after) = some (Literal.units value, after)

lemma readLiteral_quote (value after : List Char) :
    Literal.readLiteral (quote value ++ after) = some (Literal.units value, after) := by
  rw [quote, List.append_assoc]
  exact readLiteral_escape rfl value after

lemma part_quote_eq_opening_iff (s : State) (next : Option Char) :
    s.part '\'' next = .opening ↔ ∃ last, s.mode = .code last := by
  obtain ⟨mode, depths⟩ := s
  constructor
  · cases mode <;> simp [State.part, Mode.readsCode?]
  · rintro ⟨last, rfl⟩
    rfl

lemma Joined.literalAt (h : Joined {} (slots ++ slot :: slots') u) (rest : List Char) :
    LiteralAt (slotsText (slots ++ slot :: slots') ++ rest) (slotsText slots ++ slot.1)
      (slotsText slots' ++ rest) slot.2 := by
  obtain ⟨t, hslots, hslot⟩ := h.split
  cases hslot with
  | @cons _ _ _ _ last depths code others =>
      refine ⟨?_, ?_, readLiteral_quote _ _⟩
      · rw [slotsText_append, slotsText_cons]
        simp only [List.append_assoc]
      · rw [State.through_append, (hslots.mask_reading _).1, code]
        rfl

/-- A literal stands behind text that would end a substitution, so more brackets are open there. -/
lemma LiteralAt.inside {text rest value : List Char}
    (h : LiteralAt text (slotsText slots ++ cs) rest value)
    (hjoined : Joined {} slots ⟨.code last, depths⟩)
    (hmarks : ∀ c ∈ cs, c ∉ marks ∧ c ∉ templateMarks)
    (hcloses : ∀ d < depth, depthAfter? d cs = none) : Inside depth depths := by
  intro d hd
  by_contra hlt
  obtain ⟨others, rfl⟩ : ∃ others, depths = d :: others := by
    cases depths with
    | nil => cases hd
    | cons d' others =>
        obtain rfl := Option.some.inj hd
        exact ⟨others, rfl⟩
  have hopens := h.opens
  rw [State.through_append, (hjoined.mask_reading _).1,
    through_of_depthAfter?_eq_none hmarks (hcloses d (not_le.mp hlt))] at hopens
  obtain ⟨last, hcode⟩ := (part_quote_eq_opening_iff _ _).mp hopens
  cases hcode

end RequestSuite.Script
