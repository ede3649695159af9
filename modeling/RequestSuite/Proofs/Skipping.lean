/-
The scanner by positions: how far the literals of a text reach, and the code between them.

* `quotedEnd`, `regexEnd`, `lineEnd`, `commentEnd`: where strings, regular expressions and comments
  end;
* `templateEnd`, `codePositions`: where templates end, and the code outside every template. The one
  has the substitutions scanned by the other, which skips templates by the first, and what they
  return carries the proof that it does not lie in front of where they start;
* `scan`: the code that the scanner lists from a position on. `scan_quoted`, `scan_regex`,
  `scan_template` and the like: in a literal or a comment it goes on with code at its end;
* `scan_code`: it lists `codePositions`;
* `Call.Makes`, `Call.wellFounded_makes`: the calls that a call makes do not go on forever;
* `scanner_advances`: skipping a literal advances, and the scan lists positions that increase.
-/
import RequestSuite.Proofs.Skeleton
import RequestSuite.Script.Split

namespace RequestSuite.Script

variable {text : List Char} {s t : State} {last : Option Char} {i j k depth : ℕ}

/-! ### Ends of literals and comments -/

/-- Where a string ends whose quotation mark stands in front of a position. A backslash takes the
next character with it, even one that the text does not have. -/
def quotedEnd (text : List Char) (quote : Char) (i : ℕ) : ℕ :=
  if h : i < text.length then
    if text[i] = '\\' then quotedEnd text quote (i + 2)
    else if text[i] = quote ∨ text[i] = '\n' then i + 1
    else quotedEnd text quote (i + 1)
  else i
termination_by text.length - i

/-- Where a regular expression ends that is read from a position on, in a class or outside it. A
line feed is not taken with it. -/
def regexEnd (text : List Char) (inClass : Bool) (i : ℕ) : ℕ :=
  if h : i < text.length then
    if text[i] = '\\' then regexEnd text inClass (i + 2)
    else if text[i] = '\n' then i
    else if inClass then regexEnd text (text[i] != ']') (i + 1)
    else if text[i] = '[' then regexEnd text true (i + 1)
    else if text[i] = '/' then i + 1
    else regexEnd text false (i + 1)
  else i
termination_by text.length - i

/-- The first line feed from a position on, or the end of the text. -/
def lineEnd (text : List Char) (i : ℕ) : ℕ :=
  if h : i < text.length then
    if text[i] = '\n' then i else lineEnd text (i + 1)
  else text.length
termination_by text.length - i

/-- The position behind the first star and slash from a position on, or the end of the text. -/
def commentEnd (text : List Char) (i : ℕ) : ℕ :=
  if h : i < text.length then
    if text[i] = '*' ∧ text[i + 1]? = some '/' then i + 2 else commentEnd text (i + 1)
  else text.length
termination_by text.length - i

lemma le_quotedEnd (text : List Char) (quote : Char) (i : ℕ) : i ≤ quotedEnd text quote i := by
  fun_induction quotedEnd text quote i <;> omega

lemma le_regexEnd (text : List Char) (inClass : Bool) (i : ℕ) : i ≤ regexEnd text inClass i := by
  fun_induction regexEnd text inClass i <;> omega

lemma le_lineEnd (h : i ≤ text.length) : i ≤ lineEnd text i := by
  fun_induction lineEnd text i <;> omega

lemma le_commentEnd (h : i ≤ text.length) : i ≤ commentEnd text i := by
  fun_induction commentEnd text i <;> omega

/-! ### Templates and code -/

/-- The position of the first closing bracket without a partner in some code, where `depth` brackets
are open in front of it. -/
def closing? : ℕ → List (ℕ × Char) → Option ℕ
  | _, [] => none
  | depth, (i, c) :: ps =>
    if isOpener c then closing? (depth + 1) ps
    else if isCloser c then
      match depth with
      | 0 => some i
      | depth + 1 => closing? depth ps
    else closing? depth ps

lemma exists_mem_of_closing? {ps : List (ℕ × Char)} (h : closing? depth ps = some j) :
    ∃ c, (j, c) ∈ ps := by
  fun_induction closing? depth ps with
  | case1 => cases h
  | case2 _ _ _ _ _ ih => exact (ih h).imp fun _ hc => List.mem_cons_of_mem _ hc
  | case3 i c ps _ _ =>
      obtain rfl := Option.some.inj h
      exact ⟨c, List.mem_cons_self⟩
  | case4 _ _ _ _ _ _ ih => exact (ih h).imp fun _ hc => List.mem_cons_of_mem _ hc
  | case5 _ _ _ _ _ _ ih => exact (ih h).imp fun _ hc => List.mem_cons_of_mem _ hc

/-- A position that does not lie in front of `i`. -/
abbrev PositionFrom (i : ℕ) := {j : ℕ // i ≤ j}

/-- Characters with their positions, none of them in front of `i`. -/
abbrev CodeFrom (i : ℕ) := {ps : List (ℕ × Char) // ∀ p ∈ ps, i ≤ p.1}

def PositionFrom.widen (h : i ≤ k) (j : PositionFrom k) : PositionFrom i := ⟨j.1, h.trans j.2⟩

def CodeFrom.widen (h : i ≤ k) (ps : CodeFrom k) : CodeFrom i :=
  ⟨ps.1, fun p hp => h.trans (ps.2 p hp)⟩

/-- The character at `i` in front of others. -/
def CodeFrom.cons (c : Char) (ps : CodeFrom (i + 1)) : CodeFrom i :=
  ⟨(i, c) :: ps.1, List.forall_mem_cons.mpr ⟨le_rfl, (ps.widen (Nat.le_succ i)).2⟩⟩

lemma CodeFrom.le_closing (ps : CodeFrom i) (h : closing? depth ps.1 = some j) : i ≤ j := by
  obtain ⟨c, hc⟩ := exists_mem_of_closing? h
  exact ps.2 _ hc

mutual

/-- Where a template ends that is read from a position on. A substitution is scanned up to the
closing bracket without a partner; without one the template reaches to the end of the text. -/
def templateEnd (text : List Char) (i : ℕ) : PositionFrom i :=
  if h : i < text.length then
    if text[i] = '\\' then (templateEnd text (i + 2)).widen (Nat.le_add_right i 2)
    else if text[i] = '`' then ⟨i + 1, Nat.le_succ i⟩
    else if text[i] = '$' ∧ text[i + 1]? = some '\x7b' then
      match hj : closing? 0 (codePositions text none (i + 2)).1 with
      | none => ⟨text.length, h.le⟩
      | some j =>
        have hle := (codePositions text none (i + 2)).le_closing hj
        (templateEnd text (j + 1)).widen (by omega)
    else (templateEnd text (i + 1)).widen (Nat.le_succ i)
  else ⟨i, le_rfl⟩
termination_by text.length - i

/-- The characters outside all literals and comments from a position on, where `last` is the last
one in front of it that is no white space. -/
def codePositions (text : List Char) (last : Option Char) (i : ℕ) : CodeFrom i :=
  if h : i < text.length then
    if text[i] = '\'' ∨ text[i] = '"' then
      have hle := le_quotedEnd text text[i] (i + 1)
      (codePositions text (some text[i]) (quotedEnd text text[i] (i + 1))).widen (by omega)
    else if text[i] = '`' then
      have hle := (templateEnd text (i + 1)).2
      (codePositions text (some '`') (templateEnd text (i + 1)).1).widen (by omega)
    else if text[i] = '/' ∧ text[i + 1]? = some '/' then
      have hle := @le_lineEnd text (i + 1) h
      (codePositions text last (lineEnd text (i + 1))).widen (by omega)
    else if hstar : text[i] = '/' ∧ text[i + 1]? = some '*' then
      have hle := @le_commentEnd text (i + 2) (List.getElem?_eq_some_iff.mp hstar.2).1
      (codePositions text last (commentEnd text (i + 2))).widen (by omega)
    else if text[i] = '/' ∧ regexMayFollow last = true then
      have hle := le_regexEnd text false (i + 1)
      (codePositions text (some '/') (regexEnd text false (i + 1))).widen (by omega)
    else (codePositions text (lastAfter last text[i]) (i + 1)).cons text[i]
  else ⟨[], fun _ hp => nomatch hp⟩
termination_by text.length - i

end

/-! ### The code that is listed -/

/-- The code that the scanner lists from a position on. -/
def scan (text : List Char) (s : State) (i : ℕ) : List (ℕ × Char) := codeFrom i s (text.drop i)

lemma scan_of_le (h : text.length ≤ i) (s : State) : scan text s i = [] := by
  rw [scan, List.drop_eq_nil_of_le h, codeFrom]

lemma scan_of_lt (h : i < text.length) (s : State) :
    scan text s i = (if s.isCode text[i] text[i + 1]? then [(i, text[i])] else []) ++
      scan text (s.step text[i] text[i + 1]?) (i + 1) := by
  rw [scan, List.drop_eq_getElem_cons h, codeFrom, List.head?_drop]
  split_ifs <;> rfl

lemma scan_silent (h : i < text.length) (hcode : s.isCode text[i] text[i + 1]? = false)
    (hstep : s.step text[i] text[i + 1]? = t) : scan text s i = scan text t (i + 1) := by
  rw [scan_of_lt h, hcode, hstep]
  rfl

lemma scan_passed (t : State) (hcode : ∀ c next, s.isCode c next = false)
    (hstep : ∀ c next, s.step c next = t) (i : ℕ) : scan text s i = scan text t (i + 1) := by
  rcases Nat.lt_or_ge i text.length with h | h
  · exact scan_silent h (hcode _ _) (hstep _ _)
  · rw [scan_of_le h, scan_of_le (h.trans (Nat.le_succ i))]

lemma scan_inside {mode : Mode} (h : i < text.length) (hreads : mode.readsCode? text[i] = none)
    (hdollar : mode ≠ .templateDollar) (depths : List ℕ) :
    scan text ⟨mode, depths⟩ i = scan text ⟨mode.inside text[i] text[i + 1]?, depths⟩ (i + 1) :=
  scan_silent h (by simp [State.isCode, hreads]) (by simp [State.step, hreads, hdollar])

lemma scan_opened {mode : Mode} (h : i < text.length)
    (hopened : opened? last text[i] text[i + 1]? = some mode) (depths : List ℕ) :
    scan text ⟨.code last, depths⟩ i = scan text ⟨mode, depths⟩ (i + 1) :=
  scan_silent h (by simp [State.isCode, Mode.readsCode?, hopened])
    (by simp [State.step, Mode.readsCode?, hopened])

lemma scan_lineFeed (h : i < text.length) (hc : text[i] = '\n')
    (hreads : s.mode.readsCode? '\n' = some last) :
    scan text s i = scan text ⟨.code last, s.depths⟩ i := by
  have hcode : (Mode.code last).readsCode? '\n' = some last := rfl
  rw [scan_of_lt h, scan_of_lt h, hc]
  simp only [State.isCode, State.step, hreads, hcode]

lemma scan_quoted (text : List Char) (quote : Char) (depths : List ℕ) (i : ℕ) :
    scan text ⟨.quoted quote, depths⟩ i =
      scan text ⟨.code (some quote), depths⟩ (quotedEnd text quote i) := by
  fun_induction quotedEnd text quote i with
  | case1 i h hc ih =>
      rw [← ih, scan_inside h rfl (by simp), Mode.inside, if_pos hc,
        scan_passed ⟨.quoted quote, depths⟩ (fun _ _ => rfl) fun _ _ => rfl]
  | case2 i h hc hend =>
      rw [scan_inside h rfl (by simp), Mode.inside, if_neg hc, if_pos (by simpa using hend)]
  | case3 i h hc hend ih =>
      rw [← ih, scan_inside h rfl (by simp), Mode.inside, if_neg hc, if_neg (by simpa using hend)]
  | case4 i h => rw [scan_of_le (not_lt.mp h), scan_of_le (not_lt.mp h)]

lemma scan_regex (text : List Char) (inClass : Bool) (depths : List ℕ) (i : ℕ) :
    scan text ⟨.regex inClass, depths⟩ i =
      scan text ⟨.code (some '/'), depths⟩ (regexEnd text inClass i) := by
  have hinside {inClass : Bool} {i : ℕ} (h : i < text.length) (hc : text[i] ≠ '\n') :
      scan text ⟨.regex inClass, depths⟩ i =
        scan text ⟨(Mode.regex inClass).inside text[i] text[i + 1]?, depths⟩ (i + 1) :=
    scan_inside h (by simp [Mode.readsCode?, hc]) (by simp) depths
  fun_induction regexEnd text inClass i with
  | case1 inClass i h hc ih =>
      rw [← ih, hinside h (by simp [hc]), Mode.inside, if_pos hc,
        scan_passed ⟨.regex inClass, depths⟩ (fun _ _ => rfl) fun _ _ => rfl]
  | case2 inClass i h hc hfeed => exact scan_lineFeed h hfeed rfl
  | case3 i h hc hfeed ih =>
      rw [← ih, hinside h hfeed, Mode.inside, if_neg hc, if_pos rfl]
  | case4 inClass i h hc hfeed hclass hopen ih =>
      rw [← ih, hinside h hfeed, Mode.inside, if_neg hc, if_neg hclass, if_pos hopen]
  | case5 inClass i h hc hfeed hclass hopen hend =>
      rw [hinside h hfeed, Mode.inside, if_neg hc, if_neg hclass, if_neg hopen, if_pos hend]
  | case6 inClass i h hc hfeed hclass hopen hend ih =>
      rw [← ih, hinside h hfeed, Mode.inside, if_neg hc, if_neg hclass, if_neg hopen, if_neg hend]
  | case7 inClass i h => rw [scan_of_le (not_lt.mp h), scan_of_le (not_lt.mp h)]

lemma scan_lineComment (text : List Char) (last : Option Char) (depths : List ℕ) (i : ℕ) :
    scan text ⟨.lineComment last, depths⟩ i = scan text ⟨.code last, depths⟩ (lineEnd text i) := by
  fun_induction lineEnd text i with
  | case1 i h hc => exact scan_lineFeed h hc rfl
  | case2 i h hc ih =>
      rw [← ih, scan_inside h (by simp [Mode.readsCode?, hc]) (by simp), Mode.inside]
  | case3 i h => rw [scan_of_le (not_lt.mp h), scan_of_le le_rfl]

lemma scan_comment (text : List Char) (last : Option Char) (depths : List ℕ) (i : ℕ) :
    scan text ⟨.comment last, depths⟩ i = scan text ⟨.code last, depths⟩ (commentEnd text i) := by
  fun_induction commentEnd text i with
  | case1 i h hc =>
      rw [scan_inside h rfl (by simp), Mode.inside, if_pos (by simpa using hc),
        scan_passed ⟨.code last, depths⟩ (fun _ _ => rfl) fun _ _ => rfl]
  | case2 i h hc ih =>
      rw [← ih, scan_inside h rfl (by simp), Mode.inside, if_neg (by simpa using hc)]
  | case3 i h => rw [scan_of_le (not_lt.mp h), scan_of_le le_rfl]

/-- What is listed where `ps` is the code outside all templates that open there: all of it, or in a
substitution what is listed behind the bracket that ends it. -/
def listed (text : List Char) : List ℕ → List (ℕ × Char) → List (ℕ × Char)
  | [], ps => ps
  | depth :: depths, ps =>
    match closing? depth ps with
    | none => []
    | some j => scan text ⟨.template, depths⟩ (j + 1)

lemma listed_of_closing?_eq_none {ps : List (ℕ × Char)} (h : closing? depth ps = none)
    (depths : List ℕ) : listed text (depth :: depths) ps = [] := by rw [listed, h]

lemma listed_of_closing?_eq_some {ps : List (ℕ × Char)} (h : closing? depth ps = some j)
    (depths : List ℕ) :
    listed text (depth :: depths) ps = scan text ⟨.template, depths⟩ (j + 1) := by rw [listed, h]

lemma listed_nil (text : List Char) (depths : List ℕ) : listed text depths [] = [] := by
  cases depths <;> rfl

/-- One more character of code. -/
lemma scan_plain {ps : List (ℕ × Char)} (h : i < text.length)
    (hopened : opened? last text[i] text[i + 1]? = none)
    (hps : ∀ depths, scan text ⟨.code (lastAfter last text[i]), depths⟩ (i + 1) =
      listed text depths ps) (depths : List ℕ) :
    scan text ⟨.code last, depths⟩ i = listed text depths ((i, text[i]) :: ps) := by
  have hstep : (⟨.code last, depths⟩ : State).step text[i] text[i + 1]? =
      afterCode depths last text[i] := by
    simp [State.step, Mode.readsCode?, hopened]
  have hcode : (⟨.code last, depths⟩ : State).isCode text[i] text[i + 1]? = depths.isEmpty := by
    simp [State.isCode, Mode.readsCode?, hopened]
  rw [scan_of_lt h, hstep, hcode]
  cases depths with
  | nil =>
      rw [afterCode, hps]
      rfl
  | cons depth depths =>
      cases hopener : isOpener text[i] with
      | true => simpa [afterCode, listed, closing?, hopener] using hps ((depth + 1) :: depths)
      | false =>
          cases hcloser : isCloser text[i] with
          | false =>
              simpa [afterCode, listed, closing?, hopener, hcloser] using hps (depth :: depths)
          | true =>
              cases depth with
              | zero => simp [afterCode, listed, closing?, hopener, hcloser]
              | succ depth =>
                  simpa [afterCode, listed, closing?, hopener, hcloser] using hps (depth :: depths)

mutual

/-- **In a template** the scanner goes on with code at its end. -/
lemma scan_template (text : List Char) (depths : List ℕ) (i : ℕ) :
    scan text ⟨.template, depths⟩ i =
      scan text ⟨.code (some '`'), depths⟩ (templateEnd text i).1 := by
  rw [templateEnd]
  split_ifs with h hc hend hdollar
  · rw [PositionFrom.widen, ← scan_template text depths (i + 2), scan_inside h rfl (by simp),
      Mode.inside, if_pos hc,
      scan_passed ⟨.template, depths⟩ (fun _ _ => rfl) fun _ _ => rfl]
  · rw [scan_inside h rfl (by simp), Mode.inside, if_neg hc, if_pos hend]
  · rw [scan_inside h rfl (by simp), Mode.inside, if_neg hc, if_neg hend,
      if_pos (by simpa using hdollar),
      scan_passed ⟨.code none, 0 :: depths⟩ (fun _ _ => rfl) fun _ _ => rfl,
      scan_code text none (0 :: depths) (i + 2)]
    split
    · next hj =>
      rw [listed_of_closing?_eq_none hj, scan_of_le le_rfl]
    · next j hj =>
      have hle := (codePositions text none (i + 2)).le_closing hj
      rw [listed_of_closing?_eq_some hj]
      exact scan_template text depths (j + 1)
  · rw [PositionFrom.widen, ← scan_template text depths (i + 1), scan_inside h rfl (by simp),
      Mode.inside, if_neg hc, if_neg hend, if_neg (by simpa using hdollar)]
  · rw [scan_of_le (not_lt.mp h), scan_of_le (not_lt.mp h)]
termination_by text.length - i

/-- **In code** the scanner lists the code outside the templates that open there. -/
lemma scan_code (text : List Char) (last : Option Char) (depths : List ℕ) (i : ℕ) :
    scan text ⟨.code last, depths⟩ i = listed text depths (codePositions text last i).1 := by
  rw [codePositions]
  split_ifs with h hquote htemplate hline hcomment hregex
  · have hle := le_quotedEnd text text[i] (i + 1)
    have hopened : opened? last text[i] text[i + 1]? = some (.quoted text[i]) := by
      simp [opened?, hquote]
    rw [scan_opened h hopened, scan_quoted, CodeFrom.widen, scan_code text _ depths _]
  · have hle := (templateEnd text (i + 1)).2
    have hopened : opened? last text[i] text[i + 1]? = some .template := by
      simp [opened?, htemplate]
    rw [scan_opened h hopened, scan_template text depths (i + 1), CodeFrom.widen,
      scan_code text _ depths _]
  · have hle := @le_lineEnd text (i + 1) h
    have hopened : opened? last text[i] text[i + 1]? = some (.lineComment last) := by
      simp [opened?, hline]
    rw [scan_opened h hopened, scan_lineComment, CodeFrom.widen, scan_code text _ depths _]
  · have hle := @le_commentEnd text (i + 2) (List.getElem?_eq_some_iff.mp hcomment.2).1
    have hopened : opened? last text[i] text[i + 1]? = some (.commentOpen last) := by
      simp [opened?, hcomment]
    rw [scan_opened h hopened,
      scan_passed ⟨.comment last, depths⟩ (fun _ _ => rfl) fun _ _ => rfl,
      scan_comment, CodeFrom.widen, scan_code text _ depths (commentEnd text (i + 2))]
  · have hle := le_regexEnd text false (i + 1)
    have hopened : opened? last text[i] text[i + 1]? = some (.regex false) := by
      simp_all [opened?]
    rw [scan_opened h hopened, scan_regex, CodeFrom.widen, scan_code text _ depths _]
  · have hopened : opened? last text[i] text[i + 1]? = none := by
      simp_all [opened?]
    exact scan_plain h hopened (fun depths => scan_code text _ depths (i + 1)) depths
  · rw [scan_of_le (not_lt.mp h), listed_nil]
termination_by text.length - i

end

/-! ### Calls

As many calls are open at a time as templates are nested; the scanner sets no bound to that. -/

/-- A call of `templateEnd` for the template that opens at a position, or of `codePositions` for the
code from a position on. -/
inductive Call
  | template (opening : ℕ)
  | code (start : ℕ)

/-- The calls that a call makes: the scan of some code skips the templates that open in it outside
every other, and a template has each of its substitutions scanned from behind the brace. -/
inductive Call.Makes (text : List Char) : Call → Call → Prop
  | template {start i : ℕ} {last : Option Char} (hle : start ≤ i) (hquote : text[i]? = some '`')
      (hcode : State.through {} text[i]? (slice text start i) = ⟨.code last, []⟩) :
      Makes text (.code start) (.template i)
  | substitution {opening i : ℕ} (hlt : opening < i) (hdollar : text[i]? = some '$')
      (hbrace : text[i + 1]? = some '\x7b')
      (hinside : State.through ⟨.template, []⟩ text[i]? (slice text (opening + 1) i) =
        ⟨.template, []⟩) :
      Makes text (.template opening) (.code (i + 2))

/-- What is left of the text for a call, a template coming before the code from the same place. -/
def Call.measure (text : List Char) : Call → ℕ
  | .template opening => 2 * (text.length - opening)
  | .code start => 2 * (text.length - start) + 1

/-- A call leaves less of the text to the calls that it makes. -/
lemma Call.Makes.measure_lt {caller callee : Call} (h : Call.Makes text caller callee) :
    callee.measure text < caller.measure text := by
  cases h with
  | template hle hquote _ =>
      simp only [Call.measure]
      omega
  | substitution hlt _ hbrace _ =>
      have := (List.getElem?_eq_some_iff.mp hbrace).1
      simp only [Call.measure]
      omega

/-- **Calls do not go on forever.** -/
lemma Call.wellFounded_makes (text : List Char) :
    WellFounded fun callee caller => Call.Makes text caller callee :=
  Subrelation.wf Call.Makes.measure_lt (InvImage.wf (Call.measure text) Nat.lt_wfRel.wf)

/-! ### The scanner advances -/

/-- The literal of some mode that opens at a position is skipped: the place where it ends lies
behind the position, and the scanner lists nothing up to there, where it goes on with code behind
`last`. -/
structure Skips (text : List Char) (opening : ℕ) (mode : Mode) (stop : ℕ) (last : Char) : Prop where
  lt : opening < stop
  scan_eq : ∀ depths, scan text ⟨mode, depths⟩ (opening + 1) =
    scan text ⟨.code (some last), depths⟩ stop

/-- The scanner advances and ends. -/
structure Advances (text : List Char) : Prop where
  quoted : ∀ i (h : i < text.length),
    Skips text i (.quoted text[i]) (quotedEnd text text[i] (i + 1)) text[i]
  template : ∀ i, Skips text i .template (templateEnd text (i + 1)).1 '`'
  regex : ∀ i, Skips text i (.regex false) (regexEnd text false (i + 1)) '/'
  calls : WellFounded fun callee caller => Call.Makes text caller callee
  /-- From every position on, what is listed is the code there. -/
  code_eq : ∀ start, (codePositions text none start).1 = codeFrom start {} (text.drop start)
  position : ∀ start, ∀ p ∈ (codePositions text none start).1,
    start ≤ p.1 ∧ p.1 < text.length ∧ text[p.1]? = some p.2
  increasing : ∀ start, (codePositions text none start).1.Pairwise fun p q => p.1 < q.1

/-- **The scanner advances and ends**, whatever the text and wherever it starts. -/
theorem scanner_advances (text : List Char) : Advances text := by
  have hcode (start : ℕ) :
      (codePositions text none start).1 = codeFrom start {} (text.drop start) :=
    (scan_code text none [] start).symm
  refine ⟨fun i _ => ⟨le_quotedEnd _ _ _, fun depths => scan_quoted _ _ depths _⟩,
    fun i => ⟨(templateEnd text (i + 1)).2, fun depths => scan_template _ depths _⟩,
    fun i => ⟨le_regexEnd _ _ _, fun depths => scan_regex _ _ depths _⟩,
    Call.wellFounded_makes text, hcode, fun start p hp => ?_, fun start => ?_⟩
  · rw [hcode] at hp
    obtain ⟨hle, hlt, hget⟩ := mem_codeFrom hp
    rw [List.length_drop] at hlt
    rw [List.getElem?_drop, Nat.add_sub_cancel' hle] at hget
    exact ⟨hle, by omega, hget⟩
  · rw [hcode]
    exact pairwise_codeFrom _ _ _

/-- The backslash at the end of a text takes a character that the text does not have. -/
example : quotedEnd "'\\".toList '\'' 1 = 3 := by cbv

/-- A substitution that does not end, in a template that does not. -/
example : (templateEnd "`$\x7b'".toList 1).1 = 4 := by decide +kernel

end RequestSuite.Script
