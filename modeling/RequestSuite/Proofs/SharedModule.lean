/-
What the text of the shared module says of its base URL and its environment.

* `isGap`, `skipGap`: white space between the tokens of a script;
* `readMember?`, `readMembers`: the members of an object literal;
* `Unbroken`, `lineTails`, `afterOpening?`: texts within a line, and what follows the first line
  start at which some text stands;
* `readBaseUrl?`, `readEnvironment?`: base URL and environment, read from a script;
* `readMembers_entries`: the entries of an environment are read back;
* `afterOpening?_lines`: a text is found behind lines that do not start with it;
* `toList_setupText`: the text of the shared module around base URL and environment;
* `fields_setupText`: its lines;
* `ReadBack`, `setup_determines_inputs`: it is read back as what it was made from;
  `imitated_entry_read_back`: so is a value in which another entry seems to start.
-/
import RequestSuite.Proofs.HookText
import RequestSuite.Proofs.PathText

namespace RequestSuite.Literal

open Script (isLineTerminator)

/-! ### Object literals -/

/-- White space between the tokens of a script, with the characters that end a line. -/
def isGap (c : Char) : Bool :=
  let n := c.toNat
  isLineTerminator c || n == 0x9 || n == 0xb || n == 0xc || n == 0x20 || n == 0xa0 ||
    n == 0x1680 || (0x2000 ≤ n && n ≤ 0x200a) || n == 0x202f || n == 0x205f || n == 0x3000 ||
    n == 0xfeff

/-- A script without the white space in front. -/
def skipGap (cs : List Char) : List Char := cs.dropWhile isGap

/-- A name and a value, by their code units. -/
abbrev Member := List ℕ × List ℕ

/-- The member at the start of an object's body, a string literal for the name and one for the
value, and what follows it after white space. -/
def readMember? (cs : List Char) : Option (Member × List Char) :=
  match readLiteral (skipGap cs) with
  | none => none
  | some (name, rest) =>
    match skipGap rest with
    | ':' :: rest => (readLiteral (skipGap rest)).map fun read =>
        ((name, read.1), skipGap read.2)
    | _ => none

/-- A literal takes up some of a text. -/
lemma length_readRest {q : Char} {mode : LiteralMode} {cs rest : List Char} {value : List ℕ}
    (h : readRest q mode cs = some (value, rest)) : rest.length < cs.length := by
  induction cs generalizing mode value with
  | nil => simp [readRest] at h
  | cons c cs ih =>
      rw [readRest] at h
      split_ifs at h
      · obtain ⟨-, rfl⟩ := Prod.mk.inj (Option.some.inj h)
        exact Nat.lt_succ_self _
      · cases hstep : mode.step q c with
        | none => simp [hstep] at h
        | some next =>
            simp only [hstep] at h
            obtain ⟨last, hlast, heq⟩ := Option.map_eq_some_iff.mp h
            obtain ⟨-, rfl⟩ := Prod.mk.inj heq
            exact Nat.lt_succ_of_lt (ih hlast)

lemma length_readLiteral {cs rest : List Char} {value : List ℕ}
    (h : readLiteral cs = some (value, rest)) : rest.length < cs.length := by
  cases cs with
  | nil => cases h
  | cons q cs =>
      rw [readLiteral] at h
      split_ifs at h
      exact Nat.lt_succ_of_lt (length_readRest h)

lemma length_skipGap (cs : List Char) : (skipGap cs).length ≤ cs.length :=
  (List.dropWhile_suffix _).length_le

/-- A member takes up some of a text. -/
lemma length_readMember? {cs rest : List Char} {member : Member}
    (h : readMember? cs = some (member, rest)) : rest.length < cs.length := by
  rw [readMember?] at h
  cases hname : readLiteral (skipGap cs) with
  | none => simp [hname] at h
  | some pair =>
      obtain ⟨name, afterName⟩ := pair
      simp only [hname] at h
      split at h
      · next afterColon hcolon =>
        obtain ⟨⟨value, afterValue⟩, hvalue, heq⟩ := Option.map_eq_some_iff.mp h
        obtain rfl : skipGap afterValue = rest := (Prod.mk.inj heq).2
        have hcolonLength := congrArg List.length hcolon
        rw [List.length_cons] at hcolonLength
        have := length_readLiteral hname
        have := length_readLiteral hvalue
        have := length_skipGap cs
        have := length_skipGap afterName
        have := length_skipGap afterColon
        have := length_skipGap afterValue
        omega
      · cases h

/-- The members of an object literal after its opening brace, and what follows its closing brace. A
comma may stand after the last member. -/
def readMembers (cs : List Char) : Option (List Member × List Char) :=
  if (skipGap cs).head? = some '\x7d' then some ([], (skipGap cs).tail)
  else
    match _ : readMember? cs with
    | none => none
    | some (member, rest) =>
      if rest.head? = some ',' then
        (readMembers rest.tail).map fun read => (member :: read.1, read.2)
      else if rest.head? = some '\x7d' then some ([member], rest.tail)
      else none
termination_by cs.length
decreasing_by
  rw [List.length_tail]
  have := length_readMember? ‹readMember? cs = _›
  omega

/-! ### Lines of a script -/

/-- A text within a line. -/
def Unbroken (line : List Char) : Prop := ∀ c ∈ line, isLineTerminator c = false

instance (line : List Char) : Decidable (Unbroken line) := inferInstanceAs (Decidable (∀ _ ∈ _, _))

lemma Unbroken.append {line line' : List Char} (h : Unbroken line) (h' : Unbroken line') :
    Unbroken (line ++ line') := List.forall_mem_append.mpr ⟨h, h'⟩

/-- What follows each character that ends a line. -/
def afterBreaks : List Char → List (List Char)
  | [] => []
  | c :: cs => if isLineTerminator c then cs :: afterBreaks cs else afterBreaks cs

/-- A script from the start of each of its lines on. -/
def lineTails (script : List Char) : List (List Char) := script :: afterBreaks script

/-- What follows a text at the start of the first line that starts with it. -/
def afterOpening? (opening script : List Char) : Option (List Char) :=
  (lineTails script).findSome? fun tail => opening.isPrefixOf? tail

lemma afterBreaks_append {line : List Char} (h : Unbroken line) (rest : List Char) :
    afterBreaks (line ++ rest) = afterBreaks rest := by
  induction line with
  | nil => rfl
  | cons c cs ih =>
      obtain ⟨hc, hcs⟩ := List.forall_mem_cons.mp h
      rw [List.cons_append, afterBreaks, if_neg (by simp [hc]), ih hcs]

/-- A line that starts otherwise is passed over. -/
lemma afterOpening?_line {opening line : List Char} (hopening : '\n' ∉ opening)
    (hline : Unbroken line) (hother : ¬ opening <+: line) (rest : List Char) :
    afterOpening? opening (line ++ '\n' :: rest) = afterOpening? opening rest := by
  have hnone : opening.isPrefixOf? (line ++ '\n' :: rest) = none := by
    rw [Option.eq_none_iff_forall_not_mem]
    intro tail htail
    rw [Option.mem_def, List.isPrefixOf?_eq_some_iff_append_eq] at htail
    rcases List.append_eq_append_iff.mp htail with ⟨more, rfl, -⟩ | ⟨more, rfl, hmore⟩
    · exact hother (List.prefix_append _ _)
    · cases more with
      | nil => exact hother (by simp)
      | cons c cs =>
          obtain ⟨rfl, -⟩ := List.cons.inj hmore
          exact hopening (by simp)
  have hbreak : afterBreaks ('\n' :: rest) = lineTails rest := rfl
  rw [afterOpening?, lineTails, List.findSome?_cons, hnone, afterBreaks_append hline, hbreak,
    ← afterOpening?]

/-- So are several such lines. -/
lemma afterOpening?_lines {opening : List Char} {lines : List (List Char)}
    (hopening : '\n' ∉ opening)
    (hlines : ∀ line ∈ lines, Unbroken line ∧ ¬ opening <+: line)
    (rest : List Char) :
    afterOpening? opening ((lines.flatMap fun line => line ++ ['\n']) ++ rest) =
      afterOpening? opening rest := by
  induction lines with
  | nil => rfl
  | cons line lines ih =>
      obtain ⟨⟨hline, hother⟩, hlines⟩ := List.forall_mem_cons.mp hlines
      rw [List.flatMap_cons, List.append_assoc, List.append_assoc, List.singleton_append,
        afterOpening?_line hopening hline hother, ih hlines]

lemma afterOpening?_append (opening rest : List Char) :
    afterOpening? opening (opening ++ rest) = some rest := by
  rw [afterOpening?, lineTails, List.findSome?_cons,
    List.isPrefixOf?_eq_some_iff_append_eq.mpr rfl]

/-! ### Base URL and environment -/

/-- How the line of a base URL starts. -/
def baseUrlOpening : List Char := "const BASE_URL = process.env.API_BASE_URL || ".toList

/-- How the line of an environment starts. -/
def environmentOpening : List Char := "const env = ".toList

/-- The base URL of a script: the string literal on its line, up to the semicolon. -/
def readBaseUrl? (script : List Char) : Option (List ℕ) :=
  match (afterOpening? baseUrlOpening script).bind readLiteral with
  | some (value, ';' :: _) => some value
  | _ => none

/-- The value at the start of a script, null or an object literal, and what follows it. -/
def readObject? (cs : List Char) : Option (Option (List Member) × List Char) :=
  match cs with
  | '\x7b' :: cs => (readMembers cs).map fun read => (some read.1, read.2)
  | _ => ("null".toList.isPrefixOf? cs).map fun rest => (none, rest)

/-- The environment of a script: null or the members of the object literal on its line, up to the
semicolon. -/
def readEnvironment? (script : List Char) : Option (Option (List Member)) :=
  match (afterOpening? environmentOpening script).bind readObject? with
  | some (value, ';' :: _) => some value
  | _ => none

/-- The code units of names and values. -/
def membersOf (bindings : Variables) : List Member :=
  bindings.map fun binding => (units binding.1.toList, units binding.2.toList)

lemma membersOf_injective : Function.Injective membersOf := by
  refine List.map_injective_iff.mpr fun binding binding' h => ?_
  obtain ⟨hname, hvalue⟩ := Prod.mk.inj h
  exact Prod.ext (String.toList_inj.mp (units_injective hname))
    (String.toList_inj.mp (units_injective hvalue))

end RequestSuite.Literal

namespace RequestSuite.Suite

open Literal Script Text

/-! ### Entries -/

/-- The line of an entry of the environment. -/
def entryLine (binding : String × String) : String :=
  indentation 1 ++ literal binding.1 ++ ": " ++ literal binding.2 ++ ","

/-- The characters of an entry's line. -/
lemma toList_entryLine (binding : String × String) :
    (entryLine binding).toList =
      ' ' :: ' ' :: (quote binding.1.toList ++
        (':' :: ' ' :: (quote binding.2.toList ++ [',']))) := by
  have hindent : (indentation 1).toList = [' ', ' '] := by decide
  have hcolon : ": ".toList = [':', ' '] := rfl
  have hcomma : ",".toList = [','] := rfl
  simp only [entryLine, String.toList_append, toList_literal, hindent, hcolon, hcomma,
    List.append_assoc, List.cons_append, List.nil_append]

lemma skipGap_quote (value rest : List Char) :
    skipGap (quote value ++ rest) = quote value ++ rest :=
  List.dropWhile_cons_of_neg (by decide)

/-- The line of an entry is read as its name and its value. -/
lemma readMember?_entry (binding : String × String) (rest : List Char) :
    readMember? ('\n' :: ((entryLine binding).toList ++ rest)) =
      some ((units binding.1.toList, units binding.2.toList), ',' :: rest) := by
  have hgap (cs : List Char) : skipGap ('\n' :: ' ' :: ' ' :: cs) = skipGap cs := rfl
  have hspace (cs : List Char) : skipGap (' ' :: cs) = skipGap cs := rfl
  have hcolon (cs : List Char) : skipGap (':' :: cs) = ':' :: cs := rfl
  have hcomma (cs : List Char) : skipGap (',' :: cs) = ',' :: cs := rfl
  rw [toList_entryLine, readMember?]
  simp only [List.cons_append, List.append_assoc, hgap, skipGap_quote, readLiteral_quote, hcolon,
    hspace, Option.map_some, List.nil_append, hcomma]

/-- **The entries of an environment are read back** from their lines. -/
lemma readMembers_entries (bindings : Variables) (rest : List Char) :
    readMembers ((bindings.flatMap fun binding => '\n' :: (entryLine binding).toList) ++
      '\n' :: '\x7d' :: rest) = some (membersOf bindings, rest) := by
  induction bindings with
  | nil =>
      rw [readMembers]
      rfl
  | cons binding bindings ih =>
      set others := (bindings.flatMap fun binding => '\n' :: (entryLine binding).toList) ++
        '\n' :: '\x7d' :: rest
      have hentry : ((binding :: bindings).flatMap fun binding =>
          '\n' :: (entryLine binding).toList) ++ '\n' :: '\x7d' :: rest =
            '\n' :: ((entryLine binding).toList ++ others) := by
        rw [List.flatMap_cons, List.append_assoc, List.cons_append]
      have hopen : ¬ (skipGap ('\n' :: ((entryLine binding).toList ++ others))).head? =
          some '\x7d' := by
        have hgap (cs : List Char) : skipGap ('\n' :: ' ' :: ' ' :: cs) = skipGap cs := rfl
        rw [toList_entryLine, List.cons_append, List.cons_append, hgap, List.append_assoc,
          skipGap_quote]
        simp [quote]
      rw [hentry, readMembers, if_neg hopen]
      split
      · next hnone => rw [readMember?_entry] at hnone; cases hnone
      · next member after hsome =>
        rw [readMember?_entry] at hsome
        obtain ⟨rfl, rfl⟩ := Prod.mk.inj (Option.some.inj hsome)
        rw [List.head?_cons, if_pos rfl, List.tail_cons, ih]
        rfl

/-- The characters of an environment with entries. -/
lemma toList_environmentLiteral (binding : String × String) (bindings : Variables) :
    (environmentLiteral (some (binding :: bindings))).toList =
      '\x7b' :: (((binding :: bindings).flatMap fun binding =>
        '\n' :: (entryLine binding).toList) ++ ['\n', '\x7d']) := by
  have hjoined : (joinedLines ((binding :: bindings).map entryLine)).toList =
      (entryLine binding).toList ++
        bindings.flatMap fun binding => '\n' :: (entryLine binding).toList := by
    rw [toList_joinedLines, List.map_map, List.map_cons, joinLines, intercalate_cons,
      List.flatMap_map]
    rfl
  have hliteral : environmentLiteral (some (binding :: bindings)) =
      "\x7b\n" ++ joinedLines ((binding :: bindings).map entryLine) ++ "\n" ++ indentation 0 ++
        "\x7d" := rfl
  have hopen : "\x7b\n".toList = ['\x7b', '\n'] := rfl
  have hbreak : "\n".toList = ['\n'] := rfl
  have hindent : (indentation 0).toList = [] := by decide
  have hclose : "\x7d".toList = ['\x7d'] := rfl
  rw [hliteral]
  simp only [String.toList_append, hjoined, hopen, hbreak, hindent, hclose, List.flatMap_cons,
    List.append_assoc, List.cons_append, List.nil_append]

/-- **An environment is read back** from its literal, also if there is none. -/
lemma readObject?_environmentLiteral (environment : Option Variables) (rest : List Char) :
    readObject? ((environmentLiteral environment).toList ++ rest) =
      some (environment.map membersOf, rest) := by
  cases environment with
  | none => rfl
  | some bindings =>
      cases bindings with
      | nil =>
          have hopen : (environmentLiteral (some [])).toList ++ rest = '\x7b' :: '\x7d' :: rest :=
            rfl
          rw [hopen, readObject?, readMembers]
          rfl
      | cons binding bindings =>
          rw [toList_environmentLiteral, List.cons_append, readObject?, List.append_assoc]
          exact congrArg (Option.map _) (readMembers_entries (binding :: bindings) rest)

/-! ### The text of the module -/

/-- The text before the base URL. -/
def setupFront : List Char :=
  (preambleLines.flatMap fun line => line.toList ++ ['\n']) ++ baseUrlOpening

/-- The text between base URL and environment. -/
def setupMiddle : List Char :=
  ';' :: '\n' :: (clientSetupLines.flatMap fun line => line.toList ++ ['\n']) ++ environmentOpening

/-- The text after the environment. -/
def setupBack (enhanced : Bool) : List Char :=
  ';' :: '\n' :: (joinedLines (timeoutLines ++ (if enhanced then clientLines else []) ++
    exportLines enhanced)).toList

/-- Lines before others. -/
lemma toList_joinedLines_append (lines : List String) {others : List String} (h : others ≠ []) :
    (joinedLines (lines ++ others)).toList =
      (lines.flatMap fun line => line.toList ++ ['\n']) ++ (joinedLines others).toList := by
  induction lines with
  | nil => rfl
  | cons line lines ih =>
      obtain ⟨second, more, hmore⟩ := List.exists_cons_of_ne_nil
        (List.append_ne_nil_of_right_ne_nil lines h)
      have hcons : (joinedLines (line :: second :: more)).toList =
          line.toList ++ '\n' :: (joinedLines (second :: more)).toList := by
        rw [toList_joinedLines, toList_joinedLines]
        exact joinLines_cons_cons _ _ _
      rw [List.cons_append, hmore, hcons, ← hmore, ih, List.flatMap_cons]
      simp

lemma toList_baseUrlLine (baseUrl : String) :
    (baseUrlLine baseUrl).toList = baseUrlOpening ++ (quote baseUrl.toList ++ [';']) := by
  have hend : ";".toList = [';'] := rfl
  unfold baseUrlLine baseUrlOpening
  simp only [String.toList_append, toList_literal, hend, List.append_assoc]

lemma toList_environmentLine (environment : Option Variables) :
    (environmentLine environment).toList =
      environmentOpening ++ ((environmentLiteral environment).toList ++ [';']) := by
  have hend : ";".toList = [';'] := rfl
  unfold environmentLine environmentOpening
  simp only [String.toList_append, hend, List.append_assoc]

/-- **The text of the shared module around base URL and environment** does not depend on them. -/
lemma toList_setupText (baseUrl : String) (environment : Option Variables) (enhanced : Bool) :
    (setupText baseUrl environment enhanced).toList =
      setupFront ++ (quote baseUrl.toList ++ (setupMiddle ++
        ((environmentLiteral environment).toList ++ setupBack enhanced))) := by
  set closing := timeoutLines ++ (if enhanced then clientLines else []) ++ exportLines enhanced
    with hclosing
  have hlines : setupText baseUrl environment enhanced = joinedLines (preambleLines ++
      ([baseUrlLine baseUrl] ++ (clientSetupLines ++ ([environmentLine environment] ++
        closing)))) := by
    rw [setupText, hclosing]
    simp only [List.append_assoc]
  have hne : closing ≠ [] := by
    rw [hclosing, timeoutLines]
    exact List.cons_ne_nil _ _
  rw [hlines, toList_joinedLines_append preambleLines (by simp),
    toList_joinedLines_append [baseUrlLine baseUrl] (by simp [clientSetupLines]),
    toList_joinedLines_append clientSetupLines (by simp),
    toList_joinedLines_append [environmentLine environment] hne]
  simp only [List.flatMap_singleton, toList_baseUrlLine, toList_environmentLine, setupFront,
    setupMiddle, setupBack, List.append_assoc, List.cons_append, List.nil_append, ← hclosing]

/-! ### Lines of the module -/

lemma unbroken_quote (value : List Char) : Unbroken (quote value) := by
  have hescape : Unbroken (escape value) := fun c hc => by
    simpa using List.any_eq_false.mp (escape_no_lineTerminator value) c hc
  have hmark : Unbroken ['\''] := by decide
  exact (hmark.append hescape).append hmark

lemma unbroken_baseUrlLine (baseUrl : String) : Unbroken (baseUrlLine baseUrl).toList := by
  have hopening : Unbroken baseUrlOpening := by decide
  have hend : Unbroken [';'] := by decide
  rw [toList_baseUrlLine]
  exact hopening.append ((unbroken_quote _).append hend)

lemma unbroken_entryLine (binding : String × String) : Unbroken (entryLine binding).toList := by
  have hindent : Unbroken [' ', ' '] := by decide
  have hcolon : Unbroken [':', ' '] := by decide
  have hcomma : Unbroken [','] := by decide
  rw [toList_entryLine]
  exact hindent.append
    ((unbroken_quote _).append (hcolon.append ((unbroken_quote _).append hcomma)))

/-- The lines of an environment: one, or one for each entry between two others. -/
def environmentLines : Option Variables → List String
  | some (binding :: bindings) =>
    "const env = \x7b" :: ((binding :: bindings).map entryLine ++ ["\x7d;"])
  | environment => [environmentLine environment]

/-- The lines of the shared module. Only those of the base URL and the environment depend on what it
is made from. -/
def setupLines (baseUrl : String) (environment : Option Variables) (enhanced : Bool) :
    List String :=
  preambleLines ++ [baseUrlLine baseUrl] ++ clientSetupLines ++ environmentLines environment ++
    timeoutLines ++ (if enhanced then clientLines else []) ++ exportLines enhanced

/-- Lines that do not break are the lines of their text. -/
lemma fields_joinedLines {lines : List String} (hne : lines ≠ [])
    (h : ∀ line ∈ lines, Unbroken line.toList) :
    fields isLineTerminator (joinedLines lines).toList = lines.map String.toList := by
  induction lines with
  | nil => exact absurd rfl hne
  | cons line lines ih =>
      obtain ⟨hline, hlines⟩ := List.forall_mem_cons.mp h
      cases lines with
      | nil =>
          rw [toList_joinedLines, List.map_singleton, joinLines_singleton]
          exact fields_of_not_separates hline
      | cons second lines =>
          have hsplit := toList_joinedLines_append [line] (List.cons_ne_nil second lines)
          rw [List.flatMap_singleton, List.append_assoc, List.singleton_append,
            List.singleton_append] at hsplit
          rw [hsplit, fields_append_cons hline (by decide), ih (by simp) hlines]
          rfl

lemma cons_flatMap_append {α : Type} (f : α → List Char) (as : List α) :
    '\n' :: (as.flatMap fun a => f a ++ ['\n']) = (as.flatMap fun a => '\n' :: f a) ++ ['\n'] := by
  induction as with
  | nil => rfl
  | cons a as ih =>
      rw [List.flatMap_cons, List.flatMap_cons, List.append_assoc, List.append_assoc, ← ih]
      rfl

/-- The line of an environment, as lines. -/
lemma flatMap_environmentLines (environment : Option Variables) :
    ((environmentLines environment).flatMap fun line => line.toList ++ ['\n']) =
      (environmentLine environment).toList ++ ['\n'] := by
  cases environment with
  | none => rw [environmentLines, List.flatMap_singleton]; exact nofun
  | some bindings =>
      cases bindings with
      | nil => rw [environmentLines, List.flatMap_singleton]; exact nofun
      | cons binding bindings =>
          have hopen : "const env = \x7b".toList = environmentOpening ++ ['\x7b'] := by
            unfold environmentOpening
            repeat rw [String.toList_ofList]
            rfl
          have hclose : "\x7d;".toList = ['\x7d', ';'] := rfl
          have hshift := cons_flatMap_append (fun binding => (entryLine binding).toList)
            (binding :: bindings)
          rw [environmentLines, List.flatMap_cons, List.flatMap_append, List.flatMap_map,
            List.flatMap_singleton, hopen, hclose, toList_environmentLine,
            toList_environmentLiteral]
          simp only [List.append_assoc, List.cons_append, List.nil_append]
          rw [← List.cons_append, hshift]
          simp only [List.append_assoc, List.cons_append, List.nil_append]

/-- The text of the shared module is its lines. -/
lemma setupText_eq (baseUrl : String) (environment : Option Variables) (enhanced : Bool) :
    setupText baseUrl environment enhanced =
      joinedLines (setupLines baseUrl environment enhanced) := by
  set front := preambleLines ++ [baseUrlLine baseUrl] ++ clientSetupLines with hfront
  set closing := timeoutLines ++ (if enhanced then clientLines else []) ++ exportLines enhanced
    with hclosing
  have htext : setupText baseUrl environment enhanced =
      joinedLines (front ++ ([environmentLine environment] ++ closing)) := by
    rw [setupText, hclosing, hfront]
    simp only [List.append_assoc]
  have hlines : setupLines baseUrl environment enhanced =
      front ++ (environmentLines environment ++ closing) := by
    rw [setupLines, hclosing, hfront]
    simp only [List.append_assoc]
  have hne : closing ≠ [] := by
    rw [hclosing, timeoutLines]
    exact List.cons_ne_nil _ _
  have hmore (lines : List String) : lines ++ closing ≠ [] :=
    List.append_ne_nil_of_right_ne_nil lines hne
  rw [htext, hlines, ← String.toList_inj, toList_joinedLines_append front (hmore _),
    toList_joinedLines_append front (hmore _), toList_joinedLines_append _ hne,
    toList_joinedLines_append _ hne, flatMap_environmentLines, List.flatMap_singleton]

/-- No line of an environment breaks. -/
lemma unbroken_environmentLines (environment : Option Variables) :
    ∀ line ∈ environmentLines environment, Unbroken line.toList := by
  cases environment with
  | none => decide
  | some bindings =>
      cases bindings with
      | nil => decide
      | cons binding bindings =>
          rw [environmentLines, List.forall_mem_cons, List.forall_mem_append, List.forall_mem_map]
          exact ⟨by decide, fun binding _ => unbroken_entryLine binding, by decide +kernel⟩

lemma unbroken_clientLines : ∀ line ∈ clientLines, Unbroken line.toList := by
  -- the kernel reads characters from a list of them much faster than from a text
  unfold clientLines
  repeat rw [List.forall_mem_cons]
  repeat rw [String.toList_ofList]
  decide

/-- No line of the shared module breaks. -/
lemma unbroken_setupLines (baseUrl : String) (environment : Option Variables) (enhanced : Bool) :
    ∀ line ∈ setupLines baseUrl environment enhanced, Unbroken line.toList := by
  have hpreamble : ∀ line ∈ preambleLines, Unbroken line.toList := by decide
  have hsetup : ∀ line ∈ clientSetupLines, Unbroken line.toList := by decide
  have htimeout : ∀ line ∈ timeoutLines, Unbroken line.toList := by decide
  have hclient : ∀ line ∈ if enhanced then clientLines else [], Unbroken line.toList := by
    cases enhanced with
    | false => exact nofun
    | true => exact unbroken_clientLines
  have hexport : ∀ line ∈ exportLines enhanced, Unbroken line.toList := by
    cases enhanced <;> decide
  rw [setupLines]
  simp only [List.forall_mem_append, List.forall_mem_singleton]
  exact ⟨⟨⟨⟨⟨⟨hpreamble, unbroken_baseUrlLine baseUrl⟩, hsetup⟩,
    unbroken_environmentLines environment⟩, htimeout⟩, hclient⟩, hexport⟩

/-- **The lines of the shared module** are those of the template, with one more for each entry of
the environment. -/
lemma fields_setupText (baseUrl : String) (environment : Option Variables) (enhanced : Bool) :
    fields isLineTerminator (setupText baseUrl environment enhanced).toList =
      (setupLines baseUrl environment enhanced).map String.toList := by
  rw [setupText_eq]
  exact fields_joinedLines (by simp [setupLines]) (unbroken_setupLines baseUrl environment enhanced)

/-! ### Reading the module -/

/-- A base URL is read back. -/
lemma readBaseUrl?_setupText (baseUrl : String) (environment : Option Variables) (enhanced : Bool) :
    readBaseUrl? (setupText baseUrl environment enhanced).toList = some (units baseUrl.toList) := by
  have hpreamble : ∀ line ∈ preambleLines.map String.toList,
      Unbroken line ∧ ¬ baseUrlOpening <+: line := by decide
  have hlines := afterOpening?_lines (by decide) hpreamble
  rw [List.flatMap_map] at hlines
  rw [readBaseUrl?, toList_setupText, setupFront, List.append_assoc, hlines, afterOpening?_append,
    Option.bind_some, readLiteral_quote]
  rfl

lemma not_environmentOpening_baseUrlLine (baseUrl : String) :
    ¬ environmentOpening <+: (baseUrlLine baseUrl).toList := by
  rw [toList_baseUrlLine]
  intro h
  have hlength : environmentOpening.length ≤ baseUrlOpening.length := by decide
  have hboth := List.prefix_of_prefix_length_le h (List.prefix_append _ _) hlength
  exact absurd hboth (by decide)

/-- An environment is read back. -/
lemma readEnvironment?_setupText (baseUrl : String) (environment : Option Variables)
    (enhanced : Bool) :
    readEnvironment? (setupText baseUrl environment enhanced).toList =
      some (environment.map membersOf) := by
  have hother : ∀ line ∈ preambleLines ++ clientSetupLines,
      Unbroken line.toList ∧ ¬ environmentOpening <+: line.toList := by decide
  obtain ⟨hpreamble, hsetup⟩ := List.forall_mem_append.mp hother
  have hbefore : ∀ line ∈ (preambleLines ++ baseUrlLine baseUrl :: clientSetupLines).map
      String.toList, Unbroken line ∧ ¬ environmentOpening <+: line := by
    rw [List.forall_mem_map, List.forall_mem_append, List.forall_mem_cons]
    exact ⟨hpreamble, ⟨unbroken_baseUrlLine baseUrl, not_environmentOpening_baseUrlLine baseUrl⟩,
      hsetup⟩
  have hlines := afterOpening?_lines (by decide) hbefore
    (environmentOpening ++ ((environmentLiteral environment).toList ++ setupBack enhanced))
  have htext : (setupText baseUrl environment enhanced).toList =
      (((preambleLines ++ baseUrlLine baseUrl :: clientSetupLines).map String.toList).flatMap
        fun line => line ++ ['\n']) ++
        (environmentOpening ++
          ((environmentLiteral environment).toList ++ setupBack enhanced)) := by
    rw [toList_setupText, List.flatMap_map, List.flatMap_append, List.flatMap_cons,
      toList_baseUrlLine, setupFront, setupMiddle]
    simp only [List.append_assoc, List.cons_append, List.nil_append]
  rw [readEnvironment?, htext, hlines, afterOpening?_append, Option.bind_some,
    readObject?_environmentLiteral]
  rfl

/-- Environments with the same literal are the same. -/
lemma environmentLiteral_inj {environment : Option Variables}
    (environment' : Option Variables) :
    environmentLiteral environment = environmentLiteral environment' ↔
      environment = environment' := by
  refine ⟨fun h => ?_, congrArg environmentLiteral⟩
  have hread := readObject?_environmentLiteral environment []
  rw [h, readObject?_environmentLiteral] at hread
  have hmembers := (Prod.mk.inj (Option.some.inj hread)).1
  exact (Option.map_injective membersOf_injective hmembers).symm

/-- What the text of a shared module says of what it was made from. -/
structure ReadBack (baseUrl : String) (environment : Option Variables) (enhanced : Bool) :
    Prop where
  url : readBaseUrl? (setupText baseUrl environment enhanced).toList = some (units baseUrl.toList)
  entries : readEnvironment? (setupText baseUrl environment enhanced).toList =
    some (environment.map membersOf)
  /-- The literal is `null` exactly if there is no environment. -/
  null : environmentLiteral environment = "null" ↔ environment = none
  /-- It is an object without members exactly if there are no entries. -/
  empty : environmentLiteral environment = "\x7b\x7d" ↔ environment = some []
  /-- The text breaks between the lines of the template, and around the line of each entry. -/
  lines : fields isLineTerminator (setupText baseUrl environment enhanced).toList =
    (setupLines baseUrl environment enhanced).map String.toList
  /-- Each break is a line feed. -/
  breaks : setupText baseUrl environment enhanced =
    joinedLines (setupLines baseUrl environment enhanced)

/-- **The shared module determines what it was made from.** Read as a script, its text gives back
the base URL and the environment, null or the same names and values in the same order. The text
around the two literals does not depend on them, and its lines are those of the template with one
for each entry of the environment. So two such texts are equal only if base URLs and environments
are. -/
theorem setup_determines_inputs :
    (∀ baseUrl environment enhanced, ReadBack baseUrl environment enhanced) ∧
    (∃ (front middle : List Char) (back : Bool → List Char), ∀ baseUrl environment enhanced,
      (setupText baseUrl environment enhanced).toList =
        front ++ (quote baseUrl.toList ++ (middle ++
          ((environmentLiteral environment).toList ++ back enhanced)))) ∧
    ∀ baseUrl environment enhanced baseUrl' environment' enhanced',
      setupText baseUrl environment enhanced = setupText baseUrl' environment' enhanced' →
        baseUrl = baseUrl' ∧ environment = environment' := by
  refine ⟨fun baseUrl environment enhanced => ?_,
    ⟨setupFront, setupMiddle, setupBack, toList_setupText⟩,
    fun baseUrl environment enhanced baseUrl' environment' enhanced' h => ⟨?_, ?_⟩⟩
  · exact ⟨readBaseUrl?_setupText _ _ _, readEnvironment?_setupText _ _ _,
      environmentLiteral_inj none, environmentLiteral_inj (some []), fields_setupText _ _ _,
      setupText_eq _ _ _⟩
  · have hread := readBaseUrl?_setupText baseUrl environment enhanced
    rw [h, readBaseUrl?_setupText] at hread
    exact (String.toList_inj.mp (units_injective (Option.some.inj hread))).symm
  · have hread := readEnvironment?_setupText baseUrl environment enhanced
    rw [h, readEnvironment?_setupText] at hread
    exact (Option.map_injective membersOf_injective (Option.some.inj hread)).symm

/-- A value in which another entry seems to start is read back, and told from two entries. -/
theorem imitated_entry_read_back :
    readEnvironment? (setupText "https://host" (some [("a", "1',\n  'b': '2")]) false).toList =
        some (some [("a".toList.map Char.toNat, "1',\n  'b': '2".toList.map Char.toNat)]) ∧
      setupText "https://host" (some [("a", "1',\n  'b': '2")]) false ≠
        setupText "https://host" (some [("a", "1"), ("b", "2")]) false := by
  have hunits : membersOf [("a", "1',\n  'b': '2")] =
      [("a".toList.map Char.toNat, "1',\n  'b': '2".toList.map Char.toNat)] := by decide
  refine ⟨?_, fun h => ?_⟩
  · rw [(setup_determines_inputs.1 _ _ _).entries, Option.map_some, hunits]
  · have hsame := (setup_determines_inputs.2.2 _ _ _ _ _ _ h).2
    exact absurd hsame (by decide)

end RequestSuite.Suite
