/-
Names that end as the name of the object does.

* `named`: a script with such a name in it, as in `rpm.run()`;
* `Unreached`: no occurrence of a rule that begins before the name runs into it;
* `LeftAlone`: the name and the dot stand in the adapted script as they stood;
* `places`, `testNames_eq`: where the tests that a script declares are read; `Counted`: at the name;
* `rewrite?_name`: no occurrence begins in a name, but one may begin at its end;
* `Rule.call`, `earlier`, `readAlike_call`: what a pattern asks for behind `pm.`, and that the rules
  before it leave that as it is, but for `expect`, which two of them may write;
* `NoCall`, `name_tail_left_alone_iff`: so a name is left alone exactly if what follows it is no
  call on the object, and no assertion that becomes one;
* `name_tail_rewritten`: a name that is followed by such a call, and rewritten.
-/
import RequestSuite.Proofs.Scopes
import RequestSuite.Proofs.Separation
import RequestSuite.Proofs.TestName

namespace RequestSuite.Script

open Text (isBlank isWord isDecimalDigit)

/-- The name of the object and the dot behind it. -/
def object : List Char := "pm.".toList

/-- A script with a name in it that ends as the object's does, in sections: `name` is the part of it
before `pm`. -/
def named (before name after : List Char) : Sections := ⟨before, name ++ object, after⟩

/-- No occurrence that begins before the name runs into it while the rules are applied. -/
def Unreached : List Rule → Sections → Prop
  | [], _ => True
  | rule :: rules, p =>
    match rule.rewrite? (p.place ++ p.after) 0 p.before with
    | some before => Unreached rules ⟨before, p.place, rule.apply p.after⟩
    | none => False

instance instDecidableUnreached :
    (rules : List Rule) → (p : Sections) → Decidable (Unreached rules p)
  | [], _ => inferInstanceAs (Decidable True)
  | rule :: rules, p =>
    match h : rule.rewrite? (p.place ++ p.after) 0 p.before with
    | some before =>
      have := instDecidableUnreached rules ⟨before, p.place, rule.apply p.after⟩
      decidable_of_iff (Unreached rules ⟨before, p.place, rule.apply p.after⟩)
        (by rw [Unreached, h])
    | none => isFalse (by rw [Unreached, h]; exact id)

/-- At the place of the name the adapted script has the same name. -/
def LeftAlone (before name after : List Char) : Prop :=
  ∃ sections, applyToSections Rule.all (named before name after) = some sections ∧
    sections.place = name ++ object

/-! ### Where tests are counted -/

/-- The positions at which occurrences of a pattern begin. The first `skip` characters belong to an
occurrence that has been read already. -/
def placesFrom (pattern : Pattern) : (start skip : ℕ) → List Char → List ℕ
  | _, _, [] => []
  | start, skip + 1, _ :: cs => placesFrom pattern (start + 1) skip cs
  | start, 0, c :: cs =>
    match pattern.match? (c :: cs) with
    | some o => start :: placesFrom pattern (start + 1) (o.text.length - 1) cs
    | none => placesFrom pattern (start + 1) 0 cs

/-- The positions in a text at which occurrences of a pattern begin. -/
def places (pattern : Pattern) (text : List Char) : List ℕ := placesFrom pattern 0 0 text

/-- A test is counted at the place of the name. -/
def Counted (before name after : List Char) : Prop :=
  (before ++ name).length ∈ places testPattern (named before name after).text

instance (before name after : List Char) : Decidable (Counted before name after) :=
  inferInstanceAs (Decidable (_ ∈ _))

variable {rule : Rule} {rules : List Rule} {pattern : Pattern} {before name after cs s : List Char}
  {c : Char} {start skip : ℕ}

/-- What is captured is captured at these places. -/
lemma capturesFrom_eq (pattern : Pattern) (before : List Char) (skip : ℕ) (cs : List Char) :
    capturesFrom pattern skip cs = (placesFrom pattern before.length skip cs).filterMap fun i =>
      (pattern.match? ((before ++ cs).drop i)).map Occurrence.captured := by
  induction cs generalizing before skip with
  | nil => cases skip <;> rfl
  | cons c cs ih =>
      have hnext (skip : ℕ) := ih (before ++ [c]) skip
      simp only [List.length_append, List.length_singleton, List.append_assoc,
        List.singleton_append] at hnext
      cases skip with
      | succ skip => exact hnext skip
      | zero =>
          rw [capturesFrom, placesFrom]
          cases hm : pattern.match? (c :: cs) with
          | none => exact hnext 0
          | some o => simp only [List.filterMap_cons, List.drop_left, hm, Option.map_some, hnext]

/-- **The names of a script's tests are what is captured at its places.** -/
lemma testNames_eq (script : List Char) :
    testNames (some script) = (places testPattern script).filterMap fun i =>
      (testPattern.match? (script.drop i)).map Occurrence.captured :=
  capturesFrom_eq testPattern [] 0 script

lemma le_of_mem_placesFrom {i : ℕ} (h : i ∈ placesFrom pattern start skip cs) : start ≤ i := by
  induction cs generalizing start skip with
  | nil => cases skip <;> simp [placesFrom] at h
  | cons c cs ih =>
      cases skip with
      | succ skip => exact (Nat.le_succ start).trans (ih h)
      | zero =>
          rw [placesFrom] at h
          cases hm : pattern.match? (c :: cs) with
          | none =>
              simp only [hm] at h
              exact (Nat.le_succ start).trans (ih h)
          | some o =>
              simp only [hm, List.mem_cons] at h
              rcases h with rfl | h
              · exact le_rfl
              · exact (Nat.le_succ start).trans (ih h)

/-- Where no occurrence runs over an edge, the places after it are those of the text after it. -/
lemma mem_placesFrom_append {i : ℕ} (h : (rule.rewrite? after skip s).isSome = true)
    (hi : start + s.length ≤ i) :
    i ∈ placesFrom rule.pattern start skip (s ++ after) ↔
      i ∈ placesFrom rule.pattern (start + s.length) 0 after := by
  induction s generalizing start skip with
  | nil =>
      cases skip with
      | zero => rfl
      | succ skip => simp [Rule.rewrite?] at h
  | cons c s ih =>
      have hlength : start + (c :: s).length = start + 1 + s.length := by
        rw [List.length_cons]
        omega
      rw [hlength] at hi ⊢
      cases skip with
      | succ skip => exact ih h hi
      | zero =>
          rw [Rule.rewrite?] at h
          rw [List.cons_append] at h ⊢
          rw [placesFrom]
          cases hm : rule.pattern.match? (c :: (s ++ after)) with
          | none =>
              simp only [hm, Option.isSome_map] at h
              exact ih h hi
          | some o =>
              simp only [hm, Option.isSome_map] at h
              have hne : i ≠ start := by omega
              simp only [List.mem_cons, hne, false_or]
              exact ih h hi

/-! ### A rule at the place of the name -/

/-- No occurrence begins in a name, up to the end of the object's. -/
lemma match?_name (hname : ∀ c ∈ name, isNameChar c = true) (hne : name ≠ []) :
    rule.pattern.match? (name ++ (object ++ after)) = none := by
  cases hm : rule.pattern.match? (name ++ (object ++ after)) with
  | none => rfl
  | some o =>
      obtain ⟨t, ht⟩ := exists_text_eq_cons hm
      have happend := Pattern.match?_append hm
      have hdot : isNameChar '.' = false := by decide +kernel
      rw [ht] at happend
      match name with
      | [] => exact absurd rfl hne
      | [_] => simp [object] at happend
      | [_, _] => simp [object] at happend
      | _ :: _ :: c :: _ =>
          simp only [List.cons_append, List.cons.injEq] at happend
          have hc := hname c (by simp)
          rw [← happend.2.2.1, hdot] at hc
          cases hc

lemma exists_text_eq_object_cons {o : Occurrence} (h : rule.pattern.match? cs = some o) :
    ∃ c t, o.text = object ++ c :: t := by
  cases rule <;> obtain ⟨t, ht⟩ := prefix_of_match_literal h <;> exact ⟨_, _, ht⟩

/-- What a rule does in a name: nothing. -/
lemma rewrite?_name_append {t rest : List Char} (hname : ∀ c ∈ name, isNameChar c = true)
    (ht : t ++ after = object ++ rest) :
    rule.rewrite? after 0 (name ++ t) = (rule.rewrite? after 0 t).map (name ++ ·) := by
  induction name with
  | nil => cases h : rule.rewrite? after 0 t <;> simp [h]
  | cons c name ih =>
      have hnone : rule.pattern.match? (c :: (name ++ t) ++ after) = none := by
        have hfirst : rule.pattern.match? (c :: name ++ (object ++ rest)) = none :=
          match?_name hname (by simp)
        rwa [← ht, ← List.append_assoc] at hfirst
      have hrest := ih fun d hd => hname d (List.mem_cons_of_mem c hd)
      rw [List.cons_append, Rule.rewrite?, hnone, hrest, Option.map_map]
      rfl

/-- What a rule does at the name of the object: nothing, unless it reads a call on the object there,
which runs over the edge. -/
lemma rewrite?_object (rule : Rule) (after : List Char) :
    rule.rewrite? after 0 object =
      if (rule.pattern.match? (object ++ after)).isSome then none else some object := by
  change rule.rewrite? after 0 ('p' :: ['m', '.']) =
    if (rule.pattern.match? ('p' :: ['m', '.'] ++ after)).isSome then none else some object
  rw [Rule.rewrite?]
  cases hm : rule.pattern.match? ('p' :: ['m', '.'] ++ after) with
  | none =>
      have hm' : rule.pattern.match? ('m' :: ['.'] ++ after) = none :=
        match?_eq_none_of_ne (by decide)
      have hdot : rule.pattern.match? ('.' :: [] ++ after) = none :=
        match?_eq_none_of_ne (by decide)
      simp only [Rule.rewrite?, hm', hdot]
      rfl
  | some o =>
      obtain ⟨c, t, ht⟩ := exists_text_eq_object_cons hm
      have hover : rule.rewrite? after (o.text.length - 1) ['m', '.'] = none := by
        rw [ht]
        rfl
      simp only [hover]
      rfl

lemma rewrite?_name (hname : ∀ c ∈ name, isNameChar c = true) :
    rule.rewrite? after 0 (name ++ object) =
      if (rule.pattern.match? (object ++ after)).isSome then none else some (name ++ object) := by
  rw [rewrite?_name_append hname rfl, rewrite?_object]
  split_ifs <;> rfl

/-- No rule reads a call on the object at the place of the name when its turn comes. -/
def Unread : List Rule → List Char → Prop
  | [], _ => True
  | rule :: rules, after =>
    rule.pattern.match? (object ++ after) = none ∧ Unread rules (rule.apply after)

/-- A name that no occurrence runs into stays if no rule reads a call there. -/
lemma place_eq_iff_unread {p : Sections} (hname : ∀ c ∈ name, isNameChar c = true)
    (hplace : p.place = name ++ object) (h : Unreached rules p) :
    (∃ sections, applyToSections rules p = some sections ∧ sections.place = name ++ object) ↔
      Unread rules p.after := by
  induction rules generalizing p with
  | nil => exact ⟨fun _ => trivial, fun _ => ⟨p, rfl, hplace⟩⟩
  | cons rule rules ih =>
      rw [Unreached] at h
      cases hbefore : rule.rewrite? (p.place ++ p.after) 0 p.before with
      | none =>
          rw [hbefore] at h
          exact h.elim
      | some before =>
          rw [hbefore] at h
          rw [applyToSections, Rule.applySections, hbefore, hplace, rewrite?_name hname, Unread]
          cases hm : rule.pattern.match? (object ++ p.after) with
          | none =>
              rw [hplace] at h
              simpa using ih (p := ⟨before, name ++ object, rule.apply p.after⟩) rfl h
          | some o => simp

/-! ### Calls on the object -/

/-- What a rule's pattern asks for behind the name of the object. -/
def Rule.call (rule : Rule) : Pattern :=
  match rule.pattern with
  | .literal text :: pieces => .literal (String.ofList (text.toList.drop 3)) :: pieces
  | pattern => pattern

lemma dropPrefix?_append_append (u s t : List Char) :
    dropPrefix? (u ++ s) (u ++ t) = dropPrefix? s t := by
  induction u with
  | nil => rfl
  | cons c u ih => rw [List.cons_append, List.cons_append, dropPrefix?, if_pos rfl, ih]

/-- An occurrence behind the name of the object is a call. -/
lemma isSome_match?_object (rule : Rule) (cs : List Char) :
    (rule.pattern.match? (object ++ cs)).isSome = (rule.call.match? cs).isSome := by
  have hliteral {text : String} {pieces : Pattern}
      (htext : text.toList = object ++ text.toList.drop 3) :
      (Pattern.match? (.literal text :: pieces) (object ++ cs)).isSome =
        (Pattern.match? (.literal (String.ofList (text.toList.drop 3)) :: pieces) cs).isSome := by
    rw [isSome_match?_cons, isSome_match?_cons, Piece.read?, Piece.read?, Option.any_map,
      Option.any_map, String.toList_ofList]
    nth_rewrite 2 [htext]
    rw [dropPrefix?_append_append]
  cases rule <;> exact hliteral rfl

/-- The rules that are applied before a rule. -/
def earlier (rule : Rule) : List Rule := Rule.all.takeWhile (· ≠ rule)

lemma unread_all_iff : Unread Rule.all after ↔ ∀ rule ∈ Rule.all,
    rule.pattern.match? (object ++ applyRules (earlier rule) after) = none := by
  simp [Unread, Rule.all, earlier, applyRules]

/-- The rules before it leave a call as it is, unless it is `expect`. -/
lemma readAlike_call {other : Rule} (hrule : rule ≠ .expectPrefix) (h : other ∈ earlier rule) :
    ReadAlike other rule.call := by
  have hignores : ∀ rule ∈ [.testDeclaration, .statusEquality, .statusHave, .bodyJson, .bodyText],
      ∀ other ∈ earlier rule, ∀ piece ∈ rule.call, piece.Ignores other := by decide +kernel
  cases rule with
  | testDeclaration | statusEquality | statusHave | bodyJson | bodyText =>
      exact readAlike_of_ignores (hignores _ (by decide) other h)
  | statusAccess =>
      have hname : ∀ other ∈ earlier .statusAccess, NameIgnores other "response.code".toList := by
        decide +kernel
      exact readAlike_name (hname other h)
  | responseTime =>
      have hname : ∀ other ∈ earlier .responseTime,
          NameIgnores other "response.responseTime".toList := by decide +kernel
      exact readAlike_name (hname other h)
  | headerLookup =>
      have hopened : ∀ other ∈ earlier .headerLookup,
          ∀ piece ∈ [Piece.literal "response.headers.get", .blanks, .literal "(", .blanks, .quote],
            piece.Ignores other := by decide +kernel
      have hquotes : ∀ other ∈ earlier .headerLookup,
          other.quotes = false ∨ other = .testDeclaration := by decide
      exact (readAlike_key (hquotes other h)).append (hopened other h)
  | expectPrefix => exact absurd rfl hrule

/-- The two rules for assertions of the status write `expect` where they read one, and nowhere
else. -/
lemma isSome_expect_apply (h : rule ∈ [.statusEquality, .statusHave]) (cs : List Char) :
    (Rule.expectPrefix.call.match? (rule.apply cs)).isSome =
      ((rule.pattern.match? cs).isSome || (Rule.expectPrefix.call.match? cs).isSome) := by
  have hcall (ds : List Char) : (Rule.expectPrefix.call.match? ds).isSome =
      (dropPrefix? ('e' :: "xpect".toList) ds).any fun rest => !rest.head?.any isWord :=
    isSome_match?_wordEnd "expect" ds
  have hnil : ∀ rule ∈ [Rule.statusEquality, .statusHave], (rule.pattern.match? []).isNone := by
    decide
  have hname : ∀ rule ∈ [Rule.statusEquality, .statusHave], NameIgnores rule "xpect".toList := by
    decide +kernel
  have hlead : ∀ rule ∈ [Rule.statusEquality, .statusHave],
      rule.lead = 'e' :: "xpect".toList ++ "(response.status).to.equal(".toList := by decide
  cases cs with
  | nil =>
      rw [apply_nil, Option.isSome_eq_false_iff.mpr (hnil rule h), Bool.false_or]
  | cons c cs =>
      cases hm : rule.pattern.match? (c :: cs) with
      | none =>
          rw [apply_of_none hm, hcall, hcall, dropPrefix?, dropPrefix?]
          have hrest := readAlike_name (hname rule h) cs
          rw [isSome_match?_wordEnd, isSome_match?_wordEnd] at hrest
          split_ifs
          · simpa using hrest
          · rfl
      | some o =>
          obtain ⟨r, hr⟩ := exists_replacement_eq_lead rule o.captured
          rw [apply_of_match hm, hr, hlead rule h, hcall, List.append_assoc, List.append_assoc,
            dropPrefix?_append_self]
          rfl

lemma isSome_match?_applyRules {others : List Rule} (h : ∀ other ∈ others, ReadAlike other pattern)
    (cs : List Char) :
    (pattern.match? (applyRules others cs)).isSome = (pattern.match? cs).isSome := by
  induction others generalizing cs with
  | nil => rfl
  | cons other others ih =>
      obtain ⟨hother, hothers⟩ := List.forall_mem_cons.mp h
      exact (ih hothers (other.apply cs)).trans (hother cs)

/-- What follows a name is no call on the object, and no assertion of the status either, which would
be written with a call to `expect` in front. -/
def NoCall (after : List Char) : Prop :=
  (∀ rule ∈ Rule.all, rule.pattern.match? (object ++ after) = none) ∧
    ∀ rule ∈ [Rule.statusEquality, .statusHave], rule.pattern.match? after = none

instance (after : List Char) : Decidable (NoCall after) := inferInstanceAs (Decidable (_ ∧ _))

/-- A call to `expect` is read at its turn if it stands in the script, or if an assertion of the
status stands in its place. -/
lemma isSome_expect_turn (after : List Char) :
    (Rule.expectPrefix.pattern.match?
      (object ++ applyRules (earlier .expectPrefix) after)).isSome =
    ((Rule.statusHave.pattern.match? after).isSome ||
      ((Rule.statusEquality.pattern.match? after).isSome ||
        (Rule.expectPrefix.pattern.match? (object ++ after)).isSome)) := by
  have hexpect : ∀ other ∈ [Rule.testDeclaration, .statusAccess, .headerLookup, .bodyJson,
      .bodyText], NameIgnores other "expect".toList := by decide +kernel
  have hignores : ∀ rule ∈ [Rule.statusEquality, .statusHave], ∀ other ∈ earlier rule,
      ∀ piece ∈ rule.pattern, piece.Ignores other := by decide +kernel
  have hassertion (rule : Rule) (h : rule ∈ [Rule.statusEquality, .statusHave]) :
      (rule.pattern.match? (applyRules (earlier rule) after)).isSome =
        (rule.pattern.match? after).isSome := by
    refine isSome_match?_applyRules (fun other hother => ?_) after
    exact readAlike_of_ignores (hignores rule h other hother)
  have hcall : ∀ other ∈ [Rule.statusAccess, .headerLookup, .bodyJson, .bodyText],
      ReadAlike other Rule.expectPrefix.call := fun other h =>
    readAlike_name (hexpect other (List.mem_cons_of_mem _ h))
  let first := Rule.testDeclaration.apply after
  let second := Rule.statusEquality.apply first
  let others : List Rule := [.statusAccess, .headerLookup, .bodyJson, .bodyText]
  rw [isSome_match?_object, isSome_match?_object]
  calc (Rule.expectPrefix.call.match? (applyRules (earlier .expectPrefix) after)).isSome
      = (Rule.expectPrefix.call.match? (applyRules others (Rule.statusHave.apply second))).isSome :=
        rfl
    _ = (Rule.expectPrefix.call.match? (Rule.statusHave.apply second)).isSome :=
        isSome_match?_applyRules hcall _
    _ = ((Rule.statusHave.pattern.match? second).isSome ||
          ((Rule.statusEquality.pattern.match? first).isSome ||
            (Rule.expectPrefix.call.match? first).isSome)) := by
        rw [isSome_expect_apply (by decide), isSome_expect_apply (by decide)]
    _ = ((Rule.statusHave.pattern.match? after).isSome ||
          ((Rule.statusEquality.pattern.match? after).isSome ||
            (Rule.expectPrefix.call.match? after).isSome)) := by
        have hfirst : ReadAlike .testDeclaration Rule.expectPrefix.call :=
          readAlike_name (hexpect .testDeclaration (by decide))
        exact congrArg₂ or (hassertion .statusHave (by decide))
          (congrArg₂ or (hassertion .statusEquality (by decide)) (hfirst after))

/-- No rule reads a call at its turn exactly if there is none in the script. -/
lemma unread_iff_noCall (after : List Char) : Unread Rule.all after ↔ NoCall after := by
  have hnone {α β : Type} {x : Option α} {y : Option β} (h : x.isSome = y.isSome) :
      x = none ↔ y = none := by
    rw [← Option.isNone_iff_eq_none, ← Option.isNone_iff_eq_none, ← Option.not_isSome,
      ← Option.not_isSome, h]
  have hturn (rule : Rule) (hne : rule ≠ .expectPrefix) :
      rule.pattern.match? (object ++ applyRules (earlier rule) after) = none ↔
        rule.pattern.match? (object ++ after) = none := by
    refine hnone ?_
    rw [isSome_match?_object, isSome_match?_object]
    exact isSome_match?_applyRules (fun other hother => readAlike_call hne hother) after
  have hexpect :
      Rule.expectPrefix.pattern.match? (object ++ applyRules (earlier .expectPrefix) after) = none ↔
        Rule.statusHave.pattern.match? after = none ∧
          Rule.statusEquality.pattern.match? after = none ∧
            Rule.expectPrefix.pattern.match? (object ++ after) = none := by
    simp only [← Option.isNone_iff_eq_none, ← Option.not_isSome, isSome_expect_turn, Bool.not_or,
      Bool.and_eq_true]
  rw [unread_all_iff, NoCall]
  constructor
  · intro h
    obtain ⟨hhave, hequality, hcall⟩ := hexpect.mp (h .expectPrefix (by decide))
    refine ⟨fun rule hrule => ?_, by simp [hhave, hequality]⟩
    by_cases hne : rule = .expectPrefix
    · rwa [hne]
    · exact (hturn rule hne).mp (h rule hrule)
  · rintro ⟨h, hassertion⟩ rule hrule
    by_cases hne : rule = .expectPrefix
    · rw [hne]
      exact hexpect.mpr ⟨hassertion _ (by decide), hassertion _ (by decide), h _ (by decide)⟩
    · exact (hturn rule hne).mpr (h rule hrule)

/-! ### The names that are left alone -/

/-- A test is counted at the place of the name if a declaration is read there. -/
lemma counted_iff (hname : ∀ c ∈ name, isNameChar c = true)
    (hout : Unreached Rule.all (named before name after)) :
    Counted before name after ↔ (testPattern.match? (object ++ after)).isSome = true := by
  have hbefore :
      (Rule.testDeclaration.rewrite? (name ++ (object ++ after)) 0 before).isSome = true := by
    rw [← List.append_assoc]
    rw [Rule.all, Unreached] at hout
    cases hrewrite : Rule.testDeclaration.rewrite? (name ++ object ++ after) 0 before with
    | none =>
        have hnone : Rule.testDeclaration.rewrite? ((named before name after).place ++
            (named before name after).after) 0 (named before name after).before = none := hrewrite
        rw [hnone] at hout
        exact hout.elim
    | some before => rfl
  have hfront : (Rule.testDeclaration.rewrite? (object ++ after) 0 name).isSome = true := by
    rw [← List.append_nil name, rewrite?_name_append hname (List.nil_append _)]
    rfl
  have htext : (named before name after).text = before ++ (name ++ (object ++ after)) := by
    simp [named, Sections.text]
  let place := 0 + before.length + name.length
  have hplace : (before ++ name).length = place := by
    rw [List.length_append, ← Nat.zero_add before.length]
  have hskip : place ∈ placesFrom testPattern 0 0 (before ++ (name ++ (object ++ after))) ↔
      place ∈ placesFrom testPattern (0 + before.length) 0 (name ++ (object ++ after)) :=
    mem_placesFrom_append hbefore (Nat.le_add_right _ _)
  rw [Counted, htext, hplace]
  refine (hskip.trans (mem_placesFrom_append hfront (Nat.le_refl place))).trans ?_
  change place ∈ placesFrom testPattern place 0 ('p' :: (['m', '.'] ++ after)) ↔
    (testPattern.match? ('p' :: (['m', '.'] ++ after))).isSome = true
  rw [placesFrom]
  cases testPattern.match? ('p' :: (['m', '.'] ++ after)) with
  | none =>
      simp only [Option.isSome_none, Bool.false_eq_true, iff_false]
      exact fun hmem => absurd (le_of_mem_placesFrom hmem) (by omega)
  | some o => simp

/-- **A name that ends as the object's does is left alone exactly if no call follows it.** Where no
occurrence runs into the name from outside, it stands in the adapted script as it stood exactly if
no rule reads a call on the object at its end, and no assertion of the status follows at once; and a
test is counted at its place exactly if a declaration is read there. What the name has before `pm`
is not looked at: it may have nothing there. -/
theorem name_tail_left_alone_iff (hname : ∀ c ∈ name, isNameChar c = true)
    (hout : Unreached Rule.all (named before name after)) :
    (∀ sections, applyToSections Rule.all (named before name after) = some sections →
      (adapt (some (named before name after).text)).text = sections.text) ∧
    testNames (some (named before name after).text) =
      ((places testPattern (named before name after).text).filterMap fun i =>
        (testPattern.match? ((named before name after).text.drop i)).map Occurrence.captured) ∧
    (LeftAlone before name after ↔ NoCall after) ∧
    (Counted before name after ↔ (testPattern.match? (object ++ after)).isSome = true) :=
  ⟨fun sections happly => by rw [text_adapt, text_applyToSections happly], testNames_eq _,
    (place_eq_iff_unread hname rfl hout).trans (unread_iff_noCall after), counted_iff hname hout⟩

/-- An assertion behind the dot becomes a call to `expect`, which is read at the next turn. -/
example : (adapt (some "rpm.pm.response.to.have.status(200)".toList)).text =
    "rexpect(response.status).to.equal(200)".toList := by decide +kernel

/-- A longer name after a test that is declared, with a call on the object in its argument. -/
theorem longer_name_left_alone :
    let before := "pm.test(\"ok\", run); ".toList
    let name := "r$".toList
    let after := "wait(pm.response.code);".toList
    (∀ c ∈ name, isNameChar c = true) ∧ Unreached Rule.all (named before name after) ∧
      LeftAlone before name after ∧ ¬ Counted before name after := by
  intro before name after
  have hname : ∀ c ∈ name, isNameChar c = true := by decide +kernel
  have hout : Unreached Rule.all (named before name after) := by decide +kernel
  have hcall : NoCall after := by decide +kernel
  have hnone : ¬ (testPattern.match? (object ++ after)).isSome = true := by decide +kernel
  obtain ⟨-, -, halone, hcounted⟩ := name_tail_left_alone_iff hname hout
  exact ⟨hname, hout, halone.mpr hcall, fun h => hnone (hcounted.mp h)⟩

/-- A longer name that is not left alone: no pattern is read at any other position of the script,
but the declaration that is read at the end of the name is adapted and counted. -/
theorem name_tail_rewritten :
    let name := ['r']
    let after := "test(\"ok\", run);".toList
    let script := (named [] name after).text
    (∀ c ∈ name, isNameChar c = true) ∧ script = "rpm.test(\"ok\", run);".toList ∧
      (∀ rule ∈ Rule.all, ∀ i ∈ List.range script.length, i ≠ name.length →
        rule.pattern.match? (script.drop i) = none) ∧
      Unreached Rule.all (named [] name after) ∧
      (adapt (some script)).text = "rit(\"ok\", run);".toList ∧
      testNames (some script) = ["ok".toList] ∧
      ¬ LeftAlone [] name after ∧ Counted [] name after := by
  intro name after script
  refine ⟨by decide +kernel, by decide +kernel, by decide +kernel, by decide +kernel,
    by decide +kernel, by decide +kernel, ?_, by decide +kernel⟩
  rintro ⟨sections, happly, -⟩
  have hnone : applyToSections Rule.all (named [] name after) = none := by decide +kernel
  rw [hnone] at happly
  cases happly

end RequestSuite.Script
