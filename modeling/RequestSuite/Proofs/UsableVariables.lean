/-
Variables of an environment laid over those of a collection.

* `Json.HasKey`, `Json.Usable`: the entries of a list of variables that have a key, and those that
  give a variable a value; `namedValue?_eq` says that these are the ones that are read;
* `usableFor?`: the last entry that gives a variable a value;
* `Overlaid`: the variables of two lists, those of the second one over those of the first;
  `overlaid_putAll` shows that putting one map into another does this;
* `keylessFrom`: the places of the entries without a key; `filterMap_index?_checkEnvironment` finds
  them in the warnings about an environment;
* `environment_overlaid`: what is read of an environment that passes its check, and what is said
  of it.
-/
import RequestSuite.Collection.Check
import RequestSuite.Collection.Reading
import RequestSuite.Proofs.KeyedWrites

namespace RequestSuite

/-! ### Usable entries -/

namespace Json

/-- An entry of a list of variables that has a key. -/
def HasKey (entry : Json) : Prop := entry.isObject = true ∧ (entry.member "key").truthy = true

instance : DecidablePred HasKey := fun _ => inferInstanceAs (Decidable (_ ∧ _))

/-- An entry that gives a variable a value: it has a key, and a value that is neither null nor the
empty text. -/
structure Usable (entry : Json) : Prop where
  hasKey : entry.HasKey
  not_null : entry.member "value" ≠ .null
  not_empty : entry.member "value" ≠ .str ""

/-- The name of the variable that an entry gives a value. -/
def keyText (entry : Json) : String := (entry.member "key").text

/-- The value that an entry gives. -/
def valueText (entry : Json) : String := (entry.member "value").text

lemma isNull_iff {value : Json} : value.isNull = true ↔ value = .null := by
  cases value <;> simp [isNull]

lemma str?_eq_some_iff {value : Json} {s : String} : value.str? = some s ↔ value = .str s := by
  cases value <;> simp [str?]

lemma usable_iff {entry : Json} : entry.Usable ↔
    entry.HasKey ∧ ¬ (entry.member "value").isNull = true ∧
      (entry.member "value").str? ≠ some "" := by
  rw [isNull_iff, ne_eq, str?_eq_some_iff]
  exact ⟨fun h => ⟨h.1, h.2, h.3⟩, fun h => ⟨h.1, h.2.1, h.2.2⟩⟩

instance : DecidablePred Usable := fun _ => decidable_of_iff _ usable_iff.symm

end Json

open Json (HasKey Usable keyText valueText)

lemma namedValue?_eq (entry : Json) :
    namedValue? entry = if entry.Usable then some (keyText entry, valueText entry) else none := by
  rw [namedValue?]
  refine if_congr ?_ rfl rfl
  simp [Json.usable_iff, HasKey, and_assoc]

/-- The variables of a list of entries, one for each usable entry. -/
lemma filterMap_namedValue? (entries : List Json) :
    entries.filterMap namedValue? =
      (entries.filter (Usable ·)).map fun entry => (keyText entry, valueText entry) := by
  induction entries with
  | nil => rfl
  | cons entry entries ih =>
      rw [List.filterMap_cons, namedValue?_eq]
      by_cases h : entry.Usable <;> simp [h, ih]

/-- The last usable entry of a list that gives a variable a value. -/
def usableFor? (entries : List Json) (name : String) : Option Json :=
  (entries.filter (Usable ·)).findRev? fun entry => keyText entry == name

/-! ### One list over another -/

/-- The variables of two lists of entries, those of the second one over those of the first. -/
structure Overlaid (base entries : List Json) (merged : Variables) : Prop where
  /-- A variable has the value of the last usable entry of the second list with its name, or else
  of the first list, and there is none if neither list has such an entry. -/
  value : ∀ name, merged.get? name =
    ((usableFor? entries name).or (usableFor? base name)).map valueText
  /-- The variables come in the order of their first usable entries, each once. -/
  order : merged.keys = (((base ++ entries).filter (Usable ·)).map keyText).eraseDups

lemma map_snd_findRev?_namedValue? (entries : List Json) (name : String) :
    ((entries.filterMap namedValue?).findRev? fun pair => pair.1 == name).map Prod.snd =
      (usableFor? entries name).map valueText := by
  rw [filterMap_namedValue?, usableFor?, List.findRev?_eq_find?_reverse,
    List.findRev?_eq_find?_reverse, ← List.map_reverse, List.find?_map, Option.map_map]
  rfl

/-- **One map put into another** lays the entries of the one over those of the other. -/
lemma overlaid_putAll (base entries : List Json) :
    Overlaid base entries
      (Keyed.putAll (readVariables (.arr entries)) (readVariables (.arr base))) := by
  have hbase : readVariables (.arr base) = Keyed.putAll (base.filterMap namedValue?) [] := rfl
  have hmerged : Keyed.putAll (readVariables (.arr entries)) (readVariables (.arr base)) =
      Keyed.putAll (entries.filterMap namedValue?) (readVariables (.arr base)) :=
    Keyed.putAll_ofList _ _
  constructor
  · intro name
    rw [hmerged, hbase, Keyed.get?_putAll, Keyed.get?_putAll, map_snd_findRev?_namedValue?,
      map_snd_findRev?_namedValue?, Option.map_or]
    exact congrArg _ Option.or_none
  · have happend : Keyed.putAll (entries.filterMap namedValue?) (readVariables (.arr base)) =
        Keyed.putAll ((base ++ entries).filterMap namedValue?) [] := by
      rw [hbase, List.filterMap_append, Keyed.putAll, Keyed.putAll, Keyed.putAll,
        List.foldl_append]
    rw [hmerged, happend, Keyed.keys_putAll, filterMap_namedValue?, List.map_map]
    simp [Keyed.keys, Function.comp_def]

/-! ### Entries without a key -/

/-- The places of the entries of a list that have no key, counted from an index on. -/
def keylessFrom (index : ℕ) (entries : List Json) : List ℕ :=
  ((entries.zipIdx index).filter fun (entry, _) => ¬ entry.HasKey).map Prod.snd

lemma keylessFrom_cons (index : ℕ) (entry : Json) (entries : List Json) :
    keylessFrom index (entry :: entries) =
      if entry.HasKey then keylessFrom (index + 1) entries
      else index :: keylessFrom (index + 1) entries := by
  rw [keylessFrom, List.zipIdx_cons, List.filter_cons]
  by_cases h : entry.HasKey <;> simp [h, keylessFrom]

/-- The place of the entry that a warning about a missing key is for. -/
def DocumentWarning.index? : DocumentWarning → Option ℕ
  | .keyMissing index => some index
  | _ => none

/-- The check of the keys warns of the entries without one. -/
lemma checkKeys_eq (index : ℕ) (entries : List Json) :
    checkKeys index entries = (keylessFrom index entries).map .keyMissing := by
  induction entries generalizing index with
  | nil => rfl
  | cons entry entries ih =>
      have hkey : (entry.isObject && (entry.member "key").truthy) = true ↔ entry.HasKey :=
        Bool.and_eq_true_iff
      rw [checkKeys, keylessFrom_cons, ih]
      simp only [hkey]
      split_ifs <;> rfl

/-- The warnings about missing keys in an environment with a list of values. -/
lemma filterMap_index?_checkEnvironment {fields : List (String × Json)} {entries : List Json}
    (h : Json.member "values" (.obj fields) = .arr entries) :
    (checkEnvironment (.obj fields)).warnings.filterMap DocumentWarning.index? =
      keylessFrom 0 entries := by
  have hwarnings : (checkEnvironment (.obj fields)).warnings =
      (warnUnless (Json.member "name" (.obj fields)).truthy .environmentNameMissing).warnings ++
        (checkValues (.arr entries)).warnings := by
    rw [← h]
    rfl
  have hname : (warnUnless (Json.member "name" (.obj fields)).truthy
      .environmentNameMissing).warnings.filterMap DocumentWarning.index? = [] := by
    rw [warnUnless]
    split_ifs <;> rfl
  have hvalues : (checkValues (.arr entries)).warnings.filterMap DocumentWarning.index? =
      keylessFrom 0 entries := by
    cases entries with
    | nil => rfl
    | cons entry entries =>
        have hcomp : DocumentWarning.index? ∘ .keyMissing = some := rfl
        rw [show (checkValues (.arr (entry :: entries))).warnings =
          checkKeys 0 (entry :: entries) from rfl, checkKeys_eq, List.filterMap_map, hcomp,
          List.filterMap_some]
  rw [hwarnings, List.filterMap_append, hname, hvalues, List.nil_append]

/-! ### Environments -/

/-- An environment that passes its check is null or an object with a list of values. -/
lemma eq_null_or_of_checkEnvironment {environment : Json}
    (h : (checkEnvironment environment).ok = true) :
    environment = .null ∨ ∃ fields entries, environment = .obj fields ∧
      Json.member "values" (.obj fields) = .arr entries := by
  cases environment with
  | null => exact Or.inl rfl
  | obj fields =>
      have hvalues : (checkValues (Json.member "values" (.obj fields))).errors = [] :=
        (List.append_eq_nil_iff.mp (List.isEmpty_iff.mp h)).2
      cases hmember : Json.member "values" (.obj fields) with
      | arr entries => exact Or.inr ⟨fields, entries, rfl, hmember⟩
      | _ => simp [hmember, checkValues] at hvalues
  | _ => simp [checkEnvironment, Json.isNull, Json.isObject, Report.ok] at h

/-- **An environment and its check agree** on the entries that give a variable a value. -/
theorem environment_overlaid (collection : Json) {environment : Json}
    (h : (checkEnvironment environment).ok = true) :
    let base := (collection.member "variable").items?.getD []
    let merged := mergeEnvironment environment (readCollection collection).1.bindings
    let warned := (checkEnvironment environment).warnings.filterMap DocumentWarning.index?
    environment = .null ∧ merged = none ∧ warned = [] ∨
      environment ≠ .null ∧ ∃ entries bindings, environment.member "values" = .arr entries ∧
        merged = some bindings ∧ Overlaid base entries bindings ∧
        warned = keylessFrom 0 entries := by
  intro base merged warned
  rcases eq_null_or_of_checkEnvironment h with rfl | ⟨fields, entries, rfl, hvalues⟩
  · exact Or.inl ⟨rfl, rfl, rfl⟩
  · refine Or.inr ⟨by simp, entries,
      Keyed.putAll (readVariables (.arr entries)) (readVariables (.arr base)), hvalues, ?_,
      overlaid_putAll base entries, filterMap_index?_checkEnvironment hvalues⟩
    rw [← hvalues]
    rfl

/-- A collection whose variables have a name twice, and an entry that is no object. -/
def hostVariables : Json :=
  .obj [("variable", .arr [
    .obj [("key", .str "host"), ("value", .str "localhost")],
    .int 5,
    .obj [("key", .str "debug"), ("value", .bool false)],
    .obj [("key", .str "host"), ("value", .str "127.0.0.1")],
    .obj [("key", .str "true"), ("value", .str "no")]])]

/-- An environment with entries that lack a key or a value, and a name that is spelled as a text and
as a truth value. -/
def hostEnvironment : Json :=
  .obj [("values", .arr [
    .obj [("key", .bool true), ("value", .int 1)],
    .obj [("key", .str ""), ("value", .str "x")],
    .obj [("key", .str "host"), ("value", .str "example.org")],
    .obj [("key", .str "host"), ("value", .str "")],
    .obj [("value", .str "y")],
    .null,
    .obj [("key", .str "true"), ("value", .int 2)]])]

/-- The name `host` keeps its first place and takes the last usable value, a truth value and a text
with one spelling are one name, and the entries without a key are named. -/
theorem host_variables_overlaid :
    (checkEnvironment hostEnvironment).ok = true ∧
      ∃ entries bindings, hostEnvironment.member "values" = .arr entries ∧
        mergeEnvironment hostEnvironment (readCollection hostVariables).1.bindings =
          some bindings ∧
        bindings = [("host", "example.org"), ("debug", "false"), ("true", "2")] ∧
        Overlaid ((hostVariables.member "variable").items?.getD []) entries bindings ∧
        (checkEnvironment hostEnvironment).warnings.filterMap DocumentWarning.index? = [1, 4, 5] ∧
        keylessFrom 0 entries = [1, 4, 5] := by
  have h : (checkEnvironment hostEnvironment).ok = true := by decide
  have hbindings : mergeEnvironment hostEnvironment (readCollection hostVariables).1.bindings =
      some [("host", "example.org"), ("debug", "false"), ("true", "2")] := by rfl
  have hwarned : (checkEnvironment hostEnvironment).warnings.filterMap DocumentWarning.index? =
      [1, 4, 5] := by decide
  rcases environment_overlaid hostVariables h with ⟨hnull, -⟩ |
    ⟨-, entries, bindings, hvalues, hmerged, hoverlaid, hkeyless⟩
  · simp [hostEnvironment] at hnull
  · refine ⟨h, entries, bindings, hvalues, hmerged, ?_, hoverlaid, hwarned, ?_⟩
    · exact Option.some_inj.mp (hmerged.symm.trans hbindings)
    · rw [← hkeyless, hwarned]

end RequestSuite
