/-
Every item of a document, and what becomes of it.

* `Visit`, `visited`: the items of a list and, below each of them, the items of its own list, in
  document order; `visits` are those of a document;
* `Label`, `labelsOf`: what the nodes of a tree are and are called, a group before what is in it;
* `Visit.fate`, `Visit.warnings`: an item becomes a group, a request, or a warning that it is
  skipped, and its ignored fields are warned of;
* `labels_readItem`, `warnings_readItem`: the reading of one item; `labels_readItems` and
  `warnings_readItems`: of a list of items, in the order of the visits;
* `items_accounted_for`: each visited item is one node or one warning that it is skipped;
* `ignored_fields_reported_iff`: what is said of the ignored fields of a request.
-/
import RequestSuite.Collection.Check
import RequestSuite.Proofs.IgnoredFields

namespace RequestSuite

/-! ### Visits -/

/-- The elements of an item's list of items. Where there is no such list, there are none. -/
def Json.childItems (item : Json) : List Json := (item.member "item").items?.getD []

/-- An item at an index of the list below `trail`. -/
structure Visit where
  trail : String
  index : ℕ
  item : Json

/-- The name of a visited item. -/
def Visit.name (v : Visit) : String := itemName v.index v.item

/-- The path of names down to a visited item. What is no object has no name, only an index. -/
def Visit.place (v : Visit) : String :=
  if v.item.isObject then placeBelow v.trail v.name
  else v.trail ++ "[" ++ toString v.index ++ "]"

/-- The value of a key is smaller than the members it stands among. -/
lemma sizeOf_get? {key : String} {fields : List (String × Json)} {value : Json}
    (h : Keyed.get? key fields = some value) : sizeOf value < sizeOf fields := by
  induction fields with
  | nil => cases h
  | cons entry rest ih =>
      obtain ⟨key', value'⟩ := entry
      rw [Keyed.get?] at h
      split_ifs at h
      · obtain rfl : value' = value := by simpa using h
        simp only [List.cons.sizeOf_spec, Prod.mk.sizeOf_spec]
        omega
      · have := ih h
        simp only [List.cons.sizeOf_spec]
        omega

/-- The list of items inside an item is smaller than the item. -/
lemma sizeOf_childItems (item : Json) : sizeOf item.childItems ≤ sizeOf item := by
  cases item with
  | obj fields =>
      rw [Json.childItems, Json.member]
      rcases hm : Keyed.get? "item" fields with _ | value
      · simp [Json.items?]
      · have hs := sizeOf_get? hm
        cases value with
        | arr items =>
            simp only [Json.arr.sizeOf_spec] at hs
            simp only [Option.getD_some, Json.items?, Json.obj.sizeOf_spec]
            omega
        | _ => simp [Json.items?]
  | _ => simp [Json.childItems, Json.member, Json.items?]

/-- The items of a list from an index on, each followed by the items inside it. -/
def visited (trail : String) (index : ℕ) : List Json → List Visit
  | [] => []
  | item :: items =>
    ⟨trail, index, item⟩ :: (visited (placeBelow trail (itemName index item)) 0 item.childItems ++
      visited trail (index + 1) items)
termination_by items => sizeOf items
decreasing_by
  · have := sizeOf_childItems item
    simp only [List.cons.sizeOf_spec]
    omega
  · simp only [List.cons.sizeOf_spec]
    omega

/-- The items of a document. -/
def visits (document : Json) : List Visit := visited "" 0 document.childItems

/-! ### What becomes of an item -/

/-- What a node is, and its name. -/
inductive Label
  | group (name : String)
  | request (name : String)
  deriving DecidableEq, Repr

mutual

/-- The label of a node and, after it, those of the nodes inside. -/
def Node.labels : Node → List Label
  | .group name children => .group name :: labelsOf children
  | .request r => [.request r.name]

/-- The labels of the nodes of a tree, in document order. -/
def labelsOf : List Node → List Label
  | [] => []
  | node :: nodes => node.labels ++ labelsOf nodes

end

/-- The name of a labelled node. -/
def Label.name : Label → String
  | .group name | .request name => name

/-- What becomes of an item: a node, or a warning that it is skipped. -/
inductive Fate
  | node (label : Label)
  | skipped (warning : ReadingWarning)
  deriving DecidableEq, Repr

/-- The label of the node an item becomes. -/
def Fate.label? : Fate → Option Label
  | .node label => some label
  | .skipped _ => none

/-- The warning that an item is skipped. -/
def Fate.warning? : Fate → Option ReadingWarning
  | .node _ => none
  | .skipped warning => some warning

/-- What becomes of a visited item. An object with a list of items is a group, whatever else it
holds. -/
def Visit.fate (v : Visit) : Fate :=
  if v.item.isObject = false then .skipped (.notAnObject v.trail v.index)
  else if (v.item.member "item").items?.isSome then .node (.group v.name)
  else if v.item.hasRequest then .node (.request v.name)
  else if (v.item.member "request").isNull then .skipped (.neitherFolderNorRequest v.place)
  else .skipped (.requestType v.place)

/-- Whether the fields of a visited item are read. They are before a request of the wrong type is
skipped. -/
def Visit.readsFields (v : Visit) : Bool :=
  v.item.isObject && (v.item.member "item").items?.isNone && !(v.item.member "request").isNull

/-- The warnings about a visited item itself, not about items inside it. -/
def Visit.warnings (v : Visit) : List ReadingWarning :=
  (if v.readsFields then fieldWarnings v.place v.item Field.all else []) ++
    v.fate.warning?.toList

/-- Whether a message begins as those about skipped items do. -/
def ReadingWarning.skips (w : ReadingWarning) : Bool :=
  "Skipping item".toList.isPrefixOf w.message.toList

/-- A message that names a place. -/
def ReadingWarning.Names (place : String) (w : ReadingWarning) : Prop :=
  place.toList <:+: w.message.toList

lemma labelsOf_append (nodes nodes' : List Node) :
    labelsOf (nodes ++ nodes') = labelsOf nodes ++ labelsOf nodes' := by
  induction nodes with
  | nil => rfl
  | cons node nodes ih => simp [labelsOf, ih]

/-! ### The reading of one item -/

/-- The nodes inside an item come from its list of items. -/
lemma readChildren?_eq (place : String) (fields : List (String × Json)) :
    readChildren? place fields =
      ((Json.obj fields).member "item").items?.map (readItems place 0) := by
  rw [Json.member]
  induction fields with
  | nil => rfl
  | cons entry rest ih =>
      obtain ⟨key, value⟩ := entry
      by_cases hkey : key = "item"
      · cases value <;> simp [readChildren?, Keyed.get?, hkey, Json.items?]
      · rw [Keyed.get?, if_neg hkey, ← ih]
        cases value <;> simp [readChildren?, hkey]

/-- The reading of an item, by what its fields hold. -/
lemma readItem_eq (v : Visit) :
    readItem v.trail v.index v.item =
      if v.item.isObject = false then (none, [.notAnObject v.trail v.index])
      else match (v.item.member "item").items? with
        | some items =>
          (some (.group v.name (readItems (placeBelow v.trail v.name) 0 items).1),
            (readItems (placeBelow v.trail v.name) 0 items).2)
        | none => readLeaf v.name v.place v.item := by
  obtain ⟨trail, index, item⟩ := v
  cases item with
  | obj fields =>
      simp only [readItem, readChildren?_eq]
      cases ((Json.obj fields).member "item").items? <;> rfl
  | _ => rfl

lemma prefix_toList_append {head : List Char} {s : String} (t : String)
    (h : head <+: s.toList) : head <+: (s ++ t).toList := by
  rw [String.toList_append]
  exact h.trans (List.prefix_append _ _)

/-- The messages about skipped items are those about items that become no node. -/
lemma skips_eq (w : ReadingWarning) :
    w.skips = match w with
      | .notAnObject _ _ | .neitherFolderNorRequest _ | .requestType _ => true
      | _ => false := by
  have hskip : "Skipping item".toList <+: "Skipping item \"".toList := by decide
  have hopen : "Skipping item".toList <+: "Skipping item ".toList := by decide
  have hbody : "Ignoring".toList <+: "Ignoring body of \"".toList := by decide
  have hscript : "Ignoring".toList <+: "Ignoring test script of \"".toList := by decide
  -- a message cannot begin in both ways
  have hother : ∀ message : List Char, "Ignoring".toList <+: message →
      "Skipping item".toList.isPrefixOf message = false := by
    intro message h
    rw [Bool.eq_false_iff, Ne, List.isPrefixOf_iff_prefix]
    intro h'
    rcases List.prefix_or_prefix_of_prefix h h' with h | h <;> revert h <;> decide
  cases w with
  | notAnObject trail index =>
      exact List.isPrefixOf_iff_prefix.2 (prefix_toList_append _ (prefix_toList_append _
        (prefix_toList_append _ (prefix_toList_append _ hopen))))
  | neitherFolderNorRequest place | requestType place =>
      exact List.isPrefixOf_iff_prefix.2
        (prefix_toList_append _ (prefix_toList_append _ hskip))
  | bodyType place | rawType place =>
      exact hother _ (prefix_toList_append _ (prefix_toList_append _ hbody))
  | scriptType place | linesType place =>
      exact hother _ (prefix_toList_append _ (prefix_toList_append _ hscript))

lemma skips_fieldWarnings {place : String} {item : Json} {fields : List Field}
    {w : ReadingWarning} (h : w ∈ fieldWarnings place item fields) : w.skips = false := by
  obtain ⟨field, -, hfield⟩ := List.mem_filterMap.1 h
  cases field <;> cases hfield <;> exact skips_eq _

/-- The one warning that skips a visited item is the one it becomes. -/
lemma skips_warnings (v : Visit) :
    v.warnings.filter ReadingWarning.skips = v.fate.warning?.toList := by
  have hfields : (if v.readsFields then fieldWarnings v.place v.item Field.all else []).filter
      ReadingWarning.skips = [] := by
    split_ifs
    · exact List.filter_eq_nil_iff.2 fun w hw => by simp [skips_fieldWarnings hw]
    · rfl
  rw [Visit.warnings, List.filter_append, hfields, List.nil_append, List.filter_eq_self]
  intro w hw
  rw [Visit.fate] at hw
  split_ifs at hw <;> simp_all [Fate.warning?, skips_eq]

lemma childItems_of_none {item : Json} (h : (item.member "item").items? = none) :
    item.childItems = [] := by
  rw [Json.childItems, h, Option.getD_none]

lemma items?_of_not_object {item : Json} (h : item.isObject = false) :
    (item.member "item").items? = none := by
  cases item <;> first | rfl | cases h

section Leaf

variable {v : Visit} (hobject : ¬ v.item.isObject = false)
  (hitems : (v.item.member "item").items? = none)
include hobject hitems

lemma labels_readLeaf :
    labelsOf (readLeaf v.name v.place v.item).1.toList = v.fate.label?.toList := by
  rw [Visit.fate, if_neg hobject, hitems, readLeaf, readRequest, Json.hasRequest]
  cases v.item.member "request" <;> rfl

/-- The warnings about an object without a list of items. -/
lemma warnings_readLeaf : (readLeaf v.name v.place v.item).2 = v.warnings := by
  have hreads : v.readsFields = !(v.item.member "request").isNull := by
    simp [Visit.readsFields, hitems, hobject]
  rw [Visit.warnings, hreads, Visit.fate, if_neg hobject, hitems, readLeaf]
  by_cases hnull : (v.item.member "request").isNull = true
  · have hrequest : v.item.hasRequest = false := by
      by_contra h
      simp [isNull_of_hasRequest (Bool.not_eq_false _ ▸ h)] at hnull
    simp [hnull, hrequest, Fate.warning?]
  · have hrequest := warnings_readRequest v.name v.place v.item
    simp only [hnull, Bool.not_false, Bool.false_eq_true, if_true, if_false, Option.isSome_none,
      hrequest]
    cases v.item.hasRequest <;> rfl

end Leaf

/-- The labels of what an item is read as: its own, and then those of the items inside it. -/
lemma labels_readItem (v : Visit) :
    labelsOf (readItem v.trail v.index v.item).1.toList =
      v.fate.label?.toList ++
        labelsOf (readItems (placeBelow v.trail v.name) 0 v.item.childItems).1 := by
  rw [readItem_eq]
  by_cases hobject : v.item.isObject = false
  · rw [if_pos hobject, Visit.fate, if_pos hobject,
      childItems_of_none (items?_of_not_object hobject)]
    rfl
  rw [if_neg hobject]
  cases hitems : (v.item.member "item").items? with
  | some items =>
      rw [Visit.fate, if_neg hobject, Json.childItems, hitems]
      exact List.append_nil _
  | none =>
      rw [childItems_of_none hitems]
      exact (labels_readLeaf hobject hitems).trans (List.append_nil _).symm

/-- The warnings from the reading of an item: those about itself, and then those about the items
inside it. -/
lemma warnings_readItem (v : Visit) :
    (readItem v.trail v.index v.item).2 =
      v.warnings ++ (readItems (placeBelow v.trail v.name) 0 v.item.childItems).2 := by
  rw [readItem_eq]
  by_cases hobject : v.item.isObject = false
  · rw [if_pos hobject, Visit.warnings, Visit.readsFields, Visit.fate, if_pos hobject, hobject,
      childItems_of_none (items?_of_not_object hobject)]
    rfl
  rw [if_neg hobject]
  cases hitems : (v.item.member "item").items? with
  | some items =>
      rw [Visit.warnings, Visit.readsFields, Visit.fate, if_neg hobject, Json.childItems,
        hitems, Option.isNone_some, Bool.and_false, Bool.false_and]
      rfl
  | none =>
      rw [childItems_of_none hitems]
      exact (warnings_readLeaf hobject hitems).trans (List.append_nil _).symm

/-! ### The reading of a list of items -/

/-- The nodes of a list of items are those of the visited items, in order. -/
lemma labels_readItems (trail : String) (index : ℕ) (items : List Json) :
    labelsOf (readItems trail index items).1 =
      (visited trail index items).filterMap fun v => v.fate.label? := by
  rw [List.filterMap_eq_flatMap_toList]
  fun_induction visited trail index items with
  | case1 => rfl
  | case2 trail index item items hinside hafter =>
      have hitem := labels_readItem ⟨trail, index, item⟩
      rw [List.flatMap_cons, List.flatMap_append, ← hinside, ← hafter, ← List.append_assoc]
      refine Eq.trans ?_ (congrArg (· ++ _) hitem)
      rw [readItems]
      exact labelsOf_append _ _

/-- The warnings about a list of items are those about the visited items, in order. -/
lemma warnings_readItems (trail : String) (index : ℕ) (items : List Json) :
    (readItems trail index items).2 = (visited trail index items).flatMap Visit.warnings := by
  fun_induction visited trail index items with
  | case1 => rfl
  | case2 trail index item items hinside hafter =>
      have hitem := warnings_readItem ⟨trail, index, item⟩
      rw [List.flatMap_cons, List.flatMap_append, ← hinside, ← hafter, ← List.append_assoc]
      refine Eq.trans ?_ (congrArg (· ++ _) hitem)
      rw [readItems]

/-! ### Every item is accounted for -/

/-- The items of a document are accounted for by the nodes and the warnings of its reading. -/
structure AccountedFor (visits : List Visit) (nodes : List Node)
    (warnings : List ReadingWarning) : Prop where
  count : visits.length = (labelsOf nodes).length + (warnings.filter ReadingWarning.skips).length
  /-- The nodes are those of the items, in document order. -/
  nodes : labelsOf nodes = visits.filterMap fun v => v.fate.label?
  /-- The warnings that begin so are those about the items that become no node. -/
  skipped : warnings.filter ReadingWarning.skips = visits.filterMap fun v => v.fate.warning?
  group_iff : ∀ v ∈ visits, ∀ label, v.fate = .node label →
    ((∃ name, label = .group name) ↔
      v.item.isObject = true ∧ ∃ items, v.item.member "item" = .arr items)
  name : ∀ v ∈ visits, ∀ label, v.fate = .node label → label.name = v.name
  place : ∀ v ∈ visits, ∀ w, v.fate = .skipped w → w.Names v.place

lemma length_fates (visits : List Visit) :
    visits.length = (visits.filterMap fun v => v.fate.label?).length +
      (visits.filterMap fun v => v.fate.warning?).length := by
  induction visits with
  | nil => rfl
  | cons v visits ih =>
      rw [List.filterMap_cons, List.filterMap_cons, List.length_cons, ih]
      cases v.fate <;> simp only [Fate.label?, Fate.warning?, List.length_cons] <;> omega

lemma infix_toList_append (s t u : String) : t.toList <:+: (s ++ t ++ u).toList := by
  rw [String.toList_append, String.toList_append]
  exact ⟨_, _, rfl⟩

/-- The warning that skips an item names its place. -/
lemma names_place {v : Visit} {w : ReadingWarning} (h : v.fate = .skipped w) :
    w.Names v.place := by
  rw [Visit.fate] at h
  split_ifs at h with hobject hitems hrequest hnull
  · obtain rfl := Fate.skipped.inj h
    have hend : "]: not an object".toList = "]".toList ++ ": not an object".toList := by decide
    rw [Visit.place, if_neg (by simp [hobject])]
    refine ⟨"Skipping item ".toList, ": not an object".toList, ?_⟩
    show _ = ("Skipping item " ++ v.trail ++ "[" ++ toString v.index ++
      "]: not an object").toList
    simp only [String.toList_append, hend, List.append_assoc]
  · obtain rfl := Fate.skipped.inj h
    exact infix_toList_append _ _ _
  · obtain rfl := Fate.skipped.inj h
    exact infix_toList_append _ _ _

lemma label_of_fate {v : Visit} {label : Label} (h : v.fate = .node label) :
    v.item.isObject = true ∧ label =
      if (v.item.member "item").items?.isSome then .group v.name else .request v.name := by
  rw [Visit.fate] at h
  split_ifs at h with hobject hitems hrequest hnull
  · exact ⟨by simpa using hobject, by rw [if_pos hitems, ← Fate.node.inj h]⟩
  · exact ⟨by simpa using hobject, by rw [if_neg hitems, ← Fate.node.inj h]⟩

/-- Every item of a document is accounted for exactly once: it is one node, or one warning that it
is skipped, which names its place. A node is a group exactly if its item is an object with a list of
items, it has the name of its item, and nodes stand in document order. -/
theorem items_accounted_for (document : Json) :
    AccountedFor (visits document) (readCollection document).1.children
      (readCollection document).2 := by
  have hnodes : labelsOf (readCollection document).1.children =
      (visits document).filterMap fun v => v.fate.label? := labels_readItems _ _ _
  have hskipped : (readCollection document).2.filter ReadingWarning.skips =
      (visits document).filterMap fun v => v.fate.warning? := by
    have hwarnings : (readCollection document).2 = (visits document).flatMap Visit.warnings :=
      warnings_readItems _ _ _
    rw [hwarnings, List.filter_flatMap, List.filterMap_eq_flatMap_toList]
    simp only [skips_warnings]
  refine ⟨?_, hnodes, hskipped, fun v _ label h => ?_, fun v _ label h => ?_,
    fun v _ w h => names_place h⟩
  · rw [hnodes, hskipped, ← length_fates]
  · obtain ⟨hobject, rfl⟩ := label_of_fate h
    cases v.item.member "item" <;> simp [hobject, Json.items?]
  · obtain ⟨-, rfl⟩ := label_of_fate h
    split_ifs <;> rfl

/-! ### Ignored fields of a request -/

lemma names_of_warning? {place : String} {field : Field} {w : ReadingWarning}
    (h : field.warning? place = some w) : w.Names place := by
  cases field <;> cases h <;> exact infix_toList_append _ _ _

lemma isSome_warning? (place : String) (field : Field) :
    (field.warning? place).isSome = true ↔ field ≠ .events ∧ field ≠ .header := by
  cases field <;> simp [Field.warning?]

/-- The warnings about an item that becomes a request are those about its ignored fields. -/
lemma warnings_of_request {v : Visit} {name : String} (h : v.fate = .node (.request name)) :
    v.warnings = fieldWarnings v.place v.item Field.all := by
  have hreads : v.readsFields = true := by
    rw [Visit.fate] at h
    split_ifs at h with hobject hitems hrequest hnull
    · cases h
    · have hnull := isNull_of_hasRequest hrequest
      simp_all [Visit.readsFields]
  rw [Visit.warnings, hreads, h, if_pos rfl]
  exact List.append_nil _

/-- For an item that becomes a request, the warnings of the document hold one for each of its
ignored fields but events and headers, in order, and each names the place of the item. So the place
is named for an ignored field exactly if not only events or headers are ignored. -/
theorem ignored_fields_reported_iff {document : Json} {v : Visit} (hv : v ∈ visits document)
    {name : String} (h : v.fate = .node (.request name)) :
    v.warnings <:+: (readCollection document).2 ∧
      v.warnings = (Field.all.filter (Field.ignored v.item)).filterMap (Field.warning? v.place) ∧
      (∀ w ∈ v.warnings, w.Names v.place) ∧
      ((∃ w ∈ v.warnings, w.Names v.place) ↔
        ∃ field : Field, field.ignored v.item = true ∧ field ≠ .events ∧ field ≠ .header) := by
  have hwarnings : (readCollection document).2 = (visits document).flatMap Visit.warnings :=
    warnings_readItems _ _ _
  have hstands : v.warnings <:+: (readCollection document).2 := by
    obtain ⟨before, after, hsplit⟩ := List.append_of_mem hv
    rw [hwarnings, hsplit, List.flatMap_append, List.flatMap_cons, ← List.append_assoc]
    exact ⟨_, _, rfl⟩
  have hown := warnings_of_request h
  have hmem : ∀ w, w ∈ v.warnings ↔
      ∃ field : Field, field.ignored v.item = true ∧ field.warning? v.place = some w := by
    intro w
    simp [hown, fieldWarnings, Field.mem_all]
  refine ⟨hstands, hown, fun w hw => ?_, ?_⟩
  · obtain ⟨field, -, hfield⟩ := (hmem w).1 hw
    exact names_of_warning? hfield
  · constructor
    · rintro ⟨w, hw, -⟩
      obtain ⟨field, hignored, hfield⟩ := (hmem w).1 hw
      exact ⟨field, hignored, (isSome_warning? v.place field).1 (by rw [hfield]; rfl)⟩
    · rintro ⟨field, hignored, hsaid⟩
      obtain ⟨w, hw⟩ := Option.isSome_iff_exists.1 ((isSome_warning? v.place field).2 hsaid)
      exact ⟨w, (hmem w).2 ⟨field, hignored, hw⟩, names_of_warning? hw⟩

/-- A request whose headers and whose body are texts. -/
def looseItem : Json :=
  .obj [("name", .str "Create"),
    ("request", .obj [("header", .str "Accept: */*"), ("body", .str "name=pen")])]

/-- A document with one group, which holds that request. -/
def looseDocument : Json :=
  .obj [("info", .obj [("name", .str "API"), ("schema", .str "v2")]),
    ("item", .arr [.obj [("name", .str "Users"), ("item", .arr [looseItem])]])]

/-- The ignored body of the request inside the group is reported. -/
theorem loose_body_reported :
    ∃ w ∈ (readCollection looseDocument).2, w.Names "Users/Create" := by
  have hv : ⟨"Users", 0, looseItem⟩ ∈ visits looseDocument := by
    rw [visits, looseDocument, show Json.childItems (.obj _) = [_] from rfl, visited, visited]
    refine List.mem_cons_of_mem _ ?_
    rw [List.append_nil, show Json.childItems (.obj _) = [looseItem] from rfl, visited]
    exact List.mem_cons_self
  have hplace : Visit.place ⟨"Users", 0, looseItem⟩ = "Users/Create" := by decide
  obtain ⟨hstands, -, -, hiff⟩ :=
    ignored_fields_reported_iff hv (show Visit.fate _ = .node (.request "Create") by decide)
  obtain ⟨w, hw, hnames⟩ := hiff.2 ⟨.body, by decide⟩
  exact ⟨w, hstands.subset hw, hplace ▸ hnames⟩

/-- A document with one request, whose headers are a text. -/
def headerDocument : Json :=
  .obj [("info", .obj [("name", .str "API"), ("schema", .str "v2")]),
    ("item", .arr [.obj [("name", .str "Plain"),
      ("request", .obj [("method", .str "GET"), ("url", .str "/a"),
        ("header", .str "Accept: */*")])]])]

/-- Headers of the wrong type are dropped in silence: the document passes its check, its item
becomes a request, and nothing at all is said. -/
theorem header_dropped_in_silence :
    (checkCollection headerDocument).ok = true ∧
      (∃ v ∈ visits headerDocument, v.fate = .node (.request "Plain") ∧
        Field.header.ignored v.item = true) ∧
      (readCollection headerDocument).2 = [] := by
  refine ⟨by decide, ?_, rfl⟩
  rw [visits, headerDocument, show Json.childItems (.obj _) = [_] from rfl, visited]
  exact ⟨_, List.mem_cons_self, by decide, by decide⟩

end RequestSuite
