/-
URLs that a document gives in parts.

* `Parameter`, `UrlPieces`: a parameter of a query, and the parts of a URL;
* `UrlPieces.DescribedBy`: how a document holds them; `UrlPieces.Sound`: what their characters are;
* `UrlPieces.host`, `UrlPieces.path`, `UrlPieces.query`: what the parts amount to;
* `toList_urlText`: the text that is put together from them;
* `isOrigin_pieces`, `isTail_pieces`: scheme and host are an origin, and path and query may follow;
* `rebuilt_url_splits`: the text is taken apart into the same parts, and its request path is path
  and query; `disabled_parameter_left_out`: at a URL with all kinds of parameters.
-/
import RequestSuite.Proofs.PathText
import RequestSuite.Proofs.Recombination

namespace RequestSuite

open Url
open Text (isBlank trim)

/-! ### The parts of a URL -/

/-- A parameter of a query. -/
structure Parameter where
  key : String
  value : Option String
  disabled : Bool

/-- How an entry of a document holds a parameter. A parameter without a value may say so. -/
structure Parameter.DescribedBy (p : Parameter) (entry : Json) : Prop where
  object : entry.isObject = true
  key : entry.member "key" = .str p.key
  value : entry.member "value" = (p.value.map Json.str).getD .null
  disabled : (entry.member "disabled").isOn = p.disabled

/-- A parameter in a query. -/
def Parameter.text (p : Parameter) : List Char := p.key.toList ++ '=' :: (p.value.getD "").toList

/-- Whether a parameter belongs to the query: it has a key and is not disabled. -/
def Parameter.counts (p : Parameter) : Bool := p.key != "" && !p.disabled

/-- The parts of a URL. -/
structure UrlPieces where
  protocol : String
  labels : List String
  segments : List String
  parameters : List Parameter

namespace UrlPieces

variable {u : UrlPieces} {url : Json}

/-- How an object of a document holds the parts of a URL. No raw text stands beside them. -/
structure DescribedBy (u : UrlPieces) (url : Json) : Prop where
  object : url.isObject = true
  raw : (url.member "raw").truthy = false
  protocol : url.member "protocol" = .str u.protocol
  host : url.member "host" = .arr (u.labels.map .str)
  path : url.member "path" = .arr (u.segments.map .str)
  query : ∃ entries, url.member "query" = .arr entries ∧
    List.Forall₂ Parameter.DescribedBy u.parameters entries

/-- What the parts of a URL consist of: the protocol is a scheme, there is at least one label,
labels are not empty and have letters, digits and hyphens only, and no other part holds white space
or a mark that ends it. -/
structure Sound (u : UrlPieces) : Prop where
  scheme : IsScheme u.protocol.toList
  named : u.labels ≠ []
  labels : ∀ label ∈ u.labels,
    label ≠ "" ∧ ∀ c ∈ label.toList, c.isAlphanum = true ∨ c = '-'
  segments : ∀ segment ∈ u.segments,
    ∀ c ∈ segment.toList, c ≠ '?' ∧ c ≠ '#' ∧ isBlank c = false
  parameters : ∀ p ∈ u.parameters, ∀ c ∈ p.text, c ≠ '#' ∧ isBlank c = false

/-- The labels with points between them. -/
def host (u : UrlPieces) : List Char := List.intercalate ['.'] (u.labels.map String.toList)

/-- The segments with a slash before each, unless nothing but one empty segment is there. -/
def path (u : UrlPieces) : List Char :=
  let joined := List.intercalate ['/'] (u.segments.map String.toList)
  if joined.isEmpty then [] else '/' :: joined

/-- The parameters that count, with `&` between them. -/
def query (u : UrlPieces) : List Char :=
  List.intercalate ['&'] ((u.parameters.filter Parameter.counts).map Parameter.text)

/-! ### The text of a URL -/

lemma toList_joinTexts (sep : Char) (texts : List String) :
    (joinTexts (String.singleton sep) (texts.map .str)).toList =
      List.intercalate [sep] (texts.map String.toList) := by
  rw [joinTexts, String.toList_intercalate, String.toList_singleton, List.map_map, List.map_map]
  rfl

/-- An entry is written if its parameter counts, and then as that parameter. -/
lemma queryPair?_of_describedBy {p : Parameter} {entry : Json} (h : p.DescribedBy entry) :
    (queryPair? entry).map String.toList = if p.counts then some p.text else none := by
  have hvalue : (entry.member "value").text = p.value.getD "" := by
    rw [h.value]
    cases p.value <;> rfl
  rw [queryPair?, h.object, h.key, h.disabled, hvalue]
  by_cases hcounts : p.counts = true
  · have hkept : ((true && (Json.str p.key).truthy) && !p.disabled) = true := hcounts
    rw [if_pos hkept, if_pos hcounts, Option.map_some, String.toList_append, String.toList_append,
      Parameter.text, List.append_assoc]
    rfl
  · have hleft : ¬ ((true && (Json.str p.key).truthy) && !p.disabled) = true := hcounts
    rw [if_neg hleft, if_neg hcounts, Option.map_none]

/-- The query of a URL holds the parameters that count. -/
lemma toList_queryText {parameters : List Parameter} {entries : List Json}
    (h : List.Forall₂ Parameter.DescribedBy parameters entries) :
    (queryText (.arr entries)).toList =
      List.intercalate ['&'] ((parameters.filter Parameter.counts).map Parameter.text) := by
  have hpairs : (entries.filterMap queryPair?).map String.toList =
      (parameters.filter Parameter.counts).map Parameter.text := by
    induction h with
    | nil => rfl
    | @cons p entry parameters entries hentry others ih =>
        have hpair := queryPair?_of_describedBy hentry
        by_cases hcounts : p.counts = true
        · rw [if_pos hcounts] at hpair
          obtain ⟨text, htext, hp⟩ := Option.map_eq_some_iff.mp hpair
          rw [List.filterMap_cons_some htext, List.filter_cons_of_pos hcounts, List.map_cons,
            List.map_cons, ih, hp]
        · rw [if_neg hcounts, Option.map_eq_none_iff] at hpair
          rw [List.filterMap_cons_none hpair, List.filter_cons_of_neg hcounts, ih]
  rw [queryText, String.toList_intercalate]
  exact congrArg _ hpairs

/-- **The text of a URL in parts** is scheme and host, with path and query behind them. -/
lemma toList_urlText (hsound : u.Sound) (h : u.DescribedBy url) :
    (urlText url).toList = originText u.protocol.toList u.host ++ tailText u.path u.query := by
  obtain ⟨entries, hentries, hparameters⟩ := h.query
  have hprotocol : (Json.str u.protocol).truthy = true := by
    refine bne_iff_ne.mpr fun hempty => ?_
    exact absurd (hempty ▸ hsound.scheme.head) (by decide)
  have hempty : ∀ s : String, s = "" ↔ s.toList.isEmpty = true := fun s => by simp
  have hhost : (joinTexts "." (u.labels.map .str)).toList = u.host := toList_joinTexts '.' u.labels
  have hpath : (joinTexts "/" (u.segments.map .str)).toList =
      List.intercalate ['/'] (u.segments.map String.toList) := toList_joinTexts '/' u.segments
  have hquery : (queryText (.arr entries)).toList = u.query := toList_queryText hparameters
  rw [urlText, if_pos h.object, h.raw, if_neg Bool.false_ne_true, partsText, h.protocol, h.host,
    h.path, hentries, if_pos hprotocol]
  simp only [hostText, pathText, hempty, hpath, hquery, tailText, path]
  have horigin : ((Json.str u.protocol).text ++ "://" ++ joinTexts "." (u.labels.map .str)).toList =
      originText u.protocol.toList u.host := by
    rw [String.toList_append, String.toList_append, hhost]
    rfl
  split_ifs <;> simp only [String.toList_append, horigin, hpath, hquery] <;> simp

/-! ### What the parts are read as -/

lemma isSchemeChar_of_label {c : Char} (h : c.isAlphanum = true ∨ c = '-') :
    isSchemeChar c = true := by
  rcases h with h | rfl
  · simp [isSchemeChar, h]
  · decide

set_option maxRecDepth 4000 in
/-- A character of labels, or the point between them, belongs to hosts. -/
lemma label_spec {c : Char} (h : isSchemeChar c = true) :
    endsAuthority c = false ∧ isBlank c = false ∧ delimiterLookalikes.contains c.toNat = false ∧
      c ≠ '[' ∧ c ≠ ']' ∧ c ≠ '\x7b' ∧ c ≠ '\x7d' := by
  have hlt := toNat_lt_of_isSchemeChar h
  revert h
  exact ascii_forall (p := fun c => isSchemeChar c = true → endsAuthority c = false ∧
    isBlank c = false ∧ delimiterLookalikes.contains c.toNat = false ∧
      c ≠ '[' ∧ c ≠ ']' ∧ c ≠ '\x7b' ∧ c ≠ '\x7d') (by decide) hlt

lemma isIgnored_of_not_blank {c : Char} (h : isBlank c = false) : isIgnored c = false := by
  by_contra hignored
  have hc : c = '\t' ∨ c = '\r' ∨ c = '\n' := by
    simpa [isIgnored, or_iff_not_imp_left] using hignored
  rcases hc with rfl | rfl | rfl <;> exact absurd h (by decide)

lemma isSchemeChar_of_mem_host (hsound : u.Sound) {c : Char} (hc : c ∈ u.host) :
    isSchemeChar c = true := by
  rcases Layout.mem_intercalate hc with rfl | ⟨label, hlabel, hc⟩
  · decide
  · obtain ⟨text, htext, rfl⟩ := List.mem_map.mp hlabel
    exact isSchemeChar_of_label ((hsound.labels text htext).2 c hc)

/-- A host is not empty. -/
lemma host_ne_nil (hsound : u.Sound) : u.host ≠ [] := by
  obtain ⟨label, labels, hlabels⟩ := List.exists_cons_of_ne_nil hsound.named
  have hne : label.toList ≠ [] := by
    have hlabel := (hsound.labels label (by rw [hlabels]; exact List.mem_cons_self)).1
    simpa using hlabel
  rw [host, hlabels, List.map_cons]
  cases labels with
  | nil => simpa using hne
  | cons second labels => simp [List.intercalate_cons_cons]

/-- **Scheme and host are an origin.** -/
lemma isOrigin_pieces (hsound : u.Sound) :
    IsOrigin (u.protocol.toList.map Char.toLower) u.host := by
  have hspec := fun c (hc : c ∈ u.host) => label_spec (isSchemeChar_of_mem_host hsound hc)
  have hopening : '[' ∉ u.host := fun hmem => (hspec _ hmem).2.2.2.1 rfl
  have hclosing : ']' ∉ u.host := fun hmem => (hspec _ hmem).2.2.2.2.1 rfl
  refine ⟨hsound.scheme.toLower.head, hsound.scheme.toLower.chars, hsound.scheme.map_toLower,
    host_ne_nil hsound, fun c hc => ⟨(hspec c hc).1, isIgnored_of_not_blank (hspec c hc).2.1⟩, ?_,
    ?_⟩
  · simp [bracketsFit, hopening, hclosing]
  · rw [normalisesSafely, List.all_eq_true]
    intro c hc
    rw [(hspec c hc).2.2.1]
    rfl

/-- What holds of path and query: no white space, and no mark that ends them. -/
lemma path_chars (hsound : u.Sound) {c : Char} (hc : c ∈ u.path) :
    c ≠ '?' ∧ c ≠ '#' ∧ isBlank c = false := by
  rw [path] at hc
  split_ifs at hc
  · simp at hc
  · rcases List.mem_cons.mp hc with rfl | hc
    · decide
    · rcases Layout.mem_intercalate hc with rfl | ⟨segment, hsegment, hc⟩
      · decide
      · obtain ⟨text, htext, rfl⟩ := List.mem_map.mp hsegment
        exact hsound.segments text htext c hc

lemma query_chars (hsound : u.Sound) {c : Char} (hc : c ∈ u.query) :
    c ≠ '#' ∧ isBlank c = false := by
  rcases Layout.mem_intercalate hc with rfl | ⟨text, htext, hc⟩
  · decide
  · obtain ⟨p, hp, rfl⟩ := List.mem_map.mp htext
    exact hsound.parameters p (List.mem_filter.mp hp).1 c hc

/-- **Path and query may follow an origin.** -/
lemma isTail_pieces (hsound : u.Sound) : IsTail u.path u.query := by
  refine ⟨?_, fun c hc => ?_, fun c hc => ?_⟩
  · rw [path]
    split_ifs <;> simp
  · obtain ⟨h₁, h₂, h₃⟩ := path_chars hsound hc
    exact ⟨h₁, h₂, isIgnored_of_not_blank h₃⟩
  · obtain ⟨h₁, h₂⟩ := query_chars hsound hc
    exact ⟨h₁, isIgnored_of_not_blank h₂⟩

/-! ### The text taken apart -/

/-- The text is taken apart into the parts. -/
lemma split?_pieces (hsound : u.Sound) :
    split? (originText u.protocol.toList u.host ++ tailText u.path u.query) =
      some ⟨u.protocol.toList.map Char.toLower, u.host, u.path, u.query, []⟩ := by
  have htail := isTail_pieces hsound
  have hhead : ∀ c ∈ (tailText u.path u.query).head?, c = '/' ∨ c = '?' := by
    have hstart := htail.start
    cases hpath : u.path with
    | nil =>
        rw [tailText]
        split_ifs <;> simp
    | cons c cs =>
        rw [hpath] at hstart
        obtain rfl := hstart c rfl
        rw [tailText]
        split_ifs <;> simp
  rw [split?_written_append hsound.scheme (isOrigin_pieces hsound) hhead, htail.filter_tailText,
    partsAfter_tailText htail]

/-- No white space is in the text, so none is trimmed. -/
lemma trim_pieces (hsound : u.Sound) :
    trim (originText u.protocol.toList u.host ++ tailText u.path u.query) =
      originText u.protocol.toList u.host ++ tailText u.path u.query := by
  set text := originText u.protocol.toList u.host ++ tailText u.path u.query with htext
  have hall : ∀ c ∈ text, isBlank c = false := by
    intro c hc
    simp only [htext, originText, tailText, List.mem_append] at hc
    rcases hc with ((hc | hc) | hc) | hc
    · exact (label_spec (hsound.scheme.chars c hc)).2.1
    · revert c
      decide
    · exact (label_spec (isSchemeChar_of_mem_host hsound hc)).2.1
    · split_ifs at hc
      · exact (path_chars hsound hc).2.2
      · rcases List.mem_append.mp hc with hc | hc
        · exact (path_chars hsound hc).2.2
        · rcases List.mem_cons.mp hc with rfl | hc
          · decide
          · exact (query_chars hsound hc).2
  have hkept : ∀ cs : List Char, (∀ c ∈ cs, isBlank c = false) → cs.dropWhile isBlank = cs := by
    intro cs hcs
    cases cs with
    | nil => rfl
    | cons c cs => rw [List.dropWhile_cons_of_neg (by simp [hcs c List.mem_cons_self])]
  rw [trim, Text.trimStart, hkept _ hall, Text.trimEnd, Text.dropEndWhile,
    hkept _ fun c hc => hall c (List.mem_reverse.mp hc), List.reverse_reverse]

/-- A character that is not there does not stand twice in a row. -/
lemma hasDouble_of_notMem {d : Char} {cs : List Char} (h : d ∉ cs) : hasDouble d cs = false := by
  induction cs with
  | nil => rfl
  | cons c cs ih =>
      obtain ⟨hc, hcs⟩ := not_or.mp (mt List.mem_cons.mpr h)
      cases cs with
      | nil => rfl
      | cons c' cs => rw [hasDouble, ih hcs, beq_false_of_ne (Ne.symm hc)]; rfl

/-- The parts name a host. -/
lemma splitAbsolute?_pieces (hsound : u.Sound) :
    splitAbsolute? (originText u.protocol.toList u.host ++ tailText u.path u.query) =
      some ⟨u.protocol.toList.map Char.toLower, u.host, u.path, u.query, []⟩ := by
  have hspec := fun c (hc : c ∈ u.host) => label_spec (isSchemeChar_of_mem_host hsound hc)
  have hopening : hasDouble '\x7b' u.host = false :=
    hasDouble_of_notMem fun hmem => (hspec _ hmem).2.2.2.2.2.1 rfl
  have hclosing : hasDouble '\x7d' u.host = false :=
    hasDouble_of_notMem fun hmem => (hspec _ hmem).2.2.2.2.2.2 rfl
  have hscheme : (u.protocol.toList.map Char.toLower).isEmpty = false := by
    cases hp : u.protocol.toList with
    | nil => exact absurd (hp ▸ hsound.scheme.head) (by decide)
    | cons c cs => rfl
  have hhost : u.host.isEmpty = false := by simpa using host_ne_nil hsound
  rw [splitAbsolute?, trim_pieces hsound, split?_pieces hsound]
  simp only [hscheme, hhost, hopening, hclosing, Bool.or_self, Bool.false_eq_true, if_false]

/-- **A URL given in parts is taken apart into the same parts**: its scheme is the protocol in lower
case, its host the labels with points between them, its path the segments with slashes between them
behind a slash, or nothing if there is nothing between them, its query the parameters that have a
key and are not disabled, and there is no fragment. The path of its request is this path, or `/`,
with the query behind a question mark if there is one. -/
theorem rebuilt_url_splits (hsound : u.Sound) (h : u.DescribedBy url) :
    split? (urlText url).toList =
      some ⟨u.protocol.toList.map Char.toLower, u.host, u.path, u.query, []⟩ ∧
    requestPath (urlText url).toList = tailText (pathOrRoot u.path) u.query := by
  rw [toList_urlText hsound h]
  exact ⟨split?_pieces hsound, requestPath_of_splitAbsolute? (splitAbsolute?_pieces hsound)⟩

/-- A URL in capitals, with empty segments, marks inside its query, a parameter without a value, one
without a key and two that are disabled. -/
def crowdedPieces : UrlPieces where
  protocol := "HTTPS"
  labels := ["api-2", "Example", "com"]
  segments := ["", "v1", "users", ""]
  parameters := [⟨"next", some "//x:1/?a&b=c", false⟩, ⟨"old", some "1", true⟩,
    ⟨"", some "2", false⟩, ⟨"all", none, false⟩, ⟨"off", none, true⟩]

/-- The URL in a document. -/
def crowdedUrl : Json :=
  .obj [("protocol", .str "HTTPS"), ("host", .arr [.str "api-2", .str "Example", .str "com"]),
    ("path", .arr [.str "", .str "v1", .str "users", .str ""]),
    ("query", .arr [.obj [("key", .str "next"), ("value", .str "//x:1/?a&b=c")],
      .obj [("key", .str "old"), ("value", .str "1"), ("disabled", .bool true)],
      .obj [("key", .str ""), ("value", .str "2")],
      .obj [("key", .str "all"), ("value", .null), ("disabled", .bool false)],
      .obj [("key", .str "off"), ("disabled", .str "True")]])]

theorem disabled_parameter_left_out :
    crowdedPieces.Sound ∧ crowdedPieces.DescribedBy crowdedUrl ∧
      split? (urlText crowdedUrl).toList =
        some ⟨"https".toList, "api-2.Example.com".toList, "//v1/users/".toList,
          "next=//x:1/?a&b=c&all=".toList, []⟩ ∧
      requestPath (urlText crowdedUrl).toList = "//v1/users/?next=//x:1/?a&b=c&all=".toList := by
  have hsound : crowdedPieces.Sound := by
    refine ⟨⟨by decide, by decide⟩, by decide, by decide, by decide, ?_⟩
    decide
  have hurl : crowdedPieces.DescribedBy crowdedUrl := by
    refine ⟨rfl, rfl, rfl, rfl, rfl, _, rfl, ?_⟩
    repeat' constructor
  have hparts := rebuilt_url_splits hsound hurl
  exact ⟨hsound, hurl, hparts⟩

end UrlPieces

end RequestSuite
