/-
URLs put together from a base URL and the path of a request.

* `breakAt?_append`, `getD_breakAt?`: the first occurrence of a character;
* `isSchemeChar_spec`: the characters of schemes; `IsScheme`: a scheme as it is written;
* `IsOrigin`, `originText`: scheme and authority of a URL that names a host, and their text;
* `split?_written_append`, `split?_originText_append`: a URL is taken apart behind its authority as
  its rest is;
* `partsAfter`, `IsTail`, `tailText`: what may follow an authority, taken apart and written again;
* `isOrigin_of_splitAbsolute?`: a URL that names a host is an origin and what may follow it;
* `requestPath_spec`: a request path starts with a slash and has no fragment;
* `isOrigin_baseUrlOf`: a base URL is scheme and authority;
* `request_path_recombines`: base URL and request path are the URL of the request without its
  fragment, and no request path leaves the host of a base URL; `pathless_url_recombines`: at a URL
  without a path.
-/
import Mathlib.Data.List.TakeWhile
import Mathlib.Tactic
import RequestSuite.Build.Outline
import RequestSuite.Url.RequestPath

namespace RequestSuite.Url

open Text (breakAt? trim)

variable {scheme authority rest path query : List Char} {url : List Char} {parts : UrlParts}

/-! ### The first occurrence of a character -/

/-- A text is broken at the first occurrence of a character. -/
lemma breakAt?_append {sep : Char} {before : List Char} (h : sep ∉ before) (after : List Char) :
    breakAt? sep (before ++ sep :: after) = some (before, after) := by
  induction before with
  | nil => simp [breakAt?]
  | cons c cs ih =>
      rw [List.mem_cons, not_or] at h
      rw [List.cons_append, breakAt?, if_neg (Ne.symm h.1), ih h.2]
      rfl

/-- The parts before and after the first occurrence of a character, or the whole text and
nothing. -/
lemma getD_breakAt? (sep : Char) (cs : List Char) :
    (breakAt? sep cs).getD (cs, []) =
      (cs.takeWhile (· != sep), (cs.dropWhile (· != sep)).drop 1) := by
  induction cs with
  | nil => rfl
  | cons c cs ih =>
      by_cases hc : c = sep
      · simp [breakAt?, hc]
      · have hne : (c != sep) = true := bne_iff_ne.mpr hc
        rw [breakAt?, if_neg hc, List.takeWhile_cons, List.dropWhile_cons, if_pos hne, if_pos hne]
        cases hbreak : breakAt? sep cs with
        | none =>
            rw [hbreak, Option.getD_none, Prod.mk.injEq] at ih
            rw [Option.map_none, Option.getD_none, ← ih.1, ← ih.2]
        | some halves =>
            rw [hbreak, Option.getD_some] at ih
            rw [Option.map_some, Option.getD_some, ih]

/-! ### Characters of schemes -/

lemma ascii_forall {p : Char → Prop} (h : ∀ n : Fin 128, p (Char.ofNat n)) {c : Char}
    (hc : c.toNat < 128) : p c := by
  have hp := h ⟨c.toNat, hc⟩
  rwa [Char.ofNat_toNat] at hp

lemma toNat_lt_of_isSchemeChar {c : Char} (h : isSchemeChar c = true) : c.toNat < 128 := by
  have hranges : isSchemeChar c =
      ((decide (c.val ≥ 65 ∧ c.val ≤ 90) || (c.val ≥ 97 && c.val ≤ 122) ||
        (c.val ≥ 48 && c.val ≤ 57)) || c == '+' || c == '-' || c == '.') := rfl
  simp only [hranges, Bool.or_eq_true, Bool.and_eq_true, decide_eq_true_eq, beq_iff_eq,
    UInt32.le_iff_toNat_le] at h
  rcases h with ((((h | h) | h) | rfl) | rfl) | rfl
  · exact lt_of_le_of_lt h.2 (by decide)
  · exact lt_of_le_of_lt h.2 (by decide)
  · exact lt_of_le_of_lt h.2 (by decide)
  · decide
  · decide
  · decide

set_option maxRecDepth 4000 in
/-- A character of a scheme counts in a URL, is no colon, and is one in lower case too. -/
lemma isSchemeChar_spec {c : Char} (h : isSchemeChar c = true) :
    isIgnored c = false ∧ c ≠ ':' ∧ isSchemeChar c.toLower = true ∧
      c.toLower.toLower = c.toLower ∧
      (c.isAlpha = true → isLeadingJunk c = false ∧ c.toLower.isAlpha = true) := by
  have hlt := toNat_lt_of_isSchemeChar h
  revert h
  exact ascii_forall (p := fun c => isSchemeChar c = true → isIgnored c = false ∧ c ≠ ':' ∧
    isSchemeChar c.toLower = true ∧ c.toLower.toLower = c.toLower ∧
      (c.isAlpha = true → isLeadingJunk c = false ∧ c.toLower.isAlpha = true))
    (by decide) hlt

/-- A scheme as it is written: a letter, and characters of schemes after it. -/
structure IsScheme (written : List Char) : Prop where
  head : (written.head?.map Char.isAlpha).getD false = true
  chars : ∀ c ∈ written, isSchemeChar c = true

/-- A scheme is one in lower case too. -/
lemma IsScheme.toLower {written : List Char} (h : IsScheme written) :
    IsScheme (written.map Char.toLower) := by
  refine ⟨?_, fun c hc => ?_⟩
  · cases written with
    | nil => exact absurd h.head (by decide)
    | cons c cs => exact ((isSchemeChar_spec (h.chars c List.mem_cons_self)).2.2.2.2 h.head).2
  · obtain ⟨d, hd, rfl⟩ := List.mem_map.mp hc
    exact (isSchemeChar_spec (h.chars d hd)).2.2.1

lemma IsScheme.map_toLower {written : List Char} (h : IsScheme written) :
    (written.map Char.toLower).map Char.toLower = written.map Char.toLower := by
  rw [List.map_map]
  exact List.map_congr_left fun c hc => (isSchemeChar_spec (h.chars c hc)).2.2.2.1

/-! ### Origins -/

/-- Scheme and authority of a URL that names a host. -/
structure IsOrigin (scheme authority : List Char) : Prop where
  head : (scheme.head?.map Char.isAlpha).getD false = true
  chars : ∀ c ∈ scheme, isSchemeChar c = true
  lower : scheme.map Char.toLower = scheme
  named : authority ≠ []
  inside : ∀ c ∈ authority, endsAuthority c = false ∧ isIgnored c = false
  fits : bracketsFit authority = true
  safe : normalisesSafely authority = true

/-- The text of a scheme and an authority. -/
def originText (scheme authority : List Char) : List Char := scheme ++ "://".toList ++ authority

/-- Path, query and fragment of what follows an authority. -/
def partsAfter (rest : List Char) : UrlParts :=
  let (rest, fragment) := (breakAt? '#' rest).getD (rest, [])
  let (path, query) := (breakAt? '?' rest).getD (rest, [])
  { path, query, fragment }

/-- The characters of a URL that count. -/
def significant (url : List Char) : List Char :=
  (url.dropWhile isLeadingJunk).filter fun c => !isIgnored c

/-- A URL is taken apart from left to right. -/
lemma split?_eq (url : List Char) :
    split? url =
      if bracketsFit (takeAuthority (takeScheme (significant url)).2).1 ∧
          normalisesSafely (takeAuthority (takeScheme (significant url)).2).1 then
        some { partsAfter (takeAuthority (takeScheme (significant url)).2).2 with
          scheme := (takeScheme (significant url)).1
          authority := (takeAuthority (takeScheme (significant url)).2).1 }
      else none := by
  simp only [split?, significant, Bool.and_eq_true]
  rfl

lemma takeScheme_append {written : List Char} (h : IsScheme written) (rest : List Char) :
    takeScheme (written ++ ':' :: rest) = (written.map Char.toLower, rest) := by
  have hcolon : ':' ∉ written := fun hmem => (isSchemeChar_spec (h.chars _ hmem)).2.1 rfl
  have hall : written.all isSchemeChar = true := List.all_eq_true.mpr h.chars
  rw [takeScheme, breakAt?_append hcolon]
  simp only [h.head, hall, Bool.and_self, if_true]

/-- An authority and a path after it. -/
lemma takeAuthority_of_inside (h : ∀ c ∈ authority, endsAuthority c = false)
    (hrest : ∀ c ∈ rest.head?, endsAuthority c = true) :
    takeAuthority ('/' :: '/' :: (authority ++ rest)) = (authority, rest) := by
  have hall : ∀ c ∈ authority, (!endsAuthority c) = true := fun c hc => by rw [h c hc]; rfl
  rw [takeAuthority, List.takeWhile_append_of_pos hall, List.dropWhile_append_of_pos hall]
  cases rest with
  | nil => simp
  | cons c cs => simp [hrest c rfl]

/-- All of a scheme and an authority counts. -/
lemma significant_originText_append (h : IsScheme scheme)
    (hinside : ∀ c ∈ authority, isIgnored c = false) (rest : List Char) :
    significant (originText scheme authority ++ rest) =
      originText scheme authority ++ rest.filter fun c => !isIgnored c := by
  have hscheme : ∀ c ∈ scheme, (!isIgnored c) = true := fun c hc => by
    rw [(isSchemeChar_spec (h.chars c hc)).1]; rfl
  have hauthority : ∀ c ∈ authority, (!isIgnored c) = true := fun c hc => by
    rw [hinside c hc]; rfl
  have hslashes : "://".toList.filter (fun c => !isIgnored c) = "://".toList := by decide
  obtain ⟨c, cs, rfl⟩ : ∃ c cs, scheme = c :: cs := by
    cases scheme with
    | nil => exact absurd h.head (by decide)
    | cons c cs => exact ⟨c, cs, rfl⟩
  have hjunk : isLeadingJunk c = false :=
    ((isSchemeChar_spec (h.chars c List.mem_cons_self)).2.2.2.2 h.head).1
  have hstart : (originText (c :: cs) authority ++ rest).dropWhile isLeadingJunk =
      originText (c :: cs) authority ++ rest :=
    List.dropWhile_cons_of_neg (by simp [hjunk])
  rw [significant, hstart, originText, List.filter_append, List.filter_append, List.filter_append,
    hslashes, List.filter_eq_self.mpr hscheme, List.filter_eq_self.mpr hauthority]

/-- **A URL is taken apart behind its authority as its rest is**, if a path or a query follows the
authority, and however its scheme is written. -/
lemma split?_written_append {written : List Char} (hwritten : IsScheme written)
    (h : IsOrigin (written.map Char.toLower) authority)
    (hrest : ∀ c ∈ rest.head?, c = '/' ∨ c = '?') :
    split? (originText written authority ++ rest) =
      some { partsAfter (rest.filter fun c => !isIgnored c) with
        scheme := written.map Char.toLower, authority } := by
  have hhead : ∀ c ∈ (rest.filter fun c => !isIgnored c).head?, endsAuthority c = true := by
    cases rest with
    | nil => simp
    | cons c cs =>
        intro d hd
        rcases hrest c rfl with rfl | rfl
        all_goals
          obtain rfl := Option.some.inj hd
          rfl
  have hslashes : originText written authority ++ rest.filter (fun c => !isIgnored c) =
      written ++ ':' :: '/' :: '/' :: (authority ++ rest.filter fun c => !isIgnored c) := by
    simp [originText]
  have hauthority := takeAuthority_of_inside (fun c hc => (h.inside c hc).1) hhead
  rw [split?_eq, significant_originText_append hwritten fun c hc => (h.inside c hc).2, hslashes,
    takeScheme_append hwritten, hauthority, if_pos ⟨h.fits, h.safe⟩]

lemma split?_originText_append (h : IsOrigin scheme authority)
    (hrest : ∀ c ∈ rest.head?, c = '/') :
    split? (originText scheme authority ++ rest) =
      some { partsAfter (rest.filter fun c => !isIgnored c) with scheme, authority } := by
  have hlower := h.lower
  have hsplit := split?_written_append ⟨h.head, h.chars⟩ (by rwa [hlower])
    fun c hc => Or.inl (hrest c hc)
  rwa [hlower] at hsplit

/-! ### What follows an authority -/

/-- A path and a query that may follow an authority. -/
structure IsTail (path query : List Char) : Prop where
  start : ∀ c ∈ path.head?, c = '/'
  path_chars : ∀ c ∈ path, c ≠ '?' ∧ c ≠ '#' ∧ isIgnored c = false
  query_chars : ∀ c ∈ query, c ≠ '#' ∧ isIgnored c = false

/-- A path, and a query behind it if there is one. -/
def tailText (path query : List Char) : List Char :=
  if query.isEmpty then path else path ++ '?' :: query

lemma takeWhile_bne {sep : Char} {cs : List Char} (h : sep ∉ cs) :
    cs.takeWhile (· != sep) = cs ∧ cs.dropWhile (· != sep) = [] := by
  have hall : ∀ c ∈ cs, (c != sep) = true := fun c hc => bne_iff_ne.mpr fun heq => h (heq ▸ hc)
  exact ⟨List.takeWhile_eq_self_iff.mpr hall, List.dropWhile_eq_nil_iff.mpr hall⟩

/-- A path and a query are found again where they are written. -/
lemma partsAfter_tailText (h : IsTail path query) :
    partsAfter (tailText path query) = { path, query } := by
  have hquestion : '?' ∉ path := fun hmem => (h.path_chars _ hmem).1 rfl
  have hnumber : '#' ∉ tailText path query := by
    have hpath : '#' ∉ path := fun hmem => (h.path_chars _ hmem).2.1 rfl
    have hquery : '#' ∉ query := fun hmem => (h.query_chars _ hmem).1 rfl
    rw [tailText]
    split_ifs
    · exact hpath
    · simp [hpath, hquery]
  have hhalves : (breakAt? '?' (tailText path query)).getD (tailText path query, []) =
      (path, query) := by
    rw [tailText]
    cases query with
    | nil =>
        rw [if_pos List.isEmpty_nil, getD_breakAt?, (takeWhile_bne hquestion).1,
          (takeWhile_bne hquestion).2, List.drop_nil]
    | cons c cs =>
        rw [if_neg (by simp), breakAt?_append hquestion, Option.getD_some]
  simp only [partsAfter, getD_breakAt? '#', (takeWhile_bne hnumber).1, (takeWhile_bne hnumber).2,
    hhalves, List.drop_nil]

/-- All of a path and a query counts. -/
lemma IsTail.filter_tailText (h : IsTail path query) :
    (tailText path query).filter (fun c => !isIgnored c) = tailText path query := by
  refine List.filter_eq_self.mpr fun c hc => ?_
  have hkept : isIgnored c = false := by
    rw [tailText] at hc
    split_ifs at hc
    · exact (h.path_chars c hc).2.2
    · rcases List.mem_append.mp hc with hc | hc
      · exact (h.path_chars c hc).2.2
      · rcases List.mem_cons.mp hc with rfl | hc
        · rfl
        · exact (h.query_chars c hc).2
  rw [hkept]
  rfl

/-- What follows an authority is a path and a query, up to the fragment. -/
lemma isTail_partsAfter (hstart : ∀ c ∈ rest.head?, endsAuthority c = true)
    (hkept : ∀ c ∈ rest, isIgnored c = false) :
    IsTail (partsAfter rest).path (partsAfter rest).query := by
  have hpath : (partsAfter rest).path =
      (rest.takeWhile (· != '#')).takeWhile (· != '?') := by
    simp only [partsAfter, getD_breakAt?]
  have hquery : (partsAfter rest).query =
      ((rest.takeWhile (· != '#')).dropWhile (· != '?')).drop 1 := by
    simp only [partsAfter, getD_breakAt?]
  have hfront : ∀ c ∈ rest.takeWhile (· != '#'), c ≠ '#' ∧ isIgnored c = false := fun c hc =>
    ⟨by simpa using List.mem_takeWhile_imp hc, hkept c ((List.takeWhile_subset _) hc)⟩
  refine ⟨?_, ?_, ?_⟩
  · rw [hpath]
    cases rest with
    | nil => simp
    | cons c cs =>
        have hc := hstart c rfl
        simp only [endsAuthority, Bool.or_eq_true, beq_iff_eq] at hc
        rcases hc with (rfl | rfl) | rfl <;> simp
  · intro c hc
    rw [hpath] at hc
    have hmem := (List.takeWhile_subset _) hc
    exact ⟨by simpa using List.mem_takeWhile_imp hc, hfront c hmem⟩
  · intro c hc
    rw [hquery] at hc
    exact hfront c ((List.dropWhile_subset _) (List.mem_of_mem_drop hc))

/-! ### URLs that name a host -/

/-- What is taken for a scheme is one, in lower case. -/
lemma takeScheme_spec (hne : (takeScheme url).1 ≠ []) :
    (((takeScheme url).1.head?.map Char.isAlpha).getD false = true ∧
      (∀ c ∈ (takeScheme url).1, isSchemeChar c = true) ∧
      (takeScheme url).1.map Char.toLower = (takeScheme url).1) ∧
      ∀ c ∈ (takeScheme url).2, c ∈ url := by
  rw [takeScheme] at hne ⊢
  cases hbreak : breakAt? ':' url with
  | none => simp [hbreak] at hne
  | some halves =>
      obtain ⟨written, rest⟩ := halves
      simp only [hbreak] at hne ⊢
      split_ifs at hne ⊢ with hscheme
      · rw [Bool.and_eq_true, List.all_eq_true] at hscheme
        have hwritten : IsScheme written := ⟨hscheme.1, hscheme.2⟩
        refine ⟨⟨hwritten.toLower.head, hwritten.toLower.chars, hwritten.map_toLower⟩,
          fun c hc => ?_⟩
        rw [← Text.append_of_breakAt? hbreak]
        exact List.mem_append_right _ (List.mem_cons_of_mem _ hc)
      · exact absurd rfl hne

/-- What is taken for an authority ends where something else starts. -/
lemma takeAuthority_spec (hne : (takeAuthority url).1 ≠ []) :
    (∀ c ∈ (takeAuthority url).1, endsAuthority c = false ∧ c ∈ url) ∧
      (∀ c ∈ (takeAuthority url).2.head?, endsAuthority c = true) ∧
      ∀ c ∈ (takeAuthority url).2, c ∈ url := by
  unfold takeAuthority at hne ⊢
  split at hne
  · next rest =>
    refine ⟨fun c hc => ⟨by simpa using List.mem_takeWhile_imp hc, ?_⟩, fun c hc => ?_,
      fun c hc => ?_⟩
    · exact List.mem_cons_of_mem _ (List.mem_cons_of_mem _ (List.takeWhile_subset _ hc))
    · have hends := List.head?_dropWhile_not (fun c => !endsAuthority c) rest
      rw [hc] at hends
      simpa using hends
    · exact List.mem_cons_of_mem _ (List.mem_cons_of_mem _ (List.dropWhile_subset _ hc))
  · exact absurd rfl hne

/-- **A URL that names a host** has its scheme and its authority in front, and a path and a query
behind them. -/
lemma isOrigin_of_splitAbsolute? (h : splitAbsolute? url = some parts) :
    IsOrigin parts.scheme parts.authority ∧ IsTail parts.path parts.query := by
  rw [splitAbsolute?] at h
  cases hsplit : split? (trim url) with
  | none => simp [hsplit] at h
  | some parts' =>
      simp only [hsplit] at h
      split_ifs at h with hrefused
      obtain rfl := Option.some.inj h
      simp only [Bool.or_eq_true, List.isEmpty_iff, not_or] at hrefused
      obtain ⟨⟨⟨hscheme, hauthority⟩, -⟩, -⟩ := hrefused
      rw [split?_eq] at hsplit
      split_ifs at hsplit with hfits
      obtain rfl := Option.some.inj hsplit
      have hkept : ∀ c ∈ significant (trim url), isIgnored c = false := fun c hc => by
        simpa using (List.mem_filter.mp hc).2
      obtain ⟨⟨hhead, hchars, hlower⟩, hrest⟩ := takeScheme_spec hscheme
      obtain ⟨hinside, hends, htail⟩ := takeAuthority_spec hauthority
      exact ⟨⟨hhead, hchars, hlower, hauthority, fun c hc =>
          ⟨(hinside c hc).1, hkept c (hrest c (hinside c hc).2)⟩, hfits.1, hfits.2⟩,
        isTail_partsAfter hends fun c hc => hkept c (hrest c (htail c hc))⟩

/-! ### Request paths -/

/-- The path of a URL that names a host. There is always one. -/
def pathOrRoot (path : List Char) : List Char := if path.isEmpty then ['/'] else path

lemma IsTail.pathOrRoot (h : IsTail path query) : IsTail (pathOrRoot path) query := by
  rw [Url.pathOrRoot]
  split_ifs
  · exact ⟨by simp, by decide, h.query_chars⟩
  · exact h

lemma head_pathOrRoot (h : IsTail path query) : (pathOrRoot path).head? = some '/' := by
  cases path with
  | nil => rfl
  | cons c cs =>
      obtain rfl := h.start c rfl
      rfl

lemma requestPath_of_splitAbsolute? (h : splitAbsolute? url = some parts) :
    requestPath url = tailText (pathOrRoot parts.path) parts.query := by
  rw [requestPath, h]
  rfl

/-- **A request path starts with a slash and has no fragment.** -/
lemma requestPath_spec (url : List Char) :
    (requestPath url).head? = some '/' ∧ '#' ∉ requestPath url := by
  cases hsplit : splitAbsolute? url with
  | some parts =>
      have htail := (isOrigin_of_splitAbsolute? hsplit).2
      have hpath := head_pathOrRoot htail
      obtain ⟨rest, hrest⟩ := List.head?_eq_some_iff.mp hpath
      have hnumber : '#' ∉ pathOrRoot parts.path ∧ '#' ∉ parts.query :=
        ⟨fun hmem => (htail.pathOrRoot.path_chars _ hmem).2.1 rfl,
          fun hmem => (htail.query_chars _ hmem).1 rfl⟩
      rw [requestPath_of_splitAbsolute? hsplit, tailText]
      split_ifs
      · exact ⟨hpath, hnumber.1⟩
      · exact ⟨by rw [hrest]; rfl, by simp [hnumber]⟩
  | none =>
      rw [requestPath, hsplit]
      simp only [firstPath]
      cases hdrop : (dropAuthority url).dropWhile (· != '/') with
      | nil => exact ⟨rfl, by decide⟩
      | cons c cs =>
          have hslash := List.head?_dropWhile_not (· != '/') (dropAuthority url)
          rw [hdrop] at hslash
          obtain rfl : c = '/' := by simpa using hslash
          refine ⟨rfl, fun hmem => ?_⟩
          simpa using List.mem_takeWhile_imp hmem

end RequestSuite.Url

namespace RequestSuite

open Url

/-! ### Base URLs -/

/-- The base URL of a collection is that of the first request that names a host; no request after it
is asked. -/
lemma baseUrlOf_of_first {c : Collection} {before after : List Request} {r : Request}
    {parts : UrlParts} (hc : c.requests = before ++ r :: after)
    (hbefore : ∀ s ∈ before, splitAbsolute? s.url.toList = none)
    (hr : splitAbsolute? r.url.toList = some parts) :
    baseUrlOf c = (String.ofList (originText parts.scheme parts.authority), []) := by
  have hfirst : baseUrl? c.requests =
      some (String.ofList (originText parts.scheme parts.authority)) := by
    rw [hc, baseUrl?, List.findSome?_append, List.findSome?_eq_none_iff.mpr fun s hs => by
      rw [origin?, hbefore s hs]; rfl]
    simp only [Option.none_or, List.findSome?_cons, origin?, hr, Option.map_some, originText]
  rw [baseUrlOf, hfirst]

/-- **A base URL is scheme and authority**, also where no request names a host. -/
lemma isOrigin_baseUrlOf (c : Collection) :
    ∃ scheme authority, IsOrigin scheme authority ∧
      (baseUrlOf c).1.toList = originText scheme authority := by
  rw [baseUrlOf]
  cases hbase : baseUrl? c.requests with
  | some base =>
      obtain ⟨r, -, hr⟩ := List.exists_of_findSome?_eq_some hbase
      obtain ⟨parts, hparts, rfl⟩ := Option.map_eq_some_iff.mp hr
      exact ⟨_, _, (isOrigin_of_splitAbsolute? hparts).1, String.toList_ofList⟩
  | none =>
      refine ⟨"https".toList, "api.example.com".toList, ⟨by decide, by decide, by decide, by decide,
        by decide, by decide, by decide⟩, by decide⟩

/-- **Base URL and request path make the URL again.** Behind scheme and authority of a URL that
names a host its request path is read as its path, or as `/` for an empty one, and its query; the
fragment is gone. The base URL of a suite is scheme and authority of its first request that names a
host. And whatever the URL of a request, also the empty text for none, its path starts with a slash
and has no fragment, so that behind any base URL it leaves scheme and authority as they are. -/
theorem request_path_recombines :
    (∀ (url : List Char) (parts : UrlParts), splitAbsolute? url = some parts →
      split? (originText parts.scheme parts.authority ++ requestPath url) =
        some { parts with path := pathOrRoot parts.path, fragment := [] }) ∧
    (∀ (c : Collection) (before after : List Request) (r : Request) (parts : UrlParts),
      c.requests = before ++ r :: after →
      (∀ s ∈ before, splitAbsolute? s.url.toList = none) →
      splitAbsolute? r.url.toList = some parts →
        baseUrlOf c = (String.ofList (originText parts.scheme parts.authority), [])) ∧
    (∀ url : List Char, (requestPath url).head? = some '/' ∧ '#' ∉ requestPath url) ∧
    ∀ (c : Collection) (url : List Char), ∃ base parts,
      split? (baseUrlOf c).1.toList = some base ∧ base.authority ≠ [] ∧
      split? ((baseUrlOf c).1.toList ++ requestPath url) = some parts ∧
      parts.scheme = base.scheme ∧ parts.authority = base.authority := by
  refine ⟨fun url parts h => ?_, fun c before after r parts => baseUrlOf_of_first,
    requestPath_spec, fun c url => ?_⟩
  · obtain ⟨horigin, htail⟩ := isOrigin_of_splitAbsolute? h
    have hslash : ∀ c ∈ (requestPath url).head?, c = '/' := by
      rw [(requestPath_spec url).1]
      simp
    have hkept : (requestPath url).filter (fun c => !isIgnored c) = requestPath url := by
      rw [requestPath_of_splitAbsolute? h]
      exact htail.pathOrRoot.filter_tailText
    rw [split?_originText_append horigin hslash, hkept, requestPath_of_splitAbsolute? h,
      partsAfter_tailText htail.pathOrRoot]
  · obtain ⟨scheme, authority, horigin, hbase⟩ := isOrigin_baseUrlOf c
    have hslash : ∀ c ∈ (requestPath url).head?, c = '/' := by
      rw [(requestPath_spec url).1]
      simp
    have hnothing : ∀ c ∈ ([] : List Char).head?, c = '/' := by simp
    have halone := split?_originText_append horigin hnothing
    rw [List.append_nil] at halone
    rw [hbase]
    exact ⟨_, _, halone, horigin.named, split?_originText_append horigin hslash, rfl, rfl⟩

/-- A URL in capitals whose query looks like another URL, behind a request that names no host. -/
theorem pathless_url_recombines :
    split? "https://me@Host:8080/?to=//x/y?z".toList =
      some ⟨"https".toList, "me@Host:8080".toList, "/".toList, "to=//x/y?z".toList, []⟩ ∧
    baseUrlOf ⟨"API", none, [.request { name := "Local", url := "/a" },
        .request { name := "Remote", url := " HTTPS://me@Host:8080?to=//x/y?z#top" }], []⟩ =
      ("https://me@Host:8080", []) ∧
    (requestPath "https:/\\host".toList).head? = some '/' := by
  have hparts : splitAbsolute? " HTTPS://me@Host:8080?to=//x/y?z#top".toList =
      some ⟨"https".toList, "me@Host:8080".toList, [], "to=//x/y?z".toList, "top".toList⟩ := by
    decide +kernel
  have hpath : originText "https".toList "me@Host:8080".toList ++
      requestPath " HTTPS://me@Host:8080?to=//x/y?z#top".toList =
        "https://me@Host:8080/?to=//x/y?z".toList := by
    decide +kernel
  have horigin : String.ofList (originText "https".toList "me@Host:8080".toList) =
      "https://me@Host:8080" := by
    decide +kernel
  refine ⟨?_, ?_, request_path_recombines.2.2.1 _ |>.1⟩
  · rw [← hpath]
    exact request_path_recombines.1 _ _ hparts
  · rw [← horigin]
    refine request_path_recombines.2.1 _ [{ name := "Local", url := "/a" }] []
      { name := "Remote", url := " HTTPS://me@Host:8080?to=//x/y?z#top" } _ ?_ ?_ hparts
    · rfl
    · decide +kernel

end RequestSuite
