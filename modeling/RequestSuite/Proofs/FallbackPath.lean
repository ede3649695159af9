/-
Paths of URLs that name no host.

* `beforeQuery`, `fromQuery`: a URL up to its query or fragment, and what is left of it;
* `exists_dropAuthority`: what is cut off as an authority holds nothing of query and fragment;
* `firstPath_of_mem`, `firstPath_of_notMem`: the first path of a text stands before its query, or is
  that of its query;
* `KeepsToPath`: a request path that holds nothing of the query;
* `path_precedes_query_iff`: which URLs have one; `templated_path_kept`: at a URL with a slash
  before and a slash behind the question mark; `query_becomes_path`: at one without a path.
-/
import Mathlib.Data.List.TakeWhile
import Mathlib.Tactic
import RequestSuite.Url.RequestPath

namespace RequestSuite.Url

open Text (trimStart isBlank isWord)

variable {url : List Char}

/-! ### Query and fragment cut off -/

/-- Whether a character belongs to a path, and ends no path. -/
def inPath (c : Char) : Bool := c != '?' && c != '#'

/-- A URL up to its query or fragment. -/
def beforeQuery (url : List Char) : List Char := url.takeWhile inPath

/-- The query and the fragment of a URL, with the mark in front of them. -/
def fromQuery (url : List Char) : List Char := url.dropWhile inPath

lemma beforeQuery_append {front : List Char} (h : ∀ c ∈ front, inPath c = true)
    (rest : List Char) :
    beforeQuery (front ++ rest) = front ++ beforeQuery rest ∧
      fromQuery (front ++ rest) = fromQuery rest :=
  ⟨List.takeWhile_append_of_pos h, List.dropWhile_append_of_pos h⟩

/-- White space belongs to a path, and so do the characters of a scheme. -/
lemma inPath_of_blank_or_scheme {c : Char}
    (h : isBlank c = true ∨ c.isAlpha = true ∨ isLenientSchemeChar c = true) :
    inPath c = true := by
  have hmarks : c = '?' ∨ c = '#' →
      isBlank c = false ∧ c.isAlpha = false ∧ isLenientSchemeChar c = false := by
    rintro (rfl | rfl) <;> decide
  by_contra hc
  obtain ⟨h₁, h₂, h₃⟩ := hmarks (by simpa [inPath, or_iff_not_imp_left] using hc)
  simp [h₁, h₂, h₃] at h

/-- **What is cut off as an authority** stands in front, and holds nothing of query and
fragment. -/
lemma exists_dropAuthority (url : List Char) :
    ∃ front, url = front ++ dropAuthority url ∧ ∀ c ∈ front, inPath c = true := by
  have hnothing : ∃ front, url = front ++ url ∧ ∀ c ∈ front, inPath c = true :=
    ⟨[], rfl, by simp⟩
  have hblanks : ∀ c ∈ url.takeWhile isBlank, inPath c = true := fun c hc =>
    inPath_of_blank_or_scheme (Or.inl (List.mem_takeWhile_imp hc))
  have hurl : url.takeWhile isBlank ++ trimStart url = url := List.takeWhile_append_dropWhile
  unfold dropAuthority
  split
  · next c cs htrim =>
    split_ifs with hc
    · split
      · next rest hslashes =>
        refine ⟨url.takeWhile isBlank ++ c :: (cs.takeWhile isLenientSchemeChar ++
          ':' :: '/' :: '/' :: rest.takeWhile fun c => !endsAuthority c), ?_, ?_⟩
        · have hcs : cs = cs.takeWhile isLenientSchemeChar ++ ':' :: '/' :: '/' :: rest := by
            rw [← hslashes, List.takeWhile_append_dropWhile]
          rw [htrim] at hurl
          conv_lhs => rw [← hurl, hcs, ← List.takeWhile_append_dropWhile
            (p := fun c => !endsAuthority c) (l := rest)]
          simp
        · have hscheme : ∀ d ∈ cs.takeWhile isLenientSchemeChar, inPath d = true := fun d hd =>
            inPath_of_blank_or_scheme (Or.inr (Or.inr (List.mem_takeWhile_imp hd)))
          have hauthority : ∀ d ∈ rest.takeWhile fun c => !endsAuthority c, inPath d = true := by
            intro d hd
            have hends := List.mem_takeWhile_imp hd
            simp only [endsAuthority, Bool.not_eq_true', Bool.or_eq_false_iff] at hends
            simp [inPath, bne, hends]
          have hfirst := inPath_of_blank_or_scheme (Or.inr (Or.inl hc))
          have hmarks : ∀ d ∈ "://".toList, inPath d = true := by decide
          simp only [List.mem_append, List.mem_cons]
          rintro d (hd | rfl | hd | rfl | rfl | rfl | hd)
          · exact hblanks d hd
          · exact hfirst
          · exact hscheme d hd
          · exact hmarks _ (by decide)
          · exact hmarks _ (by decide)
          · exact hmarks _ (by decide)
          · exact hauthority d hd
      · exact hnothing
    · exact hnothing
  · exact hnothing

/-! ### The first path of a text -/

lemma firstPath_append {before : List Char} (h : '/' ∉ before) (rest : List Char) :
    firstPath (before ++ '/' :: rest) = '/' :: beforeQuery rest := by
  have hall : ∀ c ∈ before, (c != '/') = true := fun c hc => bne_iff_ne.mpr fun heq => h (heq ▸ hc)
  rw [firstPath, List.dropWhile_append_of_pos hall]
  rfl

/-- **A slash before the query**: the first path is what stands from the first slash up to the
query. -/
lemma firstPath_of_mem {rest : List Char} (h : '/' ∈ beforeQuery rest) :
    ∃ before, '/' ∉ before ∧ beforeQuery rest = before ++ firstPath rest := by
  obtain ⟨before, after, hsplit, hbefore⟩ := List.eq_append_cons_of_mem h
  have hinside : ∀ c ∈ before ++ '/' :: after, inPath c = true := fun c hc =>
    List.mem_takeWhile_imp (hsplit ▸ hc)
  have hrest : rest = before ++ '/' :: (after ++ fromQuery rest) := by
    conv_lhs => rw [← List.takeWhile_append_dropWhile (p := inPath) (l := rest)]
    rw [← beforeQuery, hsplit, List.append_assoc, List.cons_append, fromQuery]
  have hafter : beforeQuery (after ++ fromQuery rest) = after := by
    rw [(beforeQuery_append (fun c hc => hinside c (by simp [hc])) _).1, beforeQuery, fromQuery,
      List.takeWhile_eq_nil_iff.mpr fun hpos => List.dropWhile_get_zero_not inPath rest hpos,
      List.append_nil]
  refine ⟨before, hbefore, ?_⟩
  conv_rhs => rw [hrest, firstPath_append hbefore, hafter]
  exact hsplit

/-- **No slash before the query**: the first path is that of the query. -/
lemma firstPath_of_notMem {rest : List Char} (h : '/' ∉ beforeQuery rest) :
    firstPath rest = firstPath (fromQuery rest) := by
  have hall : ∀ c ∈ beforeQuery rest, (c != '/') = true := fun c hc =>
    bne_iff_ne.mpr fun heq => h (heq ▸ hc)
  have hrest : rest = beforeQuery rest ++ fromQuery rest := List.takeWhile_append_dropWhile.symm
  conv_lhs => rw [hrest, firstPath, List.dropWhile_append_of_pos hall]
  rfl

/-! ### Request paths -/

/-- A request path that keeps to the path of its URL: it is `/`, or it stands in the URL before the
query and the fragment. -/
def KeepsToPath (url : List Char) : Prop :=
  requestPath url = ['/'] ∨ requestPath url <:+: beforeQuery url

lemma requestPath_of_not_absolute (h : splitAbsolute? url = none) :
    requestPath url = firstPath (dropAuthority url) := by
  rw [requestPath, h]

/-- **Where the path of a URL comes from that names no host.** If a slash stands past the authority
and before the query, the path is what stands from the first such slash up to the query. Otherwise
it is the first path of the query and the fragment. So the path keeps to the path of the URL exactly
if there is such a slash, or if the first path of the query is `/` alone or stands in the authority
too. -/
theorem path_precedes_query_iff (h : splitAbsolute? url = none) :
    (KeepsToPath url ↔
      '/' ∈ beforeQuery (dropAuthority url) ∨ firstPath (fromQuery url) = ['/'] ∨
        firstPath (fromQuery url) <:+: beforeQuery url) ∧
    ('/' ∈ beforeQuery (dropAuthority url) →
      ∃ authority before, beforeQuery url = authority ++ before ++ requestPath url ∧
        url = authority ++ dropAuthority url ∧ '/' ∉ before) ∧
    ('/' ∉ beforeQuery (dropAuthority url) → requestPath url = firstPath (fromQuery url)) := by
  obtain ⟨authority, hurl, hauthority⟩ := exists_dropAuthority url
  have hcut := beforeQuery_append hauthority (dropAuthority url)
  rw [← hurl] at hcut
  rw [KeepsToPath, requestPath_of_not_absolute h]
  have hfound : '/' ∈ beforeQuery (dropAuthority url) → ∃ before, '/' ∉ before ∧
      beforeQuery url = authority ++ before ++ firstPath (dropAuthority url) := by
    intro hslash
    obtain ⟨before, hbefore, hpath⟩ := firstPath_of_mem hslash
    exact ⟨before, hbefore, by rw [hcut.1, hpath, List.append_assoc]⟩
  have hmissed : '/' ∉ beforeQuery (dropAuthority url) →
      firstPath (dropAuthority url) = firstPath (fromQuery url) := by
    intro hslash
    rw [firstPath_of_notMem hslash, hcut.2]
  refine ⟨?_, fun hslash => ?_, hmissed⟩
  · by_cases hslash : '/' ∈ beforeQuery (dropAuthority url)
    · obtain ⟨before, -, hpath⟩ := hfound hslash
      have hinfix : firstPath (dropAuthority url) <:+: beforeQuery url :=
        (List.IsSuffix.isInfix ⟨_, hpath.symm⟩)
      simp [hslash, hinfix]
    · rw [hmissed hslash]
      simp [hslash]
  · obtain ⟨before, hbefore, hpath⟩ := hfound hslash
    exact ⟨authority, before, hpath, hurl, hbefore⟩

/-- A URL whose host is a variable, with a path and another URL in its query. -/
theorem templated_path_kept :
    splitAbsolute? "https://{{host}}/users/2?next=/login".toList = none ∧
      KeepsToPath "https://{{host}}/users/2?next=/login".toList := by
  have hnone : splitAbsolute? "https://{{host}}/users/2?next=/login".toList = none := by
    decide +kernel
  exact ⟨hnone, (path_precedes_query_iff hnone).1.mpr (Or.inl (by decide +kernel))⟩

/-- A URL without a path is asked for a path of its query. -/
theorem query_becomes_path :
    splitAbsolute? "{{baseUrl}}?next=/login".toList = none ∧
      requestPath "{{baseUrl}}?next=/login".toList = "/login".toList ∧
      ¬ KeepsToPath "{{baseUrl}}?next=/login".toList := by
  have hpath : requestPath "{{baseUrl}}?next=/login".toList = "/login".toList := by
    decide +kernel
  refine ⟨by decide +kernel, hpath, ?_⟩
  rw [KeepsToPath, hpath]
  decide +kernel

end RequestSuite.Url
