/-
Entries put into a map one after another.

* `put_put`, `put_comm`: two puts at one key, and at two keys one of which is known;
* `get?_putAll`: a key holds the value of the last entry with it, or what it held before;
* `keys_putAll`: new keys come after the old ones, in the order in which they are first put;
* `nodup_keys_putAll`, `eq_map_keys`: no key comes twice, so that a map is its keys with what they
  hold; `putAll_of_nodup`: entries with different keys stay as they are;
* `putAll_put_of_mem`, `putAll_put_of_notMem`: what becomes of an entry that is put before others;
* `putAll_putAll`: entries put once more change nothing;
* `putAll_ofList`: a map put into another one.
-/
import Mathlib.Tactic
import RequestSuite.Keyed

namespace RequestSuite.Keyed

variable {α : Type} {key key' : String} {value value' : α}

lemma putAll_cons (key : String) (value : α) (entries : List (String × α)) (m : Keyed α) :
    putAll ((key, value) :: entries) m = putAll entries (m.put key value) := rfl

lemma putAll_concat (entries : List (String × α)) (key : String) (value : α) (m : Keyed α) :
    putAll (entries ++ [(key, value)]) m = (putAll entries m).put key value := by
  rw [putAll, List.foldl_append]
  rfl

/-! ### Two puts -/

lemma mem_keys_put (key : String) (value : α) (m : Keyed α) : key ∈ (m.put key value).keys := by
  rw [keys_put]
  split_ifs with h
  · exact h
  · simp

lemma mem_keys_put_of_mem {m : Keyed α} (h : key' ∈ m.keys) (key : String) (value : α) :
    key' ∈ (m.put key value).keys := by
  rw [keys_put]
  split_ifs
  · exact h
  · exact List.mem_append_left _ h

/-- Of two values put at one key the second remains. -/
lemma put_put (key : String) (value value' : α) (m : Keyed α) :
    (m.put key value).put key value' = m.put key value' := by
  induction m with
  | nil => simp [put]
  | cons entry rest ih =>
      by_cases h : entry.1 = key
      · simp [put, h]
      · simp [put, h, ih]

/-- Puts at two keys may change places if one of the keys is known: only a new key has its place
from the order. -/
lemma put_comm {m : Keyed α} (hne : key ≠ key') (hm : key ∈ m.keys) (value value' : α) :
    (m.put key value).put key' value' = (m.put key' value').put key value := by
  induction m with
  | nil => simp [keys] at hm
  | cons entry rest ih =>
      rw [keys_cons, List.mem_cons] at hm
      by_cases h : entry.1 = key
      · have h' : ¬ entry.1 = key' := fun he => hne (h ▸ he)
        simp [put, h, hne]
      · have hrest : key ∈ keys rest := hm.resolve_left fun he => h he.symm
        by_cases h' : entry.1 = key'
        · simp [put, h', hne.symm]
        · simp [put, h, h', ih hrest]

/-! ### Many puts -/

lemma mem_keys_putAll_of_mem (entries : List (String × α)) {m : Keyed α} (h : key ∈ m.keys) :
    key ∈ (putAll entries m).keys := by
  induction entries generalizing m with
  | nil => exact h
  | cons entry entries ih => exact ih (mem_keys_put_of_mem h entry.1 entry.2)

/-- The keys of all entries are known afterwards. -/
lemma mem_keys_putAll {entries : List (String × α)} (h : key ∈ entries.map Prod.fst)
    (m : Keyed α) : key ∈ (putAll entries m).keys := by
  induction entries generalizing m with
  | nil => simp at h
  | cons entry entries ih =>
      obtain ⟨first, value⟩ := entry
      rw [List.map_cons, List.mem_cons] at h
      rw [putAll_cons]
      rcases h with rfl | h
      · exact mem_keys_putAll_of_mem entries (mem_keys_put _ _ _)
      · exact ih h _

/-- **The last entry wins**: a key holds the value of the last entry with this key, and without
such an entry it holds what it held before. -/
theorem get?_putAll (entries : List (String × α)) (m : Keyed α) (key : String) :
    (putAll entries m).get? key =
      ((entries.findRev? fun entry => entry.1 == key).map Prod.snd).or (m.get? key) := by
  induction entries generalizing m with
  | nil => rfl
  | cons entry entries ih =>
      obtain ⟨first, value⟩ := entry
      rw [putAll_cons, ih, List.findRev?]
      cases List.findRev? (fun entry => entry.1 == key) entries with
      | some last => rfl
      | none =>
          rw [get?_put]
          by_cases h : key = first
          · simp [h]
          · simp [h, Ne.symm h]

/-- **New keys come last**, in the order in which they are first put. -/
theorem keys_putAll (entries : List (String × α)) (m : Keyed α) :
    (putAll entries m).keys =
      m.keys ++ ((entries.map Prod.fst).filter fun key => key ∉ m.keys).eraseDups := by
  induction entries generalizing m with
  | nil => simp [putAll]
  | cons entry entries ih =>
      obtain ⟨first, value⟩ := entry
      rw [putAll_cons, ih, keys_put, List.map_cons]
      by_cases h : first ∈ m.keys
      · rw [if_pos h, List.filter_cons_of_neg (by simpa using h)]
      · rw [if_neg h, List.filter_cons_of_pos (by simpa using h), List.eraseDups_cons,
          List.append_assoc, List.filter_filter]
        simp only [List.mem_append, List.mem_singleton, not_or, List.singleton_append]
        congr 4
        funext key
        rw [Bool.eq_iff_iff]
        simp [and_comm]

/-- No key comes twice by a put. -/
lemma nodup_keys_put {m : Keyed α} (h : m.keys.Nodup) (key : String) (value : α) :
    (m.put key value).keys.Nodup := by
  rw [keys_put]
  split_ifs with hk
  · exact h
  · exact List.nodup_append.mpr ⟨h, List.nodup_singleton key, fun k hmem k' hmem' => by
      obtain rfl := List.mem_singleton.mp hmem'
      exact fun heq => hk (heq ▸ hmem)⟩

lemma nodup_keys_putAll (entries : List (String × α)) {m : Keyed α} (h : m.keys.Nodup) :
    (putAll entries m).keys.Nodup := by
  induction entries generalizing m with
  | nil => exact h
  | cons entry entries ih => exact ih (nodup_keys_put h entry.1 entry.2)

/-- A new key is put at the end. -/
lemma put_of_notMem {m : Keyed α} (h : key ∉ m.keys) (value : α) :
    m.put key value = m ++ [(key, value)] := by
  induction m with
  | nil => rfl
  | cons entry rest ih =>
      rw [keys_cons, List.mem_cons, not_or] at h
      rw [put, if_neg (Ne.symm h.1), ih h.2]
      rfl

/-- Entries whose keys are all new and different come after the old ones as they are. -/
lemma putAll_of_nodup {entries : List (String × α)} {m : Keyed α}
    (h : (keys (m ++ entries)).Nodup) : putAll entries m = m ++ entries := by
  induction entries generalizing m with
  | nil => simp [putAll]
  | cons entry entries ih =>
      obtain ⟨key, value⟩ := entry
      have hnew : key ∉ m.keys := by
        intro hmem
        rw [keys, List.map_append, List.nodup_append] at h
        exact h.2.2 key hmem key List.mem_cons_self rfl
      rw [List.append_cons m] at h
      rw [putAll_cons, put_of_notMem hnew, ih h, ← List.append_cons]

/-- A map has no entries but those that were put. -/
lemma mem_of_mem_putAll {entry : String × α} {entries : List (String × α)} {m : Keyed α}
    (h : entry ∈ putAll entries m) : entry ∈ entries ∨ entry ∈ m := by
  have hput (key : String) (value : α) : ∀ m : Keyed α, entry ∈ m.put key value →
      entry = (key, value) ∨ entry ∈ m := by
    intro m
    induction m with
    | nil => simp [put]
    | cons first rest ih =>
        rw [put]
        split_ifs
        · simp only [List.mem_cons]
          tauto
        · simp only [List.mem_cons]
          tauto
  induction entries generalizing m with
  | nil => exact Or.inr h
  | cons first entries ih =>
      obtain ⟨key, value⟩ := first
      rcases ih h with hmem | hmem
      · exact Or.inl (List.mem_cons_of_mem _ hmem)
      · rcases hput key value m hmem with rfl | hold
        · exact Or.inl List.mem_cons_self
        · exact Or.inr hold

/-- A map without repeated keys is its keys with what they hold. -/
lemma eq_map_keys {m : Keyed α} (h : m.keys.Nodup) (default : α) :
    m = m.keys.map fun key => (key, (m.get? key).getD default) := by
  induction m with
  | nil => rfl
  | cons entry rest ih =>
      rw [keys_cons, List.nodup_cons] at h
      have hrest : (keys rest).map (fun key => (key, (get? key (entry :: rest)).getD default)) =
          rest := by
        conv_rhs => rw [ih h.2]
        refine List.map_congr_left fun key hk => ?_
        have hne : ¬ entry.1 = key := fun heq => h.1 (heq ▸ hk)
        rw [get?, if_neg hne]
      rw [keys_cons, List.map_cons, hrest, get?, if_pos rfl, Option.getD_some]

/-- An entry is lost if another one with its key is put later. -/
lemma putAll_put_of_mem {entries : List (String × α)} {m : Keyed α}
    (h : key ∈ entries.map Prod.fst) (hm : key ∈ m.keys) (value : α) :
    putAll entries (m.put key value) = putAll entries m := by
  induction entries generalizing m with
  | nil => simp at h
  | cons entry entries ih =>
      obtain ⟨first, other⟩ := entry
      rw [putAll_cons, putAll_cons]
      by_cases hf : key = first
      · rw [hf, put_put]
      · rw [put_comm hf hm]
        rw [List.map_cons, List.mem_cons] at h
        exact ih (h.resolve_left hf) (mem_keys_put_of_mem hm _ _)

/-- An entry may be put after others that have other keys, all known. -/
lemma putAll_put_of_notMem {entries : List (String × α)} {m : Keyed α}
    (h : key ∉ entries.map Prod.fst) (hm : ∀ known ∈ entries.map Prod.fst, known ∈ m.keys)
    (value : α) : putAll entries (m.put key value) = (putAll entries m).put key value := by
  induction entries generalizing m with
  | nil => rfl
  | cons entry entries ih =>
      obtain ⟨first, other⟩ := entry
      rw [List.map_cons, List.mem_cons, not_or] at h
      rw [List.map_cons, List.forall_mem_cons] at hm
      rw [putAll_cons, putAll_cons, ← put_comm (Ne.symm h.1) hm.1]
      exact ih h.2 fun known hk => mem_keys_put_of_mem (hm.2 known hk) _ _

/-- **Entries put once more change nothing.** The induction takes the last entry away: in the second
round it meets entries whose keys are all known, so that it is either lost to a later one or can be
put after them. -/
theorem putAll_putAll (entries : List (String × α)) (m : Keyed α) :
    putAll entries (putAll entries m) = putAll entries m := by
  induction entries using List.reverseRecOn with
  | nil => rfl
  | append_singleton entries entry ih =>
      obtain ⟨key, value⟩ := entry
      rw [putAll_concat, putAll_concat]
      have hknown : ∀ known ∈ entries.map Prod.fst, known ∈ (putAll entries m).keys :=
        fun known h => mem_keys_putAll h m
      by_cases h : key ∈ entries.map Prod.fst
      · rw [putAll_put_of_mem h (hknown key h), ih]
      · calc
          (putAll entries ((putAll entries m).put key value)).put key value =
              ((putAll entries (putAll entries m)).put key value).put key value := by
            rw [putAll_put_of_notMem h hknown]
          _ = ((putAll entries m).put key value).put key value := by rw [ih]
          _ = (putAll entries m).put key value := by rw [put_put]

/-- An entry with a known key may be put before others that have other keys. -/
lemma putAll_put_of_mem_keys {entries : List (String × α)} {m : Keyed α}
    (h : key ∉ entries.map Prod.fst) (hm : key ∈ m.keys) (value : α) :
    putAll entries (m.put key value) = (putAll entries m).put key value := by
  induction entries generalizing m with
  | nil => rfl
  | cons entry entries ih =>
      obtain ⟨first, other⟩ := entry
      rw [List.map_cons, List.mem_cons, not_or] at h
      rw [putAll_cons, putAll_cons, put_comm h.1 hm]
      exact ih h.2 (mem_keys_put_of_mem hm _ _)

/-- An entry that is put into a map is put last when the map is put into another one. -/
lemma putAll_put {entries : Keyed α} (h : entries.keys.Nodup) (key : String) (value : α)
    (m : Keyed α) : putAll (entries.put key value) m = (putAll entries m).put key value := by
  induction entries generalizing m with
  | nil => rfl
  | cons entry entries ih =>
      obtain ⟨first, other⟩ := entry
      rw [keys_cons, List.nodup_cons] at h
      rw [put]
      split_ifs with hk
      · obtain rfl : first = key := hk
        rw [putAll_cons, putAll_cons, ← putAll_put_of_mem_keys h.1 (mem_keys_put _ _ _), put_put]
      · exact ih h.2 _

/-- **A map is put into another one** as the entries that made it. -/
theorem putAll_ofList (entries : List (String × α)) (m : Keyed α) :
    putAll (ofList entries) m = putAll entries m := by
  induction entries using List.reverseRecOn with
  | nil => rfl
  | append_singleton entries entry ih =>
      obtain ⟨key, value⟩ := entry
      have hnodup : (ofList entries).keys.Nodup := nodup_keys_putAll entries List.nodup_nil
      rw [ofList, putAll_concat, ← ofList, putAll_put hnodup, ih, putAll_concat]

end RequestSuite.Keyed
