/-
Maps that remember the order of their keys.

* `Keyed`: pairs of a key and a value;
* `Keyed.put`: a new key goes to the end, a known one keeps its place and takes the new value;
* `Keyed.get?`: the value of a key;
* `get?_put`: what a key holds after another entry is put;
* `keys_put`: how the keys change.
-/
namespace RequestSuite

/-- Pairs of a key and a value, in the order in which the keys were first put. -/
abbrev Keyed (α : Type) := List (String × α)

namespace Keyed

variable {α : Type}

/-- Gives a key a value. -/
def put (key : String) (value : α) : Keyed α → Keyed α
  | [] => [(key, value)]
  | entry :: rest => if entry.1 = key then (key, value) :: rest else entry :: put key value rest

/-- The value of a key. -/
def get? (key : String) : Keyed α → Option α
  | [] => none
  | entry :: rest => if entry.1 = key then some entry.2 else get? key rest

/-- The keys in order. -/
def keys (m : Keyed α) : List String := m.map Prod.fst

/-- Puts all entries of a list, one after another. -/
def putAll (entries : List (String × α)) (m : Keyed α) : Keyed α :=
  entries.foldl (fun m entry => m.put entry.1 entry.2) m

/-- The map of a list of entries: the first place and the last value of each key count. -/
def ofList (entries : List (String × α)) : Keyed α := putAll entries []

/-- A put key holds its value, and no other key changes. -/
theorem get?_put (key key' : String) (value : α) (m : Keyed α) :
    (m.put key value).get? key' = if key' = key then some value else m.get? key' := by
  induction m with
  | nil =>
    by_cases h : key' = key
    · simp [put, get?, h]
    · simp [put, get?, h, Ne.symm h]
  | cons entry rest ih =>
    by_cases he : entry.1 = key
    · by_cases h : key' = key
      · simp [put, get?, he, h]
      · simp [put, get?, he, h, Ne.symm h]
    · by_cases h' : entry.1 = key'
      · simp [put, get?, h', show ¬ key' = key from h' ▸ he]
      · simp [put, get?, he, h', ih]

theorem keys_cons (entry : String × α) (rest : Keyed α) :
    keys (entry :: rest) = entry.1 :: keys rest := rfl

/-- Putting adds a key at the end exactly if it was not there. -/
theorem keys_put (key : String) (value : α) (m : Keyed α) :
    (m.put key value).keys = if key ∈ m.keys then m.keys else m.keys ++ [key] := by
  induction m with
  | nil => simp [put, keys]
  | cons entry rest ih =>
    by_cases he : entry.1 = key
    · simp [put, keys_cons, he]
    · have hk : ¬ key = entry.1 := fun h => he h.symm
      simp only [put, he, ↓reduceIte, keys_cons, List.mem_cons, hk, false_or, ih]
      by_cases hm : key ∈ keys rest <;> simp [hm]

end Keyed

end RequestSuite
