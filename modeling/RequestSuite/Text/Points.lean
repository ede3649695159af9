/-
Texts as sequences of code points.

A text can hold surrogates, and no character is one. So texts are written in a code, in which the
last of all characters announces another one that stands for a surrogate, or for the last character
itself.

* `isSurrogate`, `marker`: surrogates, and the character that announces them;
* `ofPoint`, `ofPoints`: the characters that stand for code points;
* `points`: the code points for which the characters of a text stand;
* `points_ofPoints`: different sequences of code points have different texts.
-/
namespace RequestSuite.Text

/-- Code points that are no characters. -/
def isSurrogate (n : Nat) : Bool := 0xd800 ≤ n && n ≤ 0xdfff

/-- The character that announces another one: the last of all. -/
def marker : Char := Char.ofNat 0x10ffff

/-- The characters that stand for a code point. -/
def ofPoint (n : Nat) : List Char :=
  if isSurrogate n then [marker, Char.ofNat (0x100000 + (n - 0xd800))]
  else if n = 0x10ffff then [marker, marker]
  else [Char.ofNat n]

/-- The text of some code points. -/
def ofPoints (ns : List Nat) : List Char := ns.flatMap ofPoint

/-- The code points of a text. -/
def points : List Char → List Nat
  | [] => []
  | [c] => [c.toNat]
  | c :: d :: cs =>
    if c = marker then
      (if d = marker then 0x10ffff else d.toNat - 0x100000 + 0xd800) :: points cs
    else c.toNat :: points (d :: cs)

theorem toNat_marker : marker.toNat = 0x10ffff := by decide

theorem toNat_ofNat_of_lt {n : Nat} (h : n < 0x110000) (hs : isSurrogate n = false) :
    (Char.ofNat n).toNat = n := by
  have hvalid : n.isValidChar := by
    simp only [isSurrogate, Bool.and_eq_false_iff, decide_eq_false_iff_not] at hs
    rw [Nat.isValidChar]
    omega
  rw [Char.ofNat, dif_pos hvalid]
  rfl

theorem points_cons {c : Char} (h : c ≠ marker) (cs : List Char) :
    points (c :: cs) = c.toNat :: points cs := by
  cases cs with
  | nil => rfl
  | cons d cs => rw [points, if_neg h]

/-- The first code point of a text is read from its characters. -/
theorem points_ofPoint_append {n : Nat} (h : n < 0x110000) (cs : List Char) :
    points (ofPoint n ++ cs) = n :: points cs := by
  rw [ofPoint]
  split
  · next hs =>
    have hn : 0xd800 ≤ n ∧ n ≤ 0xdfff := by simpa [isSurrogate] using hs
    have hprivate : isSurrogate (0x100000 + (n - 0xd800)) = false := by
      simp only [isSurrogate, Bool.and_eq_false_iff, decide_eq_false_iff_not]
      omega
    have hnat := toNat_ofNat_of_lt (by omega) hprivate
    have hne : Char.ofNat (0x100000 + (n - 0xd800)) ≠ marker := fun heq => by
      rw [heq, toNat_marker] at hnat
      omega
    have hback : 0x100000 + (n - 0xd800) - 0x100000 + 0xd800 = n := by omega
    rw [List.cons_append, List.cons_append, List.nil_append, points, if_pos rfl, if_neg hne, hnat,
      hback]
  · next hs =>
    split
    · next hlast =>
      subst hlast
      rw [List.cons_append, List.cons_append, List.nil_append, points, if_pos rfl, if_pos rfl]
    · next hlast =>
      have hnat := toNat_ofNat_of_lt h (by simpa using hs)
      have hne : Char.ofNat n ≠ marker := fun heq => by
        rw [heq, toNat_marker] at hnat
        exact hlast hnat.symm
      rw [List.singleton_append, points_cons hne, hnat]

/-- **Different sequences of code points have different texts**: they are read from them. -/
theorem points_ofPoints {ns : List Nat} (h : ∀ n ∈ ns, n < 0x110000) :
    points (ofPoints ns) = ns := by
  induction ns with
  | nil => rfl
  | cons n ns ih =>
    rw [ofPoints, List.flatMap_cons, points_ofPoint_append (h n List.mem_cons_self), ← ofPoints,
      ih fun m hm => h m (List.mem_cons_of_mem n hm)]

end RequestSuite.Text
