/-!
Tables of inclusive code point ranges.

A character class of the language (word characters, decimal digits, printable
characters) is a `CharRanges`: ranges sorted by their lower end and pairwise disjoint.
Membership is a binary search over the table; `CharRanges.find?` also returns the range
that holds a code point, so that a decimal digit's value can be read off its place in its
run of ten.
-/

namespace Ember.Text

/-- A character class given as sorted, disjoint, inclusive ranges `(lo, hi)` of code points. -/
structure CharRanges where
  ranges : Array (Nat × Nat)

namespace CharRanges

/-- The range of the table holding `n`, searched for in the window `[lo, hi)` of the table
by halving it; `none` when no range of the window holds `n`. -/
def findIn (t : CharRanges) (n : Nat) (lo hi : Nat) : Option (Nat × Nat) :=
  if lo < hi then
    let mid := (lo + hi) / 2
    match t.ranges[mid]? with
    | none => none
    | some (a, b) =>
      if n < a then t.findIn n lo mid
      else if b < n then t.findIn n (mid + 1) hi
      else some (a, b)
  else none
termination_by hi - lo

/-- The range of the table that holds the code point `n`, if one does. -/
def find? (t : CharRanges) (n : Nat) : Option (Nat × Nat) :=
  t.findIn n 0 t.ranges.size

/-- Whether the character belongs to the class. -/
def contains (t : CharRanges) (c : Char) : Bool :=
  (t.find? c.toNat).isSome

end CharRanges

end Ember.Text
