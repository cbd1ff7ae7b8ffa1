/-!
# Sets of characters by their boundaries

A set of characters is given by the ascending code points at which membership
changes, starting outside the set.  A character belongs to the set iff an odd
number of boundaries lie at or below its code point.
-/

namespace UiMarkdown

namespace Text

/--
The number of boundaries at or below a code point, by halving the interval
`[low, high)` that still may hold the first larger one.
-/
def boundariesUpTo (bounds : Array Nat) (n : Nat) : (fuel low high : Nat) → Nat
  | 0, low, _ => low
  | fuel + 1, low, high =>
      if low < high then
        let middle := (low + high) / 2
        if bounds.getD middle 0 ≤ n then boundariesUpTo bounds n fuel (middle + 1) high
        else boundariesUpTo bounds n fuel low middle
      else low

def inSet (bounds : Array Nat) (c : Char) : Bool :=
  boundariesUpTo bounds c.toNat (bounds.size.log2 + 2) 0 bounds.size % 2 == 1

end Text

end UiMarkdown
