/-!
# Sorted ranges of code points

Membership in a set of characters that is given as a sorted array of disjoint ranges.
-/

set_option autoImplicit false

namespace ScriptWorker.Text

/-- Looks for the range with `n` among those from `low` up to but without `high`, halving the
span at each of at most `fuel` steps. -/
def inRangesBetween (table : Array (Nat × Nat)) (n : Nat) : Nat → Nat → Nat → Bool
  | 0, _, _ => false
  | fuel + 1, low, high =>
    if low < high then
      let middle := (low + high) / 2
      match table[middle]? with
      | none => false
      | some (first, last) =>
        if n < first then inRangesBetween table n fuel low middle
        else if last < n then inRangesBetween table n fuel (middle + 1) high
        else true
    else false

/-- Whether a code point lies in one of the sorted, disjoint ranges. -/
def inRanges (table : Array (Nat × Nat)) (n : Nat) : Bool :=
  inRangesBetween table n (table.size + 1) 0 table.size

end ScriptWorker.Text
