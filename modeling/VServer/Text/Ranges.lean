/-
Sets of code points given by closed intervals.  The tables of character classes above ASCII
are lists of such intervals in increasing order.
-/

namespace VServer.Text

/-- Whether `n` lies in one of the closed intervals of `table`. -/
def inRanges (table : List (Nat × Nat)) (n : Nat) : Bool :=
  table.any fun r => r.1 ≤ n && n ≤ r.2

end VServer.Text
