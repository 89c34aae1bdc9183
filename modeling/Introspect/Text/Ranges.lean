/-!
Sets of code points as lists of closed ranges.
-/

namespace Introspect.Text

def inRanges (ranges : List (Nat × Nat)) (n : Nat) : Bool :=
  ranges.any fun r => r.1 ≤ n && n ≤ r.2

/-- Member of an arithmetic run `first, first + step, … , last`. -/
def inRun (first last step n : Nat) : Bool :=
  first ≤ n && n ≤ last && (n - first) % step == 0

end Introspect.Text
