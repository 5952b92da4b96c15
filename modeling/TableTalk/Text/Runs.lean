/-!
# Sets of code points

A set of code points is kept as the ends of its runs in ascending order, the first code point of a
run and the first behind it by turns. So a code point is in the set exactly when an odd number of
bounds does not exceed it (`inRuns`).
-/

namespace TableTalk.Text

/-- Whether the runs with these bounds have a code point. -/
def inRuns (bounds : List Nat) (n : Nat) : Bool := (bounds.takeWhile (· ≤ n)).length % 2 == 1

end TableTalk.Text
