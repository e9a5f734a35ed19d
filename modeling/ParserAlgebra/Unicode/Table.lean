/-!
# Tables of code points

A class of characters is a list of runs of code points in ascending order. The lookup stops at the
first run that begins above the character. The data are those of Unicode 15.1.
-/

namespace ParserAlgebra.Unicode

/-- Runs of code points, each with its first and last member, in ascending order. -/
abbrev RangeTable := List (Nat × Nat)

/-- Runs of every `step`-th code point, each with its first and last member, in ascending order. -/
abbrev StepTable := List (Nat × Nat × Nat)

/-- Whether a run of the table holds `n`. -/
def RangeTable.holds : RangeTable → Nat → Bool
  | [], _ => false
  | (first, last) :: table, n =>
    if n < first then false else n ≤ last || RangeTable.holds table n

/-- Whether a run of the table holds `n`. -/
def StepTable.holds : StepTable → Nat → Bool
  | [], _ => false
  | (first, last, step) :: table, n =>
    if n < first then false
    else if n ≤ last then (n - first) % step == 0
    else StepTable.holds table n

end ParserAlgebra.Unicode
