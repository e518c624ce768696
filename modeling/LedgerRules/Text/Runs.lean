/-!
# Runs of code points

A character property is given as a list of runs, each by its first and its last code point.
-/

namespace LedgerRules.Text

/-- Whether a character lies in one of the runs. -/
def inRuns (runs : List (Nat × Nat)) (c : Char) : Bool :=
  runs.any fun run => run.1 ≤ c.toNat && c.toNat ≤ run.2

end LedgerRules.Text
