import LedgerRules.Amount.Rounding
import LedgerRules.Text.Digits
/-!
# Amounts with two places

The exact value of an amount rounded to hundredths, a half to the even neighbour. A negative sign
is kept even where all digits are zero.
-/

namespace LedgerRules.Amount

open Text

/-- The magnitude of a finite amount in hundredths. -/
def hundredths (magnitude : Nat) : Nat :=
  let (significand, exponent) := parts magnitude
  let (n, d) := scale 2 exponent (significand * 100) 1
  divNearest n d

/-- An amount as whole units and two places. -/
def fixed (x : Amount) : String :=
  if x.isNaN then "NaN"
  else
    let body :=
      if x.magnitude = infiniteMagnitude then "inf".toList
      else
        let h := hundredths x.magnitude
        decimal (h / 100) ++ '.' :: padded 2 (h % 100)
    String.ofList (if x.negative then '-' :: body else body)

end LedgerRules.Amount
