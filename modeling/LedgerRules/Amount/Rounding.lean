import LedgerRules.Amount.Basic
/-!
# Rounding to the nearest number

A positive fraction is rounded to the nearest binary64 magnitude, and of two that are equally
near to the one whose last bit is zero. All of it is arithmetic on natural numbers.

A magnitude `k` stands for `significand * 2 ^ exponent`, see `Amount.parts`; neighbouring
magnitudes are neighbouring numbers.
-/

namespace LedgerRules.Amount

/-- The whole number nearest to `n / d`, the even one of two that are equally near. -/
def divNearest (n d : Nat) : Nat :=
  let whole := n / d
  let rest := n % d
  if 2 * rest < d then whole
  else if d < 2 * rest then whole + 1
  else if whole % 2 = 0 then whole else whole + 1

/-- The fraction `n / d` times a power of a base, as numerator and denominator. -/
def scale (base : Nat) (exponent : Int) (n d : Nat) : Nat × Nat :=
  if 0 ≤ exponent then (n * Nat.pow base exponent.toNat, d)
  else (n, d * Nat.pow base (-exponent).toNat)

/-- The exponent of the highest power of two that is at most `n / d`. -/
def floorLog2 (n d : Nat) : Int :=
  let guess : Int := (n.log2 : Int) - (d.log2 : Int)
  let (n', d') := scale 2 (-guess) n d
  if d' ≤ n' then guess else guess - 1

/-- The magnitude nearest to the positive fraction `n / d`; it may lie beyond infinity. -/
def nearestMagnitude (n d : Nat) : Nat :=
  let exponent := max (floorLog2 n d - 52) (-1074)
  let (n', d') := scale 2 (-exponent) n d
  -- A significand that is rounded up to the next power of two carries into the exponent.
  (exponent + 1074).toNat * 0x10000000000000 + divNearest n' d'

/-- The amount nearest to `digits * 10 ^ exponent`. Values too large are infinite and values too
small are zero, which is decided on the exponent before any power is formed. -/
def ofDecimal (negative : Bool) (digits : Nat) (exponent : Int) : Amount :=
  if digits = 0 || exponent < -(400 + (digits.log2 : Int)) then ofMagnitude negative 0
  else if 310 < exponent then ofMagnitude negative infiniteMagnitude
  else
    let (n, d) := scale 10 exponent digits 1
    ofMagnitude negative (nearestMagnitude n d)

/-- The significand and the binary exponent of a finite magnitude. -/
def parts (magnitude : Nat) : Nat × Int :=
  let field : Nat := magnitude / 0x10000000000000
  let fraction : Nat := magnitude % 0x10000000000000
  if field = 0 then (fraction, -1074) else (0x10000000000000 + fraction, (field : Int) - 1075)

end LedgerRules.Amount
