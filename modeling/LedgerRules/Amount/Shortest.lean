import LedgerRules.Amount.Rounding
import LedgerRules.Text.Digits
/-!
# The shortest decimal form of an amount

The fewest digits that read back as the amount, and of these the nearest to it. On the grid of
decimals with a given last place only the two neighbours of the value can qualify, so the grids
are tried from the coarsest on, each by an exact comparison.

`Amount.json?` is the form in which amounts stand in JSON: positional from `0.00001` up to below
`1e16`, scientific outside, and always marked as a fraction by a point or an exponent.
-/

namespace LedgerRules.Amount

open Text

/-- The numbers that round to a magnitude: those between `low` and `high` quarters of a unit in
the last place `2 ^ exponent`, the ends included if `closed`. The value itself is `value`
quarters. -/
structure RoundingInterval where
  /-- The lower end, in quarters of the last place. -/
  low : Nat
  /-- The value, in quarters of the last place. -/
  value : Nat
  /-- The upper end, in quarters of the last place. -/
  high : Nat
  /-- Whether the ends round to the magnitude too. -/
  closed : Bool
  /-- The exponent of the last place. -/
  exponent : Int

/-- The numbers that round to a positive finite magnitude. Below a power of two the neighbour is
only half as far away. -/
def roundingInterval (magnitude : Nat) : RoundingInterval :=
  let (significand, exponent) := parts magnitude
  let down := if significand = 0x10000000000000 && exponent != -1074 then 1 else 2
  { low := 4 * significand - down, value := 4 * significand, high := 4 * significand + 2,
    closed := significand % 2 = 0, exponent := exponent }

namespace RoundingInterval

/-- The factor from quarters of the last place to units of the decimal place `10 ^ place`, as
numerator and denominator. -/
def toPlace (i : RoundingInterval) (place : Int) : Nat × Nat :=
  let (n, d) := scale 2 (i.exponent - 2) 1 1
  scale 10 (-place) n d

/-- Whether `candidate` units of a decimal place round to the magnitude, where `n / d` is the
factor to that place. -/
def holds (i : RoundingInterval) (n d candidate : Nat) : Bool :=
  if i.closed then i.low * n ≤ candidate * d && candidate * d ≤ i.high * n
  else i.low * n < candidate * d && candidate * d < i.high * n

/-- The decimal in units of `10 ^ place` that rounds to the magnitude and is nearest to it. -/
def onGrid? (i : RoundingInterval) (place : Int) : Option Nat :=
  let (n, d) := i.toPlace place
  let under := i.value * n / d
  match i.holds n d under, i.holds n d (under + 1) with
  | true, true => some (divNearest (i.value * n) d)
  | true, false => some under
  | false, true => some (under + 1)
  | false, false => none

/-- The first grid that holds a decimal of the interval, from `place` on down. -/
def search (i : RoundingInterval) : Nat → Int → Nat × Int
  -- Seventeen digits always tell an amount from its neighbours, so no search ends here.
  | 0, place => (i.value * (i.toPlace place).1 / (i.toPlace place).2, place)
  | tries + 1, place =>
    match i.onGrid? place with
    | some digits => (digits, place)
    | none => i.search tries (place - 1)

end RoundingInterval

/-- The exponent of the highest power of ten that is at most `significand * 2 ^ exponent`. -/
def floorLog10 (significand : Nat) (exponent : Int) : Int :=
  -- The logarithm of two to the base ten is 0.30103, which is off by at most one here.
  let guess := Int.fdiv ((significand.log2 + exponent) * 30103) 100000
  let (n, d) := scale 2 exponent significand 1
  let (n', d') := scale 10 (-(guess + 1)) n d
  if d' ≤ n' then guess + 1 else guess

/-- The shortest decimal of a positive finite magnitude: its digits without trailing zeros, and
the exponent of the first of them. -/
def shortest (magnitude : Nat) : List Char × Int :=
  let (significand, exponent) := parts magnitude
  let (digits, place) :=
    (roundingInterval magnitude).search 17 (floorLog10 significand exponent)
  let text := decimal digits
  let kept := (text.reverse.dropWhile (· == '0')).reverse
  (kept, place + text.length - 1)

/-- Positional notation of digits whose first has the given exponent. -/
def positional (digits : List Char) (exponent : Int) : List Char :=
  if exponent < 0 then
    ['0', '.'] ++ List.replicate (-exponent - 1).toNat '0' ++ digits
  else
    let size := exponent.toNat + 1
    let whole := digits.take size ++ List.replicate (size - digits.length) '0'
    let fraction := digits.drop size
    whole ++ '.' :: (if fraction.isEmpty then ['0'] else fraction)

/-- Scientific notation of digits whose first has the given exponent. -/
def scientific (digits : List Char) (exponent : Int) : List Char :=
  let mantissa :=
    match digits with
    | first :: second :: more => first :: '.' :: second :: more
    | short => short
  mantissa ++ 'e' :: (if exponent < 0 then '-' else '+') :: decimal exponent.natAbs

/-- The form of an amount in JSON; values that are no finite number have none. -/
def json? (x : Amount) : Option (List Char) :=
  if infiniteMagnitude ≤ x.magnitude then none
  else
    let body :=
      if x.magnitude = 0 then "0.0".toList
      else
        let (digits, exponent) := shortest x.magnitude
        if -5 ≤ exponent && exponent < 16 then positional digits exponent
        else scientific digits exponent
    some (if x.negative then '-' :: body else body)

end LedgerRules.Amount
