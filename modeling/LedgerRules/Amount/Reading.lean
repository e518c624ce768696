import LedgerRules.Amount.Rounding
import LedgerRules.Text.Digits
/-!
# Reading amounts

The literals of rules: an optional sign, then `inf`, `infinity` or `nan` in any case of letters,
or decimal digits with at most one point, at least one digit, and an optional exponent. The value
is rounded to the nearest amount.
-/

namespace LedgerRules.Amount

open Text

/-- Reads an exponent with its letter, or nothing. -/
def exponent? : List Char → Option Int
  | [] => some 0
  | c :: s => if c = 'e' || c = 'E' then integer? s else none

/-- Reads a decimal number without its sign. -/
def unsigned? (negative : Bool) (s : List Char) : Option Amount :=
  let whole := s.takeWhile Char.isDigit
  let afterWhole := s.dropWhile Char.isDigit
  let (fraction, rest) :=
    match afterWhole with
    | '.' :: r => (r.takeWhile Char.isDigit, r.dropWhile Char.isDigit)
    | r => ([], r)
  if whole.isEmpty && fraction.isEmpty then none
  else
    (exponent? rest).map fun exponent =>
      ofDecimal negative (digitsValue (whole ++ fraction)) (exponent - fraction.length)

/-- Reads a literal without its sign. -/
def magnitude? (negative : Bool) (s : List Char) : Option Amount :=
  let word := String.ofList (s.map Char.toLower)
  if word = "inf" || word = "infinity" then some (ofMagnitude negative infiniteMagnitude)
  else if word = "nan" then some (notANumber negative)
  else unsigned? negative s

/-- Reads a literal. -/
def parse? : List Char → Option Amount
  | '-' :: s => magnitude? true s
  | '+' :: s => magnitude? false s
  | s => magnitude? false s

end LedgerRules.Amount
