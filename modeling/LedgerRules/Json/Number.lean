import LedgerRules.Amount.Rounding
import LedgerRules.Json.Datum
import LedgerRules.Json.Reader
/-!
# Numbers in JSON

Digits without leading zeros after at most a minus sign, with a fraction or an exponent if need
be. A number without these is a whole number as long as it has sixty-four bits; all others are
rounded to the nearest amount and must not be too large for one. Minus zero is no whole number.
-/

namespace LedgerRules.Json

open Reader Text

/-- A number as it is written. -/
structure Numeral where
  /-- Whether there is a minus sign. -/
  negative : Bool
  /-- The digits before the point. -/
  whole : List Char
  /-- The digits after the point. -/
  fraction : List Char
  /-- The exponent, if one is written. -/
  exponent : Option Int

/-- Takes all digits that stand in front. -/
def digits : Reader (List Char) := fun s =>
  .ok (s.takeWhile Char.isDigit, s.dropWhile Char.isDigit)

/-- Where digits are missing: the text may have ended, which only matters where the number is
kept. -/
def missingDigits {α : Type} (kept : Bool) : Reader α := do
  match ← peek? with
  | none => throw (if kept then .unfinished else .malformed)
  | some _ => throw .malformed

/-- Takes one or more digits. -/
def someDigits (kept : Bool) : Reader (List Char) := do
  let ds ← digits
  if ds.isEmpty then missingDigits kept else pure ds

/-- Takes the digits before the point. -/
def wholeDigits (kept : Bool) : Reader (List Char) := do
  let ds ← someDigits kept
  if ds.head? = some '0' && ds.length != 1 then throw .malformed else pure ds

/-- Takes a fraction if there is one. -/
def fractionDigits (kept : Bool) : Reader (List Char) := do
  if (← peek?) = some '.' then
    let _ ← take
    someDigits kept
  else pure []

/-- Takes a sign if there is one, and tells whether it is a minus. -/
def exponentSign : Reader Bool := do
  let c ← peek?
  if c = some '-' || c = some '+' then
    let _ ← take
  pure (c = some '-')

/-- Takes an exponent if there is one. -/
def exponent (kept : Bool) : Reader (Option Int) := do
  let c ← peek?
  if c = some 'e' || c = some 'E' then
    let _ ← take
    let negative ← exponentSign
    let n := digitsValue (← someDigits kept)
    pure (some (if negative then -(n : Int) else n))
  else pure none

/-- Takes a number as it is written. -/
def numeral (kept : Bool) : Reader Numeral := do
  let negative := (← peek?) = some '-'
  if negative then
    let _ ← take
  let whole ← wholeDigits kept
  let hasFraction := (← peek?) = some '.'
  let fraction ← fractionDigits kept
  let exponent ← exponent kept
  pure
    { negative, whole, fraction,
      exponent := if hasFraction then some (exponent.getD 0) else exponent }

/-- The value of a number; none if it is too large. -/
def Numeral.value? (n : Numeral) : Option Datum :=
  let digits := digitsValue (n.whole ++ n.fraction)
  let rounded (exponent : Int) : Option Datum :=
    let x := Amount.ofDecimal n.negative digits (exponent - n.fraction.length)
    if x.magnitude = Amount.infiniteMagnitude then none else some (.real x)
  -- A point or an exponent makes a number a fraction, whatever its value.
  match n.exponent with
  | some exponent => rounded exponent
  | none =>
    if n.negative then
      if digits = 0 || 0x8000000000000000 < digits then rounded 0
      else some (.whole (-(digits : Int)))
    else if digits < 0x10000000000000000 then some (.whole digits)
    else rounded 0

/-- Takes a number that is kept. -/
def number : Reader Datum := do
  match (← numeral true).value? with
  | some value => pure value
  | none => throw .malformed

/-- Passes over a number. -/
def passNumber : Reader Unit := do
  let _ ← numeral false

end LedgerRules.Json
