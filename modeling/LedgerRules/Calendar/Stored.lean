import LedgerRules.Calendar.Field
import LedgerRules.Calendar.Instant
/-!
# Dates as a ledger stores them

The stored form is `YYYY-MM-DD HH:MM:SS`, with a sign before years that do not have four digits.
Fractions of a second are not stored. Reading accepts more than writing produces: blanks before
each number, fewer digits, and any blanks or none between day and time.
-/

namespace LedgerRules.Calendar

open Text

/-- The stored form of an instant. -/
def storedText (t : Instant) : List Char :=
  dateText t.date ++ ' ' :: padded 2 t.hour ++ ':' :: padded 2 t.minute ++
    ':' :: padded 2 t.writtenSecond

/-- Reads a stored date. Faults within the text come before those of the day as a whole. -/
def readStored (s : List Char) : Except DateFault Instant := do
  let (y, s) ← year s
  let ((), s) ← mark '-' s
  let (month, s) ← number 2 1 12 s
  let ((), s) ← mark '-' s
  let (day, s) ← number 2 1 31 s
  let (hour, s) ← number 2 0 23 s
  let ((), s) ← mark ':' s
  let (minute, s) ← number 2 0 59 s
  let ((), s) ← mark ':' s
  let (second, s) ← number 2 0 60 s
  if !s.isEmpty then throw .trailing
  match Date.of? y month day with
  | none => throw .outOfRange
  | some date =>
    match Instant.of? date hour minute second 0 with
    | none => throw .outOfRange
    | some t => pure t

end LedgerRules.Calendar
