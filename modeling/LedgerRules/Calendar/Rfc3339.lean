import LedgerRules.Calendar.Field
import LedgerRules.Calendar.Instant
/-!
# Dates in the form of RFC 3339

`YYYY-MM-DDTHH:MM:SS` in Coordinated Universal Time, with a fraction of three, six or nine
digits where one is needed, and a final `Z`. Years without four digits have a sign.

Reading also takes a blank for the `T`, blanks around the parts, any number of fraction digits
(those after the ninth are dropped) and an offset from universal time, which is subtracted.
-/

namespace LedgerRules.Calendar

open Text

/-- The fraction of a second in the fewest of no, three, six or nine digits that is exact. -/
def fractionText (nano : Nat) : List Char :=
  if nano = 0 then []
  else if nano % 1000000 = 0 then '.' :: padded 3 (nano / 1000000)
  else if nano % 1000 = 0 then '.' :: padded 6 (nano / 1000)
  else '.' :: padded 9 nano

/-- An instant in the form of RFC 3339. -/
def rfc3339Text (t : Instant) : List Char :=
  dateText t.date ++ 'T' :: padded 2 t.hour ++ ':' :: padded 2 t.minute ++
    ':' :: padded 2 t.writtenSecond ++ fractionText t.writtenNano ++ ['Z']

/-- Reads a fraction of a second, if there is one. -/
def fraction : List Char → Except DateFault (Nat × List Char)
  | '.' :: s => do
    let (ds, rest) ← digits 9 s
    -- Digits beyond the nanoseconds are dropped without rounding.
    pure (digitsValue ds * Nat.pow 10 (9 - ds.length), rest.dropWhile Char.isDigit)
  | s => .ok (0, s)

/-- Reads the mark between day and time. -/
def separator : Reader Unit
  | [] => .error .tooShort
  | c :: s =>
    if c = 'T' || c = 't' || c = ' ' then .ok ((), s) else .error .invalidCharacter

/-- Reads a number of exactly two digits. -/
def twoDigits : Reader Nat
  | c :: d :: s =>
    if c.isDigit && d.isDigit then .ok (digitsValue [c, d], s) else .error .invalidCharacter
  | _ => .error .tooShort

/-- Reads the hours and minutes of an offset. -/
def offsetMinutes (s : List Char) : Except DateFault (Int × List Char) := do
  let (hours, s) ← twoDigits s
  let (minutes, s) ← twoDigits (s.dropWhile fun c => c = ':' || isBlank c)
  if 59 < minutes then throw .outOfRange
  let total := hours * 60 + minutes
  if 1439 < total then throw .outOfRange
  pure (total, s)

/-- Reads an offset from universal time in minutes. -/
def offset : List Char → Except DateFault (Int × List Char)
  | [] => .error .tooShort
  | c :: s =>
    if c = 'Z' || c = 'z' then .ok (0, s)
    else if ((c :: s).take 3).map Char.toUpper = ['U', 'T', 'C'] then .ok (0, s.drop 2)
    else if c = '+' then offsetMinutes s
    else if c = '-' || c = '−' then (offsetMinutes s).map fun (m, rest) => (-m, rest)
    else .error .invalidCharacter

/-- Reads a date in the form of RFC 3339. -/
def readRfc3339 (s : List Char) : Except DateFault Instant := do
  let (y, s) ← year s
  let ((), s) ← mark '-' (trimStart s)
  let (month, s) ← number 2 1 12 s
  let ((), s) ← mark '-' (trimStart s)
  let (day, s) ← number 2 1 31 s
  let ((), s) ← separator s
  let (hour, s) ← number 2 0 23 s
  let ((), s) ← mark ':' (trimStart s)
  let (minute, s) ← number 2 0 59 s
  let ((), s) ← mark ':' (trimStart s)
  let (second, s) ← number 2 0 60 s
  let (nano, s) ← fraction s
  let (minutesEast, s) ← offset (trimStart s)
  if !(trimStart s).isEmpty then throw .trailing
  let universal := do
    let date ← Date.of? y month day
    let t ← Instant.of? date hour minute second nano
    t.minutesEarlier? minutesEast
  match universal with
  | none => throw .outOfRange
  | some t => pure t

end LedgerRules.Calendar
