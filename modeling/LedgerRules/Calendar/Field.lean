import LedgerRules.Calendar.Date
import LedgerRules.Text.Blank
import LedgerRules.Text.Digits
/-!
# The parts of a written date

Written dates are read part by part: numbers of bounded width, marks between them, blanks. A
number is judged as soon as it is read; whether the day exists is judged by the reader of the
whole date.
-/

namespace LedgerRules.Calendar

open Text

/-- What is wrong with a written date. -/
inductive DateFault where
  /-- A character stands where another is expected. -/
  | invalidCharacter
  /-- The text ends too early. -/
  | tooShort
  /-- The text goes on after the date. -/
  | trailing
  /-- A number, or the day as a whole, is out of range. -/
  | outOfRange
deriving DecidableEq

/-- The wording of a fault. -/
def DateFault.message : DateFault → String
  | .invalidCharacter => "input contains invalid characters"
  | .tooShort => "premature end of input"
  | .trailing => "trailing input"
  | .outOfRange => "input is out of range"

/-- A reader of a part of a date, which gives back the rest of the text. -/
abbrev Reader (α : Type) := List Char → Except DateFault (α × List Char)

/-- Reads a mark. -/
def mark (expected : Char) : Reader Unit
  | [] => .error .tooShort
  | c :: s => if c = expected then .ok ((), s) else .error .invalidCharacter

/-- Reads one or more digits, at most `width` of them. -/
def digits (width : Nat) (s : List Char) : Except DateFault (List Char × List Char) :=
  match takeDigits width s with
  | ([], []) => .error .tooShort
  | ([], _ :: _) => .error .invalidCharacter
  | result => .ok result

/-- Reads a number of at most `width` digits within bounds, after blanks. -/
def number (width low high : Nat) (s : List Char) : Except DateFault (Nat × List Char) := do
  let (ds, rest) ← digits width (trimStart s)
  let n := digitsValue ds
  if low ≤ n ∧ n ≤ high then .ok (n, rest) else .error .outOfRange

/-- The years that a date may name before the day is judged. -/
def admitYear (year : Int) (rest : List Char) : Except DateFault (Int × List Char) :=
  if -2147483648 ≤ year ∧ year ≤ 2147483647 then .ok (year, rest) else .error .outOfRange

/-- Reads a year after blanks: up to four digits, or any number of them after a sign. -/
def year (s : List Char) : Except DateFault (Int × List Char) := do
  match trimStart s with
  | '-' :: signed =>
    let (ds, rest) ← digits signed.length signed
    admitYear (-(digitsValue ds : Int)) rest
  | '+' :: signed =>
    let (ds, rest) ← digits signed.length signed
    admitYear (digitsValue ds) rest
  | plain =>
    let (ds, rest) ← digits 4 plain
    admitYear (digitsValue ds) rest

/-- A year as it is written: four digits, or a sign and at least four. -/
def yearText (year : Int) : List Char :=
  if 0 ≤ year ∧ year ≤ 9999 then padded 4 year.toNat
  else (if year < 0 then '-' else '+') :: padded 4 year.natAbs

/-- A day as year, month and day of the month. -/
def dateText (date : Date) : List Char :=
  yearText date.year ++ '-' :: padded 2 date.month ++ '-' :: padded 2 date.day

end LedgerRules.Calendar
