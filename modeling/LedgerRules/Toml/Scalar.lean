import LedgerRules.Amount.Reading
import LedgerRules.Calendar.Date
import LedgerRules.Ident
import LedgerRules.Toml.Node
import LedgerRules.Toml.Quoted
/-!
# Single values of a document

Numbers, truth values, dates and texts. Whole numbers have sixty-four bits; other numbers are
rounded to the nearest amount and must not be too large for one.
-/

namespace LedgerRules.Toml

open Text Reader

/-! ## Numbers -/

/-- Takes a sign if there is one. -/
def sign : Reader (List Char) := do
  pure (← opt (one fun c => c = '+' || c = '-')).toList

/-- Takes decimal digits without leading zeros, after a sign if there is one. -/
def decimalDigits : Reader (List Char) := do
  let sign ← sign
  let zero : Reader (List Char) := do pure [← one (· == '0')]
  let digits ← zero <|> dividedDigits Char.isDigit
  pure (sign ++ digits)

/-- The whole number with a value, if it has sixty-four bits. -/
def wholeOf (value : Int) : Reader Node :=
  match Ident.ofInt? value with
  | some n => pure (.whole n)
  | none => failure

/-- Takes a whole number in another base, given its mark. -/
def basedWhole (mark : List Char) (base : Nat) (class? : Char → Bool) : Reader Node := do
  exactly mark
  let digits ← dividedDigits class?
  wholeOf (digits.foldl (fun n c => base * n + hexDigitValue c) 0 : Nat)

/-- Takes a whole number. -/
def whole : Reader Node :=
  let decimal : Reader Node := do
    match integer? (← decimalDigits) with
    | some value => wholeOf value
    | none => failure
  basedWhole ['0', 'x'] 16 isHexDigit <|>
    basedWhole ['0', 'o'] 8 (fun c => '0' ≤ c && c ≤ '7') <|>
    basedWhole ['0', 'b'] 2 (fun c => c = '0' || c = '1') <|> decimal

/-- Takes a fraction with its point. -/
def fractionDigits : Reader (List Char) := do
  exactly ['.']
  let digits ← dividedDigits Char.isDigit
  pure ('.' :: digits)

/-- Takes an exponent with its letter. -/
def exponentDigits : Reader (List Char) := do
  let letter ← one fun c => c = 'e' || c = 'E'
  let sign ← sign
  let digits ← dividedDigits Char.isDigit
  pure (letter :: sign ++ digits)

/-- The number that a text denotes, if it is not too large above zero. -/
def realOf (text : List Char) : Reader Node :=
  match Amount.parse? text with
  | some x =>
    if x.magnitude = Amount.infiniteMagnitude && !x.negative then failure else pure (.real x)
  | none => failure

/-- Takes a number with a fraction or an exponent. -/
def fractional : Reader Node := do
  let whole ← decimalDigits
  match ← opt fractionDigits with
  | some fraction => realOf (whole ++ fraction ++ ((← opt exponentDigits).getD []))
  | none => realOf (whole ++ (← exponentDigits))

/-- Takes an infinity or a NaN. -/
def special : Reader Node := do
  let negative := (← sign) == ['-']
  let infinity : Reader Node := do
    exactly ['i', 'n', 'f']
    pure (.real (Amount.ofMagnitude negative Amount.infiniteMagnitude))
  let notANumber : Reader Node := do
    exactly ['n', 'a', 'n']
    pure (.real (Amount.notANumber negative))
  infinity <|> notANumber

/-! ## Dates and times -/

/-- Takes a number of two digits within bounds. -/
def twoDigits (low high : Nat) : Reader Nat := do
  let n := digitsValue (← count Char.isDigit 2)
  if low ≤ n && n ≤ high then pure n else failure

/-- Takes a day that the calendar has. -/
def day : Reader Unit := do
  let year := digitsValue (← count Char.isDigit 4)
  exactly ['-']
  let month ← twoDigits 1 12
  exactly ['-']
  let dayOfMonth ← twoDigits 1 31
  if dayOfMonth ≤ daysInMonth year month then pure () else failure

/-- Takes a time of day. -/
def timeOfDay : Reader Unit := do
  let _ ← twoDigits 0 23
  exactly [':']
  let _ ← twoDigits 0 59
  exactly [':']
  let _ ← twoDigits 0 60
  let fraction : Reader Unit := do
    exactly ['.']
    let _ ← run1 Char.isDigit
  let _ ← opt fraction

/-- Takes an offset from universal time. -/
def offset : Reader Unit :=
  let universal : Reader Unit := do let _ ← one fun c => c = 'Z' || c = 'z'
  let numeric : Reader Unit := do
    let _ ← one fun c => c = '+' || c = '-'
    let _ ← twoDigits 0 23
    exactly [':']
    let _ ← twoDigits 0 59
  universal <|> numeric

/-- Takes a day, a time, or a day with a time. -/
def moment : Reader Node := do
  let timeOfThatDay : Reader Unit := do
    let _ ← one fun c => c = 'T' || c = 't' || c = ' '
    timeOfDay
    let _ ← opt offset
  let datedMoment : Reader Unit := do
    day
    let _ ← opt timeOfThatDay
  datedMoment <|> timeOfDay
  pure .moment

/-! ## All single values -/

/-- Takes a truth value. -/
def flag : Reader Node :=
  let yes : Reader Node := do
    exactly "true".toList
    pure (.flag true)
  let no : Reader Node := do
    exactly "false".toList
    pure (.flag false)
  yes <|> no

/-- Takes a single value. -/
def scalar : Reader Node :=
  let text : Reader Node := do pure (.text (String.ofList (← quoted)))
  -- A number is tried in its longest form first.
  text <|> flag <|> moment <|> fractional <|> special <|> whole

end LedgerRules.Toml
