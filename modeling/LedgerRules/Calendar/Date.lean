/-!
# Calendar days

Days of the proleptic Gregorian calendar, with astronomical years: year `0` comes before year
`1`. A date carries the proof that it names a day, and its year lies within the range that the
ledger's dates have.

`Date.dayNumber` counts days from the first of January 1970; `Date.ofDayNumber?` goes back.
-/

namespace LedgerRules

/-- Whether a year has a twenty-ninth of February. -/
def isLeapYear (year : Int) : Bool :=
  year % 4 == 0 && (year % 100 != 0 || year % 400 == 0)

/-- The number of days of a month; none for a number that is no month. -/
def daysInMonth (year : Int) (month : Nat) : Nat :=
  match month with
  | 2 => if isLeapYear year then 29 else 28
  | 4 | 6 | 9 | 11 => 30
  | 1 | 3 | 5 | 7 | 8 | 10 | 12 => 31
  | _ => 0

/-- A day of the calendar. -/
structure Date where
  /-- The year. -/
  year : Int
  /-- The month, from one on. -/
  month : Nat
  /-- The day of the month, from one on. -/
  day : Nat
  /-- The first year is the first that dates can have. -/
  first_le : -262143 ≤ year
  /-- The last year is the last that dates can have. -/
  le_last : year ≤ 262142
  /-- The first day of a month is one. -/
  one_le : 1 ≤ day
  /-- The month has the day. -/
  day_le : day ≤ daysInMonth year month
deriving DecidableEq

namespace Date

/-- The day with a given year, month and day of the month, if there is one. -/
def of? (year : Int) (month day : Nat) : Option Date :=
  if h : (-262143 ≤ year ∧ year ≤ 262142) ∧ 1 ≤ day ∧ day ≤ daysInMonth year month then
    some ⟨year, month, day, h.1.1, h.1.2, h.2.1, h.2.2⟩
  else none

/-- The first of January 1970. -/
def epoch : Date := ⟨1970, 1, 1, by decide, by decide, by decide, by decide⟩

instance : Inhabited Date := ⟨epoch⟩

/-- The parts of a date make it up again. -/
@[simp] theorem of?_self (d : Date) : of? d.year d.month d.day = some d := by
  have h : (-262143 ≤ d.year ∧ d.year ≤ 262142) ∧
      1 ≤ d.day ∧ d.day ≤ daysInMonth d.year d.month :=
    ⟨⟨d.first_le, d.le_last⟩, d.one_le, d.day_le⟩
  simp only [of?, dif_pos h]

/-- There are twelve months. -/
theorem month_le (d : Date) : 1 ≤ d.month ∧ d.month ≤ 12 := by
  have h := Nat.le_trans d.one_le d.day_le
  unfold daysInMonth at h
  split at h <;> omega

/-- A month has at most thirty-one days. -/
theorem day_le_thirtyOne (d : Date) : d.day ≤ 31 := by
  refine Nat.le_trans d.day_le ?_
  unfold daysInMonth
  split
  · split <;> omega
  all_goals omega

/-- The day after, if dates reach that far. -/
def next? (d : Date) : Option Date :=
  if d.day < daysInMonth d.year d.month then of? d.year d.month (d.day + 1)
  else if d.month < 12 then of? d.year (d.month + 1) 1
  else of? (d.year + 1) 1 1

/-- The day before, if dates reach that far. -/
def previous? (d : Date) : Option Date :=
  if 1 < d.day then of? d.year d.month (d.day - 1)
  else if 1 < d.month then of? d.year (d.month - 1) (daysInMonth d.year (d.month - 1))
  else of? (d.year - 1) 12 31

/-- The days from the first of January 1970 to a date. Years are counted from March on, so that
the leap day is the last of its year. -/
def dayNumber (d : Date) : Int :=
  let year := if d.month ≤ 2 then d.year - 1 else d.year
  -- An era is a full turn of the calendar: four hundred years with 146097 days.
  let era := year.fdiv 400
  let yearOfEra := year - era * 400
  let shifted : Int := if d.month ≤ 2 then d.month + 9 else d.month - 3
  -- From March on, five months have 153 days.
  let dayOfYear := (153 * shifted + 2) / 5 + d.day - 1
  let dayOfEra := yearOfEra * 365 + yearOfEra / 4 - yearOfEra / 100 + dayOfYear
  era * 146097 + dayOfEra - 719468

/-- The date that lies a number of days after the first of January 1970. -/
def ofDayNumber? (n : Int) : Option Date :=
  let fromMarch := n + 719468
  let era := fromMarch.fdiv 146097
  let dayOfEra := fromMarch - era * 146097
  let yearOfEra :=
    (dayOfEra - dayOfEra / 1460 + dayOfEra / 36524 - dayOfEra / 146096) / 365
  let dayOfYear := dayOfEra - (365 * yearOfEra + yearOfEra / 4 - yearOfEra / 100)
  let shifted := (5 * dayOfYear + 2) / 153
  let day := dayOfYear - (153 * shifted + 2) / 5 + 1
  let month := if shifted < 10 then shifted + 3 else shifted - 9
  let year := yearOfEra + era * 400 + (if month ≤ 2 then 1 else 0)
  of? year month.toNat day.toNat

end Date

end LedgerRules
