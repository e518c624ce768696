import LedgerRules.Calendar.Date
/-!
# Instants

A day and a time of day in Coordinated Universal Time, to the nanosecond. A leap second has no
number of its own: it is the second thousand million of nanoseconds of the second that it follows,
which may be any second of the day. So it comes after that second and before the next one. In
writing it takes the next number: after the fifty-ninth second of a minute that is the sixtieth,
after any other second it is the number of the second to come.

Instants are ordered by `Instant.rank`, a single number in which every part of the instant has
room for its whole range.
-/

namespace LedgerRules

/-- A moment in Coordinated Universal Time. -/
@[ext]
structure Instant where
  /-- The day. -/
  date : Date
  /-- The hour of the day. -/
  hour : Nat
  /-- The minute of the hour. -/
  minute : Nat
  /-- The second of the minute. -/
  second : Nat
  /-- The nanosecond since the second began; from a thousand million on, it lies in the leap second
  that follows. -/
  nano : Nat
  /-- A day has twenty-four hours. -/
  hour_lt : hour < 24
  /-- An hour has sixty minutes. -/
  minute_lt : minute < 60
  /-- A minute has sixty seconds. -/
  second_lt : second < 60
  /-- A second and the leap second after it have a thousand million nanoseconds each. -/
  nano_lt : nano < 2000000000
deriving DecidableEq

namespace Instant

/-- The instant with the given written parts, if they are in range. The sixtieth second of a minute
is the leap second after the fifty-ninth. -/
def of? (date : Date) (hour minute second nano : Nat) : Option Instant :=
  if h : (hour < 24 ∧ minute < 60) ∧ second ≤ 60 ∧ nano < 1000000000 then
    if hleap : second = 60 then
      some ⟨date, hour, minute, 59, nano + 1000000000, h.1.1, h.1.2, by decide, by omega⟩
    else some ⟨date, hour, minute, second, nano, h.1.1, h.1.2, by omega, by omega⟩
  else none

/-- The start of a day. -/
def midnight (date : Date) : Instant :=
  ⟨date, 0, 0, 0, 0, by decide, by decide, by decide, by decide⟩

instance : Inhabited Instant := ⟨midnight Date.epoch⟩

/-- The place of an instant in the order of time. -/
def rank (t : Instant) : Int :=
  (((((t.date.year * 13 + t.date.month) * 32 + t.date.day) * 24 + t.hour) * 60 + t.minute) * 60 +
    t.second) * 2000000000 + t.nano

instance : LE Instant := ⟨fun s t => s.rank ≤ t.rank⟩

instance : LT Instant := ⟨fun s t => s.rank < t.rank⟩

instance (s t : Instant) : Decidable (s ≤ t) := inferInstanceAs (Decidable (s.rank ≤ t.rank))

instance (s t : Instant) : Decidable (s < t) := inferInstanceAs (Decidable (s.rank < t.rank))

/-- The second of the minute as it is written. -/
def writtenSecond (t : Instant) : Nat := t.second + t.nano / 1000000000

/-- The nanosecond of the second as it is written. -/
def writtenNano (t : Instant) : Nat := t.nano % 1000000000

/-- The sixtieth is the last number that a second can have. -/
theorem writtenSecond_le (t : Instant) : t.writtenSecond ≤ 60 := by
  have hsecond := t.second_lt
  have hnano := t.nano_lt
  unfold writtenSecond
  omega

theorem writtenNano_lt (t : Instant) : t.writtenNano < 1000000000 := Nat.mod_lt _ (by decide)

/-- The same second, without its fraction. A leap second stays one. -/
def wholeSecond (t : Instant) : Instant :=
  { t with
    nano := t.nano / 1000000000 * 1000000000
    nano_lt := Nat.lt_of_le_of_lt (Nat.div_mul_le_self _ _) t.nano_lt }

/-- The instant that lies a number of minutes earlier, for less than a day. -/
def minutesEarlier? (t : Instant) (minutes : Int) : Option Instant :=
  let total : Int := t.hour * 60 + t.minute - minutes
  let timeOfDay := (total % 1440).toNat
  -- Less than a day crosses at most one midnight.
  let day :=
    if total < 0 then t.date.previous?
    else if 1440 ≤ total then t.date.next?
    else some t.date
  day.map fun date =>
    { t with
      date
      hour := timeOfDay / 60
      minute := timeOfDay % 60
      hour_lt := by omega
      minute_lt := by omega }

/-- The seconds from the start of 1970 on, leap seconds not counted. -/
def unixSeconds (t : Instant) : Int :=
  t.date.dayNumber * 86400 + t.hour * 3600 + t.minute * 60 + t.second

/-- The instant that lies a number of seconds and nanoseconds after the start of 1970. -/
def ofUnix? (seconds : Int) (nano : Nat) : Option Instant :=
  let timeOfDay := (seconds % 86400).toNat
  (Date.ofDayNumber? (seconds.fdiv 86400)).bind fun date =>
    of? date (timeOfDay / 3600) (timeOfDay / 60 % 60) (timeOfDay % 60) nano

end Instant

end LedgerRules
