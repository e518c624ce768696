import LedgerRules.Calendar.Rfc3339
import LedgerRules.Calendar.Stored

/-!
# What written instants stand for

A leap second that follows any second but the last of its minute is written as the second to come,
and so two instants may be written alike. One of them is regular: if it lies in a leap second at
all, this is the sixtieth second of its minute. Reading finds the regular one, and nothing that is
said of texts depends on which of the two was written.

## Overview

- **Layer A**: regular instants, and the regular instant that is written like a given one.
- **Layer B**: whole seconds, and where they lie in the order of time.
- **Layer C**: texts, and the instants that readers make.
-/

namespace LedgerRules

namespace Instant

/-! ## Layer A: regular instants -/

/-- An instant that lies in no leap second, or in one that is the sixtieth second of its minute. -/
def Regular (t : Instant) : Prop := t.nano < 1000000000 ∨ t.second = 59

instance (t : Instant) : Decidable t.Regular :=
  inferInstanceAs (Decidable (t.nano < 1000000000 ∨ t.second = 59))

/-- The regular instant that is written like an instant: a leap second within a minute becomes the
second after it. -/
def written (t : Instant) : Instant :=
  if h : t.second < 59 ∧ 1000000000 ≤ t.nano then
    { t with
      second := t.second + 1
      nano := t.nano - 1000000000
      second_lt := Nat.succ_lt_succ h.1
      nano_lt := Nat.lt_of_le_of_lt (Nat.sub_le _ _) t.nano_lt }
  else t

/-- A third of a second into the leap second that follows 22:56:04, which is not regular. -/
def withinMinute : Instant := { midnight Date.epoch with
  hour := 22, minute := 56, second := 4, nano := 1333333333
  hour_lt := by decide, minute_lt := by decide, second_lt := by decide, nano_lt := by decide }

/-- The second of a minute is its fifty-ninth or one before that. -/
theorem second_lt_or_eq (t : Instant) : t.second < 59 ∨ t.second = 59 := by
  have hsecond := t.second_lt
  omega

theorem written_of_regular {t : Instant} (h : t.Regular) : t.written = t := by
  refine dif_neg ?_
  rintro ⟨hsecond, hnano⟩
  -- The two ways to be regular rule out one of the conditions each.
  rcases h with h | h <;> omega

/-- An instant that is not regular is written like the second after its own. -/
theorem parts_written {t : Instant} (h : ¬ t.Regular) :
    (t.written.date = t.date ∧ t.written.hour = t.hour ∧ t.written.minute = t.minute) ∧
      t.written.second = t.second + 1 ∧ t.written.nano = t.nano - 1000000000 := by
  have hleap : t.second < 59 ∧ 1000000000 ≤ t.nano := by
    rw [Regular, not_or] at h
    exact ⟨t.second_lt_or_eq.resolve_right h.2, Nat.le_of_not_lt h.1⟩
  unfold written
  rw [dif_pos hleap]
  exact ⟨⟨rfl, rfl, rfl⟩, rfl, rfl⟩

/-- What is written like an instant is regular. -/
theorem regular_written (t : Instant) : t.written.Regular := by
  by_cases h : t.Regular
  · rwa [written_of_regular h]
  · obtain ⟨-, -, hnano⟩ := parts_written h
    have hlt := t.nano_lt
    exact .inl (by omega)

/-- Exactly the regular instants are what they are written like. -/
theorem written_eq_self_iff {t : Instant} : t.written = t ↔ t.Regular :=
  ⟨fun h => h ▸ t.regular_written, written_of_regular⟩

/-- The parts of the written form are those of the regular instant. -/
theorem written_parts (t : Instant) :
    t.written.date = t.date ∧ t.written.hour = t.hour ∧ t.written.minute = t.minute ∧
      t.written.writtenSecond = t.writtenSecond ∧ t.written.writtenNano = t.writtenNano := by
  by_cases h : t.Regular
  · rw [written_of_regular h]
    exact ⟨rfl, rfl, rfl, rfl, rfl⟩
  · obtain ⟨⟨hdate, hhour, hminute⟩, hsecond, hnano⟩ := parts_written h
    rw [Regular, not_or] at h
    have hlt := t.nano_lt
    unfold writtenSecond writtenNano
    rw [hsecond, hnano]
    -- A thousand million nanoseconds are one second more.
    exact ⟨hdate, hhour, hminute, by omega, by omega⟩

/-! ## Layer B: whole seconds -/

/-- The instant that a ledger keeps of an instant: its written form without the fraction. -/
def recorded (t : Instant) : Instant := t.written.wholeSecond

theorem recorded_of_regular {t : Instant} (h : t.Regular) : t.recorded = t.wholeSecond := by
  rw [recorded, written_of_regular h]

/-- Of an instant that is not regular a ledger keeps the start of the second after its own. -/
theorem parts_recorded {t : Instant} (h : ¬ t.Regular) :
    (t.recorded.date = t.date ∧ t.recorded.hour = t.hour ∧ t.recorded.minute = t.minute) ∧
      t.recorded.second = t.second + 1 ∧ t.recorded.nano = 0 := by
  obtain ⟨hday, hsecond, hnano⟩ := parts_written h
  have hlt := t.nano_lt
  refine ⟨hday, hsecond, ?_⟩
  show t.written.nano / 1000000000 * 1000000000 = 0
  omega

/-- Dropping the fraction makes no leap second of a second, and no second of a leap second. -/
theorem Regular.wholeSecond {t : Instant} (h : t.Regular) : t.wholeSecond.Regular := by
  refine h.imp (fun hnano => ?_) id
  show t.nano / 1000000000 * 1000000000 < 1000000000
  omega

/-- The written second says whether it is a leap second, so it stays without the fraction. -/
theorem writtenSecond_wholeSecond (t : Instant) :
    t.wholeSecond.writtenSecond = t.writtenSecond := by
  show t.second + t.nano / 1000000000 * 1000000000 / 1000000000 = t.second + t.nano / 1000000000
  omega

theorem writtenNano_wholeSecond (t : Instant) : t.wholeSecond.writtenNano = 0 := by
  show t.nano / 1000000000 * 1000000000 % 1000000000 = 0
  omega

theorem wholeSecond_wholeSecond (t : Instant) : t.wholeSecond.wholeSecond = t.wholeSecond := by
  have hnano : t.nano / 1000000000 * 1000000000 / 1000000000 * 1000000000 =
      t.nano / 1000000000 * 1000000000 := by
    omega
  simp only [Instant.wholeSecond, hnano]

theorem regular_recorded (t : Instant) : t.recorded.Regular := t.regular_written.wholeSecond

/-- What is kept is kept again. -/
theorem recorded_recorded (t : Instant) : t.recorded.recorded = t.recorded := by
  rw [recorded_of_regular t.regular_recorded]
  exact t.written.wholeSecond_wholeSecond

/-- The parts of the written form are kept, but for the fraction. -/
theorem recorded_parts (t : Instant) :
    t.recorded.date = t.date ∧ t.recorded.hour = t.hour ∧ t.recorded.minute = t.minute ∧
      t.recorded.writtenSecond = t.writtenSecond ∧ t.recorded.writtenNano = 0 := by
  obtain ⟨hdate, hhour, hminute, hsecond, -⟩ := t.written_parts
  have hsame : t.recorded.writtenSecond = t.writtenSecond :=
    t.written.writtenSecond_wholeSecond.trans hsecond
  exact ⟨hdate, hhour, hminute, hsame, t.written.writtenNano_wholeSecond⟩

/-- A second has begun at each of its instants. -/
theorem wholeSecond_le (t : Instant) : t.wholeSecond ≤ t := by
  show t.wholeSecond.rank ≤ t.rank
  simp only [rank, Instant.wholeSecond]
  omega

/-- What is kept of an instant is not before the second in which it lies. -/
theorem wholeSecond_le_recorded (t : Instant) : t.wholeSecond ≤ t.recorded := by
  by_cases h : t.Regular
  · rw [recorded_of_regular h]
    exact Int.le_refl _
  · obtain ⟨⟨hdate, hhour, hminute⟩, hsecond, hnano⟩ := parts_recorded h
    have hlt := t.nano_lt
    show t.wholeSecond.rank ≤ t.recorded.rank
    simp only [rank, Instant.wholeSecond, hdate, hhour, hminute, hsecond, hnano]
    omega

end Instant

/-! ## Layer C: texts -/

namespace Calendar

theorem rfc3339Text_written (t : Instant) : rfc3339Text t.written = rfc3339Text t := by
  obtain ⟨hdate, hhour, hminute, hsecond, hnano⟩ := t.written_parts
  rw [rfc3339Text, hdate, hhour, hminute, hsecond, hnano, rfc3339Text]

/-- What a ledger keeps of an instant is stored like the instant. -/
theorem storedText_recorded (t : Instant) : storedText t.recorded = storedText t := by
  obtain ⟨hdate, hhour, hminute, hsecond, -⟩ := t.recorded_parts
  rw [storedText, hdate, hhour, hminute, hsecond, storedText]

end Calendar

namespace Instant

/-- The written parts of an instant make up the regular one. -/
theorem of?_written (t : Instant) :
    of? t.date t.hour t.minute t.writtenSecond t.writtenNano = some t.written := by
  have hparts : (t.hour < 24 ∧ t.minute < 60) ∧ t.writtenSecond ≤ 60 ∧
      t.writtenNano < 1000000000 :=
    ⟨⟨t.hour_lt, t.minute_lt⟩, t.writtenSecond_le, t.writtenNano_lt⟩
  have hsecond := t.second_lt
  have hnano := t.nano_lt
  have hwhole : t.writtenSecond = t.second + t.nano / 1000000000 := rfl
  have hfraction : t.writtenNano = t.nano % 1000000000 := rfl
  unfold of?
  rw [dif_pos hparts]
  by_cases hleap : t.writtenSecond = 60
  · -- Only the leap second after the last second of a minute has this number.
    have hlast : t.second = 59 := by omega
    have hafter : t.writtenNano + 1000000000 = t.nano := by omega
    rw [dif_pos hleap, written_of_regular (.inr hlast)]
    exact congrArg some (Instant.ext rfl rfl rfl hlast.symm hafter)
  · rw [dif_neg hleap]
    by_cases h : t.Regular
    · have hplain : t.nano < 1000000000 := h.elim id fun hlast => by omega
      have hsame : t.writtenSecond = t.second := by omega
      have hsame' : t.writtenNano = t.nano := by omega
      rw [written_of_regular h]
      exact congrArg some (Instant.ext rfl rfl rfl hsame hsame')
    · obtain ⟨⟨hdate, hhour, hminute⟩, hnext, hrest⟩ := parts_written h
      have hstray : 1000000000 ≤ t.nano := Nat.le_of_not_lt fun hplain => h (.inl hplain)
      have hnext' : t.writtenSecond = t.written.second := by omega
      have hrest' : t.writtenNano = t.written.nano := by omega
      exact congrArg some
        (Instant.ext hdate.symm hhour.symm hminute.symm hnext' hrest')

/-- Without the fraction they make up what a ledger keeps. -/
theorem of?_recorded (t : Instant) :
    of? t.date t.hour t.minute t.writtenSecond 0 = some t.recorded := by
  -- What is kept is regular and has no fraction, so it is what its own parts make up.
  obtain ⟨hdate, hhour, hminute, hsecond, hnano⟩ := t.recorded_parts
  have hmade := t.recorded.of?_written
  rwa [hdate, hhour, hminute, hsecond, hnano, written_of_regular t.regular_recorded] at hmade

/-- Whatever parts are read, they make up a regular instant. -/
theorem regular_of_of? {date : Date} {hour minute second nano : Nat} {t : Instant}
    (h : of? date hour minute second nano = some t) : t.Regular := by
  unfold of? at h
  split at h
  · rename_i hparts
    split at h
    · cases h
      exact .inr rfl
    · cases h
      exact .inl hparts.2.2
  · cases h

/-- If no fraction is among them, it is one that a ledger keeps as it is. -/
theorem recorded_of_of?_zero {date : Date} {hour minute second : Nat} {t : Instant}
    (h : of? date hour minute second 0 = some t) : t.recorded = t := by
  rw [recorded_of_regular (regular_of_of? h)]
  unfold of? at h
  split at h
  -- With the number sixty it is a leap second, and otherwise a whole second.
  · split at h
    · cases h
      exact Instant.ext rfl rfl rfl rfl (show 1000000000 / 1000000000 * 1000000000 = _ from rfl)
    · cases h
      exact Instant.ext rfl rfl rfl rfl (show 0 / 1000000000 * 1000000000 = 0 from rfl)
  · cases h

end Instant

end LedgerRules
