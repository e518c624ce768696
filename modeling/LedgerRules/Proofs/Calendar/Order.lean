import LedgerRules.Proofs.Calendar.Stored
import LedgerRules.Proofs.Text.Order

/-!
# The order of stored dates

Stored dates are compared as texts. In one year they compare as what a ledger keeps of the
instants, which is a whole second. Of two years the written forms decide, and these are in the order
of the years as long as no year has a plus sign and not both have a minus sign.

## Overview

- **Layer A**: the parts of an instant, and the stored form after its year.
- **Layer B**: written years, and when they are in step with the years.
- **Layer C**: whole dates.
-/

namespace LedgerRules.Calendar

open Text

/-! ## Layer A: parts of an instant -/

/-- What follows the year in the stored form of an instant, from the month on. -/
def afterYear (t : Instant) : List Char :=
  padded 2 t.date.month ++ '-' :: (padded 2 t.date.day ++ ' ' :: (padded 2 t.hour ++
    ':' :: (padded 2 t.minute ++ ':' :: padded 2 t.writtenSecond)))

theorem storedText_eq (t : Instant) :
    storedText t = yearText t.date.year ++ '-' :: afterYear t := by
  simp [storedText, dateText, afterYear]

/-- Of two regular whole seconds in one minute the written numbers tell which is earlier. -/
theorem recorded_place_lt_iff (s t : Instant) :
    s.recorded.second * 2 + s.recorded.nano / 1000000000 <
        t.recorded.second * 2 + t.recorded.nano / 1000000000 ↔
      s.writtenSecond < t.writtenSecond := by
  have hregular : s.recorded.nano < 1000000000 ∨ s.recorded.second = 59 := s.regular_recorded
  have hregular' : t.recorded.nano < 1000000000 ∨ t.recorded.second = 59 := t.regular_recorded
  have hwritten : s.recorded.second + s.recorded.nano / 1000000000 = s.writtenSecond :=
    s.recorded_parts.2.2.2.1
  have hwritten' : t.recorded.second + t.recorded.nano / 1000000000 = t.writtenSecond :=
    t.recorded_parts.2.2.2.1
  have hsecond := s.recorded.second_lt
  have hsecond' := t.recorded.second_lt
  -- A regular instant is past its second only in the last one of a minute.
  omega

/-- What a ledger keeps of instants compares part by part, as these are written. -/
theorem recorded_lt_iff {s t : Instant} :
    s.recorded < t.recorded ↔
      s.date.year < t.date.year ∨ s.date.year = t.date.year ∧
        (s.date.month < t.date.month ∨ s.date.month = t.date.month ∧
          (s.date.day < t.date.day ∨ s.date.day = t.date.day ∧
            (s.hour < t.hour ∨ s.hour = t.hour ∧
              (s.minute < t.minute ∨ s.minute = t.minute ∧
                s.writtenSecond < t.writtenSecond)))) := by
  have hmonth := s.date.month_le
  have hmonth' := t.date.month_le
  have hday := s.date.day_le_thirtyOne
  have hday' := t.date.day_le_thirtyOne
  have hhour := s.hour_lt
  have hhour' := t.hour_lt
  have hminute := s.minute_lt
  have hminute' := t.minute_lt
  have hsecond := s.recorded.second_lt
  have hsecond' := t.recorded.second_lt
  have hnano := s.recorded.nano_lt
  have hnano' := t.recorded.nano_lt
  have hplace := recorded_place_lt_iff s t
  obtain ⟨hdate, hhours, hminutes, -, hwhole⟩ := s.recorded_parts
  obtain ⟨hdate', hhours', hminutes', -, hwhole'⟩ := t.recorded_parts
  unfold Instant.writtenNano at hwhole hwhole'
  -- The rank has room for every part.
  show s.recorded.rank < t.recorded.rank ↔ _
  simp only [Instant.rank, hdate, hhours, hminutes, hdate', hhours', hminutes']
  omega

/-- Two digits are enough for every part of an instant but its year. -/
theorem parts_lt (t : Instant) :
    t.date.month < Nat.pow 10 2 ∧ t.date.day < Nat.pow 10 2 ∧ t.hour < Nat.pow 10 2 ∧
      t.minute < Nat.pow 10 2 ∧ t.writtenSecond < Nat.pow 10 2 := by
  have hwidth : Nat.pow 10 2 = 100 := rfl
  have hmonth := t.date.month_le
  have hday := t.date.day_le_thirtyOne
  have hhour := t.hour_lt
  have hminute := t.minute_lt
  have hsecond := t.writtenSecond_le
  omega

/-- **In one year stored dates compare as what is kept of the instants.** -/
theorem afterYear_lt_iff {s t : Instant} (hyear : s.date.year = t.date.year) :
    afterYear s < afterYear t ↔ s.recorded < t.recorded := by
  obtain ⟨hmonth, hday, hhour, hminute, hsecond⟩ := parts_lt s
  obtain ⟨hmonth', hday', hhour', hminute', hsecond'⟩ := parts_lt t
  -- Field by field: each has its full width, so the first that differs decides.
  unfold afterYear
  rw [padded_append_lt_padded_append_iff (by decide) hmonth hmonth', cons_lt_cons_self_iff,
    padded_append_lt_padded_append_iff (by decide) hday hday', cons_lt_cons_self_iff,
    padded_append_lt_padded_append_iff (by decide) hhour hhour', cons_lt_cons_self_iff,
    padded_append_lt_padded_append_iff (by decide) hminute hminute', cons_lt_cons_self_iff,
    padded_lt_padded_iff (by decide) hsecond hsecond', recorded_lt_iff]
  simp [hyear]

/-! ## Layer B: years -/

/-- Two years are in step if their written forms compare as they do. -/
def InStep (y z : Int) : Prop := yearText y < yearText z ↔ y < z

theorem inStep_self (y : Int) : InStep y y :=
  iff_of_false (List.lt_irrefl _) (Int.lt_irrefl _)

theorem yearText_of_plain {y : Int} (h : 0 ≤ y ∧ y ≤ 9999) :
    yearText y = padded 4 y.toNat := if_pos h

theorem yearText_of_signed {y : Int} (h : ¬ (0 ≤ y ∧ y ≤ 9999)) :
    yearText y = (if y < 0 then '-' else '+') :: padded 4 y.natAbs := if_neg h

/-- Every digit comes after the minus sign. -/
theorem minus_lt_of_isDigit {c : Char} (h : c.isDigit = true) : '-' < c := by
  -- The minus sign is the forty-fifth character, and the digits begin with the forty-eighth.
  have hzero := (Char.isDigit_iff_toNat.mp h).1
  have hminus : '-'.toNat < '0'.toNat := by decide
  show '-'.toNat < c.toNat
  omega

/-- After its first character a written year has digits only. -/
theorem isDigit_of_yearText_append {y z : Int} {c : Char} {r : List Char}
    (h : yearText y = yearText z ++ c :: r) : c.isDigit = true := by
  -- The written year `z` is not empty, so `c` is not the first character of the year `y`.
  have hnonempty : yearText z ≠ [] := by
    unfold yearText
    split
    · exact padded_ne_nil 4 _
    · simp
  obtain ⟨d, ds, hz⟩ := List.exists_cons_of_ne_nil hnonempty
  rw [hz, List.cons_append] at h
  have hmem : c ∈ ds ++ c :: r := by simp
  by_cases hplain : 0 ≤ y ∧ y ≤ 9999
  · rw [yearText_of_plain hplain] at h
    exact isDigit_of_mem_padded (h ▸ List.mem_cons_of_mem d hmem)
  · rw [yearText_of_signed hplain] at h
    obtain ⟨-, hdigits⟩ := List.cons.inj h
    exact isDigit_of_mem_padded (hdigits ▸ hmem)

/-- Years of dates are told apart by their written forms. -/
theorem yearText_ne {d e : Date} (h : d.year ≠ e.year) : yearText d.year ≠ yearText e.year := by
  intro heq
  have hd := year_yearText d.first_le d.le_last []
  rw [heq, year_yearText e.first_le e.le_last] at hd
  exact h (Prod.mk.inj (Except.ok.inj hd)).1.symm

/-- A year with a minus sign comes before every year of four digits. -/
theorem minus_cons_lt_padded (cs : List Char) (width n : Nat) : '-' :: cs < padded width n := by
  obtain ⟨d, ds, h⟩ := List.exists_cons_of_ne_nil (padded_ne_nil width n)
  have hdigit : d.isDigit = true := isDigit_of_mem_padded (h ▸ List.mem_cons_self)
  rw [h, List.cons_lt_cons_iff]
  exact .inl (minus_lt_of_isDigit hdigit)

/-- **Years up to 9999 are in step unless both lie before year zero.** -/
theorem inStep_of_le {y z : Int} (hy : y ≤ 9999) (hz : z ≤ 9999) (hone : 0 ≤ y ∨ 0 ≤ z) :
    InStep y z := by
  have hwidth : Nat.pow 10 4 = 10000 := rfl
  unfold InStep
  by_cases hy' : 0 ≤ y
  -- Two plain years compare as padded numbers; one with a sign comes before a plain one.
  · rw [yearText_of_plain ⟨hy', hy⟩]
    by_cases hz' : 0 ≤ z
    · rw [yearText_of_plain ⟨hz', hz⟩, padded_lt_padded_iff (by decide) (by omega) (by omega)]
      omega
    · have hlater := minus_cons_lt_padded (padded 4 z.natAbs) 4 y.toNat
      rw [yearText_of_signed (by omega), if_pos (by omega)]
      exact iff_of_false (List.lt_asymm hlater) (by omega)
  · have hz' : 0 ≤ z := hone.resolve_left hy'
    rw [yearText_of_plain ⟨hz', hz⟩, yearText_of_signed (by omega), if_pos (by omega)]
    exact iff_of_true (minus_cons_lt_padded _ _ _) (by omega)

/-! ## Layer C: dates -/

/-- The stored form tells apart what a ledger keeps. -/
theorem storedText_inj {s t : Instant} :
    storedText s = storedText t ↔ s.recorded = t.recorded := by
  constructor
  · intro h
    have hread := readStored_storedText s
    rw [h, readStored_storedText] at hread
    exact (Except.ok.inj hread).symm
  · intro h
    rw [← storedText_recorded s, h, storedText_recorded t]

/-- A year decides before everything that follows it. -/
theorem recorded_lt_iff_of_year_ne {s t : Instant} (h : s.date.year ≠ t.date.year) :
    s.recorded < t.recorded ↔ s.date.year < t.date.year := by
  rw [recorded_lt_iff]
  simp [h]

/-- The written years decide where the years differ, and the time of the year where they do not. -/
theorem storedText_lt_iff_of_year_ne {s t : Instant} (h : s.date.year ≠ t.date.year) :
    storedText s < storedText t ↔ yearText s.date.year < yearText t.date.year := by
  rw [storedText_eq, storedText_eq]
  exact append_mark_lt_append_mark_iff (yearText_ne h)
    (fun c r hc => minus_lt_of_isDigit (isDigit_of_yearText_append hc))
    (fun c r hc => minus_lt_of_isDigit (isDigit_of_yearText_append hc))

/-- **Stored dates whose years are in step compare as what is kept of the instants.** -/
theorem storedText_lt_iff {s t : Instant} (h : InStep s.date.year t.date.year) :
    storedText s < storedText t ↔ s.recorded < t.recorded := by
  by_cases hyear : s.date.year = t.date.year
  · rw [storedText_eq, storedText_eq, hyear, append_lt_append_self_iff, cons_lt_cons_self_iff,
      afterYear_lt_iff hyear]
  · rw [storedText_lt_iff_of_year_ne hyear, recorded_lt_iff_of_year_ne hyear]
    exact h

/-- Stored dates whose years are not in step compare the other way round. -/
theorem storedText_lt_iff_of_not_inStep {s t : Instant}
    (h : ¬ InStep s.date.year t.date.year) :
    storedText s < storedText t ↔ t.recorded < s.recorded := by
  have hyear : s.date.year ≠ t.date.year := by
    intro heq
    exact h (heq ▸ inStep_self _)
  rw [storedText_lt_iff_of_year_ne hyear, recorded_lt_iff_of_year_ne hyear.symm]
  have horder : t.date.year < s.date.year ↔ ¬ s.date.year < t.date.year := by omega
  rw [horder]
  constructor
  · exact fun hwritten hlt => h (iff_of_true hwritten hlt)
  · exact fun hle => Classical.byContradiction fun hwritten => h (iff_of_false hwritten hle)

end LedgerRules.Calendar
