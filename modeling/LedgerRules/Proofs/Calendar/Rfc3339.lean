import LedgerRules.Calendar.Rfc3339
import LedgerRules.Proofs.Calendar.Stored

/-!
# Dates in the form of RFC 3339 are read back

The written form of an instant is read as the regular instant that is written like it, its fraction
of a second included. The parts that stored dates do not have, the fraction and the offset, come
first.
-/

namespace LedgerRules.Calendar

open Text

/-! ## Layer A: the parts -/

theorem trimStart_cons {c : Char} (hc : isBlank c = false) (s : List Char) :
    trimStart (c :: s) = c :: s := by
  simp [trimStart, hc]

/-- A fraction of one width is read as the nanoseconds that it stands for. -/
theorem fraction_padded {width n : Nat} (hwidth : 0 < width) (hwidth' : width ≤ 9)
    (hn : n < Nat.pow 10 width) (rest : List Char) :
    fraction ('.' :: padded width n ++ 'Z' :: rest) =
      .ok (n * Nat.pow 10 (9 - width), 'Z' :: rest) := by
  have hlength : (padded width n).length = width := length_padded hwidth hn
  have hstop : ∀ c, ('Z' :: rest).head? = some c → c.isDigit = false := by
    rintro c ⟨⟩
    -- The reader takes at most nine digits and scales them to nanoseconds.
    rfl
  have hZ : Char.isDigit 'Z' = false := rfl
  simp only [fraction, List.cons_append, digits_padded _ (hlength ▸ hwidth') (.inr hstop), bind,
    Except.bind, pure, Except.pure, digitsValue_padded, hlength, List.dropWhile_cons, hZ,
    Bool.false_eq_true, if_false]

/-- The shortest exact fraction is read as the nanoseconds. -/
theorem fraction_fractionText {nano : Nat} (hnano : nano < 1000000000) (rest : List Char) :
    fraction (fractionText nano ++ 'Z' :: rest) = .ok (nano, 'Z' :: rest) := by
  unfold fractionText
  split
  · rename_i hzero
    rw [hzero]
    rfl
  · split
    · rename_i hmilli
      -- The digits that are left out are zeros, so scaling brings the number back.
      have hback : nano / 1000000 * Nat.pow 10 (9 - 3) = nano :=
        Nat.div_mul_cancel (Nat.dvd_of_mod_eq_zero hmilli)
      rw [fraction_padded (by decide) (by decide) (show nano / 1000000 < 1000 by omega), hback]
    · split
      · rename_i hmicro
        have hback : nano / 1000 * Nat.pow 10 (9 - 6) = nano :=
          Nat.div_mul_cancel (Nat.dvd_of_mod_eq_zero hmicro)
        rw [fraction_padded (by decide) (by decide) (show nano / 1000 < 1000000 by omega), hback]
      · rw [fraction_padded (by decide) (by decide) (show nano < 1000000000 from hnano)]
        exact congrArg (fun n => Except.ok (n, 'Z' :: rest)) (Nat.mul_one nano)

@[simp] theorem offset_Z_cons (rest : List Char) : offset ('Z' :: rest) = .ok (0, rest) := rfl

@[simp] theorem separator_T_cons (rest : List Char) :
    separator ('T' :: rest) = .ok ((), rest) :=
  rfl

/-- The offset of universal time itself changes nothing. -/
theorem minutesEarlier?_zero (t : Instant) : t.minutesEarlier? 0 = some t := by
  have hhour := t.hour_lt
  have hminute := t.minute_lt
  -- Nothing is taken away, so the minutes of the day stay within the day.
  have htotal : ((t.hour * 60 + t.minute - 0 : Int) % 1440).toNat = t.hour * 60 + t.minute := by
    omega
  have hhour' : (t.hour * 60 + t.minute) / 60 = t.hour := by omega
  have hminute' : (t.hour * 60 + t.minute) % 60 = t.minute := by omega
  simp only [Instant.minutesEarlier?, htotal, hhour', hminute',
    if_neg (show ¬ (t.hour * 60 + t.minute - 0 : Int) < 0 by omega),
    if_neg (show ¬ 1440 ≤ (t.hour * 60 + t.minute - 0 : Int) by omega), Option.map_some]

/-! ## Layer B: the whole date -/

/-- **A date in the form of RFC 3339 is read back**, to the nanosecond, as the regular instant that
    is written like it. -/
theorem readRfc3339_rfc3339Text (t : Instant) : readRfc3339 (rfc3339Text t) = .ok t.written := by
  obtain ⟨hmonth, hmonth'⟩ := t.date.month_le
  have hday := t.date.day_le_thirtyOne
  have hhour := t.hour_lt
  have hminute := t.minute_lt
  have hsecond := t.writtenSecond_le
  have hminus : isBlank '-' = false := by decide
  have hcolon : isBlank ':' = false := by decide
  have hZ : isBlank 'Z' = false := by decide
  -- Part after part: each reader stops at the mark that comes next.
  unfold readRfc3339 rfc3339Text dateText
  simp only [List.append_assoc, List.cons_append, year_yearText t.date.first_le t.date.le_last,
    bind, Except.bind, mark_cons, trimStart_cons hminus, trimStart_cons hcolon,
    number_padded hmonth hmonth' (by omega), number_padded t.date.one_le hday (by omega),
    separator_T_cons, number_padded (Nat.zero_le t.hour) (show t.hour ≤ 23 by omega) (by omega),
    number_padded (Nat.zero_le t.minute) (show t.minute ≤ 59 by omega) (by omega),
    number_padded (Nat.zero_le t.writtenSecond) hsecond (by omega),
    fraction_fractionText t.writtenNano_lt, trimStart_cons hZ, offset_Z_cons]
  -- What was read are the written parts, and these make up the regular instant.
  simp only [trimStart, List.dropWhile_nil, List.isEmpty_nil, Bool.not_true, Bool.false_eq_true,
    if_false, Date.of?_self, Option.bind_some, Instant.of?_written, minutesEarlier?_zero, pure,
    Except.pure]

/-! ## Layer C: the characters -/

/-- The characters with which dates are written. -/
def IsDateChar (c : Char) : Prop := c.isDigit = true ∨ c ∈ ['-', '+', 'T', ':', '.', 'Z']

theorem isDateChar_padded (width n : Nat) : ∀ c ∈ padded width n, IsDateChar c :=
  fun _ hc => .inl (isDigit_of_mem_padded hc)

theorem isDateChar_yearText (y : Int) : ∀ c ∈ yearText y, IsDateChar c := by
  unfold yearText
  split
  · exact isDateChar_padded 4 _
  · refine List.forall_mem_cons.mpr ⟨.inr ?_, isDateChar_padded 4 _⟩
    split <;> decide

theorem isDateChar_fractionText (nano : Nat) : ∀ c ∈ fractionText nano, IsDateChar c := by
  have hpoint : IsDateChar '.' := .inr (by decide)
  unfold fractionText
  split
  · exact List.forall_mem_nil _
  · split
    · exact List.forall_mem_cons.mpr ⟨hpoint, isDateChar_padded 3 _⟩
    · split
      · exact List.forall_mem_cons.mpr ⟨hpoint, isDateChar_padded 6 _⟩
      · exact List.forall_mem_cons.mpr ⟨hpoint, isDateChar_padded 9 _⟩

/-- A date in the form of RFC 3339 is written with digits and a few marks. -/
theorem isDateChar_rfc3339Text (t : Instant) : ∀ c ∈ rfc3339Text t, IsDateChar c := by
  have hminus : IsDateChar '-' := .inr (by decide)
  have hT : IsDateChar 'T' := .inr (by decide)
  have hcolon : IsDateChar ':' := .inr (by decide)
  have hZ : IsDateChar 'Z' := .inr (by decide)
  simp only [rfc3339Text, dateText, List.forall_mem_append, List.forall_mem_cons]
  exact ⟨⟨⟨⟨⟨⟨⟨isDateChar_yearText _, hminus, isDateChar_padded 2 _⟩, hminus,
    isDateChar_padded 2 _⟩, hT, isDateChar_padded 2 _⟩, hcolon, isDateChar_padded 2 _⟩, hcolon,
    isDateChar_padded 2 _⟩, isDateChar_fractionText _⟩, hZ, List.forall_mem_nil _⟩

end LedgerRules.Calendar
