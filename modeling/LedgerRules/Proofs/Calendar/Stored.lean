import LedgerRules.Proofs.Calendar.Written
import LedgerRules.Proofs.Outcome
import LedgerRules.Proofs.Text.Digits

/-!
# Stored dates are read back

The stored form of an instant is read as the regular instant that is written like it, without its
fraction of a second. Each part of the form has a lemma of its own, which says what its reader gives
back in front of any rest.
-/

namespace LedgerRules.Calendar

open Text

/-! ## Layer A: the parts -/

theorem head_padded_append {width n : Nat} {c : Char} {rest tail : List Char}
    (h : padded width n ++ rest = c :: tail) : c.isDigit = true := by
  cases hpadded : padded width n with
  | nil => exact absurd hpadded (padded_ne_nil width n)
  | cons d ds =>
    rw [hpadded, List.cons_append] at h
    obtain ⟨rfl, -⟩ := List.cons.inj h
    exact isDigit_of_mem_padded (hpadded ▸ List.mem_cons_self)

@[simp] theorem mark_cons (c : Char) (rest : List Char) : mark c (c :: rest) = .ok ((), rest) := by
  simp [mark]

/-- Digits that fill their width, or before something else, are read whole. -/
theorem digits_padded {most width n : Nat} (rest : List Char)
    (hmost : (padded width n).length ≤ most)
    (hstop : (padded width n).length = most ∨ ∀ c, rest.head? = some c → c.isDigit = false) :
    digits most (padded width n ++ rest) = .ok (padded width n, rest) := by
  unfold digits
  rw [takeDigits_of_forall (fun c => isDigit_of_mem_padded) hmost hstop]
  cases h : padded width n with
  | nil => exact absurd h (padded_ne_nil width n)
  | cons c cs => rfl

/-- A number of two digits is read whole, whatever follows. -/
theorem number_padded {low high n : Nat} (hlow : low ≤ n) (hhigh : n ≤ high) (hn : n < 100)
    (rest : List Char) : number 2 low high (padded 2 n ++ rest) = .ok (n, rest) := by
  have hlength : (padded 2 n).length = 2 := length_padded (by decide) hn
  unfold number
  rw [trimStart_padded_append, digits_padded _ (Nat.le_of_eq hlength) (.inl hlength)]
  simp [bind, Except.bind, hlow, hhigh]

theorem number_blank_cons {c : Char} (hc : isBlank c = true) (width low high : Nat)
    (s : List Char) : number width low high (c :: s) = number width low high s := by
  simp [number, trimStart, hc]

theorem admitYear_of_le {y : Int} (hlow : -262143 ≤ y) (hhigh : y ≤ 262142) (rest : List Char) :
    admitYear y rest = .ok (y, rest) := by
  rw [admitYear, if_pos (by omega)]

/-- A year is read up to the mark after it. -/
theorem year_yearText {y : Int} (hlow : -262143 ≤ y) (hhigh : y ≤ 262142) (rest : List Char) :
    year (yearText y ++ '-' :: rest) = .ok (y, '-' :: rest) := by
  have hstop : ∀ c, ('-' :: rest).head? = some c → c.isDigit = false := by
    rintro c ⟨⟩
    rfl
  unfold yearText
  split
  · -- Four digits: the first of them is no sign.
    rename_i hplain
    have hlength : (padded 4 y.toNat).length = 4 :=
      length_padded (by decide) (show y.toNat < 10000 by omega)
    have hread := digits_padded ('-' :: rest) (Nat.le_of_eq hlength) (.inl hlength)
    have hvalue : ((digitsValue (padded 4 y.toNat) : Nat) : Int) = y := by
      rw [digitsValue_padded]
      omega
    unfold year
    rw [trimStart_padded_append]
    split
    · rename_i hsign
      exact absurd (head_padded_append hsign) (by decide)
    · rename_i hsign
      exact absurd (head_padded_append hsign) (by decide)
    · rw [hread]
      simp only [bind, Except.bind, hvalue]
      exact admitYear_of_le hlow hhigh _
  · -- After a sign any number of digits is taken.
    rename_i hsigned
    have hroom : (padded 4 y.natAbs).length ≤ (padded 4 y.natAbs ++ '-' :: rest).length := by simp
    have hread := digits_padded ('-' :: rest) hroom (.inr hstop)
    by_cases hneg : y < 0
    · have hvalue : -((digitsValue (padded 4 y.natAbs) : Nat) : Int) = y := by
        rw [digitsValue_padded]
        omega
      have hblank : isBlank '-' = false := by decide
      simp only [hneg, if_true, year, trimStart, List.cons_append, List.dropWhile_cons, hblank,
        Bool.false_eq_true, if_false, hread, bind, Except.bind, hvalue]
      exact admitYear_of_le hlow hhigh _
    · have hvalue : ((digitsValue (padded 4 y.natAbs) : Nat) : Int) = y := by
        rw [digitsValue_padded]
        omega
      have hblank : isBlank '+' = false := by decide
      simp only [hneg, if_false, year, trimStart, List.cons_append, List.dropWhile_cons, hblank,
        Bool.false_eq_true, hread, bind, Except.bind, hvalue]
      exact admitYear_of_le hlow hhigh _

/-! ## Layer B: the whole date -/

/-- **A stored date is read back.** The fraction of a second is not stored. A leap second stays one
    at the end of its minute, and is read as the second after it everywhere else. -/
theorem readStored_storedText (t : Instant) : readStored (storedText t) = .ok t.recorded := by
  obtain ⟨hmonth, hmonth'⟩ := t.date.month_le
  have hday := t.date.day_le_thirtyOne
  have hhour := t.hour_lt
  have hminute := t.minute_lt
  have hsecond := t.writtenSecond_le
  have hblank : isBlank ' ' = true := by decide
  -- Nothing follows the seconds, so they are read with an empty rest.
  have hlast := number_padded (Nat.zero_le t.writtenSecond) hsecond (by omega) []
  rw [List.append_nil] at hlast
  unfold readStored storedText dateText
  simp only [List.append_assoc, List.cons_append, year_yearText t.date.first_le t.date.le_last,
    bind, Except.bind, mark_cons, number_padded hmonth hmonth' (by omega),
    number_padded t.date.one_le hday (by omega), number_blank_cons hblank,
    number_padded (Nat.zero_le t.hour) (show t.hour ≤ 23 by omega) (by omega),
    number_padded (Nat.zero_le t.minute) (show t.minute ≤ 59 by omega) (by omega), hlast]
  simp only [List.isEmpty_nil, Bool.not_true, Bool.false_eq_true, if_false, pure, Except.pure,
    Date.of?_self, Instant.of?_recorded]

/-- Whatever a stored date looks like, what is read is stored and read again as it is. -/
theorem recorded_of_readStored {s : List Char} {t : Instant} (h : readStored s = .ok t) :
    t.recorded = t := by
  -- Only the last step makes an instant.
  obtain ⟨⟨y, s⟩, -, h⟩ := bind_eq_ok_iff.mp h
  obtain ⟨⟨_, s⟩, -, h⟩ := bind_eq_ok_iff.mp h
  obtain ⟨⟨month, s⟩, -, h⟩ := bind_eq_ok_iff.mp h
  obtain ⟨⟨_, s⟩, -, h⟩ := bind_eq_ok_iff.mp h
  obtain ⟨⟨day, s⟩, -, h⟩ := bind_eq_ok_iff.mp h
  obtain ⟨⟨hour, s⟩, -, h⟩ := bind_eq_ok_iff.mp h
  obtain ⟨⟨_, s⟩, -, h⟩ := bind_eq_ok_iff.mp h
  obtain ⟨⟨minute, s⟩, -, h⟩ := bind_eq_ok_iff.mp h
  obtain ⟨⟨_, s⟩, -, h⟩ := bind_eq_ok_iff.mp h
  obtain ⟨⟨second, s⟩, -, h⟩ := bind_eq_ok_iff.mp h
  dsimp only at h
  split at h
  · cases h
  · split at h
    · cases h
    · split at h
      · cases h
      · rename_i ht
        cases h
        exact Instant.recorded_of_of?_zero ht

end LedgerRules.Calendar
