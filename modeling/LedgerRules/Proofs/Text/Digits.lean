import LedgerRules.Text.Blank
import LedgerRules.Text.Digits

/-!
# Written numbers are read back

Facts about the digits that a number is written with, and about reading them off the front of a
longer text. A reader that takes digits stops where the width is used up or where no digit
follows; both ways to stop have a lemma.
-/

namespace LedgerRules.Text

/-! ## Layer A: what is written -/

theorem isDigit_of_mem_decimal {n : Nat} {c : Char} (h : c ∈ decimal n) : c.isDigit = true :=
  Nat.isDigit_of_mem_toDigits (by decide) (by decide) h

theorem isDigit_of_mem_padded {width n : Nat} {c : Char} (h : c ∈ padded width n) :
    c.isDigit = true := by
  rcases List.mem_append.mp h with h | h
  · rw [List.eq_of_mem_replicate h]
    rfl
  · exact isDigit_of_mem_decimal h

/-- Leading zeros do not count. -/
@[simp] theorem digitsValue_padded (width n : Nat) : digitsValue (padded width n) = n := by
  unfold digitsValue padded decimal
  rw [Nat.ofDigitChars_append, Nat.ofDigitChars_replicate_zero, Nat.mul_zero]
  exact Nat.ofDigitChars_ten_toDigits

theorem padded_ne_nil (width n : Nat) : padded width n ≠ [] := by
  intro h
  exact Nat.toDigits_ne_nil (List.append_eq_nil_iff.mp h).2

/-- A number of at most `width` digits fills its field exactly. -/
theorem length_padded {width n : Nat} (hwidth : 0 < width) (h : n < Nat.pow 10 width) :
    (padded width n).length = width := by
  -- The digits fill the width at most, and zeros make up for the rest.
  have hlength : (decimal n).length ≤ width :=
    (Nat.length_toDigits_le_iff (by decide) hwidth).mpr h
  simp only [padded, List.length_append, List.length_replicate]
  omega

theorem isBlank_eq_false_of_isDigit {c : Char} (h : c.isDigit = true) : isBlank c = false := by
  simp only [Char.isDigit, Bool.and_eq_true, decide_eq_true_eq] at h
  obtain ⟨hlow, hhigh⟩ := h
  have hlow' : 48 ≤ c.toNat := hlow
  have hhigh' : c.toNat ≤ 57 := hhigh
  simp only [isBlank, inRuns, blankRuns, List.any_cons, List.any_nil, Bool.or_false,
    Bool.or_eq_false_iff, Bool.and_eq_false_iff, decide_eq_false_iff_not]
  omega

/-- A text that starts with a digit has no leading blanks. -/
theorem trimStart_padded_append (width n : Nat) (rest : List Char) :
    trimStart (padded width n ++ rest) = padded width n ++ rest := by
  cases h : padded width n with
  | nil => exact absurd h (padded_ne_nil width n)
  | cons c cs =>
    have hc : c.isDigit = true := isDigit_of_mem_padded (h ▸ List.mem_cons_self)
    simp [trimStart, isBlank_eq_false_of_isDigit hc]

/-! ## Layer B: what is read -/

/-- Digits are taken until the width is used up or no digit follows. -/
theorem takeDigits_of_forall {most : Nat} {ds rest : List Char}
    (hdigits : ∀ c ∈ ds, c.isDigit = true) (hmost : ds.length ≤ most)
    (hstop : ds.length = most ∨ ∀ c, rest.head? = some c → c.isDigit = false) :
    takeDigits most (ds ++ rest) = (ds, rest) := by
  -- On the digits, as the width that is left shrinks with each.
  induction ds generalizing most with
  | nil =>
    cases most with
    | zero => cases rest <;> rfl
    | succ most =>
      -- There is room for more digits, but none follows.
      cases rest with
      | nil => rfl
      | cons c rest =>
        have hc : c.isDigit = false := hstop.elim (fun h => nomatch h) fun h => h c rfl
        simp [takeDigits, hc]
  | cons d ds ih =>
    cases most with
    | zero => exact absurd hmost (Nat.not_succ_le_zero _)
    | succ most =>
      have hd : d.isDigit = true := hdigits d List.mem_cons_self
      have hrest : takeDigits most (ds ++ rest) = (ds, rest) := by
        refine ih (fun c hc => hdigits c (List.mem_cons_of_mem _ hc)) (by simpa using hmost) ?_
        exact hstop.imp (fun h => by simpa using h) id
      simp [takeDigits, hd, hrest]

end LedgerRules.Text
