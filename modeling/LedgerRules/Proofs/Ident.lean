import LedgerRules.Ident
import LedgerRules.Proofs.Text.Digits
import Mathlib.Data.List.Induction
import Mathlib.Data.Nat.Digits.Defs

/-!
# Identifiers in literals

A literal names an identifier if it consists, outer blanks aside, of at most one sign and digits
whose number has sixty-four bits. The number is said by the places of the digits, apart from any
way of reading it; reading digit by digit in words of sixty-four bits, up to the first overflow,
comes to the same.

## Overview

- **Layer A**: blanks around a text.
- **Layer B**: written whole numbers and the numbers that they denote.
- **Layer C**: words of sixty-four bits, and numbers read into them digit by digit.
- **Layer D**: literals.
-/

namespace LedgerRules

namespace Text

/-! ## Layer A: blanks -/

/-- Leading blanks are dropped up to the first character that is none. -/
theorem dropWhile_blanks {blanks t : List Char} (hblanks : ∀ c ∈ blanks, isBlank c = true)
    (ht : ∀ c, t.head? = some c → isBlank c = false) :
    (blanks ++ t).dropWhile isBlank = t := by
  rw [List.dropWhile_append_of_pos hblanks]
  cases t with
  | nil => rfl
  | cons c t => simp [ht c rfl]

/-- Trimming takes away the blanks around a text that has none. -/
theorem trim_append {before t after : List Char} (hbefore : ∀ c ∈ before, isBlank c = true)
    (hafter : ∀ c ∈ after, isBlank c = true) (hne : t ≠ [])
    (ht : ∀ c ∈ t, isBlank c = false) : trim (before ++ t ++ after) = t := by
  -- Seen from either end, the first character that is no blank belongs to `t`.
  have hfirst : ∀ c, (t ++ after).head? = some c → isBlank c = false := by
    intro c hc
    obtain ⟨d, ds, rfl⟩ := List.exists_cons_of_ne_nil hne
    cases hc
    exact ht _ List.mem_cons_self
  have hlast : ∀ c, t.reverse.head? = some c → isBlank c = false := fun c hc =>
    ht c (List.mem_reverse.mp (List.mem_of_mem_head? hc))
  have hafter' : ∀ c ∈ after.reverse, isBlank c = true := fun c hc =>
    hafter c (List.mem_reverse.mp hc)
  unfold trim trimStart
  rw [List.append_assoc, dropWhile_blanks hbefore hfirst, List.reverse_append,
    dropWhile_blanks hafter' hlast, List.reverse_reverse]

/-- Trimming takes away nothing but blanks. -/
theorem exists_eq_append_trim (s : List Char) : ∃ before after, s = before ++ trim s ++ after ∧
    (∀ c ∈ before, isBlank c = true) ∧ ∀ c ∈ after, isBlank c = true := by
  have hblank {t : List Char} : ∀ c ∈ t.takeWhile isBlank, isBlank c = true := fun c hc =>
    List.all_eq_true.mp List.all_takeWhile c hc
  refine ⟨s.takeWhile isBlank, ((trimStart s).reverse.takeWhile isBlank).reverse, ?_, hblank,
    fun c hc => hblank c (List.mem_reverse.mp hc)⟩
  have hend : trim s ++ ((trimStart s).reverse.takeWhile isBlank).reverse = trimStart s := by
    rw [trim, ← List.reverse_append, List.takeWhile_append_dropWhile, List.reverse_reverse]
  rw [List.append_assoc, hend, trimStart, List.takeWhile_append_dropWhile]

/-! ## Layer B: written whole numbers -/

/-- The number of a run of digits, in which each digit counts by its place. -/
def placeValue (ds : List Char) : Nat :=
  Nat.ofDigits 10 (ds.reverse.map fun c => c.toNat - '0'.toNat)

/-- One more digit moves all others up by a place. -/
theorem placeValue_concat (ds : List Char) (c : Char) :
    placeValue (ds ++ [c]) = c.toNat - '0'.toNat + 10 * placeValue ds := by
  simp [placeValue, Nat.ofDigits_cons]

/-- Adding up digits while they are read comes to the number that their places say. -/
theorem digitsValue_eq_placeValue (ds : List Char) : digitsValue ds = placeValue ds := by
  induction ds using List.reverseRecOn with
  | nil => rfl
  | append_singleton ds c ih =>
    rw [digitsValue, Nat.ofDigitChars_append, ← digitsValue, ih, placeValue_concat]
    exact Nat.add_comm _ _

/-- The whole number for which a text stands in decimal: at most one sign, then digits. -/
inductive Denotes : List Char → Int → Prop where
  /-- Digits alone. -/
  | plain {ds : List Char} (hne : ds ≠ []) (hdigits : ∀ c ∈ ds, c.isDigit = true) :
      Denotes ds (placeValue ds)
  /-- Digits after a plus sign. -/
  | plus {ds : List Char} (hne : ds ≠ []) (hdigits : ∀ c ∈ ds, c.isDigit = true) :
      Denotes ('+' :: ds) (placeValue ds)
  /-- Digits after a minus sign. -/
  | minus {ds : List Char} (hne : ds ≠ []) (hdigits : ∀ c ∈ ds, c.isDigit = true) :
      Denotes ('-' :: ds) (-(placeValue ds : Int))

/-- Digits alone are read as the number that their places say, and nothing else is. -/
theorem natural?_eq_some_iff {s : List Char} {n : Nat} :
    natural? s = some n ↔ s ≠ [] ∧ (∀ c ∈ s, c.isDigit = true) ∧ placeValue s = n := by
  -- The guard says that the text is empty or has another character.
  unfold natural?
  rw [digitsValue_eq_placeValue]
  split
  · rename_i h
    simp only [Bool.or_eq_true, List.isEmpty_iff, Bool.not_eq_true', List.all_eq_false] at h
    refine iff_of_false (by simp) ?_
    rintro ⟨hne, hdigits, -⟩
    rcases h with h | ⟨c, hc, hdigit⟩
    · exact hne h
    · exact hdigit (hdigits c hc)
  · rename_i h
    simp only [Bool.or_eq_true, List.isEmpty_iff, Bool.not_eq_true', not_or, Bool.not_eq_false,
      List.all_eq_true] at h
    constructor
    · rintro ⟨⟩
      exact ⟨h.1, h.2, rfl⟩
    · rintro ⟨-, -, rfl⟩
      rfl

/-- **Reading a whole number finds exactly the number that the text denotes.** -/
theorem integer?_eq_some_iff {s : List Char} {z : Int} : integer? s = some z ↔ Denotes s z := by
  constructor
  · intro h
    unfold integer? at h
    split at h
    -- Whatever the sign, the rest is a run of digits.
    all_goals
      obtain ⟨w, hw, rfl⟩ := Option.map_eq_some_iff.mp h
      obtain ⟨n, hn, hcast⟩ := Option.bind_eq_some_iff.mp hw
      obtain ⟨hne, hdigits, rfl⟩ := natural?_eq_some_iff.mp hn
      cases hcast
    · exact .minus hne hdigits
    · exact .plus hne hdigits
    · exact .plain hne hdigits
  · intro h
    cases h with
    | plain hne hdigits =>
      have hread := natural?_eq_some_iff.mpr ⟨hne, hdigits, rfl⟩
      unfold integer?
      -- A digit is no sign.
      split
      · exact absurd (hdigits '-' List.mem_cons_self) (by decide)
      · exact absurd (hdigits '+' List.mem_cons_self) (by decide)
      · rw [hread]
        rfl
    | plus hne hdigits =>
      rw [integer?, natural?_eq_some_iff.mpr ⟨hne, hdigits, rfl⟩]
      rfl
    | minus hne hdigits =>
      rw [integer?, natural?_eq_some_iff.mpr ⟨hne, hdigits, rfl⟩]
      rfl

theorem Denotes.ne_nil {s : List Char} {z : Int} (h : Denotes s z) : s ≠ [] := by
  cases h with
  | plain hne => exact hne
  | plus | minus => exact List.cons_ne_nil _ _

/-- A text that stands for a number has no blank in it, so that trimming does not cut into it. -/
theorem Denotes.not_blank {s : List Char} {z : Int} (h : Denotes s z) {c : Char} (hc : c ∈ s) :
    isBlank c = false := by
  cases h with
  | plain _ hdigits => exact isBlank_eq_false_of_isDigit (hdigits c hc)
  | plus _ hdigits =>
    rcases List.mem_cons.mp hc with rfl | hc
    · decide
    · exact isBlank_eq_false_of_isDigit (hdigits c hc)
  | minus _ hdigits =>
    rcases List.mem_cons.mp hc with rfl | hc
    · decide
    · exact isBlank_eq_false_of_isDigit (hdigits c hc)

/-- A whole number is written so that it is denoted. -/
theorem denotes_integer (z : Int) : Denotes (integer z) z := by
  have hne : decimal z.natAbs ≠ [] := Nat.toDigits_ne_nil
  have hdigits : ∀ c ∈ decimal z.natAbs, c.isDigit = true := fun c => isDigit_of_mem_decimal
  have hvalue : placeValue (decimal z.natAbs) = z.natAbs := by
    rw [← digitsValue_eq_placeValue]
    exact Nat.ofDigitChars_ten_toDigits
  unfold integer
  split
  · rename_i hneg
    have hminus := Denotes.minus hne hdigits
    rwa [hvalue, show -(z.natAbs : Int) = z by omega] at hminus
  · rename_i hpos
    have hplain := Denotes.plain hne hdigits
    rwa [hvalue, show (z.natAbs : Int) = z by omega] at hplain

end Text

namespace Ident

open Text

/-! ## Layer C: words of sixty-four bits -/

theorem ofInt?_toInt (i : Ident) : ofInt? i.toInt = some i := by
  rw [ofInt?, if_pos ⟨i.le_toInt, i.toInt_lt⟩, Int64.ofInt_toInt]

/-- A number is that of an identifier if the identifier has this number. -/
theorem ofInt?_eq_some_iff {z : Int} {i : Ident} : ofInt? z = some i ↔ i.toInt = z := by
  constructor
  · intro h
    unfold ofInt? at h
    split at h
    · rename_i hfits
      cases h
      exact Int64.toInt_ofInt_of_le hfits.1 hfits.2
    · cases h
  · rintro rfl
    exact ofInt?_toInt i

/-- A number is that of no identifier if it is out of range. -/
theorem ofInt?_eq_none_iff {z : Int} :
    ofInt? z = none ↔ ¬ (-0x8000000000000000 ≤ z ∧ z ≤ 0x7FFFFFFFFFFFFFFF) := by
  unfold ofInt?
  split
  · exact iff_of_false (by simp) (by omega)
  · exact iff_of_true rfl (by omega)

/-- The product, if it has sixty-four bits. -/
def times? (i j : Ident) : Option Ident :=
  if i.toBitVec.smulOverflow j.toBitVec then none else some (i * j)

/-- The sum, if it has sixty-four bits. -/
def plus? (i j : Ident) : Option Ident :=
  if i.toBitVec.saddOverflow j.toBitVec then none else some (i + j)

/-- The difference, if it has sixty-four bits. -/
def minus? (i j : Ident) : Option Ident :=
  if i.toBitVec.ssubOverflow j.toBitVec then none else some (i - j)

/-- A number with one more digit after it, if it has sixty-four bits. A negative number is counted
down, since the least number has no counterpart above zero. -/
def push? (negative : Bool) (i : Ident) (c : Char) : Option Ident :=
  let digit : Ident := .ofNat (c.toNat - '0'.toNat)
  if c.isDigit then
    (i.times? 10).bind fun tens => if negative then tens.minus? digit else tens.plus? digit
  else none

/-- A number read digit by digit, up to the first overflow. -/
def readDigits? (negative : Bool) (ds : List Char) : Option Ident :=
  if ds.isEmpty then none else ds.foldlM (push? negative) 0

/-- An identifier read digit by digit after at most one sign. -/
def readByDigits? : List Char → Option Ident
  | '-' :: ds => readDigits? true ds
  | '+' :: ds => readDigits? false ds
  | ds => readDigits? false ds

/-- A number with its sign. -/
def signed (negative : Bool) (n : Nat) : Int := if negative then -(n : Int) else n

theorem signed_add (negative : Bool) (m n : Nat) :
    signed negative (m + n) = signed negative m + signed negative n := by
  cases negative with
  | false => rfl
  | true =>
    simp only [signed, if_true]
    omega

theorem signed_mul (negative : Bool) (m : Nat) :
    signed negative (10 * m) = signed negative m * 10 := by
  cases negative <;> simp only [signed, if_true, Bool.false_eq_true, if_false] <;> omega

/-- What is too large stays so. -/
theorem ofInt?_signed_eq_none {negative : Bool} {m n : Nat} (hmn : m ≤ n)
    (h : ofInt? (signed negative m) = none) : ofInt? (signed negative n) = none := by
  rw [ofInt?_eq_none_iff] at h ⊢
  cases negative <;> simp only [signed, Bool.false_eq_true, if_false, if_true] at h ⊢ <;> omega

/-- A result that is dropped on overflow is the exact one, if that has sixty-four bits. -/
theorem checked_eq {overflow : Bool} {i : Ident} {z : Int}
    (hoverflow : overflow = true ↔ 0x8000000000000000 ≤ z ∨ z < -0x8000000000000000)
    (hexact : ¬ overflow = true → i.toBitVec.toInt = z) :
    (if overflow then none else some i) = ofInt? z := by
  split
  · rename_i h
    rw [eq_comm, ofInt?_eq_none_iff]
    have hlarge := hoverflow.mp h
    omega
  · rename_i h
    exact (ofInt?_eq_some_iff.mpr (hexact h)).symm

/-- A product in words is the exact one, if that has sixty-four bits. -/
theorem times?_eq (i j : Ident) : i.times? j = ofInt? (i.toInt * j.toInt) :=
  checked_eq (by simp [BitVec.smulOverflow]) BitVec.toInt_mul_of_not_smulOverflow

theorem plus?_eq (i j : Ident) : i.plus? j = ofInt? (i.toInt + j.toInt) :=
  checked_eq (by simp [BitVec.saddOverflow]) BitVec.toInt_add_of_not_saddOverflow

/-- A difference in words is the exact one, if that has sixty-four bits. -/
theorem minus?_eq (i j : Ident) : i.minus? j = ofInt? (i.toInt - j.toInt) :=
  checked_eq (by simp [BitVec.ssubOverflow]) BitVec.toInt_sub_of_not_ssubOverflow

/-- One digit more: the number so far moves up by a place and the digit comes to it. -/
theorem push?_eq {negative : Bool} {i : Ident} {c : Char} (hc : c.isDigit = true) :
    push? negative i c = (ofInt? (i.toInt * 10)).bind fun tens =>
      ofInt? (tens.toInt + signed negative (c.toNat - '0'.toNat)) := by
  have hdigit := (Char.isDigit_iff_toNat.mp hc).2
  have hnine : '9'.toNat - '0'.toNat = 9 := rfl
  have hvalue : (Int64.ofNat (c.toNat - '0'.toNat)).toInt = (c.toNat - '0'.toNat : Nat) :=
    Int64.toInt_ofNat_of_lt (by omega)
  have hten : (10 : Ident).toInt = 10 := rfl
  rw [push?, if_pos hc, times?_eq, hten]
  cases negative with
  | false => simp only [Bool.false_eq_true, if_false, plus?_eq, hvalue, signed]
  | true => simp only [if_true, minus?_eq, hvalue, signed, Int.sub_eq_add_neg]

/-- The step: a digit after a number that is exact, or too large, makes one that is. -/
theorem bind_push?_eq (negative : Bool) (n : Nat) {c : Char} (hc : c.isDigit = true) :
    ((ofInt? (signed negative n)).bind fun i => push? negative i c) =
      ofInt? (signed negative (c.toNat - '0'.toNat + 10 * n)) := by
  cases hn : ofInt? (signed negative n) with
  -- What was too large before the digit is too large with it.
  | none => exact (ofInt?_signed_eq_none (by omega) hn).symm
  | some i =>
    rw [Option.bind_some, push?_eq hc, ofInt?_eq_some_iff.mp hn, ← signed_mul]
    -- Ten times the number may be too large already, and then the digit does not help.
    cases htens : ofInt? (signed negative (10 * n)) with
    | none => exact (ofInt?_signed_eq_none (by omega) htens).symm
    | some tens =>
      rw [Option.bind_some, ofInt?_eq_some_iff.mp htens, ← signed_add, Nat.add_comm]

/-- The run: digits read into a word make up their number, if that has sixty-four bits. -/
theorem foldlM_push?_eq (negative : Bool) {ds : List Char} (h : ∀ c ∈ ds, c.isDigit = true) :
    ds.foldlM (push? negative) 0 = ofInt? (signed negative (placeValue ds)) := by
  -- The last digit is the last to be read, so the induction is from the end.
  induction ds using List.reverseRecOn with
  | nil => cases negative <;> rfl
  | append_singleton ds c ih =>
    have hds := ih fun d hd => h d (List.mem_append_left _ hd)
    have hc : c.isDigit = true := h c (by simp)
    rw [List.foldlM_append, hds, placeValue_concat, ← bind_push?_eq negative _ hc]
    simp

/-- Nothing is read from a text with another character among its digits. -/
theorem foldlM_push?_eq_none (negative : Bool) {ds : List Char} {c : Char} (hc : c ∈ ds)
    (hdigit : c.isDigit = false) (i : Ident) : ds.foldlM (push? negative) i = none := by
  induction ds generalizing i with
  | nil => cases hc
  | cons d ds ih =>
    rw [List.foldlM_cons]
    rcases List.mem_cons.mp hc with rfl | hc
    -- The other character is this one, or it comes later, if reading goes so far.
    · simp [push?, hdigit]
    · cases push? negative i d with
      | none => rfl
      | some j => exact ih hc j

/-- A run of digits read into a word is the number that its places say, if that has
    sixty-four bits. -/
theorem readDigits?_eq (negative : Bool) (ds : List Char) :
    readDigits? negative ds = (natural? ds).bind fun n => ofInt? (signed negative n) := by
  unfold readDigits? natural?
  by_cases hne : ds.isEmpty = true
  · simp [hne]
  · by_cases hdigits : ds.all Char.isDigit = true
    · rw [if_neg hne, foldlM_push?_eq negative (List.all_eq_true.mp hdigits),
        if_neg (by simp [hne, hdigits]), digitsValue_eq_placeValue]
      rfl
    · obtain ⟨c, hc, hdigit⟩ := List.all_eq_false.mp (Bool.eq_false_iff.mpr hdigits)
      rw [if_neg hne, foldlM_push?_eq_none negative hc (Bool.eq_false_iff.mpr hdigit),
        if_pos (by simp [hdigits])]
      rfl

/-- **Reading digit by digit in words comes to the same as reading the exact number and looking
    whether it has sixty-four bits**: no number that is too large comes out as another one. -/
theorem parse?_eq_readByDigits? (s : List Char) : parse? s = readByDigits? s := by
  unfold parse? integer?
  -- A sign is looked for in the same way by both, and the rest is a run of digits.
  split
  · rw [readByDigits?, readDigits?_eq]
    cases natural? _ <;> rfl
  · rw [readByDigits?, readDigits?_eq]
    cases natural? _ <;> rfl
  · rename_i hminus hplus
    rw [readByDigits?, readDigits?_eq]
    · cases natural? _ <;> rfl
    · exact hminus
    · exact hplus

/-! ## Layer D: literals -/

/-- The whole number for which a literal stands, outer blanks aside. -/
def LiteralDenotes (s : String) (z : Int) : Prop :=
  ∃ before t after, s.toList = before ++ t ++ after ∧
    (∀ c ∈ before ++ after, isBlank c = true) ∧ Denotes t z

/-- A literal stands for the number for which what is left after trimming stands. -/
theorem literalDenotes_iff {s : String} {z : Int} :
    LiteralDenotes s z ↔ Denotes (trim s.toList) z := by
  constructor
  · rintro ⟨before, t, after, hs, hblank, ht⟩
    rw [hs, trim_append (fun c hc => hblank c (List.mem_append_left _ hc))
      (fun c hc => hblank c (List.mem_append_right _ hc)) ht.ne_nil fun c => ht.not_blank]
    exact ht
  · intro h
    obtain ⟨before, after, hs, hbefore, hafter⟩ := exists_eq_append_trim s.toList
    refine ⟨before, trim s.toList, after, hs, fun c hc => ?_, h⟩
    exact (List.mem_append.mp hc).elim (hbefore c) (hafter c)

/-- A literal names the identifier with the number for which it stands. -/
theorem ofLiteral?_eq_some_iff {s : String} {i : Ident} :
    ofLiteral? s = some i ↔ LiteralDenotes s i.toInt := by
  rw [literalDenotes_iff, ← integer?_eq_some_iff, ofLiteral?, parse?, Option.bind_eq_some_iff]
  constructor
  · rintro ⟨z, hz, hi⟩
    rwa [ofInt?_eq_some_iff.mp hi]
  · exact fun h => ⟨i.toInt, h, ofInt?_toInt i⟩

/-- A literal names no identifier if it stands for no number that has sixty-four bits. -/
theorem ofLiteral?_eq_none_iff {s : String} :
    ofLiteral? s = none ↔ ∀ z, LiteralDenotes s z →
      ¬ (-0x8000000000000000 ≤ z ∧ z ≤ 0x7FFFFFFFFFFFFFFF) := by
  rw [ofLiteral?, parse?, Option.bind_eq_none_iff]
  refine forall_congr' fun z => ?_
  rw [literalDenotes_iff, ← integer?_eq_some_iff, ofInt?_eq_none_iff]

/-- **Literals name identifiers exactly.** A literal names the identifier for whose number it
    stands, outer blanks aside, and no identifier if it stands for no number or for one that does
    not have sixty-four bits. Reading the literal digit by digit in words of sixty-four bits finds
    the same. Every identifier in decimal with any blanks around it is read back. -/
theorem literals_name_identifiers_exactly (s : String) :
    (∀ i, ofLiteral? s = some i ↔ LiteralDenotes s i.toInt) ∧
      (ofLiteral? s = none ↔ ∀ z, LiteralDenotes s z →
        ¬ (-0x8000000000000000 ≤ z ∧ z ≤ 0x7FFFFFFFFFFFFFFF)) ∧
      ofLiteral? s = readByDigits? (trim s.toList) ∧
      ∀ i before after, (∀ c ∈ before ++ after, isBlank c = true) →
        s.toList = before ++ text i ++ after → ofLiteral? s = some i := by
  refine ⟨fun i => ofLiteral?_eq_some_iff, ofLiteral?_eq_none_iff,
    parse?_eq_readByDigits? _, ?_⟩
  intro i before after hblank hs
  exact ofLiteral?_eq_some_iff.mpr ⟨before, text i, after, hs, hblank, denotes_integer i.toInt⟩

/-- The least identifier between blanks of several kinds, and the number below it. -/
theorem literals_name_identifiers_exactly_least :
    (∀ c ∈ ['\u00A0', '\t', '\u2003'], isBlank c = true) ∧
      ofLiteral? "\u00A0-9223372036854775808\t\u2003" = some Int64.minValue ∧
      ofLiteral? "-9223372036854775809" = none := by
  have hblank : ∀ c ∈ ['\u00A0', '\t', '\u2003'], isBlank c = true :=
    List.all_eq_true.mp rfl
  refine ⟨hblank, ?_, ?_⟩
  · obtain ⟨-, -, -, hpadded⟩ :=
      literals_name_identifiers_exactly "\u00A0-9223372036854775808\t\u2003"
    exact hpadded Int64.minValue ['\u00A0'] ['\t', '\u2003'] hblank rfl
  · obtain ⟨-, -, hread, -⟩ := literals_name_identifiers_exactly "-9223372036854775809"
    rw [hread]
    rfl

end Ident

end LedgerRules
