import LedgerRules.Json.Printer
import LedgerRules.Json.Shape
import LedgerRules.Proofs.Calendar.Rfc3339
import LedgerRules.Proofs.Json.Reader

/-!
# Values without parts are read back

A value without parts is read wherever it is written, up to the first character that could not
belong to a number. A moment is read as the text that stands for it; which kind of value is expected
decides what a text means.

## Overview

- **Layer A**: whole numbers.
- **Layer B**: all values without parts.
- **Layer C**: kinds of values.
-/

namespace LedgerRules.Json

open Reader Text

/-! ## Layer A: whole numbers -/

/-- What may stand after a number: nothing that would go on with it. -/
def Apart (rest : List Char) : Prop :=
  ∀ c, rest.head? = some c → c.isDigit = false ∧ c ≠ '.' ∧ c ≠ 'e' ∧ c ≠ 'E'

/-- Only zero starts with a zero. -/
theorem head?_decimal {n : Nat} (hn : 0 < n) : (decimal n).head? ≠ some '0' := by
  -- The first digit is that of the tenth part, unless there is only one.
  induction n using Nat.strongRecOn with
  | ind n ih =>
    unfold decimal
    by_cases hsmall : n < 10
    · rw [Nat.toDigits_of_lt_base hsmall]
      intro h
      have hzero := Nat.digitChar_eq_zero.mp (Option.some.inj h)
      omega
    · rw [Nat.toDigits_of_base_le (by decide) (by omega)]
      have hhead := ih (n / 10) (by omega) (by omega)
      cases hlead : decimal (n / 10) with
      | nil => exact absurd hlead Nat.toDigits_ne_nil
      | cons c cs =>
        rw [hlead] at hhead
        rw [show Nat.toDigits 10 (n / 10) = c :: cs from hlead]
        exact hhead

/-- Digits are taken up to a character that cannot go on with them. -/
theorem digits_append {ds rest : List Char} (hds : ∀ c ∈ ds, c.isDigit = true)
    (hrest : Apart rest) : digits (ds ++ rest) = .ok (ds, rest) := by
  have htail : rest.takeWhile Char.isDigit = [] ∧ rest.dropWhile Char.isDigit = rest := by
    cases rest with
    | nil => exact ⟨rfl, rfl⟩
    | cons c rest => simp [(hrest c rfl).1]
  rw [digits, List.takeWhile_append_of_pos hds, List.dropWhile_append_of_pos hds, htail.1, htail.2,
    List.append_nil]

/-- The digits of a number are taken whole. -/
theorem wholeDigits_decimal (n : Nat) {rest : List Char} (hrest : Apart rest) :
    wholeDigits true (decimal n ++ rest) = .ok (decimal n, rest) := by
  have hdigits := digits_append (fun c (hc : c ∈ decimal n) => isDigit_of_mem_decimal hc) hrest
  have hne : (decimal n).isEmpty = false := by
    simp [decimal, Nat.toDigits_ne_nil]
  have hsome : someDigits true (decimal n ++ rest) = .ok (decimal n, rest) := by
    rw [someDigits, bind_eq hdigits]
    simp [hne]
  have hzero : ((decimal n).head? = some '0' && (decimal n).length != 1) = false := by
    rcases Nat.eq_zero_or_pos n with rfl | hn
    · rfl
    · simp [head?_decimal hn]
  rw [wholeDigits, bind_eq hsome]
  simp [hzero]

theorem fractionDigits_apart {rest : List Char} (hrest : Apart rest) :
    fractionDigits true rest = .ok ([], rest) := by
  rw [fractionDigits, bind_eq (peek?_eq rest), if_neg, pure_eq]
  exact fun h => (hrest _ h).2.1 rfl

theorem exponent_apart {rest : List Char} (hrest : Apart rest) :
    exponent true rest = .ok (none, rest) := by
  have hmark : ¬ ((rest.head? = some 'e' || rest.head? = some 'E') = true) := by
    rw [Bool.or_eq_true, decide_eq_true_eq, decide_eq_true_eq]
    rintro (h | h)
    · exact (hrest _ h).2.2.1 rfl
    · exact (hrest _ h).2.2.2 rfl
  rw [exponent, bind_eq (peek?_eq rest), if_neg hmark, pure_eq]

theorem head?_decimal_append_ne (n : Nat) (rest : List Char) :
    (decimal n ++ rest).head? ≠ some '-' := by
  cases h : decimal n with
  | nil => exact absurd h Nat.toDigits_ne_nil
  | cons c cs =>
    have hc : c.isDigit = true := isDigit_of_mem_decimal (h ▸ List.mem_cons_self)
    rintro ⟨⟩
    exact absurd hc (by decide)

/-- A whole number is taken with its sign, up to a character that cannot go on with it. -/
theorem numeral_integer (z : Int) {rest : List Char} (hrest : Apart rest) :
    numeral true (integer z ++ rest) =
      .ok (⟨decide (z < 0), decimal z.natAbs, [], none⟩, rest) := by
  have hpoint : ¬ rest.head? = some '.' := fun h => (hrest _ h).2.1 rfl
  unfold numeral
  rw [bind_eq (peek?_eq _)]
  -- The two cases are the two texts of a number: with a minus sign and without a sign.
  by_cases hneg : z < 0
  · have htext : integer z ++ rest = '-' :: (decimal z.natAbs ++ rest) := by
      simp [integer, hneg]
    have hsign : ('-' :: (decimal z.natAbs ++ rest)).head? = some '-' := rfl
    rw [htext, if_pos hsign, bind_eq (take_cons '-' _)]
    dsimp only
    rw [bind_eq (wholeDigits_decimal _ hrest), bind_eq (peek?_eq rest),
      bind_eq (fractionDigits_apart hrest), bind_eq (exponent_apart hrest), pure_eq]
    simp [hneg, hpoint]
  · have htext : integer z ++ rest = decimal z.natAbs ++ rest := by
      simp [integer, hneg]
    have hsign : ¬ (decimal z.natAbs ++ rest).head? = some '-' := head?_decimal_append_ne _ _
    rw [htext, if_neg hsign]
    dsimp only
    rw [bind_eq (wholeDigits_decimal _ hrest), bind_eq (peek?_eq rest),
      bind_eq (fractionDigits_apart hrest), bind_eq (exponent_apart hrest), pure_eq]
    simp only [hneg, hpoint, hsign, decide_false, if_false]

/-- **A whole number is read back** as long as it has sixty-four bits with or without a sign. -/
theorem number_integer {z : Int} (hlow : -0x8000000000000000 ≤ z) (hhigh : z < 0x10000000000000000)
    {rest : List Char} (hrest : Apart rest) :
    number (integer z ++ rest) = .ok (.whole z, rest) := by
  have hvalue : digitsValue (decimal z.natAbs ++ []) = z.natAbs := by
    rw [List.append_nil]
    exact Nat.ofDigitChars_ten_toDigits
  -- With a minus sign sixty-three bits are left, and there is no negative zero.
  have hread : Numeral.value? ⟨decide (z < 0), decimal z.natAbs, [], none⟩ = some (.whole z) := by
    simp only [Numeral.value?, hvalue]
    by_cases hneg : z < 0
    · have hfits : ¬ ((z.natAbs = 0 || 0x8000000000000000 < z.natAbs) = true) := by
        simp only [Bool.or_eq_true, decide_eq_true_eq]
        omega
      rw [if_pos (decide_eq_true hneg), if_neg hfits, show -(z.natAbs : Int) = z by omega]
    · rw [if_neg (by simpa using hneg), if_pos (by omega), show (z.natAbs : Int) = z by omega]
  rw [number, bind_eq (numeral_integer z hrest)]
  simp only [hread, pure_eq]

/-! ## Layer B: values without parts -/

/-- A value without parts that is written exactly. -/
inductive Plain : Datum → Prop where
  /-- Nothing. -/
  | null : Plain .null
  /-- A truth value. -/
  | flag (b : Bool) : Plain (.flag b)
  /-- A whole number of sixty-four bits, with or without a sign. -/
  | whole {z : Int} (hlow : -0x8000000000000000 ≤ z) (hhigh : z < 0x10000000000000000) :
      Plain (.whole z)
  /-- A text. -/
  | text (s : String) : Plain (.text s)
  /-- A moment. -/
  | moment (t : Instant) : Plain (.moment t)

/-- What is read where no kind of value is expected: a moment is a text. -/
def unshaped : Datum → Datum
  | .moment t => .text (String.ofList (Calendar.rfc3339Text t))
  | d => d

theorem exists_integer_eq_cons (z : Int) :
    ∃ c s, integer z = c :: s ∧ (c = '-' ∨ c.isDigit = true) := by
  unfold integer
  split
  · exact ⟨_, _, rfl, .inl rfl⟩
  · cases h : decimal z.natAbs with
    | nil => exact absurd h Nat.toDigits_ne_nil
    | cons c cs =>
      exact ⟨c, cs, rfl, .inr (isDigit_of_mem_decimal (h ▸ List.mem_cons_self))⟩

theorem writeAt_of_plain {d : Datum} (hd : Plain d) (layout : Layout) (depth : Nat) :
    writeAt layout depth d = writeSingle d := by
  cases hd <;> simp [writeAt]

theorem escaped_of_isDateChar {c : Char} (hc : Calendar.IsDateChar c) : escaped c = [c] := by
  rcases hc with hdigit | hmark
  · obtain ⟨hlow, hhigh⟩ := Char.isDigit_iff_toNat.mp hdigit
    have hlow' : 48 ≤ c.toNat := hlow
    have hhigh' : c.toNat ≤ 57 := hhigh
    -- A digit is none of the characters with an escape.
    have hne (e : Char) (he : e.toNat < 48 ∨ 57 < e.toNat) : c ≠ e := by
      rintro rfl
      omega
    simp only [escaped, hne '"' (by decide), hne '\\' (by decide), hne '\x08' (by decide),
      hne '\x0c' (by decide), hne '\n' (by decide), hne '\r' (by decide), hne '\t' (by decide),
      if_false, if_neg (show ¬ c.toNat < 0x20 by omega)]
  · simp only [List.mem_cons, List.not_mem_nil, or_false] at hmark
    rcases hmark with rfl | rfl | rfl | rfl | rfl | rfl <;> rfl

/-- A moment is written as a text. -/
theorem writeSingle_moment (t : Instant) :
    writeSingle (.moment t) = quote (String.ofList (Calendar.rfc3339Text t)) := by
  have hescape : (Calendar.rfc3339Text t).flatMap escaped = Calendar.rfc3339Text t := by
    have hall : ∀ c ∈ Calendar.rfc3339Text t, escaped c = [c] := fun c hc =>
      escaped_of_isDateChar (Calendar.isDateChar_rfc3339Text t c hc)
    rw [List.flatMap_def, List.map_congr_left hall, ← List.flatMap_def, List.flatMap_singleton']
  rw [quote, String.toList_ofList, hescape]
  rfl

theorem plain_word {word : List Char} {d : Datum} {c : Char} {cs : List Char}
    (hword : word = c :: cs)
    (hplain : ∀ s, plain true (c :: s) = (expectRest word >>= fun _ => pure d) (c :: s))
    (rest : List Char) : plain true (word ++ rest) = .ok (d, rest) := by
  have hread := bind_eq (expectRest_append word rest) fun _ => (pure d : Reader Datum)
  subst hword
  rw [List.cons_append, hplain]
  exact hread

theorem plain_quote (s : String) (rest : List Char) :
    plain true (quote s ++ rest) = .ok (.text s, rest) := by
  have hread := bind_eq (text_quote s rest) fun s => (pure (.text s) : Reader Datum)
  exact hread

theorem plain_number {c : Char} (hc : c = '-' ∨ c.isDigit = true) (s : List Char) :
    plain true (c :: s) = number (c :: s) := by
  have hnumber : (decide (c = '-') || c.isDigit) = true := by
    simpa only [Bool.or_eq_true, decide_eq_true_eq] using hc
  rw [plain, bind_eq (peek_cons c s)]
  -- The other cases are the characters with which words and texts begin.
  split
  case h_5 => rw [if_pos hnumber, if_pos rfl]
  all_goals exact absurd hnumber (by decide)

/-- **A value without parts is read back**, a moment as its text. -/
theorem plain_writeSingle {d : Datum} (hd : Plain d) {rest : List Char} (hrest : Apart rest) :
    plain true (writeSingle d ++ rest) = .ok (unshaped d, rest) := by
  cases hd with
  | null => exact plain_word rfl (fun _ => rfl) rest
  | flag b =>
    cases b with
    | false => exact plain_word rfl (fun _ => rfl) rest
    | true => exact plain_word rfl (fun _ => rfl) rest
  | @whole z hlow hhigh =>
    obtain ⟨c, cs, hz, hc⟩ := exists_integer_eq_cons z
    have hread := number_integer hlow hhigh hrest
    have hwrite : writeSingle (.whole z) = c :: cs := hz
    rw [hz, List.cons_append] at hread
    rw [hwrite, List.cons_append, plain_number hc]
    exact hread
  | text s => exact plain_quote s rest
  | moment t =>
    rw [writeSingle_moment]
    exact plain_quote _ rest

/-- A character with which a value without parts may begin. -/
def Starts (c : Char) : Prop := c ∈ ['n', 't', 'f', '"', '-'] ∨ c.isDigit = true

/-- A character with which a value may begin is none that is no such character. -/
theorem Starts.ne {c e : Char} (hc : Starts c) (he : e ∉ ['n', 't', 'f', '"', '-'])
    (hdigit : e.isDigit = false) : c ≠ e := by
  rintro rfl
  rcases hc with hc | hc
  · exact he hc
  · rw [hdigit] at hc
    cases hc

theorem Starts.isSpace_eq_false {c : Char} (hc : Starts c) : isSpace c = false := by
  simp only [isSpace, Bool.or_eq_false_iff, decide_eq_false_iff_not]
  exact ⟨⟨⟨hc.ne (by decide) rfl, hc.ne (by decide) rfl⟩, hc.ne (by decide) rfl⟩,
    hc.ne (by decide) rfl⟩

theorem exists_writeSingle_eq_cons {d : Datum} (hd : Plain d) :
    ∃ c s, writeSingle d = c :: s ∧ Starts c := by
  cases hd with
  | null => exact ⟨_, _, rfl, .inl (by decide)⟩
  | flag b => cases b <;> exact ⟨_, _, rfl, .inl (by decide)⟩
  | @whole z =>
    obtain ⟨c, s, hz, hc⟩ := exists_integer_eq_cons z
    refine ⟨c, s, hz, hc.imp ?_ id⟩
    rintro rfl
    decide
  | text s => exact ⟨_, _, rfl, .inl (by decide)⟩
  | moment t => exact ⟨_, _, rfl, .inl (by decide)⟩

/-- A value without parts is kept as it is read where nothing is known about it. -/
theorem anything_writeSingle {d : Datum} (hd : Plain d) {gap rest : List Char} (hgap : IsGap gap)
    (hrest : Apart rest) (levels : Nat) :
    anything true levels (gap ++ (writeSingle d ++ rest)) = .ok (unshaped d, rest) := by
  -- The value opens no list or record, so it does not matter how many levels are left.
  obtain ⟨c, s, hwrite, hc⟩ := exists_writeSingle_eq_cons hd
  have hread := plain_writeSingle hd hrest
  rw [hwrite, List.cons_append] at hread ⊢
  have hpeek := peekPart_gap_cons hgap hc.isSpace_eq_false (s ++ rest)
  cases levels with
  | zero =>
    rw [anything, bind_eq hpeek]
    exact hread
  | succ levels =>
    rw [anything, bind_eq hpeek]
    split
    · exact absurd rfl (hc.ne (e := '[') (by decide) rfl)
    · exact absurd rfl (hc.ne (e := '{') (by decide) rfl)
    · exact hread

/-! ## Layer C: kinds of values -/

/-- The values of a kind. -/
inductive Single.Holds : Single → Datum → Prop where
  /-- A whole number within the bounds. -/
  | whole {low high z : Int} (hlow : low ≤ z) (hhigh : z ≤ high) :
      Holds (.whole low high) (.whole z)
  /-- A truth value. -/
  | flag (b : Bool) : Holds .flag (.flag b)
  /-- A text. -/
  | text (s : String) : Holds .text (.text s)
  /-- A moment that has a text of its own. -/
  | moment {t : Instant} (ht : t.Regular) : Holds .moment (.moment t)
  /-- One of the words. -/
  | word {words : List String} {w : String} (hw : w ∈ words) : Holds (.word words) (.text w)

/-- A value of a kind is found again in what is read. -/
theorem Single.Holds.interpret {kind : Single} {d : Datum} (h : kind.Holds d) :
    kind.interpret (unshaped d) = some d := by
  cases h with
  | whole hlow hhigh => exact if_pos ⟨hlow, hhigh⟩
  | flag | text => rfl
  | moment ht =>
    simp only [unshaped, Single.interpret, String.toList_ofList, Calendar.readRfc3339_rfc3339Text,
      Instant.written_of_regular ht]
  | word hw => exact if_pos (List.contains_iff_mem.mpr hw)

/-- The first character of a value of a kind is one by which the kind is expected. -/
theorem Single.Holds.opens {kind : Single} {d : Datum} (h : kind.Holds d) {c : Char}
    {s : List Char} (hwrite : writeSingle d = c :: s) : kind.opens c = true := by
  cases h with
  | @whole low high z =>
    obtain ⟨c', s', hz, hc⟩ := exists_integer_eq_cons z
    obtain ⟨rfl, -⟩ := List.cons.inj (hz.symm.trans hwrite)
    simpa only [Single.opens, Bool.or_eq_true, decide_eq_true_eq] using hc
  | flag b =>
    cases b <;> obtain ⟨rfl, -⟩ := List.cons.inj hwrite <;> rfl
  | text | moment | word =>
    obtain ⟨rfl, -⟩ := List.cons.inj hwrite
    rfl

/-- **A value of a kind is read back where the kind is expected.** -/
theorem single_writeSingle {kind : Single} {d : Datum} (hd : Plain d) (hkind : kind.Holds d)
    {gap rest : List Char} (hgap : IsGap gap) (hrest : Apart rest) (levels : Nat) :
    single kind levels (gap ++ (writeSingle d ++ rest)) = .ok (d, rest) := by
  obtain ⟨c, s, hwrite, hc⟩ := exists_writeSingle_eq_cons hd
  have hread := plain_writeSingle hd hrest
  have hdemand : demand kind (unshaped d) rest = .ok (d, rest) := by
    simp only [demand, hkind.interpret, pure_eq]
  -- The first character decides whether the kind is tried, and then the whole value is read.
  rw [hwrite, List.cons_append] at hread ⊢
  have hpeek := peekPart_gap_cons hgap hc.isSpace_eq_false (s ++ rest)
  rw [single, bind_eq hpeek, if_pos (hkind.opens hwrite), bind_eq hread]
  exact hdemand

end LedgerRules.Json
