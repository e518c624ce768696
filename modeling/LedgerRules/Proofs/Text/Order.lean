import LedgerRules.Proofs.Text.Digits

/-!
# The order of written numbers

Texts are compared character by character. Fields of one width that follow each other are compared
field by field, and numbers that fill fields of one width compare as texts the way they compare as
numbers.
-/

namespace LedgerRules.Text

/-! ## Layer A: fields -/

/-- Fields of one width decide first, and what follows them decides where they are the same. -/
theorem append_lt_append_iff {xs ys zs ws : List Char} (h : xs.length = ys.length) :
    xs ++ zs < ys ++ ws ↔ xs < ys ∨ xs = ys ∧ zs < ws := by
  -- On the field; its first character decides, or the rest of the field and what follows.
  induction xs generalizing ys with
  | nil =>
    obtain rfl := List.length_eq_zero_iff.mp h.symm
    simp
  | cons x xs ih =>
    cases ys with
    | nil => cases h
    | cons y ys =>
      rw [List.cons_append, List.cons_append, List.cons_lt_cons_iff, List.cons_lt_cons_iff,
        ih (Nat.succ.inj h), List.cons.injEq]
      constructor
      · rintro (hlt | ⟨rfl, hlt | ⟨rfl, hlt⟩⟩)
        · exact .inl (.inl hlt)
        · exact .inl (.inr ⟨rfl, hlt⟩)
        · exact .inr ⟨⟨rfl, rfl⟩, hlt⟩
      · rintro ((hlt | ⟨rfl, hlt⟩) | ⟨⟨rfl, rfl⟩, hlt⟩)
        · exact .inl hlt
        · exact .inr ⟨rfl, .inl hlt⟩
        · exact .inr ⟨rfl, .inr ⟨rfl, hlt⟩⟩

/-- The same text in front decides nothing. -/
theorem append_lt_append_self_iff (xs : List Char) {zs ws : List Char} :
    xs ++ zs < xs ++ ws ↔ zs < ws := by
  rw [append_lt_append_iff rfl]
  constructor
  · rintro (hlt | ⟨-, hlt⟩)
    · exact absurd hlt (List.lt_irrefl xs)
    · exact hlt
  · exact fun hlt => .inr ⟨rfl, hlt⟩

theorem cons_lt_cons_self_iff {c : Char} {xs ys : List Char} : c :: xs < c :: ys ↔ xs < ys :=
  append_lt_append_self_iff [c]

/-- Before a mark that comes before all digits, a text that ends counts as smaller than one that
    goes on with a digit, as it does at the end of a text. -/
theorem append_mark_lt_append_mark_iff {mark : Char} {xs ys zs ws : List Char} (hne : xs ≠ ys)
    (hxs : ∀ c r, xs = ys ++ c :: r → mark < c) (hys : ∀ c r, ys = xs ++ c :: r → mark < c) :
    xs ++ mark :: zs < ys ++ mark :: ws ↔ xs < ys := by
  induction xs generalizing ys with
  | nil =>
    cases ys with
    | nil => exact absurd rfl hne
    | cons y ys =>
      -- The shorter text has ended: the mark stands against a digit.
      have hmark : mark < y := hys y ys rfl
      rw [List.nil_append, List.cons_append, List.cons_lt_cons_iff]
      exact ⟨fun _ => List.nil_lt_cons y ys, fun _ => .inl hmark⟩
  | cons x xs ih =>
    cases ys with
    | nil =>
      -- The same with the two texts exchanged.
      have hmark : mark < x := hxs x xs rfl
      rw [List.nil_append, List.cons_append, List.cons_lt_cons_iff]
      constructor
      · rintro (hlt | ⟨rfl, -⟩)
        · exact absurd hlt (Char.lt_asymm hmark)
        · exact absurd hmark (Char.lt_irrefl _)
      · exact fun hlt => absurd hlt (List.not_lt_nil _)
    | cons y ys =>
      rw [List.cons_append, List.cons_append, List.cons_lt_cons_iff, List.cons_lt_cons_iff]
      refine or_congr Iff.rfl (and_congr_right ?_)
      rintro rfl
      refine ih (fun h => hne (by rw [h])) (fun c r h => hxs c r ?_) (fun c r h => hys c r ?_)
      · rw [h, List.cons_append]
      · rw [h, List.cons_append]

/-! ## Layer B: numbers -/

/-- The leading digit counts as often as the digits after it have values. -/
theorem digitsValue_cons (c : Char) (cs : List Char) :
    digitsValue (c :: cs) =
      Nat.pow 10 cs.length * (c.toNat - '0'.toNat) + digitsValue cs := by
  rw [digitsValue, Nat.ofDigitChars_cons, Nat.mul_zero, Nat.zero_add,
    Nat.ofDigitChars_eq_ofDigitChars_zero]
  rfl

theorem digitsValue_lt {ds : List Char} (h : ∀ c ∈ ds, c.isDigit = true) :
    digitsValue ds < Nat.pow 10 ds.length := by
  -- The digits after the first make up less than one of its units.
  induction ds with
  | nil => exact Nat.one_pos
  | cons c cs ih =>
    have hrest := ih fun d hd => h d (List.mem_cons_of_mem _ hd)
    have hc := (Char.isDigit_iff_toNat.mp (h c List.mem_cons_self)).2
    have hnine : '9'.toNat - '0'.toNat = 9 := rfl
    have hdigit : c.toNat - '0'.toNat ≤ 9 := by omega
    have hlead := Nat.mul_le_mul_left (Nat.pow 10 cs.length) hdigit
    have hpow : Nat.pow 10 (c :: cs).length = Nat.pow 10 cs.length * 10 := rfl
    rw [digitsValue_cons, hpow]
    omega

/-- A leading part decides, and the rest where the leading parts are the same. -/
theorem mul_add_lt_mul_add_iff {unit a b v w : Nat} (hv : v < unit) (hw : w < unit) :
    unit * a + v < unit * b + w ↔ a < b ∨ a = b ∧ v < w := by
  -- Either leading part is greater by one unit at least, which no remainder makes up for.
  rcases Nat.lt_trichotomy a b with hlt | rfl | hlt
  · have hstep := Nat.mul_le_mul_left unit hlt
    rw [Nat.mul_succ] at hstep
    exact ⟨fun _ => .inl hlt, fun _ => by omega⟩
  · constructor
    · exact fun h => .inr ⟨rfl, by omega⟩
    · rintro (h | ⟨-, h⟩)
      · exact absurd h (Nat.lt_irrefl a)
      · omega
  · have hstep := Nat.mul_le_mul_left unit hlt
    rw [Nat.mul_succ] at hstep
    constructor
    · exact fun h => by omega
    · rintro (h | ⟨rfl, -⟩)
      · exact absurd h (Nat.lt_asymm hlt)
      · exact absurd hlt (Nat.lt_irrefl a)

/-- Runs of digits of one length compare as the numbers that they denote. -/
theorem digits_lt_digits_iff {ds es : List Char} (hds : ∀ c ∈ ds, c.isDigit = true)
    (hes : ∀ c ∈ es, c.isDigit = true) (hlength : ds.length = es.length) :
    ds < es ↔ digitsValue ds < digitsValue es := by
  induction ds generalizing es with
  | nil =>
    obtain rfl := List.length_eq_zero_iff.mp hlength.symm
    simp
  | cons c cs ih =>
    cases es with
    | nil => cases hlength
    | cons d es =>
      have hcs : ∀ x ∈ cs, x.isDigit = true := fun x hx => hds x (List.mem_cons_of_mem _ hx)
      have hes' : ∀ x ∈ es, x.isDigit = true := fun x hx => hes x (List.mem_cons_of_mem _ hx)
      have hrest : cs.length = es.length := Nat.succ.inj hlength
      have hc := (Char.isDigit_iff_toNat.mp (hds c List.mem_cons_self)).1
      have hd := (Char.isDigit_iff_toNat.mp (hes d List.mem_cons_self)).1
      -- Digits compare as their values do.
      have hlt : c < d ↔ c.toNat - '0'.toNat < d.toNat - '0'.toNat := by
        show c.toNat < d.toNat ↔ _
        omega
      have heq : c = d ↔ c.toNat - '0'.toNat = d.toNat - '0'.toNat := by
        rw [← Char.toNat_inj]
        omega
      rw [List.cons_lt_cons_iff, ih hcs hes' hrest, hlt, heq, digitsValue_cons, digitsValue_cons,
        hrest, mul_add_lt_mul_add_iff (hrest ▸ digitsValue_lt hcs) (digitsValue_lt hes')]

/-- Numbers that fill fields of one width compare as texts the way they do as numbers. -/
theorem padded_lt_padded_iff {width m n : Nat} (hwidth : 0 < width) (hm : m < Nat.pow 10 width)
    (hn : n < Nat.pow 10 width) : padded width m < padded width n ↔ m < n := by
  have hlength := (length_padded hwidth hm).trans (length_padded hwidth hn).symm
  rw [digits_lt_digits_iff (fun _ => isDigit_of_mem_padded) (fun _ => isDigit_of_mem_padded)
    hlength, digitsValue_padded, digitsValue_padded]

theorem padded_inj {width m n : Nat} : padded width m = padded width n ↔ m = n := by
  constructor
  · intro h
    have hvalue := congrArg digitsValue h
    rwa [digitsValue_padded, digitsValue_padded] at hvalue
  · rintro rfl
    rfl

/-- A field in front decides, and what follows where the fields are the same. -/
theorem padded_append_lt_padded_append_iff {width m n : Nat} (hwidth : 0 < width)
    (hm : m < Nat.pow 10 width) (hn : n < Nat.pow 10 width) {zs ws : List Char} :
    padded width m ++ zs < padded width n ++ ws ↔ m < n ∨ m = n ∧ zs < ws := by
  have hlength := (length_padded hwidth hm).trans (length_padded hwidth hn).symm
  -- Fields of one width, so that they decide before what follows.
  rw [append_lt_append_iff hlength, padded_lt_padded_iff hwidth hm hn, padded_inj]

end LedgerRules.Text
