/-!
# Amounts of money

An amount is a binary64 number of IEEE 754, held as its sign and the rest of its word. Equality
of amounts as values of this type is equality of words; the comparisons of the number line are
`same` and `below`, for which both zeros are one number and no NaN compares with anything.

Magnitudes are ordered like the numbers they stand for, so comparing and negating amounts is
arithmetic on whole numbers. The other modules read amounts (`Amount.Reading`) and write them
(`Amount.Shortest`, `Amount.Fixed`).
-/

namespace LedgerRules

/-- A binary64 number. -/
structure Amount where
  /-- The sign bit. -/
  negative : Bool
  /-- The word without its sign bit. -/
  magnitude : Nat
  /-- Sixty-three bits are left beside the sign. -/
  bounded : magnitude < 0x8000000000000000
deriving DecidableEq

namespace Amount

/-- The magnitude of an infinity; those above it are NaNs. -/
def infiniteMagnitude : Nat := 0x7FF0000000000000

/-- The number zero. -/
def zero : Amount := ⟨false, 0, by decide⟩

instance : Inhabited Amount := ⟨zero⟩

/-- The amount with a given sign and magnitude, no larger than infinity. -/
def ofMagnitude (negative : Bool) (magnitude : Nat) : Amount :=
  ⟨negative, min magnitude infiniteMagnitude,
    Nat.lt_of_le_of_lt (Nat.min_le_right _ _) (by decide)⟩

/-- One of the values that are no number. -/
def notANumber (negative : Bool) : Amount := ⟨negative, 0x7FF8000000000000, by decide⟩

/-- The amount of a word. -/
def ofBits (bits : UInt64) : Amount :=
  ⟨0x8000000000000000 ≤ bits.toNat, bits.toNat % 0x8000000000000000, Nat.mod_lt _ (by decide)⟩

/-- The word of an amount. -/
def bits (x : Amount) : UInt64 :=
  UInt64.ofNat ((if x.negative then 0x8000000000000000 else 0) + x.magnitude)

/-- Whether the value is no number. -/
def isNaN (x : Amount) : Bool := infiniteMagnitude < x.magnitude

/-- The amount with the other sign. -/
def neg (x : Amount) : Amount := { x with negative := !x.negative }

instance : Neg Amount := ⟨neg⟩

/-- The place on the number line: numbers are ordered as their places are, and the zeros share
one. -/
def place (x : Amount) : Int := if x.negative then -x.magnitude else x.magnitude

/-- Whether two values are the same number. -/
def same (x y : Amount) : Bool := !x.isNaN && !y.isNaN && x.place == y.place

/-- Whether one value is a smaller number than another. -/
def below (x y : Amount) : Bool := !x.isNaN && !y.isNaN && decide (x.place < y.place)

/-- The form in which a ledger keeps an amount: there is one zero, and only numbers are kept. -/
def kept? (x : Amount) : Option Amount :=
  if x.isNaN then none else if x.magnitude = 0 then some zero else some x

/-! ## Laws of the number line -/

/-- A change of sign makes no number of what is none, nor the other way round. -/
@[simp] theorem isNaN_neg (x : Amount) : (-x).isNaN = x.isNaN := rfl

/-- A number is the same as itself. -/
theorem same_self {x : Amount} (h : x.isNaN = false) : x.same x = true := by
  simp [same, h]

/-- Being the same number does not depend on the order. -/
theorem same_comm (x y : Amount) : x.same y = y.same x := by
  rw [Bool.eq_iff_iff]
  simp only [same, Bool.and_eq_true, beq_iff_eq]
  constructor
  · rintro ⟨⟨hx, hy⟩, h⟩
    exact ⟨⟨hy, hx⟩, h.symm⟩
  · rintro ⟨⟨hy, hx⟩, h⟩
    exact ⟨⟨hx, hy⟩, h.symm⟩

/-- What a ledger keeps of a number is the same number. -/
theorem same_of_kept? {x y : Amount} (h : x.kept? = some y) : x.same y = true := by
  unfold kept? at h
  split at h
  · cases h
  · rename_i hx
    simp only [Bool.not_eq_true] at hx
    split at h
    · rename_i hzero
      cases h
      cases x with
      | mk negative magnitude bounded =>
        subst hzero
        cases negative <;> rfl
    · cases h
      exact same_self hx

end Amount

end LedgerRules
