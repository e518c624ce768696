/-!
# Decimal digits

Whole numbers as text in base ten. Only the ten ASCII digits count as digits.

* `decimal` and `natural?` write and read a natural number;
* `integer` and `integer?` do so with a sign, which a reader also accepts as a plus;
* `padded` fills up with zeros on the left.
-/

namespace LedgerRules.Text

/-- The number that a run of digits denotes. -/
def digitsValue (digits : List Char) : Nat := Nat.ofDigitChars 10 digits 0

/-- The digits of a natural number, without leading zeros. -/
def decimal (n : Nat) : List Char := Nat.toDigits 10 n

/-- The digits of a natural number, with zeros in front up to the given width. -/
def padded (width n : Nat) : List Char :=
  List.replicate (width - (decimal n).length) '0' ++ decimal n

/-- The digits of an integer, after a minus sign if it is negative. -/
def integer (z : Int) : List Char :=
  if z < 0 then '-' :: decimal z.natAbs else decimal z.natAbs

/-- Reads one or more digits and nothing else. -/
def natural? (s : List Char) : Option Nat :=
  if s.isEmpty || !s.all Char.isDigit then none else some (digitsValue s)

/-- Reads digits after at most one sign. -/
def integer? : List Char → Option Int
  | '-' :: s => (natural? s).map fun n => -(n : Int)
  | '+' :: s => (natural? s).map fun n => (n : Int)
  | s => (natural? s).map fun n => (n : Int)

/-- Splits off the digits in front, at most `most` of them. -/
def takeDigits : Nat → List Char → List Char × List Char
  | most + 1, c :: s =>
    if c.isDigit then
      let (digits, rest) := takeDigits most s
      (c :: digits, rest)
    else ([], c :: s)
  | _, s => ([], s)

end LedgerRules.Text
