import LedgerRules.Text.Blank
import LedgerRules.Text.Digits
/-!
# Identifiers

Users, accounts, categories, transactions, rules, conditions and actions are all known by signed
numbers of sixty-four bits. In rules and on the command line they are written in decimal.
-/

namespace LedgerRules

/-- An identifier. -/
abbrev Ident := Int64

namespace Ident

open Text

/-- The identifier with a given value, if it fits. -/
def ofInt? (z : Int) : Option Ident :=
  if -0x8000000000000000 ≤ z ∧ z < 0x8000000000000000 then some (Int64.ofInt z) else none

/-- An identifier in decimal. -/
def text (i : Ident) : List Char := integer i.toInt

/-- An identifier in decimal, as a string. -/
def toText (i : Ident) : String := String.ofList (text i)

/-- Reads an identifier: at most one sign and digits whose value fits. -/
def parse? (s : List Char) : Option Ident := (integer? s).bind ofInt?

/-- Reads the identifier that a rule's literal names, blanks around it aside. -/
def ofLiteral? (s : String) : Option Ident := parse? (trim s.toList)

end Ident

/-- Reads a number of sixty-four bits without a minus sign. -/
def word64? (s : List Char) : Option UInt64 :=
  let digits :=
    match s with
    | '+' :: rest => rest
    | all => all
  (Text.natural? digits).bind fun n => if n < 0x10000000000000000 then some (UInt64.ofNat n) else none

end LedgerRules
