import LedgerRules.Amount.Basic
import LedgerRules.Calendar.Instant
/-!
# Data for exchange

What a JSON text says, with the members of records in order. Moments and whole numbers are kept
apart from other texts and numbers, because they are read and written in forms of their own.
-/

namespace LedgerRules

/-- A value that a JSON text stands for. -/
inductive Datum where
  /-- Nothing. -/
  | null
  /-- A truth value. -/
  | flag (b : Bool)
  /-- A whole number. -/
  | whole (z : Int)
  /-- A number with a fraction or an exponent. -/
  | real (x : Amount)
  /-- A text. -/
  | text (s : String)
  /-- A moment. -/
  | moment (t : Instant)
  /-- Values in order. -/
  | list (items : List Datum)
  /-- Values under keys, in order. -/
  | record (members : List (String × Datum))

instance : Inhabited Datum := ⟨.null⟩

end LedgerRules
