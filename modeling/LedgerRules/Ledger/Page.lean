import LedgerRules.Ledger.Read
/-!
# Pages of transactions

A user's transactions are listed by date and, on one date, by identifier. Dates are compared as
they are stored, character by character. A page is a window on the listing, and only the rows in
the window are read.
-/

namespace LedgerRules

/-- The directions of a listing. -/
inductive ListOrder where
  /-- The latest date first. -/
  | newestFirst
  /-- The earliest date first. -/
  | oldestFirst
deriving DecidableEq

/-- A window on a list: how many elements are left out, and how many follow if there is a limit. -/
structure Window where
  /-- The number of elements left out. -/
  skip : Nat
  /-- The greatest number of elements that follow. -/
  limit : Option Nat
deriving DecidableEq

namespace Window

/-- The window of a page. Page number and size are taken as signed words and their product stays
within the range of such words: a negative size sets no limit, a negative start is the start of
the list. -/
def ofPage (page size : UInt64) : Window :=
  -- Words of more than sixty-three bits come out negative here.
  let limit := size.toInt64.toInt
  let start := max (-0x8000000000000000) (min 0x7FFFFFFFFFFFFFFF (page.toInt64.toInt * limit))
  { skip := start.toNat, limit := if limit < 0 then none else some limit.toNat }

/-- The part of a list that is seen through a window. -/
def cut {α : Type} (w : Window) (xs : List α) : List α :=
  match w.limit with
  | none => xs.drop w.skip
  | some limit => (xs.drop w.skip).take limit

end Window

namespace Ledger

/-- Whether an entry comes before another from the earliest date on. -/
def datedBefore (e f : Ident × TransactionRow) : Bool :=
  decide (e.2.date < f.2.date) || (e.2.date == f.2.date && decide (e.1 ≤ f.1))

/-- The rows of a user's transactions in the order of a listing. -/
def orderedRows (l : Ledger) (user : Ident) (order : ListOrder) : List (Ident × TransactionRow) :=
  let ascending :=
    (l.transactions.entries.filter fun e => e.2.user == user).mergeSort datedBefore
  match order with
  | .newestFirst => ascending.reverse
  | .oldestFirst => ascending

/-- A page of a user's transactions; the first page is zero. -/
def page (l : Ledger) (now : Instant) (user : Ident) (page size : UInt64) (order : ListOrder) :
    Except LedgerError (List Transaction) :=
  ((Window.ofPage page size).cut (l.orderedRows user order)).mapM fun e =>
    readTransaction now e.1 e.2

end Ledger

end LedgerRules
