import LedgerRules.Amount.Rounding
import LedgerRules.Ledger.Write
/-!
# A sample ledger

Two users with accounts and categories. The first user has five transactions on the checking
account; nothing of the second user's is ever the first user's business.
-/

namespace LedgerRules

/-- The identifiers of the sample rows. -/
structure Sample where
  /-- The first user. -/
  user : Ident
  /-- The second user. -/
  otherUser : Ident
  /-- The first user's accounts and the second user's account. -/
  accounts : List Ident
  /-- The first user's categories and the second user's category. -/
  categories : List Ident
  /-- The first user's transactions. -/
  transactions : List Ident
deriving DecidableEq

namespace Sample

/-- A day of the sample's year. -/
def day (month dayOfMonth : Nat) : Instant :=
  match Date.of? 2024 month dayOfMonth with
  | some date => Instant.midnight date
  | none => Instant.midnight Date.epoch

/-- An amount in cents. -/
def cents (negative : Bool) (n : Nat) : Amount := Amount.ofDecimal negative n (-2)

/-- The sample transactions on an account. -/
def transactionsOn (account : Ident) : List NewTransaction :=
  [⟨account, "January Rent", some "apartment", cents true 150000, day 1 1, []⟩,
    ⟨account, "Netflix", none, cents true 1549, day 1 15, []⟩,
    ⟨account, "Grocery Outlet", some "weekly shop", cents true 8210, day 2 3, []⟩,
    ⟨account, "Payroll", some "salary", cents false 420000, day 2 28, []⟩,
    ⟨account, "Netflix", none, cents true 1549, day 3 15, []⟩]

end Sample

namespace Ledger

/-- Records transactions in order. -/
def insertTransactions (l : Ledger) (now : Instant) (user : Ident) :
    List NewTransaction → Except LedgerError (List Ident × Ledger)
  | [] => .ok ([], l)
  | new :: news => do
    let (id, l) ← l.insertTransaction now user new
    let (ids, l) ← l.insertTransactions now user news
    pure (id :: ids, l)

/-- Adds the sample rows to a ledger. -/
def addSample (l : Ledger) (now : Instant) : Except LedgerError (Sample × Ledger) := do
  let (checking, l) ← l.createAccount now 1 "Checking"
  let (savings, l) ← l.createAccount now 1 "Savings"
  let (otherChecking, l) ← l.createAccount now 2 "Other Checking"
  let (housing, l) ← l.createCategory now 1 "Housing"
  let (streaming, l) ← l.createCategory now 1 "Streaming"
  let (otherHousing, l) ← l.createCategory now 2 "Other Housing"
  let (transactions, l) ← l.insertTransactions now 1 (Sample.transactionsOn checking)
  pure
    ({ user := 1, otherUser := 2, accounts := [checking, savings, otherChecking],
       categories := [housing, streaming, otherHousing], transactions }, l)

end Ledger

end LedgerRules
