import LedgerRules.Amount.Basic
import LedgerRules.Calendar.Instant
import LedgerRules.Ident
/-!
# What a ledger holds about money

Accounts, categories, transactions and transfer links, as they are read from a ledger. Each
entity belongs to one user.
-/

namespace LedgerRules

/-- A bank account. -/
structure Account where
  /-- The account's identifier. -/
  id : Ident
  /-- The user who owns the account. -/
  user : Ident
  /-- The account's name. -/
  name : String
  /-- When the account was recorded. -/
  createdAt : Instant
deriving DecidableEq

/-- A spending category. -/
structure Category where
  /-- The category's identifier. -/
  id : Ident
  /-- The user who owns the category. -/
  user : Ident
  /-- The category's name. -/
  name : String
  /-- When the category was recorded. -/
  createdAt : Instant
deriving DecidableEq

/-- The counterpart of a transaction on another account. -/
structure TransferLink where
  /-- The account on the other side. -/
  account : Ident
  /-- The amount that arrives there: the transaction's amount with the other sign. -/
  amount : Amount
deriving DecidableEq

/-- Whether two links lead to the same account with the same number as amount. -/
def TransferLink.same (l m : TransferLink) : Bool :=
  l.account == m.account && l.amount.same m.amount

/-- A transaction with its categories. -/
structure Transaction where
  /-- The transaction's identifier. -/
  id : Ident
  /-- The user who owns the transaction. -/
  user : Ident
  /-- The account on which it is booked. -/
  account : Ident
  /-- Its name. -/
  name : String
  /-- Its description, if it has one. -/
  description : Option String
  /-- Its amount: negative for an expense, positive for an income. -/
  amount : Amount
  /-- Its date. -/
  date : Instant
  /-- Its categories in the order of assignment. -/
  categories : List Ident
  /-- When the transaction was recorded. -/
  createdAt : Instant
deriving DecidableEq

/-- The description, empty if there is none. -/
def Transaction.descriptionText (t : Transaction) : String := t.description.getD ""

/-- The parts of a transaction that a rule can change, in the order in which they are listed. -/
inductive Part where
  /-- The name. -/
  | name
  /-- The description. -/
  | description
  /-- The categories. -/
  | category
  /-- The transfer link. -/
  | transfer
deriving DecidableEq

end LedgerRules
