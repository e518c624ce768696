import LedgerRules.Ledger.Entity
import LedgerRules.Ledger.Table
/-!
# The ledger

A ledger is six tables. Rows hold what was written: dates and the words of rules as text, because
a text that cannot be read is noticed only when the row is. A transaction's row holds its
categories in the order of assignment and its transfer link.
-/

namespace LedgerRules

/-- A row of an account or a category. -/
structure NamedRow where
  /-- The owner. -/
  user : Ident
  /-- The name. -/
  name : String
  /-- When the row was written, as text. -/
  createdAt : Option String
deriving DecidableEq

/-- A row of a transaction. -/
structure TransactionRow where
  /-- The owner. -/
  user : Ident
  /-- The account on which it is booked. -/
  account : Ident
  /-- The name. -/
  name : String
  /-- The description. -/
  description : Option String
  /-- The amount. -/
  amount : Amount
  /-- The date, as text. -/
  date : String
  /-- When the row was written, as text. -/
  createdAt : Option String
  /-- The categories in the order of assignment. -/
  categories : List Ident
  /-- The transfer link. -/
  transfer : Option TransferLink
deriving DecidableEq

/-- A row of a rule. -/
structure RuleRow where
  /-- The owner. -/
  user : Ident
  /-- The name. -/
  name : String
  /-- The description. -/
  description : Option String
  /-- The first moment, as text. -/
  effectiveFrom : String
  /-- How the conditions are combined, as text. -/
  logic : String
  /-- When the row was written, as text. -/
  createdAt : Option String
deriving DecidableEq

/-- A row of a condition. -/
structure ConditionRow where
  /-- The rule to which it belongs. -/
  rule : Ident
  /-- What it looks at, as text. -/
  subject : String
  /-- How it compares, as text. -/
  comparison : String
  /-- What it compares with. -/
  literal : String
deriving DecidableEq

/-- A row of an action. -/
structure ActionRow where
  /-- The rule to which it belongs. -/
  rule : Ident
  /-- The part that it writes, as text. -/
  part : String
  /-- What it writes. -/
  literal : String
deriving DecidableEq

/-- The tables of a ledger. -/
@[ext] structure Ledger where
  /-- The accounts. -/
  accounts : Table NamedRow
  /-- The categories. -/
  categories : Table NamedRow
  /-- The transactions. -/
  transactions : Table TransactionRow
  /-- The rules. -/
  rules : Table RuleRow
  /-- The conditions of all rules. -/
  conditions : Table ConditionRow
  /-- The actions of all rules. -/
  actions : Table ActionRow

namespace Ledger

/-- The ledger without rows. -/
def empty : Ledger :=
  ⟨Table.empty, Table.empty, Table.empty, Table.empty, Table.empty, Table.empty⟩

instance : Inhabited Ledger := ⟨empty⟩

/-- The row of a transaction if a user owns it. -/
def ownedTransaction? (l : Ledger) (id user : Ident) : Option TransactionRow :=
  (l.transactions.get? id).filter fun row => row.user == user

end Ledger

end LedgerRules
