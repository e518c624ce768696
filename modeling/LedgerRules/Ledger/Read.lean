import LedgerRules.Calendar.Stored
import LedgerRules.Ledger.Basic
import LedgerRules.Ledger.Error
import LedgerRules.Rules.Rule
/-!
# Reading a ledger

Every lookup is made for a user: what the user does not own is not there. A listing fails if one
of its rows cannot be read. The reading clock `now` stands in for a time of recording that cannot
be read as a date.

Accounts, rules, conditions and actions are listed by identifier, categories by name.
-/

namespace LedgerRules

namespace Ledger

/-! ## Columns -/

/-- Reads the time of recording. A text that is no date counts as `now`. -/
def readCreatedAt (now : Instant) (column : Nat) : Option String → Except LedgerError Instant
  | none => .error (.store (.nullText column "created_at"))
  | some text =>
    match Calendar.readStored text.toList with
    | .ok t => .ok t
    | .error _ => .ok now

/-- Reads a date that matters. -/
def readDate (column : Nat) (text : String) : Except LedgerError Instant :=
  match Calendar.readStored text.toList with
  | .ok t => .ok t
  | .error fault => .error (.store (.unreadable column (.date fault)))

/-- Reads a word of a vocabulary. -/
def readWord {α : Type} [Vocabulary α] (column : Nat) (text : String) : Except LedgerError α :=
  match Vocabulary.parse text with
  | .ok value => .ok value
  | .error unknown => .error (.store (.unreadable column (.word unknown)))

/-! ## Rows -/

/-- Reads an account. -/
def readAccount (now : Instant) (id : Ident) (row : NamedRow) : Except LedgerError Account := do
  let createdAt ← readCreatedAt now 3 row.createdAt
  pure ⟨id, row.user, row.name, createdAt⟩

/-- Reads a category. -/
def readCategory (now : Instant) (id : Ident) (row : NamedRow) : Except LedgerError Category := do
  let createdAt ← readCreatedAt now 3 row.createdAt
  pure ⟨id, row.user, row.name, createdAt⟩

/-- Reads a transaction. -/
def readTransaction (now : Instant) (id : Ident) (row : TransactionRow) :
    Except LedgerError Transaction := do
  let createdAt ← readCreatedAt now 7 row.createdAt
  let date ← readDate 6 row.date
  pure
    { id, user := row.user, account := row.account, name := row.name,
      description := row.description, amount := row.amount, date,
      categories := row.categories, createdAt }

/-- Reads a rule. -/
def readRule (now : Instant) (id : Ident) (row : RuleRow) : Except LedgerError Rule := do
  let createdAt ← readCreatedAt now 6 row.createdAt
  let effectiveFrom ← readDate 4 row.effectiveFrom
  let logic ← readWord 5 row.logic
  pure
    { id, user := row.user, name := row.name, description := row.description, effectiveFrom,
      logic, createdAt }

/-- Reads a condition. -/
def readCondition (id : Ident) (row : ConditionRow) : Except LedgerError Condition := do
  let subject ← readWord 2 row.subject
  let comparison ← readWord 3 row.comparison
  pure ⟨id, row.rule, subject, comparison, row.literal⟩

/-- Reads an action. -/
def readAction (id : Ident) (row : ActionRow) : Except LedgerError Action := do
  let part ← readWord 2 row.part
  pure ⟨id, row.rule, part, row.literal⟩

/-! ## Lookups and listings -/

/-- Reads the row under an identifier if a user owns it. -/
def readOwned {α β : Type} (table : Table α) (owner : α → Ident)
    (read : Ident → α → Except LedgerError β) (id user : Ident) :
    Except LedgerError (Option β) :=
  match table.get? id with
  | none => .ok none
  | some row => if owner row == user then (read id row).map some else .ok none

/-- Reads the rows that pass a test, by identifier. -/
def readWhere {α β : Type} (table : Table α) (test : α → Bool)
    (read : Ident → α → Except LedgerError β) : Except LedgerError (List β) :=
  (table.entries.filter fun e => test e.2).mapM fun e => read e.1 e.2

/-- An account of a user. -/
def account? (l : Ledger) (now : Instant) (id user : Ident) :
    Except LedgerError (Option Account) :=
  readOwned l.accounts (·.user) (readAccount now) id user

/-- The accounts of a user. -/
def accountsOf (l : Ledger) (now : Instant) (user : Ident) : Except LedgerError (List Account) :=
  readWhere l.accounts (·.user == user) (readAccount now)

/-- The categories of a user, by name. -/
def categoriesOf (l : Ledger) (now : Instant) (user : Ident) :
    Except LedgerError (List Category) :=
  let owned := l.categories.entries.filter fun e => e.2.user == user
  (owned.mergeSort fun e f => decide (e.2.name ≤ f.2.name)).mapM fun e => readCategory now e.1 e.2

/-- A rule of a user. -/
def rule? (l : Ledger) (now : Instant) (id user : Ident) : Except LedgerError (Option Rule) :=
  readOwned l.rules (·.user) (readRule now) id user

/-- The rules of a user, which is the order in which they are evaluated. -/
def rulesOf (l : Ledger) (now : Instant) (user : Ident) : Except LedgerError (List Rule) :=
  readWhere l.rules (·.user == user) (readRule now)

/-- The conditions of a rule. -/
def conditionsOf (l : Ledger) (rule : Ident) : Except LedgerError (List Condition) :=
  readWhere l.conditions (·.rule == rule) readCondition

/-- The actions of a rule, which is the order in which they are applied. -/
def actionsOf (l : Ledger) (rule : Ident) : Except LedgerError (List Action) :=
  readWhere l.actions (·.rule == rule) readAction

/-- The rules of a user with their conditions and actions. -/
def completeRulesOf (l : Ledger) (now : Instant) (user : Ident) :
    Except LedgerError (List CompleteRule) := do
  let rules ← l.rulesOf now user
  rules.mapM fun rule => do
    let conditions ← l.conditionsOf rule.id
    let actions ← l.actionsOf rule.id
    pure ⟨rule, conditions, actions⟩

/-- A transaction of a user. -/
def transaction? (l : Ledger) (now : Instant) (id user : Ident) :
    Except LedgerError (Option Transaction) :=
  readOwned l.transactions (·.user) (readTransaction now) id user

/-- The number of transactions of a user. -/
def transactionCount (l : Ledger) (user : Ident) : Nat :=
  (l.transactions.entries.filter fun e => e.2.user == user).length

/-- The transfer link of a user's transaction. -/
def transferLink? (l : Ledger) (id user : Ident) : Option TransferLink :=
  (l.ownedTransaction? id user).bind (·.transfer)

end Ledger

end LedgerRules
