import LedgerRules.Ledger.Read
import LedgerRules.Rules.Changeset
/-!
# Writing to a ledger

Each write either yields the changed ledger or an error, and an error leaves the ledger as it
was, whatever parts of the write would have been possible. The writing clock `now` is recorded in
new rows.

`Ledger.applyChanges` writes several parts of one transaction in one step.
-/

namespace LedgerRules

/-- A change of a transaction's name and description; what is absent stays. -/
structure BaseUpdate where
  /-- The new name. -/
  name : Option String
  /-- The new description. -/
  description : Option String
deriving DecidableEq

/-- Whether an update changes nothing. -/
def BaseUpdate.isEmpty (u : BaseUpdate) : Bool := u.name.isNone && u.description.isNone

/-- The part of a changeset that concerns name and description. -/
def Changeset.baseUpdate (cs : Changeset) : BaseUpdate := ⟨cs.name, cs.description⟩

/-- All that is written to one transaction in one step. -/
structure Changes where
  /-- The change of name and description. -/
  base : BaseUpdate
  /-- The categories that replace those of the transaction. -/
  categories : Option (List Ident)
  /-- The transfer link that replaces that of the transaction. -/
  transfer : Option TransferLink
deriving DecidableEq

/-- Whether nothing is written. -/
def Changes.isEmpty (c : Changes) : Bool :=
  c.base.isEmpty && c.categories.isNone && c.transfer.isNone

/-- A transaction to be recorded. -/
structure NewTransaction where
  /-- The account on which it is booked. -/
  account : Ident
  /-- Its name. -/
  name : String
  /-- Its description. -/
  description : Option String
  /-- Its amount. -/
  amount : Amount
  /-- Its date. -/
  date : Instant
  /-- Its categories. -/
  categories : List Ident
deriving DecidableEq

namespace Ledger

/-- The text under which an instant is stored. -/
def stamp (t : Instant) : String := String.ofList (Calendar.storedText t)

/-- Adds a row to a table. -/
def addRow {α : Type} (table : Table α) (row : α) : Except LedgerError (Ident × Table α) :=
  match table.insert? row with
  | some result => .ok result
  | none => .error (.store .full)

/-! ## Accounts, categories and rules -/

/-- Records an account. -/
def createAccount (l : Ledger) (now : Instant) (user : Ident) (name : String) :
    Except LedgerError (Ident × Ledger) := do
  let (id, accounts) ← addRow l.accounts ⟨user, name, some (stamp now)⟩
  pure (id, { l with accounts })

/-- The category of a user under a name. -/
def categoryNamed? (l : Ledger) (user : Ident) (name : String) : Option Ident :=
  (l.categories.entries.find? fun e => e.2.user == user && e.2.name == name).map (·.1)

/-- Records a category, or finds the one that the user has under that name. -/
def createCategory (l : Ledger) (now : Instant) (user : Ident) (name : String) :
    Except LedgerError (Ident × Ledger) :=
  match l.categoryNamed? user name with
  | some id => .ok (id, l)
  | none => do
    let (id, categories) ← addRow l.categories ⟨user, name, some (stamp now)⟩
    pure (id, { l with categories })

/-- Records a rule without conditions and actions. -/
def createRule (l : Ledger) (now : Instant) (user : Ident) (name : String)
    (description : Option String) (effectiveFrom : Instant) (logic : Logic) :
    Except LedgerError (Ident × Ledger) := do
  let (id, rules) ← addRow l.rules
    { user, name, description, effectiveFrom := stamp effectiveFrom,
      logic := Vocabulary.word logic, createdAt := some (stamp now) }
  pure (id, { l with rules })

/-- Adds a condition to a rule. -/
def addCondition (l : Ledger) (rule : Ident) (subject : Subject) (comparison : Comparison)
    (literal : String) : Except LedgerError (Ident × Ledger) :=
  if l.rules.has rule then do
    let (id, conditions) ← addRow l.conditions
      ⟨rule, Vocabulary.word subject, Vocabulary.word comparison, literal⟩
    pure (id, { l with conditions })
  else .error (.store .foreignKey)

/-- Adds an action to a rule. -/
def addAction (l : Ledger) (rule : Ident) (part : Part) (literal : String) :
    Except LedgerError (Ident × Ledger) :=
  if l.rules.has rule then do
    let (id, actions) ← addRow l.actions ⟨rule, Vocabulary.word part, literal⟩
    pure (id, { l with actions })
  else .error (.store .foreignKey)

/-! ## Transactions -/

/-- Whether a user owns an account. -/
def ownsAccount (l : Ledger) (user account : Ident) : Bool :=
  (l.accounts.get? account).any fun row => row.user == user

/-- Refuses categories of which one does not exist. -/
def checkCategories (l : Ledger) (categories : List Ident) : Except LedgerError Unit :=
  if categories.all l.categories.has then .ok () else .error (.store .foreignKey)

/-- The form in which an amount is kept, or the refusal of what is no number. -/
def keepAmount (table : String) (amount : Amount) : Except LedgerError Amount :=
  match amount.kept? with
  | some kept => .ok kept
  | none => .error (.store (.missingValue table "amount"))

/-- The form in which a link is kept, or the refusal of a link to no account. -/
def keepLink (l : Ledger) (link : TransferLink) : Except LedgerError TransferLink := do
  let amount ← keepAmount "transaction_transfers" link.amount
  if l.accounts.has link.account then pure ⟨link.account, amount⟩
  else throw (.store .foreignKey)

/-- Records a transaction with its categories, repeated ones once. -/
def insertTransaction (l : Ledger) (now : Instant) (user : Ident) (new : NewTransaction) :
    Except LedgerError (Ident × Ledger) := do
  if !l.ownsAccount user new.account then throw (.foreignAccount new.account user)
  let amount ← keepAmount "transactions" new.amount
  l.checkCategories new.categories
  let (id, transactions) ← addRow l.transactions
    { user, account := new.account, name := new.name, description := new.description, amount,
      date := stamp new.date, createdAt := some (stamp now),
      categories := new.categories.eraseDups, transfer := none }
  pure (id, { l with transactions })

/-- Refuses a transaction that a user does not own. -/
def checkOwned (l : Ledger) (id user : Ident) : Except LedgerError Unit :=
  if (l.ownedTransaction? id user).isSome then .ok () else .error (.noTransaction id)

/-- Changes the row of a transaction. -/
def modifyTransaction (l : Ledger) (id : Ident) (f : TransactionRow → TransactionRow) : Ledger :=
  { l with transactions := l.transactions.modify id f }

/-- Changes name and description of a transaction. An update that changes nothing succeeds for
any transaction. -/
def updateBase (l : Ledger) (id user : Ident) (u : BaseUpdate) : Except LedgerError Ledger :=
  if u.isEmpty then .ok l
  else do
    l.checkOwned id user
    pure <| l.modifyTransaction id fun row =>
      { row with name := u.name.getD row.name, description := u.description <|> row.description }

/-- Replaces the categories of a transaction. -/
def updateCategories (l : Ledger) (id user : Ident) (categories : List Ident) :
    Except LedgerError Ledger := do
  l.checkOwned id user
  l.checkCategories categories
  pure <| l.modifyTransaction id fun row => { row with categories := categories.eraseDups }

/-- Records the transfer link of a transaction in place of an earlier one. -/
def linkTransfer (l : Ledger) (id user : Ident) (link : TransferLink) :
    Except LedgerError Ledger := do
  l.checkOwned id user
  let kept ← l.keepLink link
  pure <| l.modifyTransaction id fun row => { row with transfer := some kept }

/-- Writes all changes of a transaction in one step. -/
def applyChanges (l : Ledger) (id user : Ident) (c : Changes) : Except LedgerError Ledger :=
  if c.isEmpty then .ok l
  else do
    -- Everything is checked before anything is written.
    l.checkOwned id user
    l.checkCategories (c.categories.getD [])
    let kept ← c.transfer.mapM l.keepLink
    pure <| l.modifyTransaction id fun row =>
      { row with
        name := c.base.name.getD row.name
        description := c.base.description <|> row.description
        categories := (c.categories.map List.eraseDups).getD row.categories
        transfer := kept <|> row.transfer }

end Ledger

end LedgerRules
