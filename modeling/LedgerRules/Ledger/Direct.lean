import LedgerRules.Ledger.Write
/-!
# Direct changes of rows

Writes that pass by the vocabularies and put any text in place: for repairs, and to see how
readers cope with damaged rows. The rules of the tables still hold, unless a write is told to
leave them aside; references to other rows are always kept whole.
-/

namespace LedgerRules

namespace Ledger

/-! ## Putting rows in place -/

/-- Refuses a text that is not one of a table's words. The rule is shown as the table states it. -/
def checkWord {α : Type} [Vocabulary α] (column text : String) : Except LedgerError Unit :=
  if (Vocabulary.ofWord? (α := α) text).isSome then .ok ()
  else
    let words := (Vocabulary.values (α := α)).map fun v => "'" ++ Vocabulary.word v ++ "'"
    .error (.store (.brokenRule (column ++ " IN (" ++ String.intercalate ", " words ++ ")")))

/-- Puts a rule in place. -/
def putRule (l : Ledger) (now : Instant) (checked : Bool) (user : Ident)
    (name effectiveFrom logic : String) : Except LedgerError (Ident × Ledger) := do
  if checked then checkWord (α := Logic) "condition_logic" logic
  let (id, rules) ← addRow l.rules
    { user, name, description := none, effectiveFrom, logic, createdAt := some (stamp now) }
  pure (id, { l with rules })

/-- Puts a condition in place. -/
def putCondition (l : Ledger) (checked : Bool) (row : ConditionRow) :
    Except LedgerError (Ident × Ledger) := do
  if checked then
    checkWord (α := Subject) "field" row.subject
    checkWord (α := Comparison) "operator" row.comparison
  if !l.rules.has row.rule then throw (.store .foreignKey)
  let (id, conditions) ← addRow l.conditions row
  pure (id, { l with conditions })

/-- Puts an action in place. -/
def putAction (l : Ledger) (checked : Bool) (row : ActionRow) :
    Except LedgerError (Ident × Ledger) := do
  if checked then checkWord (α := Part) "field" row.part
  if !l.rules.has row.rule then throw (.store .foreignKey)
  let (id, actions) ← addRow l.actions row
  pure (id, { l with actions })

/-! ## Overwriting a text -/

/-- The columns of text that can be overwritten. -/
inductive TextColumn where
  /-- The name of an account. -/
  | accountName
  /-- The time of recording of an account. -/
  | accountCreatedAt
  /-- The name of a category. -/
  | categoryName
  /-- The time of recording of a category. -/
  | categoryCreatedAt
  /-- The name of a transaction. -/
  | transactionName
  /-- The description of a transaction. -/
  | transactionDescription
  /-- The date of a transaction. -/
  | transactionDate
  /-- The time of recording of a transaction. -/
  | transactionCreatedAt
  /-- The name of a rule. -/
  | ruleName
  /-- The description of a rule. -/
  | ruleDescription
  /-- The first moment of a rule. -/
  | ruleEffectiveFrom
  /-- How the conditions of a rule are combined. -/
  | ruleLogic
  /-- The time of recording of a rule. -/
  | ruleCreatedAt
  /-- What a condition looks at. -/
  | conditionSubject
  /-- How a condition compares. -/
  | conditionComparison
  /-- What a condition compares with. -/
  | conditionLiteral
  /-- The part that an action writes. -/
  | actionPart
  /-- What an action writes. -/
  | actionLiteral
deriving DecidableEq

/-- The text for a column that needs one. -/
def needText (table column : String) (text : Option String) : Except LedgerError String :=
  match text with
  | some text => .ok text
  | none => .error (.store (.missingValue table column))

/-- The text for a column that needs one of a table's words. -/
def needWord (α : Type) [Vocabulary α] (table column : String) (text : Option String) :
    Except LedgerError String := do
  let text ← needText table column text
  checkWord (α := α) column text
  pure text

/-- The name for a category. No two categories of a user have the same. -/
def needCategoryName (l : Ledger) (id user : Ident) (text : Option String) :
    Except LedgerError String := do
  let name ← needText "categories" "name" text
  match l.categoryNamed? user name with
  | some other =>
    if other = id then pure name
    else throw (.store (.repeated "categories.user_id, categories.name"))
  | none => pure name

/-- Overwrites a row if it is there. -/
def overwrite {α : Type} (table : Table α) (id : Ident) (f : α → Except LedgerError α) :
    Except LedgerError (Bool × Table α) :=
  match table.get? id with
  | none => .ok (false, table)
  | some row => (f row).map fun new => (true, table.modify id fun _ => new)

/-- Overwrites an account. -/
def overwriteAccount (l : Ledger) (id : Ident) (f : NamedRow → Except LedgerError NamedRow) :
    Except LedgerError (Bool × Ledger) := do
  let (found, accounts) ← overwrite l.accounts id f
  pure (found, { l with accounts })

/-- Overwrites a category. -/
def overwriteCategory (l : Ledger) (id : Ident) (f : NamedRow → Except LedgerError NamedRow) :
    Except LedgerError (Bool × Ledger) := do
  let (found, categories) ← overwrite l.categories id f
  pure (found, { l with categories })

/-- Overwrites a transaction. -/
def overwriteTransaction (l : Ledger) (id : Ident)
    (f : TransactionRow → Except LedgerError TransactionRow) :
    Except LedgerError (Bool × Ledger) := do
  let (found, transactions) ← overwrite l.transactions id f
  pure (found, { l with transactions })

/-- Overwrites a rule. -/
def overwriteRule (l : Ledger) (id : Ident) (f : RuleRow → Except LedgerError RuleRow) :
    Except LedgerError (Bool × Ledger) := do
  let (found, rules) ← overwrite l.rules id f
  pure (found, { l with rules })

/-- Overwrites a condition. -/
def overwriteCondition (l : Ledger) (id : Ident)
    (f : ConditionRow → Except LedgerError ConditionRow) : Except LedgerError (Bool × Ledger) := do
  let (found, conditions) ← overwrite l.conditions id f
  pure (found, { l with conditions })

/-- Overwrites an action. -/
def overwriteAction (l : Ledger) (id : Ident) (f : ActionRow → Except LedgerError ActionRow) :
    Except LedgerError (Bool × Ledger) := do
  let (found, actions) ← overwrite l.actions id f
  pure (found, { l with actions })

/-- Overwrites a text, or removes it where a column can do without, and tells whether the row was
there. -/
def putText (l : Ledger) (column : TextColumn) (id : Ident) (text : Option String) :
    Except LedgerError (Bool × Ledger) :=
  match column with
  | .accountName => l.overwriteAccount id fun row => do
    pure { row with name := ← needText "accounts" "name" text }
  | .accountCreatedAt => l.overwriteAccount id fun row => pure { row with createdAt := text }
  | .categoryName => l.overwriteCategory id fun row => do
    pure { row with name := ← l.needCategoryName id row.user text }
  | .categoryCreatedAt => l.overwriteCategory id fun row => pure { row with createdAt := text }
  | .transactionName => l.overwriteTransaction id fun row => do
    pure { row with name := ← needText "transactions" "name" text }
  | .transactionDescription =>
    l.overwriteTransaction id fun row => pure { row with description := text }
  | .transactionDate => l.overwriteTransaction id fun row => do
    pure { row with date := ← needText "transactions" "date" text }
  | .transactionCreatedAt =>
    l.overwriteTransaction id fun row => pure { row with createdAt := text }
  | .ruleName => l.overwriteRule id fun row => do
    pure { row with name := ← needText "rules" "name" text }
  | .ruleDescription => l.overwriteRule id fun row => pure { row with description := text }
  | .ruleEffectiveFrom => l.overwriteRule id fun row => do
    pure { row with effectiveFrom := ← needText "rules" "effective_from" text }
  | .ruleLogic => l.overwriteRule id fun row => do
    pure { row with logic := ← needWord Logic "rules" "condition_logic" text }
  | .ruleCreatedAt => l.overwriteRule id fun row => pure { row with createdAt := text }
  | .conditionSubject => l.overwriteCondition id fun row => do
    pure { row with subject := ← needWord Subject "rule_conditions" "field" text }
  | .conditionComparison => l.overwriteCondition id fun row => do
    pure { row with comparison := ← needWord Comparison "rule_conditions" "operator" text }
  | .conditionLiteral => l.overwriteCondition id fun row => do
    pure { row with literal := ← needText "rule_conditions" "value" text }
  | .actionPart => l.overwriteAction id fun row => do
    pure { row with part := ← needWord Part "rule_actions" "field" text }
  | .actionLiteral => l.overwriteAction id fun row => do
    pure { row with literal := ← needText "rule_actions" "value" text }

/-! ## Removing rows -/

/-- Whether a transaction is booked on an account or linked to it. -/
def usesAccount (account : Ident) (row : TransactionRow) : Bool :=
  row.account == account || row.transfer.any fun link => link.account == account

/-- Removes an account, unless a transaction uses it. -/
def removeAccount (l : Ledger) (id : Ident) : Except LedgerError (Bool × Ledger) :=
  if l.accounts.has id && l.transactions.entries.any fun e => usesAccount id e.2 then
    .error (.store .foreignKey)
  else .ok (l.accounts.has id, { l with accounts := l.accounts.erase id })

/-- Removes a category, also from the transactions that have it. -/
def removeCategory (l : Ledger) (id : Ident) : Bool × Ledger :=
  (l.categories.has id,
    { l with
      categories := l.categories.erase id
      transactions := l.transactions.map fun _ row =>
        { row with categories := row.categories.filter fun c => !(c == id) } })

/-- Removes a transaction with its categories and its link. -/
def removeTransaction (l : Ledger) (id : Ident) : Bool × Ledger :=
  (l.transactions.has id, { l with transactions := l.transactions.erase id })

/-- Removes a rule with its conditions and actions. -/
def removeRule (l : Ledger) (id : Ident) : Bool × Ledger :=
  (l.rules.has id,
    { l with
      rules := l.rules.erase id
      conditions := l.conditions.filter fun _ row => !(row.rule == id)
      actions := l.actions.filter fun _ row => !(row.rule == id) })

/-- Removes a condition. -/
def removeCondition (l : Ledger) (id : Ident) : Bool × Ledger :=
  (l.conditions.has id, { l with conditions := l.conditions.erase id })

/-- Removes an action. -/
def removeAction (l : Ledger) (id : Ident) : Bool × Ledger :=
  (l.actions.has id, { l with actions := l.actions.erase id })

end Ledger

end LedgerRules
