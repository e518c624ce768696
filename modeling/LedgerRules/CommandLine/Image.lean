import LedgerRules.Json.Form
import LedgerRules.Ledger.Vault
/-!
# Images of vaults

A vault is kept in its file as a JSON text, table by table. Amounts are kept as their words, so
that infinities survive. An image does not hide anything: a passphrase in it keeps a vault from
being opened by mistake, not from being read.
-/

namespace LedgerRules

open Json

instance : Form NamedRow where
  shape := record
    [field Ident "user_id", field String "name", optionalField String "created_at"]
  encode row := .record
    [("user_id", Form.encode row.user), ("name", Form.encode row.name),
      ("created_at", encodeOption row.createdAt)]
  decode
    | .record [("user_id", user), ("name", name), ("created_at", createdAt)] => do
      pure ⟨← Form.decode user, ← Form.decode name, ← decodeOption createdAt⟩
    | _ => none

/-- The row of a transaction as it is kept. -/
def TransactionRow.members (row : TransactionRow) : List (String × Datum) :=
  [("user_id", Form.encode row.user), ("account_id", Form.encode row.account),
    ("name", Form.encode row.name), ("description", encodeOption row.description),
    ("amount", Form.encode row.amount.bits), ("date", Form.encode row.date),
    ("created_at", encodeOption row.createdAt), ("category_ids", Form.encode row.categories),
    ("transfer_account", encodeOption (row.transfer.map (·.account))),
    ("transfer_amount", encodeOption (row.transfer.map (·.amount.bits)))]

/-- The transfer link of an account and the word of an amount, if there are both. -/
def TransferLink.ofParts (account : Option Ident) (bits : Option UInt64) : Option TransferLink := do
  pure ⟨← account, Amount.ofBits (← bits)⟩

instance : Form TransactionRow where
  shape := record
    [field Ident "user_id", field Ident "account_id", field String "name",
      optionalField String "description", field UInt64 "amount", field String "date",
      optionalField String "created_at", field (List Ident) "category_ids",
      optionalField Ident "transfer_account", optionalField UInt64 "transfer_amount"]
  encode row := .record row.members
  decode
    | .record
      [("user_id", user), ("account_id", account), ("name", name), ("description", description),
        ("amount", amount), ("date", date), ("created_at", createdAt),
        ("category_ids", categories), ("transfer_account", transferAccount),
        ("transfer_amount", transferAmount)] => do
      pure
        ⟨← Form.decode user, ← Form.decode account, ← Form.decode name,
          ← decodeOption description, Amount.ofBits (← Form.decode amount), ← Form.decode date,
          ← decodeOption createdAt, ← Form.decode categories,
          TransferLink.ofParts (← decodeOption transferAccount) (← decodeOption transferAmount)⟩
    | _ => none

instance : Form RuleRow where
  shape := record
    [field Ident "user_id", field String "name", optionalField String "description",
      field String "effective_from", field String "condition_logic",
      optionalField String "created_at"]
  encode row := .record
    [("user_id", Form.encode row.user), ("name", Form.encode row.name),
      ("description", encodeOption row.description),
      ("effective_from", Form.encode row.effectiveFrom),
      ("condition_logic", Form.encode row.logic), ("created_at", encodeOption row.createdAt)]
  decode
    | .record
      [("user_id", user), ("name", name), ("description", description),
        ("effective_from", effectiveFrom), ("condition_logic", logic),
        ("created_at", createdAt)] => do
      pure
        ⟨← Form.decode user, ← Form.decode name, ← decodeOption description,
          ← Form.decode effectiveFrom, ← Form.decode logic, ← decodeOption createdAt⟩
    | _ => none

instance : Form ConditionRow where
  shape := record
    [field Ident "rule_id", field String "field", field String "operator", field String "value"]
  encode row := .record
    [("rule_id", Form.encode row.rule), ("field", Form.encode row.subject),
      ("operator", Form.encode row.comparison), ("value", Form.encode row.literal)]
  decode
    | .record [("rule_id", rule), ("field", subject), ("operator", comparison),
        ("value", literal)] => do
      pure
        ⟨← Form.decode rule, ← Form.decode subject, ← Form.decode comparison,
          ← Form.decode literal⟩
    | _ => none

instance : Form ActionRow where
  shape := record [field Ident "rule_id", field String "field", field String "value"]
  encode row := .record
    [("rule_id", Form.encode row.rule), ("field", Form.encode row.part),
      ("value", Form.encode row.literal)]
  decode
    | .record [("rule_id", rule), ("field", part), ("value", literal)] => do
      pure ⟨← Form.decode rule, ← Form.decode part, ← Form.decode literal⟩
    | _ => none

/-! ## Tables -/

/-- A row with its identifier as it is kept. -/
def encodeEntry {α : Type} [Form α] (entry : Ident × α) : Datum :=
  .record [("id", Form.encode entry.1), ("row", Form.encode entry.2)]

/-- A row with its identifier. -/
def decodeEntry {α : Type} [Form α] : Datum → Option (Ident × α)
  | .record [("id", id), ("row", row)] => do pure (← Form.decode id, ← Form.decode row)
  | _ => none

/-- The table of entries whose identifiers ascend. -/
def Table.ofEntries? {α : Type} (entries : List (Ident × α)) : Option (Table α) :=
  if h : entries.Pairwise fun e f => e.1 < f.1 then some ⟨entries, h⟩ else none

instance {α : Type} [Form α] : Form (Table α) where
  shape := listOf (record [field Ident "id", field α "row"])
  encode t := .list (t.entries.map encodeEntry)
  decode
    | .list items => (items.mapM decodeEntry).bind Table.ofEntries?
    | _ => none

/-! ## Vaults -/

instance : Form Vault where
  shape := record
    [optionalField String "passphrase", field (Table NamedRow) "accounts",
      field (Table NamedRow) "categories", field (Table TransactionRow) "transactions",
      field (Table RuleRow) "rules", field (Table ConditionRow) "conditions",
      field (Table ActionRow) "actions"]
  encode v := .record
    [("passphrase", encodeOption v.passphrase), ("accounts", Form.encode v.ledger.accounts),
      ("categories", Form.encode v.ledger.categories),
      ("transactions", Form.encode v.ledger.transactions), ("rules", Form.encode v.ledger.rules),
      ("conditions", Form.encode v.ledger.conditions), ("actions", Form.encode v.ledger.actions)]
  decode
    | .record
      [("passphrase", passphrase), ("accounts", accounts), ("categories", categories),
        ("transactions", transactions), ("rules", rules), ("conditions", conditions),
        ("actions", actions)] => do
      pure
        ⟨← decodeOption passphrase, ← Form.decode accounts, ← Form.decode categories,
          ← Form.decode transactions, ← Form.decode rules, ← Form.decode conditions,
          ← Form.decode actions⟩
    | _ => none

namespace Vault

/-- The image of a vault. -/
def image (v : Vault) : String := Json.print .indented v ++ "\n"

/-- What a file with these bytes is. A file without bytes counts as none. -/
def ofImage (bytes : ByteArray) : VaultFile :=
  if bytes.isEmpty then .missing
  else
    match (String.fromUTF8? bytes).map (Json.parse Vault) with
    | some (.ok v) => .vault v
    | _ => .other

end Vault

end LedgerRules
