import LedgerRules.Json.Form
import LedgerRules.Ledger.Write
import LedgerRules.Run.Summary
/-!
# JSON forms of the ledger's types

Each type is a record with its parts under fixed keys. A rule with its conditions and actions has
the members of the rule and two lists beside them.
-/

namespace LedgerRules

open Json

instance : Form Account where
  shape := record
    [field Ident "id", field Ident "user_id", field String "name", field Instant "created_at"]
  encode a := .record
    [("id", Form.encode a.id), ("user_id", Form.encode a.user), ("name", Form.encode a.name),
      ("created_at", Form.encode a.createdAt)]
  decode
    | .record [("id", id), ("user_id", user), ("name", name), ("created_at", createdAt)] => do
      pure ⟨← Form.decode id, ← Form.decode user, ← Form.decode name, ← Form.decode createdAt⟩
    | _ => none

instance : Form Category where
  shape := record
    [field Ident "id", field Ident "user_id", field String "name", field Instant "created_at"]
  encode c := .record
    [("id", Form.encode c.id), ("user_id", Form.encode c.user), ("name", Form.encode c.name),
      ("created_at", Form.encode c.createdAt)]
  decode
    | .record [("id", id), ("user_id", user), ("name", name), ("created_at", createdAt)] => do
      pure ⟨← Form.decode id, ← Form.decode user, ← Form.decode name, ← Form.decode createdAt⟩
    | _ => none

instance : Form TransferLink where
  shape := record [field Ident "account_id", field Amount "amount"]
  encode l := .record [("account_id", Form.encode l.account), ("amount", Form.encode l.amount)]
  decode
    | .record [("account_id", account), ("amount", amount)] => do
      pure ⟨← Form.decode account, ← Form.decode amount⟩
    | _ => none

instance : Form Transaction where
  shape := record
    [field Ident "id", field Ident "user_id", field Ident "account_id", field String "name",
      optionalField String "description", field Amount "amount", field Instant "date",
      field (List Ident) "category_ids", field Instant "created_at"]
  encode t := .record
    [("id", Form.encode t.id), ("user_id", Form.encode t.user),
      ("account_id", Form.encode t.account), ("name", Form.encode t.name),
      ("description", encodeOption t.description), ("amount", Form.encode t.amount),
      ("date", Form.encode t.date), ("category_ids", Form.encode t.categories),
      ("created_at", Form.encode t.createdAt)]
  decode
    | .record
      [("id", id), ("user_id", user), ("account_id", account), ("name", name),
        ("description", description), ("amount", amount), ("date", date),
        ("category_ids", categories), ("created_at", createdAt)] => do
      pure
        ⟨← Form.decode id, ← Form.decode user, ← Form.decode account, ← Form.decode name,
          ← decodeOption description, ← Form.decode amount, ← Form.decode date,
          ← Form.decode categories, ← Form.decode createdAt⟩
    | _ => none

instance : Form BaseUpdate where
  shape := record [optionalField String "name", optionalField String "description"]
  encode u := .record
    [("name", encodeOption u.name), ("description", encodeOption u.description)]
  decode
    | .record [("name", name), ("description", description)] => do
      pure ⟨← decodeOption name, ← decodeOption description⟩
    | _ => none

instance : Form Changeset where
  shape := record
    [field Ident "transaction_id", optionalField String "name_update",
      optionalField String "desc_update", field (List Ident) "category_adds",
      optionalField TransferLink "transfer", field (List Ident) "applied_rule_ids"]
  encode cs := .record
    [("transaction_id", Form.encode cs.transaction), ("name_update", encodeOption cs.name),
      ("desc_update", encodeOption cs.description),
      ("category_adds", Form.encode cs.categories), ("transfer", encodeOption cs.transfer),
      ("applied_rule_ids", Form.encode cs.rules)]
  decode
    | .record
      [("transaction_id", transaction), ("name_update", name), ("desc_update", description),
        ("category_adds", categories), ("transfer", transfer), ("applied_rule_ids", rules)] => do
      pure
        ⟨← Form.decode transaction, ← decodeOption name, ← decodeOption description,
          ← Form.decode categories, ← decodeOption transfer, ← Form.decode rules⟩
    | _ => none

/-! ## Rules -/

instance : Form Condition where
  shape := record
    [field Ident "id", field Ident "rule_id", field Subject "field", field Comparison "operator",
      field String "value"]
  encode c := .record
    [("id", Form.encode c.id), ("rule_id", Form.encode c.rule),
      ("field", Form.encode c.subject), ("operator", Form.encode c.comparison),
      ("value", Form.encode c.literal)]
  decode
    | .record
      [("id", id), ("rule_id", rule), ("field", subject), ("operator", comparison),
        ("value", literal)] => do
      pure
        ⟨← Form.decode id, ← Form.decode rule, ← Form.decode subject, ← Form.decode comparison,
          ← Form.decode literal⟩
    | _ => none

instance : Form Action where
  shape := record
    [field Ident "id", field Ident "rule_id", field Part "field", field String "value"]
  encode a := .record
    [("id", Form.encode a.id), ("rule_id", Form.encode a.rule), ("field", Form.encode a.part),
      ("value", Form.encode a.literal)]
  decode
    | .record [("id", id), ("rule_id", rule), ("field", part), ("value", literal)] => do
      pure ⟨← Form.decode id, ← Form.decode rule, ← Form.decode part, ← Form.decode literal⟩
    | _ => none

/-- The members of a rule. -/
def Rule.members (r : Rule) : List (String × Datum) :=
  [("id", Form.encode r.id), ("user_id", Form.encode r.user), ("name", Form.encode r.name),
    ("description", encodeOption r.description),
    ("effective_from", Form.encode r.effectiveFrom),
    ("condition_logic", Form.encode r.logic), ("created_at", Form.encode r.createdAt)]

instance : Form Rule where
  shape := record
    [field Ident "id", field Ident "user_id", field String "name",
      optionalField String "description", field Instant "effective_from",
      field Logic "condition_logic", field Instant "created_at"]
  encode r := .record r.members
  decode
    | .record
      [("id", id), ("user_id", user), ("name", name), ("description", description),
        ("effective_from", effectiveFrom), ("condition_logic", logic),
        ("created_at", createdAt)] => do
      pure
        ⟨← Form.decode id, ← Form.decode user, ← Form.decode name, ← decodeOption description,
          ← Form.decode effectiveFrom, ← Form.decode logic, ← Form.decode createdAt⟩
    | _ => none

/-- The members of a rule where they are merged with others. -/
def Rule.mergedFields : List MergedField :=
  let ident : Single := .whole (-0x8000000000000000) 0x7FFFFFFFFFFFFFFF
  [⟨"id", false, ident⟩, ⟨"user_id", false, ident⟩, ⟨"name", false, .text⟩,
    ⟨"description", true, .text⟩, ⟨"effective_from", false, .moment⟩,
    ⟨"condition_logic", false, .word (wordsOf Logic)⟩, ⟨"created_at", false, .moment⟩]

instance : Form CompleteRule where
  shape := merged Rule.mergedFields
    [field (List Condition) "conditions", field (List Action) "actions"]
  encode r := .record
    (r.rule.members ++
      [("conditions", Form.encode r.conditions), ("actions", Form.encode r.actions)])
  decode
    | .record
      [("id", id), ("user_id", user), ("name", name), ("description", description),
        ("effective_from", effectiveFrom), ("condition_logic", logic),
        ("created_at", createdAt), ("conditions", conditions), ("actions", actions)] => do
      pure
        ⟨⟨← Form.decode id, ← Form.decode user, ← Form.decode name, ← decodeOption description,
            ← Form.decode effectiveFrom, ← Form.decode logic, ← Form.decode createdAt⟩,
          ← Form.decode conditions, ← Form.decode actions⟩
    | _ => none

/-! ## Runs -/

instance : Form Modified where
  shape := record
    [field Ident "transaction_id", field (List Ident) "applied_rule_ids",
      field (List Part) "updated_field_kinds"]
  encode m := .record
    [("transaction_id", Form.encode m.transaction), ("applied_rule_ids", Form.encode m.rules),
      ("updated_field_kinds", Form.encode m.parts)]
  decode
    | .record
      [("transaction_id", transaction), ("applied_rule_ids", rules),
        ("updated_field_kinds", parts)] => do
      pure ⟨← Form.decode transaction, ← Form.decode rules, ← Form.decode parts⟩
    | _ => none

instance : Form Skipped where
  shape := record [field Ident "transaction_id", field String "reason"]
  encode s := .record
    [("transaction_id", Form.encode s.transaction), ("reason", Form.encode s.reason)]
  decode
    | .record [("transaction_id", transaction), ("reason", reason)] => do
      pure ⟨← Form.decode transaction, ← Form.decode reason⟩
    | _ => none

instance : Form Summary where
  shape := record
    [field (List Modified) "modified", field (List Skipped) "skipped",
      field UInt64 "total_rules", field UInt64 "processed_txns", field Bool "cancelled"]
  encode s := .record
    [("modified", Form.encode s.modified), ("skipped", Form.encode s.skipped),
      ("total_rules", Form.encode s.totalRules), ("processed_txns", Form.encode s.processed),
      ("cancelled", Form.encode s.cancelled)]
  decode
    | .record
      [("modified", modified), ("skipped", skipped), ("total_rules", totalRules),
        ("processed_txns", processed), ("cancelled", cancelled)] => do
      pure
        ⟨← Form.decode modified, ← Form.decode skipped, ← Form.decode totalRules,
          ← Form.decode processed, ← Form.decode cancelled⟩
    | _ => none

end LedgerRules
