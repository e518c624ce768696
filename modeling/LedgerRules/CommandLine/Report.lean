import LedgerRules.Amount.Fixed
import LedgerRules.Calendar.Field
import LedgerRules.Rules.Changeset
import LedgerRules.Rules.Rule
import LedgerRules.Run.Summary
import LedgerRules.Text.Column
import LedgerRules.Text.Quoted
/-!
# Reports

What the program prints for people to read, line by line.
-/

namespace LedgerRules.CommandLine

open Text

/-- Lines as one text. -/
def unlines (lines : List String) : String := String.join (lines.map fun line => line ++ "\n")

/-- The rule under a heading. -/
def underline : String := "   ─────────────────────────────"

/-- Identifiers of rules in a row. -/
def ruleNumbers (rules : List Ident) : String :=
  ", ".intercalate (rules.map fun id => "#" ++ Ident.toText id)

/-! ## A new ledger -/

/-- The line before a ledger is opened for the first time. -/
def initStart (path : String) : List String := [s!"🔧 Initializing database at {path}..."]

/-- The lines after it. -/
def initDone (locked : Bool) : List String :=
  [if locked then "   🔒 Encryption: ENABLED" else "   ⚠️  Encryption: DISABLED (--no-encrypt)",
    "✅ Database initialized successfully!",
    "",
    "Next steps:",
    "  1. List rules: sift rules --user <id>",
    "  2. Apply them: sift run --user <id>"]

/-! ## The summary of a run -/

/-- A transaction that was changed. -/
def modifiedLine (m : Modified) : String :=
  "   " ++ flushRight 8 (Ident.toText m.transaction) ++ " │ " ++
    flushLeft 20 (cut 20 (ruleNumbers m.rules)) ++ " │ " ++
    ", ".intercalate (m.parts.map Vocabulary.word)

/-- The transactions that were changed, or why there are none. -/
def modifiedLines (s : Summary) : List String :=
  if s.totalRules = 0 then ["", "No rules in effect. Nothing to do."]
  else if s.modified.isEmpty then ["", "✅ Nothing to change."]
  else
    ["",
      "   " ++ flushRight 8 "Txn" ++ " │ " ++ flushLeft 20 "Rules" ++ " │ Fields",
      "   ─────────┼──────────────────────┼─────────────────────────"] ++
      s.modified.map modifiedLine

/-- A count of a run. -/
def countText (n : Nat) : String := String.ofList (decimal n)

/-- The summary of a run. -/
def summaryLines (s : Summary) : List String :=
  ["",
    "📊 Rule Run",
    underline,
    "   Rules evaluated:        " ++ countText s.totalRules.toNat,
    "   Transactions processed: " ++ countText s.processed.toNat,
    "   Transactions modified:  " ++ countText s.modified.length] ++
  (if s.cancelled then
    ["", "⚠️  Run was cancelled before finishing; results are partial."]
  else []) ++
  modifiedLines s

/-! ## A list of rules -/

/-- A condition of a listed rule. -/
def conditionLine (c : Condition) : String :=
  "          if   " ++ Vocabulary.word c.subject ++ " " ++ Vocabulary.word c.comparison ++ " " ++
    quoted c.literal

/-- An action of a listed rule. -/
def actionLine (a : Action) : String :=
  "          then " ++ Vocabulary.word a.part ++ " = " ++ quoted a.literal

/-- A row of the table of rules. -/
def ruleRow (id name logic date : String) : String :=
  "   " ++ flushRight 4 id ++ " │ " ++ flushLeft 24 name ++ " │ " ++ flushLeft 5 logic ++ " │ " ++
    date

/-- A rule with its conditions and actions. -/
def ruleLines (r : CompleteRule) : List String :=
  ruleRow (Ident.toText r.rule.id) (cut 24 r.rule.name) (Vocabulary.word r.rule.logic)
      (String.ofList (Calendar.dateText r.rule.effectiveFrom.date)) ::
    r.conditions.map conditionLine ++ r.actions.map actionLine

/-- The rules of a user. -/
def ruleListLines (user : Ident) (rules : List CompleteRule) : List String :=
  if rules.isEmpty then [s!"No rules defined for user {Ident.toText user}."]
  else
    ["",
      "📋 Rules",
      "   ─────────────────────────────────────────────────────────────",
      ruleRow "ID" "Name" "Logic" "Effective from",
      "   ─────┼──────────────────────────┼───────┼─────────────────"] ++
      rules.flatMap ruleLines

/-! ## A preview -/

/-- What is staged for a transaction, part by part. -/
def stagedLines (cs : Changeset) : List String :=
  (cs.name.map fun name => "   Name:        " ++ name).toList ++
  (cs.description.map fun description => "   Description: " ++ description).toList ++
  (if cs.categories.isEmpty then []
  else ["   Categories:  + " ++ ", ".intercalate (cs.categories.map Ident.toText)]) ++
  (cs.transfer.map fun link =>
    "   Transfer:    " ++ link.amount.fixed ++ " to account " ++ Ident.toText link.account).toList

/-- What the rules would do to a transaction. -/
def previewLines (transaction : Ident) : Option Changeset → List String
  | none => [s!"No rule would change transaction {Ident.toText transaction}."]
  | some cs =>
    ["", s!"🔎 Transaction {Ident.toText transaction} (dry run)", underline] ++ stagedLines cs ++
      ["   Rules:       " ++ ruleNumbers cs.rules]

end LedgerRules.CommandLine
