import LedgerRules.Ledger.Entity
import LedgerRules.Rules.Word
/-!
# Rules

A rule says on which transactions it acts, by conditions, and what it does to them, by actions.
Conditions and actions compare and write literals, which are kept as text.
-/

namespace LedgerRules

/-- How the conditions of a rule are combined. -/
inductive Logic where
  /-- Every condition must hold. -/
  | and
  /-- One condition suffices. -/
  | or
deriving DecidableEq

/-- What a condition looks at. -/
inductive Subject where
  /-- The amount. -/
  | amount
  /-- The name. -/
  | name
  /-- The description. -/
  | description
  /-- The categories. -/
  | category
  /-- The account on which the transaction is booked. -/
  | transfer
deriving DecidableEq

/-- How a condition compares its subject with its literal. -/
inductive Comparison where
  /-- The subject equals the literal. -/
  | equals
  /-- The subject is above the literal. -/
  | greater
  /-- The subject is below the literal. -/
  | lower
  /-- The literal occurs in the subject. -/
  | contains
deriving DecidableEq

instance : Vocabulary Logic where
  title := "condition logic"
  values := [.and, .or]
  word
    | .and => "and"
    | .or => "or"
  aliases := []

instance : Vocabulary Subject where
  title := "condition field"
  values := [.amount, .name, .description, .category, .transfer]
  word
    | .amount => "amount"
    | .name => "name"
    | .description => "description"
    | .category => "category"
    | .transfer => "transfer"
  aliases := []

instance : Vocabulary Comparison where
  title := "condition operator"
  values := [.equals, .greater, .lower, .contains]
  word
    | .equals => "equals"
    | .greater => "greater"
    | .lower => "lower"
    | .contains => "contains"
  aliases := [("eq", .equals), ("gt", .greater), ("lt", .lower)]

instance : Vocabulary Part where
  title := "action field"
  values := [.name, .description, .category, .transfer]
  word
    | .name => "name"
    | .description => "description"
    | .category => "category"
    | .transfer => "transfer"
  aliases := []

/-- A condition of a rule. -/
structure Condition where
  /-- The condition's identifier. -/
  id : Ident
  /-- The rule to which it belongs. -/
  rule : Ident
  /-- What it looks at. -/
  subject : Subject
  /-- How it compares. -/
  comparison : Comparison
  /-- What it compares with. -/
  literal : String
deriving DecidableEq

/-- An action of a rule. -/
structure Action where
  /-- The action's identifier. -/
  id : Ident
  /-- The rule to which it belongs. -/
  rule : Ident
  /-- The part of a transaction that it writes. -/
  part : Part
  /-- What it writes. -/
  literal : String
deriving DecidableEq

/-- A rule without its conditions and actions. -/
structure Rule where
  /-- The rule's identifier. -/
  id : Ident
  /-- The user who owns the rule. -/
  user : Ident
  /-- The rule's name. -/
  name : String
  /-- The rule's description, if it has one. -/
  description : Option String
  /-- The first moment whose transactions the rule may touch. -/
  effectiveFrom : Instant
  /-- How the conditions are combined. -/
  logic : Logic
  /-- When the rule was recorded. -/
  createdAt : Instant
deriving DecidableEq

/-- A rule with its conditions and actions, which is what the engine evaluates. -/
structure CompleteRule where
  /-- The rule itself. -/
  rule : Rule
  /-- Its conditions. -/
  conditions : List Condition
  /-- Its actions in the order of application. -/
  actions : List Action
deriving DecidableEq

/-- Whether evaluating the rule needs to know the user's accounts. -/
def CompleteRule.referencesTransfers (r : CompleteRule) : Bool :=
  (r.conditions.any fun c => c.subject = .transfer) || r.actions.any fun a => a.part = .transfer

end LedgerRules
