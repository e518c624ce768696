import LedgerRules.Amount.Reading
import LedgerRules.Rules.Changeset
import LedgerRules.Text.Occurrence
/-!
# The rule engine

The engine evaluates rules against one transaction and stages what they would change. It knows
the rules and a snapshot of categories and accounts, and never reads or writes a ledger.

## Layers

1. The snapshot answers who owns a category or an account.
2. A condition compares one part of a transaction with its literal; `CompleteRule.covers` combines
   the conditions of a rule and its first moment.
3. An action stages one change or is refused; a rule stages its actions in order and is credited
   if one of them was not refused.
4. `Engine.evaluate` runs all rules in order.
-/

namespace LedgerRules

/-! ## The snapshot -/

/-- The categories and accounts that the engine knows. Of two with one identifier the later
counts. -/
structure Snapshot where
  /-- The categories. -/
  categories : List Category
  /-- The accounts. -/
  accounts : List Account

namespace Snapshot

/-- Whether a category is known and belongs to a user. -/
def ownsCategory (s : Snapshot) (user category : Ident) : Bool :=
  (s.categories.reverse.find? fun c => c.id == category).any fun c => c.user == user

/-- Whether an account is known and belongs to a user. -/
def ownsAccount (s : Snapshot) (user account : Ident) : Bool :=
  (s.accounts.reverse.find? fun a => a.id == account).any fun a => a.user == user

end Snapshot

/-! ## Conditions -/

/-- Compares an amount with a literal. A literal that is no number compares with nothing. -/
def Comparison.holdsOfAmount (comparison : Comparison) (amount : Amount) (literal : String) :
    Bool :=
  match Amount.parse? (Text.trim literal.toList) with
  | none => false
  | some expected =>
    match comparison with
    | .equals => amount.same expected
    | .greater => expected.below amount
    | .lower => amount.below expected
    | .contains => false

/-- Compares a text with a literal, the case of letters aside. -/
def Comparison.holdsOfText (comparison : Comparison) (text literal : String) : Bool :=
  let actual := Text.lowercase text.toList
  let expected := Text.lowercase literal.toList
  match comparison with
  | .equals => actual == expected
  | .contains => Text.occursIn expected actual
  | .greater | .lower => false

/-- Compares what identifiers stand for with a literal: only equality makes sense, and the literal
must name an identifier of which `holds` is true. -/
def Comparison.holdsOfIdent (comparison : Comparison) (literal : String) (holds : Ident → Bool) :
    Bool :=
  match comparison with
  | .equals => (Ident.ofLiteral? literal).any holds
  | .greater | .lower | .contains => false

/-- Whether a condition holds of a transaction. Categories and accounts count only if the
transaction's user owns them. -/
def Condition.holds (s : Snapshot) (t : Transaction) (c : Condition) : Bool :=
  match c.subject with
  | .amount => c.comparison.holdsOfAmount t.amount c.literal
  | .name => c.comparison.holdsOfText t.name c.literal
  | .description => c.comparison.holdsOfText t.descriptionText c.literal
  | .category =>
    c.comparison.holdsOfIdent c.literal fun category =>
      s.ownsCategory t.user category && t.categories.contains category
  | .transfer =>
    c.comparison.holdsOfIdent c.literal fun account =>
      s.ownsAccount t.user account && account == t.account

/-- Whether the conditions of a rule hold of a transaction. A rule without conditions holds of
none. -/
def CompleteRule.matches (s : Snapshot) (t : Transaction) (r : CompleteRule) : Bool :=
  if r.conditions.isEmpty then false
  else
    match r.rule.logic with
    | .and => r.conditions.all (Condition.holds s t)
    | .or => r.conditions.any (Condition.holds s t)

/-- Whether a rule acts on a transaction: it is not older than the rule's first moment and the
conditions hold. -/
def CompleteRule.covers (s : Snapshot) (t : Transaction) (r : CompleteRule) : Bool :=
  decide (r.rule.effectiveFrom ≤ t.date) && r.matches s t

/-! ## Actions -/

/-- Stages what an action wants, or refuses it. Categories and accounts must belong to the
transaction's user; a category must be new and an account another than the transaction's. -/
def Action.stage (s : Snapshot) (t : Transaction) (cs : Changeset) (a : Action) :
    Option Changeset :=
  match a.part with
  | .name => cs.stageName a.literal
  | .description => cs.stageDescription a.literal
  | .category => do
    let category ← Ident.ofLiteral? a.literal
    if s.ownsCategory t.user category && !t.categories.contains category then
      cs.stageCategory category
    else none
  | .transfer => do
    let account ← Ident.ofLiteral? a.literal
    if s.ownsAccount t.user account && account != t.account then
      cs.stageTransfer ⟨account, -t.amount⟩
    else none

/-- Stages actions in order. The flag tells whether one of them, or something before them, was
not refused. -/
def stageActions (s : Snapshot) (t : Transaction) :
    List Action → Changeset → Bool → Changeset × Bool
  | [], cs, staged => (cs, staged)
  | a :: actions, cs, staged =>
    match a.stage s t cs with
    | some cs' => stageActions s t actions cs' true
    | none => stageActions s t actions cs staged

/-- Stages a rule on a transaction and credits it if it staged something. -/
def CompleteRule.stage (s : Snapshot) (t : Transaction) (cs : Changeset) (r : CompleteRule) :
    Changeset :=
  if r.covers s t then
    match stageActions s t r.actions cs false with
    | (cs', true) => cs'.credit r.rule.id
    | (cs', false) => cs'
  else cs

/-! ## The engine -/

/-- Rules with the snapshot against which they are evaluated. -/
structure Engine extends Snapshot where
  /-- The rules in the order of evaluation. -/
  rules : List CompleteRule

/-- Evaluates all rules on a transaction. Nothing is returned where nothing is staged. -/
def Engine.evaluate (e : Engine) (t : Transaction) : Option Changeset :=
  let cs := e.rules.foldl (CompleteRule.stage e.toSnapshot t) (Changeset.empty t.id)
  if cs.isEmpty then none else some cs

end LedgerRules
