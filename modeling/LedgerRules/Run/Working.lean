import LedgerRules.Rules.Engine
import LedgerRules.Run.Summary
import LedgerRules.Run.World
/-!
# The rules of a run

The working set of a run: the rules that were asked for, or all that are in effect, each with its
conditions and actions, and the engine that evaluates them.
-/

namespace LedgerRules

namespace Run

/-- The rules under the given identifiers, each once; those that the user does not own are left
out. -/
def namedRules (env : Surroundings) (user : Ident) : List Ident → Run (List Rule)
  | [] => pure []
  | id :: ids => do
    let rule ← perform env (.rule id user)
    let rules ← namedRules env user ids
    pure (rule.toList ++ rules)

/-- The rules of a user that are in effect. -/
def currentRules (env : Surroundings) (user : Ident) : Run (List Rule) := do
  let rules ← perform env (.rules user)
  pure (rules.filter fun rule => decide (rule.effectiveFrom ≤ env.now))

/-- Adds conditions and actions to rules. -/
def complete (env : Surroundings) : List Rule → Run (List CompleteRule)
  | [] => pure []
  | rule :: rules => do
    let conditions ← perform env (.conditions rule.id)
    let actions ← perform env (.actions rule.id)
    let others ← complete env rules
    pure (⟨rule, conditions, actions⟩ :: others)

/-- The rules of a run in the order of evaluation. Rules that are named need not be in effect. -/
def workingSet (env : Surroundings) (user : Ident) (named : Option (List Ident)) :
    Run (List CompleteRule) := do
  let rules ←
    match named with
    | some ids => namedRules env user ids.eraseDups
    | none => currentRules env user
  complete env rules

/-- The engine for rules. The accounts are read only where a rule looks at transfers. -/
def engineFor (env : Surroundings) (user : Ident) (rules : List CompleteRule) : Run Engine := do
  let categories ← perform env (.categories user)
  let accounts ←
    if rules.any CompleteRule.referencesTransfers then perform env (.accounts user) else pure []
  pure { categories, accounts, rules }

end Run

end LedgerRules
