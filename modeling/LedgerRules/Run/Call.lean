import LedgerRules.Ledger.Page
import LedgerRules.Ledger.Write
/-!
# Calls of a run

A run reaches its ledger only through the calls listed here. `Call.serve` is the meaning of each
of them; `Call.applyChanges` is the only one that writes.
-/

namespace LedgerRules

/-- What a run asks of its ledger. -/
inductive Call where
  /-- The rules of a user. -/
  | rules (user : Ident)
  /-- A rule of a user. -/
  | rule (id user : Ident)
  /-- The conditions of a rule. -/
  | conditions (rule : Ident)
  /-- The actions of a rule. -/
  | actions (rule : Ident)
  /-- The categories of a user. -/
  | categories (user : Ident)
  /-- The accounts of a user. -/
  | accounts (user : Ident)
  /-- A page of a user's transactions, the newest first. -/
  | page (user : Ident) (page size : UInt64)
  /-- A transaction of a user. -/
  | transaction (id user : Ident)
  /-- The transfer link of a user's transaction. -/
  | transferLink (id user : Ident)
  /-- Writes changes to a user's transaction. -/
  | applyChanges (id user : Ident) (changes : Changes)
deriving DecidableEq

namespace Call

/-- What a call is answered with. -/
abbrev Answer : Call → Type
  | rules _ => List Rule
  | rule _ _ => Option Rule
  | conditions _ => List Condition
  | actions _ => List Action
  | categories _ => List Category
  | accounts _ => List Account
  | page _ _ _ => List Transaction
  | transaction _ _ => Option Transaction
  | transferLink _ _ => Option TransferLink
  | applyChanges _ _ _ => Unit

/-- Answers a call from a ledger, and says what becomes of the ledger. -/
def serve (now : Instant) (l : Ledger) : (c : Call) → Except LedgerError (c.Answer × Ledger)
  | .rules user => (l.rulesOf now user).map (·, l)
  | .rule id user => (l.rule? now id user).map (·, l)
  | .conditions owner => (l.conditionsOf owner).map (·, l)
  | .actions owner => (l.actionsOf owner).map (·, l)
  | .categories user => (l.categoriesOf now user).map (·, l)
  | .accounts user => (l.accountsOf now user).map (·, l)
  | .page user number size => (l.page now user number size .newestFirst).map (·, l)
  | .transaction id user => (l.transaction? now id user).map (·, l)
  | .transferLink id user => .ok (l.transferLink? id user, l)
  | .applyChanges id user changes => (l.applyChanges id user changes).map ((), ·)

end Call

end LedgerRules
