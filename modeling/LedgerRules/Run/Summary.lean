import LedgerRules.Ident
import LedgerRules.Ledger.Entity
/-!
# Requests and summaries of runs
-/

namespace LedgerRules

/-- What a run is asked to cover. -/
structure Request where
  /-- The rules to run, or all rules in effect. -/
  rules : Option (List Ident)
  /-- The transactions to run them on, or all transactions. -/
  transactions : Option (List Ident)
  /-- The size of the pages of a full scan. -/
  pageSize : Option Int64
deriving DecidableEq

/-- Every rule in effect on every transaction. -/
def Request.all : Request := ⟨none, none, none⟩

/-- A transaction that a run changed. -/
structure Modified where
  /-- The transaction. -/
  transaction : Ident
  /-- The rules that staged something for it. -/
  rules : List Ident
  /-- The parts that were written. -/
  parts : List Part
deriving DecidableEq

/-- A transaction that a run deliberately left alone. -/
structure Skipped where
  /-- The transaction. -/
  transaction : Ident
  /-- Why it was left alone. -/
  reason : String
deriving DecidableEq

/-- What a run did. -/
structure Summary where
  /-- The transactions that were changed, in the order of the changes. -/
  modified : List Modified
  /-- The transactions that were left alone. -/
  skipped : List Skipped
  /-- The number of rules. -/
  totalRules : UInt64
  /-- The number of transactions on which the rules were evaluated. -/
  processed : UInt64
  /-- Whether the run was stopped. -/
  cancelled : Bool
deriving DecidableEq

/-- The summary of a run that did nothing. -/
def Summary.empty : Summary := ⟨[], [], 0, 0, false⟩

instance : Inhabited Summary := ⟨Summary.empty⟩

end LedgerRules
