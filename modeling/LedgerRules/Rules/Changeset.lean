import LedgerRules.Rules.Rule
/-!
# Changesets

What the rules want changed on one transaction, before anything is written. The first value
staged for the name, the description or the transfer stays; a category is staged once. A staging
that is refused leaves the changeset as it was.
-/

namespace LedgerRules

/-- The changes staged for one transaction. -/
structure Changeset where
  /-- The transaction. -/
  transaction : Ident
  /-- The new name. -/
  name : Option String
  /-- The new description. -/
  description : Option String
  /-- The categories to add. -/
  categories : List Ident
  /-- The transfer to link. -/
  transfer : Option TransferLink
  /-- The rules that staged something, in the order of evaluation. -/
  rules : List Ident
deriving DecidableEq

namespace Changeset

/-- The changeset in which nothing is staged. -/
def empty (transaction : Ident) : Changeset := ⟨transaction, none, none, [], none, []⟩

/-- Whether nothing is staged. -/
def isEmpty (cs : Changeset) : Bool :=
  cs.name.isNone && cs.description.isNone && cs.categories.isEmpty && cs.transfer.isNone

/-- Whether something is staged for a part. -/
def stages (cs : Changeset) : Part → Bool
  | .name => cs.name.isSome
  | .description => cs.description.isSome
  | .category => !cs.categories.isEmpty
  | .transfer => cs.transfer.isSome

/-- The parts for which something is staged. -/
def parts (cs : Changeset) : List Part :=
  (Vocabulary.values (α := Part)).filter cs.stages

/-- Stages a name unless there is one. -/
def stageName (cs : Changeset) (name : String) : Option Changeset :=
  if cs.name.isSome then none else some { cs with name := some name }

/-- Stages a description unless there is one. -/
def stageDescription (cs : Changeset) (description : String) : Option Changeset :=
  if cs.description.isSome then none else some { cs with description := some description }

/-- Stages a category unless it is staged already. -/
def stageCategory (cs : Changeset) (category : Ident) : Option Changeset :=
  if cs.categories.contains category then none
  else some { cs with categories := cs.categories ++ [category] }

/-- Stages a transfer unless there is one. -/
def stageTransfer (cs : Changeset) (transfer : TransferLink) : Option Changeset :=
  if cs.transfer.isSome then none else some { cs with transfer := some transfer }

/-- Credits a rule with what it staged, once. -/
def credit (cs : Changeset) (rule : Ident) : Changeset :=
  if cs.rules.contains rule then cs else { cs with rules := cs.rules ++ [rule] }

end Changeset

end LedgerRules
