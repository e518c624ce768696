import LedgerRules.Run.Settings
import LedgerRules.Run.Summary
import LedgerRules.Run.World
/-!
# Writing a changeset

A changeset is staged on what a transaction was when it was read. Before it is written the
transaction is read again, and only what still differs is written, in one step.
-/

namespace LedgerRules

/-- Whether a part of a transaction is written. -/
def Changes.writes (c : Changes) : Part → Bool
  | .name => c.base.name.isSome
  | .description => c.base.description.isSome
  | .category => c.categories.isSome
  | .transfer => c.transfer.isSome

/-- The parts of a transaction that are written. -/
def Changes.parts (c : Changes) : List Part := (Vocabulary.values (α := Part)).filter c.writes

namespace Changeset

/-- The name and description that differ from those of a transaction. -/
def baseAgainst (cs : Changeset) (live : Transaction) : BaseUpdate :=
  { name := cs.name.filter fun name => name != live.name
    description := cs.description.filter fun text => live.description != some text }

/-- The categories of a transaction with the new ones after them, if there are new ones. -/
def categoriesAgainst (cs : Changeset) (live : Transaction) : Option (List Ident) :=
  let new := cs.categories.filter fun c => !live.categories.contains c
  if new.isEmpty then none else some (live.categories ++ new)

end Changeset

namespace Run

/-- The transfer that is still to be linked. -/
def transferToLink (env : Surroundings) (settings : Settings) (user : Ident) (cs : Changeset) :
    Run (Option TransferLink) :=
  match cs.transfer with
  | none => pure none
  | some staged =>
    if settings.linkTransfers then do
      let linked ← perform env (.transferLink cs.transaction user)
      pure (if linked.any fun link => link.same staged then none else some staged)
    else pure none

/-- Writes what a changeset still changes, and tells what that was. -/
def apply (env : Surroundings) (settings : Settings) (user : Ident) (cs : Changeset) :
    Run (Option Modified) := do
  match ← perform env (.transaction cs.transaction user) with
  | none => fail (.noTransaction cs.transaction)
  | some live =>
    -- The link is read even if nothing else is left to write.
    let transfer ← transferToLink env settings user cs
    let changes : Changes :=
      ⟨cs.baseAgainst live, cs.categoriesAgainst live, transfer⟩
    if changes.isEmpty then pure none
    else
      perform env (.applyChanges cs.transaction user changes)
      pure (some ⟨cs.transaction, cs.rules, changes.parts⟩)

end Run

end LedgerRules
