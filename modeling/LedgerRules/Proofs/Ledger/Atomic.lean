import LedgerRules.Proofs.Ledger.Listing

/-!
# Writes statement by statement

A write to a transaction takes several statements, and each of them can fail after others have
already changed rows. What makes it whole is a bracket around the statements: if one of them fails,
the ledger goes back to where the bracket was opened. The writes of `Ledger` have no such moments in
between, since they check everything first. Here both are shown to come to the same: the same
ledger, the same first error, and no trace of a write that failed.

## Overview

- **Layer A**: statements, which leave what they wrote behind when a later one fails.
- **Layer B**: the writes to a transaction as statements.
- **Layer C**: what statements come to for a caller that sees the ledger only if they succeed.
- **Layer D**: the parts of a write, and the order in which they are checked.
- **Layer E**: changes applied at once and one after the other.
- **Layer F**: a new transaction.
-/

namespace LedgerRules

/-! ## Layer A: statements -/

/-- Statements that are executed one after the other. When one fails, what the earlier ones wrote
    stays in the ledger. -/
abbrev Statements := EStateM LedgerError Ledger

namespace Statements

variable {α β : Type}

/-- A statement that only looks something up. -/
def lookup (f : Ledger → Except LedgerError α) : Statements α := fun l =>
  match f l with
  | .ok a => .ok a l
  | .error e => .error e l

/-- A statement that writes. -/
def change (f : Ledger → Ledger) : Statements Unit := fun l => .ok () (f l)

/-- Statements in a bracket: a failure takes back what they have written. -/
def atomically (x : Statements α) : Statements α := fun l =>
  match x l with
  | .ok a l' => .ok a l'
  | .error e _ => .error e l

end Statements

/-! ## Layer B: writes to a transaction -/

/-- The change of name and description, if there is one. -/
def Changes.base? (c : Changes) : Option BaseUpdate := if c.base.isEmpty then none else some c.base

namespace Ledger

variable {α : Type}

/-- A write for a part that may be missing. -/
def whenSome (write : α → Ledger → Except LedgerError Ledger) (part : Option α) (l : Ledger) :
    Except LedgerError Ledger :=
  match part with
  | none => .ok l
  | some a => write a l

/-- Writes the parts of changes that are there, each in a call of its own. -/
def applySeparately (l : Ledger) (id user : Ident) (c : Changes) : Except LedgerError Ledger := do
  let l ← whenSome (fun base l => l.updateBase id user base) c.base? l
  let l ← whenSome (fun categories l => l.updateCategories id user categories) c.categories l
  whenSome (fun link l => l.linkTransfer id user link) c.transfer l

end Ledger

namespace TransactionRow

/-- A row with another name and description, where there is a new value. -/
def withBase (u : BaseUpdate) (row : TransactionRow) : TransactionRow :=
  { row with name := u.name.getD row.name, description := u.description <|> row.description }

/-- A row with other categories, each once. -/
def withCategories (categories : List Ident) (row : TransactionRow) : TransactionRow :=
  { row with categories := categories.eraseDups }

/-- A row with another link. -/
def withLink (link : TransferLink) (row : TransactionRow) : TransactionRow :=
  { row with transfer := some link }

end TransactionRow

namespace Statements

variable {α β : Type}

/-- Overwrites name and description, where there is a new value. -/
def setBase (id user : Ident) (u : BaseUpdate) : Statements Unit := do
  lookup (·.checkOwned id user)
  change (·.modifyTransaction id (TransactionRow.withBase u))

/-- A list with one more element, unless it is there already. -/
def addNew (categories : List Ident) (category : Ident) : List Ident :=
  if categories.contains category then categories else categories ++ [category]

/-- Adds a category. -/
def addCategory (id category : Ident) : Statements Unit := do
  lookup (·.checkCategories [category])
  change (·.modifyTransaction id fun row =>
    { row with categories := addNew row.categories category })

/-- Adds categories, one statement for each. -/
def addCategories (id : Ident) : List Ident → Statements Unit
  | [] => pure ()
  | category :: categories => do
    addCategory id category
    addCategories id categories

/-- Removes all categories and adds others. -/
def replaceCategories (id : Ident) (categories : List Ident) : Statements Unit := do
  change (·.modifyTransaction id fun row => { row with categories := [] })
  addCategories id categories

/-- Puts a link in the place of an earlier one. -/
def setLink (id : Ident) (link : TransferLink) : Statements Unit := do
  let kept ← lookup (·.keepLink link)
  change (·.modifyTransaction id (TransactionRow.withLink kept))

@[inherit_doc Ledger.updateBase]
def updateBase (id user : Ident) (u : BaseUpdate) : Statements Unit :=
  if u.isEmpty then pure () else setBase id user u

@[inherit_doc Ledger.updateCategories]
def updateCategories (id user : Ident) (categories : List Ident) : Statements Unit := do
  lookup (·.checkOwned id user)
  atomically (replaceCategories id categories)

@[inherit_doc Ledger.linkTransfer]
def linkTransfer (id user : Ident) (link : TransferLink) : Statements Unit := do
  lookup (·.checkOwned id user)
  setLink id link

/-- Statements for a part that may be missing. -/
def whenSome (step : α → Statements Unit) (part : Option α) : Statements Unit :=
  match part with
  | none => pure ()
  | some a => step a

@[inherit_doc Ledger.applyChanges]
def applyChanges (id user : Ident) (c : Changes) : Statements Unit :=
  if c.isEmpty then pure ()
  else do
    lookup (·.checkOwned id user)
    atomically do
      whenSome (setBase id user) c.base?
      whenSome (replaceCategories id) c.categories
      whenSome (setLink id) c.transfer

@[inherit_doc Ledger.applySeparately]
def applySeparately (id user : Ident) (c : Changes) : Statements Unit := do
  whenSome (updateBase id user) c.base?
  whenSome (updateCategories id user) c.categories
  whenSome (linkTransfer id user) c.transfer

/-- Adds a row to the transactions. -/
def insertRow (row : TransactionRow) : Statements Ident := fun l =>
  match Ledger.addRow l.transactions row with
  | .ok (id, transactions) => .ok id { l with transactions }
  | .error e => .error e l

/-- Refuses an account that a user does not own. -/
def checkAccount (user account : Ident) : Statements Unit :=
  lookup fun l =>
    if l.ownsAccount user account then .ok () else .error (.foreignAccount account user)

@[inherit_doc Ledger.insertTransaction]
def insertTransaction (now : Instant) (user : Ident) (new : NewTransaction) :
    Statements Ident := do
  checkAccount user new.account
  atomically do
    let amount ← lookup fun _ => Ledger.keepAmount "transactions" new.amount
    let id ← insertRow
      { user, account := new.account, name := new.name, description := new.description, amount,
        date := Ledger.stamp new.date, createdAt := some (Ledger.stamp now), categories := [],
        transfer := none }
    addCategories id new.categories
    pure id

/-! ## Layer C: what statements come to -/

/-- What statements come to for a caller that sees the ledger only if they succeed. -/
def outcome (x : Statements α) (l : Ledger) : Except LedgerError (α × Ledger) :=
  match x l with
  | .ok a l' => .ok (a, l')
  | .error e _ => .error e

/-- Statements that come to a write. -/
def Performs (x : Statements Unit) (write : Ledger → Except LedgerError Ledger) : Prop :=
  ∀ l, outcome x l = (write l).map fun l' => ((), l')

/-- Statements that leave the ledger as it was if they fail. -/
def Clean (x : Statements α) : Prop := ∀ l e l', x l = .error e l' → l' = l

/-- Statements that have the effect of a write, or fail as it does and have none. -/
def Whole (x : Statements Unit) (write : Ledger → Except LedgerError Ledger) : Prop :=
  ∀ l, x l =
    match write l with
    | .ok l' => .ok () l'
    | .error e => .error e l

variable {l : Ledger}

theorem outcome_pure (a : α) : outcome (pure a) l = .ok (a, l) := rfl

/-- What statements one after the other come to is what the later ones come to where the first have
    ended. -/
theorem outcome_bind (x : Statements α) (f : α → Statements β) :
    outcome (x >>= f) l = outcome x l >>= fun r => outcome (f r.1) r.2 := by
  simp only [outcome, bind, EStateM.bind, Except.bind]
  cases x l <;> rfl

theorem outcome_lookup (f : Ledger → Except LedgerError α) :
    outcome (lookup f) l = (f l).map fun a => (a, l) := by
  simp only [outcome, lookup]
  cases f l <;> rfl

/-- A bracket matters only to those who see the ledger after a failure. -/
theorem outcome_atomically (x : Statements α) : outcome (atomically x) l = outcome x l := by
  simp only [outcome, atomically]
  cases x l <;> rfl

/-- Whatever stands in a bracket is clean. -/
theorem Clean.atomically (x : Statements α) : Clean (atomically x) := by
  intro l e l' h
  simp only [Statements.atomically] at h
  split at h
  · cases h
  · cases h
    rfl

theorem Clean.pure (a : α) : Clean (Pure.pure a : Statements α) := fun _ _ _ h => nomatch h

theorem Clean.change (f : Ledger → Ledger) : Clean (change f) := fun _ _ _ h => nomatch h

/-- Looking something up before clean statements changes nothing that would have to be undone. -/
theorem Clean.lookup_bind (f : Ledger → Except LedgerError α) {g : α → Statements β}
    (hg : ∀ a, Clean (g a)) : Clean (lookup f >>= g) := by
  intro l e l' h
  simp only [Bind.bind, EStateM.bind, lookup] at h
  cases hf : f l with
  | error e' =>
    rw [hf] at h
    cases h
    rfl
  | ok a =>
    rw [hf] at h
    exact hg a l e l' h

/-- What clean statements come to is all there is to them. -/
theorem Clean.eq_of_outcome {x y : Statements α} (hx : Clean x) (hy : Clean y)
    (h : ∀ l, outcome x l = outcome y l) : x = y := by
  funext l
  have hl := h l
  simp only [outcome] at hl
  cases hxl : x l with
  | ok a l₁ =>
    -- Both succeed, or they could not come to the same.
    cases hyl : y l with
    | ok b l₂ => simp_all
    | error e l₂ => simp_all
  | error e l₁ =>
    cases hyl : y l with
    | ok b l₂ => simp_all
    | error e' l₂ =>
      -- Both have left the ledger alone.
      rw [hx l e l₁ hxl, hy l e' l₂ hyl]
      simp_all

/-- Clean statements that come to a write are that write, its failures included. -/
theorem Clean.whole {x : Statements Unit} (hx : Clean x)
    {write : Ledger → Except LedgerError Ledger} (h : Performs x write) : Whole x write := by
  intro l
  have hl := h l
  simp only [outcome] at hl
  cases hxl : x l with
  | ok a l' => cases hwrite : write l <;> simp_all [Except.map]
  -- A failure of clean statements says nothing but the error.
  | error e l' =>
    rw [hx l e l' hxl]
    cases hwrite : write l <;> simp_all [Except.map]

namespace Performs

variable {x y : Statements Unit} {f g : Ledger → Except LedgerError Ledger}

/-- Two writes one after the other, of which the second starts where the first has ended. -/
theorem bind (hx : Performs x f) (hy : Performs y g) :
    Performs (x >>= fun _ => y) fun l => f l >>= g := fun l => by
  rw [outcome_bind, hx l]
  beta_reduce
  cases f l with
  | error e => rfl
  | ok l' => exact hy l'

/-- A write after a look that yields what the write needs. -/
theorem lookup_bind {look : Ledger → Except LedgerError α} {step : α → Statements Unit}
    {write : α → Ledger → Except LedgerError Ledger} (h : ∀ a, Performs (step a) (write a)) :
    Performs (lookup look >>= step) fun l => look l >>= fun a => write a l := fun l => by
  rw [outcome_bind, outcome_lookup]
  beta_reduce
  cases look l with
  | error e => rfl
  | ok a => exact h a l

theorem change (f : Ledger → Ledger) : Performs (change f) fun l => .ok (f l) := fun _ => rfl

/-- A bracket around statements comes to the same write. -/
theorem atomically (hx : Performs x f) : Performs (atomically x) f := fun l => by
  rw [outcome_atomically, hx l]

theorem whenSome {step : α → Statements Unit} {write : α → Ledger → Except LedgerError Ledger}
    (h : ∀ a, Performs (step a) (write a)) (part : Option α) :
    Performs (whenSome step part) (Ledger.whenSome write part) := by
  cases part with
  | none => exact fun _ => rfl
  | some a => exact h a

end Performs

end Statements

/-! ## Layer D: the parts of a write -/

namespace Ledger

/-- Overwrites the name and the description of an owned transaction. -/
def writeBase (id user : Ident) (u : BaseUpdate) (l : Ledger) : Except LedgerError Ledger :=
  l.checkOwned id user >>= fun _ =>
    .ok (l.modifyTransaction id (TransactionRow.withBase u))

/-- Replaces categories by others, if these exist. -/
def writeCategories (id : Ident) (categories : List Ident) (l : Ledger) :
    Except LedgerError Ledger :=
  l.checkCategories categories >>= fun _ =>
    .ok (l.modifyTransaction id (TransactionRow.withCategories categories))

/-- Replaces a link by another, if that one can be kept. -/
def writeLink (id : Ident) (link : TransferLink) (l : Ledger) : Except LedgerError Ledger :=
  l.keepLink link >>= fun kept =>
    .ok (l.modifyTransaction id (TransactionRow.withLink kept))

end Ledger

/-- Adding new categories to none, one after the other, keeps the first of each. -/
theorem foldl_addNew (categories : List Ident) :
    categories.foldl Statements.addNew [] = categories.eraseDups := by
  -- From the end of the list, as the last of them is added last.
  induction categories using List.reverseRecOn with
  | nil => rfl
  | append_singleton categories category ih =>
    rw [List.foldl_append, ih, eraseDups_concat]
    rfl

namespace Ledger

variable {l : Ledger} {id user : Ident} {f g : TransactionRow → TransactionRow}

/-- Two changes of one row are one change. -/
theorem modifyTransaction_modifyTransaction :
    (l.modifyTransaction id f).modifyTransaction id g =
      l.modifyTransaction id fun row => g (f row) := by
  simp only [modifyTransaction_eq_revise, revise_revise]
  refine revise_congr fun e _ => ?_
  by_cases h : (e.1 == id) = true <;> simp [h]

/-- Leaving a row as it is leaves the ledger as it is. -/
theorem modifyTransaction_id : (l.modifyTransaction id fun row => row) = l := by
  rw [modifyTransaction_eq_revise]
  exact revise_eq_self fun e _ => ite_self _

theorem checkCategories_modifyTransaction (categories : List Ident) :
    (l.modifyTransaction id f).checkCategories categories = l.checkCategories categories := rfl

theorem keepLink_modifyTransaction : (l.modifyTransaction id f).keepLink = l.keepLink := rfl

/-- Writing to a row takes it from nobody. -/
theorem checkOwned_modifyTransaction (hf : ∀ row, (f row).user = row.user) (i : Ident) :
    (l.modifyTransaction id f).checkOwned i user = l.checkOwned i user := by
  have howned : ((l.modifyTransaction id f).ownedTransaction? i user).isSome =
      (l.ownedTransaction? i user).isSome := by
    simp only [ownedTransaction?, modifyTransaction_eq_revise, get?_revise]
    cases l.transactions.get? i with
    | none => rfl
    | some row =>
      by_cases hi : i = id <;> by_cases hrow : row.user = user <;>
        simp [Option.filter, hi, hf, hrow]
  simp only [checkOwned, howned]

/-- The first category is checked before the others. -/
theorem checkCategories_cons (category : Ident) (categories : List Ident) :
    l.checkCategories (category :: categories) =
      l.checkCategories [category] >>= fun _ => l.checkCategories categories := by
  by_cases h : l.categories.has category = true <;> simp [checkCategories, h, bind, Except.bind]

end Ledger

namespace Statements

variable {l : Ledger} {id user : Ident}

theorem performs_setBase (u : BaseUpdate) :
    Performs (setBase id user u) (Ledger.writeBase id user u) :=
  .lookup_bind fun _ => .change _

/-- Categories that are added one by one are refused exactly if one of them does not exist. -/
theorem performs_addCategories (categories : List Ident) :
    Performs (addCategories id categories) fun l => l.checkCategories categories >>= fun _ =>
      .ok (l.modifyTransaction id fun row =>
        { row with categories := categories.foldl addNew row.categories }) := by
  -- Each statement finds the categories of the ledger as they were before the first one.
  induction categories with
  | nil => exact fun l => congrArg (fun l => Except.ok ((), l)) Ledger.modifyTransaction_id.symm
  | cons category categories ih =>
    intro l
    -- The write of the first category is a bracket of its own, so the rest starts from its ledger.
    have hfirst : Performs (addCategory id category) _ := .lookup_bind fun _ => .change _
    refine (hfirst.bind ih l).trans (congrArg (Except.map _) ?_)
    simp only [Ledger.checkCategories_cons category categories]
    cases l.checkCategories [category] with
    | error e => rfl
    | ok _ =>
      simp only [bind, Except.bind, Ledger.checkCategories_modifyTransaction,
        Ledger.modifyTransaction_modifyTransaction, List.foldl_cons]

/-- Emptying the list and adding to it is replacing it. -/
theorem performs_replaceCategories (categories : List Ident) :
    Performs (replaceCategories id categories) (Ledger.writeCategories id categories) := by
  intro l
  -- What is added does not depend on the emptied row: only the list that is filed does.
  have hadded : Performs (addCategories id categories) _ := performs_addCategories categories
  refine ((Performs.change _).bind hadded l).trans (congrArg (Except.map _) ?_)
  simp only [bind, Except.bind, Ledger.checkCategories_modifyTransaction,
    Ledger.modifyTransaction_modifyTransaction, foldl_addNew]
  rfl

theorem performs_setLink (link : TransferLink) :
    Performs (setLink id link) (Ledger.writeLink id link) :=
  .lookup_bind fun _ => .change _

/-! ## Layer E: changes at once and one after the other -/

/-- The statements that overwrite a name come to the write of the same name. -/
theorem performs_updateBase (u : BaseUpdate) :
    Performs (updateBase id user u) fun l => l.updateBase id user u := by
  intro l
  unfold updateBase Ledger.updateBase
  split
  · rfl
  · exact performs_setBase u l

/-- The statements that replace the categories come to the write; the bracket is theirs. -/
theorem performs_updateCategories (categories : List Ident) :
    Performs (updateCategories id user categories) fun l =>
      l.updateCategories id user categories :=
  .lookup_bind fun _ => (performs_replaceCategories categories).atomically

theorem performs_linkTransfer (link : TransferLink) :
    Performs (linkTransfer id user link) fun l => l.linkTransfer id user link :=
  .lookup_bind fun _ => performs_setLink link

/-- There is one statement only that writes, and nothing can fail after it. -/
theorem clean_updateBase (u : BaseUpdate) : Clean (updateBase id user u) := by
  unfold updateBase
  split
  · exact .pure ()
  · exact .lookup_bind _ fun _ => .change _

/-- The emptied list is in the bracket, so that it does not stay behind. -/
theorem clean_updateCategories (categories : List Ident) :
    Clean (updateCategories id user categories) :=
  .lookup_bind _ fun _ => .atomically _

theorem clean_linkTransfer (link : TransferLink) : Clean (linkTransfer id user link) :=
  .lookup_bind _ fun _ => .lookup_bind _ fun _ => .change _

/-- All the parts of changes are in one bracket. -/
theorem clean_applyChanges (c : Changes) : Clean (applyChanges id user c) := by
  unfold applyChanges
  split
  · exact .pure ()
  · exact .lookup_bind _ fun _ => .atomically _

/-- Separate calls come to the single writes one after the other. -/
theorem performs_applySeparately (c : Changes) :
    Performs (applySeparately id user c) fun l => l.applySeparately id user c := by
  -- The three calls stand in the same order as in the write, and each comes to its own.
  refine (Performs.whenSome performs_updateBase c.base?).bind ?_
  refine (Performs.whenSome performs_updateCategories c.categories).bind ?_
  exact Performs.whenSome performs_linkTransfer c.transfer

end Statements

namespace Ledger

variable {l : Ledger} {id user : Ident} {c : Changes}

/-- An update without values leaves every row as it is. -/
theorem withBase_of_isEmpty {u : BaseUpdate} (h : u.isEmpty = true) (row : TransactionRow) :
    row.withBase u = row := by
  simp only [BaseUpdate.isEmpty, Bool.and_eq_true, Option.isNone_iff_eq_none] at h
  simp [TransactionRow.withBase, h.1, h.2]

/-- The parts of changes one after the other. -/
def writeParts (id user : Ident) (c : Changes) (l : Ledger) : Except LedgerError Ledger := do
  let l ← whenSome (writeBase id user) c.base? l
  let l ← whenSome (writeCategories id) c.categories l
  whenSome (writeLink id) c.transfer l

/-- Where the transaction is the user's, writing the name cannot fail. -/
theorem whenSome_writeBase (howned : l.checkOwned id user = .ok ()) :
    whenSome (writeBase id user) c.base? l =
      .ok (l.modifyTransaction id (TransactionRow.withBase c.base)) := by
  by_cases h : c.base.isEmpty = true
  · have hsame : TransactionRow.withBase c.base = fun row => row :=
      funext fun row => withBase_of_isEmpty h row
    simp [Changes.base?, h, whenSome, hsame, modifyTransaction_id]
  · simp [Changes.base?, h, whenSome, writeBase, howned, bind, Except.bind]

/-- Categories are written if all of them exist, and a missing part counts as no category. -/
theorem whenSome_writeCategories (categories : Option (List Ident)) :
    whenSome (writeCategories id) categories l =
      l.checkCategories (categories.getD []) >>= fun _ =>
        .ok (l.modifyTransaction id fun row =>
          { row with categories := (categories.map List.eraseDups).getD row.categories }) := by
  cases categories with
  | none => exact congrArg Except.ok modifyTransaction_id.symm
  | some categories => rfl

/-- A link is written if it can be kept, and a missing one leaves the row its own. -/
theorem whenSome_writeLink (link : Option TransferLink) :
    whenSome (writeLink id) link l =
      link.mapM l.keepLink >>= fun kept =>
        .ok (l.modifyTransaction id fun row =>
          { row with transfer := kept <|> row.transfer }) := by
  cases link with
  | none => exact congrArg Except.ok modifyTransaction_id.symm
  | some link =>
    simp only [whenSome, writeLink, Option.mapM_some]
    cases l.keepLink link <;> rfl

/-- Checking everything first comes to the same as checking each part before it is written. -/
theorem writeParts_eq (howned : l.checkOwned id user = .ok ()) (hsome : c.isEmpty = false) :
    writeParts id user c l = l.applyChanges id user c := by
  -- All the changes are of one row, so they are drawn together once the checks are in one order.
  rw [writeParts, whenSome_writeBase howned, applyChanges, hsome]
  simp only [whenSome_writeCategories, whenSome_writeLink, checkCategories_modifyTransaction,
    modifyTransaction_modifyTransaction, howned, bind, Except.bind]
  cases l.checkCategories (c.categories.getD []) with
  | error e => rfl
  | ok _ =>
    simp only [keepLink_modifyTransaction]
    cases c.transfer.mapM l.keepLink with
    | error e => rfl
    | ok kept => exact congrArg Except.ok modifyTransaction_modifyTransaction

/-- An update without values is no part of the changes, so the test for it is made once. -/
theorem whenSome_updateBase :
    whenSome (fun base l => l.updateBase id user base) c.base? l =
      whenSome (writeBase id user) c.base? l := by
  by_cases h : c.base.isEmpty = true
  · simp [Changes.base?, h, whenSome]
  · have hsome : c.base? = some c.base := if_neg h
    rw [hsome, whenSome, whenSome, updateBase, if_neg h]
    rfl

/-- Where the transaction is the user's, the call for the categories is their write. -/
theorem whenSome_updateCategories (howned : l.checkOwned id user = .ok ())
    (categories : Option (List Ident)) :
    whenSome (fun categories l => l.updateCategories id user categories) categories l =
      whenSome (writeCategories id) categories l := by
  cases categories with
  | none => rfl
  | some categories =>
    rw [whenSome, updateCategories, howned]
    rfl

/-- Where the transaction is the user's, the call for the link is its write. -/
theorem whenSome_linkTransfer (howned : l.checkOwned id user = .ok ())
    (link : Option TransferLink) :
    whenSome (fun link l => l.linkTransfer id user link) link l =
      whenSome (writeLink id) link l := by
  cases link with
  | none => rfl
  | some link =>
    rw [whenSome, linkTransfer, howned]
    rfl

/-- The single writes check once more what no write changes: who owns the transaction. -/
theorem applySeparately_eq (howned : l.checkOwned id user = .ok ()) :
    l.applySeparately id user c = writeParts id user c l := by
  have hbase : (l.modifyTransaction id (.withBase c.base)).checkOwned id user = .ok () := by
    rw [checkOwned_modifyTransaction (f := .withBase c.base) fun _ => rfl, howned]
  simp only [applySeparately, writeParts, whenSome_updateBase, whenSome_writeBase howned, bind,
    Except.bind, whenSome_updateCategories hbase]
  cases hcategories : whenSome (writeCategories id) c.categories
      (l.modifyTransaction id (.withBase c.base)) with
  | error e => rfl
  | ok l' =>
    -- Whichever categories were written, the row is still the user's.
    rw [whenSome_writeCategories] at hcategories
    obtain ⟨-, -, h⟩ := bind_eq_ok_iff.mp hcategories
    cases h
    refine whenSome_linkTransfer ?_ c.transfer
    rw [checkOwned_modifyTransaction, hbase]
    exact fun _ => rfl

/-- **Changes applied at once are the single writes one after the other.** -/
theorem applyChanges_eq_applySeparately (l : Ledger) (id user : Ident) (c : Changes) :
    l.applyChanges id user c = l.applySeparately id user c := by
  cases hempty : c.isEmpty with
  -- Without any part there is nothing to check on either side.
  | true =>
    have h := hempty
    simp only [Changes.isEmpty, Bool.and_eq_true, Option.isNone_iff_eq_none] at h
    obtain ⟨⟨hbase, hcategories⟩, htransfer⟩ := h
    simp [applyChanges, hempty, applySeparately, Changes.base?, hbase, hcategories, htransfer,
      whenSome, bind, Except.bind]
  | false =>
    cases howned : l.checkOwned id user with
    | ok _ => rw [applySeparately_eq howned, writeParts_eq howned hempty]
    | error e =>
      have happly : l.applyChanges id user c = .error e := by
        simp [applyChanges, hempty, howned, bind, Except.bind]
      rw [happly]
      -- Every single write checks the owner, so the first one of them fails.
      by_cases hbase : c.base.isEmpty = true
      · cases hcategories : c.categories with
        | some categories =>
          simp [applySeparately, Changes.base?, hbase, hcategories, whenSome, updateCategories,
            howned, bind, Except.bind]
        | none =>
          cases htransfer : c.transfer with
          | some link =>
            simp [applySeparately, Changes.base?, hbase, hcategories, htransfer, whenSome,
              linkTransfer, howned, bind, Except.bind]
          | none => simp [Changes.isEmpty, hbase, hcategories, htransfer] at hempty
      · simp [applySeparately, Changes.base?, hbase, whenSome, updateBase, howned, bind,
          Except.bind]

end Ledger

namespace Statements

variable {l : Ledger} {id user : Ident}

/-- The statements of changes applied at once. -/
theorem performs_applyChanges (c : Changes) :
    Performs (applyChanges id user c) fun l => l.applyChanges id user c := by
  intro l
  unfold applyChanges
  cases hempty : c.isEmpty with
  | true => simp [Ledger.applyChanges, hempty, outcome_pure, Except.map]
  | false =>
    have hparts : Performs _ (Ledger.writeParts id user c) :=
      (Performs.whenSome (@performs_setBase id user) c.base?).bind
        ((Performs.whenSome performs_replaceCategories c.categories).bind
          (Performs.whenSome performs_setLink c.transfer))
    refine (Performs.lookup_bind (fun _ => hparts.atomically) l).trans
      (congrArg (Except.map _) ?_)
    beta_reduce
    -- The owner is checked before the bracket, and the parts check the rest inside it.
    cases howned : l.checkOwned id user with
    | ok _ => exact Ledger.writeParts_eq howned hempty
    | error e => simp [Ledger.applyChanges, hempty, howned, bind, Except.bind]

end Statements

/-! ## Layer F: a new transaction -/

/-- A row that is changed after it was added might as well have been added like that. -/
theorem Ledger.addRow_changed {α : Type} (table : Table α) (row : α) (f : α → α) :
    addRow table (f row) = (addRow table row).map fun r => (r.1, r.2.modify r.1 f) := by
  unfold addRow Table.insert?
  by_cases hroom : table.highest < Int64.maxValue
  · have hold : table.entries.map
        (fun e => (e.1, if e.1 = table.highest + 1 then f e.2 else e.2)) = table.entries := by
      refine (List.map_congr_left fun e he => ?_).trans (List.map_id _)
      -- The identifiers in use are not above the highest.
      have hlt := Int64.lt_of_le_of_lt (Table.le_highestOf he) (Table.lt_next hroom)
      have hne : e.1 ≠ table.highest + 1 := fun heq => Int64.lt_irrefl (heq ▸ hlt)
      rw [if_neg hne]
      rfl
    simp [hroom, Except.map, Table.modify, Table.map, hold]
  · simp [hroom, Except.map]

namespace Statements

variable {l : Ledger} {user : Ident}

/-- Adding a row is one statement, and it is refused as the table refuses it. -/
theorem outcome_insertRow (row : TransactionRow) :
    outcome (insertRow row) l =
      (Ledger.addRow l.transactions row).map fun r => (r.1, { l with transactions := r.2 }) := by
  simp only [outcome, insertRow]
  cases Ledger.addRow l.transactions row <;> rfl

/-- A transaction is added and filed in one bracket. -/
theorem clean_insertTransaction (now : Instant) (new : NewTransaction) :
    Clean (insertTransaction now user new) :=
  .lookup_bind _ fun _ => .atomically _

/-- A transaction that is added first and filed afterwards is added if and as it would be in one
    step. -/
theorem outcome_insertTransaction_iff {now : Instant} {new : NewTransaction}
    {r : Ident × Ledger} :
    outcome (insertTransaction now user new) l = .ok r ↔
      l.insertTransaction now user new = .ok r := by
  have hfile (id : Ident) (l : Ledger) := @performs_addCategories id new.categories l
  rw [insertTransaction, Ledger.insertTransaction, checkAccount]
  simp only [outcome_bind, outcome_lookup, outcome_atomically, outcome_insertRow, outcome_pure,
    hfile]
  -- The account is judged first, then the amount, then the room and the categories.
  cases l.ownsAccount user new.account with
  | false => simp [Except.map, bind, Except.bind]
  | true =>
    cases Ledger.keepAmount "transactions" new.amount with
    | error e => simp [Except.map, bind, Except.bind]
    | ok amount =>
      -- The row as it is in the end is the row as it was added, filed under its categories.
      have hadd := Ledger.addRow_changed l.transactions
        { user, account := new.account, name := new.name, description := new.description, amount,
          date := Ledger.stamp new.date, createdAt := some (Ledger.stamp now), categories := [],
          transfer := none }
        fun row => { row with categories := new.categories.foldl addNew row.categories }
      simp only [foldl_addNew] at hadd
      have hcheck (transactions : Table TransactionRow) :
          ({ l with transactions } : Ledger).checkCategories new.categories =
            l.checkCategories new.categories := rfl
      simp only [Except.map, bind, Except.bind, Bool.not_true, Bool.false_eq_true, if_false,
        if_true, pure, Except.pure, hadd]
      -- Where no row can be added the categories do not matter, and the other way round.
      generalize Ledger.addRow l.transactions _ = added
      cases added with
      | error e => cases l.checkCategories new.categories <;> simp
      | ok entry =>
        simp only [hcheck]
        cases l.checkCategories new.categories <;> rfl

/-- The statements of a new transaction succeed exactly if it can be added. -/
theorem insertTransaction_eq_ok_iff {now : Instant} {new : NewTransaction} {i : Ident}
    {l' : Ledger} :
    insertTransaction now user new l = .ok i l' ↔
      l.insertTransaction now user new = .ok (i, l') := by
  rw [← outcome_insertTransaction_iff, outcome]
  cases insertTransaction now user new l <;> simp

end Statements

namespace Ledger

variable {l l' : Ledger} {user i : Ident} {now : Instant} {new : NewTransaction}

/-- What stands in the way of a new transaction. -/
theorem insertTransaction_refused
    (h : l.ownsAccount user new.account = false ∨ new.amount.isNaN = true ∨
      ∃ category ∈ new.categories, l.categories.has category = false) :
    ∀ r, l.insertTransaction now user new ≠ .ok r := by
  intro r hinsert
  unfold insertTransaction at hinsert
  split at hinsert
  · cases hinsert
  -- A transaction that was added has passed all three checks.
  · rename_i howns
    obtain ⟨amount, hamount, hinsert⟩ := bind_eq_ok_iff.mp hinsert
    obtain ⟨⟨⟩, hcategories, -⟩ := bind_eq_ok_iff.mp hinsert
    rcases h with hforeign | hnumber | ⟨category, hmem, hmissing⟩
    · simp [hforeign] at howns
    · simp [keepAmount, Amount.kept?, hnumber] at hamount
    · have hhas := checkCategories_eq_ok_iff.mp hcategories category hmem
      simp [hmissing] at hhas

/-- A new transaction gets the identifier after the highest one. -/
theorem id_of_insertTransaction (h : l.insertTransaction now user new = .ok (i, l')) :
    i = l.transactions.highest + 1 := by
  unfold insertTransaction at h
  split at h
  · cases h
  · obtain ⟨amount, -, h⟩ := bind_eq_ok_iff.mp h
    obtain ⟨⟨⟩, -, h⟩ := bind_eq_ok_iff.mp h
    obtain ⟨⟨i, transactions⟩, hadd, h⟩ := bind_eq_ok_iff.mp h
    cases h
    exact (Table.entries_insert? (insert?_of_addRow hadd)).2.1

end Ledger

/-- **Writes are whole or not at all.** The statements by which changes are applied are the single
    writes for the parts that are there, in separate calls, with one bracket around them. They have
    the effect of `Ledger.applyChanges`, or fail with its error and have none; and that write
    succeeds if all the single writes do, one after the other, with the same ledger, and fails
    with the error of the first one that fails. Each single write is whole as well, and so is a new
    transaction: one for an account that its user does not own, with an amount that is no number or
    with a category that does not exist, wherever it stands in the list, fails and leaves the
    ledger as it was. After a failure the next one gets the identifier that it would have got. -/
theorem writes_are_atomic (user : Ident) :
    (∀ id changes,
      Statements.applyChanges id user changes =
        Statements.atomically (Statements.applySeparately id user changes) ∧
      (Statements.applyChanges id user changes).Whole (fun l => l.applyChanges id user changes) ∧
      ∀ l : Ledger, l.applyChanges id user changes = l.applySeparately id user changes) ∧
    (∀ id base, (Statements.updateBase id user base).Whole fun l => l.updateBase id user base) ∧
    (∀ id categories, (Statements.updateCategories id user categories).Whole fun l =>
      l.updateCategories id user categories) ∧
    (∀ id link, (Statements.linkTransfer id user link).Whole fun l =>
      l.linkTransfer id user link) ∧
    ∀ (l : Ledger) (now : Instant) (new : NewTransaction),
      (∀ i l', Statements.insertTransaction now user new l = .ok i l' ↔
        l.insertTransaction now user new = .ok (i, l')) ∧
      (∀ e l', Statements.insertTransaction now user new l = .error e l' →
        l' = l ∧
        ∀ now' user' next i l'', Statements.insertTransaction now' user' next l' = .ok i l'' →
          i = l.transactions.highest + 1) ∧
      ((l.ownsAccount user new.account = false ∨ new.amount.isNaN = true ∨
          ∃ category ∈ new.categories, l.categories.has category = false) →
        ∃ e, Statements.insertTransaction now user new l = .error e l) := by
  refine ⟨fun id changes => ⟨?_, ?_, ?_⟩, ?_, ?_, ?_, fun l now new => ⟨?_, ?_, ?_⟩⟩
  -- Both sides are clean and come to the same, so they are the same statements.
  · refine (Statements.clean_applyChanges changes).eq_of_outcome (.atomically _) fun l => ?_
    rw [Statements.outcome_atomically, Statements.performs_applyChanges changes l,
      Statements.performs_applySeparately changes l]
    exact congrArg _ (l.applyChanges_eq_applySeparately id user changes)
  · exact (Statements.clean_applyChanges changes).whole (Statements.performs_applyChanges changes)
  · exact fun l => l.applyChanges_eq_applySeparately id user changes
  · exact fun id base =>
      (Statements.clean_updateBase base).whole (Statements.performs_updateBase base)
  · exact fun id categories => (Statements.clean_updateCategories categories).whole
      (Statements.performs_updateCategories categories)
  · exact fun id link =>
      (Statements.clean_linkTransfer link).whole (Statements.performs_linkTransfer link)
  · exact fun i l' => Statements.insertTransaction_eq_ok_iff
  · intro e l' hfails
    -- A failure leaves no row behind, so the next identifier is still free.
    have hsame := Statements.clean_insertTransaction now new l e l' hfails
    refine ⟨hsame, fun now' user' next i l'' hnext => ?_⟩
    rw [hsame] at hnext
    exact Ledger.id_of_insertTransaction (Statements.insertTransaction_eq_ok_iff.mp hnext)
  · intro hrefused
    cases hrun : Statements.insertTransaction now user new l with
    | ok i l' =>
      exact absurd (Statements.insertTransaction_eq_ok_iff.mp hrun)
        (Ledger.insertTransaction_refused hrefused _)
    | error e l' => exact ⟨e, by rw [Statements.clean_insertTransaction now new l e l' hrun]⟩

/-- Separate calls leave the name behind when the second of two categories does not exist. -/
example :
    let changes : Changes := ⟨⟨some "Film", none⟩, some [1, 9], none⟩
    ∃ l', Statements.applySeparately 1 1 changes Ledger.streaming =
        .error (.store .foreignKey) l' ∧
      (l'.transactions.get? 1).map (·.name) = some "Film" :=
  ⟨_, rfl, rfl⟩

end LedgerRules
