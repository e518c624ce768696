import LedgerRules.Proofs.Ledger.Listing

/-!
# Ledgers that look the same to a user

Two ledgers agree on what a user owns if the rows of the user are the same in both, and those of
conditions and actions that belong to the user's rules. Whatever the user looks up is then the same
in both, and a change to a transaction of the user leaves them in agreement.

## Overview

- **Layer A**: the rows that belong to an owner.
- **Layer B**: agreement, and what is looked up.
- **Layer C**: agreement after a change.
-/

namespace LedgerRules

/-! ## Layer A: the rows of an owner -/

namespace Table

variable {α β : Type} {t t' : Table α} {owner : α → Ident} {i j : Ident}

/-- The rows that belong to an owner. -/
def of (t : Table α) (owner : α → Ident) (i : Ident) : Table α :=
  t.filter fun _ row => owner row == i

/-- An owner's row is found if it is found and belongs to the owner. -/
theorem get?_of : (t.of owner i).get? j = (t.get? j).filter fun row => owner row == i := by
  ext row
  -- Both sides say that the row is an entry and belongs to the owner.
  simp only [Option.filter_eq_some_iff, Table.get?_eq_some_iff]
  exact List.mem_filter

theorem get?_of_eq_some_iff {row : α} :
    (t.of owner i).get? j = some row ↔ t.get? j = some row ∧ owner row = i := by
  simp [get?_of, Option.filter_eq_some_iff]

/-- What belongs to an owner is there in both of two tables that hold the same of the owner. -/
theorem has_of_of_eq (h : t.of owner i = t'.of owner i) {row : α} (hrow : t.get? j = some row)
    (howner : owner row = i) : t.has j = true ∧ t'.has j = true := by
  have hrow' : (t'.of owner i).get? j = some row := by
    rw [← h]
    exact get?_of_eq_some_iff.mpr ⟨hrow, howner⟩
  constructor
  · exact has_eq_true_iff.mpr ⟨row, hrow⟩
  · exact has_eq_true_iff.mpr ⟨row, (get?_of_eq_some_iff.mp hrow').1⟩

/-- A lookup for an owner comes to the same in tables that hold the same of the owner. -/
theorem readOwned_congr (h : t.of owner i = t'.of owner i)
    (read : Ident → α → Except LedgerError β) (id : Ident) :
    Ledger.readOwned t owner read id i = Ledger.readOwned t' owner read id i := by
  -- A lookup for an owner sees no other rows than the owner's.
  have hown : ∀ t : Table α, Ledger.readOwned t owner read id i =
      ((t.of owner i).get? id).mapM (read id) := by
    intro t
    rw [get?_of, Ledger.readOwned]
    cases t.get? id with
    | none => rfl
    | some row => cases howner : owner row == i <;> simp [Option.filter, howner] <;> rfl
  rw [hown, hown, h]

theorem readWhere_congr (h : t.of owner i = t'.of owner i)
    (read : Ident → α → Except LedgerError β) :
    Ledger.readWhere t (owner · == i) read = Ledger.readWhere t' (owner · == i) read := by
  have hentries := congrArg Table.entries h
  exact congrArg (List.mapM fun e : Ident × α => read e.1 e.2) hentries

/-- A change that gives no row to another owner changes the rows of an owner alone. -/
theorem of_modify {f : α → α} (hf : ∀ row, owner (f row) = owner row) (j : Ident) :
    (t.modify j f).of owner i = (t.of owner i).modify j f := by
  apply Table.ext
  simp only [of, filter, modify, map, List.filter_map]
  congr 2
  funext e
  by_cases hj : e.1 = j <;> simp [hj, hf]

end Table

/-! ## Layer B: agreement -/

namespace Ledger

/-- Two ledgers hold the same of what a user owns. -/
structure Agree (user : Ident) (l m : Ledger) : Prop where
  accounts : l.accounts.of NamedRow.user user = m.accounts.of NamedRow.user user
  categories : l.categories.of NamedRow.user user = m.categories.of NamedRow.user user
  transactions : l.transactions.of TransactionRow.user user =
    m.transactions.of TransactionRow.user user
  rules : l.rules.of RuleRow.user user = m.rules.of RuleRow.user user
  conditions : ∀ rule, (l.rules.of RuleRow.user user).has rule = true →
    l.conditions.of ConditionRow.rule rule = m.conditions.of ConditionRow.rule rule
  actions : ∀ rule, (l.rules.of RuleRow.user user).has rule = true →
    l.actions.of ActionRow.rule rule = m.actions.of ActionRow.rule rule

namespace Agree

variable {user : Ident} {l m : Ledger} (h : Agree user l m)
include h

theorem accountsOf (now : Instant) : l.accountsOf now user = m.accountsOf now user :=
  Table.readWhere_congr h.accounts _

theorem categoriesOf (now : Instant) : l.categoriesOf now user = m.categoriesOf now user := by
  -- They are sorted by what the rows say, so equal rows are sorted alike.
  have hentries := congrArg Table.entries h.categories
  exact congrArg (fun entries : List (Ident × NamedRow) =>
    (entries.mergeSort fun e f => decide (e.2.name ≤ f.2.name)).mapM fun e =>
      readCategory now e.1 e.2) hentries

theorem rulesOf (now : Instant) : l.rulesOf now user = m.rulesOf now user :=
  Table.readWhere_congr h.rules _

theorem rule? (now : Instant) (id : Ident) : l.rule? now id user = m.rule? now id user :=
  Table.readOwned_congr h.rules _ id

theorem conditionsOf {rule : Ident} (hrule : (l.rules.of RuleRow.user user).has rule = true) :
    l.conditionsOf rule = m.conditionsOf rule :=
  Table.readWhere_congr (h.conditions rule hrule) _

theorem actionsOf {rule : Ident} (hrule : (l.rules.of RuleRow.user user).has rule = true) :
    l.actionsOf rule = m.actionsOf rule :=
  Table.readWhere_congr (h.actions rule hrule) _

theorem transaction? (now : Instant) (id : Ident) :
    l.transaction? now id user = m.transaction? now id user :=
  Table.readOwned_congr h.transactions _ id

theorem ownedTransaction? (id : Ident) :
    l.ownedTransaction? id user = m.ownedTransaction? id user := by
  have hget := congrArg (Table.get? · id) h.transactions
  simp only [Table.get?_of] at hget
  exact hget

theorem orderedRows (order : ListOrder) : l.orderedRows user order = m.orderedRows user order := by
  have hentries := congrArg Table.entries h.transactions
  unfold Ledger.orderedRows
  rw [show l.transactions.entries.filter (fun e => e.2.user == user) =
    m.transactions.entries.filter fun e => e.2.user == user from hentries]

theorem page (now : Instant) (number size : UInt64) (order : ListOrder) :
    l.page now user number size order = m.page now user number size order := by
  rw [Ledger.page, Ledger.page, h.orderedRows order]

theorem transferLink? (id : Ident) : l.transferLink? id user = m.transferLink? id user := by
  rw [Ledger.transferLink?, Ledger.transferLink?, h.ownedTransaction? id]

/-! ## Layer C: changes -/

/-- Two ledgers go on agreeing if both have the row of one transaction changed in the same way, and
    not to another owner. -/
theorem modifyTransaction {f : TransactionRow → TransactionRow}
    (hf : ∀ row, (f row).user = row.user) (id : Ident) :
    Agree user (l.modifyTransaction id f) (m.modifyTransaction id f) :=
  { h with
    transactions := by
      simp only [Ledger.modifyTransaction, Table.of_modify hf, h.transactions] }

/-- **Changes are written to both alike**, if all that they refer to is there in both or in
    neither. -/
theorem applyChanges (id : Ident) {c : Changes}
    (hcategories : ∀ category ∈ c.categories.getD [],
      l.categories.has category = m.categories.has category)
    (haccount : ∀ link, c.transfer = some link →
      l.accounts.has link.account = m.accounts.has link.account) :
    (∃ f : TransactionRow → TransactionRow, (∀ row, (f row).user = row.user) ∧
      l.applyChanges id user c = .ok (l.modifyTransaction id f) ∧
      m.applyChanges id user c = .ok (m.modifyTransaction id f)) ∨
    ∃ e, l.applyChanges id user c = .error e ∧ m.applyChanges id user c = .error e := by
  have howned : l.checkOwned id user = m.checkOwned id user := by
    rw [checkOwned, checkOwned, h.ownedTransaction? id]
  have hcheck : l.checkCategories (c.categories.getD []) =
      m.checkCategories (c.categories.getD []) := by
    have hall : (c.categories.getD []).all l.categories.has =
        (c.categories.getD []).all m.categories.has := by
      rw [Bool.eq_iff_iff, List.all_eq_true, List.all_eq_true]
      exact forall₂_congr fun category hcategory => by rw [hcategories category hcategory]
    rw [checkCategories, checkCategories, hall]
  have hkeep : c.transfer.mapM l.keepLink = c.transfer.mapM m.keepLink := by
    cases htransfer : c.transfer with
    | none => rfl
    | some link =>
      have hlink : l.keepLink link = m.keepLink link := by
        rw [keepLink, keepLink, haccount link htransfer]
      simp [hlink]
  unfold Ledger.applyChanges
  split
  · -- There is nothing to write.
    have hid : ∀ l : Ledger, l.modifyTransaction id (fun row => row) = l := by
      intro l
      rw [modifyTransaction_eq_revise]
      exact revise_eq_self fun e _ => by split <;> rfl
    exact .inl ⟨fun row => row, fun _ => rfl, by rw [hid], by rw [hid]⟩
  -- The checks are made in the same order in both, and the first that fails is the error of both.
  · rw [howned, hcheck, hkeep]
    cases m.checkOwned id user with
    | error e => exact .inr ⟨e, rfl, rfl⟩
    | ok _ =>
      cases m.checkCategories (c.categories.getD []) with
      | error e => exact .inr ⟨e, rfl, rfl⟩
      | ok _ =>
        cases c.transfer.mapM m.keepLink with
        | error e => exact .inr ⟨e, rfl, rfl⟩
        | ok kept =>
          exact .inl ⟨fun row =>
            { row with
              name := c.base.name.getD row.name
              description := c.base.description <|> row.description
              categories := (c.categories.map List.eraseDups).getD row.categories
              transfer := kept <|> row.transfer }, fun _ => rfl, rfl, rfl⟩

end Agree

end Ledger

end LedgerRules
