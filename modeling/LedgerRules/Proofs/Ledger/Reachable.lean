import LedgerRules.Ledger.Write
import LedgerRules.Proofs.Distinct
import LedgerRules.Proofs.Ledger.Table
import LedgerRules.Proofs.Outcome

/-!
# Reachable ledgers

A ledger is reachable if a sequence of the store's writes leads to it from the empty ledger. What
all of them have in common is `Ledger.Sound`: whatever is kept as text was written from a value,
amounts are kept in their one form, a transaction names each of its categories once, and what a
row names is there.

## Overview

- **Layer A**: the writes of the store and the ledgers they reach.
- **Layer B**: soundness of a row and of a ledger.
- **Layer C**: each write keeps soundness; hence every reachable ledger is sound.
-/

namespace LedgerRules

/-! ## Layer A: writes -/

/-- A write of the store, with its clock where rows are stamped. -/
inductive StoreWrite where
  /-- Records an account. -/
  | createAccount (now : Instant) (user : Ident) (name : String)
  /-- Records a category. -/
  | createCategory (now : Instant) (user : Ident) (name : String)
  /-- Records a rule. -/
  | createRule (now : Instant) (user : Ident) (name : String) (description : Option String)
      (effectiveFrom : Instant) (logic : Logic)
  /-- Adds a condition to a rule. -/
  | addCondition (rule : Ident) (subject : Subject) (comparison : Comparison) (literal : String)
  /-- Adds an action to a rule. -/
  | addAction (rule : Ident) (part : Part) (literal : String)
  /-- Records a transaction. -/
  | insertTransaction (now : Instant) (user : Ident) (new : NewTransaction)
  /-- Changes the name and the description of a transaction. -/
  | updateBase (id user : Ident) (update : BaseUpdate)
  /-- Replaces the categories of a transaction. -/
  | updateCategories (id user : Ident) (categories : List Ident)
  /-- Links a transfer to a transaction. -/
  | linkTransfer (id user : Ident) (link : TransferLink)
  /-- Writes several parts of a transaction at once. -/
  | applyChanges (id user : Ident) (changes : Changes)

/-- What a write makes of a ledger. -/
def StoreWrite.run (l : Ledger) : StoreWrite → Except LedgerError Ledger
  | .createAccount now user name => (l.createAccount now user name).map (·.2)
  | .createCategory now user name => (l.createCategory now user name).map (·.2)
  | .createRule now user name description effectiveFrom logic =>
    (l.createRule now user name description effectiveFrom logic).map (·.2)
  | .addCondition rule subject comparison literal =>
    (l.addCondition rule subject comparison literal).map (·.2)
  | .addAction rule part literal => (l.addAction rule part literal).map (·.2)
  | .insertTransaction now user new => (l.insertTransaction now user new).map (·.2)
  | .updateBase id user update => l.updateBase id user update
  | .updateCategories id user categories => l.updateCategories id user categories
  | .linkTransfer id user link => l.linkTransfer id user link
  | .applyChanges id user changes => l.applyChanges id user changes

namespace Ledger

/-- A ledger to which writes lead from the empty one. -/
inductive Reachable : Ledger → Prop where
  /-- Nothing is written yet. -/
  | empty : Reachable Ledger.empty
  /-- One more write succeeds. -/
  | write {l l' : Ledger} (w : StoreWrite) (hl : Reachable l) (h : w.run l = .ok l') : Reachable l'

/-- The ledger after writes; those that are refused leave it as it is. -/
def afterWrites (l : Ledger) (ws : List StoreWrite) : Ledger :=
  ws.foldl (fun l w => (w.run l).toOption.getD l) l

/-- Any list of writes leads from a reachable ledger to a reachable one; refused ones do not
    count. -/
theorem Reachable.afterWrites {l : Ledger} (hl : Reachable l) (ws : List StoreWrite) :
    Reachable (l.afterWrites ws) := by
  -- On the writes, from the first on, so that the ledger to start from changes.
  induction ws generalizing l with
  | nil => exact hl
  | cons w ws ih =>
    cases hw : w.run l with
    -- Only a write that succeeds is a step of its own.
    | ok l' =>
      have hrest := ih (hl.write w hw)
      simpa only [Ledger.afterWrites, List.foldl_cons, hw, Except.toOption, Option.getD] using hrest
    | error e =>
      have hrest := ih hl
      simpa only [Ledger.afterWrites, List.foldl_cons, hw, Except.toOption, Option.getD] using hrest

/-- The time at which the small ledger is written. -/
def dawn : Instant := Instant.midnight Date.epoch

/-- A small ledger: three transactions, two of which are for streams, and a rule that files
    those. -/
def streaming : Ledger :=
  Ledger.empty.afterWrites
    [.createAccount dawn 1 "Checking",
      .createCategory dawn 1 "Streams",
      .createRule dawn 1 "Streams" none dawn .and,
      .addCondition 1 .name .contains "netflix",
      .addAction 1 .category "1",
      .insertTransaction dawn 1 ⟨1, "Netflix", none, Amount.zero, dawn, []⟩,
      .insertTransaction dawn 1 ⟨1, "Rent", none, Amount.zero, dawn, []⟩,
      .insertTransaction dawn 1 ⟨1, "Netflix", none, Amount.zero, dawn, []⟩]

theorem reachable_streaming : Reachable streaming := Reachable.empty.afterWrites _

/-! ## Layer B: soundness -/

/-- A time of recording that was written from an instant. -/
def Stamped (createdAt : Option String) : Prop := ∃ t, createdAt = some (stamp t)

/-- A link that a ledger with these accounts can hold: its amount is in the form in which amounts
    are kept, and its account is there. -/
structure SoundLink (accounts : Table NamedRow) (link : TransferLink) : Prop where
  kept : link.amount.kept? = some link.amount
  known : accounts.has link.account = true

/-- A row of a transaction that a ledger with these accounts and categories can hold. -/
structure SoundTransaction (accounts categories : Table NamedRow) (row : TransactionRow) :
    Prop where
  stamped : Stamped row.createdAt
  dated : ∃ t, row.date = stamp t
  kept : row.amount.kept? = some row.amount
  account : ∃ owned, accounts.get? row.account = some owned ∧ owned.user = row.user
  distinct : row.categories.Nodup
  known : ∀ category ∈ row.categories, categories.has category = true
  linked : ∀ link, row.transfer = some link → SoundLink accounts link

/-- A row of a rule that a ledger can hold. -/
structure SoundRule (row : RuleRow) : Prop where
  stamped : Stamped row.createdAt
  effective : ∃ t, row.effectiveFrom = stamp t
  worded : ∃ logic : Logic, row.logic = Vocabulary.word logic

/-- A row of a condition that a ledger with these rules can hold. -/
structure SoundCondition (rules : Table RuleRow) (row : ConditionRow) : Prop where
  ruled : rules.has row.rule = true
  subject : ∃ subject : Subject, row.subject = Vocabulary.word subject
  comparison : ∃ comparison : Comparison, row.comparison = Vocabulary.word comparison

/-- A row of an action that a ledger with these rules can hold. -/
structure SoundAction (rules : Table RuleRow) (row : ActionRow) : Prop where
  ruled : rules.has row.rule = true
  worded : ∃ part : Part, row.part = Vocabulary.word part

/-- What writes keep: every row of every table is one that the ledger can hold, and identifiers
    count from one on. -/
structure Sound (l : Ledger) : Prop where
  accounts : l.accounts.All fun _ row => Stamped row.createdAt
  categories : l.categories.All fun _ row => Stamped row.createdAt
  transactions : l.transactions.All fun _ row => SoundTransaction l.accounts l.categories row
  rules : l.rules.All fun _ row => SoundRule row
  conditions : l.conditions.All fun _ row => SoundCondition l.rules row
  actions : l.actions.All fun _ row => SoundAction l.rules row
  accountIds : l.accounts.Positive
  categoryIds : l.categories.Positive
  transactionIds : l.transactions.Positive
  ruleIds : l.rules.Positive
  conditionIds : l.conditions.Positive
  actionIds : l.actions.Positive

theorem sound_empty : Sound Ledger.empty where
  accounts := Table.all_empty
  categories := Table.all_empty
  transactions := Table.all_empty
  rules := Table.all_empty
  conditions := Table.all_empty
  actions := Table.all_empty
  accountIds := Table.all_empty
  categoryIds := Table.all_empty
  transactionIds := Table.all_empty
  ruleIds := Table.all_empty
  conditionIds := Table.all_empty
  actionIds := Table.all_empty

/-! ## Layer C: writes keep soundness

A write adds one row to one table, or changes the row of one transaction. Each of the six
insertions has a lemma, and so has the change; the writes are then cases of these.
-/

section Rows

variable {accounts categories accounts' categories' : Table NamedRow}

/-- A new account leaves the rows of transactions sound: what they name stays where it was. -/
theorem SoundTransaction.insertAccount {row : TransactionRow}
    (h : SoundTransaction accounts categories row) {i : Ident} {new : NamedRow}
    (hinsert : accounts.insert? new = some (i, accounts')) :
    SoundTransaction accounts' categories row where
  stamped := h.stamped
  dated := h.dated
  kept := h.kept
  -- An insertion takes a free identifier, so the row of the old account is still found.
  account := by
    obtain ⟨owned, howned, huser⟩ := h.account
    exact ⟨owned, Table.get?_insert?_of_get? hinsert howned, huser⟩
  distinct := h.distinct
  known := h.known
  linked := fun link hlink =>
    ⟨(h.linked link hlink).kept, Table.has_insert? hinsert (h.linked link hlink).known⟩

theorem SoundTransaction.insertCategory {row : TransactionRow}
    (h : SoundTransaction accounts categories row) {i : Ident} {new : NamedRow}
    (hinsert : categories.insert? new = some (i, categories')) :
    SoundTransaction accounts categories' row where
  stamped := h.stamped
  dated := h.dated
  kept := h.kept
  account := h.account
  distinct := h.distinct
  known := fun category hcategory => Table.has_insert? hinsert (h.known category hcategory)
  linked := h.linked

end Rows

/-- Adding a row is inserting it; only a table that is full refuses it. -/
theorem insert?_of_addRow {α : Type} {table table' : Table α} {row : α} {i : Ident}
    (h : addRow table row = .ok (i, table')) : table.insert? row = some (i, table') := by
  unfold addRow at h
  split at h
  · rename_i result hresult
    cases h
    exact hresult
  · cases h

namespace Sound

variable {l : Ledger} {i : Ident} (hl : Sound l)
include hl

theorem insertAccount {row : NamedRow} {accounts : Table NamedRow} (hrow : Stamped row.createdAt)
    (h : l.accounts.insert? row = some (i, accounts)) : Sound { l with accounts } :=
  { hl with
    accounts := hl.accounts.insert? h hrow
    transactions := hl.transactions.imp fun _ _ hrow => hrow.insertAccount h
    accountIds := hl.accountIds.insert? h }

theorem insertCategory {row : NamedRow} {categories : Table NamedRow}
    (hrow : Stamped row.createdAt) (h : l.categories.insert? row = some (i, categories)) :
    Sound { l with categories } :=
  { hl with
    categories := hl.categories.insert? h hrow
    transactions := hl.transactions.imp fun _ _ hrow => hrow.insertCategory h
    categoryIds := hl.categoryIds.insert? h }

/-- A new rule leaves a ledger sound, for conditions and actions hang on rules that are still
    there. -/
theorem insertRule {row : RuleRow} {rules : Table RuleRow} (hrow : SoundRule row)
    (h : l.rules.insert? row = some (i, rules)) : Sound { l with rules } :=
  { hl with
    rules := hl.rules.insert? h hrow
    conditions := hl.conditions.imp fun _ _ hrow =>
      { hrow with ruled := Table.has_insert? h hrow.ruled }
    actions := hl.actions.imp fun _ _ hrow =>
      { hrow with ruled := Table.has_insert? h hrow.ruled }
    ruleIds := hl.ruleIds.insert? h }

theorem insertCondition {row : ConditionRow} {conditions : Table ConditionRow}
    (hrow : SoundCondition l.rules row) (h : l.conditions.insert? row = some (i, conditions)) :
    Sound { l with conditions } :=
  { hl with
    conditions := hl.conditions.insert? h hrow
    conditionIds := hl.conditionIds.insert? h }

theorem insertAction {row : ActionRow} {actions : Table ActionRow}
    (hrow : SoundAction l.rules row) (h : l.actions.insert? row = some (i, actions)) :
    Sound { l with actions } :=
  { hl with
    actions := hl.actions.insert? h hrow
    actionIds := hl.actionIds.insert? h }

/-- A new transaction leaves a ledger sound if its row is one that the ledger can hold. -/
theorem insertTransaction {row : TransactionRow} {transactions : Table TransactionRow}
    (hrow : SoundTransaction l.accounts l.categories row)
    (h : l.transactions.insert? row = some (i, transactions)) : Sound { l with transactions } :=
  { hl with
    transactions := hl.transactions.insert? h hrow
    transactionIds := hl.transactionIds.insert? h }

/-- Changing a transaction leaves the ledger sound if it makes a sound row of a sound one. -/
theorem modifyTransaction {f : TransactionRow → TransactionRow}
    (hf : ∀ row, SoundTransaction l.accounts l.categories row →
      SoundTransaction l.accounts l.categories (f row)) :
    Sound (l.modifyTransaction i f) :=
  { hl with
    transactions := hl.transactions.modify fun _ hrow => hf _ (hl.transactions.of_get? hrow)
    transactionIds := hl.transactionIds.modify i f }

end Sound

/-! ### The writes, one by one -/

theorem kept?_kept {x y : Amount} (h : x.kept? = some y) : y.kept? = some y := by
  unfold Amount.kept? at h
  split at h
  · cases h
  -- A number is kept unless it is zero, and then the zero without a sign is kept.
  · rename_i hnumber
    split at h
    · cases h
      rfl
    · rename_i hzero
      cases h
      rw [Amount.kept?, if_neg hnumber, if_neg hzero]

/-- What was kept of an amount that was accepted is in the form in which amounts are kept. -/
theorem kept_of_keepAmount {table : String} {x y : Amount} (h : keepAmount table x = .ok y) :
    y.kept? = some y := by
  unfold keepAmount at h
  split at h
  · rename_i kept hkept
    cases h
    exact kept?_kept hkept
  · cases h

/-- What is kept of a link is a link that the ledger can hold. -/
theorem soundLink_of_keepLink {l : Ledger} {link kept : TransferLink}
    (h : l.keepLink link = .ok kept) : SoundLink l.accounts kept := by
  obtain ⟨amount, hamount, h⟩ := bind_eq_ok_iff.mp h
  split at h
  · rename_i hknown
    cases h
    exact ⟨kept_of_keepAmount hamount, hknown⟩
  · cases h

theorem checkCategories_eq_ok_iff {l : Ledger} {categories : List Ident} :
    l.checkCategories categories = .ok () ↔
      ∀ category ∈ categories, l.categories.has category = true := by
  unfold checkCategories
  split
  · rename_i h
    simpa using h
  · rename_i h
    constructor
    · intro herr
      cases herr
    · intro hall
      exact absurd (List.all_eq_true.mpr hall) h

namespace Sound

variable {l l' : Ledger} (hl : Sound l)
include hl

theorem createAccount {now : Instant} {user i : Ident} {name : String}
    (h : l.createAccount now user name = .ok (i, l')) : Sound l' := by
  obtain ⟨⟨i, accounts⟩, hadd, h⟩ := bind_eq_ok_iff.mp h
  cases h
  exact hl.insertAccount ⟨now, rfl⟩ (insert?_of_addRow hadd)

theorem createCategory {now : Instant} {user i : Ident} {name : String}
    (h : l.createCategory now user name = .ok (i, l')) : Sound l' := by
  unfold Ledger.createCategory at h
  split at h
  · -- A category of that name is there already, and nothing is written.
    cases h
    exact hl
  · obtain ⟨⟨i, categories⟩, hadd, h⟩ := bind_eq_ok_iff.mp h
    cases h
    exact hl.insertCategory ⟨now, rfl⟩ (insert?_of_addRow hadd)

theorem createRule {now effectiveFrom : Instant} {user i : Ident} {name : String}
    {description : Option String} {logic : Logic}
    (h : l.createRule now user name description effectiveFrom logic = .ok (i, l')) : Sound l' := by
  obtain ⟨⟨i, rules⟩, hadd, h⟩ := bind_eq_ok_iff.mp h
  cases h
  exact hl.insertRule ⟨⟨now, rfl⟩, ⟨effectiveFrom, rfl⟩, ⟨logic, rfl⟩⟩ (insert?_of_addRow hadd)

/-- Adding a condition, which is refused for a rule that is not there. -/
theorem addCondition {rule i : Ident} {subject : Subject} {comparison : Comparison}
    {literal : String} (h : l.addCondition rule subject comparison literal = .ok (i, l')) :
    Sound l' := by
  unfold Ledger.addCondition at h
  split at h
  · rename_i hrule
    obtain ⟨⟨i, conditions⟩, hadd, h⟩ := bind_eq_ok_iff.mp h
    cases h
    exact hl.insertCondition ⟨hrule, ⟨subject, rfl⟩, ⟨comparison, rfl⟩⟩ (insert?_of_addRow hadd)
  · cases h

theorem addAction {rule i : Ident} {part : Part} {literal : String}
    (h : l.addAction rule part literal = .ok (i, l')) : Sound l' := by
  unfold Ledger.addAction at h
  split at h
  · rename_i hrule
    obtain ⟨⟨i, actions⟩, hadd, h⟩ := bind_eq_ok_iff.mp h
    cases h
    exact hl.insertAction ⟨hrule, ⟨part, rfl⟩⟩ (insert?_of_addRow hadd)
  · cases h

/-- Recording a transaction. Account, amount and categories are checked before the row is added. -/
theorem insertNew {now : Instant} {user i : Ident} {new : NewTransaction}
    (h : l.insertTransaction now user new = .ok (i, l')) : Sound l' := by
  unfold Ledger.insertTransaction at h
  split at h
  · cases h
  · rename_i howns
    obtain ⟨amount, hamount, h⟩ := bind_eq_ok_iff.mp h
    obtain ⟨⟨⟩, hcategories, h⟩ := bind_eq_ok_iff.mp h
    obtain ⟨⟨i, transactions⟩, hadd, h⟩ := bind_eq_ok_iff.mp h
    cases h
    refine hl.insertTransaction ?_ (insert?_of_addRow hadd)
    -- What the write checks beforehand is what soundness asks of the row.
    have howns' : l.ownsAccount user new.account = true := by simpa using howns
    obtain ⟨owned, howned, huser⟩ := (Option.any_eq_true _ _).mp howns'
    exact
      { stamped := ⟨now, rfl⟩
        dated := ⟨new.date, rfl⟩
        kept := kept_of_keepAmount hamount
        account := ⟨owned, howned, by simpa using huser⟩
        distinct := nodup_eraseDups _
        known := fun category hcategory =>
          checkCategories_eq_ok_iff.mp hcategories category (List.mem_eraseDups.mp hcategory)
        linked := fun link hlink => nomatch hlink }

/-- Changing name and description touches nothing that soundness speaks of. -/
theorem updateBase {id user : Ident} {u : BaseUpdate} (h : l.updateBase id user u = .ok l') :
    Sound l' := by
  unfold Ledger.updateBase at h
  split at h
  · cases h
    exact hl
  · obtain ⟨-, -, h⟩ := bind_eq_ok_iff.mp h
    cases h
    exact hl.modifyTransaction fun row hrow => { hrow with }

/-- Replacing the categories, which are checked and written once each. -/
theorem updateCategories {id user : Ident} {categories : List Ident}
    (h : l.updateCategories id user categories = .ok l') : Sound l' := by
  obtain ⟨-, -, h⟩ := bind_eq_ok_iff.mp h
  obtain ⟨⟨⟩, hcategories, h⟩ := bind_eq_ok_iff.mp h
  cases h
  refine hl.modifyTransaction fun row hrow => ?_
  exact
    { hrow with
      distinct := nodup_eraseDups _
      known := fun category hcategory =>
        checkCategories_eq_ok_iff.mp hcategories category (List.mem_eraseDups.mp hcategory) }

theorem linkTransfer {id user : Ident} {link : TransferLink}
    (h : l.linkTransfer id user link = .ok l') : Sound l' := by
  obtain ⟨-, -, h⟩ := bind_eq_ok_iff.mp h
  obtain ⟨kept, hkept, h⟩ := bind_eq_ok_iff.mp h
  cases h
  refine hl.modifyTransaction fun row hrow => ?_
  -- The new link is the only one of the row.
  exact
    { hrow with
      linked := fun other hother => by
        cases hother
        exact soundLink_of_keepLink hkept }

theorem applyChanges {id user : Ident} {c : Changes} (h : l.applyChanges id user c = .ok l') :
    Sound l' := by
  unfold Ledger.applyChanges at h
  split at h
  · cases h
    exact hl
  · obtain ⟨-, -, h⟩ := bind_eq_ok_iff.mp h
    obtain ⟨⟨⟩, hcategories, h⟩ := bind_eq_ok_iff.mp h
    obtain ⟨kept, hkept, h⟩ := bind_eq_ok_iff.mp h
    cases h
    refine hl.modifyTransaction fun row hrow => ?_
    -- Each part stays as it was or was checked before it was written.
    refine
      { hrow with
        distinct := ?_
        known := ?_
        linked := ?_ }
    · cases c.categories with
      | none => exact hrow.distinct
      | some categories => exact nodup_eraseDups categories
    · cases hc : c.categories with
      | none => exact hrow.known
      | some categories =>
        rw [hc] at hcategories
        intro category hcategory
        exact checkCategories_eq_ok_iff.mp hcategories category (List.mem_eraseDups.mp hcategory)
    · intro link hlink
      cases hc : c.transfer with
      | none =>
        rw [hc] at hkept
        cases hkept
        exact hrow.linked link hlink
      | some new =>
        rw [hc] at hkept
        obtain ⟨kept', hkept', h⟩ := bind_eq_ok_iff.mp hkept
        cases h
        cases hlink
        exact soundLink_of_keepLink hkept'

/-- A write keeps a ledger sound. -/
theorem run {w : StoreWrite} (h : w.run l = .ok l') : Sound l' := by
  -- Writes that hand out an identifier leave it beside the new ledger, and the insertions were
  -- proved for the pair of the two; so the pair is taken apart first.
  cases w with
  | createAccount now user name =>
    obtain ⟨⟨i, l'⟩, hw, rfl⟩ := map_eq_ok_iff.mp h
    exact hl.createAccount hw
  | createCategory now user name =>
    obtain ⟨⟨i, l'⟩, hw, rfl⟩ := map_eq_ok_iff.mp h
    exact hl.createCategory hw
  | createRule now user name description effectiveFrom logic =>
    obtain ⟨⟨i, l'⟩, hw, rfl⟩ := map_eq_ok_iff.mp h
    exact hl.createRule hw
  | addCondition rule subject comparison literal =>
    obtain ⟨⟨i, l'⟩, hw, rfl⟩ := map_eq_ok_iff.mp h
    exact hl.addCondition hw
  | addAction rule part literal =>
    obtain ⟨⟨i, l'⟩, hw, rfl⟩ := map_eq_ok_iff.mp h
    exact hl.addAction hw
  | insertTransaction now user new =>
    obtain ⟨⟨i, l'⟩, hw, rfl⟩ := map_eq_ok_iff.mp h
    exact hl.insertNew hw
  | updateBase id user update => exact hl.updateBase h
  | updateCategories id user categories => exact hl.updateCategories h
  | linkTransfer id user link => exact hl.linkTransfer h
  | applyChanges id user changes => exact hl.applyChanges h

end Sound

/-- **Reachable ledgers are sound.** -/
theorem Reachable.sound {l : Ledger} (h : Reachable l) : Sound l := by
  -- On the way from the empty ledger.
  induction h with
  | empty => exact sound_empty
  | write w hl h ih => exact ih.run h

end Ledger

end LedgerRules
