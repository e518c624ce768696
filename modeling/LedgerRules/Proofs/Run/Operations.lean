import LedgerRules.Proofs.Ledger.Atomic
import LedgerRules.Proofs.Ledger.Listing
import LedgerRules.Proofs.Run.History

/-!
# Operations on a ledger

What happens to a ledger in its life: the store's writes, and runs of rules, between whose calls
others may write. A write that is refused leaves behind what its statements leave behind. A
property of ledgers that every successful write keeps is kept by all of this, so that nothing about
runs has to be looked at again for a property of the store.

## Overview

- **Layer A**: the store's writes as statements, and what they leave behind.
- **Layer B**: what a write that succeeds can do.
- **Layer C**: operations and what they leave behind.
- **Layer D**: what every write keeps, operations keep.
-/

namespace LedgerRules

/-! ## Layer A: what a write leaves behind -/

namespace Statements

/-- The ledger that statements leave behind, also if one of them fails. -/
def left {α : Type} (x : Statements α) (l : Ledger) : Ledger :=
  match x l with
  | .ok _ l' => l'
  | .error _ l' => l'

/-- A write that is a single statement. -/
def single (write : Ledger → Except LedgerError Ledger) : Statements Unit := fun l =>
  match write l with
  | .ok l' => .ok () l'
  | .error e => .error e l

/-- A write that is one with all its statements leaves behind its effect, or the ledger. -/
theorem Whole.left_eq {x : Statements Unit} {write : Ledger → Except LedgerError Ledger}
    (h : x.Whole write) (l : Ledger) : x.left l = (write l).toOption.getD l := by
  rw [left, h l]
  cases write l <;> rfl

end Statements

/-- A write of the store as statements. -/
def StoreWrite.statements : StoreWrite → Statements Unit
  | .insertTransaction now user new => do
    let _ ← Statements.insertTransaction now user new
    pure ()
  | .updateBase id user update => Statements.updateBase id user update
  | .updateCategories id user categories => Statements.updateCategories id user categories
  | .linkTransfer id user link => Statements.linkTransfer id user link
  | .applyChanges id user changes => Statements.applyChanges id user changes
  | w => Statements.single fun l => w.run l

/-- **A write leaves its effect behind, or the ledger as it was.** -/
theorem StoreWrite.left_statements (w : StoreWrite) (l : Ledger) :
    w.statements.left l = (w.run l).toOption.getD l := by
  cases w with
  | insertTransaction now user new =>
    -- The errors may differ, but not whether there is one.
    have hiff : ∀ i l', Statements.insertTransaction now user new l = .ok i l' ↔
        l.insertTransaction now user new = .ok (i, l') := fun _ _ =>
      Statements.insertTransaction_eq_ok_iff
    simp only [statements, run, Statements.left, Bind.bind, EStateM.bind]
    cases hinsert : Statements.insertTransaction now user new l with
    | ok i l' =>
      rw [(hiff i l').mp hinsert]
      rfl
    | error e l' =>
      rw [Statements.clean_insertTransaction now new l e l' hinsert]
      cases hwrite : l.insertTransaction now user new with
      | ok r =>
        have hok := (hiff r.1 r.2).mpr hwrite
        rw [hinsert] at hok
        cases hok
      | error e' => rfl
  -- The others consist of several statements that are as good as one.
  | updateBase id user update =>
    exact ((Statements.clean_updateBase update).whole
      (Statements.performs_updateBase update)).left_eq l
  | updateCategories id user categories =>
    exact ((Statements.clean_updateCategories categories).whole
      (Statements.performs_updateCategories categories)).left_eq l
  | linkTransfer id user link =>
    exact ((Statements.clean_linkTransfer link).whole
      (Statements.performs_linkTransfer link)).left_eq l
  | applyChanges id user changes =>
    exact ((Statements.clean_applyChanges changes).whole
      (Statements.performs_applyChanges changes)).left_eq l
  | createAccount | createCategory | createRule | addCondition | addAction =>
    exact Statements.Whole.left_eq (fun _ => rfl) l

/-! ## Layer B: what a write can do -/

/-- A change of a row that keeps the head of the row: its owner, account, amount, date and time of
    recording. -/
structure TransactionRow.SameHead (row row' : TransactionRow) : Prop where
  user : row'.user = row.user
  account : row'.account = row.account
  amount : row'.amount = row.amount
  date : row'.date = row.date
  createdAt : row'.createdAt = row.createdAt

theorem TransactionRow.SameHead.refl (row : TransactionRow) : row.SameHead row :=
  ⟨rfl, rfl, rfl, rfl, rfl⟩

namespace Ledger

/-- What a write that succeeds can do to a ledger: nothing, one more row in one of the tables, or a
    change of one transaction. -/
inductive Wrote (l : Ledger) : Ledger → Prop where
  | nothing : Wrote l l
  | account {row : NamedRow} {i : Ident} {accounts : Table NamedRow}
      (h : l.accounts.insert? row = some (i, accounts)) : Wrote l { l with accounts }
  | category {row : NamedRow} {i : Ident} {categories : Table NamedRow}
      (hnew : l.categoryNamed? row.user row.name = none)
      (h : l.categories.insert? row = some (i, categories)) : Wrote l { l with categories }
  | rule {row : RuleRow} {i : Ident} {rules : Table RuleRow}
      (h : l.rules.insert? row = some (i, rules)) : Wrote l { l with rules }
  | condition {row : ConditionRow} {i : Ident} {conditions : Table ConditionRow}
      (h : l.conditions.insert? row = some (i, conditions)) : Wrote l { l with conditions }
  | action {row : ActionRow} {i : Ident} {actions : Table ActionRow}
      (h : l.actions.insert? row = some (i, actions)) : Wrote l { l with actions }
  | transaction {row : TransactionRow} {i : Ident} {transactions : Table TransactionRow}
      (h : l.transactions.insert? row = some (i, transactions)) : Wrote l { l with transactions }
  | change (id : Ident) {f : TransactionRow → TransactionRow}
      (hf : ∀ row, TransactionRow.SameHead row (f row)) : Wrote l (l.modifyTransaction id f)

/-- A new transaction is a new row of the user, dated as it was to be and with its categories, each
    once. -/
theorem row_of_insertTransaction {l l' : Ledger} {now : Instant} {user i : Ident}
    {new : NewTransaction} (h : l.insertTransaction now user new = .ok (i, l')) :
    ∃ row transactions,
      (row.date = stamp new.date ∧ row.user = user ∧ row.categories = new.categories.eraseDups) ∧
        l.transactions.insert? row = some (i, transactions) ∧ l' = { l with transactions } := by
  unfold insertTransaction at h
  split at h
  · cases h
  · obtain ⟨amount, -, h⟩ := bind_eq_ok_iff.mp h
    obtain ⟨-, -, h⟩ := bind_eq_ok_iff.mp h
    obtain ⟨⟨i, transactions⟩, hadd, h⟩ := bind_eq_ok_iff.mp h
    cases h
    exact ⟨_, transactions, ⟨rfl, rfl, rfl⟩, insert?_of_addRow hadd, rfl⟩

/-- Changes that are applied keep the heads of all rows. -/
theorem exists_revise_of_applyChanges {l l' : Ledger} {id user : Ident} {changes : Changes}
    (h : l.applyChanges id user changes = .ok l') :
    ∃ g : Ident → TransactionRow → TransactionRow,
      (∀ i row, TransactionRow.SameHead row (g i row)) ∧ l' = l.revise g := by
  unfold applyChanges at h
  split at h
  · cases h
    exact ⟨fun _ row => row, fun _ row => .refl row, (revise_eq_self fun _ _ => rfl).symm⟩
  · -- The transaction is owned, the categories and the link are checked, and one row is changed.
    obtain ⟨-, -, h⟩ := bind_eq_ok_iff.mp h
    obtain ⟨-, -, h⟩ := bind_eq_ok_iff.mp h
    obtain ⟨kept, -, h⟩ := bind_eq_ok_iff.mp h
    cases h
    refine ⟨_, fun i row => ?_, modifyTransaction_eq_revise _ _⟩
    split
    · exact ⟨rfl, rfl, rfl, rfl, rfl⟩
    · exact .refl row

/-- **What a write does is one of these.** -/
theorem Wrote.of_run {l l' : Ledger} {w : StoreWrite} (h : w.run l = .ok l') : Wrote l l' := by
  cases w with
  | createAccount now user name =>
    obtain ⟨⟨i, l'⟩, hw, rfl⟩ := map_eq_ok_iff.mp h
    obtain ⟨⟨i, accounts⟩, hadd, hw⟩ := bind_eq_ok_iff.mp hw
    -- An insertion has found room for a row.
    cases hw
    exact .account (insert?_of_addRow hadd)
  | createCategory now user name =>
    obtain ⟨⟨i, l'⟩, hw, rfl⟩ := map_eq_ok_iff.mp h
    unfold Ledger.createCategory at hw
    split at hw
    · cases hw
      exact .nothing
    · rename_i hnew
      obtain ⟨⟨i, categories⟩, hadd, hw⟩ := bind_eq_ok_iff.mp hw
      cases hw
      exact .category hnew (insert?_of_addRow hadd)
  | createRule now user name description effectiveFrom logic =>
    obtain ⟨⟨i, l'⟩, hw, rfl⟩ := map_eq_ok_iff.mp h
    obtain ⟨⟨i, rules⟩, hadd, hw⟩ := bind_eq_ok_iff.mp hw
    cases hw
    exact .rule (insert?_of_addRow hadd)
  | addCondition rule subject comparison literal =>
    obtain ⟨⟨i, l'⟩, hw, rfl⟩ := map_eq_ok_iff.mp h
    unfold Ledger.addCondition at hw
    split at hw
    · obtain ⟨⟨i, conditions⟩, hadd, hw⟩ := bind_eq_ok_iff.mp hw
      cases hw
      exact .condition (insert?_of_addRow hadd)
    · cases hw
  | addAction rule part literal =>
    obtain ⟨⟨i, l'⟩, hw, rfl⟩ := map_eq_ok_iff.mp h
    unfold Ledger.addAction at hw
    split at hw
    · obtain ⟨⟨i, actions⟩, hadd, hw⟩ := bind_eq_ok_iff.mp hw
      cases hw
      exact .action (insert?_of_addRow hadd)
    · cases hw
  | insertTransaction now user new =>
    obtain ⟨⟨i, l'⟩, hw, rfl⟩ := map_eq_ok_iff.mp h
    obtain ⟨row, transactions, -, hinsert, rfl⟩ := row_of_insertTransaction hw
    exact .transaction hinsert
  | updateBase id user update =>
    -- Changes keep the five columns of the head, whatever they do to the others.
    change l.updateBase id user update = .ok l' at h
    unfold Ledger.updateBase at h
    split at h
    · cases h
      exact .nothing
    · obtain ⟨-, -, h⟩ := bind_eq_ok_iff.mp h
      cases h
      exact .change id fun _ => ⟨rfl, rfl, rfl, rfl, rfl⟩
  | updateCategories id user categories =>
    obtain ⟨-, -, h⟩ := bind_eq_ok_iff.mp h
    obtain ⟨-, -, h⟩ := bind_eq_ok_iff.mp h
    cases h
    exact .change id fun _ => ⟨rfl, rfl, rfl, rfl, rfl⟩
  | linkTransfer id user link =>
    obtain ⟨-, -, h⟩ := bind_eq_ok_iff.mp h
    obtain ⟨kept, -, h⟩ := bind_eq_ok_iff.mp h
    cases h
    exact .change id fun _ => ⟨rfl, rfl, rfl, rfl, rfl⟩
  | applyChanges id user changes =>
    change l.applyChanges id user changes = .ok l' at h
    unfold Ledger.applyChanges at h
    split at h
    · cases h
      exact .nothing
    · obtain ⟨-, -, h⟩ := bind_eq_ok_iff.mp h
      obtain ⟨-, -, h⟩ := bind_eq_ok_iff.mp h
      obtain ⟨kept, -, h⟩ := bind_eq_ok_iff.mp h
      cases h
      exact .change id fun _ => ⟨rfl, rfl, rfl, rfl, rfl⟩

/-- Rules stay as they are. -/
theorem Wrote.rule? {l l' : Ledger} (h : Wrote l l') {i : Ident} {row : RuleRow}
    (hrow : l.rules.get? i = some row) : l'.rules.get? i = some row := by
  cases h with
  | rule hinsert => exact Table.get?_insert?_of_get? hinsert hrow
  | nothing | account | category | condition | action | transaction | change => exact hrow

/-- Transactions stay, with the heads of their rows. -/
theorem Wrote.transaction? {l l' : Ledger} (h : Wrote l l') {i : Ident} {row : TransactionRow}
    (hrow : l.transactions.get? i = some row) :
    ∃ row', l'.transactions.get? i = some row' ∧ row.SameHead row' := by
  cases h with
  | transaction hinsert => exact ⟨row, Table.get?_insert?_of_get? hinsert hrow, .refl row⟩
  | change id hf =>
    simp only [modifyTransaction, Table.get?_modify, hrow]
    split
    · exact ⟨_, rfl, hf row⟩
    · exact ⟨row, rfl, .refl row⟩
  | nothing | account | category | rule | condition | action => exact ⟨row, hrow, .refl row⟩

end Ledger

/-! ## Layer C: operations -/

/-- Whatever others do between the calls of a run, they do by the store's writes. -/
def Schedule.ThroughStore (σ : Schedule) : Prop :=
  ∀ es c l, ∃ ws, (σ es c).writes l = l.afterWrites ws

theorem Schedule.Alone.throughStore {σ : Schedule} (hσ : σ.Alone) : σ.ThroughStore :=
  fun es c _ => ⟨[], by rw [hσ es c]; rfl⟩

/-- Something that happens to a ledger. -/
inductive Operation where
  /-- A write of the store, whether it succeeds or not. -/
  | write (w : StoreWrite)
  /-- A run of rules, however it ends. -/
  | run (σ : Schedule) (hσ : σ.ThroughStore) (now : Instant) (settings : Settings) (user : Ident)
      (request : Request) (flag : Option Bool)

/-- The ledger that an operation leaves behind. -/
def Operation.left (l : Ledger) : Operation → Ledger
  | .write w => w.statements.left l
  | .run σ _ now settings user request flag =>
    (Run.worldOf (Run.execute ⟨now, σ⟩ settings user request ⟨l, flag, []⟩)).ledger

/-- The ledger after operations. -/
def Ledger.afterOperations (l : Ledger) (ops : List Operation) : Ledger :=
  ops.foldl Operation.left l

/-! ## Layer D: what operations keep -/

namespace Ledger

/-- A property of ledgers that every write that succeeds keeps. -/
def Lasting (P : Ledger → Prop) : Prop :=
  ∀ (w : StoreWrite) (l l' : Ledger), P l → w.run l = .ok l' → P l'

namespace Lasting

/-- What does not depend on the ledger lasts. -/
theorem const (p : Prop) : Lasting fun _ => p := fun _ _ _ hp _ => hp

theorem and {P Q : Ledger → Prop} (hP : Lasting P) (hQ : Lasting Q) :
    Lasting fun l => P l ∧ Q l :=
  fun w l l' hl h => ⟨hP w l l' hl.1 h, hQ w l l' hl.2 h⟩

theorem all {ι : Type} {S : ι → Prop} {P : ι → Ledger → Prop} (hP : ∀ i, S i → Lasting (P i)) :
    Lasting fun l => ∀ i, S i → P i l :=
  fun w l l' hl h i hi => hP i hi w l l' (hl i hi) h

variable {P : Ledger → Prop} (hP : Lasting P)
include hP

theorem afterWrites {l : Ledger} (hl : P l) (ws : List StoreWrite) : P (l.afterWrites ws) := by
  -- On the writes; a refused one leaves the ledger, and with it what lasts.
  induction ws generalizing l with
  | nil => exact hl
  | cons w ws ih =>
    show P (Ledger.afterWrites ((w.run l).toOption.getD l) ws)
    cases hw : w.run l with
    | ok l' => exact ih (hP w l l' hl hw)
    | error e => exact ih hl

/-- A call keeps what writes keep: it reads, or it applies changes. -/
theorem serve {now : Instant} {c : Call} {l l' : Ledger} {a : c.Answer} (hl : P l)
    (h : c.serve now l = .ok (a, l')) : P l' := by
  -- Most calls only read, and give the ledger back.
  by_cases hsame : l' = l
  · rw [hsame]
    exact hl
  · obtain ⟨id, user, changes, rfl⟩ := Call.eq_applyChanges_of_serve h hsame
    obtain ⟨_, happlied, heq⟩ := map_eq_ok_iff.mp h
    cases heq
    exact hP (.applyChanges id user changes) l l' hl happlied

/-- What lasts is there after a call, before which others may have written. -/
theorem perform {σ : Schedule} (hσ : σ.ThroughStore) (now : Instant) (c : Call) :
    Run.Keeps (fun w => P w.ledger) (Run.perform ⟨now, σ⟩ c) := by
  intro w hw
  -- The call comes to a ledger that others may have written to before.
  obtain ⟨ws, hws⟩ := hσ w.events c w.ledger
  have hbefore : P ((σ w.events c).writes w.ledger) := by
    rw [hws]
    exact hP.afterWrites hw ws
  simp only [Run.perform]
  cases (σ w.events c).fate with
  | served =>
    cases hserve : c.serve now ((σ w.events c).writes w.ledger) with
    | ok answer => exact hP.serve hbefore hserve
    | error e => exact hbefore
  | refused e => exact hbefore
  | crashed => exact hbefore

theorem runs {σ : Schedule} (hσ : σ.ThroughStore) {now : Instant} {user : Ident} {α : Type}
    {x : Run α} (hx : Run.Built ⟨now, σ⟩ user x) : Run.Keeps (fun w => P w.ledger) x :=
  hx.keeps fun c _ => hP.perform hσ now c

theorem operation {l : Ledger} (hl : P l) (op : Operation) : P (op.left l) := by
  cases op with
  | write w =>
    -- A write counts as its statements, which leave its effect or the ledger.
    rw [Operation.left, w.left_statements l]
    cases hw : w.run l with
    | ok l' => exact hP w l l' hl hw
    | error e => exact hl
  | run σ hσ now settings user request flag =>
    exact hP.runs hσ (Run.built_execute ⟨now, σ⟩ settings user request) ⟨l, flag, []⟩ hl

/-- **What every write keeps, operations keep.** -/
theorem afterOperations {l : Ledger} (hl : P l) (ops : List Operation) :
    P (l.afterOperations ops) := by
  -- On the operations, each of which starts from what those before it have left.
  induction ops generalizing l with
  | nil => exact hl
  | cons op ops ih => exact ih (hP.operation hl op)

end Lasting

/-- Whether the store's writes lead from one ledger to another. -/
def Precedes (l l' : Ledger) : Prop := ∃ ws, l' = l.afterWrites ws

theorem lasting_precedes (l : Ledger) : Lasting l.Precedes := by
  -- One write more at the end of those that there were.
  rintro w l₁ l₂ ⟨ws, rfl⟩ h
  refine ⟨ws ++ [w], ?_⟩
  rw [Ledger.afterWrites, List.foldl_append]
  show l₂ = (w.run (l.afterWrites ws)).toOption.getD (l.afterWrites ws)
  rw [h]
  rfl

theorem Lasting.precedes {P : Ledger → Prop} (hP : Lasting P) {l l' : Ledger} (hl : P l)
    (h : l.Precedes l') : P l' := by
  obtain ⟨ws, rfl⟩ := h
  exact hP.afterWrites hl ws

theorem lasting_reachable : Lasting Reachable := fun w _ _ hl h => hl.write w h

theorem Reachable.afterOperations {l : Ledger} (hl : Reachable l) (ops : List Operation) :
    Reachable (l.afterOperations ops) :=
  lasting_reachable.afterOperations hl ops

end Ledger

end LedgerRules
