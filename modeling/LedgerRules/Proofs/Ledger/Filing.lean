import LedgerRules.Proofs.Ledger.Filed
import LedgerRules.Proofs.Run.Operations

/-!
# Writes to a table of assignments

Every write to a ledger with a table of assignments is the same write to the ledger that it stands
for. Writes that have nothing to do with categories do not see them; the others change the
categories of one transaction and leave all others alone, although the rows of all transactions lie
in one table. In turn nothing is refused that the ledger would accept, as long as there is room.

## Overview

- **Layer A**: writes that have nothing to do with categories.
- **Layer B**: writing the categories of one transaction.
- **Layer C**: every write is a write to the ledger that is stood for.
- **Layer D**: every write that this ledger accepts is made, as long as there is room for more
  assignments.
-/

namespace LedgerRules

/-! ## Layer A: writes that have nothing to do with categories -/

namespace Ledger

variable {l : Ledger} {categories : Ident → List Ident} {id user : Ident}

@[simp] theorem accounts_refiled : (l.refiled categories).accounts = l.accounts := rfl

@[simp] theorem categories_refiled : (l.refiled categories).categories = l.categories := rfl

@[simp] theorem rules_refiled : (l.refiled categories).rules = l.rules := rfl

@[simp] theorem conditions_refiled : (l.refiled categories).conditions = l.conditions := rfl

@[simp] theorem actions_refiled : (l.refiled categories).actions = l.actions := rfl

/-- Who owns a transaction does not depend on its categories. -/
theorem checkOwned_refiled :
    (l.refiled categories).checkOwned id user = l.checkOwned id user := by
  unfold checkOwned refiled
  rw [ownedTransaction?_revise (keepsPlace_filed categories), Option.isSome_map]

/-- A change of something else of a row can be made before or after. -/
theorem refiled_modifyTransaction {f : TransactionRow → TransactionRow}
    (hf : ∀ row categories, f (row.filed categories) = (f row).filed categories) :
    (l.modifyTransaction id f).refiled categories =
      (l.refiled categories).modifyTransaction id f := by
  simp only [refiled, modifyTransaction_eq_revise, revise_revise]
  -- The change and the filing touch different columns of the row.
  refine revise_congr fun e _ => ?_
  by_cases h : (e.1 == id) = true <;> simp [h, hf]

/-- A write that has nothing to do with categories: whether it fails and what it does are the same
    whatever they are. -/
def Unfiled (write : Ledger → Except LedgerError Ledger) : Prop :=
  ∀ l categories, write (l.refiled categories) = (write l).map (·.refiled categories)

/-- A name is written to the row as it is, however it is filed. -/
theorem unfiled_writeBase (u : BaseUpdate) : Unfiled (writeBase id user u) := by
  intro l categories
  unfold writeBase
  rw [checkOwned_refiled]
  cases l.checkOwned id user with
  | error e => rfl
  | ok _ => exact congrArg Except.ok (refiled_modifyTransaction fun _ _ => rfl).symm

/-- Whether a link can be kept is a question to the accounts. -/
theorem unfiled_writeLink (link : TransferLink) : Unfiled (writeLink id link) := by
  intro l categories
  have hkeep : (l.refiled categories).keepLink link = l.keepLink link := rfl
  unfold writeLink
  rw [hkeep]
  cases l.keepLink link with
  | error e => rfl
  | ok kept => exact congrArg Except.ok (refiled_modifyTransaction fun _ _ => rfl).symm

/-- A part that may be missing has to do with categories only if its write has. -/
theorem Unfiled.whenSome {α : Type} {write : α → Ledger → Except LedgerError Ledger}
    (h : ∀ a, Unfiled (write a)) (part : Option α) : Unfiled (whenSome write part) := by
  cases part with
  | none => exact fun _ _ => rfl
  | some a => exact h a

end Ledger

/-- A write of something else than categories. -/
def StoreWrite.Plain : StoreWrite → Prop
  | .insertTransaction .. | .updateCategories .. | .applyChanges .. => False
  | _ => True

/-- **What else is written does not depend on categories.** -/
theorem StoreWrite.Plain.unfiled {w : StoreWrite} (hw : w.Plain) :
    Ledger.Unfiled fun l => w.run l := by
  intro l categories
  cases w with
  -- The tables that these writes look at are the same, so they come to the same in both.
  | createAccount now user name =>
    simp only [run, Ledger.createAccount, Ledger.accounts_refiled]
    cases Ledger.addRow l.accounts ⟨user, name, some (Ledger.stamp now)⟩ <;> rfl
  | createCategory now user name =>
    have hnamed : (l.refiled categories).categoryNamed? user name =
        l.categoryNamed? user name := rfl
    simp only [run, Ledger.createCategory, hnamed, Ledger.categories_refiled]
    cases l.categoryNamed? user name with
    | some id => rfl
    | none => cases Ledger.addRow l.categories ⟨user, name, some (Ledger.stamp now)⟩ <;> rfl
  | createRule now user name description effectiveFrom logic =>
    simp only [run, Ledger.createRule, Ledger.rules_refiled]
    generalize Ledger.addRow l.rules _ = added
    cases added <;> rfl
  | addCondition rule subject comparison literal =>
    simp only [run, Ledger.addCondition]
    by_cases hrule : l.rules.has rule = true
    · have hrule' : (l.refiled categories).rules.has rule = true := hrule
      rw [if_pos hrule, if_pos hrule', Ledger.conditions_refiled]
      generalize Ledger.addRow l.conditions _ = added
      cases added <;> rfl
    · have hrule' : ¬ (l.refiled categories).rules.has rule = true := hrule
      rw [if_neg hrule, if_neg hrule']
      rfl
  | addAction rule part literal =>
    simp only [run, Ledger.addAction]
    by_cases hrule : l.rules.has rule = true
    · have hrule' : (l.refiled categories).rules.has rule = true := hrule
      rw [if_pos hrule, if_pos hrule', Ledger.actions_refiled]
      generalize Ledger.addRow l.actions _ = added
      cases added <;> rfl
    · have hrule' : ¬ (l.refiled categories).rules.has rule = true := hrule
      rw [if_neg hrule, if_neg hrule']
      rfl
  | updateBase id user update =>
    simp only [run, Ledger.updateBase]
    split
    · rfl
    -- Writing to a row and filing it come to the same in either order.
    · exact Ledger.unfiled_writeBase update l categories
  | linkTransfer id user link =>
    simp only [run, Ledger.linkTransfer, Ledger.checkOwned_refiled]
    cases l.checkOwned id user with
    | error e => rfl
    | ok _ => exact Ledger.unfiled_writeLink link l categories
  | insertTransaction | updateCategories | applyChanges => exact hw.elim

/-! ## Layer B: writing the categories of one transaction -/

namespace FiledLedger

variable {f f' f'' : FiledLedger} {id category : Ident} {categories categories' : List Ident}

/-- Whatever is assigned is there, and so is what it is assigned to. -/
def Known (f : FiledLedger) : Prop :=
  f.assignments.All fun _ row =>
    f.ledger.transactions.has row.transaction = true ∧ f.ledger.categories.has row.category = true

/-- What a change of the categories of one transaction does: the transaction has these categories
    now, and everything else is as it was. -/
structure Files (f f' : FiledLedger) (id : Ident) (categories : List Ident) : Prop where
  ledger : f'.ledger = f.ledger
  here : f'.categoriesOf id = categories
  elsewhere : ∀ other, other ≠ id → f'.categoriesOf other = f.categoriesOf other
  known : f.Known → f'.Known

/-- Doing nothing files a transaction as it is filed. -/
theorem Files.refl (f : FiledLedger) (id : Ident) : f.Files f id (f.categoriesOf id) :=
  ⟨rfl, rfl, fun _ _ => rfl, fun h => h⟩

/-- Of two changes of one transaction the second counts. -/
theorem Files.trans (h : f.Files f' id categories) (h' : f'.Files f'' id categories') :
    f.Files f'' id categories' where
  ledger := h'.ledger.trans h.ledger
  here := h'.here
  elsewhere := fun other hother => (h'.elsewhere other hother).trans (h.elsewhere other hother)
  known := fun hf => h'.known (h.known hf)

/-- In the ledger that is stood for, one row changes. -/
theorem Files.view_eq (h : f.Files f' id categories) :
    f'.view = f.view.modifyTransaction id (.filed categories) := by
  unfold view Ledger.refiled
  rw [Ledger.modifyTransaction_eq_revise, Ledger.revise_revise, h.ledger]
  -- Row by row: that of the transaction is filed anew, and the others as they were.
  refine Ledger.revise_congr fun e _ => ?_
  by_cases hid : e.1 = id
  · simp [hid, h.here, TransactionRow.filed]
  · simp [hid, h.elsewhere e.1 hid]

/-- Removing the assignments of a transaction leaves it without categories. -/
theorem files_clear : f.Files (f.clear id) id [] where
  ledger := rfl
  here := by
    -- No row of the transaction is left.
    simp [categoriesOf, clear, Table.filter, List.filter_map, List.filter_filter, Function.comp_def]
  elsewhere := by
    intro other hother
    unfold categoriesOf clear Table.filter
    rw [List.filter_map, List.filter_map, List.filter_filter]
    congr 2
    -- No row of another transaction was removed.
    refine List.filter_congr fun e _ => ?_
    by_cases h : e.2.transaction = other
    · simp [h, hother]
    · simp [h]
  known := fun hf e he => hf e (List.mem_filter.mp he).1

/-- The categories of a transaction are those that rows assign to it. -/
theorem mem_categoriesOf_iff :
    category ∈ f.categoriesOf id ↔ ∃ e ∈ f.assignments.entries, e.2 = ⟨id, category⟩ := by
  simp only [categoriesOf, List.mem_map, List.mem_filter, beq_iff_eq]
  constructor
  · rintro ⟨row, ⟨⟨e, he, rfl⟩, rfl⟩, rfl⟩
    exact ⟨e, he, rfl⟩
  · rintro ⟨e, he, heq⟩
    exact ⟨e.2, ⟨⟨e, he, rfl⟩, by rw [heq]⟩, by rw [heq]⟩

/-- Whether a category is assigned to a transaction is asked of the table. -/
theorem any_assignments :
    (f.assignments.entries.any fun e => e.2 == ⟨id, category⟩) =
      (f.categoriesOf id).contains category := by
  rw [Bool.eq_iff_iff, List.any_eq_true, List.contains_iff_mem, mem_categoriesOf_iff]
  simp only [beq_iff_eq]

/-- **Assigning a category** adds it at the end, if it is new and there is such a category. -/
theorem files_assign (hf : f.Known) (h : f.assign id category = .ok f') :
    f.Files f' id (Statements.addNew (f.categoriesOf id) category) ∧
      f.ledger.categories.has category = true := by
  unfold assign at h
  rw [any_assignments] at h
  unfold Statements.addNew
  split at h
  · rename_i hthere
    cases h
    rw [if_pos hthere]
    -- What is assigned was there when it was assigned.
    obtain ⟨e, he, heq⟩ := mem_categoriesOf_iff.mp (List.contains_iff_mem.mp hthere)
    have hknown := (hf e he).2
    rw [heq] at hknown
    exact ⟨.refl f id, hknown⟩
  · rename_i hnew
    split at h
    · rename_i hknown
      -- Both the transaction and the category were looked for, so the new row is known.
      rw [Bool.and_eq_true] at hknown
      obtain ⟨⟨i, assignments⟩, hadd, rfl⟩ := map_eq_ok_iff.mp h
      have hinsert := Ledger.insert?_of_addRow hadd
      rw [if_neg hnew]
      refine ⟨⟨rfl, ?_, ?_, fun hf => hf.insert? hinsert hknown⟩, hknown.2⟩
      · -- A new row stands behind all others, and so does the category.
        simp [categoriesOf, (Table.entries_insert? hinsert).1]
      · intro other hother
        simp [categoriesOf, (Table.entries_insert? hinsert).1, Ne.symm hother]
    · cases h

/-- Assigning categories one after the other adds the new ones in their order. -/
theorem files_assignAll (hf : f.Known) (h : f.assignAll id categories = .ok f') :
    f.Files f' id (categories.foldl Statements.addNew (f.categoriesOf id)) ∧
      ∀ category ∈ categories, f.ledger.categories.has category = true := by
  -- Each assignment starts from the categories that the ones before have left.
  induction categories generalizing f with
  | nil =>
    cases h
    exact ⟨.refl _ _, by simp⟩
  | cons category categories ih =>
    obtain ⟨f₁, hfirst, hrest⟩ := bind_eq_ok_iff.mp h
    obtain ⟨hfiles, hhas⟩ := files_assign hf hfirst
    obtain ⟨hfiles', hhas'⟩ := ih (hfiles.known hf) hrest
    rw [hfiles.here] at hfiles'
    rw [hfiles.ledger] at hhas'
    exact ⟨hfiles.trans hfiles', List.forall_mem_cons.mpr ⟨hhas, hhas'⟩⟩

/-- **Replacing the categories of a transaction** files it under the new ones, each once, in the
    order in which they come first. -/
theorem files_replaceCategories (hf : f.Known) (h : f.replaceCategories id categories = .ok f') :
    f.Files f' id categories.eraseDups ∧ f.ledger.checkCategories categories = .ok () := by
  have hclear : f.Files (f.clear id) id [] := files_clear
  -- The transaction starts from no categories, so that the first of each is kept.
  obtain ⟨hfiles, hhas⟩ := files_assignAll (hclear.known hf) h
  rw [hclear.here, foldl_addNew] at hfiles
  exact ⟨hclear.trans hfiles, Ledger.checkCategories_eq_ok_iff.mpr hhas⟩

end FiledLedger

/-! ## Layer C: writes -/

namespace Ledger

variable {l l' : Ledger} {now : Instant} {id user i : Ident} {new : NewTransaction}

/-- What is there stays there. -/
theorem Wrote.has (h : Wrote l l') :
    (∀ i, l.transactions.has i = true → l'.transactions.has i = true) ∧
      ∀ i, l.categories.has i = true → l'.categories.has i = true := by
  constructor
  · intro i hi
    -- The row may have changed, but there still is one.
    obtain ⟨row, hrow⟩ := Table.has_eq_true_iff.mp hi
    obtain ⟨row', hrow', -⟩ := h.transaction? hrow
    exact Table.has_eq_true_iff.mpr ⟨row', hrow'⟩
  · intro i hi
    cases h with
    | category hnew hinsert => exact Table.has_insert? hinsert hi
    | nothing | account | rule | condition | action | transaction | change => exact hi

/-- Writing a name is one of the writes that a ledger knows. -/
theorem Wrote.of_writeBase {u : BaseUpdate} (h : writeBase id user u l = .ok l') : Wrote l l' := by
  obtain ⟨-, -, h⟩ := bind_eq_ok_iff.mp h
  cases h
  exact .change id fun _ => ⟨rfl, rfl, rfl, rfl, rfl⟩

/-- Writing a link is one of the writes that a ledger knows. -/
theorem Wrote.of_writeLink {link : TransferLink} (h : writeLink id link l = .ok l') :
    Wrote l l' := by
  obtain ⟨kept, -, h⟩ := bind_eq_ok_iff.mp h
  cases h
  exact .change id fun _ => ⟨rfl, rfl, rfl, rfl, rfl⟩

/-- A row that a translation of the table leaves alone can be added before or after it. -/
theorem addRow_map {α : Type} {table : Table α} {row : α} {f : Ident → α → α}
    (hrow : f (table.highest + 1) row = row) :
    addRow (table.map f) row = (addRow table row).map fun r => (r.1, r.2.map f) := by
  unfold addRow
  rw [Table.insert?_map f hrow]
  cases table.insert? row <;> rfl

/-- A part that may be missing writes what its write does, or nothing. -/
theorem Wrote.of_whenSome {α : Type} {write : α → Ledger → Except LedgerError Ledger}
    {part : Option α} (hwrite : ∀ a, write a l = .ok l' → Wrote l l')
    (h : Ledger.whenSome write part l = .ok l') : Wrote l l' := by
  cases part with
  | none =>
    cases h
    exact .nothing
  | some a => exact hwrite a h

/-- A transaction without categories is recorded whatever the categories of the others are. -/
theorem insertTransaction_refiled {categories : Ident → List Ident} (hnew : new.categories = [])
    (hnext : categories (l.transactions.highest + 1) = []) :
    (l.refiled categories).insertTransaction now user new =
      (l.insertTransaction now user new).map fun r => (r.1, r.2.refiled categories) := by
  have howns : (l.refiled categories).ownsAccount user new.account =
      l.ownsAccount user new.account := rfl
  have hcheck : (l.refiled categories).checkCategories new.categories =
      l.checkCategories new.categories := rfl
  have htable : (l.refiled categories).transactions =
      l.transactions.map fun id row => row.filed (categories id) := rfl
  unfold insertTransaction
  rw [howns, hcheck, htable]
  cases l.ownsAccount user new.account with
  | false => rfl
  | true =>
    -- The same checks pass in the same order: the account, the amount, the categories.
    cases keepAmount "transactions" new.amount with
    | error e => rfl
    | ok amount =>
      cases l.checkCategories new.categories with
      | error e => rfl
      | ok _ =>
        simp only [bind, Except.bind, Bool.not_true, Bool.false_eq_true, if_false]
        -- The new row has no categories in either ledger.
        rw [addRow_map]
        · cases addRow l.transactions _ <;> rfl
        · simp only [TransactionRow.filed, hnew, hnext]
          rfl

/-- A transaction can be recorded first and filed afterwards. -/
theorem insertTransaction_of_bare
    (hbare : l.insertTransaction now user { new with categories := [] } = .ok (i, l'))
    (hcheck : l.checkCategories new.categories = .ok ()) :
    l.insertTransaction now user new =
      .ok (i, l'.modifyTransaction i (.filed new.categories.eraseDups)) := by
  unfold insertTransaction at hbare ⊢
  split at hbare
  · cases hbare
  · rename_i howns
    obtain ⟨amount, hamount, hbare⟩ := bind_eq_ok_iff.mp hbare
    obtain ⟨-, -, hbare⟩ := bind_eq_ok_iff.mp hbare
    obtain ⟨⟨i, transactions⟩, hadd, hbare⟩ := bind_eq_ok_iff.mp hbare
    cases hbare
    have hamount' : keepAmount "transactions" new.amount = .ok amount := hamount
    let bare : TransactionRow :=
      { user, account := new.account, name := new.name, description := new.description, amount,
        date := stamp new.date, createdAt := some (stamp now), categories := [], transfer := none }
    -- The row that was added differs from the one to be added in its categories only.
    have hadd' : addRow l.transactions bare = .ok (i, transactions) := hadd
    have hfiled := addRow_changed l.transactions bare (.filed new.categories.eraseDups)
    rw [hadd'] at hfiled
    simp only [TransactionRow.filed, bare] at hfiled
    rw [if_neg howns, hamount', hcheck]
    simp only [bind, Except.bind, hfiled]
    rfl

end Ledger

namespace FiledLedger

variable {f f' : FiledLedger} {now : Instant} {id user : Ident}

/-- What is known stays known while the ledger grows. -/
theorem Known.of_wrote {l : Ledger} (hf : f.Known) (h : f.ledger.Wrote l) :
    ({ f with ledger := l } : FiledLedger).Known :=
  hf.imp fun _ row hrow => ⟨h.has.1 row.transaction hrow.1, h.has.2 row.category hrow.2⟩

/-- A transaction that is not there has no categories. -/
theorem Known.categoriesOf_eq_nil (hf : f.Known) (h : f.ledger.transactions.get? id = none) :
    f.categoriesOf id = [] := by
  -- Any category would come from a row that assigns it to the transaction, which is known.
  rw [List.eq_nil_iff_forall_not_mem]
  intro category hcategory
  obtain ⟨e, he, heq⟩ := mem_categoriesOf_iff.mp hcategory
  have hhas := (hf e he).1
  rw [heq, Table.has, h] at hhas
  cases hhas

/-- A step from one ledger with assignments to another that is a write to the ledger that is stood
    for. -/
structure Stands (write : Ledger → Except LedgerError Ledger) (f f' : FiledLedger) : Prop where
  view : write f.view = .ok f'.view
  known : f'.Known

/-- **A write that has nothing to do with categories.** -/
theorem Stands.change {write : Ledger → Except LedgerError Ledger} (hf : f.Known)
    (hwrite : Ledger.Unfiled write) (hwrote : ∀ l l', write l = .ok l' → Ledger.Wrote l l')
    (h : f.change write = .ok f') : Stands write f f' := by
  obtain ⟨l, hl, rfl⟩ := map_eq_ok_iff.mp h
  refine ⟨?_, hf.of_wrote (hwrote _ _ hl)⟩
  -- The write does not see the categories, so it is the same in the ledger stood for.
  rw [FiledLedger.view, hwrite, hl]
  rfl

/-- **Replacing categories.** -/
theorem Stands.replaceCategories {categories : List Ident} (hf : f.Known)
    (h : f.replaceCategories id categories = .ok f') :
    Stands (Ledger.writeCategories id categories) f f' := by
  obtain ⟨hfiles, hcheck⟩ := files_replaceCategories hf h
  have hcheck' : f.view.checkCategories categories = .ok () := hcheck
  refine ⟨?_, hfiles.known hf⟩
  rw [Ledger.writeCategories, hcheck', hfiles.view_eq]
  rfl

/-- **A new transaction.** -/
theorem stands_insertTransaction {new : NewTransaction} (hf : f.Known)
    (h : f.insertTransaction now user new = .ok (id, f')) :
    f.view.insertTransaction now user new = .ok (id, f'.view) ∧ f'.Known := by
  obtain ⟨⟨i, l⟩, hbare, h⟩ := bind_eq_ok_iff.mp h
  obtain ⟨filed, hfiled, h⟩ := bind_eq_ok_iff.mp h
  cases h
  obtain ⟨row, transactions, -, hinsert, hl⟩ := Ledger.row_of_insertTransaction hbare
  have hknown : ({ f with ledger := l } : FiledLedger).Known :=
    hf.of_wrote (hl ▸ .transaction hinsert)
  obtain ⟨hfiles, hhas⟩ := files_assignAll hknown hfiled
  -- Nothing was assigned to the transaction before it was there.
  have hnone : f.categoriesOf id = [] :=
    hf.categoriesOf_eq_nil (Table.get?_eq_none_of_insert? hinsert)
  have hcategories : ({ f with ledger := l } : FiledLedger).categoriesOf id = [] := hnone
  rw [hcategories, foldl_addNew] at hfiles
  refine ⟨?_, hfiles.known hknown⟩
  -- Without categories the row is recorded alike in both, and is filed afterwards.
  have hbare' : f.view.insertTransaction now user { new with categories := [] } =
      .ok (id, ({ f with ledger := l } : FiledLedger).view) := by
    rw [view, Ledger.insertTransaction_refiled rfl ((Table.entries_insert? hinsert).2.1 ▸ hnone),
      hbare]
    rfl
  have hcheck : f.view.checkCategories new.categories = .ok () := by
    rw [hl] at hhas
    exact Ledger.checkCategories_eq_ok_iff.mpr hhas
  rw [Ledger.insertTransaction_of_bare hbare' hcheck, hfiles.view_eq]

/-- **Replacing the categories of an owned transaction.** -/
theorem Stands.updateCategories {categories : List Ident} (hf : f.Known)
    (h : f.updateCategories id user categories = .ok f') :
    Stands (fun l => l.updateCategories id user categories) f f' := by
  obtain ⟨⟨⟩, howned, h⟩ := bind_eq_ok_iff.mp h
  have hreplaced := Stands.replaceCategories hf h
  refine ⟨?_, hreplaced.known⟩
  -- The owner is checked in the ledger, whose rows differ in their categories only.
  have howned' : f.view.checkOwned id user = .ok () := Ledger.checkOwned_refiled.trans howned
  rw [Ledger.updateCategories, howned']
  exact hreplaced.view

/-- **Applying changes**: an update of the row, its categories and its link. -/
theorem Stands.applyChanges {c : Changes} (hf : f.Known)
    (h : f.applyChanges id user c = .ok f') : Stands (fun l => l.applyChanges id user c) f f' := by
  unfold FiledLedger.applyChanges at h
  split at h
  · rename_i hempty
    cases h
    exact ⟨by rw [Ledger.applyChanges, if_pos hempty], hf⟩
  · rename_i hsome
    obtain ⟨⟨⟩, howned, h⟩ := bind_eq_ok_iff.mp h
    obtain ⟨f₁, hbase, h⟩ := bind_eq_ok_iff.mp h
    obtain ⟨f₂, hcategories, hlink⟩ := bind_eq_ok_iff.mp h
    -- The parts are written one after the other, each as in the ledger that is stood for.
    have hfirst : Stands (Ledger.whenSome (Ledger.writeBase id user) c.base?) f f₁ :=
      .change hf (.whenSome Ledger.unfiled_writeBase _)
        (fun _ _ => Ledger.Wrote.of_whenSome fun _ => Ledger.Wrote.of_writeBase) hbase
    have hsecond : Stands (Ledger.whenSome (Ledger.writeCategories id) c.categories) f₁ f₂ := by
      cases hc : c.categories with
      | none =>
        rw [hc] at hcategories
        cases hcategories
        exact ⟨rfl, hfirst.known⟩
      | some categories =>
        rw [hc] at hcategories
        exact .replaceCategories hfirst.known hcategories
    have hthird : Stands (Ledger.whenSome (Ledger.writeLink id) c.transfer) f₂ f' :=
      .change hsecond.known (.whenSome Ledger.unfiled_writeLink _)
        (fun _ _ => Ledger.Wrote.of_whenSome fun _ => Ledger.Wrote.of_writeLink) hlink
    refine ⟨?_, hthird.known⟩
    have howned' : f.view.checkOwned id user = .ok () := Ledger.checkOwned_refiled.trans howned
    rw [← Ledger.writeParts_eq howned' (by simpa using hsome), Ledger.writeParts, hfirst.view]
    exact (congrArg (· >>= _) hsecond.view).trans hthird.view

/-- **Every write is a write to the ledger that is stood for.** -/
theorem Stands.run {w : StoreWrite} (hf : f.Known) (h : f.run w = .ok f') :
    Stands (fun l => w.run l) f f' := by
  cases w with
  | insertTransaction now user new =>
    obtain ⟨⟨id, filed⟩, hinsert, rfl⟩ := map_eq_ok_iff.mp h
    obtain ⟨hview, hknown⟩ := stands_insertTransaction hf hinsert
    exact ⟨map_eq_ok_iff.mpr ⟨_, hview, rfl⟩, hknown⟩
  | updateCategories id user categories => exact .updateCategories hf h
  | applyChanges id user changes => exact .applyChanges hf h
  | createAccount | createCategory | createRule | addCondition | addAction | updateBase
  | linkTransfer =>
    -- These writes are made to the ledger beside the assignments.
    exact .change hf (StoreWrite.Plain.unfiled trivial) (fun _ _ => Ledger.Wrote.of_run) h

/-- **What is reached is known, and stands for a ledger that is reached.** -/
theorem Reachable.stands (h : f.Reachable) : f.Known ∧ f.view.Reachable := by
  -- Along the writes, each of which is one to the ledger that is stood for.
  induction h with
  | empty => exact ⟨Table.all_empty, .empty⟩
  | write w hf h ih =>
    have hrun := Stands.run ih.1 h
    exact ⟨hrun.known, ih.2.write w hrun.view⟩

end FiledLedger

/-! ## Layer D: no other write is refused -/

/-- An outcome that is a success if there was room. -/
def RoomAside {α : Type} (x : Except LedgerError α) : Prop :=
  x = .error (.store .full) ∨ ∃ a, x = .ok a

namespace RoomAside

variable {α β : Type} {x : Except LedgerError α}

theorem ok (a : α) : RoomAside (.ok a) := .inr ⟨a, rfl⟩

/-- Room is all that is missing in one step after the other, if it is in each. -/
theorem bind {g : α → Except LedgerError β} (hx : RoomAside x)
    (hg : ∀ a, x = .ok a → RoomAside (g a)) : RoomAside (x >>= g) := by
  rcases hx with hx | ⟨a, ha⟩
  · exact .inl (by rw [hx]; rfl)
  · have h := hg a ha
    rwa [ha]

/-- What is made of a success does not change whether there was room. -/
theorem map (f : α → β) (hx : RoomAside x) : RoomAside (x.map f) := by
  rcases hx with hx | ⟨a, ha⟩
  · exact .inl (by rw [hx]; rfl)
  · exact .inr ⟨f a, by rw [ha]; rfl⟩

end RoomAside

namespace Ledger

variable {l l' : Ledger} {now : Instant} {id user i : Ident} {new : NewTransaction}

/-- A table refuses a row for want of room only. -/
theorem roomAside_addRow {α : Type} (table : Table α) (row : α) :
    RoomAside (addRow table row) := by
  unfold addRow
  cases table.insert? row with
  | none => exact .inl rfl
  | some r => exact .ok r

/-- What is recorded with categories, these are known. -/
theorem checkCategories_of_insertTransaction
    (h : l.insertTransaction now user new = .ok (i, l')) :
    l.checkCategories new.categories = .ok () := by
  unfold insertTransaction at h
  split at h
  · cases h
  · obtain ⟨amount, -, h⟩ := bind_eq_ok_iff.mp h
    obtain ⟨⟨⟩, hcheck, -⟩ := bind_eq_ok_iff.mp h
    exact hcheck

/-- What is recorded with categories can be recorded without. -/
theorem roomAside_bare {categories : Ident → List Ident}
    (h : (l.refiled categories).insertTransaction now user new = .ok (i, l')) :
    RoomAside (l.insertTransaction now user { new with categories := [] }) := by
  unfold insertTransaction at h
  split at h
  · cases h
  · rename_i howns
    obtain ⟨amount, hamount, -⟩ := bind_eq_ok_iff.mp h
    have howns' : ¬ (!l.ownsAccount user new.account) = true := howns
    unfold insertTransaction
    rw [if_neg howns', hamount]
    -- The amount is what it was, and no categories are left to be checked.
    exact .bind (.ok amount) fun _ _ => .bind (.ok ()) fun _ _ =>
      .bind (roomAside_addRow _ _) fun _ _ => .ok _

end Ledger

namespace FiledLedger

variable {f f' : FiledLedger} {now : Instant} {id user : Ident} {categories : List Ident}

/-- A known category is assigned to a known transaction, if there is room. -/
theorem roomAside_assign {category : Ident} (hid : f.ledger.transactions.has id = true)
    (hcategory : f.ledger.categories.has category = true) : RoomAside (f.assign id category) := by
  unfold assign
  split
  · exact .ok f
  · rw [if_pos (by rw [hid, hcategory]; rfl)]
    exact .map _ (Ledger.roomAside_addRow _ _)

/-- Known categories are assigned to a known transaction, as long as there is room. -/
theorem roomAside_assignAll (hf : f.Known) (hid : f.ledger.transactions.has id = true)
    (hcategories : ∀ category ∈ categories, f.ledger.categories.has category = true) :
    RoomAside (f.assignAll id categories) := by
  induction categories generalizing f with
  | nil => exact .ok f
  | cons category categories ih =>
    obtain ⟨hfirst, hrest⟩ := List.forall_mem_cons.mp hcategories
    refine .bind (roomAside_assign hid hfirst) fun f₁ hf₁ => ?_
    have hfiles := (files_assign hf hf₁).1
    rw [← hfiles.ledger] at hid hrest
    -- What was known before the first assignment is known after it.
    exact ih (hfiles.known hf) hid hrest

/-- An owned transaction is filed under known categories, if there is room. -/
theorem roomAside_replaceCategories (hf : f.Known) (howned : f.ledger.checkOwned id user = .ok ())
    (hcheck : f.ledger.checkCategories categories = .ok ()) :
    RoomAside (f.replaceCategories id categories) := by
  obtain ⟨row, hrow⟩ := Ledger.checkOwned_eq_ok_iff.mp howned
  have hid : f.ledger.transactions.has id = true :=
    Table.has_eq_true_iff.mpr ⟨row, (Ledger.ownedTransaction?_eq_some_iff.mp hrow).1⟩
  exact roomAside_assignAll (files_clear.known hf) hid (Ledger.checkCategories_eq_ok_iff.mp hcheck)

/-- What the ledger that is stood for accepts, the ledger accepts beside its assignments. -/
theorem roomAside_change {write : Ledger → Except LedgerError Ledger} {l : Ledger}
    (hwrite : Ledger.Unfiled write) (h : write f.view = .ok l) : RoomAside (f.change write) := by
  obtain ⟨l', hl', -⟩ := map_eq_ok_iff.mp ((hwrite f.ledger f.categoriesOf).symm.trans h)
  exact .map _ (.inr ⟨l', hl'⟩)

/-- A transaction that could be recorded is recorded and filed, if there is room. -/
theorem roomAside_insertTransaction {new : NewTransaction} {i : Ident} {l : Ledger} (hf : f.Known)
    (h : f.view.insertTransaction now user new = .ok (i, l)) :
    RoomAside (f.insertTransaction now user new) := by
  refine .bind (Ledger.roomAside_bare h) fun r hr => .bind ?_ fun _ _ => .ok _
  obtain ⟨row, transactions, -, hinsert, hl⟩ := Ledger.row_of_insertTransaction hr
  -- The transaction is there now, and the categories were there before.
  have hid : r.2.transactions.has r.1 = true := by
    have hget := Table.get?_insert? hinsert r.1
    rw [if_pos rfl] at hget
    rw [hl]
    exact Table.has_eq_true_iff.mpr ⟨row, hget⟩
  have hcheck : f.view.checkCategories new.categories = .ok () :=
    Ledger.checkCategories_of_insertTransaction h
  have hcategories : ∀ category ∈ new.categories, f.view.categories.has category = true :=
    Ledger.checkCategories_eq_ok_iff.mp hcheck
  have hsame : r.2.categories = f.view.categories := by
    rw [hl]
    rfl
  have hwrote : f.ledger.Wrote r.2 := by
    rw [hl]
    exact .transaction hinsert
  exact roomAside_assignAll (hf.of_wrote hwrote) hid (hsame ▸ hcategories)

/-- Replacing categories leaves the ledger beside the assignments alone. -/
theorem ledger_of_replaceGiven {given : Option (List Ident)} (hf : f.Known)
    (h : f.replaceGiven id given = .ok f') : f'.ledger = f.ledger := by
  cases given with
  | none =>
    cases h
    rfl
  | some categories => exact (files_replaceCategories hf h).1.ledger

/-- Changes that could be applied are applied, if there is room for their categories. -/
theorem roomAside_applyChanges {c : Changes} {l : Ledger} (hf : f.Known)
    (h : f.view.applyChanges id user c = .ok l) : RoomAside (f.applyChanges id user c) := by
  unfold FiledLedger.applyChanges
  split
  · exact .ok f
  · rename_i hsome
    rw [Ledger.applyChanges, if_neg hsome] at h
    obtain ⟨⟨⟩, howned, h⟩ := bind_eq_ok_iff.mp h
    obtain ⟨⟨⟩, hcheck, h⟩ := bind_eq_ok_iff.mp h
    obtain ⟨kept, hkept, -⟩ := bind_eq_ok_iff.mp h
    have howned' : f.ledger.checkOwned id user = .ok () :=
      Ledger.checkOwned_refiled.symm.trans howned
    have hbase : f.change (Ledger.whenSome (Ledger.writeBase id user) c.base?) =
        .ok { f with ledger := f.ledger.modifyTransaction id (.withBase c.base) } := by
      rw [FiledLedger.change, Ledger.whenSome_writeBase howned']
      rfl
    refine .bind (.inr ⟨(), howned'⟩) fun _ _ => .bind (.inr ⟨_, hbase⟩) fun f₁ hf₁ => ?_
    -- The new name and description leave alone what the other parts are checked against.
    cases hbase.symm.trans hf₁
    have hknown : FiledLedger.Known
        { f with ledger := f.ledger.modifyTransaction id (.withBase c.base) } :=
      hf.of_wrote (.change id fun _ => ⟨rfl, rfl, rfl, rfl, rfl⟩)
    have howned₁ : (f.ledger.modifyTransaction id (.withBase c.base)).checkOwned id user =
        .ok () := by
      rw [Ledger.checkOwned_modifyTransaction (f := .withBase c.base) fun _ => rfl, howned']
    refine .bind ?_ fun f₂ hf₂ => .map _ ?_
    · cases hc : c.categories with
      | none => exact .ok _
      | some categories =>
        rw [hc] at hcheck
        exact roomAside_replaceCategories hknown howned₁ hcheck
    -- The link is checked against accounts that no earlier part has touched.
    · have hkept' : c.transfer.mapM f.ledger.keepLink = .ok kept := hkept
      rw [ledger_of_replaceGiven hknown hf₂, Ledger.whenSome_writeLink,
        Ledger.keepLink_modifyTransaction, hkept']
      exact .ok _

/-- **A write that the ledger that is stood for accepts** is made, unless the assignments are used
    up. -/
theorem roomAside_run {w : StoreWrite} {l : Ledger} (hf : f.Known) (h : w.run f.view = .ok l) :
    RoomAside (f.run w) := by
  cases w with
  | insertTransaction now user new =>
    obtain ⟨⟨i, l⟩, hview, rfl⟩ := map_eq_ok_iff.mp h
    exact .map _ (roomAside_insertTransaction hf hview)
  | updateCategories id user categories =>
    obtain ⟨⟨⟩, howned, h⟩ := bind_eq_ok_iff.mp h
    obtain ⟨⟨⟩, hcheck, -⟩ := bind_eq_ok_iff.mp h
    have howned' : f.ledger.checkOwned id user = .ok () :=
      Ledger.checkOwned_refiled.symm.trans howned
    -- Both checks were passed in the ledger that is stood for.
    exact .bind (.inr ⟨(), howned'⟩) fun _ _ => roomAside_replaceCategories hf howned' hcheck
  | applyChanges id user changes => exact roomAside_applyChanges hf h
  | createAccount | createCategory | createRule | addCondition | addAction | updateBase
  | linkTransfer =>
    refine roomAside_change (StoreWrite.Plain.unfiled ?_) h
    trivial

end FiledLedger

end LedgerRules
