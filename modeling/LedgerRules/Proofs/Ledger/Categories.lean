import LedgerRules.Proofs.Ledger.Filing
import LedgerRules.Proofs.Run.Integrity

/-!
# Categories are read back

What is written as the categories of a transaction is what is read afterwards, each category once
and in the order in which it came first, and no other transaction is touched. A page shows each of
its transactions as a lookup finds it. Both are stated for stores in general, and hold of the ledger
as well as of a ledger whose categories are in a table of their own.

## Overview

- **Layer A**: stores, and what it means that they keep categories.
- **Layer B**: the ledger.
- **Layer C**: the ledger with a table of assignments.
-/

namespace LedgerRules

/-! ## Layer A: stores -/

/-- What a store offers that has to do with the categories of transactions. -/
structure CategoryStore (S : Type) where
  /-- The states to which writes lead from the empty one. -/
  Reachable : S → Prop
  /-- Records a transaction. -/
  insertTransaction : S → Instant → Ident → NewTransaction → Except LedgerError (Ident × S)
  /-- Replaces the categories of a transaction. -/
  updateCategories : S → Ident → Ident → List Ident → Except LedgerError S
  /-- Writes several parts of a transaction at once. -/
  applyChanges : S → Ident → Ident → Changes → Except LedgerError S
  /-- Looks a transaction of a user up. -/
  transaction? : S → Instant → Ident → Ident → Except LedgerError (Option Transaction)
  /-- Reads a page of a user's transactions. -/
  page : S → Instant → Ident → UInt64 → UInt64 → ListOrder → Except LedgerError (List Transaction)

namespace CategoryStore

variable {S : Type} (store : CategoryStore S)

/-- After a write of categories to a transaction, looking it up yields each of them once, in the
    order in which they came first. Any other transaction is found, or not found, as before. -/
structure ReadsBack (s s' : S) (id user : Ident) (categories : List Ident) : Prop where
  written : ∀ now, ∃ t, store.transaction? s' now id user = .ok (some t) ∧
    t.categories = categories.eraseDups
  others : ∀ now now' other owner, other ≠ id →
    store.transaction? s' now' other owner = store.transaction? s now other owner

/-- A store that keeps categories: whatever state is reached, what is written is read back, and a
    page shows each of its transactions as looking it up does. -/
structure KeepsCategories : Prop where
  inserted : ∀ s now user new id s', store.Reachable s →
    store.insertTransaction s now user new = .ok (id, s') →
    store.ReadsBack s s' id user new.categories
  updated : ∀ s id user categories s', store.Reachable s →
    store.updateCategories s id user categories = .ok s' →
    store.ReadsBack s s' id user categories
  applied : ∀ s id user changes categories s', store.Reachable s →
    changes.categories = some categories → store.applyChanges s id user changes = .ok s' →
    store.ReadsBack s s' id user categories
  listed : ∀ s now user page size order, store.Reachable s →
    ∃ ts, store.page s now user page size order = .ok ts ∧
      ∀ now', ∀ t ∈ ts, store.transaction? s now' t.id user = .ok (some t)

end CategoryStore

/-! ## Layer B: the ledger -/

namespace Ledger

/-- The ledger as a store. -/
def categoryStore : CategoryStore Ledger where
  Reachable := Reachable
  insertTransaction := insertTransaction
  updateCategories := updateCategories
  applyChanges := applyChanges
  transaction? := transaction?
  page := page

variable {l l' : Ledger} {id user : Ident} {categories : List Ident}

/-- What is read back of a row, if the other rows stay. -/
theorem readsBack (hl : Sound l) (hl' : Sound l') {row : TransactionRow}
    (hrow : l'.ownedTransaction? id user = some row)
    (hcategories : row.categories = categories.eraseDups)
    (hothers : ∀ other, other ≠ id → l'.transactions.get? other = l.transactions.get? other) :
    categoryStore.ReadsBack l l' id user categories where
  written := by
    intro now
    obtain ⟨t, hread, hfound⟩ := hl'.transaction?_eq now hrow
    obtain ⟨-, -, -, -, -, -, hsame⟩ := fields_of_readTransaction hread
    exact ⟨t, hfound, hsame.trans hcategories⟩
  others := by
    intro now now' other owner hother
    -- Only one row was written, and what is found of a row does not depend on the clock.
    have hsame : l'.transaction? now' other owner = l.transaction? now' other owner := by
      rw [transaction?, transaction?, readOwned, readOwned, hothers other hother]
    exact hsame.trans (hl.found_eq now' now other owner)

/-- What is read back after a change of one row. -/
theorem readsBack_modifyTransaction {f : TransactionRow → TransactionRow} (hl : Sound l)
    (hl' : Sound (l.modifyTransaction id f)) (howned : l.checkOwned id user = .ok ())
    (huser : ∀ row, (f row).user = row.user)
    (hcategories : ∀ row, (f row).categories = categories.eraseDups) :
    categoryStore.ReadsBack l (l.modifyTransaction id f) id user categories := by
  obtain ⟨row, hrow⟩ := checkOwned_eq_ok_iff.mp howned
  obtain ⟨hget, hrowUser⟩ := ownedTransaction?_eq_some_iff.mp hrow
  have hrow' : (l.modifyTransaction id f).ownedTransaction? id user = some (f row) := by
    refine ownedTransaction?_eq_some_iff.mpr ⟨?_, (huser row).trans hrowUser⟩
    rw [modifyTransaction, Table.get?_modify, if_pos rfl, hget]
    rfl
  refine readsBack hl hl' hrow' (hcategories row) fun other hother => ?_
  rw [modifyTransaction, Table.get?_modify, if_neg hother]

/-- What a page of a sound ledger shows is found by looking it up. -/
theorem Sound.found_of_mem_page (hl : Sound l) {now : Instant} {page size : UInt64}
    {order : ListOrder} {ts : List Transaction}
    (hts : l.page now user page size order = .ok ts) (now' : Instant) {t : Transaction}
    (ht : t ∈ ts) : l.transaction? now' t.id user = .ok (some t) := by
  obtain ⟨e, he, hread⟩ := exists_of_mem_mapM hts ht
  -- What a page shows was read from a row in the listing, and the lookup reads the same row.
  have howned := mem_orderedRows_iff.mp (Window.mem_of_mem_cut he)
  rw [(fields_of_readTransaction hread).1, hl.found_eq now' now]
  exact transaction?_eq_some howned hread

/-- **The ledger keeps categories.** -/
theorem keepsCategories : categoryStore.KeepsCategories where
  inserted := by
    intro l now user new id l' hl h
    have hl' : Sound l' := hl.sound.insertNew h
    obtain ⟨row, transactions, ⟨-, huser, hcategories⟩, hinsert, rfl⟩ := row_of_insertTransaction h
    have hget := Table.get?_insert? hinsert
    -- The new row stands under the new identifier, and under the others nothing has changed.
    refine readsBack hl.sound hl' ?_ hcategories fun other hother => ?_
    · exact ownedTransaction?_eq_some_iff.mpr ⟨(hget id).trans (if_pos rfl), huser⟩
    · exact (hget other).trans (if_neg hother)
  updated := by
    intro l id user categories l' hl h
    have hl' : Sound l' := hl.sound.updateCategories h
    -- Ownership and the categories are checked first; then one row is changed.
    obtain ⟨⟨⟩, howned, h⟩ := bind_eq_ok_iff.mp h
    obtain ⟨-, -, h⟩ := bind_eq_ok_iff.mp h
    cases h
    exact readsBack_modifyTransaction hl.sound hl' howned (fun _ => rfl) fun _ => rfl
  applied := by
    intro l id user changes categories l' hl hsome h
    have hl' : Sound l' := hl.sound.applyChanges h
    have hnonempty : ¬ changes.isEmpty = true := by simp [Changes.isEmpty, hsome]
    -- Something is to be written, so the write is not cut short.
    have happlied : l.applyChanges id user changes = .ok l' := h
    rw [Ledger.applyChanges, if_neg hnonempty] at happlied
    obtain ⟨⟨⟩, howned, happlied⟩ := bind_eq_ok_iff.mp happlied
    obtain ⟨-, -, happlied⟩ := bind_eq_ok_iff.mp happlied
    obtain ⟨kept, -, happlied⟩ := bind_eq_ok_iff.mp happlied
    cases happlied
    refine readsBack_modifyTransaction hl.sound hl' howned (fun _ => rfl) fun _ => ?_
    rw [hsome]
    rfl
  listed := by
    intro l now user page size order hl
    obtain ⟨ts, hts⟩ := hl.sound.exists_page now user page size order
    exact ⟨ts, hts, fun now' t ht => hl.sound.found_of_mem_page hts now' ht⟩

end Ledger

/-! ## Layer C: the ledger with a table of assignments -/

namespace FiledLedger

/-- The ledger with a table of assignments as a store. -/
def categoryStore : CategoryStore FiledLedger where
  Reachable := Reachable
  insertTransaction := insertTransaction
  updateCategories := updateCategories
  applyChanges := applyChanges
  transaction? := transaction?
  page := page

variable {f f' : FiledLedger} {id user : Ident} {categories : List Ident}

/-- What is read back from the ledgers that are stood for. -/
theorem readsBack_of_view
    (h : Ledger.categoryStore.ReadsBack f.view f'.view id user categories) :
    categoryStore.ReadsBack f f' id user categories where
  written := by
    intro now
    obtain ⟨t, hfound, hcategories⟩ := h.written now
    exact ⟨t, transaction?_eq_view.trans hfound, hcategories⟩
  others := by
    intro now now' other owner hother
    have hsame := h.others now now' other owner hother
    exact transaction?_eq_view.trans (hsame.trans transaction?_eq_view.symm)

/-- **The ledger with a table of assignments keeps categories.** -/
theorem keepsCategories : categoryStore.KeepsCategories where
  inserted := by
    intro f now user new id f' hf h
    obtain ⟨hknown, hview⟩ := hf.stands
    have hstands := (stands_insertTransaction hknown h).1
    exact readsBack_of_view (Ledger.keepsCategories.inserted _ now user new id _ hview hstands)
  updated := by
    intro f id user categories f' hf h
    obtain ⟨hknown, hview⟩ := hf.stands
    have hstands := (Stands.updateCategories hknown h).view
    exact readsBack_of_view (Ledger.keepsCategories.updated _ id user categories _ hview hstands)
  applied := by
    intro f id user changes categories f' hf hsome h
    obtain ⟨hknown, hview⟩ := hf.stands
    have hstands := (Stands.applyChanges hknown h).view
    exact readsBack_of_view
      (Ledger.keepsCategories.applied _ id user changes categories _ hview hsome hstands)
  listed := by
    intro f now user page size order hf
    obtain ⟨ts, hts, hsame⟩ :=
      Ledger.keepsCategories.listed _ now user page size order hf.stands.2
    exact ⟨ts, page_eq_view.trans hts, fun now' t ht =>
      transaction?_eq_view.trans (hsame now' t ht)⟩

end FiledLedger

/-- **Categories are read back as they were written**, and lookups and pages agree: in every state
    of the ledger that writes can reach, and in every state of a ledger whose categories are in one
    table of assignments. The second stands for the first: it accepts the same writes as long as
    there is room for assignments, these come to the same, and what is read is the same. -/
theorem categories_are_read_back :
    Ledger.categoryStore.KeepsCategories ∧ FiledLedger.categoryStore.KeepsCategories ∧
      ∀ f : FiledLedger, f.Reachable →
        f.view.Reachable ∧
        (∀ (w : StoreWrite) f', f.run w = .ok f' → w.run f.view = .ok f'.view) ∧
        (∀ (w : StoreWrite) l, w.run f.view = .ok l → RoomAside (f.run w)) ∧
        (∀ now id user, f.transaction? now id user = f.view.transaction? now id user) ∧
        ∀ now user page size order,
          f.page now user page size order = f.view.page now user page size order := by
  -- The first two parts are those above; the rest says how the one ledger stands for the other.
  refine ⟨Ledger.keepsCategories, FiledLedger.keepsCategories, fun f hf => ?_⟩
  obtain ⟨hknown, hview⟩ := hf.stands
  refine ⟨hview, fun w f' h => (FiledLedger.Stands.run hknown h).view,
    fun w l h => FiledLedger.roomAside_run hknown h, fun _ _ _ => FiledLedger.transaction?_eq_view,
    fun _ _ _ _ _ => FiledLedger.page_eq_view⟩

/-- Two transactions whose assignments lie mixed up in one table. -/
def FiledLedger.mixed : FiledLedger :=
  FiledLedger.empty.afterWrites
    [.createAccount Ledger.dawn 1 "Checking",
      .createCategory Ledger.dawn 1 "Streams",
      .createCategory Ledger.dawn 1 "Fun",
      .insertTransaction Ledger.dawn 1 ⟨1, "Netflix", none, Amount.zero, Ledger.dawn, [2]⟩,
      .insertTransaction Ledger.dawn 1 ⟨1, "Cinema", none, Amount.zero, Ledger.dawn, [2, 1]⟩,
      .updateCategories 1 1 [1],
      .updateCategories 2 1 [1, 2]]

/-- The first transaction is filed anew; the second stays as it is. -/
theorem categories_are_read_back_mixed :
    ∃ f, FiledLedger.mixed.updateCategories 1 1 [2, 1, 2] = .ok f ∧
      f.assignments.entries =
        [(5, ⟨2, 1⟩), (6, ⟨2, 2⟩), (7, ⟨1, 2⟩), (8, ⟨1, 1⟩)] ∧
      (∃ t, f.transaction? Ledger.dawn 1 1 = .ok (some t) ∧ t.categories = [2, 1]) ∧
      f.transaction? Ledger.dawn 2 1 = FiledLedger.mixed.transaction? Ledger.dawn 2 1 := by
  have hreachable : FiledLedger.mixed.Reachable := FiledLedger.Reachable.empty.afterWrites _
  have hfiled : FiledLedger.mixed.updateCategories 1 1 [2, 1, 2] =
      .ok ((FiledLedger.mixed.updateCategories 1 1 [2, 1, 2]).toOption.getD .empty) := rfl
  -- The clause on replaced categories, used at the second store.
  have hback := categories_are_read_back.2.1.updated _ 1 1 [2, 1, 2] _ hreachable hfiled
  exact ⟨_, hfiled, by decide, hback.written Ledger.dawn,
    hback.others Ledger.dawn Ledger.dawn 2 1 (by decide)⟩

end LedgerRules
