import LedgerRules.Proofs.Ledger.Atomic

/-!
# Categories in a table of their own

A store keeps the categories of all transactions in one table, each row an assignment of a category
to a transaction, and nothing but the order of the rows says in which order the categories of a
transaction were assigned. Writing the categories of a transaction removes its rows and adds others,
one statement for each; reading fetches the rows of all the transactions of a page at once and deals
them out. The ledger has the categories of a transaction in its row instead. What is read is the
same.

## Overview

- **Layer A**: a ledger with a table of assignments, and how categories are read from it.
- **Layer B**: its writes, and the states that they reach.
- **Layer C**: the ledger that it stands for, and its categories as they are dealt out.
- **Layer D**: reading is reading the ledger that it stands for.
-/

namespace LedgerRules

/-! ## Layer A: the table of assignments -/

/-- The assignment of a category to a transaction. -/
structure Assignment where
  /-- The transaction. -/
  transaction : Ident
  /-- The category. -/
  category : Ident
deriving DecidableEq

/-- A ledger with a table of assignments. The categories in the rows of its transactions play no
    part. -/
structure FiledLedger where
  /-- All other tables. -/
  ledger : Ledger
  /-- The categories of all transactions, in the order of assignment. -/
  assignments : Table Assignment

/-- A transaction with other categories. -/
def Transaction.filed (categories : List Ident) (t : Transaction) : Transaction :=
  { t with categories }

/-- The categories of transactions. -/
abbrev CategoryGroups := Std.HashMap Ident (List Ident)

namespace CategoryGroups

/-- Groups assignments by their transactions, in the order in which they come. -/
def ofAssignments (rows : List Assignment) : CategoryGroups :=
  rows.foldl (fun groups row =>
    groups.alter row.transaction fun group => some (group.getD [] ++ [row.category])) ∅

/-- Deals the groups out to transactions. What has been dealt out is gone. -/
def deal : CategoryGroups → List Transaction → List Transaction
  | _, [] => []
  | groups, t :: ts =>
    t.filed (groups.getD t.id []) :: deal (groups.erase t.id) ts

end CategoryGroups

namespace FiledLedger

/-- Nothing is written yet. -/
def empty : FiledLedger := ⟨.empty, .empty⟩

/-- Transactions with their categories, which are fetched for all of them at once. -/
def loadCategories (f : FiledLedger) (ts : List Transaction) : List Transaction :=
  let ids := ts.map (·.id)
  let rows := (f.assignments.entries.map (·.2)).filter fun row => ids.contains row.transaction
  (CategoryGroups.ofAssignments rows).deal ts

/-- A transaction of a user. -/
def transaction? (f : FiledLedger) (now : Instant) (id user : Ident) :
    Except LedgerError (Option Transaction) :=
  (f.ledger.transaction? now id user).map fun found => (f.loadCategories found.toList).head?

/-- A page of a user's transactions; the first page is zero. -/
def page (f : FiledLedger) (now : Instant) (user : Ident) (page size : UInt64)
    (order : ListOrder) : Except LedgerError (List Transaction) :=
  (f.ledger.page now user page size order).map f.loadCategories

/-! ## Layer B: writes -/

/-- A write that has nothing to do with categories. -/
def change (f : FiledLedger) (write : Ledger → Except LedgerError Ledger) :
    Except LedgerError FiledLedger :=
  (write f.ledger).map fun ledger => { f with ledger }

/-- Removes the categories of a transaction. -/
def clear (f : FiledLedger) (id : Ident) : FiledLedger :=
  { f with assignments := f.assignments.filter fun _ row => !(row.transaction == id) }

/-- Assigns a category to a transaction, unless it is assigned already. -/
def assign (f : FiledLedger) (id category : Ident) : Except LedgerError FiledLedger :=
  if f.assignments.entries.any fun e => e.2 == ⟨id, category⟩ then .ok f
  else if f.ledger.transactions.has id && f.ledger.categories.has category then
    (Ledger.addRow f.assignments ⟨id, category⟩).map fun r => { f with assignments := r.2 }
  else .error (.store .foreignKey)

/-- Assigns categories to a transaction, one after the other. -/
def assignAll (f : FiledLedger) (id : Ident) : List Ident → Except LedgerError FiledLedger
  | [] => .ok f
  | category :: categories => do
    let f ← f.assign id category
    f.assignAll id categories

/-- Replaces the categories of a transaction. -/
def replaceCategories (f : FiledLedger) (id : Ident) (categories : List Ident) :
    Except LedgerError FiledLedger :=
  (f.clear id).assignAll id categories

/-- Replaces the categories of a transaction if others are given. -/
def replaceGiven (f : FiledLedger) (id : Ident) :
    Option (List Ident) → Except LedgerError FiledLedger
  | none => .ok f
  | some categories => f.replaceCategories id categories

@[inherit_doc Ledger.insertTransaction]
def insertTransaction (f : FiledLedger) (now : Instant) (user : Ident) (new : NewTransaction) :
    Except LedgerError (Ident × FiledLedger) := do
  -- The row is there before its categories are.
  let (id, ledger) ← f.ledger.insertTransaction now user { new with categories := [] }
  let filed ← ({ f with ledger } : FiledLedger).assignAll id new.categories
  pure (id, filed)

@[inherit_doc Ledger.updateCategories]
def updateCategories (f : FiledLedger) (id user : Ident) (categories : List Ident) :
    Except LedgerError FiledLedger := do
  f.ledger.checkOwned id user
  f.replaceCategories id categories

@[inherit_doc Ledger.applyChanges]
def applyChanges (f : FiledLedger) (id user : Ident) (c : Changes) :
    Except LedgerError FiledLedger :=
  if c.isEmpty then .ok f
  else do
    f.ledger.checkOwned id user
    let f ← f.change (Ledger.whenSome (Ledger.writeBase id user) c.base?)
    let f ← f.replaceGiven id c.categories
    f.change (Ledger.whenSome (Ledger.writeLink id) c.transfer)

/-- What a write makes of a ledger with assignments. -/
def run (f : FiledLedger) : StoreWrite → Except LedgerError FiledLedger
  | .insertTransaction now user new => (f.insertTransaction now user new).map (·.2)
  | .updateCategories id user categories => f.updateCategories id user categories
  | .applyChanges id user changes => f.applyChanges id user changes
  | w => f.change fun l => w.run l

/-- A state to which writes lead from the empty one. -/
inductive Reachable : FiledLedger → Prop where
  /-- Nothing is written yet. -/
  | empty : Reachable FiledLedger.empty
  /-- One more write succeeds. -/
  | write {f f' : FiledLedger} (w : StoreWrite) (hf : Reachable f) (h : f.run w = .ok f') :
    Reachable f'

/-- The state after writes; those that are refused leave it as it is. -/
def afterWrites (f : FiledLedger) (ws : List StoreWrite) : FiledLedger :=
  ws.foldl (fun f w => (f.run w).toOption.getD f) f

theorem Reachable.afterWrites {f : FiledLedger} (hf : f.Reachable) (ws : List StoreWrite) :
    (f.afterWrites ws).Reachable := by
  -- On the writes; one that is refused leaves the state as it is.
  induction ws generalizing f with
  | nil => exact hf
  | cons w ws ih =>
    show (((f.run w).toOption.getD f).afterWrites ws).Reachable
    cases hw : f.run w with
    | ok f' => exact ih (hf.write w hw)
    | error e => exact ih hf

end FiledLedger

/-! ## Layer C: the ledger that is stood for -/

/-- A row with other categories. -/
def TransactionRow.filed (categories : List Ident) (row : TransactionRow) : TransactionRow :=
  { row with categories }

/-- The ledger with other categories in the rows of its transactions. -/
def Ledger.refiled (l : Ledger) (categories : Ident → List Ident) : Ledger :=
  l.revise fun id row => row.filed (categories id)

theorem Ledger.keepsPlace_filed (categories : Ident → List Ident) :
    KeepsPlace fun id row => row.filed (categories id) :=
  ⟨fun _ _ => rfl, fun _ _ => rfl⟩

namespace FiledLedger

variable {f f' : FiledLedger} {id user : Ident}

/-- The categories that are assigned to a transaction. -/
def categoriesOf (f : FiledLedger) (id : Ident) : List Ident :=
  ((f.assignments.entries.map (·.2)).filter fun row => row.transaction == id).map (·.category)

/-- The ledger that has the assigned categories in the rows of its transactions. -/
def view (f : FiledLedger) : Ledger := f.ledger.refiled f.categoriesOf

end FiledLedger

namespace CategoryGroups

/-- A group holds the categories of one transaction in their order. -/
theorem getD_ofAssignments (rows : List Assignment) (id : Ident) :
    (ofAssignments rows).getD id [] =
      (rows.filter fun row => row.transaction == id).map (·.category) := by
  -- From the end: a row that comes last goes to the end of its group.
  induction rows using List.reverseRecOn with
  | nil => simp [ofAssignments]
  | append_singleton rows row ih =>
    rw [ofAssignments, List.foldl_concat, ← ofAssignments, Std.HashMap.getD_alter,
      List.filter_append, List.map_append, ← ih]
    by_cases h : row.transaction = id
    · simp [h, Std.HashMap.getD_eq_getD_getElem?]
    · simp [h]

/-- Transactions that are told apart by their identifiers get what the groups hold for them. -/
theorem deal_eq {groups : CategoryGroups} {ts : List Transaction} {categories : Ident → List Ident}
    (hids : (ts.map (·.id)).Nodup) (hgroups : ∀ t ∈ ts, groups.getD t.id [] = categories t.id) :
    groups.deal ts = ts.map fun t => t.filed (categories t.id) := by
  -- On the transactions, with the groups that are left.
  induction ts generalizing groups with
  | nil => rfl
  | cons t ts ih =>
    obtain ⟨hfirst, hrest⟩ := List.nodup_cons.mp hids
    rw [deal, List.map_cons, hgroups t List.mem_cons_self, ih hrest]
    intro t' ht'
    -- The group that is gone is that of another transaction.
    have hother : t.id ≠ t'.id := fun heq => hfirst (List.mem_map.mpr ⟨t', ht', heq.symm⟩)
    rw [Std.HashMap.getD_erase, if_neg (by simpa using hother)]
    exact hgroups t' (List.mem_cons_of_mem _ ht')

end CategoryGroups

namespace FiledLedger

variable {f f' : FiledLedger} {id user : Ident}

/-- **What is fetched at once is what each transaction has been assigned.** -/
theorem loadCategories_eq {ts : List Transaction} (hids : (ts.map (·.id)).Nodup) :
    f.loadCategories ts = ts.map fun t => t.filed (f.categoriesOf t.id) := by
  refine CategoryGroups.deal_eq hids fun t ht => ?_
  rw [CategoryGroups.getD_ofAssignments, categoriesOf, List.filter_filter]
  congr 1
  -- No row of the transaction is missing from what was fetched.
  refine List.filter_congr fun row _ => ?_
  by_cases h : row.transaction = t.id
  · simpa [h] using ⟨t, ht, rfl⟩
  · simp [h]

/-! ## Layer D: reading -/

variable {now : Instant}

/-- Reading a row takes its categories over as they are. -/
theorem readTransaction_filed (row : TransactionRow) (categories : List Ident) :
    Ledger.readTransaction now id (row.filed categories) =
      (Ledger.readTransaction now id row).map (·.filed categories) := by
  unfold Ledger.readTransaction TransactionRow.filed
  cases Ledger.readCreatedAt now 7 row.createdAt with
  | error e => rfl
  | ok createdAt => cases Ledger.readDate 6 row.date <;> rfl

/-- **A transaction is found as in the ledger that is stood for.** -/
theorem transaction?_eq_view : f.transaction? now id user = f.view.transaction? now id user := by
  unfold transaction? Ledger.transaction? Ledger.readOwned view Ledger.refiled
  -- The row is the same in both, and only the categories that are put in differ.
  rw [Ledger.get?_revise]
  cases f.ledger.transactions.get? id with
  | none => rfl
  | some row =>
    by_cases howner : row.user = user
    · have howner' : (row.filed (f.categoriesOf id)).user = user := howner
      simp only [Option.map_some, howner, howner', beq_self_eq_true, if_true,
        readTransaction_filed]
      cases hread : Ledger.readTransaction now id row with
      | error e => rfl
      | ok t =>
        have hid : t.id = id := (Ledger.fields_of_readTransaction hread).1
        simp [Except.map, loadCategories_eq, hid]
    · have howner' : ¬ (row.filed (f.categoriesOf id)).user = user := howner
      simp [howner, howner', Except.map, loadCategories_eq]

/-- **A page is that of the ledger that is stood for.** -/
theorem page_eq_view {page size : UInt64} {order : ListOrder} :
    f.page now user page size order = f.view.page now user page size order := by
  unfold FiledLedger.page Ledger.page view Ledger.refiled
  rw [Ledger.orderedRows_revise (Ledger.keepsPlace_filed _), Window.cut_map]
  have hnodup :
      (((Window.ofPage page size).cut (f.ledger.orderedRows user order)).map (·.1)).Nodup :=
    ((Window.cut_sublist _ _).map _).nodup (f.ledger.nodup_ids_orderedRows user order)
  generalize (Window.ofPage page size).cut (f.ledger.orderedRows user order) = rows at hnodup
  -- Reading a row with its categories is reading it and putting them in afterwards.
  have hread (e : Ident × TransactionRow) :
      Ledger.readTransaction now e.1 (e.2.filed (f.categoriesOf e.1)) =
        (Ledger.readTransaction now e.1 e.2).map fun t => t.filed (f.categoriesOf t.id) := by
    rw [readTransaction_filed]
    cases ht : Ledger.readTransaction now e.1 e.2 with
    | error _ => rfl
    | ok t => rw [Except.map, Except.map, (Ledger.fields_of_readTransaction ht).1]
  rw [List.mapM_map]
  simp only [Function.comp_def, hread, mapM_map]
  cases hts : rows.mapM fun e => Ledger.readTransaction now e.1 e.2 with
  | error e => rfl
  | ok ts =>
    have hids : ts.map (·.id) = rows.map (·.1) :=
      map_eq_map_of_mapM hts fun e t ht => (Ledger.fields_of_readTransaction ht).1
    exact congrArg Except.ok (loadCategories_eq (hids ▸ hnodup))

end FiledLedger

end LedgerRules
