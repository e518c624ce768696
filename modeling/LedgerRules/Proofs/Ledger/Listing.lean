import LedgerRules.Ledger.Page
import LedgerRules.Ledger.Write
import LedgerRules.Proofs.Ledger.Readable
import LedgerRules.Run.Settings

/-!
# Listings while rows change

A run reads the listing of a user's transactions page by page and writes to the same rows in
between. What it writes moves no row: neither the owner nor the date of a transaction changes, and
nothing else decides about its place.

## Overview

- **Layer A**: a ledger whose transaction rows are all changed in one go.
- **Layer B**: the listing holds the rows of the user, each once, and changes with them in place.
- **Layer C**: the size of a page, and a page as a window on the listing.
-/

namespace LedgerRules

namespace Ledger

/-! ## Layer A: changing all rows of transactions -/

/-- Changes the row of every transaction. -/
def revise (l : Ledger) (g : Ident → TransactionRow → TransactionRow) : Ledger :=
  { l with transactions := l.transactions.map g }

variable {l : Ledger} {g h : Ident → TransactionRow → TransactionRow} {user : Ident}

@[simp] theorem accounts_revise : (l.revise g).accounts = l.accounts := rfl

@[simp] theorem categories_revise : (l.revise g).categories = l.categories := rfl

@[simp] theorem get?_revise (i : Ident) :
    (l.revise g).transactions.get? i = (l.transactions.get? i).map (g i) :=
  Table.get?_map g l.transactions i

theorem revise_revise : (l.revise g).revise h = l.revise fun i row => h i (g i row) := by
  simp [revise, Table.map, Function.comp_def]

/-- Only what becomes of the rows that are there matters. -/
theorem revise_congr (hsame : ∀ e ∈ l.transactions.entries, g e.1 e.2 = h e.1 e.2) :
    l.revise g = l.revise h := by
  have hmap : l.transactions.entries.map (fun e => (e.1, g e.1 e.2)) =
      l.transactions.entries.map fun e => (e.1, h e.1 e.2) :=
    List.map_congr_left fun e he => by rw [hsame e he]
  simp only [revise, Table.map, hmap]

/-- A change that leaves all rows as they are leaves the ledger as it is. -/
theorem revise_eq_self (hsame : ∀ e ∈ l.transactions.entries, g e.1 e.2 = e.2) :
    l.revise g = l := by
  have hmap : l.transactions.entries.map (fun e => (e.1, g e.1 e.2)) = l.transactions.entries := by
    refine (List.map_congr_left fun e he => ?_).trans (List.map_id _)
    rw [hsame e he]
    rfl
  simp only [revise, Table.map, hmap]

/-- Changing one row changes all rows, the others into themselves. -/
theorem modifyTransaction_eq_revise (id : Ident) (f : TransactionRow → TransactionRow) :
    l.modifyTransaction id f = l.revise fun i row => if i == id then f row else row := rfl

/-- A change that moves no row: owner and date of a transaction stay. -/
structure KeepsPlace (g : Ident → TransactionRow → TransactionRow) : Prop where
  user : ∀ i row, (g i row).user = row.user
  date : ∀ i row, (g i row).date = row.date

/-- A change that moves no row is seen in the row of a user's transaction. -/
theorem ownedTransaction?_revise (hg : KeepsPlace g) (i : Ident) :
    (l.revise g).ownedTransaction? i user = (l.ownedTransaction? i user).map (g i) := by
  unfold ownedTransaction?
  rw [get?_revise]
  cases l.transactions.get? i with
  | none => rfl
  | some row =>
    -- The change leaves the owner alone, so the row belongs to the user before and after it.
    by_cases hrow : row.user = user <;> simp [Option.filter, hg.user, hrow]

/-! ## Layer B: the listing -/

variable {order : ListOrder}

/-- **A change that moves no row is seen in the listing row by row.** -/
theorem orderedRows_revise (hg : KeepsPlace g) :
    (l.revise g).orderedRows user order =
      (l.orderedRows user order).map fun e => (e.1, g e.1 e.2) := by
  -- Neither the choice of rows nor their comparison sees the change.
  have hfilter : (l.revise g).transactions.entries.filter (fun e => e.2.user == user) =
      (l.transactions.entries.filter fun e => e.2.user == user).map
        fun e => (e.1, g e.1 e.2) := by
    simp [revise, Table.map, List.filter_map, Function.comp_def, hg.user]
  have hsort := List.map_mergeSort (r := datedBefore) (s := datedBefore)
    (f := fun e : Ident × TransactionRow => (e.1, g e.1 e.2))
    (l := l.transactions.entries.filter fun e => e.2.user == user)
    (fun e _ f _ => by simp [datedBefore, hg.date])
  cases order with
  | newestFirst =>
    simp only [orderedRows]
    rw [hfilter, ← hsort, List.map_reverse]
  | oldestFirst =>
    simp only [orderedRows]
    rw [hfilter, ← hsort]

/-- The listing holds the rows of the user, each as often as the table does. -/
theorem orderedRows_perm (l : Ledger) (user : Ident) (order : ListOrder) :
    (l.orderedRows user order).Perm
      (l.transactions.entries.filter fun e => e.2.user == user) := by
  cases order with
  | newestFirst => exact (List.reverse_perm _).trans (List.mergeSort_perm _ _)
  | oldestFirst => exact List.mergeSort_perm _ _

/-- Transactions that were recorded in the order of their dates are listed in the opposite order,
    from the newest on. -/
theorem orderedRows_of_pairwise
    (h : (l.transactions.entries.filter fun e => e.2.user == user).Pairwise fun e f =>
      datedBefore e f = true) :
    l.orderedRows user .newestFirst =
      (l.transactions.entries.filter fun e => e.2.user == user).reverse := by
  rw [orderedRows, List.mergeSort_of_pairwise h]

/-- A row is listed if it is the row of one of the user's transactions. -/
theorem mem_orderedRows_iff {e : Ident × TransactionRow} :
    e ∈ l.orderedRows user order ↔ l.ownedTransaction? e.1 user = some e.2 := by
  -- Whether a row is listed does not depend on the order.
  rw [(l.orderedRows_perm user order).mem_iff, List.mem_filter, ownedTransaction?_eq_some_iff,
    Table.get?_eq_some_iff]
  simp

theorem nodup_ids_orderedRows (l : Ledger) (user : Ident) (order : ListOrder) :
    ((l.orderedRows user order).map (·.1)).Nodup := by
  rw [((l.orderedRows_perm user order).map _).nodup_iff]
  exact (List.filter_sublist.map _).nodup l.transactions.ids_nodup

@[simp] theorem length_orderedRows (l : Ledger) (user : Ident) (order : ListOrder) :
    (l.orderedRows user order).length = l.transactionCount user :=
  (l.orderedRows_perm user order).length_eq

/-- A user has fewer transactions than there are words. -/
theorem Sound.transactionCount_lt (hl : Sound l) (user : Ident) :
    l.transactionCount user < 0x8000000000000000 :=
  Nat.lt_of_le_of_lt (List.length_filter_le _ _) hl.transactionIds.length_lt

/-- Looking up the listed identifiers gives the listed rows. -/
theorem filterMap_orderedRows {β : Type} (f : Ident → TransactionRow → Option β) :
    (((l.orderedRows user order).map (·.1)).filterMap fun i =>
        (l.ownedTransaction? i user).bind (f i)) =
      (l.orderedRows user order).filterMap fun e => f e.1 e.2 := by
  rw [List.filterMap_map]
  apply List.filterMap_congr
  intro e he
  simp [mem_orderedRows_iff.mp he]

end Ledger

/-! ## Layer C: pages -/

/-- A signed word that is not negative is the same number without its sign. -/
theorem toNat_toUInt64 {n : Int64} (h : 0 ≤ n.toInt) : n.toUInt64.toNat = n.toInt.toNat := by
  -- As a word the number is what the bits say, and the sign bit is not set.
  have hword : n.toInt = if 2 * n.toUInt64.toNat < 2 ^ 64 then (n.toUInt64.toNat : Int)
      else n.toUInt64.toNat - (2 ^ 64 : Nat) := BitVec.toInt_eq_toNat_cond n.toBitVec
  have hrange := n.toUInt64.toNat_lt
  split at hword <;> omega

namespace Settings

variable (s : Settings)

/-- The largest page is the one that is configured, between one and a thousand. -/
theorem toNat_largestPage : s.largestPage.toNat = max 1 (min s.maxPageSize.toNat 1000) := by
  simp only [largestPage, pageLimit, UInt64.toNat_max, UInt64.toNat_min]
  rfl

/-- A size that is not asked for is the default one, within bounds. -/
theorem toNat_pageSize_none :
    (s.pageSize none).toNat = max 1 (min s.defaultPageSize.toNat s.largestPage.toNat) := by
  simp only [pageSize, UInt64.toNat_max, UInt64.toNat_min]
  rfl

/-- A size that is asked for is kept within bounds, as the number that it is: neither a negative nor
    a huge one wraps around. -/
theorem toNat_pageSize_some (requested : Int64) :
    (s.pageSize (some requested)).toNat =
      max 1 (min requested.toInt.toNat s.largestPage.toNat) := by
  have hlargest := s.toNat_largestPage
  have hone : (1 : Int64).toInt = 1 := rfl
  simp only [pageSize, Int64.lt_iff_toInt_lt, hone]
  split
  · have hword : (1 : UInt64).toNat = 1 := rfl
    omega
  · rw [UInt64.toNat_min, toNat_toUInt64 (by omega)]
    omega

/-- A page has room for one transaction at least and for a thousand at most. -/
theorem pageSize_bounds (requested : Option Int64) :
    1 ≤ (s.pageSize requested).toNat ∧ (s.pageSize requested).toNat ≤ 1000 := by
  have hlargest := s.toNat_largestPage
  cases requested with
  | none =>
    rw [toNat_pageSize_none]
    omega
  | some requested =>
    rw [toNat_pageSize_some]
    omega

end Settings

theorem toNat_ofNat_word {n : Nat} (h : n < 0x8000000000000000) : (UInt64.ofNat n).toNat = n :=
  UInt64.toNat_ofNat_of_lt' (Nat.lt_trans h (by decide))

theorem ofNat_word_succ (n : Nat) : UInt64.ofNat n + 1 = UInt64.ofNat (n + 1) := by
  rw [UInt64.ofNat_add]
  rfl

theorem toInt_toInt64 {n : Nat} (h : n < 0x8000000000000000) :
    (UInt64.ofNat n).toInt64.toInt = n := by
  rw [UInt64.toInt64_ofNat']
  exact Int64.toInt_ofNat_of_lt h

/-- What is seen through a window is a part of the list behind it. -/
theorem Window.cut_sublist {α : Type} (window : Window) (xs : List α) :
    (window.cut xs).Sublist xs := by
  unfold cut
  split
  · exact List.drop_sublist _ _
  · exact (List.take_sublist _ _).trans (List.drop_sublist _ _)

/-- What is seen through a window is in the list behind it. -/
theorem Window.mem_of_mem_cut {α : Type} {window : Window} {xs : List α} {x : α}
    (h : x ∈ window.cut xs) : x ∈ xs :=
  (window.cut_sublist xs).subset h

/-- What is done to every element is seen through the window. -/
theorem Window.cut_map {α β : Type} (window : Window) (f : α → β) (xs : List α) :
    window.cut (xs.map f) = (window.cut xs).map f := by
  unfold cut
  split
  · exact List.map_drop.symm
  · rw [List.map_take, List.map_drop]

/-- **A page is a window on the listing**, as long as its first place is a signed word. -/
theorem Window.cut_ofPage {α : Type} (xs : List α) {page : Nat} {size : UInt64}
    (hsize : size.toNat ≤ 1000) (hpage : page < 0x8000000000000000)
    (hstart : page * size.toNat < 0x8000000000000000) :
    (Window.ofPage (UInt64.ofNat page) size).cut xs =
      (xs.drop (page * size.toNat)).take size.toNat := by
  have hlimit : size.toInt64.toInt = size.toNat := by
    have h := toInt_toInt64 (n := size.toNat) (by omega)
    rwa [UInt64.ofNat_toNat] at h
  -- The first place does not overflow, so neither number of the window is cut off.
  have hproduct : ((page * size.toNat : Nat) : Int) = page * size.toNat := by simp
  have hnonneg : ¬ ((size.toNat : Int) < 0) := by omega
  simp only [Window.cut, Window.ofPage, hlimit, toInt_toInt64 hpage, if_neg hnonneg,
    Int.toNat_natCast, ← hproduct]
  congr 2
  omega

end LedgerRules
