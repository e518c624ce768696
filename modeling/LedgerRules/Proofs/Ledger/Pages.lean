import LedgerRules.Proofs.Ledger.Listing

/-!
# Pages are slices

A page of a user's transactions is the slice of the complete listing that starts at the product of
page number and page size. Both numbers are taken as signed words: where one of them does not fit
and the product is not zero, the page shows part of the listing although its slice lies beyond the
end.

## Overview

- **Layer A**: numbers as signed words.
- **Layer B**: the window of a page, for every page number and size.
- **Layer C**: the complete listing, its pages, and pages put together again.
-/

namespace LedgerRules

/-! ## Layer A: signed words -/

theorem toInt_toInt64_of_lt {x : UInt64} (h : x.toNat < 0x8000000000000000) :
    x.toInt64.toInt = x.toNat := by
  have hword := toInt_toInt64 h
  rwa [UInt64.ofNat_toNat] at hword

/-- Words of more than sixty-three bits are negative as signed words. -/
theorem toInt_toInt64_of_ge {x : UInt64} (h : 0x8000000000000000 ≤ x.toNat) :
    x.toInt64.toInt = x.toNat - 0x10000000000000000 := by
  have hnat : x.toBitVec.toNat = x.toNat := rfl
  show x.toBitVec.toInt = _
  rw [BitVec.toInt_eq_toNat_cond, hnat, if_neg (by omega)]
  rfl

theorem toNat_pos_of_ne_zero {x : UInt64} (h : x ≠ 0) : 0 < x.toNat :=
  Nat.pos_of_ne_zero fun hzero => h (UInt64.toNat_inj.mp hzero)

/-! ## Layer B: windows -/

namespace Window

variable {α : Type} {page size : UInt64} {xs : List α}

/-- A page is straight if its number and its size are signed words as they are, or if its slice
    starts at the beginning in any case. -/
def Straight (page size : UInt64) : Prop :=
  page.toNat < 0x8000000000000000 ∧ size.toNat < 0x8000000000000000 ∨ page = 0 ∨ size = 0

/-- The slice of a page. -/
def slice (page size : UInt64) (xs : List α) : List α :=
  (xs.drop (page.toNat * size.toNat)).take size.toNat

theorem slice_zero : slice 0 size xs = xs.take size.toNat := by simp [slice]

/-- What a page shows that is not straight. A negative page number with a positive size, or the
    other way round, counts as a start before the beginning; a negative size sets no limit. If both
    are negative the product is a start again. -/
def stray (page size : UInt64) (xs : List α) : List α :=
  if size.toNat < 0x8000000000000000 then xs.take size.toNat
  else if page.toNat < 0x8000000000000000 then xs
  else xs.drop
    ((0x10000000000000000 - page.toNat) * (0x10000000000000000 - size.toNat))

/-- Keeping the start within the signed words changes nothing: what lies outside of them is before
    the beginning or beyond the end. -/
theorem drop_clamped (hxs : xs.length < 0x8000000000000000) (start : Int) :
    xs.drop (max (-0x8000000000000000) (min 0x7FFFFFFFFFFFFFFF start)).toNat =
      xs.drop start.toNat := by
  by_cases hstart : start ≤ 0x7FFFFFFFFFFFFFFF
  · congr 1
    omega
  · rw [List.drop_eq_nil_of_le (by omega), List.drop_eq_nil_of_le (by omega)]

/-- A page without a limit. -/
theorem cut_ofPage_of_neg (hxs : xs.length < 0x8000000000000000)
    (hsize : 0x8000000000000000 ≤ size.toNat) :
    (ofPage page size).cut xs =
      xs.drop (page.toInt64.toInt * (size.toNat - 0x10000000000000000)).toNat := by
  have hrange := size.toNat_lt
  have hlimit : (size.toNat : Int) - 0x10000000000000000 < 0 := by omega
  simp only [cut, ofPage, toInt_toInt64_of_ge hsize, if_pos hlimit]
  exact drop_clamped hxs _

/-- A page with a limit. -/
theorem cut_ofPage_of_nonneg (hxs : xs.length < 0x8000000000000000)
    (hsize : size.toNat < 0x8000000000000000) :
    (ofPage page size).cut xs =
      (xs.drop (page.toInt64.toInt * size.toNat).toNat).take size.toNat := by
  have hlimit : ¬ ((size.toNat : Int) < 0) := by omega
  simp only [cut, ofPage, toInt_toInt64_of_lt hsize, if_neg hlimit, Int.toNat_natCast]
  rw [drop_clamped hxs]

/-- **A straight page is its slice.** -/
theorem cut_ofPage_of_straight (hxs : xs.length < 0x8000000000000000)
    (h : Straight page size) : (ofPage page size).cut xs = slice page size xs := by
  rcases h with ⟨hpage, hsize⟩ | rfl | rfl
  · rw [cut_ofPage_of_nonneg hxs hsize, toInt_toInt64_of_lt hpage, ← Int.natCast_mul,
      Int.toNat_natCast]
    rfl
  · -- Page zero starts at the beginning, and a size without a limit exceeds the list.
    have hzero : (0 : UInt64).toInt64.toInt = 0 := rfl
    rw [slice_zero]
    by_cases hsize : size.toNat < 0x8000000000000000
    · rw [cut_ofPage_of_nonneg hxs hsize, hzero, Int.zero_mul, Int.toNat_zero, List.drop_zero]
    · rw [cut_ofPage_of_neg hxs (by omega), hzero, Int.zero_mul, Int.toNat_zero, List.drop_zero,
        List.take_of_length_le (by omega)]
  · rw [cut_ofPage_of_nonneg hxs (by decide)]
    simp [slice]

/-- **A page that is not straight strays from its slice**, which lies beyond the end. -/
theorem cut_ofPage_of_not_straight (hxs : xs.length < 0x8000000000000000)
    (h : ¬ Straight page size) :
    slice page size xs = [] ∧ (ofPage page size).cut xs = stray page size xs := by
  obtain ⟨hword, hpage, hsize⟩ : ¬ (page.toNat < 0x8000000000000000 ∧
      size.toNat < 0x8000000000000000) ∧ page ≠ 0 ∧ size ≠ 0 := by
    unfold Straight at h
    simpa only [not_or] using h
  have hpage := toNat_pos_of_ne_zero hpage
  have hsize := toNat_pos_of_ne_zero hsize
  have hpageRange := page.toNat_lt
  have hsizeRange := size.toNat_lt
  constructor
  · -- One factor is beyond the signed words, and the other is not zero.
    have hle := Nat.le_mul_of_pos_right page.toNat hsize
    have hle' := Nat.le_mul_of_pos_left size.toNat hpage
    rw [slice, List.drop_eq_nil_of_le (by omega), List.take_nil]
  · unfold stray
    split
    · rename_i hlimit
      -- The product is negative, and a start before the beginning is the beginning.
      have hnumber : (page.toNat : Int) - 0x10000000000000000 < 0 := by omega
      have hstart := Int.mul_neg_of_neg_of_pos hnumber (show 0 < (size.toNat : Int) by omega)
      rw [cut_ofPage_of_nonneg hxs hlimit, toInt_toInt64_of_ge (by omega),
        Int.toNat_of_nonpos (Int.le_of_lt hstart), List.drop_zero]
    · rename_i hlimit
      rw [cut_ofPage_of_neg hxs (by omega)]
      split
      · rename_i hnumber
        have hless : (size.toNat : Int) - 0x10000000000000000 < 0 := by omega
        have hstart := Int.mul_neg_of_pos_of_neg (show 0 < (page.toNat : Int) by omega) hless
        rw [toInt_toInt64_of_lt hnumber, Int.toNat_of_nonpos (Int.le_of_lt hstart), List.drop_zero]
      · rename_i hnumber
        -- The product of two negative numbers is that of their sizes.
        have hleft : (page.toNat : Int) - 0x10000000000000000 =
            -((0x10000000000000000 - page.toNat : Nat) : Int) := by omega
        have hright : (size.toNat : Int) - 0x10000000000000000 =
            -((0x10000000000000000 - size.toNat : Nat) : Int) := by omega
        rw [toInt_toInt64_of_ge (by omega), hleft, hright, Int.neg_mul_neg, ← Int.natCast_mul,
          Int.toNat_natCast]

end Window

/-! ## Layer C: the complete listing -/

theorem Window.mapM_cut {ε α β : Type} {f : α → Except ε β} {xs : List α} {ys : List β}
    (w : Window) (h : xs.mapM f = .ok ys) : (w.cut xs).mapM f = .ok (w.cut ys) := by
  -- A window cuts in two ways, and reading goes through both.
  unfold cut
  split
  · exact mapM_drop h _
  · exact mapM_take (mapM_drop h _) _

/-- The first slices of one size together are a beginning of the list. -/
theorem Window.flatten_slices {α : Type} (size : UInt64) (xs : List α) {n : Nat}
    (hn : n ≤ 0x8000000000000000) :
    ((List.range n).map fun k => slice (UInt64.ofNat k) size xs).flatten =
      xs.take (n * size.toNat) := by
  -- On the number of slices: the last one starts where the others end.
  induction n with
  | zero => simp
  | succ n ih =>
    have hlast : slice (UInt64.ofNat n) size xs = (xs.drop (n * size.toNat)).take size.toNat := by
      rw [slice, toNat_ofNat_word (by omega)]
    rw [List.range_succ, List.map_append, List.flatten_append, ih (by omega), List.map_singleton,
      List.flatten_cons, List.flatten_nil, List.append_nil, hlast, Nat.succ_mul, List.take_add]

namespace Ledger

/-- The transactions of a user in the order of a listing, all of them. -/
def transactionsOf (l : Ledger) (now : Instant) (user : Ident) (order : ListOrder) :
    Except LedgerError (List Transaction) :=
  (l.orderedRows user order).mapM fun e => readTransaction now e.1 e.2

variable {l : Ledger} {now : Instant} {user : Ident} {order : ListOrder} {all : List Transaction}

theorem Sound.exists_transactionsOf (hl : Sound l) (now : Instant) (user : Ident)
    (order : ListOrder) : ∃ all, l.transactionsOf now user order = .ok all :=
  exists_mapM_eq_ok fun _ he => (hl.soundTransaction (mem_orderedRows_iff.mp he)).exists_read

theorem Sound.length_transactionsOf_lt (hl : Sound l)
    (hall : l.transactionsOf now user order = .ok all) : all.length < 0x8000000000000000 := by
  rw [length_of_mapM hall, length_orderedRows]
  exact hl.transactionCount_lt user

/-- A page is a window on the complete listing. -/
theorem page_eq_cut (hall : l.transactionsOf now user order = .ok all) (page size : UInt64) :
    l.page now user page size order = .ok ((Window.ofPage page size).cut all) :=
  (Window.ofPage page size).mapM_cut hall

/-- The first page of a size that has room for all transactions holds all of them. -/
theorem Sound.page_zero (hl : Sound l) (hall : l.transactionsOf now user order = .ok all)
    {size : UInt64} (hsize : all.length ≤ size.toNat) : l.page now user 0 size order = .ok all := by
  have hslice : Window.slice 0 size all = all := by
    rw [Window.slice_zero, List.take_of_length_le hsize]
  rw [page_eq_cut hall, Window.cut_ofPage_of_straight (hl.length_transactionsOf_lt hall)
    (.inr (.inl rfl)), hslice]

end Ledger

/-- **Pages are slices.** A user's transactions in a reachable ledger have a complete listing. A
    straight page is the slice of it that starts at page number times page size, multiplied without
    overflow, and the first straight pages of one size together are the beginning of the listing. A
    page that is not straight has a slice beyond the end, but is not always empty. -/
theorem pages_are_slices {l : Ledger} (hl : l.Reachable) (now : Instant) (user : Ident)
    (order : ListOrder) :
    ∃ all, l.transactionsOf now user order = .ok all ∧
      (∀ page size : UInt64, Window.Straight page size →
        l.page now user page size order =
          .ok ((all.drop (page.toNat * size.toNat)).take size.toNat)) ∧
      (∀ size : UInt64, size.toNat < 0x8000000000000000 → ∀ n ≤ 0x8000000000000000,
        ∃ pages, ((List.range n).mapM fun k => l.page now user (UInt64.ofNat k) size order) =
            .ok pages ∧
          pages.flatten = all.take (n * size.toNat)) ∧
      ∀ page size : UInt64, ¬ Window.Straight page size →
        (all.drop (page.toNat * size.toNat)).take size.toNat = [] ∧
          l.page now user page size order = .ok (Window.stray page size all) := by
  obtain ⟨all, hall⟩ := hl.sound.exists_transactionsOf now user order
  have hlength := hl.sound.length_transactionsOf_lt hall
  have hstraight (page size : UInt64) (h : Window.Straight page size) :
      l.page now user page size order = .ok (Window.slice page size all) := by
    rw [Ledger.page_eq_cut hall, Window.cut_ofPage_of_straight hlength h]
  refine ⟨all, hall, hstraight, ?_, ?_⟩
  · intro size hsize n hn
    refine ⟨_, ?_, Window.flatten_slices size all hn⟩
    -- All of these pages are straight.
    refine (mapM_congr fun k hk => ?_).trans List.mapM_pure
    have hk : k < n := List.mem_range.mp hk
    have hword : (UInt64.ofNat k).toNat = k := toNat_ofNat_word (by omega)
    exact hstraight _ size (.inl ⟨by omega, hsize⟩)
  · intro page size h
    obtain ⟨hslice, hstray⟩ := Window.cut_ofPage_of_not_straight hlength h
    exact ⟨hslice, by rw [Ledger.page_eq_cut hall, hstray]⟩

/-- The second page of two of the small ledger's transactions holds the third. -/
theorem pages_are_slices_streaming :
    Ledger.streaming.Reachable ∧
    ∃ all, Ledger.streaming.transactionsOf Ledger.dawn 1 .newestFirst = .ok all ∧
      all.map (·.id) = [3, 2, 1] ∧
      Ledger.streaming.page Ledger.dawn 1 1 2 .newestFirst = .ok ((all.drop 2).take 2) := by
  obtain ⟨all, hall, hstraight, -⟩ :=
    pages_are_slices Ledger.reachable_streaming Ledger.dawn 1 .newestFirst
  have hids : (Ledger.streaming.transactionsOf Ledger.dawn 1 .newestFirst).map
      (List.map (·.id)) = .ok [3, 2, 1] := by
    -- Sorting is not computed here: the rows come in the order of their dates.
    unfold Ledger.transactionsOf
    rw [Ledger.orderedRows_of_pairwise (by decide)]
    rfl
  rw [hall] at hids
  exact ⟨Ledger.reachable_streaming, all, hall, Except.ok.inj hids,
    hstraight 1 2 (.inl ⟨by decide, by decide⟩)⟩

/-- A page beyond the end of the small ledger's transactions, of the greatest size that there is,
    shows all of them. -/
theorem page_beyond_end_shows_everything :
    Ledger.streaming.Reachable ∧
    ∃ all, Ledger.streaming.transactionsOf Ledger.dawn 1 .newestFirst = .ok all ∧
      all ≠ [] ∧
      (all.drop ((1 : UInt64).toNat * (0xFFFFFFFFFFFFFFFF : UInt64).toNat)).take
        (0xFFFFFFFFFFFFFFFF : UInt64).toNat = [] ∧
      Ledger.streaming.page Ledger.dawn 1 1 0xFFFFFFFFFFFFFFFF .newestFirst = .ok all := by
  have hsound := Ledger.reachable_streaming.sound
  obtain ⟨all, hall⟩ := hsound.exists_transactionsOf Ledger.dawn 1 .newestFirst
  have hlength : all.length = 3 := by
    rw [length_of_mapM hall, Ledger.length_orderedRows]
    rfl
  have hbent : ¬ Window.Straight 1 0xFFFFFFFFFFFFFFFF := by
    unfold Window.Straight
    decide
  obtain ⟨hslice, hstray⟩ :=
    Window.cut_ofPage_of_not_straight (hsound.length_transactionsOf_lt hall) hbent
  refine ⟨Ledger.reachable_streaming, all, hall, List.ne_nil_of_length_pos (by omega), hslice, ?_⟩
  rw [Ledger.page_eq_cut hall, hstray]
  rfl

end LedgerRules
