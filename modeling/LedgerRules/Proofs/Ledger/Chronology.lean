import LedgerRules.Proofs.Calendar.Order
import LedgerRules.Proofs.Ledger.Pages

/-!
# Listings in the order of time

A listing compares dates as they are stored. It is in the order of time for every two transactions
whose years are in step, which is so for all years of four digits, and against the order of time
for all others.

## Overview

- **Layer A**: which of two elements comes first in an ordered list.
- **Layer B**: the order of the rows.
- **Layer C**: the order of the transactions as they are read.
-/

namespace LedgerRules

/-! ## Layer A: ordered lists -/

theorem pair_sublist_or {α : Type} {xs : List α} {a b : α} (ha : a ∈ xs) (hb : b ∈ xs)
    (hne : a ≠ b) : [a, b].Sublist xs ∨ [b, a].Sublist xs := by
  induction xs with
  | nil => cases ha
  | cons x xs ih =>
    rcases List.mem_cons.mp ha with rfl | ha'
    · have hb' : b ∈ xs := (List.mem_cons.mp hb).resolve_left (Ne.symm hne)
      exact .inl ((List.singleton_sublist.mpr hb').cons_cons a)
    · rcases List.mem_cons.mp hb with rfl | hb'
      · exact .inr ((List.singleton_sublist.mpr ha').cons_cons b)
      · exact (ih ha' hb').imp (.cons x) (.cons x)

/-- In an ordered list one element comes before another exactly if the order says so. -/
theorem pair_sublist_iff {α : Type} {R : α → α → Prop} (hR : ∀ a b, R a b → ¬ R b a)
    {xs : List α} (hxs : xs.Pairwise R) {a b : α} (ha : a ∈ xs) (hb : b ∈ xs) :
    [a, b].Sublist xs ↔ R a b := by
  have hpair {c d : α} (h : [c, d].Sublist xs) : R c d :=
    List.pairwise_iff_forall_sublist.mp hxs h
  refine ⟨hpair, fun hab => ?_⟩
  have hne : a ≠ b := by
    rintro rfl
    exact hR a a hab hab
  exact (pair_sublist_or ha hb hne).resolve_right fun hba => hR a b hab (hpair hba)

/-! ## Layer B: rows -/

namespace Ledger

/-- A row comes before another if its stored date is earlier or, on one date, its identifier
    lower. -/
theorem datedBefore_iff {e f : Ident × TransactionRow} :
    datedBefore e f = true ↔ e.2.date < f.2.date ∨ e.2.date = f.2.date ∧ e.1 ≤ f.1 := by
  simp [datedBefore]

/-- That order is transitive, as the order of texts and that of identifiers are. -/
theorem datedBefore_trans (e f g : Ident × TransactionRow) (hef : datedBefore e f = true)
    (hfg : datedBefore f g = true) : datedBefore e g = true := by
  rw [datedBefore_iff] at hef hfg ⊢
  rcases hef with hef | ⟨hef, hid⟩
  · rcases hfg with hfg | ⟨hfg, -⟩
    · exact .inl (String.lt_trans hef hfg)
    · exact .inl (hfg ▸ hef)
  · rcases hfg with hfg | ⟨hfg, hid'⟩
    · exact .inl (hef ▸ hfg)
    · exact .inr ⟨hef.trans hfg, Int64.le_trans hid hid'⟩

theorem datedBefore_total (e f : Ident × TransactionRow) :
    (datedBefore e f || datedBefore f e) = true := by
  rw [Bool.or_eq_true, datedBefore_iff, datedBefore_iff]
  by_cases hef : e.2.date < f.2.date
  · exact .inl (.inl hef)
  · by_cases hfe : f.2.date < e.2.date
    · exact .inr (.inl hfe)
    · have hsame : e.2.date = f.2.date :=
        String.le_antisymm (String.not_lt.mp hfe) (String.not_lt.mp hef)
      exact (Int64.le_total e.1 f.1).imp (fun hid => .inr ⟨hsame, hid⟩)
        fun hid => .inr ⟨hsame.symm, hid⟩

variable {l : Ledger} {now : Instant} {user : Ident} {order : ListOrder} {all : List Transaction}

/-- From the newest on a listing goes down by stored date and, on one date, by identifier. -/
theorem pairwise_orderedRows (l : Ledger) (user : Ident) :
    (l.orderedRows user .newestFirst).Pairwise fun e f =>
      f.2.date < e.2.date ∨ f.2.date = e.2.date ∧ f.1 < e.1 := by
  have hsorted : (l.orderedRows user .newestFirst).Pairwise fun e f => datedBefore f e = true :=
    List.pairwise_reverse.mpr (List.pairwise_mergeSort datedBefore_trans datedBefore_total _)
  have hids : (l.orderedRows user .newestFirst).Pairwise fun e f => e.1 ≠ f.1 :=
    List.pairwise_map.mp (l.nodup_ids_orderedRows user .newestFirst)
  refine (hsorted.and hids).imp ?_
  rintro e f ⟨hdated, hid⟩
  rw [datedBefore_iff] at hdated
  exact hdated.imp_right fun ⟨hsame, hle⟩ => ⟨hsame, Int64.lt_of_le_of_ne hle hid.symm⟩

/-- From the oldest on a listing is the reverse of the one from the newest on. -/
theorem orderedRows_oldestFirst (l : Ledger) (user : Ident) :
    l.orderedRows user .oldestFirst = (l.orderedRows user .newestFirst).reverse :=
  (List.reverse_reverse _).symm

/-! ## Layer C: transactions -/

/-- A date is stored as the text of the date as it is read back, which a ledger keeps as it is. -/
theorem SoundTransaction.date_of_read {accounts categories : Table NamedRow} {row : TransactionRow}
    {id : Ident} {t : Transaction} (h : SoundTransaction accounts categories row)
    (hread : readTransaction now id row = .ok t) :
    row.date = stamp t.date ∧ t.date.recorded = t.date := by
  obtain ⟨date, hdate⟩ := h.dated
  obtain ⟨createdAt, -, hread⟩ := bind_eq_ok_iff.mp hread
  obtain ⟨date', hdate', hread⟩ := bind_eq_ok_iff.mp hread
  rw [hdate, readDate_stamp] at hdate'
  cases hdate'
  cases hread
  exact ⟨hdate.trans (stamp_recorded date).symm, date.recorded_recorded⟩

/-- The listing is complete: it holds what looking up the user's transactions finds. -/
theorem Sound.mem_transactionsOf_iff (hl : Sound l)
    (hall : l.transactionsOf now user order = .ok all) (t : Transaction) :
    t ∈ all ↔ l.transaction? now t.id user = .ok (some t) := by
  constructor
  · intro ht
    obtain ⟨e, he, hread⟩ := exists_of_mem_mapM hall ht
    -- Each listed row was read, and looking it up reads the same row.
    obtain ⟨t', hread', hfound⟩ := hl.transaction?_eq now (mem_orderedRows_iff.mp he)
    rw [hread] at hread'
    cases hread'
    rwa [(fields_of_readTransaction hread).1]
  · intro hfound
    obtain ⟨row, hrow, huser, hread⟩ := exists_row_of_readOwned hfound
    have hlisted : (t.id, row) ∈ l.orderedRows user order :=
      mem_orderedRows_iff.mpr (ownedTransaction?_eq_some_iff.mpr ⟨hrow, huser⟩)
    exact mem_of_mapM hall hlisted hread

/-- The transactions listed from the oldest on are those from the newest on in reverse. -/
theorem transactionsOf_oldestFirst (hall : l.transactionsOf now user .newestFirst = .ok all) :
    l.transactionsOf now user .oldestFirst = .ok all.reverse := by
  unfold transactionsOf
  rw [orderedRows_oldestFirst]
  exact mapM_reverse hall

/-- The order of a listing from the newest on: the later stored date comes first and, on one date,
    the higher identifier. -/
def ListedBefore (a b : Transaction) : Prop :=
  stamp b.date < stamp a.date ∨ stamp b.date = stamp a.date ∧ b.id < a.id

theorem ListedBefore.asymm {a b : Transaction} (hab : ListedBefore a b) : ¬ ListedBefore b a := by
  rintro (hba | ⟨hsame, hba⟩)
  · rcases hab with hab | ⟨hsame, -⟩
    · exact String.lt_irrefl _ (String.lt_trans hab hba)
    · exact String.lt_irrefl _ (hsame ▸ hba)
  · rcases hab with hab | ⟨-, hab⟩
    · exact String.lt_irrefl _ (hsame ▸ hab)
    · exact Int64.lt_irrefl (Int64.lt_trans hab hba)

theorem Sound.pairwise_transactionsOf (hl : Sound l)
    (hall : l.transactionsOf now user .newestFirst = .ok all) : all.Pairwise ListedBefore := by
  refine pairwise_of_mapM hall (l.pairwise_orderedRows user) ?_
  intro e he f hf a b hef ha hb
  -- The order of the rows is that of the transactions, since dates and identifiers are read back.
  have hsound := hl.soundTransaction (mem_orderedRows_iff.mp he)
  have hsound' := hl.soundTransaction (mem_orderedRows_iff.mp hf)
  rw [(hsound.date_of_read ha).1, (hsound'.date_of_read hb).1, ← (fields_of_readTransaction ha).1,
    ← (fields_of_readTransaction hb).1] at hef
  exact hef

theorem Sound.recorded_transactionsOf (hl : Sound l)
    (hall : l.transactionsOf now user order = .ok all) {t : Transaction} (ht : t ∈ all) :
    t.date.recorded = t.date := by
  obtain ⟨e, he, hread⟩ := exists_of_mem_mapM hall ht
  exact ((hl.soundTransaction (mem_orderedRows_iff.mp he)).date_of_read hread).2

theorem stamp_lt_stamp_iff {s t : Instant} :
    stamp s < stamp t ↔ Calendar.storedText s < Calendar.storedText t := by
  rw [stamp, stamp, String.lt_iff, String.toList_ofList, String.toList_ofList]

/-- Stored dates are the same if the same is kept of the instants. -/
theorem stamp_inj {s t : Instant} : stamp s = stamp t ↔ s.recorded = t.recorded := by
  rw [stamp, stamp, String.ofList_inj, Calendar.storedText_inj]

end Ledger

/-- **Listings are in the order of time for years of four digits.** The listing from the newest on
    holds each of a user's transactions, the listing from the oldest on is its reverse, and a page
    with enough room shows them whole. If the years of two transactions are in step, the one that is
    later comes first and, at one time, the one with the higher identifier; otherwise the one that
    is earlier comes first. All years up to 9999 are in step unless both lie before year zero. -/
theorem listings_are_chronological {l : Ledger} (hl : l.Reachable) (now : Instant) (user : Ident) :
    ∃ all, l.transactionsOf now user .newestFirst = .ok all ∧
      l.transactionsOf now user .oldestFirst = .ok all.reverse ∧
      (∀ size : UInt64, all.length ≤ size.toNat →
        l.page now user 0 size .newestFirst = .ok all ∧
          l.page now user 0 size .oldestFirst = .ok all.reverse) ∧
      (∀ t, t ∈ all ↔ l.transaction? now t.id user = .ok (some t)) ∧
      (∀ a ∈ all, ∀ b ∈ all, Calendar.InStep b.date.date.year a.date.date.year →
        ([a, b].Sublist all ↔ b.date < a.date ∨ b.date = a.date ∧ b.id < a.id)) ∧
      (∀ a ∈ all, ∀ b ∈ all, ¬ Calendar.InStep b.date.date.year a.date.date.year →
        ([a, b].Sublist all ↔ a.date < b.date)) ∧
      ∀ y z : Int, y ≤ 9999 → z ≤ 9999 → 0 ≤ y ∨ 0 ≤ z → Calendar.InStep y z := by
  have hsound := hl.sound
  obtain ⟨all, hall⟩ := hsound.exists_transactionsOf now user .newestFirst
  have hlisted {a b : Transaction} (ha : a ∈ all) (hb : b ∈ all) :
      [a, b].Sublist all ↔ Ledger.ListedBefore a b :=
    pair_sublist_iff (fun _ _ => Ledger.ListedBefore.asymm)
      (hsound.pairwise_transactionsOf hall) ha hb
  have hreverse := Ledger.transactionsOf_oldestFirst hall
  refine ⟨all, hall, hreverse, ?_, hsound.mem_transactionsOf_iff hall, ?_, ?_,
    fun _ _ => Calendar.inStep_of_le⟩
  · intro size hsize
    have hroom : all.reverse.length ≤ size.toNat := by rwa [List.length_reverse]
    exact ⟨hsound.page_zero hall hsize, hsound.page_zero hreverse hroom⟩
  · intro a ha b hb hstep
    rw [hlisted ha hb, Ledger.ListedBefore, Ledger.stamp_lt_stamp_iff, Ledger.stamp_inj,
      Calendar.storedText_lt_iff hstep, hsound.recorded_transactionsOf hall ha,
      hsound.recorded_transactionsOf hall hb]
  · intro a ha b hb hstep
    -- Two equal dates have the same year, and a year is in step with itself.
    have hdates : ¬ b.date = a.date := by
      intro hsame
      exact hstep (hsame ▸ Calendar.inStep_self _)
    rw [hlisted ha hb, Ledger.ListedBefore, Ledger.stamp_lt_stamp_iff, Ledger.stamp_inj,
      Calendar.storedText_lt_iff_of_not_inStep hstep, hsound.recorded_transactionsOf hall ha,
      hsound.recorded_transactionsOf hall hb]
    simp [hdates]

/-! ### A leap second, and a year of five digits -/

namespace Ledger

/-- The last second of a day. -/
def lastSecond : Instant := { dawn with
  hour := 23, minute := 59, second := 59
  hour_lt := by decide, minute_lt := Nat.lt_add_one 59, second_lt := Nat.lt_add_one 59 }

/-- The leap second after it. -/
def leapSecond : Instant := { lastSecond with nano := 1000000000, nano_lt := by decide }

/-- The start of the next day. -/
def nextDay : Instant := Instant.midnight { Date.epoch with
  day := 2, one_le := by decide, day_le := by decide }

/-- The start of a year of five digits. -/
def farOff : Instant := Instant.midnight { Date.epoch with
  year := 10000, first_le := by decide, le_last := by decide, day_le := by decide }

/-- A transaction of a given date, to be recorded. -/
def dated (date : Instant) : NewTransaction := ⟨1, "Netflix", none, Amount.zero, date, []⟩

/-- A transaction of a given date as it is read back. -/
def readBack (id : Ident) (date : Instant) : Transaction :=
  ⟨id, 1, 1, "Netflix", none, Amount.zero, date, [], dawn⟩

/-- A ledger with transactions around a leap second. -/
def newYearsEve : Ledger :=
  empty.afterWrites
    [.createAccount dawn 1 "Checking", .insertTransaction dawn 1 (dated leapSecond),
      .insertTransaction dawn 1 (dated nextDay), .insertTransaction dawn 1 (dated lastSecond)]

/-- A ledger with a transaction far off and one of the first day. -/
def twoAges : Ledger :=
  empty.afterWrites
    [.createAccount dawn 1 "Checking", .insertTransaction dawn 1 (dated farOff),
      .insertTransaction dawn 1 (dated dawn)]

end Ledger

/-- From the newest on, the leap second is listed after the next day and before the second that it
    follows. -/
theorem listings_are_chronological_newYearsEve :
    Ledger.newYearsEve.Reachable ∧
    ∃ all, Ledger.newYearsEve.transactionsOf Ledger.dawn 1 .newestFirst = .ok all ∧
      [Ledger.readBack 2 Ledger.nextDay, Ledger.readBack 1 Ledger.leapSecond].Sublist all ∧
      [Ledger.readBack 1 Ledger.leapSecond, Ledger.readBack 3 Ledger.lastSecond].Sublist all := by
  have hreachable : Ledger.newYearsEve.Reachable := Ledger.Reachable.empty.afterWrites _
  obtain ⟨all, hall, -, -, hmem, hlisted, -, hstep⟩ :=
    listings_are_chronological hreachable Ledger.dawn 1
  have hnext : Ledger.readBack 2 Ledger.nextDay ∈ all := (hmem _).mpr rfl
  have hleap : Ledger.readBack 1 Ledger.leapSecond ∈ all := (hmem _).mpr rfl
  have hlast : Ledger.readBack 3 Ledger.lastSecond ∈ all := (hmem _).mpr rfl
  -- All three are of the year 1970.
  have hyear : Calendar.InStep 1970 1970 := hstep 1970 1970 (by decide) (by decide) (by decide)
  exact ⟨hreachable, all, hall, (hlisted _ hnext _ hleap hyear).mpr (by decide),
    (hlisted _ hleap _ hlast hyear).mpr (by decide)⟩

/-- A transaction of the year 10000 is listed after one of the year 1970 where the newest comes
    first. -/
theorem later_year_listed_last :
    Ledger.twoAges.Reachable ∧
    Ledger.twoAges.page Ledger.dawn 1 0 2 .newestFirst =
      .ok [Ledger.readBack 2 Ledger.dawn, Ledger.readBack 1 Ledger.farOff] ∧
    Ledger.dawn < Ledger.farOff := by
  refine ⟨Ledger.Reachable.empty.afterWrites _, ?_, by decide⟩
  unfold Ledger.page
  -- The two rows are put in order here, since sorting itself is not computed.
  rw [Ledger.orderedRows_of_pairwise (by decide +kernel)]
  rfl

end LedgerRules
