import LedgerRules.Proofs.Ledger.Pages
import LedgerRules.Proofs.Run.Interruption
import LedgerRules.Proofs.Run.Operations
import LedgerRules.Proofs.Run.SetupFailure

/-!
# The pages that a run reads

A full run reads the listing page by page until one of them is not full. A page has room for one
transaction at least, whatever the settings and the request say, and what the run writes between two
pages changes neither how many transactions are listed nor whether they can be read. So the run
reads each page that the listing fills, and then the one that it does not fill.

None of this needs the ledger to be one that the store's writes have made: a listing that can be
read is enough.

## Overview

- **Layer A**: what going over transactions keeps.
- **Layer B**: the listing while transactions are written to.
- **Layer C**: one page.
- **Layer D**: the pages up to the last one.
- **Layer E**: whole runs.
-/

namespace LedgerRules

/-! ## Layer A: going over transactions -/

namespace Run

section

variable {env : Surroundings} {settings : Settings} {user : Ident} {engine : Engine}
  {I : World → Prop} (hcall : ∀ c : Call, c.subject? ≠ none → Keeps I (perform env c))
include hcall

theorem keeps_transferToLink (cs : Changeset) : Keeps I (transferToLink env settings user cs) := by
  unfold transferToLink
  split
  · exact fun w hw => hw
  · split
    · exact .bind (hcall _ (by simp [Call.subject?])) fun linked w hw => hw
    · exact fun w hw => hw

theorem keeps_apply (cs : Changeset) : Keeps I (apply env settings user cs) := by
  refine .bind (hcall _ (by simp [Call.subject?])) fun found => ?_
  cases found with
  | none => exact fun w hw => hw
  | some live =>
    refine .bind (keeps_transferToLink hcall cs) fun transfer => ?_
    simp only
    split
    · exact fun w hw => hw
    · exact .bind (hcall _ (by simp [Call.subject?])) fun _ w hw => hw

theorem keeps_process (sum : Summary) (t : Transaction) :
    Keeps I (process env settings user engine sum t) := by
  unfold process
  cases engine.evaluate t with
  | none => exact fun w hw => hw
  | some cs =>
    refine .bind (keeps_apply hcall cs).attempt fun result => ?_
    rcases result with e | _ | modified <;> exact fun w hw => hw

/-- **Going over transactions** keeps what every call about a transaction keeps. -/
theorem keeps_processAll (ts : List Transaction) (sum : Summary) :
    Keeps I (processAll env settings user engine sum ts) := by
  induction ts generalizing sum with
  | nil => exact fun w hw => hw
  | cons t ts ih => exact .bind (keeps_process hcall sum t) ih

end

end Run

/-! ## Layer B: the listing while rows change -/

namespace Ledger

variable {l l' : Ledger} {now : Instant} {id user : Ident} {order : ListOrder}

/-- What can fail to be read of a row is its head. -/
theorem exists_readTransaction_of_sameHead {row row' : TransactionRow} (h : row.SameHead row')
    (hread : ∃ t, readTransaction now id row = .ok t) :
    ∃ t, readTransaction now id row' = .ok t := by
  obtain ⟨t, hread⟩ := hread
  obtain ⟨createdAt, hcreatedAt, hread⟩ := bind_eq_ok_iff.mp hread
  obtain ⟨date, hdate, -⟩ := bind_eq_ok_iff.mp hread
  refine ⟨_, bind_eq_ok_iff.mpr ⟨createdAt, ?_, bind_eq_ok_iff.mpr ⟨date, ?_, rfl⟩⟩⟩
  · rw [h.createdAt, hcreatedAt]
  · rw [h.date, hdate]

/-- **A listing that can be read** can still be read after changes were applied, and is as long as
    before. -/
theorem exists_transactionsOf_applyChanges {owner : Ident} {changes : Changes}
    {all : List Transaction} (h : l.applyChanges id owner changes = .ok l')
    (hall : l.transactionsOf now user order = .ok all) :
    ∃ all', l'.transactionsOf now user order = .ok all' ∧ all'.length = all.length := by
  obtain ⟨g, hg, rfl⟩ := exists_revise_of_applyChanges h
  have hplace : KeepsPlace g := ⟨fun i row => (hg i row).user, fun i row => (hg i row).date⟩
  have hrows : (l.revise g).orderedRows user order =
      (l.orderedRows user order).map fun e => (e.1, g e.1 e.2) := orderedRows_revise hplace
  obtain ⟨all', hall'⟩ : ∃ all', (l.revise g).transactionsOf now user order = .ok all' := by
    apply exists_mapM_eq_ok
    rw [hrows]
    intro e' he'
    obtain ⟨e, he, rfl⟩ := List.mem_map.mp he'
    exact exists_readTransaction_of_sameHead (hg e.1 e.2) (exists_of_mapM_eq_ok hall e he)
  refine ⟨all', hall', ?_⟩
  rw [length_of_mapM hall', length_of_mapM hall, hrows, List.length_map]

end Ledger

/-! ## Layer C: one page -/

/-- Whether a call reads a page. -/
def Call.readsPage : Call → Bool
  | .page _ _ _ => true
  | .rules _ | .rule _ _ | .conditions _ | .actions _ | .categories _ | .accounts _
  | .transaction _ _ | .transferLink _ _ | .applyChanges _ _ _ => false

theorem Call.readsPage_of_subject? {c : Call} (h : c.subject? ≠ none) : c.readsPage = false := by
  cases c <;> first | rfl | exact absurd rfl h

theorem Call.readsPage_of_area {c : Call} (h : c.area ≠ .transactions) : c.readsPage = false := by
  cases c <;> first | rfl | exact absurd rfl h

/-- The pages that were read, or should have been, in the order of the calls. -/
def World.pageReads (w : World) : List Event := w.events.reverse.filter (·.call.readsPage)

/-- The first pages of a listing, each of them read. -/
def firstPages (user : Ident) (size : UInt64) (count : Nat) : List Event :=
  (List.range count).map fun k => ⟨.page user (UInt64.ofNat k) size, true⟩

theorem firstPages_succ (user : Ident) (size : UInt64) (count : Nat) :
    firstPages user size (count + 1) =
      firstPages user size count ++ [⟨.page user (UInt64.ofNat count) size, true⟩] := by
  simp [firstPages, List.range_succ]

/-- What a scan keeps between two pages: it is not asked to stop, the listing can be read and has as
    many transactions as before, and some pages have been read. -/
structure World.Between (now : Instant) (user : Ident) (n : Nat) (reads : List Event) (w : World) :
    Prop where
  unasked : w.flag ≠ some true
  listed : ∃ all, w.ledger.transactionsOf now user .newestFirst = .ok all ∧ all.length = n
  reads : w.pageReads = reads

namespace Run

variable {σ : Schedule} {now : Instant} {user : Ident} {n : Nat} {reads : List Event}

/-- After a call the run is between two pages again, if the ledger that the call leaves has a
    listing of the same length. -/
theorem between_after (hsilent : σ.Silent) {w : World} (h : w.Between now user n reads) (c : Call)
    (answered : Bool) {l : Ledger}
    (hl : ∃ all, l.transactionsOf now user .newestFirst = .ok all ∧ all.length = n) :
    (w.after σ c answered l).Between now user n
      (reads ++ if c.readsPage then [⟨c, answered⟩] else []) where
  unasked := by
    simp only [World.after, hsilent w.events c]
    exact h.unasked
  listed := hl
  reads := by
    rw [← h.reads]
    simp only [World.pageReads, World.after, List.reverse_cons, List.filter_append]
    cases hreads : c.readsPage <;> simp [hreads]

/-- **A call about a transaction** reads no page and leaves as many transactions listed. -/
theorem keeps_between_perform (hσ : σ.Alone) (hsilent : σ.Silent) {c : Call}
    (hc : c.subject? ≠ none) : Keeps (World.Between now user n reads) (perform ⟨now, σ⟩ c) := by
  intro w hw
  -- What is left to show after the call is that the listing is as long as before.
  have hafter : ∀ answered (l : Ledger),
      (∃ all, l.transactionsOf now user .newestFirst = .ok all ∧ all.length = n) →
        (w.after σ c answered l).Between now user n reads := by
    intro answered l hl
    have h := between_after hsilent hw c answered hl
    rwa [Call.readsPage_of_subject? hc, if_neg Bool.false_ne_true, List.append_nil] at h
  cases hrun : perform ⟨now, σ⟩ c w with
  | error s w' =>
    rw [eq_after_of_perform_eq_error hσ hrun]
    exact hafter false w.ledger hw.listed
  | ok a w' =>
    obtain ⟨l, hserve, rfl⟩ := serve_of_perform_eq_ok hσ hrun
    refine hafter true l ?_
    -- Only a change that is applied leaves another ledger, and it moves no row.
    by_cases hsame : l = w.ledger
    · rw [hsame]
      exact hw.listed
    · obtain ⟨id, owner, changes, rfl⟩ := Call.eq_applyChanges_of_serve hserve hsame
      obtain ⟨l', happlied, heq⟩ := map_eq_ok_iff.mp hserve
      cases heq
      obtain ⟨all, hall, rfl⟩ := hw.listed
      exact Ledger.exists_transactionsOf_applyChanges happlied hall

/-- **One page** of a listing that can be read is read, and holds what is left for it. -/
theorem exists_perform_page (hσ : σ.Alone) (hsilent : σ.Silent) (hn : n < 0x8000000000000000)
    {size : UInt64} (hsize : 1 ≤ size.toNat ∧ size.toNat ≤ 1000) {k : Nat}
    (hk : k * size.toNat ≤ n) {w : World} (hw : w.Between now user n reads)
    (hserved : (σ w.events (.page user (UInt64.ofNat k) size)).fate = .served) :
    ∃ ts w', perform ⟨now, σ⟩ (.page user (UInt64.ofNat k) size) w = .ok ts w' ∧
      ts.length = min size.toNat (n - k * size.toNat) ∧
      w'.Between now user n (reads ++ [⟨.page user (UInt64.ofNat k) size, true⟩]) := by
  obtain ⟨all, hall, rfl⟩ := hw.listed
  -- The page begins within the listing, so its number and its place are signed words.
  have hle : k ≤ k * size.toNat := Nat.le_mul_of_pos_right k hsize.1
  have hpage := Ledger.page_eq_cut hall (UInt64.ofNat k) size
  rw [Window.cut_ofPage all hsize.2 (by omega) (by omega)] at hpage
  have hserve : (Call.page user (UInt64.ofNat k) size).serve now w.ledger =
      .ok ((all.drop (k * size.toNat)).take size.toNat, w.ledger) := by
    rw [Call.serve, hpage]
    rfl
  refine ⟨_, _, perform_eq_ok hσ hserved hserve, by simp, ?_⟩
  exact between_after hsilent hw (.page user (UInt64.ofNat k) size) true hw.listed

/-- **A run goes over a page** that begins within the listing, and then to the next one unless the
    listing ends on it. -/
theorem exists_processPages_succ (hσ : σ.RefusesOnly (Call.OfApply false)) (hsilent : σ.Silent)
    (hn : n < 0x8000000000000000) {size : UInt64} (hsize : 1 ≤ size.toNat ∧ size.toNat ≤ 1000)
    (settings : Settings) (engine : Engine) {k : Nat} (hk : k * size.toNat ≤ n) (s : Summary)
    {w : World} (hw : w.Between now user n (firstPages user size k)) :
    ∃ s' w', w'.Between now user n (firstPages user size (k + 1)) ∧
      ∀ left, processPages ⟨now, σ⟩ settings user engine size (left + 1) (UInt64.ofNat k) s w =
        if n < (k + 1) * size.toNat then .ok s' w'
        else processPages ⟨now, σ⟩ settings user engine size left (UInt64.ofNat (k + 1)) s' w' := by
  have hserved : (σ w.events (.page user (UInt64.ofNat k) size)).fate = .served :=
    hσ.served_of_subject? _ _ rfl
  obtain ⟨ts, w₁, hpage, hlength, hw₁⟩ :=
    exists_perform_page hσ.alone hsilent hn hsize hk hw hserved
  rw [← firstPages_succ] at hw₁
  have hcompletes : Completes (processAll ⟨now, σ⟩ settings user engine s ts) :=
    completes_processAll hσ.safe ts s
  obtain ⟨s', w', hall⟩ := hcompletes w₁
  -- Whatever is written to the transactions on the page, the listing stays as long as it is.
  have hkeeps : Keeps (World.Between now user n (firstPages user size (k + 1)))
      (processAll ⟨now, σ⟩ settings user engine s ts) :=
    keeps_processAll (fun c hc => keeps_between_perform hσ.alone hsilent hc) ts s
  have hw' := hkeeps w₁ hw₁
  rw [hall] at hw'
  have hnext : (k + 1) * size.toNat = k * size.toNat + size.toNat := Nat.succ_mul k size.toNat
  have hlast : ts.length < size.toNat ↔ n < (k + 1) * size.toNat := by omega
  refine ⟨s', w', hw', fun left => ?_⟩
  -- Whether the page is full is whether the listing goes on beyond it.
  rw [processPages_succ hw.unasked hpage hall, ofNat_word_succ]
  simp only [hlast]

/-! ## Layer D: the pages up to the last one -/

/-- **The scan of the pages ends with the one that is not full.** It reads all pages that are left,
    and however many more it were allowed to read, it would not read them. -/
theorem exists_processPages (hσ : σ.RefusesOnly (Call.OfApply false)) (hsilent : σ.Silent)
    (hn : n < 0x8000000000000000) {size : UInt64} (hsize : 1 ≤ size.toNat ∧ size.toNat ≤ 1000)
    (settings : Settings) (engine : Engine) (rest k : Nat) (hk : k + rest = n / size.toNat)
    (s : Summary) {w : World} (hw : w.Between now user n (firstPages user size k)) :
    ∃ s' w', w'.Between now user n (firstPages user size (n / size.toNat + 1)) ∧
      ∀ left, rest < left →
        processPages ⟨now, σ⟩ settings user engine size left (UInt64.ofNat k) s w = .ok s' w' := by
  have hfull : ∀ j, j * size.toNat ≤ n ↔ j ≤ n / size.toNat := fun j =>
    (Nat.le_div_iff_mul_le hsize.1).symm
  -- On the number of full pages that are left.
  induction rest generalizing k s w with
  | zero =>
    obtain ⟨s', w', hw', hstep⟩ := exists_processPages_succ hσ hsilent hn hsize settings engine
      ((hfull k).mpr (by omega)) s hw
    -- The page that is read now is the last one, since the listing ends on it.
    have hlast : n < (k + 1) * size.toNat := Nat.lt_of_not_le (mt (hfull (k + 1)).mp (by omega))
    rw [show k = n / size.toNat from hk] at hw'
    refine ⟨s', w', hw', fun left hleft => ?_⟩
    obtain ⟨left, rfl⟩ : ∃ more, left = more + 1 := ⟨left - 1, by omega⟩
    rw [hstep, if_pos hlast]
  | succ rest ih =>
    obtain ⟨s₁, w₁, hw₁, hstep⟩ := exists_processPages_succ hσ hsilent hn hsize settings engine
      ((hfull k).mpr (by omega)) s hw
    -- The page is full, so the next one is read as well.
    have hmore : ¬ n < (k + 1) * size.toNat := Nat.not_lt.mpr ((hfull (k + 1)).mpr (by omega))
    obtain ⟨s', w', hw', hrest⟩ := ih (k + 1) (by omega) s₁ hw₁
    refine ⟨s', w', hw', fun left hleft => ?_⟩
    obtain ⟨left, rfl⟩ : ∃ more, left = more + 1 := ⟨left - 1, by omega⟩
    rw [hstep, if_neg hmore]
    exact hrest left (by omega)

end Run

/-! ## Layer E: whole runs -/

/-- The setup reads no page, and after it the run is about to read the first one. -/
theorem Run.between_of_setup {σ : Schedule} (hsilent : σ.Silent) {now : Instant} {user : Ident}
    {l : Ledger} {all : List Transaction}
    (hall : l.transactionsOf now user .newestFirst = .ok all) {flag : Option Bool}
    (hflag : flag ≠ some true) {w : World} (hledger : w.ledger = l)
    (htrail : World.Trail σ (fun ev => ev.answered = true ∧ ev.call.area ≠ .transactions) w.events
      ⟨l, flag, []⟩ w) : w.Between now user all.length [] where
  unasked := by
    rw [htrail.flag hsilent]
    exact hflag
  listed := ⟨all, hledger ▸ hall, rfl⟩
  reads := by
    refine List.filter_eq_nil_iff.mpr fun ev hev => ?_
    have harea := (htrail.all ev (List.mem_reverse.mp hev)).2
    simp [Call.readsPage_of_area harea]

/-- **A full run over a listing that can be read** reads each page that the listing fills and one
    more, and a run that is allowed more pages than these comes to the same. -/
theorem exists_execute_of_listed {l : Ledger} (hids : l.transactions.Positive) {now : Instant}
    {user : Ident} {all : List Transaction}
    (hall : l.transactionsOf now user .newestFirst = .ok all) {σ : Schedule}
    (hσ : σ.RefusesOnly (Call.OfApply false)) (hsilent : σ.Silent) {flag : Option Bool}
    (hflag : flag ≠ some true) {request : Request} (hfull : request.transactions = none)
    {rules : List CompleteRule} (hrules : l.resolve now user request.rules = .ok rules)
    (hsome : rules ≠ []) {engine : Engine} (hengine : l.engine now user rules = .ok engine)
    (settings : Settings) :
    let size := settings.pageSize request.pageSize
    ∃ s w, Run.execute ⟨now, σ⟩ settings user request ⟨l, flag, []⟩ = .ok s w ∧
      w.pageReads = firstPages user size (all.length / size.toNat + 1) ∧
      ∀ k, all.length / size.toNat < k →
        Run.firstParts ⟨now, σ⟩ settings user request k ⟨l, flag, []⟩ = .ok s w := by
  intro size
  have hlength : all.length < Run.pageCount := by
    rw [length_of_mapM hall, Ledger.length_orderedRows]
    exact Nat.lt_of_le_of_lt (List.length_filter_le _ _) hids.length_lt
  have hsetup := answersAll_setupCalls_of_engine hrules hengine hσ.served_of_subject? []
  -- The setup, and then the scan of the pages from the first on.
  obtain ⟨e, w₁, w₂, -, hrun₁, hrun₂, hledger, htrail⟩ :=
    exists_setup hσ.alone hσ.safe hsetup hrules hsome flag
  have hbetween := Run.between_of_setup hsilent hall hflag hledger htrail
  obtain ⟨s, w, hw, hpages⟩ := Run.exists_processPages hσ hsilent hlength
    (settings.pageSize_bounds request.pageSize) settings e _ 0 (Nat.zero_add _)
    { Summary.empty with totalRules := UInt64.ofNat rules.length } hbetween
  have hparts : ∀ k, all.length / size.toNat < k →
      Run.firstParts ⟨now, σ⟩ settings user request k ⟨l, flag, []⟩ = .ok s w := by
    intro k hk
    rw [Run.firstParts, Run.prepared_eq hrun₁ hsome hrun₂, Run.processFirst]
    simp only [hfull]
    exact hpages k hk
  refine ⟨s, w, ?_, hw.reads, hparts⟩
  -- The pages that can be told apart are more than the listing needs.
  rw [← hparts Run.pageCount (Nat.lt_of_le_of_lt (Nat.div_le_self _ _) hlength), Run.firstParts,
    Run.execute_eq_prepared]
  simp only [Run.processRequest, Run.processFirst, hfull]

/-- **Every full run reads each page once, up to the first that is not full.** Under any settings
    the size of a page lies between one and the largest that is allowed, grows with the size that is
    asked for, and is that size where it lies within these bounds. A full run over a ledger whose
    listing can be read ends, if nobody else writes, nobody asks it to stop, and nothing is refused
    to it but calls by which changesets are written: it reads the pages from zero on, in order, as
    many as the listing fills and one more. This is not for want of pages that it might read: a run
    that is allowed more pages comes to the same. -/
theorem full_runs_read_each_page_once (settings : Settings) :
    (∀ requested, 1 ≤ (settings.pageSize requested).toNat ∧
      (settings.pageSize requested).toNat ≤ min 1000 (max 1 settings.maxPageSize.toNat)) ∧
    (∀ a b : Int64, a ≤ b →
      settings.pageSize (some a) ≤ settings.pageSize (some b)) ∧
    (∀ a : Int64, 1 ≤ a.toInt → a.toInt ≤ min 1000 (max 1 settings.maxPageSize.toNat : Nat) →
      ((settings.pageSize (some a)).toNat : Int) = a.toInt) ∧
    ∀ {l : Ledger} {σ : Schedule} {now : Instant} {user : Ident} {request : Request}
      {rules : List CompleteRule} {engine : Engine} {all : List Transaction} {flag : Option Bool},
      l.transactions.Positive → l.transactionsOf now user .newestFirst = .ok all →
      σ.RefusesOnly (Call.OfApply false) → σ.Silent → flag ≠ some true →
      request.transactions = none → l.resolve now user request.rules = .ok rules → rules ≠ [] →
      l.engine now user rules = .ok engine →
      let size := settings.pageSize request.pageSize
      ∃ s w, Run.execute ⟨now, σ⟩ settings user request ⟨l, flag, []⟩ = .ok s w ∧
        (w.events.reverse.filter fun ev => ev.call.readsPage) =
          ((List.range (all.length / size.toNat + 1)).map fun k =>
            ⟨.page user (UInt64.ofNat k) size, true⟩) ∧
        ∀ k, all.length / size.toNat < k →
          Run.firstParts ⟨now, σ⟩ settings user request k ⟨l, flag, []⟩ = .ok s w := by
  -- The four statements on the size of a page are about numbers.
  have hlargest := settings.toNat_largestPage
  refine ⟨?_, ?_, ?_, ?_⟩
  · rintro (_ | requested)
    · have hsize := settings.toNat_pageSize_none
      omega
    · have hsize := settings.toNat_pageSize_some requested
      omega
  · intro a b hab
    rw [Int64.le_iff_toInt_le] at hab
    rw [UInt64.le_iff_toNat_le, settings.toNat_pageSize_some, settings.toNat_pageSize_some]
    omega
  · intro a hpositive hle
    rw [settings.toNat_pageSize_some]
    omega
  · intro l σ now user request rules engine all flag hids hall hσ hsilent hflag hnone hrules hsome
      hengine size
    exact exists_execute_of_listed hids hall hσ hsilent hflag hnone hrules hsome hengine settings

/-- The three transactions of the small ledger fill three pages of one, so that four pages are
    read. -/
theorem full_runs_read_each_page_once_streaming :
    Settings.standard.pageSize (some (-1)) ≤ Settings.standard.pageSize (some 5000) ∧
    ((Settings.standard.pageSize (some 7)).toNat : Int) = 7 ∧
    ∃ s w, Run.execute ⟨Ledger.dawn, .calm⟩ .standard 1 ⟨none, none, some 1⟩
        ⟨Ledger.streaming, some false, []⟩ = .ok s w ∧
      (w.events.reverse.filter fun ev => ev.call.readsPage) =
        [⟨.page 1 0 1, true⟩, ⟨.page 1 1 1, true⟩, ⟨.page 1 2 1, true⟩, ⟨.page 1 3 1, true⟩] := by
  obtain ⟨-, hmono, hexact, hruns⟩ := full_runs_read_each_page_once .standard
  have hsound := Ledger.reachable_streaming.sound
  obtain ⟨all, hall⟩ := hsound.exists_transactionsOf Ledger.dawn 1 .newestFirst
  have hlength : all.length = 3 := by
    rw [length_of_mapM hall, Ledger.length_orderedRows]
    rfl
  obtain ⟨snapshot, hsnapshot⟩ := hsound.exists_snapshot Ledger.dawn 1
  obtain ⟨engine, hengine, -⟩ := Ledger.exists_engine hsnapshot [Ledger.streamRule]
  have hflag : (some false : Option Bool) ≠ some true := by decide
  have hfull : (⟨none, none, some 1⟩ : Request).transactions = none := rfl
  obtain ⟨s, w, hrun, hreads, -⟩ := hruns hsound.transactionIds hall (Schedule.refusesOnly_calm _)
    Schedule.silent_calm hflag hfull Ledger.resolve_streaming (by simp) hengine
  refine ⟨hmono _ _ (by decide), hexact 7 (by decide) (by decide), s, w, hrun, ?_⟩
  rw [hreads, hlength]
  rfl

end LedgerRules
