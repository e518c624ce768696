import LedgerRules.Proofs.Run.Scan

/-!
# Full runs

A full run that nothing disturbs does to every transaction of the user what the rules ask for, as
if it had looked at all of them before it wrote to any.
-/

namespace LedgerRules

namespace Pass

variable {p : Pass} {l : Ledger}

theorem mem_listing_iff {e : Ident × TransactionRow} :
    e ∈ p.listing l ↔ l.ownedTransaction? e.1 p.user = some e.2 :=
  Ledger.mem_orderedRows_iff

theorem mem_listing_of_user {e : Ident × TransactionRow} (he : e ∈ l.transactions.entries)
    (huser : e.2.user = p.user) : e ∈ p.listing l :=
  mem_listing_iff.mpr (Ledger.ownedTransaction?_eq_some_iff.mpr
    ⟨Table.get?_eq_some_iff.mpr he, huser⟩)

theorem count_listing : p.count l ((p.listing l).map (·.1)) = l.transactionCount p.user := by
  have hall : ∀ id ∈ (p.listing l).map (·.1), (l.ownedTransaction? id p.user).isSome = true := by
    intro id hid
    obtain ⟨e, he, rfl⟩ := List.mem_map.mp hid
    simp [mem_listing_iff.mp he]
  rw [count, List.countP_eq_length.mpr hall, List.length_map, listing, Ledger.length_orderedRows]

/-- The reports on a listing name the transactions whose rows change, in the order of the
    listing. -/
theorem map_transaction_filterMap_report (es : List (Ident × TransactionRow)) :
    (es.filterMap fun e => p.report e.1 e.2).map (·.transaction) =
      (es.filter fun e => p.settle e.1 e.2 ≠ e.2).map (·.1) := by
  induction es with
  | nil => rfl
  | cons e es ih =>
    -- A transaction is reported exactly if its row changes.
    cases hreport : p.report e.1 e.2 with
    | none =>
      have hsame : p.settle e.1 e.2 = e.2 := report_eq_none_iff.mp hreport
      simpa [hreport, hsame] using ih
    | some m =>
      have hchanged : ¬ p.settle e.1 e.2 = e.2 := by
        rw [← report_eq_none_iff, hreport]
        simp
      simpa [hreport, hchanged, transaction_of_report hreport] using ih

end Pass

/-- **A full run settles every transaction of the user exactly once.** From a reachable ledger, with
    a resolved rule at least, and if nobody else writes, no call fails and nobody asks the run to
    stop: the run ends, the row of every transaction of the user becomes what the changeset staged
    for it before the run makes of it, and nothing else changes. All transactions of the user and
    all resolved rules are counted. The transactions whose row differs from before are reported, in
    the order of the listing, and each of them has been written to once. -/
theorem execute_settles_all {l : Ledger} (hl : l.Reachable) {σ : Schedule} (halone : σ.Alone)
    (hserving : σ.Serving) (hsilent : σ.Silent) {request : Request}
    (hall : request.transactions = none) {now : Instant} {user : Ident}
    {rules : List CompleteRule} (hrules : l.resolve now user request.rules = .ok rules)
    (hsome : rules ≠ []) (settings : Settings) {flag : Option Bool} (hflag : flag ≠ some true) :
    ∃ snapshot s w, l.snapshot now user = .ok snapshot ∧
      Run.execute ⟨now, σ⟩ settings user request ⟨l, flag, []⟩ = .ok s w ∧
      let p : Pass := ⟨{ snapshot with rules }, now, settings, user⟩
      let listing := l.orderedRows user .newestFirst
      w.ledger = l.revise (fun id row => if row.user = user then p.settle id row else row) ∧
      (∀ e, e ∈ listing ↔ l.ownedTransaction? e.1 user = some e.2) ∧
      (listing.map (·.1)).Nodup ∧
      s.processed.toNat = listing.length ∧
      s.totalRules.toNat = rules.length ∧
      s.modified = listing.filterMap (fun e => p.report e.1 e.2) ∧
      s.modified.map (·.transaction) =
        (listing.filter fun e => p.settle e.1 e.2 ≠ e.2).map (·.1) ∧
      w.events.reverse.filterMap Event.written? = s.modified.map (·.transaction) ∧
      s.skipped = [] ∧ s.cancelled = false := by
  have hsound := hl.sound
  obtain ⟨snapshot, hsnapshot⟩ := hsound.exists_snapshot now user
  -- Nothing is refused at all, so in particular nothing but calls by which changes are written.
  have hrefuses : σ.RefusesOnly (Call.OfApply request.transactions.isSome) :=
    ⟨halone, fun es c h => by simp [hserving es c] at h, fun es c _ => hserving es c⟩
  obtain ⟨s, w, hrun, hcase⟩ :=
    exists_covers_execute hsound hrefuses hrules hsome hsnapshot settings flag
  refine ⟨snapshot, s, w, hsnapshot, hrun, ?_⟩
  intro p listing
  rcases hcase with ⟨evs, hcovers⟩ | ⟨-, hasked⟩
  · -- No call fails, so all of the listing is settled and reported.
    have hids : p.covered l request = listing.map (·.1) := by
      simp only [Pass.covered, hall]
      rfl
    change p.Covers σ (p.covered l request) evs _ _ s w at hcovers
    rw [hids] at hcovers
    have hfailed := not_failed_of_answered (hcovers.trail.answered hserving)
    have hreports : p.reports l (listing.map (·.1)) evs =
        listing.filterMap fun e => p.report e.1 e.2 := by
      simp only [Pass.reports, hfailed, if_false]
      exact Ledger.filterMap_orderedRows p.report
    have hmodified : s.modified = listing.filterMap fun e => p.report e.1 e.2 := by
      rw [hcovers.summary, ← hreports]
      rfl
    refine ⟨?_, fun e => Ledger.mem_orderedRows_iff, l.nodup_ids_orderedRows user .newestFirst, ?_,
      ?_, hmodified, ?_, ?_, ?_, ?_⟩
    · rw [hcovers.ledger]
      apply Ledger.revise_congr
      intro e he
      -- Being listed is being a transaction of the user.
      by_cases huser : e.2.user = user
      · have hmem : e.1 ∈ listing.map (·.1) :=
          List.mem_map_of_mem (Pass.mem_listing_of_user (p := p) he huser)
        simp only [Pass.settleAll, hmem, hfailed, huser, p]
        simp
      · simp only [Pass.settleAll, huser, p]
        simp
    -- There are fewer transactions than words, so that the count does not overflow.
    · have hprocessed : s.processed = UInt64.ofNat (p.count l (listing.map (·.1))) := by
        rw [hcovers.summary]
        exact UInt64.zero_add _
      have hcount : p.count l (listing.map (·.1)) = l.transactionCount user := p.count_listing
      rw [hprocessed, hcount, toNat_ofNat_word (hsound.transactionCount_lt user),
        Ledger.length_orderedRows]
    · rw [hcovers.summary]
      exact toNat_ofNat_word (hsound.length_resolve_lt hrules)
    · rw [hmodified, Pass.map_transaction_filterMap_report]
    · have hevents : w.events = evs := by simpa using hcovers.trail.events
      rw [hevents, hcovers.written, hreports, hmodified]
    · rw [hcovers.summary]
      rfl
    · rw [hcovers.summary]
      rfl
  · exact absurd ⟨hsilent, hflag⟩ hasked

theorem Ledger.snapshot_streaming : streaming.snapshot dawn 1 =
    .ok ⟨[⟨1, 1, "Streams", dawn⟩], [⟨1, 1, "Checking", dawn⟩]⟩ := by
  rw [snapshot, categoriesOf, List.mergeSort_of_pairwise (by decide +kernel)]
  rfl

/-- The small ledger is gone over whole: all three transactions, with the one rule. The third of
    them is settled, it is filed under the category of the rule and so reported, and so is the
    first. -/
theorem execute_settles_all_streaming :
    ∃ s w, Run.execute ⟨Ledger.dawn, .calm⟩ .standard 1 .all
        ⟨Ledger.streaming, some false, []⟩ = .ok s w ∧
      s.processed.toNat = 3 ∧ s.totalRules.toNat = 1 ∧ s.cancelled = false ∧
      (Ledger.streaming.transactions.get? 3).map (·.categories) = some [] ∧
      (w.ledger.transactions.get? 3).map (·.categories) = some [1] ∧
      s.modified = [⟨3, [1], [.category]⟩, ⟨1, [1], [.category]⟩] ∧
      w.events.reverse.filterMap Event.written? = [3, 1] := by
  have hall : Request.all.transactions = none := rfl
  have hrules : Ledger.streaming.resolve Ledger.dawn 1 Request.all.rules =
      .ok [Ledger.streamRule] := Ledger.resolve_streaming
  have hflag : (some false : Option Bool) ≠ some true := by decide
  obtain ⟨snapshot, s, w, hsnapshot, hrun, hledger, -, -, hprocessed, htotal, hmodified, -,
    hwritten, -, hcancelled⟩ :=
      execute_settles_all Ledger.reachable_streaming Schedule.alone_calm Schedule.serving_calm
        Schedule.silent_calm hall hrules (by simp) .standard hflag
  rw [Ledger.snapshot_streaming] at hsnapshot
  cases hsnapshot
  -- The transactions are of one day, so they are listed from the last one on.
  have hreported : s.modified = [⟨3, [1], [.category]⟩, ⟨1, [1], [.category]⟩] := by
    rw [hmodified, Ledger.orderedRows_of_pairwise (by decide +kernel)]
    decide +kernel
  -- The rows are computed; that the run makes them is the theorem.
  refine ⟨s, w, hrun, ?_, htotal, hcancelled, rfl, ?_, hreported, ?_⟩
  · rw [hprocessed, Ledger.length_orderedRows]
    rfl
  · rw [hledger, Ledger.get?_revise]
    decide +kernel
  · rw [hwritten, hreported]
    rfl

end LedgerRules
