import LedgerRules.Proofs.Run.FullRun

/-!
# Isolation of failures

A run in which calls fail while changesets are written is compared with the run from the same
ledger in which no call fails. The transactions about which a call failed keep their rows and drop
out of the summary; everything else is the same in both.

## Overview

- **Layer A**: a run without rules.
- **Layer B**: two ways to have gone over the same transactions.
- **Layer C**: the comparison of whole runs.
-/

namespace LedgerRules

/-! ## Layer A: without rules -/

theorem exists_execute_of_nil {l : Ledger} {σ : Schedule} {request : Request}
    (hσ : σ.RefusesOnly (Call.OfApply request.transactions.isSome)) {now : Instant} {user : Ident}
    (hrules : l.resolve now user request.rules = .ok []) (settings : Settings)
    (flag : Option Bool) :
    ∃ w, Run.execute ⟨now, σ⟩ settings user request ⟨l, flag, []⟩ = .ok Summary.empty w ∧
      w.ledger = l ∧ ∀ id, ¬ Failed w.events id := by
  obtain ⟨evs, w, hrun, hledger, htrail⟩ :=
    Run.finds_workingSet hσ.alone hσ.safe hσ.served_of_subject? hrules ⟨l, flag, []⟩ rfl
  refine ⟨w, ?_, hledger, ?_⟩
  · unfold Run.execute
    rw [Run.bind_of_ok hrun]
    rfl
  · apply not_failed_of_answered
    intro ev hev
    rw [htrail.events] at hev
    exact (htrail.all ev (by simpa using hev)).1

/-! ## Layer B: with failures and without -/

namespace Pass

variable {p : Pass} {l : Ledger} {ids : List Ident} {evs calm : List Event}

/-- With failures the reports are those without failures, less the transactions that failed. -/
theorem reports_eq_filter (hcalm : ∀ id, ¬ Failed calm id) :
    p.reports l ids evs =
      (p.reports l ids calm).filter fun m => ¬ Failed evs m.transaction := by
  simp only [reports, hcalm, if_false, List.filter_filterMap]
  apply List.filterMap_congr
  intro id _
  -- A transaction without a report in the calm run has none with failures either.
  cases hreport : (l.ownedTransaction? id p.user).bind (p.report id) with
  | none => simp
  | some m =>
    obtain ⟨row, -, hrow⟩ := Option.bind_eq_some_iff.mp hreport
    have hid := transaction_of_report hrow
    by_cases hfailed : Failed evs id <;> simp [Option.filter, hid, hfailed]

/-- With failures a row is settled as without failures, unless its transaction failed. -/
theorem settleAll_eq_ite (hcalm : ∀ id, ¬ Failed calm id) (id : Ident) (row : TransactionRow) :
    p.settleAll ids evs id row =
      if Failed evs id then row else p.settleAll ids calm id row := by
  by_cases hfailed : Failed evs id <;> simp [settleAll, hfailed, hcalm id]

end Pass

/-! ## Layer C: whole runs -/

/-- **Failures are isolated.** From a reachable ledger, for any request, let a run be alone with the
    ledger and let no call be refused to it but calls by which changesets are written. The run ends
    with a summary, and is not stopped unless it is asked to. If it was not stopped, then beside the
    run in which nothing happens: it has gone over as many transactions, its summary reports the
    same changes without those of the transactions about which a call failed, these transactions
    have the rows that they had at first, and everything else in the ledger is the same. -/
theorem failures_isolated {l : Ledger} (hl : l.Reachable) {σ : Schedule} {request : Request}
    (hσ : σ.RefusesOnly (Call.OfApply request.transactions.isSome)) (now : Instant) (user : Ident)
    (settings : Settings) (flag : Option Bool) :
    ∃ s w, Run.execute ⟨now, σ⟩ settings user request ⟨l, flag, []⟩ = .ok s w ∧
      (σ.Silent → flag ≠ some true → s.cancelled = false) ∧
      (s.cancelled = false →
        ∃ s₀ w₀, Run.execute ⟨now, .calm⟩ settings user request ⟨l, none, []⟩ = .ok s₀ w₀ ∧
          s = { s₀ with
            modified := s₀.modified.filter fun m => ¬ Failed w.events m.transaction } ∧
          w.ledger = { w₀.ledger with transactions := w.ledger.transactions } ∧
          ∀ id, w.ledger.transactions.get? id =
            if Failed w.events id then l.transactions.get? id
            else w₀.ledger.transactions.get? id) := by
  have hsound := hl.sound
  have hcalm := Schedule.refusesOnly_calm (Call.OfApply request.transactions.isSome)
  obtain ⟨rules, hrules⟩ := hsound.exists_resolve now user request.rules
  obtain ⟨snapshot, hsnapshot⟩ := hsound.exists_snapshot now user
  by_cases hsome : rules = []
  · -- Without rules both runs end before anything could fail.
    subst hsome
    obtain ⟨w, hrun, hledger, hfailed⟩ := exists_execute_of_nil hσ hrules settings flag
    obtain ⟨w₀, hrun₀, hledger₀, -⟩ := exists_execute_of_nil hcalm hrules settings none
    refine ⟨_, w, hrun, fun _ _ => rfl, fun _ => ⟨_, w₀, hrun₀, rfl, ?_, ?_⟩⟩
    · rw [hledger, hledger₀]
    · intro id
      rw [if_neg (hfailed id), hledger, hledger₀]
  · obtain ⟨s, w, hrun, hcase⟩ :=
      exists_covers_execute hsound hσ hrules hsome hsnapshot settings flag
    obtain ⟨s₀, w₀, hrun₀, hcase₀⟩ :=
      exists_covers_execute hsound hcalm hrules hsome hsnapshot settings none
    -- Both runs have gone over the same transactions; only the calls that failed differ.
    refine ⟨s, w, hrun, ?_, fun hstopped => ⟨s₀, w₀, hrun₀, ?_⟩⟩
    · intro hsilent hflag
      rcases hcase with ⟨evs, hcovers⟩ | ⟨-, hasked⟩
      · rw [hcovers.summary]
        rfl
      · exact absurd ⟨hsilent, hflag⟩ hasked
    have hcovers := hcase.resolve_right fun h => by simp [hstopped] at h
    have hcovers₀ := hcase₀.resolve_right fun h => h.2 ⟨Schedule.silent_calm, by simp⟩
    obtain ⟨evs, hcovers⟩ := hcovers
    obtain ⟨evs₀, hcovers₀⟩ := hcovers₀
    have hfailed₀ := not_failed_of_answered (hcovers₀.trail.answered Schedule.serving_calm)
    have hevents : w.events = evs := by simpa using hcovers.trail.events
    -- Summary, other tables and rows of the two runs, each read off what both have covered.
    refine ⟨?_, ?_, ?_⟩
    · rw [hcovers.summary, hcovers₀.summary, Pass.reports_eq_filter hfailed₀, hevents]
      rfl
    · rw [hcovers.ledger, hcovers₀.ledger]
      rfl
    · intro id
      rw [hcovers.ledger, hcovers₀.ledger, hevents, Ledger.get?_revise, Ledger.get?_revise]
      cases l.transactions.get? id with
      | none => simp
      | some row =>
        -- A row that failed is the one from before; any other was settled as in the calm run.
        rw [Option.map_some, Option.map_some, Pass.settleAll_eq_ite hfailed₀]
        split <;> rfl

/-- Where the write to the first of three named transactions is refused, the others are gone over
    as ever. -/
theorem failures_isolated_streaming :
    let request : Request := ⟨none, some [1, 2, 3], none⟩
    let σ : Schedule := .refusing fun _ c =>
      match c with
      | .applyChanges id _ _ => id == 1
      | _ => false
    ∃ s w s₀ w₀, Run.execute ⟨Ledger.dawn, σ⟩ .standard 1 request ⟨Ledger.streaming, none, []⟩ =
        .ok s w ∧
      Run.execute ⟨Ledger.dawn, .calm⟩ .standard 1 request ⟨Ledger.streaming, none, []⟩ =
        .ok s₀ w₀ ∧
      s.modified = (s₀.modified.filter fun m => ¬ Failed w.events m.transaction) ∧
      s₀.modified.map (·.transaction) = [1, 3] ∧ s.modified.map (·.transaction) = [3] := by
  intro request σ
  have hσ : σ.RefusesOnly (Call.OfApply request.transactions.isSome) := by
    apply Schedule.refusesOnly_refusing
    intro es c hc
    cases c with
    | applyChanges id user changes => exact trivial
    | _ => cases hc
  obtain ⟨s, w, hrun, hcancelled, hbeside⟩ :=
    failures_isolated Ledger.reachable_streaming hσ Ledger.dawn 1 .standard none
  obtain ⟨s₀, w₀, hrun₀, hs, -⟩ := hbeside (hcancelled (fun _ _ => rfl) (by decide))
  -- What the two runs report is computed; that one is part of the other is the theorem.
  have hlisted₀ : (backgroundSummary (Run.execute ⟨Ledger.dawn, .calm⟩ .standard 1 request
      ⟨Ledger.streaming, none, []⟩)).map (fun s => s.modified.map (·.transaction)) =
        some [1, 3] := by
    decide +kernel
  have hlisted : (backgroundSummary (Run.execute ⟨Ledger.dawn, σ⟩ .standard 1 request
      ⟨Ledger.streaming, none, []⟩)).map (fun s => s.modified.map (·.transaction)) =
        some [3] := by
    decide +kernel
  rw [hrun₀] at hlisted₀
  rw [hrun] at hlisted
  refine ⟨s, w, s₀, w₀, hrun, hrun₀, ?_, Option.some.inj hlisted₀, Option.some.inj hlisted⟩
  rw [hs]

end LedgerRules
