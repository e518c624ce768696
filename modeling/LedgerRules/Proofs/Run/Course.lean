import LedgerRules.Proofs.Run.Scan
import LedgerRules.Proofs.Run.SetupFailure

/-!
# The course of a run

Whatever is refused to a run, and whenever it is asked to stop, it comes out in one of two ways.
Either its setup failed and nothing happened; or it has gone over some transactions, each of them
once, and its ledger, its summary and its record tell the same of them.

## Overview

- **Layer A**: what a run has done that has gone over some transactions.
- **Layer B**: the two ways in which a run comes out.
-/

namespace LedgerRules

namespace Pass

variable {p : Pass} {σ : Schedule} {l : Ledger} {named : Bool} {ids rest : List Ident}
  {evs : List Event} {s s₁ : Summary} {w w₁ : World}

/-! ## Layer A: what has been done -/

/-- **What a run has done** that has gone over some transactions: their rows are settled unless a
    call about them failed, the summary reports the rows that changed, and on record there is one
    write for each report. -/
structure Did (p : Pass) (l : Ledger) (ids : List Ident) (evs : List Event) (s : Summary)
    (w : World) : Prop where
  nodup : ids.Nodup
  ledger : w.ledger = l.revise (p.settleAll ids evs)
  modified : s.modified = p.reports l ids evs
  skipped : s.skipped = []
  written : w.events.reverse.filterMap Event.written? = s.modified.map (·.transaction)

/-- The end of a scan changes nothing and writes nothing. -/
theorem Halts.same (h : Halts σ named rest s₁ w₁ s w) :
    w.ledger = w₁.ledger ∧ s.modified = s₁.modified ∧ s.skipped = s₁.skipped ∧
      w.events.reverse.filterMap Event.written? =
        w₁.events.reverse.filterMap Event.written? := by
  cases h with
  | through | asked => exact ⟨rfl, rfl, rfl, rfl⟩
  | refused => exact ⟨rfl, rfl, rfl, by simp [World.after, Event.written?]⟩

theorem Scans.exists_did {all : List Ident} {n : UInt64} {flag : Option Bool}
    (h : p.Scans σ named all { Summary.empty with totalRules := n } ⟨l, flag, []⟩ s w)
    (hall : all.Nodup) : ∃ ids evs, p.Did l ids evs s w := by
  obtain ⟨ids, rest, evs, s₁, w₁, rfl, hcovers, hhalts⟩ := h
  -- What was covered before the scan halted is what has been done.
  obtain ⟨hledger, hmodified, hskipped, hwritten⟩ := hhalts.same
  have hreports : s.modified = p.reports l ids evs := by
    rw [hmodified, hcovers.summary]
    rfl
  refine ⟨ids, evs, (List.nodup_append.mp hall).1, hledger.trans hcovers.ledger, hreports, ?_, ?_⟩
  · rw [hskipped, hcovers.summary]
    rfl
  · rw [hwritten, hcovers.trail.events, List.append_nil, hcovers.written, hreports]

theorem reports_map_transaction_sublist (p : Pass) (l : Ledger) (ids : List Ident)
    (evs : List Event) : ((p.reports l ids evs).map (·.transaction)).Sublist ids := by
  induction ids with
  | nil => exact .slnil
  | cons id ids ih =>
    unfold reports at ih ⊢
    -- The first transaction is reported or not; the reports on the others are a part of the rest.
    rw [List.filterMap_cons]
    split
    · exact ih.cons id
    · rename_i m hm
      -- A report on a transaction names it.
      have hid : m.transaction = id := by
        split at hm
        · cases hm
        · obtain ⟨row, -, hreport⟩ := Option.bind_eq_some_iff.mp hm
          exact transaction_of_report hreport
      rw [List.map_cons, hid]
      exact ih.cons_cons id

namespace Did

variable (h : p.Did l ids evs s w)
include h

theorem nodup_modified : (s.modified.map (·.transaction)).Nodup := by
  rw [h.modified]
  exact (p.reports_map_transaction_sublist l ids evs).nodup h.nodup

/-- A transaction that is reported had a row of the user, and now has what the pass makes of it. -/
theorem exists_row {m : Modified} (hm : m ∈ s.modified) :
    ∃ row, l.ownedTransaction? m.transaction p.user = some row ∧
      p.report m.transaction row = some m ∧
      w.ledger.transactions.get? m.transaction = some (p.settle m.transaction row) := by
  -- The report was made from the row at first, and the ledger has the row settled.
  rw [h.modified] at hm
  obtain ⟨id, hid, hm⟩ := List.mem_filterMap.mp hm
  split at hm
  · cases hm
  · rename_i hfailed
    obtain ⟨row, howned, hreport⟩ := Option.bind_eq_some_iff.mp hm
    obtain rfl : m.transaction = id := transaction_of_report hreport
    obtain ⟨hget, huser⟩ := Ledger.ownedTransaction?_eq_some_iff.mp howned
    refine ⟨row, howned, hreport, ?_⟩
    rw [h.ledger, Ledger.get?_revise, hget]
    simp [settleAll, hid, huser, hfailed]

end Did

end Pass

/-! ## Layer B: the two ways -/

/-- **The course of a run.** In a sound ledger, where the run is alone and nothing crashes, it fails
    in its setup and leaves everything as it is, or it has gone over some transactions with the
    resolved rules and the user's snapshot. -/
theorem execute_fails_or_did {l : Ledger} (hl : l.Sound) {σ : Schedule} (hσ : σ.Alone)
    (hsafe : σ.Safe) (now : Instant) (settings : Settings) (user : Ident) (request : Request)
    (flag : Option Bool) :
    (∃ e w, Run.execute ⟨now, σ⟩ settings user request ⟨l, flag, []⟩ = .error (.failed e) w ∧
      w.ledger = l ∧ ∀ ev ∈ w.events, ev.call.subject? = none) ∨
    ∃ rules snapshot, l.resolve now user request.rules = .ok rules ∧
      l.snapshot now user = .ok snapshot ∧
      ∃ s w ids evs, Run.execute ⟨now, σ⟩ settings user request ⟨l, flag, []⟩ = .ok s w ∧
        Pass.Did ⟨{ snapshot with rules }, now, settings, user⟩ l ids evs s w := by
  obtain ⟨rules, hrules⟩ := hl.exists_resolve now user request.rules
  obtain ⟨snapshot, hsnapshot⟩ := hl.exists_snapshot now user
  rcases Schedule.answersAll_or_failsFirst σ now l [] (l.setupCalls now user request.rules) with
    hsetup | ⟨before, c, e, hfails⟩
  · refine .inr ⟨rules, snapshot, hrules, hsnapshot, ?_⟩
    by_cases hsome : rules = []
    · -- Without rules the run has gone over no transactions.
      subst hsome
      have hresolution := hsetup.of_isPrefix (List.prefix_append _ _)
      obtain ⟨w, hrun, hledger, hevents⟩ :=
        exists_execute_eq_empty hσ hsafe settings flag hresolution hrules
      refine ⟨_, w, [], [], hrun, List.nodup_nil, ?_, rfl, rfl, ?_⟩
      · rw [hledger]
        exact (Ledger.revise_eq_self fun e _ => by simp [Pass.settleAll]).symm
      · refine List.filterMap_eq_nil_iff.mpr fun ev hev => ev.written?_eq_none ?_
        rw [List.mem_reverse, hevents] at hev
        refine (answered_of_mem_answeredAll (fun c hc => ?_) hev).2
        simp [Ledger.area_of_mem_resolutionCalls hc]
    · obtain ⟨s, w, hrun, hscans⟩ :=
        exists_scans_execute hl hσ hsafe hsetup hrules hsome hsnapshot settings flag
      obtain ⟨ids, evs, hdid⟩ := hscans.exists_did (Pass.nodup_covered _ l request)
      exact ⟨s, w, ids, evs, hrun, hdid⟩
  -- The setup has failed, and its calls are about no transaction.
  · obtain ⟨w, hrun, hledger, -, harea⟩ := exists_execute_eq_error hσ hsafe settings flag hfails
    exact .inl ⟨e, w, hrun, hledger, fun ev hev => Call.subject?_eq_none (harea ev hev)⟩

end LedgerRules
