import LedgerRules.Proofs.Run.Isolation

/-!
# Runs that nothing disturbs

Where nobody else writes, every call is served and nobody asks the run to stop, a run does to each
transaction that it is asked for what settling its row does. What that is depends on the ledger
alone: all that the clock decides is which rules are in effect.

## Overview

- **Layer A**: runs that nothing disturbs, and the transactions that a request asks for.
- **Layer B**: the clock.
- **Layer C**: what a run that nothing disturbs does.
- **Layer D**: a small ledger in which such a run writes all parts of a transaction.
-/

namespace LedgerRules

/-! ## Layer A: undisturbed runs and requests -/

/-- Nobody else writes to the ledger, every call is served, and the run is not asked to stop,
    neither before it starts nor later. -/
structure Schedule.Undisturbed (σ : Schedule) (flag : Option Bool) : Prop where
  alone : σ.Alone
  serving : σ.Serving
  silent : σ.Silent
  unasked : flag ≠ some true

theorem Schedule.undisturbed_calm : calm.Undisturbed none :=
  ⟨alone_calm, serving_calm, silent_calm, by decide⟩

theorem Schedule.Serving.safe {σ : Schedule} (h : σ.Serving) : σ.Safe :=
  fun es c hcrashed => by simp [h es c] at hcrashed

/-- A schedule that disturbs nothing refuses only calls of whatever kind. -/
theorem Schedule.Undisturbed.refusesOnly {σ : Schedule} {flag : Option Bool}
    (h : σ.Undisturbed flag) (kind : List Event → Call → Prop) : σ.RefusesOnly kind where
  alone := h.alone
  safe := h.serving.safe
  served := fun es c _ => h.serving es c

/-- Whether a request asks for a transaction. -/
def Request.Covers (request : Request) (id : Ident) : Prop :=
  ∀ ids, request.transactions = some ids → id ∈ ids

instance (request : Request) (id : Ident) : Decidable (request.Covers id) :=
  match h : request.transactions with
  | none => .isTrue fun ids hids => by simp [h] at hids
  | some ids => decidable_of_iff (id ∈ ids) (by simp [Request.Covers, h])

namespace Pass

variable {p : Pass} {l : Ledger} {request : Request}

/-- What becomes of a row when nothing disturbs the run: it is settled if the transaction is the
    user's and asked for. -/
def passOver (p : Pass) (request : Request) (id : Ident) (row : TransactionRow) : TransactionRow :=
  if request.Covers id ∧ row.user = p.user then p.settle id row else row

theorem keepsPlace_passOver (p : Pass) (request : Request) :
    Ledger.KeepsPlace (p.passOver request) where
  user := by
    intro id row
    unfold passOver
    split
    · exact p.keepsPlace_settle.user id row
    · rfl
  date := by
    intro id row
    unfold passOver
    split
    · exact p.keepsPlace_settle.date id row
    · rfl

/-- Of the user's transactions, those that are asked for are those that are gone over. -/
theorem mem_covered_iff {id : Ident} {row : TransactionRow}
    (howned : l.ownedTransaction? id p.user = some row) :
    id ∈ p.covered l request ↔ request.Covers id := by
  unfold covered Request.Covers
  cases request.transactions with
  | some ids => simp
  | none =>
    have hmem : id ∈ (p.listing l).map (·.1) :=
      List.mem_map.mpr ⟨(id, row), mem_listing_iff.mpr howned, rfl⟩
    simpa using hmem

/-- Going over transactions does not change which transactions there are to go over. -/
theorem covered_revise {g : Ident → TransactionRow → TransactionRow} (hg : Ledger.KeepsPlace g) :
    p.covered (l.revise g) request = p.covered l request := by
  unfold covered listing
  cases request.transactions with
  | some ids => rfl
  | none =>
    simp only [Ledger.orderedRows_revise hg, List.map_map]
    rfl

theorem count_revise {g : Ident → TransactionRow → TransactionRow} (hg : Ledger.KeepsPlace g)
    (ids : List Ident) : p.count (l.revise g) ids = p.count l ids := by
  refine List.countP_congr fun id _ => ?_
  rw [Ledger.ownedTransaction?_revise hg, Option.isSome_map]

end Pass

/-! ## Layer B: the clock -/

/-- What settling makes of a row is the same at any time. -/
theorem Pass.settle_at {p : Pass} {accounts categories : Table NamedRow} {row : TransactionRow}
    (h : Ledger.SoundTransaction accounts categories row) (now : Instant) (id : Ident) :
    ({ p with now } : Pass).settle id row = p.settle id row := by
  simp only [settle, staged, h.read_eq now p.now id]

theorem Pass.passOver_at {p : Pass} {accounts categories : Table NamedRow} {row : TransactionRow}
    (h : Ledger.SoundTransaction accounts categories row) (now : Instant) (request : Request)
    (id : Ident) : ({ p with now } : Pass).passOver request id row = p.passOver request id row := by
  simp only [passOver, settle_at h now id]

/-! ## Layer C: what an undisturbed run does -/

theorem Pass.settle_of_nil {p : Pass} (h : p.engine.rules = []) (id : Ident)
    (row : TransactionRow) : p.settle id row = row := by
  have hnone : ∀ t, p.engine.evaluate t = none := fun t => by
    simp [Engine.evaluate, h, Changeset.isEmpty, Changeset.empty]
  unfold settle staged
  cases Ledger.readTransaction p.now id row <;> simp [hnone]

/-- The reports on transactions none of which failed. -/
theorem Pass.reports_of_not_failed {p : Pass} {evs : List Event} (h : ∀ id, ¬ Failed evs id)
    (l : Ledger) (ids : List Ident) :
    p.reports l ids evs =
      ids.filterMap fun id => (l.ownedTransaction? id p.user).bind (p.report id) := by
  simp only [reports, h, if_false]

/-- **A run that nothing disturbs** settles the transactions that it is asked for, counts those that
    the user owns, and reports those whose rows change. -/
theorem exists_execute_undisturbed {l : Ledger} (hl : l.Sound) {σ : Schedule} {flag : Option Bool}
    (hσ : σ.Undisturbed flag) {now : Instant} {user : Ident} {request : Request}
    {rules : List CompleteRule} (hrules : l.resolve now user request.rules = .ok rules)
    {snapshot : Snapshot} (hsnapshot : l.snapshot now user = .ok snapshot) (settings : Settings) :
    let p : Pass := ⟨{ snapshot with rules }, now, settings, user⟩
    let ids := p.covered l request
    ∃ s w, Run.execute ⟨now, σ⟩ settings user request ⟨l, flag, []⟩ = .ok s w ∧
      w.ledger = l.revise (p.passOver request) ∧
      s.modified = (ids.filterMap fun id => (l.ownedTransaction? id user).bind (p.report id)) ∧
      s.processed = if rules = [] then 0 else UInt64.ofNat (p.count l ids) := by
  intro p ids
  have hrefuses := hσ.refusesOnly (Call.OfApply request.transactions.isSome)
  by_cases hsome : rules = []
  · -- Without rules the run ends at once, and settling would change nothing.
    obtain ⟨w, hrun, hledger, -⟩ := exists_execute_of_nil hrefuses (hsome ▸ hrules) settings flag
    have hsettle : ∀ id row, p.settle id row = row := p.settle_of_nil hsome
    refine ⟨_, w, hrun, ?_, ?_, by simp [hsome, Summary.empty]⟩
    · rw [hledger]
      exact (Ledger.revise_eq_self fun e _ => by simp [Pass.passOver, hsettle]).symm
    -- Nor is there anything to report.
    · refine (List.filterMap_eq_nil_iff.mpr fun id _ => ?_).symm
      cases l.ownedTransaction? id user with
      | none => rfl
      | some row => exact Pass.report_eq_none_iff.mpr (hsettle id row)
  · obtain ⟨s, w, hrun, ⟨evs, hcovers⟩ | ⟨-, hasked⟩⟩ :=
      -- The run was not asked to stop, so it has gone over everything.
      exists_covers_execute hl hrefuses hrules hsome hsnapshot settings flag
    · have hfailed := not_failed_of_answered (hcovers.trail.answered hσ.serving)
      have hreports := p.reports_of_not_failed hfailed l ids
      refine ⟨s, w, hrun, ?_, ?_, ?_⟩
      · rw [hcovers.ledger]
        apply Ledger.revise_congr
        intro e he
        by_cases huser : e.2.user = user
        · -- Among the user's transactions, to be asked for is to be gone over.
          have howned : l.ownedTransaction? e.1 user = some e.2 :=
            Ledger.ownedTransaction?_eq_some_iff.mpr ⟨Table.get?_eq_some_iff.mpr he, huser⟩
          have hmem : e.1 ∈ p.covered l request ↔ request.Covers e.1 :=
            Pass.mem_covered_iff howned
          simp only [Pass.settleAll, Pass.passOver, hfailed, hmem, huser, p]
          simp
        -- Rows of others are neither settled nor passed over.
        · simp [Pass.settleAll, Pass.passOver, huser, p]
      · rw [hcovers.summary, ← hreports]
        rfl
      · rw [hcovers.summary, if_neg hsome]
        exact UInt64.zero_add _
    · exact absurd ⟨hσ.silent, hσ.unasked⟩ hasked

/-- A run that finds nothing left to change changes nothing and reports nothing. -/
theorem exists_execute_of_settled {l : Ledger} (hl : l.Sound) {σ : Schedule} {flag : Option Bool}
    (hσ : σ.Undisturbed flag) {now : Instant} {user : Ident} {request : Request}
    {rules : List CompleteRule} (hrules : l.resolve now user request.rules = .ok rules)
    {snapshot : Snapshot} (hsnapshot : l.snapshot now user = .ok snapshot) (settings : Settings)
    (hsettled : ∀ e ∈ l.transactions.entries,
      Pass.passOver ⟨{ snapshot with rules }, now, settings, user⟩ request e.1 e.2 = e.2) :
    let p : Pass := ⟨{ snapshot with rules }, now, settings, user⟩
    ∃ s w, Run.execute ⟨now, σ⟩ settings user request ⟨l, flag, []⟩ = .ok s w ∧
      w.ledger = l ∧ s.modified = [] ∧
      s.processed = if rules = [] then 0 else UInt64.ofNat (p.count l (p.covered l request)) := by
  intro p
  obtain ⟨s, w, hrun, hledger, hmodified, hprocessed⟩ :=
    exists_execute_undisturbed hl hσ hrules hsnapshot settings
  refine ⟨s, w, hrun, ?_, ?_, hprocessed⟩
  · rw [hledger]
    exact Ledger.revise_eq_self hsettled
  · rw [hmodified]
    refine List.filterMap_eq_nil_iff.mpr fun id hid => ?_
    cases howned : l.ownedTransaction? id user with
    | none => rfl
    -- A report would be of a row that changes, and none does.
    | some row =>
      obtain ⟨hget, huser⟩ := Ledger.ownedTransaction?_eq_some_iff.mp howned
      have hcovers : request.Covers id := (Pass.mem_covered_iff (p := p) howned).mp hid
      have hrow := hsettled (id, row) (Table.get?_eq_some_iff.mp hget)
      simp only [Pass.passOver, hcovers, huser, true_and, if_true] at hrow
      exact Pass.report_eq_none_iff.mpr hrow

/-! ## Layer D: a small ledger -/

namespace Ledger

/-- A small ledger: one transaction, and a rule that writes all parts of it and still applies to it
    afterwards. -/
def subscriptions : Ledger :=
  empty.afterWrites
    [.createAccount dawn 1 "Checking",
      .createAccount dawn 1 "Savings",
      .createCategory dawn 1 "Streams",
      .createRule dawn 1 "Streams" none dawn .and,
      .addCondition 1 .name .contains "netflix",
      .addAction 1 .name "Netflix",
      .addAction 1 .description "Monthly",
      .addAction 1 .category "1",
      .addAction 1 .transfer "2",
      .insertTransaction dawn 1 ⟨1, "NETFLIX.COM", none, Amount.zero, dawn, []⟩]

theorem reachable_subscriptions : Reachable subscriptions := Reachable.empty.afterWrites _

/-- The rule of the ledger. -/
def subscriptionRule : CompleteRule :=
  ⟨⟨1, 1, "Streams", none, dawn, .and, dawn⟩, [⟨1, 1, .name, .contains, "netflix"⟩],
    [⟨1, 1, .name, "Netflix"⟩, ⟨2, 1, .description, "Monthly"⟩, ⟨3, 1, .category, "1"⟩,
      ⟨4, 1, .transfer, "2"⟩]⟩

end Ledger

end LedgerRules
