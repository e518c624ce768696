import LedgerRules.Proofs.Run.Course

/-!
# Reports and writes

The summary of a run is drawn up before anything is written: what it says of a transaction is found
by comparing the changeset with the row that was read again. It is nevertheless a report on the
writes. Each entry stands for one write, and lists the parts in which that write changed the row.

## Overview

- **Layer A**: the parts in which two rows differ, with amounts compared as numbers.
- **Layer B**: calls with the ledgers before and after them.
- **Layer C**: reports and writes correspond.
-/

namespace LedgerRules

/-! ## Layer A: what a report lists -/

namespace TransactionRow

/-- Whether two rows have the same link or none, where amounts are compared as numbers. -/
def sameLink : Option TransferLink → Option TransferLink → Bool
  | some old, some new => old.same new
  | none, none => true
  | some _, none | none, some _ => false

/-- Whether a part of a transaction has changed from one row to another. -/
def altered (before after : TransactionRow) : Part → Bool
  | .name => after.name != before.name
  | .description => after.description != before.description
  | .category => after.categories != before.categories
  | .transfer => !sameLink before.transfer after.transfer

variable {before after : TransactionRow} {accounts categories : Table NamedRow}

/-- In rows that a ledger can hold, links are the same number for number only if they are equal. -/
theorem altered_eq_differs (hbefore : Ledger.SoundTransaction accounts categories before)
    (hafter : Ledger.SoundTransaction accounts categories after) (part : Part) :
    before.altered after part = before.differs after part := by
  cases part with
  | name | description | category => rfl
  | transfer =>
    simp only [altered, differs]
    cases hold : before.transfer with
    | none => cases after.transfer <;> rfl
    | some old =>
      cases hnew : after.transfer with
      | none => rfl
      | some new =>
        -- Links are kept in one form, and in that form number for number means equal.
        have hkept : new.kept? = some new := by
          simp [TransferLink.kept?, (hafter.linked new hnew).kept]
        have hsame := TransferLink.same_iff_kept? (hbefore.linked old hold).kept hkept
        by_cases heq : old = new
        · subst heq
          simp [sameLink, hsame.mpr rfl]
        · have hdiffers : old.same new = false := by simpa using mt hsame.mp heq
          simp [sameLink, hdiffers, Ne.symm heq]

end TransactionRow

/-- **A report** is made where a row changes. It names the rules of the changeset and the parts in
    which the row changes. -/
theorem Pass.report_eq_some_iff {p : Pass} {id : Ident} {row : TransactionRow} {m : Modified} :
    p.report id row = some m ↔
      ∃ t cs, Ledger.readTransaction p.now id row = .ok t ∧ p.engine.evaluate t = some cs ∧
        p.settle id row ≠ row ∧ m = ⟨id, cs.rules, row.differences (p.settle id row)⟩ := by
  unfold report settle staged
  cases hread : Ledger.readTransaction p.now id row with
  -- A row that cannot be read is not changed, nor is one for which nothing is staged.
  | error e => simp
  | ok t =>
    cases hcs : p.engine.evaluate t with
    | none => simp [hcs]
    | some cs =>
      by_cases hsame : row.revised p.settings cs = row
      · simp [hcs, hsame]
      · simp [hcs, hsame, eq_comm]

theorem Pass.differences_settle_ne_nil {p : Pass} {id : Ident} {row : TransactionRow}
    (h : p.settle id row ≠ row) : row.differences (p.settle id row) ≠ [] := by
  unfold settle at h ⊢
  cases hstaged : p.staged id row with
  | none =>
    rw [hstaged] at h
    exact absurd rfl h
  | some cs =>
    rw [hstaged] at h
    exact mt (TransactionRow.differences_revised_eq_nil_iff _ _ _).mp h

/-! ## Layer B: calls and the ledgers around them -/

/-- A call on record, with the ledger that it found and the ledger that it left. -/
def World.Made (now : Instant) (l : Ledger) (w : World) (ev : Event) (before after : Ledger) :
    Prop :=
  ∃ later earlier, w.events = later ++ ev :: earlier ∧ l.History now earlier before ∧
    before.History now [ev] after ∧ after.History now later w.ledger

namespace World

variable {now : Instant} {l before after : Ledger} {w : World} {ev : Event} {id user : Ident}

/-- Every call on record was made at some moment. -/
theorem exists_made (h : l.History now w.events w.ledger) (hev : ev ∈ w.events) :
    ∃ before after, w.Made now l ev before after := by
  obtain ⟨later, earlier, hevents⟩ := List.append_of_mem hev
  rw [hevents] at h
  obtain ⟨after, hearlier, hlater⟩ := h.split
  rw [← List.singleton_append] at hearlier
  obtain ⟨before, hbefore, hcall⟩ := hearlier.split
  exact ⟨before, after, later, earlier, hevents, hbefore, hcall, hlater⟩

/-- Only changes that are applied make a difference. -/
theorem Made.eq_applyChanges (h : w.Made now l ev before after) (hne : after ≠ before) :
    ∃ id user changes, ev = ⟨.applyChanges id user changes, true⟩ := by
  obtain ⟨-, -, -, -, hcall, -⟩ := h
  cases hcall with
  -- Of the calls that are answered only this one changes the ledger.
  | answered hnil hserve =>
    cases hnil
    obtain ⟨id, user, changes, rfl⟩ := Call.eq_applyChanges_of_serve hserve hne
    exact ⟨id, user, changes, rfl⟩
  -- A call that is refused leaves it as it was.
  | failed hnil =>
    cases hnil
    exact absurd rfl hne

/-- The only write to a transaction finds the first row and leaves the last one. -/
theorem Made.rows (h : w.Made now l ev before after) (hid : ev.written? = some id)
    (honce : (w.events.filterMap Event.written?).Nodup) :
    before.transactions.get? id = l.transactions.get? id ∧
      after.transactions.get? id = w.ledger.transactions.get? id := by
  obtain ⟨later, earlier, hevents, hbefore, -, hafter⟩ := h
  -- What is written before the call and after it are other transactions.
  rw [hevents, List.filterMap_append, List.filterMap_cons_some hid] at honce
  obtain ⟨-, hrest, hdisjoint⟩ := List.nodup_append.mp honce
  constructor
  · exact hbefore.get?_eq (List.nodup_cons.mp hrest).1
  · exact (hafter.get?_eq fun hmem => hdisjoint id hmem id List.mem_cons_self rfl).symm

end World

/-- Only an answered application of changes writes to a transaction. -/
theorem Event.eq_of_written? {ev : Event} {id : Ident} (h : ev.written? = some id) :
    ∃ user changes, ev = ⟨.applyChanges id user changes, true⟩ := by
  obtain ⟨c, answered⟩ := ev
  cases c
  case applyChanges id user changes =>
    cases answered <;> cases h
    exact ⟨user, changes, rfl⟩
  all_goals cases h

/-! ## Layer C: reports and writes -/

namespace Pass

variable {p : Pass} {l : Ledger} {ids : List Ident} {evs : List Event} {s : Summary} {w : World}
  {m : Modified}

/-- No transaction is written twice, for none is reported twice. -/
theorem Did.nodup_written (h : p.Did l ids evs s w) :
    (w.events.filterMap Event.written?).Nodup := by
  have hnodup := h.nodup_modified
  rw [← h.written, List.filterMap_reverse] at hnodup
  exact (List.reverse_perm _).nodup_iff.mp hnodup

/-- **An entry stands for a write**, which finds the row that the transaction had at first and
    leaves the row that it has in the end. -/
theorem Did.exists_write (h : p.Did l ids evs s w) (hrecorded : w.Recorded p.now p.user l)
    (hm : m ∈ s.modified) :
    ∃ changes before after row,
      w.Made p.now l ⟨.applyChanges m.transaction p.user changes, true⟩ before after ∧
      l.transactions.get? m.transaction = some row ∧
      before.transactions.get? m.transaction = some row ∧
      after.transactions.get? m.transaction = some (p.settle m.transaction row) ∧
      p.report m.transaction row = some m := by
  -- The report gives the row at first and in the end; the record of calls gives the write.
  obtain ⟨hhistory, hby⟩ := hrecorded
  obtain ⟨row, howned, hreport, hfinal⟩ := h.exists_row hm
  obtain ⟨hget, -⟩ := Ledger.ownedTransaction?_eq_some_iff.mp howned
  obtain ⟨ev, hev, hid⟩ : ∃ ev ∈ w.events, ev.written? = some m.transaction := by
    have hwritten := List.mem_map_of_mem hm (f := (·.transaction))
    rw [← h.written, List.filterMap_reverse, List.mem_reverse] at hwritten
    exact List.mem_filterMap.mp hwritten
  obtain ⟨before, after, hmade⟩ := World.exists_made hhistory hev
  -- There is no other write to the transaction, before it or after it.
  obtain ⟨hbefore, hafter⟩ := hmade.rows hid h.nodup_written
  obtain ⟨owner, changes, rfl⟩ := ev.eq_of_written? hid
  obtain rfl : owner = p.user := hby _ hev
  exact ⟨changes, before, after, row, hmade, hget, hbefore.trans hget, hafter.trans hfinal, hreport⟩

/-- The parts of a report are those in which the row is altered, and there is one at least. -/
theorem Ready.parts_of_report (h : p.Ready l) {id : Ident} {row : TransactionRow}
    (hrow : Ledger.SoundTransaction l.accounts l.categories row)
    (hreport : p.report id row = some m) :
    m.parts = [.name, .description, .category, .transfer].filter
        (row.altered (p.settle id row)) ∧
      m.parts ≠ [] ∧
      ∃ t cs, Ledger.readTransaction p.now id row = .ok t ∧ p.engine.evaluate t = some cs ∧
        m.rules = cs.rules := by
  obtain ⟨t, cs, hread, hcs, hchanged, rfl⟩ := report_eq_some_iff.mp hreport
  refine ⟨?_, differences_settle_ne_nil hchanged, t, cs, hread, hcs, rfl⟩
  exact List.filter_congr fun part _ =>
    (TransactionRow.altered_eq_differs hrow (h.settle hrow) part).symm

end Pass

/-- **The summary reports exactly what was written.** From a reachable ledger, for any request, let
    a run be alone with the ledger, let any calls be refused to it, and let it be asked to stop at
    any moment. The only calls of its that make a difference to the ledger apply changes. A run that
    ends with an error has applied none. The summary of any other run has one entry for each
    application of changes, in the same order, and no two for one transaction. An entry names the
    rules of the changeset that the rules stage for the row as it was, and lists in their order just
    the parts in which the row changed, of which there is one at least. A transaction without an
    entry has the row that it had. -/
theorem summary_reports_what_was_written {l : Ledger} (hl : l.Reachable) {σ : Schedule}
    (hσ : σ.Alone) (hsafe : σ.Safe) (now : Instant) (settings : Settings) (user : Ident)
    (request : Request) (flag : Option Bool) :
    let result := Run.execute ⟨now, σ⟩ settings user request ⟨l, flag, []⟩
    let w := Run.worldOf result
    (∀ ev ∈ w.events, ∃ before after, w.Made now l ev before after) ∧
    (∀ ev before after, w.Made now l ev before after → after ≠ before →
      ∃ id changes, ev = ⟨.applyChanges id user changes, true⟩) ∧
    match result with
    | .error _ _ => w.ledger = l ∧ w.events.filterMap Event.written? = []
    | .ok s _ =>
      w.events.reverse.filterMap Event.written? = s.modified.map (·.transaction) ∧
      (s.modified.map (·.transaction)).Nodup ∧
      s.skipped = [] ∧
      (∀ m ∈ s.modified, ∃ changes before after row row',
        w.Made now l ⟨.applyChanges m.transaction user changes, true⟩ before after ∧
        before.transactions.get? m.transaction = some row ∧
        after.transactions.get? m.transaction = some row' ∧
        m.parts = [.name, .description, .category, .transfer].filter (row.altered row') ∧
        m.parts ≠ [] ∧
        ∃ rules snapshot t cs, l.resolve now user request.rules = .ok rules ∧
          l.snapshot now user = .ok snapshot ∧
          Ledger.readTransaction now m.transaction row = .ok t ∧
          ({ snapshot with rules } : Engine).evaluate t = some cs ∧ m.rules = cs.rules) ∧
      ∀ id, id ∉ s.modified.map (·.transaction) →
        w.ledger.transactions.get? id = l.transactions.get? id := by
  intro result w
  obtain ⟨hhistory, hby⟩ : w.Recorded now user l :=
    Run.recorded_execute hσ now settings user request l flag
  have hsound := hl.sound
  refine ⟨fun ev hev => World.exists_made hhistory hev, ?_, ?_⟩
  -- The call changed the ledger, so it applied changes, and it was made for this user.
  · intro ev before after hmade hne
    obtain ⟨id, owner, changes, rfl⟩ := hmade.eq_applyChanges hne
    obtain ⟨later, earlier, hevents, -⟩ := hmade
    have hmem : ⟨.applyChanges id owner changes, true⟩ ∈ w.events := by
      rw [hevents]
      exact List.mem_append_right _ List.mem_cons_self
    obtain rfl : owner = user := hby _ hmem
    exact ⟨id, changes, rfl⟩
  rcases execute_fails_or_did hsound hσ hsafe now settings user request flag with
    ⟨e, w', hrun, hledger, hsubject⟩ |
      ⟨rules, snapshot, hrules, hsnapshot, s, w', ids, evs, hrun, hdid⟩
  -- The setup has failed, and none of its calls is about a transaction.
  · have hworld : w = w' := congrArg Run.worldOf hrun
    rw [show result = .error (.failed e) w' from hrun, hworld]
    refine ⟨hledger, List.filterMap_eq_nil_iff.mpr fun ev hev => ?_⟩
    exact ev.written?_eq_none (hsubject ev hev)
  -- The run has gone over its transactions, each of which it left or settled.
  · have hworld : w = w' := congrArg Run.worldOf hrun
    rw [show result = .ok s w' from hrun]
    rw [hworld] at hhistory hby ⊢
    refine ⟨hdid.written, hdid.nodup_modified, hdid.skipped, fun m hm => ?_, fun id hid => ?_⟩
    · obtain ⟨changes, before, after, row, hmade, hget, hbefore, hafter, hreport⟩ :=
        hdid.exists_write ⟨hhistory, hby⟩ hm
      have hready : Pass.Ready ⟨{ snapshot with rules }, now, settings, user⟩ l :=
        Pass.ready_of_snapshot hsound hsnapshot fun _ => rfl
      obtain ⟨hparts, hne, t, cs, hread, hcs, hm'⟩ :=
        hready.parts_of_report (hsound.transactions.of_get? hget) hreport
      exact ⟨changes, before, after, row, _, hmade, hbefore, hafter, hparts, hne, rules, snapshot,
        t, cs, hrules, hsnapshot, hread, hcs, hm'⟩
    -- What is not reported is not written, so no call on record has touched it.
    · refine hhistory.get?_eq fun hmem => hid ?_
      rw [← hdid.written, List.filterMap_reverse]
      exact List.mem_reverse.mpr hmem

/-- Where the write to the first of three named transactions is refused, only the third one is
    reported, and the others keep their rows. -/
theorem summary_reports_what_was_written_streaming :
    let request : Request := ⟨none, some [1, 2, 3], none⟩
    let σ : Schedule := .refusing fun _ c =>
      match c with
      | .applyChanges id _ _ => id == 1
      | _ => false
    ∃ s w, Run.execute ⟨Ledger.dawn, σ⟩ .standard 1 request ⟨Ledger.streaming, none, []⟩ =
        .ok s w ∧
      s.modified = [⟨3, [1], [.category]⟩] ∧
      ∀ id, id ≠ 3 →
        w.ledger.transactions.get? id = Ledger.streaming.transactions.get? id := by
  intro request σ
  have hσ : σ.RefusesOnly (Call.OfApply request.transactions.isSome) := by
    apply Schedule.refusesOnly_refusing
    intro es c hc
    cases c with
    | applyChanges => exact trivial
    | _ => cases hc
  have h := summary_reports_what_was_written Ledger.reachable_streaming hσ.alone hσ.safe Ledger.dawn
    .standard 1 request none
  have hlisted : (backgroundSummary (Run.execute ⟨Ledger.dawn, σ⟩ .standard 1 request
      ⟨Ledger.streaming, none, []⟩)).map (·.modified) = some [⟨3, [1], [.category]⟩] := by
    decide +kernel
  cases hrun : Run.execute ⟨Ledger.dawn, σ⟩ .standard 1 request ⟨Ledger.streaming, none, []⟩ with
  | error stop w =>
    rw [hrun] at hlisted
    cases hlisted
  | ok s w =>
    rw [hrun] at h hlisted
    have hmodified : s.modified = [⟨3, [1], [.category]⟩] := Option.some.inj hlisted
    obtain ⟨-, -, -, -, -, -, hothers⟩ := h
    refine ⟨s, w, rfl, hmodified, fun id hid => hothers id ?_⟩
    simpa [hmodified] using hid

end LedgerRules
