import LedgerRules.Proofs.Run.Settle

/-!
# Covering transactions

A run goes over transactions one by one, and what it does to one of them does not depend on what it
did to the others. `Pass.Covers` says what has happened when a list of transactions has been gone
over: in the ledger, in the summary and in the calls that were made. A call that fails takes its
transaction out of all three, and no other.

## Overview

- **Layer A**: what covering a list of transactions means.
- **Layer B**: covering one list after another covers both.
- **Layer C**: one transaction, and all transactions of a list that was read.
-/

namespace LedgerRules

/-! ## Layer A: covering a list -/

/-- A call about a transaction failed. -/
def Failed (evs : List Event) (id : Ident) : Prop :=
  ∃ ev ∈ evs, ev.answered = false ∧ ev.call.subject? = some id

instance (evs : List Event) (id : Ident) : Decidable (Failed evs id) :=
  inferInstanceAs (Decidable (∃ ev ∈ evs, ev.answered = false ∧ ev.call.subject? = some id))

/-- A call failed in two runs of calls if it failed in one of them. -/
theorem failed_append_iff {evs evs' : List Event} {id : Ident} :
    Failed (evs' ++ evs) id ↔ Failed evs' id ∨ Failed evs id := by
  simp [Failed, or_and_right, exists_or]

theorem not_failed_of_answered {evs : List Event} (h : ∀ ev ∈ evs, ev.answered = true)
    (id : Ident) : ¬ Failed evs id := by
  rintro ⟨ev, hev, hfailed, -⟩
  rw [h ev hev] at hfailed
  cases hfailed

/-- A summary that counts more transactions and lists more changes. -/
def Summary.extend (s : Summary) (processed : Nat) (modified : List Modified) : Summary :=
  { s with
    processed := s.processed + UInt64.ofNat processed
    modified := s.modified ++ modified }

theorem Summary.extend_extend (s : Summary) (n m : Nat) (xs ys : List Modified) :
    (s.extend n xs).extend m ys = s.extend (n + m) (xs ++ ys) := by
  simp [extend, UInt64.ofNat_add, UInt64.add_assoc]

@[simp] theorem Summary.extend_zero (s : Summary) : s.extend 0 [] = s := by
  simp [extend]

namespace Pass

/-- What becomes of a row when transactions have been gone over: it is settled if it belongs to one
    of them and no call about it failed. -/
def settleAll (p : Pass) (ids : List Ident) (evs : List Event) (id : Ident) (row : TransactionRow) :
    TransactionRow :=
  if id ∈ ids ∧ row.user = p.user ∧ ¬ Failed evs id then p.settle id row else row

/-- What a summary says of transactions that have been gone over. -/
def reports (p : Pass) (l : Ledger) (ids : List Ident) (evs : List Event) : List Modified :=
  ids.filterMap fun id =>
    if Failed evs id then none else (l.ownedTransaction? id p.user).bind (p.report id)

/-- The number of transactions in a list that the user owns. -/
def count (p : Pass) (l : Ledger) (ids : List Ident) : Nat :=
  ids.countP fun id => (l.ownedTransaction? id p.user).isSome

/-- **What has happened when a list of transactions has been gone over**: the calls that were made
    are about these transactions or about none, those of them that can be settled are, and the
    summary counts and reports them in the order of the list, each change with the one call that
    wrote it. -/
structure Covers (p : Pass) (σ : Schedule) (ids : List Ident) (evs : List Event) (s : Summary)
    (w : World) (s' : Summary) (w' : World) : Prop where
  trail : w.Trail σ (fun ev => ∀ id, ev.call.subject? = some id → id ∈ ids) evs w'
  ledger : w'.ledger = w.ledger.revise (p.settleAll ids evs)
  summary : s' = s.extend (p.count w.ledger ids) (p.reports w.ledger ids evs)
  written : evs.reverse.filterMap Event.written? =
    (p.reports w.ledger ids evs).map (·.transaction)

variable {p : Pass} {σ : Schedule} {ids ids₁ ids₂ : List Ident} {evs evs₁ evs₂ : List Event}
  {s s₁ s₂ : Summary} {w w₁ w₂ : World}

theorem keepsPlace_settleAll (p : Pass) (ids : List Ident) (evs : List Event) :
    Ledger.KeepsPlace (p.settleAll ids evs) where
  user := by
    intro i row
    unfold settleAll
    split
    · exact p.keepsPlace_settle.user i row
    · rfl
  date := by
    intro i row
    unfold settleAll
    split
    · exact p.keepsPlace_settle.date i row
    · rfl

/-! ## Layer B: one list after another -/

namespace Covers

theorem mem_of_failed (h : p.Covers σ ids evs s w s₁ w₁) {id : Ident} (hfailed : Failed evs id) :
    id ∈ ids := by
  obtain ⟨ev, hev, -, hsubject⟩ := hfailed
  exact h.trail.all ev hev id hsubject

/-- What is covered leaves the ledger ready for more. -/
theorem ready (h : p.Covers σ ids evs s w s₁ w₁) (hready : p.Ready w.ledger) :
    p.Ready w₁.ledger := by
  rw [h.ledger]
  apply hready.revise
  intro e he
  unfold settleAll
  split
  · exact .inl rfl
  · exact .inr rfl

theorem ownedTransaction?_eq (h : p.Covers σ ids evs s w s₁ w₁) {id : Ident} (hid : id ∉ ids)
    (user : Ident) : w₁.ledger.ownedTransaction? id user = w.ledger.ownedTransaction? id user := by
  rw [h.ledger, Ledger.ownedTransaction?_revise (p.keepsPlace_settleAll ids evs)]
  cases w.ledger.ownedTransaction? id user with
  | none => rfl
  | some row => simp [settleAll, hid]

theorem nil : p.Covers σ [] [] s w s w where
  trail := .refl
  ledger := (Ledger.revise_eq_self fun e _ => by simp [settleAll]).symm
  summary := by simp [count, reports]
  written := rfl

/-- **One list after another.** What happens to the second list does not depend on what happened to
    the first. -/
theorem append (h₁ : p.Covers σ ids₁ evs₁ s w s₁ w₁) (h₂ : p.Covers σ ids₂ evs₂ s₁ w₁ s₂ w₂)
    (hdisjoint : ∀ id ∈ ids₁, id ∉ ids₂) :
    p.Covers σ (ids₁ ++ ids₂) (evs₂ ++ evs₁) s w s₂ w₂ := by
  have hfailed₁ : ∀ id ∈ ids₁, (Failed (evs₂ ++ evs₁) id ↔ Failed evs₁ id) := by
    intro id hid
    rw [failed_append_iff]
    exact or_iff_right fun h => hdisjoint id hid (h₂.mem_of_failed h)
  have hfailed₂ : ∀ id ∈ ids₂, (Failed (evs₂ ++ evs₁) id ↔ Failed evs₂ id) := by
    intro id hid
    rw [failed_append_iff]
    exact or_iff_left fun h => hdisjoint id (h₁.mem_of_failed h) hid
  -- The second list finds its rows as they were before the first.
  have howned : ∀ id ∈ ids₂, w₁.ledger.ownedTransaction? id p.user =
      w.ledger.ownedTransaction? id p.user := fun id hid =>
    h₁.ownedTransaction?_eq (fun hmem => hdisjoint id hmem hid) p.user
  have hcount : p.count w₁.ledger ids₂ = p.count w.ledger ids₂ :=
    List.countP_congr fun id hid => by rw [howned id hid]
  have hreports₂ : p.reports w₁.ledger ids₂ evs₂ = p.reports w.ledger ids₂ (evs₂ ++ evs₁) := by
    apply List.filterMap_congr
    intro id hid
    simp only [howned id hid, hfailed₂ id hid]
  have hreports₁ : p.reports w.ledger ids₁ evs₁ = p.reports w.ledger ids₁ (evs₂ ++ evs₁) := by
    apply List.filterMap_congr
    intro id hid
    simp only [hfailed₁ id hid]
  have hreports : p.reports w.ledger (ids₁ ++ ids₂) (evs₂ ++ evs₁) =
      p.reports w.ledger ids₁ evs₁ ++ p.reports w₁.ledger ids₂ evs₂ := by
    rw [hreports₁, hreports₂]
    exact List.filterMap_append
  refine ⟨?_, ?_, ?_, ?_⟩
  -- The four parts of covering: the calls, the ledger, the summary and the writes.
  · refine (h₁.trail.imp ?_).trans (h₂.trail.imp ?_)
    · exact fun ev _ h id hid => List.mem_append_left _ (h id hid)
    · exact fun ev _ h id hid => List.mem_append_right _ (h id hid)
  · rw [h₂.ledger, h₁.ledger, Ledger.revise_revise]
    apply Ledger.revise_congr
    intro e he
    -- Of the two passes over a row at most one has changed it.
    by_cases hid₁ : e.1 ∈ ids₁
    · have hid₂ := hdisjoint e.1 hid₁
      simp [settleAll, hid₁, hid₂, hfailed₁ e.1 hid₁]
    · by_cases hid₂ : e.1 ∈ ids₂
      · simp [settleAll, hid₁, hid₂, hfailed₂ e.1 hid₂]
      · simp [settleAll, hid₁, hid₂]
  · rw [h₂.summary, h₁.summary, Summary.extend_extend, hreports, hcount]
    simp [count]
  · rw [List.reverse_append, List.filterMap_append, h₁.written, h₂.written, hreports,
      List.map_append]

/-- Calls that were answered and wrote nothing may come first. -/
theorem prepend (h : p.Covers σ ids evs s w₁ s₁ w₂) {earlier : List Event}
    (htrail : w.Trail σ (fun ev => ∀ id, ev.call.subject? = some id → id ∈ ids) earlier w₁)
    (hledger : w₁.ledger = w.ledger) (hanswered : ∀ ev ∈ earlier, ev.answered = true)
    (hwritten : earlier.filterMap Event.written? = []) :
    p.Covers σ ids (evs ++ earlier) s w s₁ w₂ := by
  -- None of the earlier calls failed, so the same transactions have failed with them.
  have hfailed : ∀ id, (Failed (evs ++ earlier) id ↔ Failed evs id) := by
    intro id
    rw [failed_append_iff]
    exact or_iff_left (not_failed_of_answered hanswered id)
  have hreports : p.reports w.ledger ids (evs ++ earlier) = p.reports w₁.ledger ids evs := by
    simp only [reports, hfailed, hledger]
  refine ⟨htrail.trans h.trail, ?_, ?_, ?_⟩
  · rw [h.ledger, hledger]
    apply Ledger.revise_congr
    intro e _
    simp only [settleAll, hfailed]
  · rw [h.summary, hreports, hledger]
  -- Earlier calls wrote nothing, so what was written in all is what was written after them.
  · rw [hreports, ← h.written, List.reverse_append, List.filterMap_append, List.filterMap_reverse,
      hwritten]
    rfl

/-- A transaction that the user does not own is covered by doing nothing. -/
theorem of_absent {id : Ident} (habsent : w.ledger.ownedTransaction? id p.user = none) :
    p.Covers σ [id] [] s w s w where
  trail := .refl
  ledger := by
    refine (Ledger.revise_eq_self fun e he => ?_).symm
    unfold settleAll
    split
    · -- A row of the user under this identifier would have been found.
      rename_i h
      obtain ⟨hid, huser, -⟩ := h
      have hfound : w.ledger.ownedTransaction? id p.user = some e.2 := by
        rw [← List.mem_singleton.mp hid]
        exact Ledger.ownedTransaction?_eq_some_iff.mpr ⟨Table.get?_eq_some_iff.mpr he, huser⟩
      rw [habsent] at hfound
      cases hfound
    · rfl
  summary := by simp [count, reports, habsent, Failed]
  written := by simp [reports, habsent, Failed]

variable {id : Ident} {row : TransactionRow}

/-- A transaction is covered when all calls about it were answered and its row is settled. -/
theorem of_answered (howned : w.ledger.ownedTransaction? id p.user = some row)
    (htrail : w.Trail σ (fun ev => ev.call.subject? = some id) evs w₁)
    (hanswered : ∀ ev ∈ evs, ev.answered = true)
    (hledger : w₁.ledger = w.ledger.revise fun i r => if i = id then p.settle i r else r)
    (hwritten : evs.reverse.filterMap Event.written? =
      (p.report id row).toList.map (·.transaction)) :
    p.Covers σ [id] evs s w (s.extend 1 (p.report id row).toList) w₁ := by
  have hfailed := not_failed_of_answered hanswered
  -- Where no call failed, a report on the transaction is a report of the list.
  have hreports : p.reports w.ledger [id] evs = (p.report id row).toList := by
    cases hreport : p.report id row <;> simp [reports, hfailed, howned, hreport]
  refine ⟨htrail.imp ?_, ?_, ?_, ?_⟩
  · intro ev _ hsubject i hi
    rw [hsubject] at hi
    simpa [eq_comm] using hi
  · rw [hledger]
    apply Ledger.revise_congr
    intro e he
    by_cases hid : e.1 = id
    · -- The entry under the identifier is the row that was found, and it is the user's.
      have huser := (Ledger.ownedTransaction?_eq_some_iff.mp howned).2
      have hrow := Ledger.eq_of_ownedTransaction? howned he hid
      simp [settleAll, hid, hfailed, hrow, huser]
    · simp [settleAll, hid]
  · rw [hreports]
    simp [count, howned]
  · rw [hreports, hwritten]

/-- A transaction is covered when a call about it failed and its row stayed. -/
theorem of_failed (howned : w.ledger.ownedTransaction? id p.user = some row)
    (htrail : w.Trail σ (fun ev => ev.call.subject? = some id) evs w₁)
    (hfailed : ∃ ev ∈ evs, ev.answered = false) (hledger : w₁.ledger = w.ledger)
    (hwritten : evs.reverse.filterMap Event.written? = []) :
    p.Covers σ [id] evs s w (s.extend 1 []) w₁ := by
  have hid : Failed evs id := by
    obtain ⟨ev, hev, hanswered⟩ := hfailed
    exact ⟨ev, hev, hanswered, htrail.all ev hev⟩
  refine ⟨htrail.imp ?_, ?_, ?_, ?_⟩
  · intro ev _ hsubject i hi
    rw [hsubject] at hi
    simpa [eq_comm] using hi
  · rw [hledger]
    refine (Ledger.revise_eq_self fun e _ => ?_).symm
    by_cases he : e.1 = id <;> simp [settleAll, he, hid]
  · simp [count, howned, reports, hid]
  · simp [hwritten, reports, hid]

end Covers

/-! ## Layer C: going over transactions -/

section

variable (hσ : σ.Alone) (hsafe : σ.Safe)
include hσ hsafe

/-- **One transaction.** -/
theorem exists_covers_process (h : p.Ready w.ledger) {id : Ident} {row : TransactionRow}
    (howned : w.ledger.ownedTransaction? id p.user = some row) {t : Transaction}
    (hread : Ledger.readTransaction p.now id row = .ok t) (s : Summary) :
    ∃ evs s' w', Run.process ⟨p.now, σ⟩ p.settings p.user p.engine s t w = .ok s' w' ∧
      p.Covers σ [id] evs s w s' w' := by
  -- Counting one transaction is extending the summary by one, with or without a report.
  have hone : ∀ ms, ({ s with processed := s.processed + 1, modified := s.modified ++ ms } :
      Summary) = s.extend 1 ms := fun _ => rfl
  have hnothing : ({ s with processed := s.processed + 1 } : Summary) = s.extend 1 [] := by
    simp [Summary.extend]
  cases hcs : p.engine.evaluate t with
  | none =>
    -- Nothing is staged: no call is made, and the row is settled as it is.
    have hstaged : p.staged id row = none := by simp only [staged, hread, hcs]
    have hreport : p.report id row = none := by simp only [report, hstaged]
    have hsettle : p.settle id row = row := report_eq_none_iff.mp hreport
    refine ⟨[], s.extend 1 [], w, ?_, ?_⟩
    · simp only [Run.process, hcs, hnothing]
      rfl
    · have hcovers := Covers.of_answered (s := s) howned (World.Trail.refl (σ := σ)) (by simp)
        ?_ (by simp [hreport])
      · rwa [hreport] at hcovers
      · refine (Ledger.revise_eq_self fun e he => ?_).symm
        split
        · rename_i hid
          rw [Ledger.eq_of_ownedTransaction? howned he hid, hid, hsettle]
        · rfl
  | some cs =>
    obtain ⟨evs, w', htrail, hcase⟩ := tries_apply hσ hsafe h howned hread hcs
    rcases hcase with
      ⟨hrun, hledger, hanswered, hwritten⟩ | ⟨⟨e, hrun⟩, hledger, hfailed, hwritten⟩
    · -- The changes were written, or there was nothing left to write.
      refine ⟨evs, _, w', ?_, .of_answered howned htrail hanswered hledger hwritten⟩
      simp only [Run.process, hcs]
      rw [Run.bind_of_ok (Run.attempt_of_ok hrun)]
      cases p.report id row with
      | none => simp only [hnothing]; rfl
      | some m => rfl
    · -- A call failed; the transaction counts, but nothing is said of it.
      refine ⟨evs, _, w', ?_, .of_failed howned htrail hfailed hledger hwritten⟩
      simp only [Run.process, hcs]
      rw [Run.bind_of_ok (Run.attempt_of_failed hrun), ← hnothing]
      rfl

/-- **All transactions of a list** that was read while the ledger held the rows that it still
    holds. -/
theorem exists_covers_processAll {xs : List (Ident × TransactionRow)} {ts : List Transaction}
    (hnodup : (xs.map (·.1)).Nodup)
    (hread : (xs.mapM fun x => Ledger.readTransaction p.now x.1 x.2) = .ok ts)
    (w : World) (h : p.Ready w.ledger)
    (howned : ∀ x ∈ xs, w.ledger.ownedTransaction? x.1 p.user = some x.2) (s : Summary) :
    ∃ evs s' w', Run.processAll ⟨p.now, σ⟩ p.settings p.user p.engine s ts w = .ok s' w' ∧
      p.Covers σ (xs.map (·.1)) evs s w s' w' := by
  -- On the transactions that are left, whose rows are as they were read.
  induction xs generalizing ts w s with
  | nil =>
    cases hread
    exact ⟨[], s, w, rfl, .nil⟩
  | cons x xs ih =>
    obtain ⟨t, rest, ht, hrest, rfl⟩ := mapM_cons_eq_ok_iff.mp hread
    obtain ⟨hx, hxs⟩ := List.nodup_cons.mp hnodup
    change x.1 ∉ xs.map (·.1) at hx
    obtain ⟨evs₁, s₁, w₁, hrun₁, hcovers₁⟩ :=
      exists_covers_process hσ hsafe h (howned x List.mem_cons_self) ht s
    -- The rows of the others are still those that were read.
    have howned₁ : ∀ y ∈ xs, w₁.ledger.ownedTransaction? y.1 p.user = some y.2 := by
      intro y hy
      rw [hcovers₁.ownedTransaction?_eq ?_ p.user]
      · exact howned y (List.mem_cons_of_mem _ hy)
      · intro hmem
        rw [← List.mem_singleton.mp hmem] at hx
        exact hx (List.mem_map_of_mem hy)
    obtain ⟨evs₂, s₂, w₂, hrun₂, hcovers₂⟩ := ih hxs hrest w₁ (hcovers₁.ready h) howned₁ s₁
    refine ⟨evs₂ ++ evs₁, s₂, w₂, ?_, ?_⟩
    · simp only [Run.processAll]
      rw [Run.bind_of_ok hrun₁, hrun₂]
    · refine hcovers₁.append hcovers₂ ?_
      intro id hid
      rw [List.mem_singleton.mp hid]
      exact hx

end

end Pass

end LedgerRules
