import LedgerRules.Proofs.Run.Course

/-!
# What a run may change

A write replaces all categories of a transaction and takes any account as the target of a link, so
a ledger would let a run do much more than it should. A run for a user nevertheless leaves
everything alone but the user's own transactions, and gives them nothing that the user does not own.

## Overview

- **Layer A**: what may become of the row of a transaction.
- **Layer B**: what becomes of all rows in a run.
-/

namespace LedgerRules

/-! ## Layer A: one row -/

namespace Ledger

/-- What a run for a user may make of a row: it keeps what says which transaction it is, its
    categories only grow, by categories of the user, and its link changes only to another account
    of the user, if transfers may be linked at all. The rows of others stay. -/
structure Framed (l : Ledger) (settings : Settings) (user : Ident) (row row' : TransactionRow) :
    Prop where
  others : row.user ≠ user → row' = row
  owner : row'.user = row.user
  account : row'.account = row.account
  amount : row'.amount = row.amount
  date : row'.date = row.date
  createdAt : row'.createdAt = row.createdAt
  categories : ∃ added, row'.categories = row.categories ++ added ∧
    ∀ category ∈ added, ∃ owned, l.categories.get? category = some owned ∧ owned.user = user
  transfer : row'.transfer ≠ row.transfer → settings.linkTransfers = true ∧
    ∃ link, row'.transfer = some link ∧ l.ownsAccount user link.account = true ∧
      link.account ≠ row.account ∧ link.amount.same (-row.amount) = true

theorem Framed.refl (l : Ledger) (settings : Settings) (user : Ident) (row : TransactionRow) :
    l.Framed settings user row row where
  others := fun _ => rfl
  owner := rfl
  account := rfl
  amount := rfl
  date := rfl
  createdAt := rfl
  categories := ⟨[], (List.append_nil _).symm, by simp⟩
  transfer := fun h => absurd rfl h

/-- A changeset that the rules stage over the user's snapshot makes only what it may of a row of the
    user. -/
theorem framed_revised {l : Ledger} {now : Instant} {user id : Ident} {snapshot : Snapshot}
    (hsnapshot : l.snapshot now user = .ok snapshot) {row : TransactionRow}
    (howner : row.user = user) {t : Transaction} (hread : readTransaction now id row = .ok t)
    {rules : List CompleteRule} {cs : Changeset}
    (hcs : ({ snapshot with rules } : Engine).evaluate t = some cs) (settings : Settings) :
    l.Framed settings user row (row.revised settings cs) := by
  obtain ⟨-, htuser, haccount, -, -, hamount, -⟩ := fields_of_readTransaction hread
  have htuser' : t.user = user := htuser.trans howner
  refine ⟨fun h => absurd howner h, rfl, rfl, rfl, rfl, rfl, ⟨cs.categories, rfl, ?_⟩, ?_⟩
  -- The categories that are added are the staged ones, and the user owns them.
  · intro category hcategory
    obtain ⟨howns, -⟩ := Engine.category_of_evaluate hcs hcategory
    exact htuser' ▸ get?_of_ownsCategory hsnapshot howns
  -- A link that differs from the old one is the staged one, with the switch on.
  · intro hchanged
    simp only [TransactionRow.revised] at hchanged ⊢
    cases hlinks : settings.linkTransfers with
    | false => simp [hlinks] at hchanged
    | true =>
      cases htransfer : cs.transfer with
      | none => simp [hlinks, htransfer] at hchanged
      | some staged =>
        -- What is kept of the staged link is the same number, for the same account.
        cases hkept : staged.kept? with
        | none => simp [hlinks, htransfer, hkept] at hchanged
        | some link =>
          obtain ⟨howns, hother, hnegated⟩ := Engine.transfer_of_evaluate hcs htransfer
          obtain ⟨amount, hamountKept, rfl⟩ := Option.map_eq_some_iff.mp hkept
          obtain ⟨owned, hget, howned⟩ := get?_of_ownsAccount hsnapshot howns
          refine ⟨rfl, ⟨staged.account, amount⟩, by simp [hkept], ?_, ?_, ?_⟩
          · simp [ownsAccount, hget, howned, htuser']
          · rw [← haccount]
            exact hother
          · rw [← hamount, ← hnegated, Amount.same_comm]
            exact Amount.same_of_kept? hamountKept

end Ledger

/-! ## Layer B: all rows -/

/-- **A run changes only what it may.** From a reachable ledger, for any request, let a run be alone
    with the ledger, let any calls be refused to it, and let it be asked to stop at any moment.
    However it ends, accounts, categories, rules, conditions and actions are as they were, no
    transaction has come or gone, and each has a row that may have become of the one it had. -/
theorem execute_changes_only_own {l : Ledger} (hl : l.Reachable) {σ : Schedule} (hσ : σ.Alone)
    (hsafe : σ.Safe) (now : Instant) (settings : Settings) (user : Ident) (request : Request)
    (flag : Option Bool) :
    let w := Run.worldOf (Run.execute ⟨now, σ⟩ settings user request ⟨l, flag, []⟩)
    w.ledger = { l with transactions := w.ledger.transactions } ∧
    w.ledger.transactions.entries.map (·.1) = l.transactions.entries.map (·.1) ∧
    ∀ id row, l.transactions.get? id = some row →
      ∃ row', w.ledger.transactions.get? id = some row' ∧ l.Framed settings user row row' := by
  intro w
  have hsound := hl.sound
  rcases execute_fails_or_did hsound hσ hsafe now settings user request flag with
    ⟨e, w', hrun, hledger, -⟩ | ⟨rules, snapshot, -, hsnapshot, s, w', ids, evs, hrun, hdid⟩
  -- The run has failed in its setup, and nothing has been written.
  · have hworld : w = w' := congrArg Run.worldOf hrun
    rw [hworld, hledger]
    exact ⟨rfl, rfl, fun id row hrow => ⟨row, hrow, .refl l settings user row⟩⟩
  · have hworld : w = w' := congrArg Run.worldOf hrun
    rw [hworld, hdid.ledger]
    refine ⟨rfl, by simp [Ledger.revise, Table.map], fun id row hrow => ?_⟩
    rw [Ledger.get?_revise, hrow, Option.map_some]
    refine ⟨_, rfl, ?_⟩
    -- A row is settled or left as it is, and settling it is writing a changeset.
    unfold Pass.settleAll
    split
    · rename_i hcovered
      obtain ⟨t, hread⟩ : ∃ t, Ledger.readTransaction now id row = .ok t :=
        (hsound.transactions.of_get? hrow).exists_read
      unfold Pass.settle Pass.staged
      simp only [hread]
      split
      · rename_i cs hcs
        exact Ledger.framed_revised hsnapshot hcovered.2.1 hread hcs settings
      · exact .refl l settings user row
    · exact .refl l settings user row

/-- In the small ledger the third transaction is given a category of its user, and keeps its
    account. -/
theorem execute_changes_only_own_streaming :
    ∃ w row row', Run.worldOf (Run.execute ⟨Ledger.dawn, .calm⟩ .standard 1 ⟨none, some [3], none⟩
        ⟨Ledger.streaming, none, []⟩) = w ∧
      w.ledger.accounts = Ledger.streaming.accounts ∧
      Ledger.streaming.transactions.get? 3 = some row ∧
      w.ledger.transactions.get? 3 = some row' ∧ row.categories = [] ∧ row'.categories = [1] ∧
      row'.account = row.account := by
  have h := execute_changes_only_own Ledger.reachable_streaming Schedule.alone_calm
    Schedule.safe_calm Ledger.dawn .standard 1 ⟨none, some [3], none⟩ none
  -- The world that is left is given a name, so that it is not computed twice.
  generalize hw : Run.worldOf (Run.execute ⟨Ledger.dawn, .calm⟩ .standard 1 ⟨none, some [3], none⟩
    ⟨Ledger.streaming, none, []⟩) = w at h
  obtain ⟨hledger, -, hrows⟩ := h
  have hbefore : (Ledger.streaming.transactions.get? 3).map (·.categories) = some [] := by
    decide +kernel
  have hafter : (w.ledger.transactions.get? 3).map (·.categories) = some [1] := by
    rw [← hw]
    decide +kernel
  obtain ⟨row, hrow, hcategories⟩ := Option.map_eq_some_iff.mp hbefore
  obtain ⟨row', hrow', hframed⟩ := hrows 3 row hrow
  refine ⟨w, row, row', rfl, ?_, hrow, hrow', hcategories, ?_, hframed.account⟩
  · rw [hledger]
  · rw [hrow'] at hafter
    exact Option.some.inj hafter

end LedgerRules
