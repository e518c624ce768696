import LedgerRules.Proofs.Ledger.Revised
import LedgerRules.Proofs.Rules.Meaning
import LedgerRules.Proofs.Run.Calls
import LedgerRules.Run.Execute

/-!
# Settling one transaction

What a run does to a single transaction, whatever happens at its calls: either the row becomes the
one that the rules ask for, or a call fails and the row stays. There is nothing in between.

## Overview

- **Layer A**: asking for a transaction; a pass, and what it makes of a row.
- **Layer B**: what the engine stages can be written, and the ledger stays sound.
- **Layer C**: writing a changeset as the run does it.
-/

namespace LedgerRules

/-! ## Layer A: a pass -/

section

variable {l : Ledger} {now : Instant} {id user : Ident}

/-- A call for a transaction of the user is answered with what its row is read as. -/
theorem Call.serve_transaction {row : TransactionRow}
    (howned : l.ownedTransaction? id user = some row) {t : Transaction}
    (hread : Ledger.readTransaction now id row = .ok t) :
    (Call.transaction id user).serve now l = .ok (some t, l) := by
  rw [serve, Ledger.transaction?_eq_some howned hread]
  rfl

/-- A call for a transaction that is not the user's is answered with nothing. -/
theorem Call.serve_transaction_of_none (h : l.ownedTransaction? id user = none) :
    (Call.transaction id user).serve now l = .ok (none, l) := by
  rw [serve, Ledger.transaction?_eq_none h]
  rfl

end

/-- What a run does the same way to every transaction: the rules of an engine are run on it for its
    user, at one time and under one group of settings. -/
structure Pass where
  /-- The rules with their snapshot. -/
  engine : Engine
  /-- The clock. -/
  now : Instant
  /-- The settings. -/
  settings : Settings
  /-- The user. -/
  user : Ident

namespace Pass

/-- What the rules stage for the row of a transaction; a row that cannot be read gets nothing. -/
def staged (p : Pass) (id : Ident) (row : TransactionRow) : Option Changeset :=
  match Ledger.readTransaction p.now id row with
  | .ok t => p.engine.evaluate t
  | .error _ => none

/-- The row of a transaction after the rules have run on it. -/
def settle (p : Pass) (id : Ident) (row : TransactionRow) : TransactionRow :=
  match p.staged id row with
  | some cs => row.revised p.settings cs
  | none => row

/-- What a summary says of a transaction on which the rules have run: nothing if its row stays the
    same, otherwise the rules that staged something and the parts in which the row differs. -/
def report (p : Pass) (id : Ident) (row : TransactionRow) : Option Modified :=
  match p.staged id row with
  | some cs =>
    if row.revised p.settings cs = row then none
    else some ⟨id, cs.rules, row.differences (row.revised p.settings cs)⟩
  | none => none

variable {p : Pass} {id : Ident} {row : TransactionRow}

theorem keepsPlace_settle (p : Pass) : Ledger.KeepsPlace p.settle where
  user := by
    intro i row
    unfold settle
    split <;> rfl
  date := by
    intro i row
    unfold settle
    split <;> rfl

/-- **A transaction is reported exactly if its row changes.** -/
theorem report_eq_none_iff : p.report id row = none ↔ p.settle id row = row := by
  unfold report settle
  split
  · split
    · rename_i h
      simp [h]
    · rename_i h
      simp [h]
  · simp

theorem transaction_of_report {m : Modified} (h : p.report id row = some m) :
    m.transaction = id := by
  unfold report at h
  split at h
  · split at h
    · cases h
    · cases h
      rfl
  · cases h

/-! ## Layer B: what can be staged can be written -/

/-- A ledger with which a pass can work: it is sound, and all categories and accounts that the
    engine can stage are there. -/
structure Ready (p : Pass) (l : Ledger) : Prop where
  sound : l.Sound
  category : ∀ t cs, p.engine.evaluate t = some cs →
    ∀ category ∈ cs.categories, l.categories.has category = true
  account : ∀ t cs, p.engine.evaluate t = some cs →
    ∀ link, cs.transfer = some link → l.accounts.has link.account = true

variable {l : Ledger}

/-- What is staged for a row can be written to it. -/
theorem Ready.writable (h : p.Ready l) (hrow : Ledger.SoundTransaction l.accounts l.categories row)
    {t : Transaction} (hread : Ledger.readTransaction p.now id row = .ok t) {cs : Changeset}
    (hcs : p.engine.evaluate t = some cs) : l.Writable row cs := by
  obtain ⟨-, -, -, -, -, hamount, hcategories⟩ := Ledger.fields_of_readTransaction hread
  refine ⟨Engine.nodup_categories_of_evaluate hcs, ?_, h.category t cs hcs, h.account t cs hcs, ?_⟩
  -- The engine leaves out categories that the transaction has, and those are the ones of its row.
  · intro category hcategory
    rw [← hcategories]
    exact (Engine.category_of_evaluate hcs hcategory).2
  -- The amount that arrives is that of the transaction with the other sign, and so a number.
  · intro link hlink
    rw [(Engine.transfer_of_evaluate hcs hlink).2.2, Amount.isNaN_neg, hamount]
    exact Amount.isNaN_of_kept? hrow.kept

end Pass

namespace Ledger

variable {l : Ledger} {row : TransactionRow} {cs : Changeset}

/-- A changeset that can be written makes a sound row of a sound one. -/
theorem SoundTransaction.revised (h : SoundTransaction l.accounts l.categories row)
    (hcs : l.Writable row cs) (settings : Settings) :
    SoundTransaction l.accounts l.categories (row.revised settings cs) := by
  refine { h with distinct := ?_, known := ?_, linked := ?_ }
  · -- The new categories are fresh, so none of them repeats an old one.
    refine List.nodup_append.mpr ⟨h.distinct, hcs.distinct, ?_⟩
    rintro category hold _ hnew rfl
    exact hcs.fresh category hnew hold
  · intro category hcategory
    rcases List.mem_append.mp hcategory with hmem | hmem
    · exact h.known category hmem
    · exact hcs.known category hmem
  · intro link hlink
    simp only [TransactionRow.revised] at hlink
    split at hlink
    -- The link is the old one unless a transfer is staged, and then it is what is kept of that.
    · cases htransfer : cs.transfer with
      | none => exact h.linked link (by simpa [htransfer] using hlink)
      | some staged =>
        obtain ⟨amount, hamount⟩ := Amount.exists_kept? (hcs.number staged htransfer)
        have hkept : staged.kept? = some { staged with amount } := by
          rw [TransferLink.kept?, hamount]
          rfl
        have hlink' : link = { staged with amount } := by
          simpa [htransfer, hkept, eq_comm] using hlink
        subst hlink'
        exact ⟨kept?_kept hamount, hcs.account staged htransfer⟩
    · exact h.linked link hlink

theorem Sound.revise (hl : Sound l) {g : Ident → TransactionRow → TransactionRow}
    (hg : ∀ e ∈ l.transactions.entries, SoundTransaction l.accounts l.categories (g e.1 e.2)) :
    Sound (l.revise g) :=
  { hl with
    transactions := by
      intro x hx
      obtain ⟨e, he, rfl⟩ := List.mem_map.mp hx
      exact hg e he
    transactionIds := by
      intro x hx
      obtain ⟨e, he, rfl⟩ := List.mem_map.mp hx
      exact hl.transactionIds e he }

end Ledger

namespace Pass

variable {p : Pass} {l : Ledger}

theorem Ready.settle (h : p.Ready l) {id : Ident} {row : TransactionRow}
    (hrow : Ledger.SoundTransaction l.accounts l.categories row) :
    Ledger.SoundTransaction l.accounts l.categories (p.settle id row) := by
  unfold Pass.settle Pass.staged
  obtain ⟨t, hread⟩ : ∃ t, Ledger.readTransaction p.now id row = .ok t := hrow.exists_read
  simp only [hread]
  split
  · rename_i cs hcs
    exact hrow.revised (h.writable hrow hread hcs) p.settings
  · exact hrow

/-- A ledger stays ready while a pass works on some of its rows. -/
theorem Ready.revise (h : p.Ready l) {g : Ident → TransactionRow → TransactionRow}
    (hg : ∀ e ∈ l.transactions.entries, g e.1 e.2 = p.settle e.1 e.2 ∨ g e.1 e.2 = e.2) :
    p.Ready (l.revise g) := by
  refine ⟨h.sound.revise fun e he => ?_, h.category, h.account⟩
  have hrow := h.sound.transactions e he
  rcases hg e he with hsettled | hsame
  · rw [hsettled]
    exact h.settle hrow
  · rw [hsame]
    exact hrow

/-! ## Layer C: writing a changeset -/

section

variable {σ : Schedule} (hσ : σ.Alone) (hsafe : σ.Safe) {w : World} {id : Ident}
  {row : TransactionRow}
include hσ hsafe

/-- The link that is still to be written is found out without writing anything. -/
theorem tries_transferToLink {cs : Changeset} (hcs : cs.transaction = id)
    (howned : w.ledger.ownedTransaction? id p.user = some row) :
    Run.Tries σ id (Run.transferToLink ⟨p.now, σ⟩ p.settings p.user cs)
      (cs.linkAgainst p.settings row.transfer) w.ledger [] w := by
  have hcall : (Call.transferLink cs.transaction p.user).serve p.now w.ledger =
      .ok (row.transfer, w.ledger) := by
    simp [Call.serve, Ledger.transferLink?, hcs, howned]
  unfold Run.transferToLink Changeset.linkAgainst
  cases cs.transfer with
  | none =>
    simp only [Option.filter_none, ite_self]
    exact Run.Tries.pure
  | some staged =>
    cases p.settings.linkTransfers with
    | false => exact Run.Tries.pure
    | true =>
      -- The link of the live row decides, and it is the link of the row that was read.
      simp only [if_true]
      refine (Run.Tries.perform hσ hsafe (by simp [Call.subject?, hcs]) hcall).bind ?_
      intro w₁ hw₁
      rw [← hw₁]
      by_cases hsame : (row.transfer.any fun link => link.same staged) = true
      · simp only [hsame, if_true, Option.filter]
        exact Run.Tries.pure
      · simp only [hsame, Option.filter]
        exact Run.Tries.pure

/-- **Writing a changeset** either makes the settled row of the row and reports it, or fails and
    leaves the ledger as it was. -/
theorem tries_apply (h : p.Ready w.ledger)
    (howned : w.ledger.ownedTransaction? id p.user = some row) {t : Transaction}
    (hread : Ledger.readTransaction p.now id row = .ok t) {cs : Changeset}
    (hcs : p.engine.evaluate t = some cs) :
    Run.Tries σ id (Run.apply ⟨p.now, σ⟩ p.settings p.user cs) (p.report id row)
      (w.ledger.revise fun i r => if i = id then p.settle i r else r)
      ((p.report id row).toList.map (·.transaction)) w := by
  obtain ⟨hget, -⟩ := Ledger.ownedTransaction?_eq_some_iff.mp howned
  have hrow := h.sound.transactions.of_get? hget
  have hwritable := h.writable hrow hread hcs
  have htransaction : cs.transaction = id := by
    rw [Engine.transaction_of_evaluate hcs, (Ledger.fields_of_readTransaction hread).1]
  have hstaged : p.staged id row = some cs := by
    simp only [staged, hread, hcs]
  -- The changeset names the transaction that was read, so reading it again finds the same row.
  have hlive : (Call.transaction cs.transaction p.user).serve p.now w.ledger =
      .ok (some t, w.ledger) := by
    rw [htransaction]
    exact Call.serve_transaction howned hread
  have hwritten : ∀ e ∈ w.ledger.transactions.entries, e.1 = id → e.2 = row :=
    fun e he hid => Ledger.eq_of_ownedTransaction? howned he hid
  -- Reading the transaction and its link comes first, whatever is left to write.
  refine (Run.Tries.perform hσ hsafe (by simp [Call.subject?, htransaction]) hlive).bind ?_
  intro w₁ hw₁
  refine (tries_transferToLink hσ hsafe htransaction (hw₁ ▸ howned)).bind ?_
  intro w₂ hw₂
  have hledger : w₂.ledger = w.ledger := hw₂.trans hw₁
  have hchanges : (⟨cs.baseAgainst t, cs.categoriesAgainst t,
      cs.linkAgainst p.settings row.transfer⟩ : Changes) =
        cs.against p.settings t row.transfer := rfl
  simp only [hchanges]
  have hempty : (cs.against p.settings t row.transfer).isEmpty = true ↔
      row.revised p.settings cs = row := Changes.isEmpty_against_iff hrow hwritable hread
  by_cases hsame : row.revised p.settings cs = row
  · -- Nothing is left to write, and nothing is reported.
    have hreport : p.report id row = none := by simp [report, hstaged, hsame]
    have hstays : (w.ledger.revise fun i r => if i = id then p.settle i r else r) = w.ledger := by
      apply Ledger.revise_eq_self
      intro e he
      split
      · rename_i hid
        rw [hwritten e he hid, hid]
        exact report_eq_none_iff.mp hreport
      · rfl
    rw [hreport, hstays, ← hledger, if_pos (hempty.mpr hsame)]
    exact Run.Tries.pure
  · -- What differs is written in one call and reported.
    have hreport : p.report id row =
        some ⟨id, cs.rules, row.differences (row.revised p.settings cs)⟩ := by
      simp [report, hstaged, hsame]
    have hsettled : (w.ledger.revise fun i r => if i = id then r.revised p.settings cs else r) =
        w.ledger.revise fun i r => if i = id then p.settle i r else r := by
      apply Ledger.revise_congr
      intro e he
      by_cases hid : e.1 = id
      · simp only [hid, if_true, hwritten e he hid, settle, hstaged]
      · simp only [hid, if_false]
    have hwrite := Ledger.applyChanges_against h.sound howned hwritable hread hsame
    rw [hsettled, ← hledger] at hwrite
    have hcall : (Call.applyChanges cs.transaction p.user
        (cs.against p.settings t row.transfer)).serve p.now w₂.ledger =
          .ok ((), w₂.ledger.revise fun i r => if i = id then p.settle i r else r) := by
      simp [Call.serve, htransaction, hwrite, Except.map]
    have hparts : (cs.against p.settings t row.transfer).parts =
        row.differences (row.revised p.settings cs) :=
      Changes.parts_against hrow hwritable hread
    have hsubject : (Call.applyChanges cs.transaction p.user
        (cs.against p.settings t row.transfer)).subject? = some id := by
      simp [Call.subject?, htransaction]
    have htry := Run.Tries.perform hσ hsafe hsubject hcall
    rw [hreport, ← hledger, if_neg (mt hempty.mp hsame), ← hparts, ← htransaction]
    rw [← htransaction] at htry
    exact htry.bind_pure

end

end Pass

end LedgerRules
