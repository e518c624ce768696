import LedgerRules.Proofs.Run.Resettle
import LedgerRules.Proofs.Run.Undisturbed

/-!
# Runs that are repeated once

A second run with the same request finds nothing left to change, as long as the changes that the
first one made do not bring other rules to apply.

## Overview

- **Layer A**: the rules that apply to a transaction of a ledger.
- **Layer B**: the ledger after an undisturbed run.
- **Layer C**: the second run.
-/

namespace LedgerRules

/-! ## Layer A: the rules that apply -/

/-- Of some rules, those that apply to a transaction of a user, if the user has it. -/
def Ledger.applyingRules (l : Ledger) (now : Instant) (user : Ident) (rules : List CompleteRule)
    (id : Ident) : Except LedgerError (Option (List CompleteRule)) := do
  let snapshot ← l.snapshot now user
  let t ← l.transaction? now id user
  pure (t.map fun t => rules.filter fun r => r.Applies snapshot t)

theorem Ledger.applyingRules_eq {l : Ledger} (hl : l.Sound) {now : Instant} {user id : Ident}
    {snapshot : Snapshot} (hsnapshot : l.snapshot now user = .ok snapshot) {row : TransactionRow}
    (howned : l.ownedTransaction? id user = some row) {t : Transaction}
    (hread : readTransaction now id row = .ok t) (rules : List CompleteRule) :
    l.applyingRules now user rules id =
      .ok (some (({ snapshot with rules } : Engine).applying t)) := by
  obtain ⟨t', hread', hfound⟩ := hl.transaction?_eq now howned
  rw [hread] at hread'
  cases hread'
  rw [applyingRules, hsnapshot, hfound]
  rfl

/-! ## Layer B: after an undisturbed run -/

namespace Pass

variable {p : Pass} {l : Ledger} {request : Request} {id : Ident} {row : TransactionRow}

/-- A row that is settled as soon as it is settled once is left alone by a second run. -/
theorem passOver_passOver (h : request.Covers id → row.user = p.user →
    p.settle id (p.settle id row) = p.settle id row) :
    p.passOver request id (p.passOver request id row) = p.passOver request id row := by
  by_cases hasked : request.Covers id ∧ row.user = p.user
  · have huser : (p.settle id row).user = p.user :=
      (p.keepsPlace_settle.user id row).trans hasked.2
    -- The row stays the user's, so the second run settles it again.
    simp [passOver, hasked, huser, h hasked.1 hasked.2]
  · simp [passOver, hasked]

theorem Ready.passOver_row (h : p.Ready l)
    (hrow : Ledger.SoundTransaction l.accounts l.categories row) (request : Request) (id : Ident) :
    Ledger.SoundTransaction l.accounts l.categories (p.passOver request id row) := by
  unfold Pass.passOver
  split
  · exact h.settle hrow
  · exact hrow

/-- A run leaves a sound ledger behind. -/
theorem Ready.passOver (h : p.Ready l) (request : Request) :
    p.Ready (l.revise (p.passOver request)) := by
  apply h.revise
  intro e _
  unfold Pass.passOver
  split
  · exact .inl rfl
  · exact .inr rfl

/-- **A transaction to which the same rules apply after a run as before it is settled.** -/
theorem Ready.settle_settle_of_same (h : p.Ready l) {snapshot : Snapshot}
    {rules : List CompleteRule} (hsnapshot : l.snapshot p.now p.user = .ok snapshot)
    (hengine : p.engine = { snapshot with rules })
    (howned : l.ownedTransaction? id p.user = some row) (hcovers : request.Covers id)
    (now : Instant)
    (hsame : (l.revise (p.passOver request)).applyingRules now p.user rules id =
      l.applyingRules p.now p.user rules id) :
    p.settle id (p.settle id row) = p.settle id row := by
  obtain ⟨hget, huser⟩ := Ledger.ownedTransaction?_eq_some_iff.mp howned
  have hrow := h.sound.transactions.of_get? hget
  have hready' := h.passOver request
  -- Neither the categories nor the accounts have changed.
  have hsnapshot' : (l.revise (p.passOver request)).snapshot now p.user = .ok snapshot := by
    rw [hready'.sound.snapshot_eq now p.now]
    exact hsnapshot
  -- The transaction that is read after the run is the one that the run has made.
  obtain ⟨t, hread⟩ : ∃ t, Ledger.readTransaction p.now id row = .ok t := hrow.exists_read
  have hread' : Ledger.readTransaction now id (p.settle id row) =
      .ok (t.revised (p.engine.asked t)) := by
    rw [(h.settle hrow).read_eq now p.now, settle_eq_revised hread]
    exact readTransaction_revised p.settings _ hread
  have howned' : (l.revise (p.passOver request)).ownedTransaction? id p.user =
      some (p.settle id row) := by
    rw [Ledger.ownedTransaction?_revise (p.keepsPlace_passOver request), howned]
    exact congrArg some (if_pos ⟨hcovers, huser⟩)
  rw [Ledger.applyingRules_eq h.sound hsnapshot howned hread,
    Ledger.applyingRules_eq hready'.sound hsnapshot' howned' hread', ← hengine] at hsame
  exact settle_settle_of_applying hread (Option.some.inj (Except.ok.inj hsame))

end Pass

/-! ## Layer C: the second run -/

/-- **A second run changes nothing if the same rules apply.** From a reachable ledger, let two runs
    with the same request and settings be disturbed by nothing and resolve the same rules, the
    second one on the ledger that the first one leaves. If to every transaction that is asked for
    the same rules apply after the first run as before it, then the second run counts as many
    transactions, reports no change and leaves the ledger as it is. -/
theorem rerun_changes_nothing {l : Ledger} (hl : l.Reachable) {σ₁ σ₂ : Schedule}
    {flag₁ flag₂ : Option Bool} (hσ₁ : σ₁.Undisturbed flag₁) (hσ₂ : σ₂.Undisturbed flag₂)
    {now₁ : Instant} {user : Ident} {request : Request} {rules : List CompleteRule}
    (hrules₁ : l.resolve now₁ user request.rules = .ok rules) (settings : Settings)
    (now₂ : Instant) :
    ∃ s₁ w₁, Run.execute ⟨now₁, σ₁⟩ settings user request ⟨l, flag₁, []⟩ = .ok s₁ w₁ ∧
      (w₁.ledger.resolve now₂ user request.rules = .ok rules →
        (∀ id, request.Covers id → w₁.ledger.applyingRules now₂ user rules id =
          l.applyingRules now₁ user rules id) →
        ∃ s₂ w₂, Run.execute ⟨now₂, σ₂⟩ settings user request ⟨w₁.ledger, flag₂, []⟩ = .ok s₂ w₂ ∧
          s₂.processed = s₁.processed ∧ s₂.modified = [] ∧ w₂.ledger = w₁.ledger) := by
  have hsound := hl.sound
  obtain ⟨snapshot, hsnapshot₁⟩ := hsound.exists_snapshot now₁ user
  obtain ⟨s₁, w₁, hrun₁, hledger₁, -, hprocessed₁⟩ :=
    exists_execute_undisturbed hsound hσ₁ hrules₁ hsnapshot₁ settings
  refine ⟨s₁, w₁, hrun₁, fun hrules₂ hsame => ?_⟩
  let p : Pass := ⟨{ snapshot with rules }, now₁, settings, user⟩
  have hready : p.Ready l := Pass.ready_of_snapshot hsound hsnapshot₁ fun _ => rfl
  have hledger : w₁.ledger = l.revise (p.passOver request) := hledger₁
  have hsound₁ : w₁.ledger.Sound := hledger ▸ (hready.passOver request).sound
  -- Neither the categories nor the accounts have changed.
  have hsnapshot₂ : w₁.ledger.snapshot now₂ user = .ok snapshot := by
    rw [hsound₁.snapshot_eq now₂ now₁, ← hsnapshot₁, hledger]
    rfl
  have hsettled : ∀ e ∈ w₁.ledger.transactions.entries,
      ({ p with now := now₂ } : Pass).passOver request e.1 e.2 = e.2 := by
    intro e he
    rw [hledger] at he
    obtain ⟨⟨id, row⟩, hmem, rfl⟩ := List.mem_map.mp he
    -- The clock of the second run plays no part in what it makes of a row.
    rw [Pass.passOver_at (hready.passOver_row (hsound.transactions _ hmem) request id)]
    refine Pass.passOver_passOver fun hcovers huser => ?_
    have howned : l.ownedTransaction? id user = some row :=
      Ledger.ownedTransaction?_eq_some_iff.mpr ⟨Table.get?_eq_some_iff.mpr hmem, huser⟩
    exact hready.settle_settle_of_same hsnapshot₁ rfl howned hcovers now₂
      (hledger ▸ hsame id hcovers)
  obtain ⟨s₂, w₂, hrun₂, hledger₂, hmodified₂, hprocessed₂⟩ :=
    exists_execute_of_settled hsound₁ hσ₂ hrules₂ hsnapshot₂ settings hsettled
  refine ⟨s₂, w₂, hrun₂, ?_, hmodified₂, hledger₂⟩
  -- The same transactions are the user's, and the same of them are asked for.
  have hcount : p.count w₁.ledger (p.covered w₁.ledger request) =
      p.count l (p.covered l request) := by
    have hplace := p.keepsPlace_passOver request
    rw [hledger, Pass.covered_revise hplace, Pass.count_revise hplace]
  rw [hprocessed₁]
  refine hprocessed₂.trans ?_
  split
  · rfl
  · exact congrArg UInt64.ofNat hcount

/-- The first run writes all parts of the transaction, the second one none. -/
theorem rerun_changes_nothing_subscriptions :
    let request : Request := ⟨none, some [1], none⟩
    ∃ s₁ w₁ s₂ w₂,
      Run.execute ⟨Ledger.dawn, .calm⟩ .standard 1 request ⟨Ledger.subscriptions, none, []⟩ =
        .ok s₁ w₁ ∧
      s₁.modified = [⟨1, [1], [.name, .description, .category, .transfer]⟩] ∧
      Run.execute ⟨Ledger.dawn, .calm⟩ .standard 1 request ⟨w₁.ledger, none, []⟩ = .ok s₂ w₂ ∧
      s₂.processed = s₁.processed ∧ s₂.modified = [] ∧ w₂.ledger = w₁.ledger := by
  intro request
  have hrules : Ledger.subscriptions.resolve Ledger.dawn 1 request.rules =
      .ok [Ledger.subscriptionRule] := by
    decide +kernel
  obtain ⟨s₁, w₁, hrun₁, hsecond⟩ :=
    rerun_changes_nothing Ledger.reachable_subscriptions Schedule.undisturbed_calm
      Schedule.undisturbed_calm hrules .standard Ledger.dawn
  have hworld : w₁ = Run.worldOf (Run.execute ⟨Ledger.dawn, .calm⟩ .standard 1 request
      ⟨Ledger.subscriptions, none, []⟩) := by
    rw [hrun₁]
    rfl
  have hlisted : (backgroundSummary (Run.execute ⟨Ledger.dawn, .calm⟩ .standard 1 request
      ⟨Ledger.subscriptions, none, []⟩)).map (·.modified) =
        some [⟨1, [1], [.name, .description, .category, .transfer]⟩] := by
    decide +kernel
  have hrules₂ : w₁.ledger.resolve Ledger.dawn 1 request.rules =
      .ok [Ledger.subscriptionRule] := by
    rw [hworld]
    decide +kernel
  have hsame : w₁.ledger.applyingRules Ledger.dawn 1 [Ledger.subscriptionRule] 1 =
      Ledger.subscriptions.applyingRules Ledger.dawn 1 [Ledger.subscriptionRule] 1 := by
    rw [hworld]
    decide +kernel
  obtain ⟨s₂, w₂, hrun₂, hrest⟩ := hsecond hrules₂ fun id hid => by
    obtain rfl : id = 1 := by simpa [request] using hid [1] rfl
    exact hsame
  rw [hrun₁] at hlisted
  exact ⟨s₁, w₁, s₂, w₂, hrun₁, Option.some.inj hlisted, hrun₂, hrest⟩

end LedgerRules
