import LedgerRules.Proofs.Run.Undisturbed

/-!
# Previews

A preview evaluates the rules in effect on one transaction and writes nothing. It finds its rules by
itself, takes no notice of the settings and compares nothing with the row. A run on that transaction
at the same time nevertheless does what the preview has shown.

## Overview

- **Layer A**: what of a changeset is still to be written to a row.
- **Layer B**: what a preview shows.
- **Layer C**: what the run does.
-/

namespace LedgerRules

/-! ## Layer A: what is still to be written -/

namespace Changeset

/-- Whether what is staged for a part differs from what is stored: another name or description, a
    category that is not on the row, or another link, provided that transfers are linked at all. -/
def pending (settings : Settings) (cs : Changeset) (row : TransactionRow) : Part → Bool
  | .name => cs.name.any fun name => name != row.name
  | .description => cs.description.any fun text => row.description != some text
  | .category => cs.categories.any fun category => !row.categories.contains category
  | .transfer => settings.linkTransfers && cs.transfer.any fun staged =>
      !row.transfer.any fun link => link.same staged

/-- The parts for which what is staged differs from what is stored. -/
def pendingParts (settings : Settings) (cs : Changeset) (row : TransactionRow) : List Part :=
  [.name, .description, .category, .transfer].filter (cs.pending settings row)

variable {l : Ledger} {now : Instant} {id : Ident} {row : TransactionRow} {cs : Changeset}
  {live : Transaction} (settings : Settings)

/-- What is pending is what is written. -/
theorem writes_against_eq_pending (hread : Ledger.readTransaction now id row = .ok live)
    (part : Part) :
    (cs.against settings live row.transfer).writes part = cs.pending settings row part := by
  obtain ⟨-, -, -, hname, hdescription, -, hcategories⟩ := Ledger.fields_of_readTransaction hread
  -- Each part has its own way of being left out: equal texts, categories all there, the same link.
  cases part with
  | name =>
    simp only [Changes.writes, against, baseAgainst, pending, hname]
    cases cs.name with
    | none => rfl
    | some name => by_cases h : name = row.name <;> simp [Option.filter, h]
  | description =>
    simp only [Changes.writes, against, baseAgainst, pending, hdescription]
    cases cs.description with
    | none => rfl
    | some text => by_cases h : row.description = some text <;> simp [Option.filter, h]
  | category =>
    -- A filter that leaves nothing and an `any` that finds nothing say the same.
    have hnew : (cs.categories.filter fun c => !row.categories.contains c).isEmpty =
        !cs.categories.any fun c => !row.categories.contains c := by
      rw [Bool.eq_iff_iff]
      simp
    simp only [Changes.writes, against, categoriesAgainst, pending, hcategories, hnew]
    cases cs.categories.any fun c => !row.categories.contains c <;> rfl
  | transfer =>
    simp only [Changes.writes, against, linkAgainst, pending]
    cases settings.linkTransfers with
    | false => rfl
    | true =>
      cases cs.transfer with
      | none => rfl
      | some staged =>
        by_cases h : (row.transfer.any fun link => link.same staged) = true <;>
          simp [Option.filter, h]

end Changeset

namespace Pass

variable {p : Pass} {l : Ledger} {id : Ident} {row : TransactionRow} {cs : Changeset}

theorem settle_of_staged (hstaged : p.staged id row = some cs) :
    p.settle id row = row.revised p.settings cs := by
  simp only [settle, hstaged]

/-- Of what is staged for a row, the parts that are pending are those in which it will differ. -/
theorem Ready.pendingParts_eq (h : p.Ready l)
    (hrow : Ledger.SoundTransaction l.accounts l.categories row)
    (hstaged : p.staged id row = some cs) :
    cs.pendingParts p.settings row = row.differences (row.revised p.settings cs) := by
  obtain ⟨t, hread⟩ : ∃ t, Ledger.readTransaction p.now id row = .ok t := hrow.exists_read
  -- Only a row that can be read has something staged for it.
  have hcs : p.engine.evaluate t = some cs := by simpa only [staged, hread] using hstaged
  refine List.filter_congr fun part _ => ?_
  rw [← Changeset.writes_against_eq_pending p.settings hread]
  exact Changes.writes_against hrow (h.writable hrow hread hcs) hread part

/-- **A report in terms of what is pending.** -/
theorem Ready.report_eq (h : p.Ready l)
    (hrow : Ledger.SoundTransaction l.accounts l.categories row)
    (hstaged : p.staged id row = some cs) :
    p.report id row =
      if cs.pendingParts p.settings row = [] then none
      else some ⟨id, cs.rules, cs.pendingParts p.settings row⟩ := by
  have hparts := h.pendingParts_eq hrow hstaged
  simp only [report, hstaged, hparts, TransactionRow.differences_revised_eq_nil_iff]

end Pass

/-! ## Layer B: the preview -/

/-- What a preview shows: nothing where the user has no such transaction, and otherwise what the
    rules in effect stage over the user's snapshot. It leaves the ledger as it is. -/
theorem exists_preview {l : Ledger} (hl : l.Sound) {σ : Schedule} (hσ : σ.Alone)
    (hserving : σ.Serving) {now : Instant} {user : Ident} {rules : List CompleteRule}
    (hrules : l.resolve now user none = .ok rules) {snapshot : Snapshot}
    (hsnapshot : l.snapshot now user = .ok snapshot) (settings : Settings) (id : Ident)
    (flag : Option Bool) :
    let p : Pass := ⟨{ snapshot with rules }, now, settings, user⟩
    ∃ w, w.ledger = l ∧
      Run.preview ⟨now, σ⟩ user id ⟨l, flag, []⟩ =
        match l.ownedTransaction? id user with
        | none => .error (.failed (.noTransaction id)) w
        | some row => .ok (p.staged id row) w := by
  intro p
  have hsafe := hserving.safe
  have hserved : ∀ es c, c.subject? = none → (σ es c).fate = .served := fun es c _ => hserving es c
  cases howned : l.ownedTransaction? id user with
  | none =>
    -- Without the transaction the preview makes no further call.
    have hcall : (Call.transaction id user).serve now l = .ok (none, l) :=
      Call.serve_transaction_of_none howned
    refine ⟨World.after σ ⟨l, flag, []⟩ (.transaction id user) true l, rfl, ?_⟩
    rw [Run.preview, Run.bind_of_ok (Run.perform_eq_ok hσ (hserving _ _) hcall)]
    rfl
  | some row =>
    obtain ⟨t, hread⟩ := (hl.soundTransaction howned).exists_read
    have hcall : (Call.transaction id user).serve now l = .ok (some t, l) :=
      Call.serve_transaction howned hread
    have hstaged : p.staged id row = p.engine.evaluate t := by
      simp only [Pass.staged, p, hread]
    -- After the transaction come the rules, and the snapshot if there are any.
    obtain ⟨-, w₁, hrun₁, hledger₁, -⟩ := Run.finds_workingSet hσ hsafe hserved hrules
      (World.after σ ⟨l, flag, []⟩ (.transaction id user) true l) rfl
    simp only [hstaged]
    by_cases hsome : rules = []
    · subst hsome
      refine ⟨w₁, hledger₁, ?_⟩
      -- Without rules the preview shows nothing, and so does an engine without rules.
      have hnone : p.engine.evaluate t = none := by
        simp [p, Engine.evaluate, Changeset.isEmpty, Changeset.empty]
      rw [Run.preview, Run.bind_of_ok (Run.perform_eq_ok hσ (hserving _ _) hcall)]
      simp only [hnone]
      rw [Run.bind_of_ok hrun₁]
      rfl
    · obtain ⟨e, hfinds, hagrees⟩ := Run.finds_engineFor hσ hsafe hserved hsnapshot rules
      obtain ⟨-, w₂, hrun₂, hledger₂, -⟩ := hfinds w₁ hledger₁
      refine ⟨w₂, hledger₂, ?_⟩
      have hempty : rules.isEmpty = false := by simpa using hsome
      rw [Run.preview, Run.bind_of_ok (Run.perform_eq_ok hσ (hserving _ _) hcall)]
      simp only
      rw [Run.bind_of_ok hrun₁]
      simp only [hempty, Bool.false_eq_true, if_false]
      rw [Run.bind_of_ok hrun₂, hagrees t]
      rfl

/-! ## Layer C: the run -/

/-- A filter over one element yields the image of that element, if there is one. -/
theorem filterMap_singleton {α β : Type} (f : α → Option β) (x : α) :
    [x].filterMap f = (f x).toList := by
  cases h : f x <;> simp [h]

/-- Changes to one row are the same if they make the same of it. -/
theorem Ledger.revise_one_congr {l : Ledger} {id user : Ident} {row : TransactionRow}
    (howned : l.ownedTransaction? id user = some row) {f g : TransactionRow → TransactionRow}
    (h : f row = g row) :
    l.revise (fun i r => if i = id then f r else r) =
      l.revise (fun i r => if i = id then g r else r) := by
  refine revise_congr fun e he => ?_
  by_cases hid : e.1 = id
  · rw [if_pos hid, if_pos hid, eq_of_ownedTransaction? howned he hid, h]
  · rw [if_neg hid, if_neg hid]

/-- A run over one named transaction counts none if the user does not own it; otherwise it settles
    its row and reports what changes. -/
theorem exists_execute_one {l : Ledger} (hl : l.Sound) {σ : Schedule} {flag : Option Bool}
    (hσ : σ.Undisturbed flag) {now : Instant} {user : Ident} {rules : List CompleteRule}
    (hrules : l.resolve now user none = .ok rules) {snapshot : Snapshot}
    (hsnapshot : l.snapshot now user = .ok snapshot) (settings : Settings) (id : Ident)
    (pageSize : Option Int64) :
    let p : Pass := ⟨{ snapshot with rules }, now, settings, user⟩
    ∃ s w, Run.execute ⟨now, σ⟩ settings user ⟨none, some [id], pageSize⟩ ⟨l, flag, []⟩ = .ok s w ∧
      match l.ownedTransaction? id user with
      | none => s.processed = 0
      | some row =>
        w.ledger = l.revise (fun i r => if i = id then p.settle id r else r) ∧
        s.modified = (p.report id row).toList := by
  intro p
  let request : Request := ⟨none, some [id], pageSize⟩
  have hresolved : l.resolve now user request.rules = .ok rules := hrules
  obtain ⟨s, w, hrun, hledger, hmodified, hprocessed⟩ :=
    exists_execute_undisturbed hl hσ hresolved hsnapshot settings
  refine ⟨s, w, hrun, ?_⟩
  -- A request that names one transaction covers this one.
  have hcovered : p.covered l request = [id] := rfl
  change s.modified = (p.covered l request).filterMap _ at hmodified
  change s.processed = if rules = [] then 0 else UInt64.ofNat (p.count l (p.covered l request))
    at hprocessed
  rw [hcovered] at hmodified hprocessed
  rw [filterMap_singleton] at hmodified
  cases howned : l.ownedTransaction? id user with
  | none =>
    have hcount : p.count l [id] = 0 := by simp [Pass.count, p, howned]
    rw [hcount] at hprocessed
    simpa using hprocessed
  | some row =>
    rw [howned] at hmodified
    refine ⟨?_, hmodified⟩
    rw [hledger]
    refine Ledger.revise_congr fun e he => ?_
    -- The row under the identifier is the one that is asked for, and it is the user's.
    have huser := (Ledger.ownedTransaction?_eq_some_iff.mp howned).2
    have hcovers (i : Ident) : request.Covers i ↔ i = id := by
      rw [← List.mem_singleton]
      exact ⟨fun h => h [id] rfl, fun h ids hids => Option.some.inj hids ▸ h⟩
    by_cases hid : e.1 = id
    · have hrow := Ledger.eq_of_ownedTransaction? howned he hid
      simp [Pass.passOver, hcovers, hid, hrow, huser, p]
    · simp [Pass.passOver, hcovers, hid]

/-- **A preview predicts the run.** From a reachable ledger, and at one time, let somebody preview a
    transaction and let a run go over just this transaction, with the rules in effect; no call
    fails. The preview leaves the ledger as it is. It fails exactly if the user has no such
    transaction, which is what its error says, and then the run counts none. If it shows nothing,
    the run reports no change and leaves the ledger as it is. If it shows a changeset, the run makes
    of the row what the changeset asks for, with the link only if transfers are linked, and changes
    no other row. Then it reports the transaction with the rules of the changeset and the parts
    that are pending, unless there are none. -/
theorem preview_predicts_run {l : Ledger} (hl : l.Reachable) {σ₁ σ₂ : Schedule}
    (hσ₁ : σ₁.Alone) (hserving₁ : σ₁.Serving) {flag₂ : Option Bool} (hσ₂ : σ₂.Undisturbed flag₂)
    (now : Instant) (settings : Settings) (user id : Ident) (pageSize : Option Int64)
    (flag₁ : Option Bool) :
    let preview := Run.preview ⟨now, σ₁⟩ user id ⟨l, flag₁, []⟩
    let run := Run.execute ⟨now, σ₂⟩ settings user ⟨none, some [id], pageSize⟩ ⟨l, flag₂, []⟩
    (Run.worldOf preview).ledger = l ∧
    ∃ s w, run = .ok s w ∧
      match preview with
      | .error stop _ =>
        stop = .failed (.noTransaction id) ∧ l.ownedTransaction? id user = none ∧ s.processed = 0
      | .ok none _ =>
        (l.ownedTransaction? id user).isSome = true ∧ s.modified = [] ∧ w.ledger = l
      | .ok (some cs) _ =>
        ∃ row, l.ownedTransaction? id user = some row ∧
          w.ledger = l.revise (fun i r => if i = id then r.revised settings cs else r) ∧
          s.modified =
            if cs.pendingParts settings row = [] then []
            else [⟨id, cs.rules, cs.pendingParts settings row⟩] := by
  intro preview run
  have hsound := hl.sound
  obtain ⟨rules, hrules⟩ := hsound.exists_resolve now user none
  obtain ⟨snapshot, hsnapshot⟩ := hsound.exists_snapshot now user
  let p : Pass := ⟨{ snapshot with rules }, now, settings, user⟩
  have hready : p.Ready l := Pass.ready_of_snapshot hsound hsnapshot fun _ => rfl
  obtain ⟨w₁, hledger₁, hpreview⟩ :=
    exists_preview hsound hσ₁ hserving₁ hrules hsnapshot settings id flag₁
  obtain ⟨s, w, hrun, hrest⟩ :=
    exists_execute_one hsound hσ₂ hrules hsnapshot settings id pageSize
  cases howned : l.ownedTransaction? id user with
  | none =>
    have hshown : preview = .error (.failed (.noTransaction id)) w₁ := by
      simpa only [howned] using hpreview
    simp only [howned] at hrest
    rw [hshown]
    exact ⟨hledger₁, s, w, hrun, rfl, rfl, hrest⟩
  | some row =>
    have hshown : preview = .ok (p.staged id row) w₁ := by
      simpa only [howned] using hpreview
    simp only [howned] at hrest
    obtain ⟨hledger, hmodified⟩ := hrest
    have hrow := hsound.transactions.of_get? (Ledger.ownedTransaction?_eq_some_iff.mp howned).1
    rw [hshown]
    refine ⟨hledger₁, s, w, hrun, ?_⟩
    cases hstaged : p.staged id row with
    | none =>
      -- Where nothing is staged, settling the row leaves it as it is.
      have hreport : p.report id row = none := by simp only [Pass.report, hstaged]
      have hsettle : p.settle id row = row := Pass.report_eq_none_iff.mp hreport
      refine ⟨rfl, ?_, ?_⟩
      · rw [hmodified]
        exact congrArg Option.toList hreport
      · rw [hledger]
        refine (Ledger.revise_one_congr (g := fun r => r) howned hsettle).trans ?_
        exact Ledger.revise_eq_self fun e _ => ite_self _
    | some cs =>
      refine ⟨row, rfl, ?_, ?_⟩
      -- The run settles the row, and settling it is writing what the preview shows.
      · rw [hledger]
        exact Ledger.revise_one_congr howned (Pass.settle_of_staged hstaged)
      · have hreport := hready.report_eq hrow hstaged
        rw [hmodified]
        refine (congrArg Option.toList hreport).trans ?_
        split <;> rfl

/-- The preview shows all parts of the transaction; where transfers are not linked, the run writes
    all but the link. -/
theorem preview_predicts_run_subscriptions :
    let settings : Settings := { Settings.standard with linkTransfers := false }
    ∃ cs w₁ s w,
      Run.preview ⟨Ledger.dawn, .calm⟩ 1 1 ⟨Ledger.subscriptions, none, []⟩ = .ok (some cs) w₁ ∧
      cs.parts = [.name, .description, .category, .transfer] ∧
      Run.execute ⟨Ledger.dawn, .calm⟩ settings 1 ⟨none, some [1], none⟩
        ⟨Ledger.subscriptions, none, []⟩ = .ok s w ∧
      s.modified = [⟨1, [1], [.name, .description, .category]⟩] := by
  intro settings
  let staged : Changeset :=
    ⟨1, some "Netflix", some "Monthly", [1], some ⟨2, -Amount.zero⟩, [1]⟩
  have hstaged : (match Run.preview ⟨Ledger.dawn, .calm⟩ 1 1 ⟨Ledger.subscriptions, none, []⟩ with
      | .ok found _ => found
      | .error _ _ => none) = some staged := by
    decide +kernel
  have hpending : (Ledger.subscriptions.ownedTransaction? 1 1).map (staged.pendingParts settings) =
      some [.name, .description, .category] := by
    decide +kernel
  have hparts : staged.parts = [.name, .description, .category, .transfer] := by decide +kernel
  have h := preview_predicts_run Ledger.reachable_subscriptions Schedule.alone_calm
    Schedule.serving_calm Schedule.undisturbed_calm Ledger.dawn settings 1 1 none none
  -- The theorem is used at both outcomes, so the preview is evaluated to rule one of them out.
  cases hpreview : Run.preview ⟨Ledger.dawn, .calm⟩ 1 1 ⟨Ledger.subscriptions, none, []⟩ with
  | error stop w₁ =>
    rw [hpreview] at hstaged
    cases hstaged
  | ok found w₁ =>
    rw [hpreview] at hstaged
    obtain rfl : found = some staged := hstaged
    simp only [hpreview] at h
    obtain ⟨-, s, w, hrun, row, howned, -, hmodified⟩ := h
    rw [howned] at hpending
    have hkinds : staged.pendingParts settings row = [.name, .description, .category] :=
      Option.some.inj hpending
    refine ⟨staged, w₁, s, w, rfl, hparts, hrun, ?_⟩
    rw [hmodified, hkinds]
    rfl

end LedgerRules
