import LedgerRules.Proofs.Run.Settle

/-!
# Settling a row again

What the rules ask for on a row that they have settled before. If the same rules apply to it as
before, they ask for the same name, description and transfer, and for no category that the row
does not have by now, so nothing is left to change. A row that has got no new category is the same
to all rules that write no text.

## Overview

- **Layer A**: what the same rules ask for on the transaction as they have made it.
- **Layer B**: reading a settled row.
- **Layer C**: settling it again.
-/

namespace LedgerRules

/-! ## Layer A: asking again -/

/-- A transaction with the name and the description that a changeset stages, and with its
    categories after the old ones. -/
def Transaction.revised (t : Transaction) (cs : Changeset) : Transaction :=
  { t with
    name := cs.name.getD t.name
    description := cs.description <|> t.description
    categories := t.categories ++ cs.categories }

section

variable (s : Snapshot) (t : Transaction) (cs : Changeset)

/-- No action asks for a category that it has got. -/
theorem Action.newCategories_revised {as : List Action}
    (hcs : cs.categories = newCategories s t as) : newCategories s (t.revised cs) as = [] := by
  -- Suppose some action still asks for one; it is looked at through both of its guards.
  rw [List.eq_nil_iff_forall_not_mem]
  intro category hmem
  obtain ⟨a, ha, hnew⟩ := (mem_newCategories_iff _ _ _ _).mp hmem
  unfold newCategory? at hnew
  split at hnew
  · rename_i hpart
    obtain ⟨hliteral, hfresh⟩ := Option.filter_eq_some_iff.mp hnew
    obtain ⟨howns, hmissing⟩ := of_decide_eq_true hfresh
    have hmissing' : category ∉ t.categories ∧ category ∉ cs.categories := by
      simpa [Transaction.revised] using hmissing
    -- It asked for the category before, so the category has been staged.
    have hasked : a.newCategory? s t = some category := by
      rw [newCategory?, if_pos hpart]
      exact Option.filter_eq_some_iff.mpr ⟨hliteral, decide_eq_true ⟨howns, hmissing'.1⟩⟩
    exact hmissing'.2 (hcs ▸ (mem_newCategories_iff _ _ _ _).mpr ⟨a, ha, hasked⟩)
  · cases hnew

end

namespace Engine

/-- The rules that apply to a transaction. -/
def applying (e : Engine) (t : Transaction) : List CompleteRule :=
  e.rules.filter fun r => r.Applies e.toSnapshot t

variable {e : Engine} {t t' : Transaction}

/-- **The same rules asked again** want the same name, description and transfer, and no category
    any more. -/
theorem asked_revised (hsame : e.applying (t.revised (e.asked t)) = e.applying t) :
    (e.asked (t.revised (e.asked t))).name = (e.asked t).name ∧
      (e.asked (t.revised (e.asked t))).description = (e.asked t).description ∧
      (e.asked (t.revised (e.asked t))).categories = [] ∧
      (e.asked (t.revised (e.asked t))).transfer = (e.asked t).transfer := by
  have hasked : ∀ t', e.asked t' = Changeset.ofActions e.toSnapshot t'
      (joinedActions (e.applying t')) (suppliers e.toSnapshot t' (e.applying t')) := fun _ => rfl
  -- The changeset stands on both sides, so it is named before its parts are compared.
  generalize hcs : e.asked t = cs at hsame ⊢
  rw [hasked] at hcs ⊢
  rw [hsame]
  subst hcs
  exact ⟨rfl, rfl, Action.newCategories_revised _ _ _ rfl, rfl⟩

/-- Rules that write no text ask for none. -/
theorem asked_of_no_text
    (hparts : ∀ r ∈ e.rules, ∀ a ∈ r.actions, a.part ≠ .name ∧ a.part ≠ .description)
    (t : Transaction) : (e.asked t).name = none ∧ (e.asked t).description = none := by
  have hactions : ∀ a ∈ joinedActions (e.applying t), a.part ≠ .name ∧ a.part ≠ .description := by
    -- The actions that are taken are those of the rules that apply.
    intro a ha
    obtain ⟨r, hr, ha⟩ := List.mem_flatMap.mp ha
    exact hparts r (List.mem_filter.mp hr).1 a ha
  exact ⟨(Action.firstLiteral_eq_none_iff _ _).mpr fun a ha => (hactions a ha).1,
    (Action.firstLiteral_eq_none_iff _ _).mpr fun a ha => (hactions a ha).2⟩

end Engine

/-! ## Layer B: reading a settled row -/

namespace Pass

variable {p : Pass} {id : Ident} {row : TransactionRow} {t : Transaction}

theorem readTransaction_revised {now : Instant} (settings : Settings) (cs : Changeset)
    (hread : Ledger.readTransaction now id row = .ok t) :
    Ledger.readTransaction now id (row.revised settings cs) = .ok (t.revised cs) := by
  obtain ⟨createdAt, hcreated, h⟩ := bind_eq_ok_iff.mp hread
  obtain ⟨date, hdate, h⟩ := bind_eq_ok_iff.mp h
  cases h
  -- Reading takes over the text and the categories, and the dates are the same.
  simp only [Ledger.readTransaction, TransactionRow.revised, hcreated, hdate]
  rfl

/-- A changeset in which nothing is staged makes no difference. -/
theorem revised_of_isEmpty {settings : Settings} {cs : Changeset} (h : cs.isEmpty = true) :
    row.revised settings cs = row := by
  simp only [Changeset.isEmpty, Bool.and_eq_true, Option.isNone_iff_eq_none,
    List.isEmpty_iff] at h
  simp [TransactionRow.revised, h]

theorem settle_eq_revised (hread : Ledger.readTransaction p.now id row = .ok t) :
    p.settle id row = row.revised p.settings (p.engine.asked t) := by
  simp only [settle, staged, hread, Engine.evaluate_eq_asked]
  -- An empty changeset is not handed on, but writing it would change nothing.
  by_cases h : (p.engine.asked t).isEmpty = true
  · simp [h, revised_of_isEmpty h]
  · simp [h]

/-! ## Layer C: settling a row again -/

/-- Writing the same name, description and transfer a second time changes nothing. -/
theorem revised_revised {settings : Settings} {cs cs' : Changeset} (hname : cs'.name = cs.name)
    (hdescription : cs'.description = cs.description) (hcategories : cs'.categories = [])
    (htransfer : cs'.transfer = cs.transfer) :
    (row.revised settings cs).revised settings cs' = row.revised settings cs := by
  simp only [TransactionRow.revised, hname, hdescription, hcategories, htransfer]
  -- Each part that is staged is there after the first time, so the second finds it there.
  cases cs.name <;> cases cs.description <;> cases settings.linkTransfers <;>
    cases cs.transfer.bind TransferLink.kept? <;> simp

/-- **A row to which the same rules apply as before is settled.** -/
theorem settle_settle_of_applying (hread : Ledger.readTransaction p.now id row = .ok t)
    (hsame : p.engine.applying (t.revised (p.engine.asked t)) = p.engine.applying t) :
    p.settle id (p.settle id row) = p.settle id row := by
  obtain ⟨hname, hdescription, hcategories, htransfer⟩ := Engine.asked_revised hsame
  rw [settle_eq_revised hread, settle_eq_revised (readTransaction_revised _ _ hread)]
  exact revised_revised hname hdescription hcategories htransfer

/-- **A row that is given no text is settled as soon as it gets no new category.** -/
theorem settle_settle_of_no_category (hread : Ledger.readTransaction p.now id row = .ok t)
    (hparts : ∀ r ∈ p.engine.rules, ∀ a ∈ r.actions, a.part ≠ .name ∧ a.part ≠ .description)
    (hcategories : (p.engine.asked t).categories = []) :
    p.settle id (p.settle id row) = p.settle id row := by
  obtain ⟨hname, hdescription⟩ := Engine.asked_of_no_text hparts t
  -- Rules see nothing of a link, so the transaction is the same to them as before.
  have hsame : t.revised (p.engine.asked t) = t := by
    simp [Transaction.revised, hname, hdescription, hcategories]
  exact settle_settle_of_applying hread (congrArg p.engine.applying hsame)

end Pass

end LedgerRules
