import LedgerRules.Proofs.Rules.Credit

/-!
# The order of rules

The first rule that writes the name of a transaction decides what the name becomes, and so it is
with the description and the transfer. Which parts are written at all, and which categories are
added, does not depend on the order: whether a rule applies is a matter of the transaction as it
is, never of what other rules have staged for it.

## Overview

- **Layer A**: what actions ask for, whatever their order.
- **Layer B**: changesets that touch the same.
- **Layer C**: rules in another order.
-/

namespace LedgerRules

/-! ## Layer A: actions in another order -/

namespace Action

variable (s : Snapshot) (t : Transaction)

/-- Some action writes a part, whichever of them comes first. -/
theorem isSome_firstLiteral_iff (part : Part) (as : List Action) :
    (firstLiteral part as).isSome = true ↔ ∃ a ∈ as, a.part = part := by
  simp [firstLiteral]

theorem isSome_firstTransfer_iff (as : List Action) :
    (firstTransfer s t as).isSome = true ↔ ∃ a ∈ as, (a.newTransfer? s t).isSome = true := by
  simp [firstTransfer]

variable {as bs : List Action} (h : as.Perm bs)
include h

theorem isSome_firstLiteral_of_perm (part : Part) :
    (firstLiteral part as).isSome = (firstLiteral part bs).isSome := by
  rw [Bool.eq_iff_iff, isSome_firstLiteral_iff, isSome_firstLiteral_iff]
  exact exists_congr fun a => and_congr_left fun _ => h.mem_iff

theorem isSome_firstTransfer_of_perm :
    (firstTransfer s t as).isSome = (firstTransfer s t bs).isSome := by
  rw [Bool.eq_iff_iff, isSome_firstTransfer_iff, isSome_firstTransfer_iff]
  exact exists_congr fun a => and_congr_left fun _ => h.mem_iff

/-- The categories that are asked for are the same; each of them comes once in either list. -/
theorem newCategories_perm : (newCategories s t as).Perm (newCategories s t bs) := by
  -- Neither list has an element twice, so it is enough that they have the same elements.
  apply (List.perm_ext_iff_of_nodup (nodup_eraseDups _) (nodup_eraseDups _)).mpr
  intro category
  rw [← newCategories, ← newCategories, mem_newCategories_iff, mem_newCategories_iff]
  exact exists_congr fun a => and_congr_left fun _ => h.mem_iff

end Action

/-! ## Layer B: touching the same -/

namespace Changeset

/-- Two changesets that touch the same: they stage the same parts, and the same categories in some
    order. -/
structure TouchesSame (cs cs' : Changeset) : Prop where
  parts : cs.parts = cs'.parts
  categories : cs.categories.Perm cs'.categories

variable {cs cs' : Changeset}

/-- Nothing is staged exactly if no part is. -/
theorem isEmpty_iff_parts : cs.isEmpty = true ↔ cs.parts = [] := by
  rw [parts, List.filter_eq_nil_iff]
  simp [Vocabulary.values, stages, isEmpty, and_assoc]

theorem TouchesSame.isEmpty_iff (h : cs.TouchesSame cs') :
    cs.isEmpty = true ↔ cs'.isEmpty = true := by
  rw [isEmpty_iff_parts, isEmpty_iff_parts, h.parts]

/-- **Actions in another order** ask for changes that touch the same. -/
theorem touchesSame_ofActions (s : Snapshot) (t : Transaction) {as bs : List Action}
    (h : as.Perm bs) (rules rules' : List Ident) :
    (ofActions s t as rules).TouchesSame (ofActions s t bs rules') where
  parts := by
    unfold parts
    apply List.filter_congr
    intro part _
    -- A text or a link is staged if some action asks for it; which one comes first does not matter.
    cases part with
    | name => exact Action.isSome_firstLiteral_of_perm h .name
    | description => exact Action.isSome_firstLiteral_of_perm h .description
    | transfer => exact Action.isSome_firstTransfer_of_perm s t h
    | category =>
      -- Lists that are permutations of each other are empty together.
      have hlength := (Action.newCategories_perm s t h).length_eq
      simp only [stages, ofActions]
      rw [Bool.eq_iff_iff]
      simp [← List.length_eq_zero_iff, hlength]
  categories := Action.newCategories_perm s t h

end Changeset

/-! ## Layer C: rules in another order -/

/-- The same rules apply in any order, so the same actions are taken in some order. -/
theorem joinedActions_perm {rules rules' : List CompleteRule} (h : rules.Perm rules') :
    (joinedActions rules).Perm (joinedActions rules') :=
  h.flatMap_right _

/-- What the rules of two engines ask for on a transaction touches the same. -/
theorem Engine.touchesSame_asked (s : Snapshot) (t : Transaction)
    {rules rules' : List CompleteRule} (h : rules.Perm rules') :
    (({ s with rules } : Engine).asked t).TouchesSame
      (({ s with rules := rules' } : Engine).asked t) := by
  -- That a rule applies does not depend on the others, so the same rules are left.
  have happlying : (rules.filter fun r => decide (r.Applies s t)).Perm
      (rules'.filter fun r => decide (r.Applies s t)) := h.filter _
  exact Changeset.touchesSame_ofActions s t (joinedActions_perm happlying) _ _

/-- **The order of rules decides only values.** On any transaction, engines with one snapshot and
    the same rules in different orders either both stage nothing, or both stage something, for the
    same parts and with the same categories in some order. -/
theorem order_decides_only_values (s : Snapshot) (t : Transaction)
    {rules rules' : List CompleteRule} (h : rules.Perm rules') :
    let e : Engine := { s with rules }
    let e' : Engine := { s with rules := rules' }
    (e.evaluate t = none ∧ e'.evaluate t = none) ∨
      ∃ cs cs', e.evaluate t = some cs ∧ e'.evaluate t = some cs' ∧
        cs.parts = cs'.parts ∧ cs.categories.Perm cs'.categories := by
  intro e e'
  have hsame : (e.asked t).TouchesSame (e'.asked t) := Engine.touchesSame_asked s t h
  rw [e.evaluate_eq_asked, e'.evaluate_eq_asked]
  by_cases hempty : (e.asked t).isEmpty = true
  · have hempty' := hsame.isEmpty_iff.mp hempty
    left
    rw [if_pos hempty, if_pos hempty']
    exact ⟨rfl, rfl⟩
  -- Both stage something, and what they stage are the two changesets that touch the same.
  · have hempty' : ¬ (e'.asked t).isEmpty = true := mt hsame.isEmpty_iff.mpr hempty
    right
    rw [if_neg hempty, if_neg hempty']
    exact ⟨_, _, rfl, rfl, hsame.parts, hsame.categories⟩

/-- Two rules that both want to name a transaction and to file it, each its own way. -/
def rivals : List CompleteRule :=
  [ruleOn 1 "netflix" [⟨1, 1, .name, "Film"⟩, ⟨2, 1, .category, "5"⟩],
    ruleOn 2 "flix" [⟨3, 2, .name, "Series"⟩, ⟨4, 2, .category, "6"⟩]]

/-- Turned round, the rules give the transaction another name, and file it under the same
    categories. -/
theorem order_decides_only_values_rivals :
    let s : Snapshot := ⟨[⟨5, 1, "Streams", noon⟩, ⟨6, 1, "Leisure", noon⟩], []⟩
    let e : Engine := { s with rules := rivals }
    let e' : Engine := { s with rules := rivals.reverse }
    rivals.Perm rivals.reverse ∧
      e.evaluate subscription = some ⟨1, some "Film", none, [5, 6], none, [1, 2]⟩ ∧
      e'.evaluate subscription = some ⟨1, some "Series", none, [6, 5], none, [2, 1]⟩ ∧
      ∃ cs cs', e.evaluate subscription = some cs ∧ e'.evaluate subscription = some cs' ∧
        cs.parts = cs'.parts ∧ cs.categories.Perm cs'.categories := by
  intro s e e'
  have hperm : rivals.Perm rivals.reverse := (List.reverse_perm rivals).symm
  have hfirst : e.evaluate subscription =
      some ⟨1, some "Film", none, [5, 6], none, [1, 2]⟩ := by decide +kernel
  have hsecond : e'.evaluate subscription =
      some ⟨1, some "Series", none, [6, 5], none, [2, 1]⟩ := by decide +kernel
  refine ⟨hperm, hfirst, hsecond, ?_⟩
  have hsame := order_decides_only_values s subscription hperm
  apply hsame.resolve_left
  -- That neither stages anything is ruled out by what the first stages.
  rintro ⟨hnone, -⟩
  rw [show e.evaluate subscription = none from hnone] at hfirst
  cases hfirst

end LedgerRules
