import LedgerRules.Proofs.Rules.Credit

/-!
# What rules see of a snapshot

Rules ask a snapshot only whether the user of a transaction owns a category or an account, and they
ask for accounts only where a condition or an action is about transfers. Snapshots that answer alike
are therefore the same to them. Two things may be left out of a snapshot for that reason: accounts
that no rule looks at, and whatever belongs to other users.

## Overview

- **Layer A**: snapshots that answer alike, for one condition, one action, one rule and all rules.
- **Layer B**: accounts that no rule looks at.
- **Layer C**: categories and accounts of other users.
-/

namespace LedgerRules

/-! ## Layer A: snapshots that answer alike -/

namespace CompleteRule

variable {r : CompleteRule}

theorem referencesTransfers_of_condition {c : Condition} (hc : c ∈ r.conditions)
    (h : c.subject = .transfer) : r.referencesTransfers = true := by
  rw [referencesTransfers, Bool.or_eq_true]
  exact .inl (List.any_eq_true.mpr ⟨c, hc, by simpa using h⟩)

theorem referencesTransfers_of_action {a : Action} (ha : a ∈ r.actions) (h : a.part = .transfer) :
    r.referencesTransfers = true := by
  rw [referencesTransfers, Bool.or_eq_true]
  exact .inr (List.any_eq_true.mpr ⟨a, ha, by simpa using h⟩)

end CompleteRule

section Alike

variable {s s' : Snapshot} {t : Transaction}
  (hcategories : s.ownsCategory t.user = s'.ownsCategory t.user)
include hcategories

/-- A condition asks about accounts only if it is about transfers. -/
theorem Condition.holds_congr {c : Condition}
    (haccounts : c.subject = .transfer → s.ownsAccount t.user = s'.ownsAccount t.user) :
    c.holds s t = c.holds s' t := by
  -- Only two of the subjects ask the snapshot at all.
  unfold holds
  cases hsubject : c.subject with
  | amount | name | description => rfl
  | category => simp only [hcategories]
  | transfer => simp only [haccounts hsubject]

/-- An action asks about accounts only if it stages a transfer. -/
theorem Action.stage_congr {a : Action}
    (haccounts : a.part = .transfer → s.ownsAccount t.user = s'.ownsAccount t.user)
    (cs : Changeset) : a.stage s t cs = a.stage s' t cs := by
  unfold stage
  cases hpart : a.part with
  | name | description => rfl
  | category => simp only [hcategories]
  | transfer => simp only [haccounts hpart]

theorem stageActions_congr {as : List Action}
    (haccounts : ∀ a ∈ as, a.part = .transfer → s.ownsAccount t.user = s'.ownsAccount t.user)
    (cs : Changeset) (staged : Bool) :
    stageActions s t as cs staged = stageActions s' t as cs staged := by
  -- On the actions; what has been staged so far is generalized, since it grows.
  induction as generalizing cs staged with
  | nil => rfl
  | cons a as ih =>
    have hfirst := Action.stage_congr hcategories (haccounts a List.mem_cons_self) cs
    have hrest := ih fun b hb => haccounts b (List.mem_cons_of_mem _ hb)
    simp only [stageActions, hfirst, hrest]

namespace CompleteRule

variable {r : CompleteRule}
  (haccounts : r.referencesTransfers = true → s.ownsAccount t.user = s'.ownsAccount t.user)
include haccounts

theorem covers_congr : r.covers s t = r.covers s' t := by
  -- Each condition is met over the one snapshot exactly if it is met over the other.
  have hholds : ∀ c ∈ r.conditions, c.holds s t = c.holds s' t := fun c hc =>
    Condition.holds_congr hcategories fun htransfer =>
      haccounts (referencesTransfers_of_condition hc htransfer)
  rw [Bool.eq_iff_iff, covers_iff, covers_iff]
  unfold Applies
  refine and_congr_right fun _ => and_congr_right fun _ => ?_
  -- The conditions are joined in the same way on both sides.
  cases r.rule.logic with
  | and => exact forall₂_congr fun c hc => by rw [hholds c hc]
  | or => exact exists_congr fun c => and_congr_right fun hc => by rw [hholds c hc]

/-- **One rule.** It stages the same over both snapshots, whatever has been staged before. -/
theorem stage_congr (cs : Changeset) : r.stage s t cs = r.stage s' t cs := by
  have hcovers := covers_congr hcategories haccounts
  have hactions : stageActions s t r.actions cs false = stageActions s' t r.actions cs false := by
    apply stageActions_congr hcategories
    intro a ha htransfer
    exact haccounts (referencesTransfers_of_action ha htransfer)
  rw [stage, stage, hcovers, hactions]

end CompleteRule

/-- **All rules.** An engine sees of its snapshot which categories the user of a transaction owns,
    and which accounts if one of its rules looks at transfers. -/
theorem Engine.evaluate_congr {rules : List CompleteRule}
    (haccounts : rules.any CompleteRule.referencesTransfers = true →
      s.ownsAccount t.user = s'.ownsAccount t.user) :
    ({ s with rules } : Engine).evaluate t = ({ s' with rules } : Engine).evaluate t := by
  have hfold : rules.foldl (CompleteRule.stage s t) (Changeset.empty t.id) =
      rules.foldl (CompleteRule.stage s' t) (Changeset.empty t.id) := by
    apply List.foldl_ext
    intro cs r hr
    apply CompleteRule.stage_congr hcategories
    intro htransfers
    -- One rule that looks at transfers is enough for the accounts to count.
    exact haccounts (List.any_eq_true.mpr ⟨r, hr, htransfers⟩)
  simp only [evaluate, hfold]

end Alike

/-! ## Layer B: accounts that no rule looks at -/

/-- **An engine whose rules do not look at transfers does not see accounts.** -/
theorem Engine.evaluate_accounts {t : Transaction} (accounts : List Account) (e : Engine)
    (h : e.rules.any CompleteRule.referencesTransfers = false) :
    ({ e with accounts } : Engine).evaluate t = e.evaluate t := by
  have hcategories : ({ e.toSnapshot with accounts } : Snapshot).ownsCategory t.user =
      e.toSnapshot.ownsCategory t.user := rfl
  apply evaluate_congr hcategories
  intro htransfers
  rw [h] at htransfers
  cases htransfers

/-! ## Layer C: entities of other users -/

namespace Snapshot

/-- What a snapshot knows of one user's categories and accounts. -/
def ownedBy (s : Snapshot) (user : Ident) : Snapshot where
  categories := s.categories.filter fun c => c.user == user
  accounts := s.accounts.filter fun a => a.user == user

/-- Among entries with distinct identifiers, none hides another that has a given owner. -/
private theorem any_find?_reverse_iff_mem {α : Type} {key owner : α → Ident} {xs : List α}
    (h : (xs.map key).Nodup) (i user : Ident) :
    ((xs.reverse.find? fun x => key x == i).any fun x => owner x == user) = true ↔
      ∃ x ∈ xs, key x = i ∧ owner x = user := by
  -- The index keeps the last entry of an identifier, so the list is searched from its end.
  have hreverse : (xs.reverse.map key).Nodup := by
    rwa [List.map_reverse, List.nodup_reverse]
  simp [Option.any_eq_true, find?_eq_some_iff_of_nodup hreverse, and_assoc]

/-- So entries of other owners may as well be left out. -/
private theorem any_find?_reverse_filter {α : Type} {key owner : α → Ident} {xs : List α}
    (h : (xs.map key).Nodup) (i user : Ident) :
    (((xs.filter fun x => owner x == user).reverse.find? fun x => key x == i).any
        fun x => owner x == user) =
      (xs.reverse.find? fun x => key x == i).any fun x => owner x == user := by
  have hfilter : ((xs.filter fun x => owner x == user).map key).Nodup :=
    (List.filter_sublist.map key).nodup h
  -- Both sides say that an entry of the user has the identifier.
  rw [Bool.eq_iff_iff, any_find?_reverse_iff_mem h, any_find?_reverse_iff_mem hfilter]
  refine exists_congr fun x => ?_
  rw [List.mem_filter, beq_iff_eq]
  exact ⟨fun ⟨⟨hx, _⟩, hrest⟩ => ⟨hx, hrest⟩, fun ⟨hx, hkey, howner⟩ => ⟨⟨hx, howner⟩, hkey, howner⟩⟩

variable {s : Snapshot} (user : Ident)

theorem ownsCategory_ownedBy (h : (s.categories.map (·.id)).Nodup) :
    (s.ownedBy user).ownsCategory user = s.ownsCategory user := by
  funext category
  exact any_find?_reverse_filter h category user

theorem ownsAccount_ownedBy (h : (s.accounts.map (·.id)).Nodup) :
    (s.ownedBy user).ownsAccount user = s.ownsAccount user := by
  funext account
  exact any_find?_reverse_filter h account user

end Snapshot

/-- **Entities of other users are inert.** Over a snapshot in which no identifier comes twice, rules
    of whatever owner stage the same for a transaction as over what is left of it without the
    categories and accounts that the transaction's user does not own, also where the transaction
    itself has such categories or is booked on such an account. -/
theorem foreign_entities_are_inert {s : Snapshot}
    (hcategories : (s.categories.map (·.id)).Nodup) (haccounts : (s.accounts.map (·.id)).Nodup)
    (rules : List CompleteRule) (t : Transaction) :
    ({ s.ownedBy t.user with rules } : Engine).evaluate t =
      ({ s with rules } : Engine).evaluate t := by
  apply Engine.evaluate_congr (Snapshot.ownsCategory_ownedBy t.user hcategories)
  intro _
  exact Snapshot.ownsAccount_ownedBy t.user haccounts

/-- Categories and accounts of two users. -/
def Snapshot.household : Snapshot where
  categories := [⟨5, 1, "Streams", noon⟩, ⟨6, 2, "Leisure", noon⟩, ⟨7, 2, "Travel", noon⟩]
  accounts := [⟨1, 2, "Joint", noon⟩, ⟨2, 1, "Savings", noon⟩, ⟨3, 2, "Shares", noon⟩]

/-- Rules that look for a category or an account of the second user, and one that asks for entities
    of the second user before it asks for entities of the first. -/
def householdRules : List CompleteRule :=
  [{ ruleOn 1 "" [⟨1, 1, .name, "Outing"⟩] with conditions := [⟨1, 1, .category, .equals, "6"⟩] },
    { ruleOn 2 "" [⟨2, 2, .name, "Shared"⟩] with conditions := [⟨2, 2, .transfer, .equals, "1"⟩] },
    ruleOn 3 "netflix"
      [⟨3, 3, .category, "7"⟩, ⟨4, 3, .category, "5"⟩, ⟨5, 3, .transfer, "3"⟩,
        ⟨6, 3, .transfer, "2"⟩]]

/-- A transaction of the first user that has a category and an account of the second. -/
def sharedSubscription : Transaction := { subscription with categories := [6] }

/-- The rules find nothing of the second user, and what they ask for afterwards is not lost. -/
theorem foreign_entities_are_inert_household :
    ({ Snapshot.household.ownedBy 1 with rules := householdRules } : Engine).evaluate
        sharedSubscription =
      ({ Snapshot.household with rules := householdRules } : Engine).evaluate sharedSubscription ∧
    ({ Snapshot.household with rules := householdRules } : Engine).evaluate sharedSubscription =
      some ⟨1, none, none, [5], some ⟨2, -Amount.zero⟩, [3]⟩ := by
  constructor
  · exact foreign_entities_are_inert (by decide) (by decide) householdRules sharedSubscription
  · decide +kernel

end LedgerRules
