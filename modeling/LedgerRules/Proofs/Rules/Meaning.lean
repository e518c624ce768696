import LedgerRules.Proofs.Distinct
import LedgerRules.Rules.Engine

/-!
# The meaning of a list of rules

An engine walks through its rules and their actions and collects what they stage, one value at a
time. Here the same changeset is read off the whole list of rules at once: the rules that apply,
the actions of those rules one after the other, and of these actions the first ones that count.

## Overview

- **Layer A**: what the snapshot knows, said of its lists.
- **Layer B**: which rules apply, and what a list of actions asks for.
- **Layer C**: which action supplies a value, and which rules are credited.
- **Layer D**: one action, the actions of one rule, and all rules, each as a step that keeps the
  changeset equal to what the actions so far ask for.
- **Layer E**: what a changeset can hold, whatever the rules.
-/

namespace LedgerRules

/-! ## Layer A: the snapshot -/

namespace Snapshot

/-- The category that a snapshot has under an identifier belongs to a user. Of two entries with
    one identifier the later counts. -/
def OwnsCategory (s : Snapshot) (user category : Ident) : Prop :=
  ∃ before c after, s.categories = before ++ c :: after ∧ c.id = category ∧ c.user = user ∧
    ∀ d ∈ after, d.id ≠ category

/-- The account that a snapshot has under an identifier belongs to a user. Of two entries with
    one identifier the later counts. -/
def OwnsAccount (s : Snapshot) (user account : Ident) : Prop :=
  ∃ before a after, s.accounts = before ++ a :: after ∧ a.id = account ∧ a.user = user ∧
    ∀ d ∈ after, d.id ≠ account

/-- Looking for a key from the end of a list finds the last entry that has it. -/
private theorem any_find?_reverse_iff {α : Type} (key owner : α → Ident) (xs : List α)
    (i user : Ident) :
    ((xs.reverse.find? fun x => key x == i).any fun x => owner x == user) = true ↔
      ∃ before x after, xs = before ++ x :: after ∧ key x = i ∧ owner x = user ∧
        ∀ y ∈ after, key y ≠ i := by
  rw [Option.any_eq_true]
  constructor
  · -- The first entry from the end splits the list, and turning it round puts it last.
    rintro ⟨x, hfind, howner⟩
    obtain ⟨hkey, before, after, hsplit, hbefore⟩ := List.find?_eq_some_iff_append.mp hfind
    refine ⟨after.reverse, x, before.reverse, ?_, by simpa using hkey, by simpa using howner, ?_⟩
    · have h := congrArg List.reverse hsplit
      simpa using h
    · intro y hy
      have h := hbefore y (List.mem_reverse.mp hy)
      simpa using h
  · rintro ⟨before, x, after, rfl, hkey, howner, hafter⟩
    refine ⟨x, List.find?_eq_some_iff_append.mpr ⟨by simpa using hkey, after.reverse,
      before.reverse, by simp, ?_⟩, by simpa using howner⟩
    intro y hy
    simpa using hafter y (List.mem_reverse.mp hy)

/-- The engine asks the index of categories; this says the same of the list it was built from. -/
theorem ownsCategory_iff (s : Snapshot) (user category : Ident) :
    s.ownsCategory user category = true ↔ s.OwnsCategory user category :=
  any_find?_reverse_iff Category.id Category.user s.categories category user

theorem ownsAccount_iff (s : Snapshot) (user account : Ident) :
    s.ownsAccount user account = true ↔ s.OwnsAccount user account :=
  any_find?_reverse_iff Account.id Account.user s.accounts account user

instance (s : Snapshot) (user category : Ident) : Decidable (s.OwnsCategory user category) :=
  decidable_of_iff _ (s.ownsCategory_iff user category)

instance (s : Snapshot) (user account : Ident) : Decidable (s.OwnsAccount user account) :=
  decidable_of_iff _ (s.ownsAccount_iff user account)

end Snapshot

/-! ## Layer B: the rules that apply and what their actions ask for -/

/-- A rule applies to a transaction that is not older than the rule's first moment if it has
    conditions, and all of them hold or, for a rule that joins them by *or*, one of them. -/
def CompleteRule.Applies (s : Snapshot) (t : Transaction) (r : CompleteRule) : Prop :=
  r.rule.effectiveFrom ≤ t.date ∧ r.conditions ≠ [] ∧
    match r.rule.logic with
    | .and => ∀ c ∈ r.conditions, c.holds s t = true
    | .or => ∃ c ∈ r.conditions, c.holds s t = true

theorem CompleteRule.covers_iff (s : Snapshot) (t : Transaction) (r : CompleteRule) :
    r.covers s t = true ↔ r.Applies s t := by
  unfold CompleteRule.covers CompleteRule.matches CompleteRule.Applies
  -- Without conditions a rule never applies, although all of none would hold.
  by_cases hnone : r.conditions = []
  · simp [hnone]
  · have hsome : r.conditions.isEmpty = false := by simpa using hnone
    cases hlogic : r.rule.logic <;> simp [hnone, hsome]

instance (s : Snapshot) (t : Transaction) (r : CompleteRule) : Decidable (r.Applies s t) :=
  decidable_of_iff _ (r.covers_iff s t)

namespace Action

/-- The category that an action asks for: its literal names a category of the transaction's user
    that the transaction does not have yet. -/
def newCategory? (s : Snapshot) (t : Transaction) (a : Action) : Option Ident :=
  if a.part = .category then
    (Ident.ofLiteral? a.literal).filter fun category =>
      decide (s.OwnsCategory t.user category ∧ category ∉ t.categories)
  else none

/-- The transfer that an action asks for: its literal names an account of the transaction's user
    on which the transaction is not booked, and the amount arrives there with the other sign. -/
def newTransfer? (s : Snapshot) (t : Transaction) (a : Action) : Option TransferLink :=
  if a.part = .transfer then
    ((Ident.ofLiteral? a.literal).filter fun account =>
      decide (s.OwnsAccount t.user account ∧ account ≠ t.account)).map fun account =>
        ⟨account, -t.amount⟩
  else none

/-- The literal of the first action that writes a part. -/
def firstLiteral (part : Part) (as : List Action) : Option String :=
  (as.find? fun a => a.part = part).map (·.literal)

/-- The categories that actions ask for, each where it is asked for first. -/
def newCategories (s : Snapshot) (t : Transaction) (as : List Action) : List Ident :=
  (as.filterMap (newCategory? s t)).eraseDups

/-- The first transfer that one of the actions asks for. -/
def firstTransfer (s : Snapshot) (t : Transaction) (as : List Action) : Option TransferLink :=
  as.findSome? (newTransfer? s t)

end Action

/-! ## Layer C: who supplies a value -/

/-- An action supplies a value if it is the first to ask for it: the first that writes the name or
    the description, the first that asks for its category, the first that asks for a transfer. -/
def Action.supplies (s : Snapshot) (t : Transaction) (earlier : List Action) (a : Action) : Bool :=
  match a.part with
  | .name => earlier.all fun b => b.part ≠ .name
  | .description => earlier.all fun b => b.part ≠ .description
  | .category => (a.newCategory? s t).any fun category =>
      earlier.all fun b => b.newCategory? s t ≠ some category
  | .transfer => (a.newTransfer? s t).isSome && earlier.all fun b => (b.newTransfer? s t).isNone

/-- A rule supplies a value if one of its own actions does, after the actions of earlier rules and
    the rule's own actions before it. -/
def CompleteRule.supplies (s : Snapshot) (t : Transaction) (earlier : List Action)
    (r : CompleteRule) : Bool :=
  r.actions.zipIdx.any fun (a, i) => a.supplies s t (earlier ++ r.actions.take i)

/-- The actions of rules, one after the other. -/
def joinedActions (rules : List CompleteRule) : List Action := rules.flatMap (·.actions)

/-- The rules that supply a value, each once and in order. -/
def suppliers (s : Snapshot) (t : Transaction) (rules : List CompleteRule) : List Ident :=
  ((rules.zipIdx.filter fun (r, i) => r.supplies s t (joinedActions (rules.take i))).map
    (·.1.rule.id)).eraseDups

/-- The changeset that actions ask for, credited to rules. -/
def Changeset.ofActions (s : Snapshot) (t : Transaction) (as : List Action) (rules : List Ident) :
    Changeset where
  transaction := t.id
  name := Action.firstLiteral .name as
  description := Action.firstLiteral .description as
  categories := Action.newCategories s t as
  transfer := Action.firstTransfer s t as
  rules := rules

/-! ## Layer D: step by step -/

namespace Action

variable (s : Snapshot) (t : Transaction)

/-- One more action supplies the literal only if none of those before writes the part. -/
theorem firstLiteral_concat (part : Part) (as : List Action) (a : Action) :
    firstLiteral part (as ++ [a]) =
      (firstLiteral part as).or (if a.part = part then some a.literal else none) := by
  by_cases h : a.part = part <;> cases hfind : as.find? (fun a => a.part = part) <;>
    simp [firstLiteral, hfind, h]

theorem firstLiteral_eq_none_iff (part : Part) (as : List Action) :
    firstLiteral part as = none ↔ ∀ b ∈ as, b.part ≠ part := by
  simp [firstLiteral]

/-- One more action adds its category at the end, if it asks for one that is new. -/
theorem newCategories_concat (as : List Action) (a : Action) :
    newCategories s t (as ++ [a]) =
      match a.newCategory? s t with
      | none => newCategories s t as
      | some category =>
        if (newCategories s t as).contains category then newCategories s t as
        else newCategories s t as ++ [category] := by
  unfold newCategories
  rw [List.filterMap_append]
  cases h : a.newCategory? s t with
  | none => simp [h]
  | some category =>
    simp only [List.filterMap_cons, h, List.filterMap_nil]
    exact eraseDups_concat _ category

theorem mem_newCategories_iff (as : List Action) (category : Ident) :
    category ∈ newCategories s t as ↔ ∃ b ∈ as, b.newCategory? s t = some category := by
  simp [newCategories]

/-- One more action supplies the transfer only if none of those before asks for one. -/
theorem firstTransfer_concat (as : List Action) (a : Action) :
    firstTransfer s t (as ++ [a]) = (firstTransfer s t as).or (a.newTransfer? s t) := by
  simp [firstTransfer]

theorem firstTransfer_eq_none_iff (as : List Action) :
    firstTransfer s t as = none ↔ ∀ b ∈ as, b.newTransfer? s t = none := by
  simp [firstTransfer]

theorem newCategory?_eq_none {a : Action} (h : a.part ≠ .category) :
    a.newCategory? s t = none := if_neg h

theorem newTransfer?_eq_none {a : Action} (h : a.part ≠ .transfer) :
    a.newTransfer? s t = none := if_neg h

/-- The guards that the engine checks before it stages a category are those of `newCategory?`. -/
theorem stage_category (cs : Changeset) {a : Action} (h : a.part = .category) :
    a.stage s t cs = (a.newCategory? s t).bind cs.stageCategory := by
  simp only [stage, h, newCategory?, if_true]
  cases Ident.ofLiteral? a.literal with
  | none => rfl
  | some category =>
    have howner := s.ownsCategory_iff t.user category
    by_cases hold : category ∈ t.categories <;>
      by_cases hown : s.OwnsCategory t.user category <;> simp_all [Option.filter_some]

/-- The guards that it checks before it stages a transfer are those of `newTransfer?`. -/
theorem stage_transfer (cs : Changeset) {a : Action} (h : a.part = .transfer) :
    a.stage s t cs = (a.newTransfer? s t).bind cs.stageTransfer := by
  simp only [stage, h, newTransfer?, if_true]
  cases Ident.ofLiteral? a.literal with
  | none => rfl
  | some account =>
    have howner := s.ownsAccount_iff t.user account
    by_cases hself : account = t.account <;>
      by_cases hown : s.OwnsAccount t.user account <;> simp_all [Option.filter_some]

/-- An action that writes a literal supplies it if none is there. -/
theorem supplies_name {a : Action} (as : List Action) (h : a.part = .name) :
    a.supplies s t as = (firstLiteral .name as).isNone := by
  rw [Bool.eq_iff_iff, Option.isNone_iff_eq_none, firstLiteral_eq_none_iff]
  simp [supplies, h]

@[inherit_doc supplies_name]
theorem supplies_description {a : Action} (as : List Action) (h : a.part = .description) :
    a.supplies s t as = (firstLiteral .description as).isNone := by
  rw [Bool.eq_iff_iff, Option.isNone_iff_eq_none, firstLiteral_eq_none_iff]
  simp [supplies, h]

/-- An action supplies the category that it asks for if no action before asked for it. -/
theorem supplies_category {a : Action} (as : List Action) (h : a.part = .category) :
    a.supplies s t as =
      (a.newCategory? s t).any fun category => !(newCategories s t as).contains category := by
  cases hnew : a.newCategory? s t with
  | none => simp [supplies, h, hnew]
  | some category =>
    rw [Bool.eq_iff_iff]
    simp [supplies, h, hnew, mem_newCategories_iff]

/-- An action supplies the transfer that it asks for if no action before asked for one. -/
theorem supplies_transfer {a : Action} (as : List Action) (h : a.part = .transfer) :
    a.supplies s t as = ((a.newTransfer? s t).isSome && (firstTransfer s t as).isNone) := by
  rw [Bool.eq_iff_iff, Bool.and_eq_true, Option.isNone_iff_eq_none, firstTransfer_eq_none_iff]
  simp [supplies, h]

/-- **One action.** After some actions the next one is staged exactly if it supplies a value, and
    then the changeset is the one that all of them ask for. -/
theorem stage_ofActions (as : List Action) (rules : List Ident) (a : Action) :
    a.stage s t (Changeset.ofActions s t as rules) =
      if a.supplies s t as then some (Changeset.ofActions s t (as ++ [a]) rules) else none := by
  -- In each case the other three parts stay as they are.
  cases hpart : a.part with
  | name =>
    rw [supplies_name s t as hpart]
    cases hname : firstLiteral .name as <;>
      simp [stage, hpart, Changeset.stageName, Changeset.ofActions, hname, firstLiteral_concat,
        newCategories_concat, firstTransfer_concat, newCategory?_eq_none, newTransfer?_eq_none]
  | description =>
    rw [supplies_description s t as hpart]
    cases hdescription : firstLiteral .description as <;>
      simp [stage, hpart, Changeset.stageDescription, Changeset.ofActions, hdescription,
        firstLiteral_concat, newCategories_concat, firstTransfer_concat, newCategory?_eq_none,
        newTransfer?_eq_none]
  | category =>
    rw [supplies_category s t as hpart, stage_category s t _ hpart]
    cases hnew : a.newCategory? s t with
    | none => rfl
    | some category =>
      -- The category is staged unless an earlier action asked for it.
      by_cases hold : category ∈ newCategories s t as <;>
        simp [Changeset.stageCategory, Changeset.ofActions, hold, hnew, hpart,
          firstLiteral_concat, newCategories_concat, firstTransfer_concat, newTransfer?_eq_none]
  | transfer =>
    rw [supplies_transfer s t as hpart, stage_transfer s t _ hpart]
    cases hnew : a.newTransfer? s t with
    | none => rfl
    | some link =>
      -- The first transfer stays, whatever comes after it.
      cases hold : firstTransfer s t as <;>
        simp [Changeset.stageTransfer, Changeset.ofActions, hold, hnew, hpart,
          firstLiteral_concat, newCategories_concat, firstTransfer_concat, newCategory?_eq_none]

/-- An action that supplies nothing asks for nothing new. -/
theorem ofActions_concat_of_not_supplies {as : List Action} {a : Action} (rules : List Ident)
    (h : a.supplies s t as = false) :
    Changeset.ofActions s t (as ++ [a]) rules = Changeset.ofActions s t as rules := by
  cases hpart : a.part with
  | name =>
    -- An action before has written the name, and the first to do so stays the first.
    rw [supplies_name s t as hpart, Option.isNone_eq_false_iff, Option.isSome_iff_exists] at h
    obtain ⟨literal, hname⟩ := h
    simp [Changeset.ofActions, hpart, hname, firstLiteral_concat, newCategories_concat,
      firstTransfer_concat, newCategory?_eq_none, newTransfer?_eq_none]
  | description =>
    rw [supplies_description s t as hpart, Option.isNone_eq_false_iff,
      Option.isSome_iff_exists] at h
    obtain ⟨literal, hdescription⟩ := h
    simp [Changeset.ofActions, hpart, hdescription, firstLiteral_concat, newCategories_concat,
      firstTransfer_concat, newCategory?_eq_none, newTransfer?_eq_none]
  | category =>
    rw [supplies_category s t as hpart] at h
    -- It asks for no category, or for one that is asked for already.
    cases hnew : a.newCategory? s t <;>
      simp_all [Changeset.ofActions, firstLiteral_concat, newCategories_concat,
        firstTransfer_concat, newTransfer?_eq_none]
  | transfer =>
    rw [supplies_transfer s t as hpart] at h
    -- It asks for no transfer, or a transfer is asked for already.
    cases hnew : a.newTransfer? s t <;> cases hold : firstTransfer s t as <;>
      simp_all [Changeset.ofActions, firstLiteral_concat, newCategories_concat,
        firstTransfer_concat, newCategory?_eq_none]

/-- The actions of a list that supply a value, counted from the actions before the list. -/
theorem any_supplies_cons (earlier : List Action) (a : Action) (as : List Action) :
    ((a :: as).zipIdx.any fun (b, i) => b.supplies s t (earlier ++ (a :: as).take i)) =
      (a.supplies s t earlier ||
        as.zipIdx.any fun (b, i) => b.supplies s t (earlier ++ [a] ++ as.take i)) := by
  rw [List.zipIdx_cons, List.zipIdx_succ, List.any_cons, List.any_map]
  simp [Function.comp_def]

/-- **The actions of one rule.** Staging them asks for all of them, and the flag is raised if one
    of them supplies a value. -/
theorem stageActions_ofActions (rules : List Ident) (as earlier : List Action) (staged : Bool) :
    stageActions s t as (Changeset.ofActions s t earlier rules) staged =
      (Changeset.ofActions s t (earlier ++ as) rules,
        staged || as.zipIdx.any fun (a, i) => a.supplies s t (earlier ++ as.take i)) := by
  -- What was staged before an action is what the actions before it ask for.
  induction as generalizing earlier staged with
  | nil => simp [stageActions]
  | cons a as ih =>
    rw [any_supplies_cons, stageActions, stage_ofActions]
    cases hsupplies : a.supplies s t earlier with
    -- The action supplies a value, so it is staged and raises the flag.
    | true =>
      rw [if_pos rfl]
      simp only
      rw [ih]
      simp
    -- It supplies none, so the changeset is the one that is asked for with it as well.
    | false =>
      rw [if_neg (by decide)]
      simp only
      rw [← ofActions_concat_of_not_supplies s t rules hsupplies, ih]
      simp

end Action

/-- One more rule is a supplier if one of its actions supplies a value, and it is listed once. -/
theorem suppliers_concat (s : Snapshot) (t : Transaction) (rules : List CompleteRule)
    (r : CompleteRule) :
    suppliers s t (rules ++ [r]) =
      if r.supplies s t (joinedActions rules) then
        if (suppliers s t rules).contains r.rule.id then suppliers s t rules
        else suppliers s t rules ++ [r.rule.id]
      else suppliers s t rules := by
  -- The earlier rules see the same rules before them as without the last one.
  have hearlier : (rules.zipIdx.filter fun (q, i) =>
        q.supplies s t (joinedActions ((rules ++ [r]).take i))) =
      rules.zipIdx.filter fun (q, i) => q.supplies s t (joinedActions (rules.take i)) := by
    refine List.filter_congr ?_
    rintro ⟨q, i⟩ hq
    simp only
    rw [List.take_append_of_le_length (Nat.le_of_lt (List.mem_zipIdx' hq).1)]
  unfold suppliers
  rw [List.zipIdx_append, List.filter_append, hearlier, List.map_append]
  have hall : (rules ++ [r]).take rules.length = rules := by simp
  cases hsupplies : r.supplies s t (joinedActions rules) with
  | true =>
    simp only [List.zipIdx_singleton, List.filter_cons, Nat.zero_add, hall, hsupplies, if_true,
      List.filter_nil, List.map_cons, List.map_nil]
    exact eraseDups_concat _ _
  | false =>
    simp [hall, hsupplies]

/-- **One rule** that applies: staging it after others asks for its actions too, and credits it if
    it supplies a value. -/
theorem CompleteRule.stage_ofActions (s : Snapshot) (t : Transaction) (rules : List CompleteRule)
    (r : CompleteRule) (happlies : r.Applies s t) :
    r.stage s t (Changeset.ofActions s t (joinedActions rules) (suppliers s t rules)) =
      Changeset.ofActions s t (joinedActions (rules ++ [r])) (suppliers s t (rules ++ [r])) := by
  have hcovers := (r.covers_iff s t).mpr happlies
  have hjoined : joinedActions (rules ++ [r]) = joinedActions rules ++ r.actions := by
    simp [joinedActions]
  -- The flag that staging raises is the one that makes the rule a supplier.
  have hflag : stageActions s t r.actions
      (Changeset.ofActions s t (joinedActions rules) (suppliers s t rules)) false =
        (Changeset.ofActions s t (joinedActions rules ++ r.actions) (suppliers s t rules),
          r.supplies s t (joinedActions rules)) := by
    rw [Action.stageActions_ofActions, Bool.false_or]
    rfl
  rw [CompleteRule.stage, if_pos hcovers, hflag, suppliers_concat, hjoined]
  -- A rule that shares its identifier with one that was credited is not listed again.
  cases r.supplies s t (joinedActions rules) with
  | true =>
    by_cases hcredited : r.rule.id ∈ suppliers s t rules <;>
      simp [Changeset.credit, Changeset.ofActions, hcredited]
  | false => rfl

/-- **All rules.** Staging rules that apply asks for all their actions and credits the suppliers. -/
theorem foldl_stage_ofActions (s : Snapshot) (t : Transaction) (rules : List CompleteRule)
    (happlies : ∀ r ∈ rules, r.Applies s t) :
    rules.foldl (CompleteRule.stage s t) (Changeset.empty t.id) =
      Changeset.ofActions s t (joinedActions rules) (suppliers s t rules) := by
  -- From the end: a rule is staged on what the rules before it ask for.
  induction rules using List.reverseRecOn with
  | nil => rfl
  | append_singleton rules r ih =>
    rw [List.foldl_append, ih fun q hq => happlies q (List.mem_append_left _ hq)]
    exact CompleteRule.stage_ofActions s t rules r (happlies r (by simp))

theorem CompleteRule.stage_of_not_applies {s : Snapshot} {t : Transaction} {r : CompleteRule}
    (h : ¬ r.Applies s t) (cs : Changeset) : r.stage s t cs = cs := by
  rw [CompleteRule.stage, if_neg fun hcovers => h ((r.covers_iff s t).mp hcovers)]

/-- An engine may as well go over those rules alone that apply. -/
theorem foldl_stage_filter (s : Snapshot) (t : Transaction) (rules : List CompleteRule)
    (cs : Changeset) :
    rules.foldl (CompleteRule.stage s t) cs =
      (rules.filter fun r => r.Applies s t).foldl (CompleteRule.stage s t) cs := by
  rw [List.foldl_filter]
  refine congrArg (fun step => rules.foldl step cs) ?_
  funext cs r
  by_cases h : r.Applies s t
  · simp [h]
  · simp [h, CompleteRule.stage_of_not_applies h]

/-- The changeset that the rules of an engine ask for on a transaction. -/
def Engine.asked (e : Engine) (t : Transaction) : Changeset :=
  let applying := e.rules.filter fun r => r.Applies e.toSnapshot t
  Changeset.ofActions e.toSnapshot t (joinedActions applying) (suppliers e.toSnapshot t applying)

/-- An engine returns what its rules ask for, unless that is nothing. -/
theorem Engine.evaluate_eq_asked (e : Engine) (t : Transaction) :
    e.evaluate t = if (e.asked t).isEmpty then none else some (e.asked t) := by
  have hfold : e.rules.foldl (CompleteRule.stage e.toSnapshot t) (Changeset.empty t.id) =
      e.asked t := by
    -- The rules that do not apply can be left out, and those that are left all apply.
    rw [foldl_stage_filter]
    refine foldl_stage_ofActions e.toSnapshot t _ ?_
    intro r hr
    simpa using (List.mem_filter.mp hr).2
  unfold Engine.evaluate
  rw [hfold]

/-- **What an engine stages.** Of the rules that apply, taken in order with their actions one after
    the other: the literal of the first action that writes the name, and of the first that writes
    the description; every category that is asked for, where it is asked for first; the first
    transfer that is asked for; and the rules that supply one of these values. Nothing is returned
    exactly where none of the four parts has a value. -/
theorem evaluate_eq_ofActions (e : Engine) (t : Transaction) :
    let applying := e.rules.filter fun r => r.Applies e.toSnapshot t
    let cs := Changeset.ofActions e.toSnapshot t (joinedActions applying)
      (suppliers e.toSnapshot t applying)
    (e.evaluate t = none ↔
      cs.name = none ∧ cs.description = none ∧ cs.categories = [] ∧ cs.transfer = none) ∧
    (e.evaluate t ≠ none → e.evaluate t = some cs) := by
  intro applying cs
  have hempty : cs.isEmpty = true ↔
      cs.name = none ∧ cs.description = none ∧ cs.categories = [] ∧ cs.transfer = none := by
    simp [Changeset.isEmpty, and_assoc]
  have heval : e.evaluate t = if cs.isEmpty then none else some cs := e.evaluate_eq_asked t
  rw [heval]
  by_cases h : cs.isEmpty = true
  · simp [h, hempty.mp h]
  · simp [h, ← hempty]

/-! ## Layer E: what a changeset can hold -/

namespace Engine

variable {e : Engine} {t : Transaction} {cs : Changeset}

theorem eq_asked_of_evaluate (h : e.evaluate t = some cs) : cs = e.asked t := by
  rw [evaluate_eq_asked] at h
  split at h
  · cases h
  · exact (Option.some.inj h).symm

theorem transaction_of_evaluate (h : e.evaluate t = some cs) : cs.transaction = t.id := by
  rw [eq_asked_of_evaluate h]
  rfl

/-- A rule that is credited applies to the transaction. -/
theorem rule_of_evaluate (h : e.evaluate t = some cs) {rule : Ident} (hmem : rule ∈ cs.rules) :
    ∃ r ∈ e.rules, r.rule.id = rule ∧ r.Applies e.toSnapshot t := by
  rw [eq_asked_of_evaluate h] at hmem
  obtain ⟨⟨r, i⟩, hr, rfl⟩ := List.mem_map.mp (List.mem_eraseDups.mp hmem)
  -- The suppliers are found among the rules that apply.
  have happlying := List.fst_mem_of_mem_zipIdx (List.mem_filter.mp hr).1
  obtain ⟨hrule, happlies⟩ := List.mem_filter.mp happlying
  exact ⟨r, hrule, rfl, of_decide_eq_true happlies⟩

/-- A staged category belongs to the transaction's user, and the transaction does not have it. -/
theorem category_of_evaluate (h : e.evaluate t = some cs) {category : Ident}
    (hmem : category ∈ cs.categories) :
    e.OwnsCategory t.user category ∧ category ∉ t.categories := by
  rw [eq_asked_of_evaluate h] at hmem
  obtain ⟨a, -, ha⟩ := (Action.mem_newCategories_iff _ _ _ _).mp hmem
  -- The action was asked only because its category passed both guards.
  unfold Action.newCategory? at ha
  split at ha
  · exact of_decide_eq_true (Option.filter_eq_some_iff.mp ha).2
  · cases ha

theorem nodup_categories_of_evaluate (h : e.evaluate t = some cs) : cs.categories.Nodup := by
  rw [eq_asked_of_evaluate h]
  exact nodup_eraseDups _

/-- A staged transfer leads to another account of the transaction's user, where the amount arrives
    with the other sign. -/
theorem transfer_of_evaluate (h : e.evaluate t = some cs) {link : TransferLink}
    (hlink : cs.transfer = some link) :
    e.OwnsAccount t.user link.account ∧ link.account ≠ t.account ∧ link.amount = -t.amount := by
  rw [eq_asked_of_evaluate h] at hlink
  obtain ⟨a, -, ha⟩ := List.exists_of_findSome?_eq_some hlink
  unfold Action.newTransfer? at ha
  split at ha
  · obtain ⟨account, haccount, rfl⟩ := Option.map_eq_some_iff.mp ha
    have hown := of_decide_eq_true (Option.filter_eq_some_iff.mp haccount).2
    exact ⟨hown.1, hown.2, rfl⟩
  · cases ha

end Engine

end LedgerRules
