import LedgerRules.Proofs.Rules.Meaning

/-!
# Credit for changes

An engine names the rules to which a changeset is due. Here it is shown that these rules alone
would have led to the same changeset: a rule that is not credited, whether it applies to the
transaction or not, might as well be absent.

## Overview

- **Layer A**: what staging does to the list of credited rules, for one action and for the actions
  of one rule.
- **Layer B**: one rule, which leaves the changeset as it is or is credited.
- **Layer C**: all rules; two runs over different lists of rules, side by side.
-/

namespace LedgerRules

/-! ## Layer A: actions -/

namespace Changeset

variable {cs cs' : Changeset}

@[simp] theorem rules_credit (cs : Changeset) (rule : Ident) :
    (cs.credit rule).rules = if rule ∈ cs.rules then cs.rules else cs.rules ++ [rule] := by
  by_cases h : rule ∈ cs.rules <;> simp [credit, h]

theorem mem_rules_credit (cs : Changeset) (rule : Ident) : rule ∈ (cs.credit rule).rules := by
  rw [rules_credit]
  split
  · assumption
  · simp

theorem rules_stageName {name : String} (h : cs.stageName name = some cs') :
    cs'.rules = cs.rules := by
  unfold stageName at h
  split at h <;> cases h
  rfl

theorem rules_stageDescription {description : String}
    (h : cs.stageDescription description = some cs') : cs'.rules = cs.rules := by
  unfold stageDescription at h
  split at h <;> cases h
  rfl

theorem rules_stageCategory {category : Ident} (h : cs.stageCategory category = some cs') :
    cs'.rules = cs.rules := by
  unfold stageCategory at h
  split at h <;> cases h
  rfl

theorem rules_stageTransfer {link : TransferLink} (h : cs.stageTransfer link = some cs') :
    cs'.rules = cs.rules := by
  unfold stageTransfer at h
  split at h <;> cases h
  rfl

end Changeset

section Staging

variable (s : Snapshot) (t : Transaction) {cs cs' : Changeset}

/-- An action credits no rule. -/
theorem Action.rules_stage {a : Action} (h : a.stage s t cs = some cs') :
    cs'.rules = cs.rules := by
  -- Whatever part an action writes, it adds a value and leaves the credited rules.
  cases hpart : a.part with
  | name =>
    simp only [Action.stage, hpart] at h
    exact Changeset.rules_stageName h
  | description =>
    simp only [Action.stage, hpart] at h
    exact Changeset.rules_stageDescription h
  | category =>
    rw [Action.stage_category s t cs hpart] at h
    obtain ⟨category, -, h⟩ := Option.bind_eq_some_iff.mp h
    exact Changeset.rules_stageCategory h
  | transfer =>
    rw [Action.stage_transfer s t cs hpart] at h
    obtain ⟨link, -, h⟩ := Option.bind_eq_some_iff.mp h
    exact Changeset.rules_stageTransfer h

/-- The actions of a rule credit no rule, as the rule itself is credited after them. -/
theorem rules_stageActions (as : List Action) (cs : Changeset) (staged : Bool) :
    (stageActions s t as cs staged).1.rules = cs.rules := by
  -- On the actions; whether one of them is refused or not makes no difference here.
  induction as generalizing cs staged with
  | nil => rfl
  | cons a as ih =>
    rw [stageActions]
    split
    · rename_i cs' hstage
      rw [ih, Action.rules_stage s t hstage]
    · exact ih cs staged

/-- Where the flag stays down, every action was refused. -/
theorem stageActions_of_not_staged {as : List Action} {staged : Bool}
    (h : (stageActions s t as cs staged).2 = false) :
    staged = false ∧ (stageActions s t as cs staged).1 = cs := by
  induction as generalizing cs staged with
  | nil => exact ⟨h, rfl⟩
  | cons a as ih =>
    cases hstage : a.stage s t cs with
    | some cs' =>
      -- The flag is up from here on.
      simp only [stageActions, hstage] at h
      exact absurd (ih h).1 (by decide)
    | none =>
      simp only [stageActions, hstage] at h ⊢
      exact ih h

/-! ## Layer B: one rule -/

/-- **A rule leaves the changeset as it is, or is credited.** -/
theorem CompleteRule.stage_cases (cs : Changeset) (r : CompleteRule) :
    r.stage s t cs = cs ∨
      ∃ cs' : Changeset, cs'.rules = cs.rules ∧ r.stage s t cs = cs'.credit r.rule.id := by
  -- The flag says whether an action was accepted, and only then is the rule credited.
  have hrules := rules_stageActions s t r.actions cs false
  have hrefused (h : (stageActions s t r.actions cs false).2 = false) :=
    (stageActions_of_not_staged s t h).2
  unfold CompleteRule.stage
  split
  · split
    · rename_i cs' hstaged
      rw [hstaged] at hrules
      exact .inr ⟨cs', hrules, rfl⟩
    · rename_i cs' hstaged
      rw [hstaged] at hrefused
      exact .inl (hrefused rfl)
  · exact .inl rfl

/-- A rule that is not credited by the end of its turn has changed nothing. -/
theorem CompleteRule.stage_eq_self {r : CompleteRule}
    (h : r.rule.id ∉ (r.stage s t cs).rules) : r.stage s t cs = cs := by
  rcases r.stage_cases s t cs with hsame | ⟨cs', -, hcredited⟩
  · exact hsame
  · rw [hcredited] at h
    exact absurd (cs'.mem_rules_credit r.rule.id) h

/-- Credit is not taken away, and goes to the rule whose turn it is. -/
theorem CompleteRule.rules_stage (cs : Changeset) (r : CompleteRule) :
    (r.stage s t cs).rules = cs.rules ∨
      r.rule.id ∉ cs.rules ∧ (r.stage s t cs).rules = cs.rules ++ [r.rule.id] := by
  rcases r.stage_cases s t cs with hsame | ⟨cs', hrules, hcredited⟩
  · exact .inl (by rw [hsame])
  · rw [hcredited, Changeset.rules_credit, hrules]
    split
    · exact .inl rfl
    · rename_i hnew
      exact .inr ⟨hnew, rfl⟩

/-! ## Layer C: all rules -/

theorem prefix_rules_foldl (rules : List CompleteRule) (cs : Changeset) :
    cs.rules <+: (rules.foldl (CompleteRule.stage s t) cs).rules := by
  -- On the rules that come. Each leaves the list of credited rules or adds one at its end.
  induction rules generalizing cs with
  | nil => exact List.prefix_refl _
  | cons r rules ih =>
    refine List.IsPrefix.trans ?_ (ih (r.stage s t cs))
    rcases r.rules_stage s t cs with hsame | ⟨-, hnew⟩
    · exact hsame ▸ List.prefix_refl _
    · exact hnew ▸ List.prefix_append _ _

/-- Rules are credited in the order of evaluation. -/
theorem rules_foldl_sublist (rules : List CompleteRule) (cs : Changeset) :
    (rules.foldl (CompleteRule.stage s t) cs).rules.Sublist
      (cs.rules ++ rules.map (·.rule.id)) := by
  induction rules generalizing cs with
  | nil => simp
  | cons r rules ih =>
    refine (ih (r.stage s t cs)).trans ?_
    rw [List.map_cons, ← List.singleton_append, ← List.append_assoc]
    refine List.Sublist.append ?_ (List.Sublist.refl _)
    rcases r.rules_stage s t cs with hsame | ⟨-, hnew⟩
    · exact hsame ▸ List.sublist_append_left _ _
    · exact hnew ▸ List.Sublist.refl _

theorem nodup_rules_foldl (rules : List CompleteRule) {cs : Changeset} (hcs : cs.rules.Nodup) :
    (rules.foldl (CompleteRule.stage s t) cs).rules.Nodup := by
  induction rules generalizing cs with
  | nil => exact hcs
  | cons r rules ih =>
    refine ih ?_
    rcases r.rules_stage s t cs with hsame | ⟨hfresh, hnew⟩
    · rwa [hsame]
    · rw [hnew]
      exact List.nodup_append.mpr ⟨hcs, by simp, fun i hi j hj hij =>
        hfresh (List.mem_singleton.mp hj ▸ hij ▸ hi)⟩

/-- Where something is staged, a rule is credited. -/
theorem isEmpty_or_credited_foldl (rules : List CompleteRule) {cs : Changeset}
    (hcs : cs.isEmpty = true ∨ cs.rules ≠ []) :
    (rules.foldl (CompleteRule.stage s t) cs).isEmpty = true ∨
      (rules.foldl (CompleteRule.stage s t) cs).rules ≠ [] := by
  induction rules generalizing cs with
  | nil => exact hcs
  | cons r rules ih =>
    have hstep : (r.stage s t cs).isEmpty = true ∨ (r.stage s t cs).rules ≠ [] := by
      rcases r.stage_cases s t cs with hsame | ⟨cs', -, hcredited⟩
      · rwa [hsame]
      · rw [hcredited]
        exact .inr (List.ne_nil_of_mem (cs'.mem_rules_credit r.rule.id))
    exact ih hstep

/-- **Only credited rules count.** Rules may be left out in any number, as long as none is left out
    that is credited in the end. -/
theorem foldl_stage_filter_of_credited {keep : CompleteRule → Bool} (rules : List CompleteRule)
    {cs : Changeset}
    (hkeep : ∀ r ∈ rules,
      r.rule.id ∈ (rules.foldl (CompleteRule.stage s t) cs).rules → keep r = true) :
    (rules.filter keep).foldl (CompleteRule.stage s t) cs =
      rules.foldl (CompleteRule.stage s t) cs := by
  -- Both runs have the same changeset before each rule that is kept.
  induction rules generalizing cs with
  | nil => rfl
  | cons r rules ih =>
    have hrest : (rules.filter keep).foldl (CompleteRule.stage s t) (r.stage s t cs) =
        rules.foldl (CompleteRule.stage s t) (r.stage s t cs) :=
      ih fun q hq hcredited => hkeep q (List.mem_cons_of_mem _ hq) hcredited
    cases hr : keep r with
    | true => rw [List.filter_cons_of_pos hr, List.foldl_cons, List.foldl_cons, hrest]
    | false =>
      -- A rule that is left out is not credited, neither in its turn nor later.
      have huncredited : r.rule.id ∉ (r.stage s t cs).rules := by
        intro hmem
        have hlater := (prefix_rules_foldl s t rules (r.stage s t cs)).subset hmem
        rw [hkeep r List.mem_cons_self hlater] at hr
        cases hr
      rw [List.filter_cons_of_neg (by simp [hr]), List.foldl_cons, ← hrest,
        CompleteRule.stage_eq_self s t huncredited]

end Staging

namespace Engine

/-- The engine with the same snapshot that has only those of the rules that pass a test. -/
def keeping (e : Engine) (keep : CompleteRule → Bool) : Engine :=
  { e with rules := e.rules.filter keep }

variable {e : Engine} {t : Transaction} {cs : Changeset}

/-- What an engine returns is what staging its rules one after the other comes to. -/
theorem evaluate_eq_some_iff :
    e.evaluate t = some cs ↔
      e.rules.foldl (CompleteRule.stage e.toSnapshot t) (Changeset.empty t.id) = cs ∧
        cs.isEmpty = false := by
  -- What staging comes to is returned unless it is empty.
  simp only [evaluate]
  split
  · rename_i hnone
    constructor
    · exact fun h => nomatch h
    · rintro ⟨rfl, hsome⟩
      rw [hnone] at hsome
      cases hsome
  · rename_i hsome
    constructor
    · intro h
      cases h
      exact ⟨rfl, by simpa using hsome⟩
    · rintro ⟨rfl, -⟩
      rfl

/-- Leaving out rules that are not credited changes nothing in what is returned. -/
theorem evaluate_keeping (h : e.evaluate t = some cs) {keep : CompleteRule → Bool}
    (hkeep : ∀ r ∈ e.rules, r.rule.id ∈ cs.rules → keep r = true) :
    (e.keeping keep).evaluate t = some cs := by
  obtain ⟨hfold, hsome⟩ := evaluate_eq_some_iff.mp h
  have hsame : (e.rules.filter keep).foldl (CompleteRule.stage e.toSnapshot t)
      (Changeset.empty t.id) = cs := by
    rw [foldl_stage_filter_of_credited e.toSnapshot t e.rules (by rwa [hfold]), hfold]
  exact evaluate_eq_some_iff.mpr ⟨hsame, hsome⟩

end Engine

/-- **The credited rules suffice.** Where an engine returns a changeset, the engine with the same
    snapshot and only those rules, in the same order, whose identifiers are credited returns the
    same changeset. At least one rule is credited, none twice, and in the order of evaluation. -/
theorem credited_rules_suffice (e : Engine) (t : Transaction) {cs : Changeset}
    (h : e.evaluate t = some cs) :
    (e.keeping fun r => cs.rules.contains r.rule.id).evaluate t = some cs ∧
      cs.rules ≠ [] ∧ cs.rules.Nodup ∧ cs.rules.Sublist (e.rules.map (·.rule.id)) := by
  -- Four facts about one run through the rules, which starts from nothing.
  obtain ⟨hfold, hsome⟩ := Engine.evaluate_eq_some_iff.mp h
  refine ⟨?_, ?_, ?_, ?_⟩
  · exact Engine.evaluate_keeping h fun r _ hcredited => List.contains_iff_mem.mpr hcredited
  · have hcredited := isEmpty_or_credited_foldl e.toSnapshot t e.rules
      (show (Changeset.empty t.id).isEmpty = true ∨ _ from .inl rfl)
    rw [hfold, hsome] at hcredited
    exact hcredited.resolve_left (by decide)
  · have hnodup := nodup_rules_foldl e.toSnapshot t e.rules
      (show (Changeset.empty t.id).rules.Nodup from .nil)
    rwa [hfold] at hnodup
  · have hsublist := rules_foldl_sublist e.toSnapshot t e.rules (Changeset.empty t.id)
    rw [hfold] at hsublist
    exact hsublist

/-! ### Rules in each other's way -/

/-- The time of the example. -/
def noon : Instant := { Instant.midnight Date.epoch with hour := 12, hour_lt := by decide }

/-- A rule on transactions whose name holds a text. -/
def ruleOn (id : Ident) (literal : String) (actions : List Action) : CompleteRule :=
  ⟨⟨id, 1, "Rule", none, noon, .and, noon⟩, [⟨1, id, .name, .contains, literal⟩], actions⟩

/-- An engine with two rules under one identifier, a rule between them that comes too late with its
    name and has no category to give, a rule that does not apply, and one more that does. -/
def Engine.crowded : Engine where
  categories := [⟨5, 1, "Streams", noon⟩]
  accounts := []
  rules :=
    [ruleOn 1 "netflix" [⟨1, 1, .name, "Film"⟩],
      ruleOn 2 "flix" [⟨2, 2, .name, "Series"⟩, ⟨3, 2, .category, "6"⟩],
      ruleOn 1 "net" [⟨4, 1, .description, "Monthly"⟩],
      ruleOn 3 "rent" [⟨5, 3, .category, "5"⟩],
      ruleOn 4 "netflix" [⟨6, 4, .category, "5"⟩]]

/-- The transaction on which the engine is run. -/
def subscription : Transaction := ⟨1, 1, 1, "Netflix", none, Amount.zero, noon, [], noon⟩

/-- Of the rules that apply, the one that comes too late is not credited and not needed. -/
theorem credited_rules_suffice_crowded :
    Engine.crowded.evaluate subscription =
      some ⟨1, some "Film", some "Monthly", [5], none, [1, 4]⟩ ∧
    (Engine.crowded.keeping fun r => [1, 4].contains r.rule.id).evaluate subscription =
      some ⟨1, some "Film", some "Monthly", [5], none, [1, 4]⟩ := by
  have h : Engine.crowded.evaluate subscription =
      some ⟨1, some "Film", some "Monthly", [5], none, [1, 4]⟩ := by decide +kernel
  exact ⟨h, (credited_rules_suffice Engine.crowded subscription h).1⟩

end LedgerRules
