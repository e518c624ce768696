import LedgerRules.Proofs.Rules.Snapshot
import LedgerRules.Proofs.Run.Plan

/-!
# What a run starts from

Before a run looks at transactions it collects its rules with their conditions and actions, and
then the snapshot of categories and accounts. In a ledger where all of that can be read, it ends up
with exactly the resolved rules and the user's snapshot. Accounts that no rule looks at are not
read, and nothing depends on them.

## Overview

- **Layer A**: the rules and the engine of a run.
- **Layer B**: a run that does not read accounts beside one that does.
- **Layer C**: a run once it has its rules and its engine.
-/

namespace LedgerRules

/-! ## Layer A: the rules and the engine -/

/-- Two engines that stage the same for every transaction. -/
def Engine.Agrees (e f : Engine) : Prop := ∀ t, e.evaluate t = f.evaluate t

/-- The engine for rules that knows no accounts where no rule looks at transfers. -/
def Engine.sparing (s : Snapshot) (rules : List CompleteRule) : Engine where
  categories := s.categories
  accounts := if rules.any CompleteRule.referencesTransfers then s.accounts else []
  rules := rules

/-- The accounts that are left out are not looked at. -/
theorem Engine.agrees_sparing (s : Snapshot) (rules : List CompleteRule) :
    (sparing s rules).Agrees { s with rules } := by
  intro t
  unfold sparing
  -- Either the accounts are there as before, or no rule looks at them.
  cases htransfers : rules.any CompleteRule.referencesTransfers with
  | true => rfl
  | false => exact evaluate_accounts [] { s with rules } htransfers

/-- The engine that a run builds stages what its rules stage over the user's whole snapshot. -/
theorem Ledger.exists_engine {l : Ledger} {now : Instant} {user : Ident} {snapshot : Snapshot}
    (h : l.snapshot now user = .ok snapshot) (rules : List CompleteRule) :
    ∃ e, l.engine now user rules = .ok e ∧ e.Agrees { snapshot with rules } := by
  refine ⟨Engine.sparing snapshot rules, ?_, Engine.agrees_sparing snapshot rules⟩
  obtain ⟨categories, hcategories, h⟩ := bind_eq_ok_iff.mp h
  obtain ⟨accounts, haccounts, h⟩ := bind_eq_ok_iff.mp h
  cases h
  -- The accounts are read only if a rule looks at transfers.
  unfold engine Engine.sparing
  cases rules.any CompleteRule.referencesTransfers with
  | true =>
    rw [hcategories]
    simp only [if_true, haccounts]
    rfl
  | false =>
    rw [hcategories]
    rfl

namespace Run

section

variable {σ : Schedule} (hσ : σ.Alone) (hsafe : σ.Safe)
  (hserved : ∀ es c, c.subject? = none → (σ es c).fate = .served)
  {now : Instant} {l : Ledger} {user : Ident}
include hσ hsafe hserved

/-- **The working set of a run is the list of resolved rules.** -/
theorem finds_workingSet {named : Option (List Ident)} {rules : List CompleteRule}
    (h : l.resolve now user named = .ok rules) :
    Finds σ l (workingSet ⟨now, σ⟩ user named) rules := by
  refine (follows_workingSet hσ hsafe named).finds h (fun c hc => ?_) hserved
  simp [Ledger.area_of_mem_resolutionCalls hc]

/-- **The engine of a run** stages what the resolved rules stage over the user's whole snapshot. -/
theorem finds_engineFor {snapshot : Snapshot} (h : l.snapshot now user = .ok snapshot)
    (rules : List CompleteRule) :
    ∃ e : Engine, Finds σ l (engineFor ⟨now, σ⟩ user rules) e ∧
      e.Agrees { snapshot with rules } := by
  obtain ⟨e, hengine, hagrees⟩ := Ledger.exists_engine h rules
  exact ⟨e, (follows_engineFor hσ hsafe rules).finds hengine
    (fun c hc => Ledger.area_of_mem_snapshotCalls hc) hserved, hagrees⟩

end

/-! ## Layer B: accounts that are not read -/

/-- The engine for rules, with the accounts read whether or not a rule looks at them. -/
def wholeEngineFor (env : Surroundings) (user : Ident) (rules : List CompleteRule) :
    Run Engine := do
  let categories ← perform env (.categories user)
  let accounts ← perform env (.accounts user)
  pure { categories, accounts, rules }

/-- Where all can be read, a run reads no less than its rules look at. -/
theorem engineFor_eq_sparing {env : Surroundings} {user : Ident} {rules : List CompleteRule}
    {w w₁ : World} {whole : Engine} (h : wholeEngineFor env user rules w = .ok whole w₁) :
    whole.rules = rules ∧ ∃ w',
      engineFor env user rules w = .ok (Engine.sparing whole.toSnapshot rules) w' := by
  -- Both lists were read in the same world, the accounts after the categories.
  obtain ⟨categories, w', hcategories, h⟩ := exists_of_bind_eq_ok h
  obtain ⟨accounts, w'', haccounts, h⟩ := exists_of_bind_eq_ok h
  cases h
  refine ⟨rfl, ?_⟩
  unfold Engine.sparing
  rw [engineFor, bind_of_ok hcategories]
  cases rules.any CompleteRule.referencesTransfers with
  | true => exact ⟨_, bind_of_ok haccounts⟩
  | false => exact ⟨_, rfl⟩

end Run

/-- **Accounts that are not read are not missed.** Over any categories and accounts, an engine that
    knows no accounts where no rule looks at transfers stages for every transaction what the engine
    with all of them stages. It is this engine that a run builds from the rules: whatever surrounds
    the run, where categories and accounts could both be read, it comes to the one that stages the
    same as if the accounts had been read in any case. -/
theorem unread_accounts_are_not_missed (rules : List CompleteRule) :
    (∀ (s : Snapshot) (t : Transaction),
      (Engine.sparing s rules).evaluate t = ({ s with rules } : Engine).evaluate t) ∧
    ∀ (env : Surroundings) (user : Ident) (w w₁ : World) (whole : Engine),
      Run.wholeEngineFor env user rules w = .ok whole w₁ →
        ∃ w', Run.engineFor env user rules w =
            .ok (Engine.sparing whole.toSnapshot rules) w' ∧
          ∀ t, (Engine.sparing whole.toSnapshot rules).evaluate t = whole.evaluate t := by
  refine ⟨fun s => Engine.agrees_sparing s rules, ?_⟩
  intro env user w w₁ whole hwhole
  obtain ⟨hrules, w', hsparing⟩ := Run.engineFor_eq_sparing hwhole
  refine ⟨w', hsparing, fun t => ?_⟩
  have hagrees : (Engine.sparing whole.toSnapshot rules).Agrees { whole.toSnapshot with rules } :=
    Engine.agrees_sparing whole.toSnapshot rules
  -- The engine with all accounts has the same rules, so the two are the engines above.
  rw [hagrees t, ← hrules]

/-- The rule of the small ledger does not look at transfers. A run does without the account, and
    its engine stages the same. -/
theorem unread_accounts_are_not_missed_streaming :
    ∃ e w whole w₁,
      Run.engineFor ⟨Ledger.dawn, .calm⟩ 1 [Ledger.streamRule] ⟨Ledger.streaming, none, []⟩ =
        .ok e w ∧
      Run.wholeEngineFor ⟨Ledger.dawn, .calm⟩ 1 [Ledger.streamRule] ⟨Ledger.streaming, none, []⟩ =
        .ok whole w₁ ∧
      e.accounts = [] ∧ whole.accounts = [⟨1, 1, "Checking", Ledger.dawn⟩] ∧
      ∀ t, e.evaluate t = whole.evaluate t := by
  obtain ⟨-, hsparing⟩ := unread_accounts_are_not_missed [Ledger.streamRule]
  have haccounts : (Run.outcomeOf (Run.wholeEngineFor ⟨Ledger.dawn, .calm⟩ 1 [Ledger.streamRule]
      ⟨Ledger.streaming, none, []⟩)).toOption.map (·.accounts) =
        some [⟨1, 1, "Checking", Ledger.dawn⟩] := by
    decide +kernel
  cases hwhole : Run.wholeEngineFor ⟨Ledger.dawn, .calm⟩ 1 [Ledger.streamRule]
      ⟨Ledger.streaming, none, []⟩ with
  | error stop w₁ =>
    rw [hwhole] at haccounts
    cases haccounts
  | ok whole w₁ =>
    rw [hwhole] at haccounts
    obtain ⟨w, hengine, hsame⟩ := hsparing _ _ _ _ _ hwhole
    exact ⟨_, w, whole, w₁, hengine, rfl, rfl, Option.some.inj haccounts, hsame⟩

namespace Run

/-! ## Layer C: after the setup -/

/-- A run that finds its rules and, if there are any, builds the engine and goes over transactions
    in some way. -/
def prepared (env : Surroundings) (user : Ident) (named : Option (List Ident))
    (scan : Engine → Summary → Run Summary) : Run Summary := do
  let rules ← workingSet env user named
  if rules.isEmpty then pure Summary.empty
  else
    let engine ← engineFor env user rules
    scan engine { Summary.empty with totalRules := UInt64.ofNat rules.length }

theorem execute_eq_prepared (env : Surroundings) (settings : Settings) (user : Ident)
    (request : Request) :
    execute env settings user request = prepared env user request.rules fun engine sum =>
      processRequest env settings user engine request sum :=
  rfl

/-- With rules, a run comes to go over transactions. -/
theorem prepared_eq {env : Surroundings} {named : Option (List Ident)} {rules : List CompleteRule}
    {engine : Engine} {w w₁ w₂ : World} (hrules : workingSet env user named w = .ok rules w₁)
    (hsome : rules ≠ []) (hengine : engineFor env user rules w₁ = .ok engine w₂)
    (scan : Engine → Summary → Run Summary) :
    prepared env user named scan w =
      scan engine { Summary.empty with totalRules := UInt64.ofNat rules.length } w₂ := by
  have hempty : rules.isEmpty = false := by simpa using hsome
  unfold prepared
  rw [bind_of_ok hrules]
  simp only [hempty, Bool.false_eq_true, if_false]
  rw [bind_of_ok hengine]

end Run

end LedgerRules
