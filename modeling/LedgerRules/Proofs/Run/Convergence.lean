import LedgerRules.Proofs.Run.Rerun
import Mathlib.Data.List.Count
import Mathlib.Logic.Function.Iterate

/-!
# Runs that are repeated

A category that one run adds can bring rules to apply in the next run, which may add further
categories and link another transfer. Where no rule writes a name or a description this ends: only
categories make a difference to the rules, no category is ever taken away, and a row that gets none
is settled from then on.

## Overview

- **Layer A**: steps that come to rest.
- **Layer B**: the categories that a row does not have.
- **Layer C**: one run either adds a category to a row or settles it.
- **Layer D**: one run after another.
-/

namespace LedgerRules

/-! ## Layer A: coming to rest -/

/-- Let every step make a measure smaller or else be the last one that changes anything. After more
    steps than the measure was at first nothing changes any more. -/
theorem iterate_settles {α : Type} {f : α → α} {P : α → Prop} {size : α → Nat}
    (hP : ∀ x, P x → P (f x)) (hstep : ∀ x, P x → size (f x) < size x ∨ f (f x) = f x) {n : Nat}
    {x : α} (hx : P x) (hn : size x < n) : f (f^[n] x) = f^[n] x := by
  induction n generalizing x with
  | zero => exact absurd hn (Nat.not_lt_zero _)
  | succ n ih =>
    rw [Function.iterate_succ_apply]
    rcases hstep x hx with hless | hrest
    · exact ih (hP x hx) (Nat.lt_of_lt_of_le hless (Nat.le_of_lt_succ hn))
    · -- The first step was the last one, so all others stay where it has led.
      rw [Function.iterate_fixed hrest n]
      exact hrest

/-! ## Layer B: missing categories -/

/-- If one predicate implies another and some element has only the second, it holds of fewer. -/
theorem countP_lt_countP {α : Type} {p q : α → Bool} {xs : List α}
    (himp : ∀ x ∈ xs, p x = true → q x = true) {x : α} (hx : x ∈ xs) (hq : q x = true)
    (hp : p x = false) : xs.countP p < xs.countP q := by
  -- Among the elements with `q`, those with `p` are not all.
  have hboth : xs.countP p = (xs.filter q).countP p := by
    rw [List.countP_filter]
    refine List.countP_congr fun y hy => ?_
    rw [Bool.and_eq_true]
    exact ⟨fun h => ⟨h, himp y hy h⟩, fun h => h.1⟩
  rw [hboth, List.countP_eq_length_filter (p := q)]
  exact List.countP_lt_length_iff.mpr ⟨x, List.mem_filter.mpr ⟨hx, hq⟩, hp⟩

namespace Ledger

/-- The number of categories of a user. -/
def categoryCount (l : Ledger) (user : Ident) : Nat :=
  l.categories.entries.countP fun e => e.2.user == user

/-- The number of categories of a user that are not on a row. -/
def missing (l : Ledger) (user : Ident) (row : TransactionRow) : Nat :=
  l.categories.entries.countP fun e => e.2.user == user && !row.categories.contains e.1

variable {l : Ledger} {user category : Ident} {row row' : TransactionRow}

theorem missing_le_categoryCount (l : Ledger) (user : Ident) (row : TransactionRow) :
    l.missing user row ≤ l.categoryCount user :=
  List.countP_mono_left fun _ _ h => (Bool.and_eq_true _ _ ▸ h).1

/-- One more category on a row is one less to add. -/
theorem missing_lt (hsubset : row.categories ⊆ row'.categories) {entry : NamedRow}
    (hentry : l.categories.get? category = some entry) (howner : entry.user = user)
    (hnew : category ∉ row.categories) (hadded : category ∈ row'.categories) :
    l.missing user row' < l.missing user row := by
  -- The category that was added was counted before and is not counted any more.
  refine countP_lt_countP (x := (category, entry)) ?_ (Table.get?_eq_some_iff.mp hentry) ?_ ?_
  · intro e _ h
    simp only [Bool.and_eq_true, Bool.not_eq_true', List.contains_eq_mem,
      decide_eq_false_iff_not] at h ⊢
    exact ⟨h.1, fun hmem => h.2 (hsubset hmem)⟩
  · simp [howner, hnew]
  · simp [hadded]

end Ledger

/-! ## Layer C: one run -/

namespace Pass

variable {p : Pass} {l : Ledger} {id : Ident} {row : TransactionRow}

/-- What is asked for of a user's transaction is a category of the user that it does not have. -/
theorem category_of_asked {e : Engine} {t : Transaction} {category : Ident}
    (h : category ∈ (e.asked t).categories) :
    e.OwnsCategory t.user category ∧ category ∉ t.categories := by
  have hsome : (e.asked t).isEmpty = false := by
    -- A changeset with a category is not empty, so evaluation hands it on as it is.
    have hne : (e.asked t).categories.isEmpty = false := by
      cases hcategories : (e.asked t).categories with
      | nil => simp [hcategories] at h
      | cons => rfl
    simp [Changeset.isEmpty, hne]
  have hevaluate : e.evaluate t = some (e.asked t) := by
    rw [Engine.evaluate_eq_asked, hsome]
    rfl
  exact Engine.category_of_evaluate hevaluate h

/-- **A row gets a category or is settled**, if the rules write no text. -/
theorem missing_settle_lt_or {snapshot : Snapshot}
    (hsnapshot : l.snapshot p.now p.user = .ok snapshot)
    (hengine : p.engine.toSnapshot = snapshot)
    (hparts : ∀ r ∈ p.engine.rules, ∀ a ∈ r.actions, a.part ≠ .name ∧ a.part ≠ .description)
    (hrow : Ledger.SoundTransaction l.accounts l.categories row) (huser : row.user = p.user)
    (id : Ident) :
    l.missing p.user (p.settle id row) < l.missing p.user row ∨
      p.settle id (p.settle id row) = p.settle id row := by
  obtain ⟨t, hread⟩ : ∃ t, Ledger.readTransaction p.now id row = .ok t := hrow.exists_read
  obtain ⟨-, htuser, -, -, -, -, htcategories⟩ := Ledger.fields_of_readTransaction hread
  -- If no category is added, what else is written settles the row at once.
  cases hcategories : (p.engine.asked t).categories with
  | nil => exact .inr (settle_settle_of_no_category hread hparts hcategories)
  | cons category rest =>
    -- Otherwise the first of them is new on the row and exists in the ledger.
    have hasked : category ∈ (p.engine.asked t).categories := by simp [hcategories]
    obtain ⟨howns, hnew⟩ := category_of_asked hasked
    rw [hengine, htuser, huser] at howns
    rw [htcategories] at hnew
    obtain ⟨entry, hentry, howner⟩ := Ledger.get?_of_ownsCategory hsnapshot howns
    -- The categories that are asked for come after the old ones.
    have hsettled : (p.settle id row).categories =
        row.categories ++ (p.engine.asked t).categories := by
      rw [settle_eq_revised hread]
      rfl
    refine .inl (Ledger.missing_lt ?_ hentry howner hnew ?_)
    · rw [hsettled]
      exact List.subset_append_left _ _
    · rw [hsettled]
      exact List.mem_append_right _ hasked

/-- The same for a row of anybody, which a run leaves alone unless it is asked for. -/
theorem missing_passOver_lt_or {snapshot : Snapshot}
    (hsnapshot : l.snapshot p.now p.user = .ok snapshot)
    (hengine : p.engine.toSnapshot = snapshot)
    (hparts : ∀ r ∈ p.engine.rules, ∀ a ∈ r.actions, a.part ≠ .name ∧ a.part ≠ .description)
    (hrow : Ledger.SoundTransaction l.accounts l.categories row) (request : Request) :
    l.missing p.user (p.passOver request id row) < l.missing p.user row ∨
      p.passOver request id (p.passOver request id row) = p.passOver request id row := by
  -- A row that is not asked for, or is another user's, stays as it is in every run.
  by_cases hasked : request.Covers id ∧ row.user = p.user
  · rcases missing_settle_lt_or hsnapshot hengine hparts hrow hasked.2 id with hless | hrest
    · refine .inl ?_
      rwa [passOver, if_pos hasked]
    · exact .inr (passOver_passOver fun _ _ => hrest)
  · refine .inr ?_
    simp [passOver, hasked]

end Pass

/-! ## Layer D: run after run -/

namespace Ledger

/-- The ledger after some runs with the same request, each in its own surroundings and with its own
    flag. -/
def afterRuns (l : Ledger) (env : Nat → Surroundings) (flag : Nat → Option Bool)
    (settings : Settings) (user : Ident) (request : Request) : Nat → Ledger
  | 0 => l
  | n + 1 =>
    let before := l.afterRuns env flag settings user request n
    (Run.worldOf (Run.execute (env n) settings user request ⟨before, flag n, []⟩)).ledger

end Ledger

section

variable {p : Pass} {snapshot : Snapshot} {l : Ledger} {request : Request}
  {rules : List CompleteRule}

/-- What runs make of a row that can be in the ledger can be in it, too. -/
theorem Pass.Ready.iterate_row (h : p.Ready l) {row : TransactionRow}
    (hrow : Ledger.SoundTransaction l.accounts l.categories row) (request : Request) (id : Ident)
    (n : Nat) :
    Ledger.SoundTransaction l.accounts l.categories ((p.passOver request id)^[n] row) := by
  -- On the number of runs, the last of them taken off.
  induction n with
  | zero => exact hrow
  | succ n ih =>
    rw [Function.iterate_succ_apply']
    exact h.passOver_row ih request id

/-- The ledger whose rows some runs have gone over. -/
def Pass.passed (p : Pass) (l : Ledger) (request : Request) (n : Nat) : Ledger :=
  l.revise fun id row => (p.passOver request id)^[n] row

theorem Pass.Ready.passed (h : p.Ready l) (request : Request) (n : Nat) :
    (p.passed l request n).Sound :=
  h.sound.revise fun e he => h.iterate_row (h.sound.transactions e he) request e.1 n

theorem Pass.passed_succ (p : Pass) (l : Ledger) (request : Request) (n : Nat) :
    p.passed l request (n + 1) = (p.passed l request n).revise (p.passOver request) := by
  rw [passed, passed, Ledger.revise_revise]
  exact Ledger.revise_congr fun e _ => Function.iterate_succ_apply' _ _ _

variable (hready : p.Ready l) (hsnapshot : l.snapshot p.now p.user = .ok snapshot)
  (hengine : p.engine = { snapshot with rules })
include hready hsnapshot

/-- Runs leave the snapshot as it was, and the clock does not change it. -/
theorem Pass.Ready.snapshot_passed (request : Request) (n : Nat) (now : Instant) :
    (p.passed l request n).snapshot now p.user = .ok snapshot := by
  rw [(hready.passed request n).snapshot_eq now p.now]
  exact hsnapshot

include hengine

/-- After more runs than the user has categories a row is settled. -/
theorem Pass.Ready.passOver_iterate
    (hparts : ∀ r ∈ rules, ∀ a ∈ r.actions, a.part ≠ .name ∧ a.part ≠ .description)
    {row : TransactionRow} (hrow : Ledger.SoundTransaction l.accounts l.categories row)
    (request : Request) (id : Ident) {n : Nat} (hn : l.categoryCount p.user < n) :
    p.passOver request id ((p.passOver request id)^[n] row) = (p.passOver request id)^[n] row := by
  -- The measure is what the row lacks of the user's categories, which is no more than there are.
  refine iterate_settles (P := Ledger.SoundTransaction l.accounts l.categories)
    (fun row hrow => hready.passOver_row hrow request id) (fun row hrow => ?_) hrow
    (Nat.lt_of_le_of_lt (l.missing_le_categoryCount p.user row) hn)
  refine Pass.missing_passOver_lt_or hsnapshot (by rw [hengine]) ?_ hrow request
  rw [hengine]
  exact hparts

variable {env : Surroundings} {flag : Option Bool} (henv : env.schedule.Undisturbed flag)
  (hrules : l.resolve env.now p.user request.rules = .ok rules)
include henv hrules

/-- **One more run** goes over the rows once more. -/
theorem exists_execute_passed (n : Nat) :
    ∃ s w, Run.execute env p.settings p.user request ⟨p.passed l request n, flag, []⟩ = .ok s w ∧
      w.ledger = p.passed l request (n + 1) := by
  have hsound := hready.passed request n
  -- Rules hang on no transaction, so they are resolved as in the first ledger.
  have hrules' : (p.passed l request n).resolve env.now p.user request.rules = .ok rules := hrules
  obtain ⟨s, w, hrun, hledger, -⟩ := exists_execute_undisturbed hsound henv hrules'
    (hready.snapshot_passed hsnapshot request n env.now) p.settings
  refine ⟨s, w, hrun, ?_⟩
  rw [hledger, Pass.passed_succ, ← hengine]
  refine Ledger.revise_congr fun e he => ?_
  exact Pass.passOver_at (hsound.transactions e he) env.now request e.1

/-- One more run after more runs than the user has categories finds all rows settled. -/
theorem exists_execute_passed_of_lt
    (hparts : ∀ r ∈ rules, ∀ a ∈ r.actions, a.part ≠ .name ∧ a.part ≠ .description) {n : Nat}
    (hn : l.categoryCount p.user < n) :
    ∃ s w, Run.execute env p.settings p.user request ⟨p.passed l request n, flag, []⟩ = .ok s w ∧
      w.ledger = p.passed l request n ∧ s.modified = [] := by
  have hsound := hready.passed request n
  have hrules' : (p.passed l request n).resolve env.now p.user request.rules = .ok rules := hrules
  -- That a row is settled was proved for the clock of the first run, and no row depends on it.
  have hsettled : ∀ e ∈ (p.passed l request n).transactions.entries,
      Pass.passOver ⟨{ snapshot with rules }, env.now, p.settings, p.user⟩ request e.1 e.2 =
        e.2 := by
    intro e he
    rw [← hengine]
    refine (Pass.passOver_at (hsound.transactions e he) env.now request e.1).trans ?_
    obtain ⟨⟨id, row⟩, hmem, rfl⟩ := List.mem_map.mp he
    exact hready.passOver_iterate hsnapshot hengine hparts (hready.sound.transactions _ hmem)
      request id hn
  obtain ⟨s, w, hrun, hledger, hmodified, -⟩ := exists_execute_of_settled hsound henv hrules'
    (hready.snapshot_passed hsnapshot request n env.now) p.settings hsettled
  exact ⟨s, w, hrun, hledger, hmodified⟩

end

/-- **Repeated runs converge where no rule writes a text.** From a reachable ledger, let runs with
    the same request and settings follow one another. Each of them may have its own clock, but
    nothing disturbs them and all of them resolve the same rules, none of which writes a name or a
    description. Every run ends with a summary. After more runs than the user has categories, no run
    reports a change, and none changes the ledger. -/
theorem repeated_runs_converge {l : Ledger} (hl : l.Reachable) (env : Nat → Surroundings)
    (flag : Nat → Option Bool) (henv : ∀ n, (env n).schedule.Undisturbed (flag n)) {user : Ident}
    {request : Request} {rules : List CompleteRule}
    (hrules : ∀ n, l.resolve (env n).now user request.rules = .ok rules)
    (hparts : ∀ r ∈ rules, ∀ a ∈ r.actions, a.part ≠ .name ∧ a.part ≠ .description)
    (settings : Settings) :
    let after := l.afterRuns env flag settings user request
    ∀ n, ∃ s w, Run.execute (env n) settings user request ⟨after n, flag n, []⟩ = .ok s w ∧
      w.ledger = after (n + 1) ∧
      (l.categoryCount user < n → s.modified = [] ∧ w.ledger = after n) := by
  intro after
  have hsound := hl.sound
  obtain ⟨snapshot, hsnapshot⟩ := hsound.exists_snapshot (env 0).now user
  let p : Pass := ⟨{ snapshot with rules }, (env 0).now, settings, user⟩
  have hready : p.Ready l := Pass.ready_of_snapshot hsound hsnapshot fun _ => rfl
  -- A ledger that runs have passed over is one that the next run can start from.
  have hnext (n : Nat) := exists_execute_passed hready hsnapshot rfl (henv n) (hrules n) n
  -- Each run starts from what the one before it has left.
  have hafter : ∀ n, after n = p.passed l request n := by
    intro n
    induction n with
    | zero => exact (Ledger.revise_eq_self fun _ _ => rfl).symm
    | succ n ih =>
      obtain ⟨s, w, hrun, hledger⟩ := hnext n
      rw [← ih] at hrun
      exact (congrArg (fun result => (Run.worldOf result).ledger) hrun).trans hledger
  intro n
  obtain ⟨s, w, hrun, hledger⟩ := hnext n
  refine ⟨s, w, ?_, ?_, fun hn => ?_⟩
  · rw [hafter]
    exact hrun
  · rw [hafter]
    exact hledger
  · obtain ⟨s', w', hrun', hledger', hmodified⟩ :=
      exists_execute_passed_of_lt hready hsnapshot rfl (henv n) (hrules n) hparts hn
    -- The run is the same one, so its summary is the quiet one.
    rw [hrun] at hrun'
    cases hrun'
    exact ⟨hmodified, by rw [hafter, hledger']⟩

namespace Ledger

/-- A small ledger in which a category that the second rule adds brings the first rule to apply in
    the next run. -/
def cascade : Ledger :=
  empty.afterWrites
    [.createAccount dawn 1 "Checking",
      .createAccount dawn 1 "Savings",
      .createCategory dawn 1 "Streams",
      .createRule dawn 1 "Link" none dawn .and,
      .addCondition 1 .category .equals "1",
      .addAction 1 .transfer "2",
      .createRule dawn 1 "File" none dawn .and,
      .addCondition 2 .name .contains "netflix",
      .addAction 2 .category "1",
      .insertTransaction dawn 1 ⟨1, "Netflix", none, Amount.zero, dawn, []⟩]

theorem reachable_cascade : Reachable cascade := Reachable.empty.afterWrites _

/-- The rules of the ledger. -/
def cascadeRules : List CompleteRule :=
  [⟨⟨1, 1, "Link", none, dawn, .and, dawn⟩, [⟨1, 1, .category, .equals, "1"⟩],
      [⟨1, 1, .transfer, "2"⟩]⟩,
    ⟨⟨2, 1, "File", none, dawn, .and, dawn⟩, [⟨2, 2, .name, .contains, "netflix"⟩],
      [⟨2, 2, .category, "1"⟩]⟩]

end Ledger

/-- With one category the first two runs change something, and the third does not. -/
theorem repeated_runs_converge_cascade :
    let env : Surroundings := ⟨Ledger.dawn, .calm⟩
    let request : Request := ⟨none, some [1], none⟩
    let after := Ledger.cascade.afterRuns (fun _ => env) (fun _ => none) .standard 1 request
    let parts (n : Nat) := (backgroundSummary (Run.execute env .standard 1 request
      ⟨after n, none, []⟩)).map fun s => s.modified.map (·.parts)
    Ledger.cascade.categoryCount 1 = 1 ∧
    parts 0 = some [[.category]] ∧ parts 1 = some [[.transfer]] ∧
    ∃ s w, Run.execute env .standard 1 request ⟨after 2, none, []⟩ = .ok s w ∧
      s.modified = [] ∧ w.ledger = after 2 := by
  intro env request after parts
  have hrules : Ledger.cascade.resolve Ledger.dawn 1 request.rules =
      .ok Ledger.cascadeRules := by
    decide +kernel
  have hparts : ∀ r ∈ Ledger.cascadeRules, ∀ a ∈ r.actions,
      a.part ≠ .name ∧ a.part ≠ .description := by
    decide
  have hcount : Ledger.cascade.categoryCount 1 = 1 := by decide +kernel
  obtain ⟨s, w, hrun, -, hquiet⟩ :=
    repeated_runs_converge Ledger.reachable_cascade (fun _ => env) (fun _ => none)
      (fun _ => Schedule.undisturbed_calm) (fun _ => hrules) hparts .standard 2
  refine ⟨hcount, by decide +kernel, by decide +kernel, s, w, hrun, hquiet ?_⟩
  rw [hcount]
  decide

end LedgerRules
