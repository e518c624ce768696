import LedgerRules.Ledger.Direct
import LedgerRules.Proofs.Run.Operations
import LedgerRules.Proofs.Run.Resolution

/-!
# The definitions of rules

Conditions and actions of all rules stand in two tables. They are told apart by the rule that their
rows name, and their order is that of the identifiers. A table hands out identifiers in ascending
order, so what is listed for a user or a rule is what was recorded for it, in the order of the calls
and with what was given to them. A run evaluates rules as they are listed.

## Overview

- **Layer A**: what writes record of rules.
- **Layer B**: a ledger that holds some definitions, and the listings in it.
- **Layer C**: every write adds what it records.
- **Layer D**: the engine of a run.
-/

namespace LedgerRules

/-! ## Layer A: definitions -/

/-- Rules, conditions and actions, each in the order in which they were recorded. -/
structure Definitions where
  /-- The rules of all users. -/
  rules : List Rule
  /-- The conditions of all rules. -/
  conditions : List Condition
  /-- The actions of all rules. -/
  actions : List Action

namespace Definitions

/-- No definitions. -/
def nil : Definitions := ⟨[], [], []⟩

/-- Definitions followed by later ones. -/
def append (d e : Definitions) : Definitions :=
  ⟨d.rules ++ e.rules, d.conditions ++ e.conditions, d.actions ++ e.actions⟩

/-- The rules of a user. -/
def rulesOf (d : Definitions) (user : Ident) : List Rule := d.rules.filter (·.user == user)

/-- The conditions of a rule. -/
def conditionsOf (d : Definitions) (rule : Ident) : List Condition :=
  d.conditions.filter (·.rule == rule)

/-- The actions of a rule. -/
def actionsOf (d : Definitions) (rule : Ident) : List Action := d.actions.filter (·.rule == rule)

theorem append_nil (d : Definitions) : d.append nil = d := by simp [append, nil]

theorem nil_append (d : Definitions) : nil.append d = d := rfl

theorem append_assoc (d e f : Definitions) : (d.append e).append f = d.append (e.append f) := by
  simp [append]

end Definitions

namespace StoreWrite

/-- What a write records of rules: what was given to the call, under the identifier that the call
    returned. Of an instant its written form without the fraction is recorded. -/
def records (l : Ledger) : StoreWrite → Definitions
  | .createRule now user name description effectiveFrom logic =>
    match l.createRule now user name description effectiveFrom logic with
    | .ok (id, _) =>
      ⟨[⟨id, user, name, description, effectiveFrom.recorded, logic, now.recorded⟩], [], []⟩
    | .error _ => .nil
  | .addCondition rule subject comparison literal =>
    match l.addCondition rule subject comparison literal with
    | .ok (id, _) => ⟨[], [⟨id, rule, subject, comparison, literal⟩], []⟩
    | .error _ => .nil
  | .addAction rule part literal =>
    match l.addAction rule part literal with
    | .ok (id, _) => ⟨[], [], [⟨id, rule, part, literal⟩]⟩
    | .error _ => .nil
  | .createAccount _ _ _ | .createCategory _ _ _ | .insertTransaction _ _ _ | .updateBase _ _ _
  | .updateCategories _ _ _ | .linkTransfer _ _ _ | .applyChanges _ _ _ => .nil

/-- The rule to which a write adds something, if it does. -/
def ruleNamed? : StoreWrite → Option Ident
  | .addCondition rule _ _ _ | .addAction rule _ _ => some rule
  | .createAccount _ _ _ | .createCategory _ _ _ | .createRule _ _ _ _ _ _
  | .insertTransaction _ _ _ | .updateBase _ _ _ | .updateCategories _ _ _ | .linkTransfer _ _ _
  | .applyChanges _ _ _ => none

end StoreWrite

namespace Ledger

/-- What a sequence of writes records of rules. -/
def definitions : Ledger → List StoreWrite → Definitions
  | _, [] => .nil
  | l, w :: ws => (w.records l).append (definitions (l.afterWrites [w]) ws)

/-! ## Layer B: definitions in a ledger -/

/-- A ledger that holds definitions and no others. -/
structure Holds (l : Ledger) (d : Definitions) : Prop where
  rules : ∀ now, (l.rules.entries.mapM fun e => readRule now e.1 e.2) = .ok d.rules
  conditions : (l.conditions.entries.mapM fun e => readCondition e.1 e.2) = .ok d.conditions
  actions : (l.actions.entries.mapM fun e => readAction e.1 e.2) = .ok d.actions

theorem holds_empty : Holds empty .nil := ⟨fun _ => rfl, rfl, rfl⟩

variable {l l' : Ledger} {d : Definitions} {now : Instant}

theorem user_of_readRule {id : Ident} {row : RuleRow} {rule : Rule}
    (h : readRule now id row = .ok rule) : rule.user = row.user := by
  obtain ⟨createdAt, -, h⟩ := bind_eq_ok_iff.mp h
  obtain ⟨first, -, h⟩ := bind_eq_ok_iff.mp h
  obtain ⟨logic, -, h⟩ := bind_eq_ok_iff.mp h
  cases h
  rfl

theorem rule_of_readCondition {id : Ident} {row : ConditionRow} {condition : Condition}
    (h : readCondition id row = .ok condition) : condition.rule = row.rule := by
  obtain ⟨subject, -, h⟩ := bind_eq_ok_iff.mp h
  obtain ⟨comparison, -, h⟩ := bind_eq_ok_iff.mp h
  cases h
  rfl

theorem rule_of_readAction {id : Ident} {row : ActionRow} {action : Action}
    (h : readAction id row = .ok action) : action.rule = row.rule := by
  obtain ⟨part, -, h⟩ := bind_eq_ok_iff.mp h
  cases h
  rfl

namespace Holds

/-- The rules that are listed for a user are the user's, in the order of recording. -/
theorem rulesOf (h : l.Holds d) (now : Instant) (user : Ident) :
    l.rulesOf now user = .ok (d.rulesOf user) :=
  mapM_filter (h.rules now) fun e rule hread => by rw [user_of_readRule hread]

/-- The conditions that are listed for a rule are those that were added to it. -/
theorem conditionsOf (h : l.Holds d) (rule : Ident) :
    l.conditionsOf rule = .ok (d.conditionsOf rule) :=
  mapM_filter h.conditions fun e condition hread => by rw [rule_of_readCondition hread]

/-- The actions that are listed for a rule are those that were added to it. -/
theorem actionsOf (h : l.Holds d) (rule : Ident) : l.actionsOf rule = .ok (d.actionsOf rule) :=
  mapM_filter h.actions fun e action hread => by rw [rule_of_readAction hread]

/-- The rules that are there are those that were recorded. -/
theorem has_iff (h : l.Holds d) (rule : Ident) :
    l.rules.has rule = true ↔ rule ∈ d.rules.map (·.id) := by
  -- Each row is read under its own identifier.
  have hids : d.rules.map (·.id) = l.rules.entries.map (·.1) :=
    map_eq_map_of_mapM (h.rules dawn) fun e rule hread => id_of_readRule hread
  rw [hids, Table.has_eq_true_iff]
  simp [Table.get?_eq_some_iff]

end Holds

/-! ## Layer C: what writes add -/

/-- The row that recording a rule writes is read as that rule, with what is kept of its instants. -/
theorem readRule_recorded (id user : Ident) (name : String) (description : Option String)
    (effectiveFrom : Instant) (logic : Logic) (createdAt : Instant) :
    readRule now id
        { user, name, description, effectiveFrom := stamp effectiveFrom,
          logic := Vocabulary.word logic, createdAt := some (stamp createdAt) } =
      .ok ⟨id, user, name, description, effectiveFrom.recorded, logic, createdAt.recorded⟩ := by
  simp only [readRule, readCreatedAt_stamp, readDate_stamp, readWord_word]
  rfl

/-- The row that adding a condition writes is read as that condition. -/
theorem readCondition_recorded (id rule : Ident) (subject : Subject) (comparison : Comparison)
    (literal : String) :
    readCondition id ⟨rule, Vocabulary.word subject, Vocabulary.word comparison, literal⟩ =
      .ok ⟨id, rule, subject, comparison, literal⟩ := by
  simp only [readCondition, readWord_word]
  rfl

theorem readAction_recorded (id rule : Ident) (part : Part) (literal : String) :
    readAction id ⟨rule, Vocabulary.word part, literal⟩ = .ok ⟨id, rule, part, literal⟩ := by
  simp only [readAction, readWord_word]
  rfl

/-- A call that adds to a rule finds the rule. -/
theorem conditions_of_addCondition {rule i : Ident} {subject : Subject} {comparison : Comparison}
    {literal : String} (h : l.addCondition rule subject comparison literal = .ok (i, l')) :
    ∃ conditions, l.conditions.insert?
        ⟨rule, Vocabulary.word subject, Vocabulary.word comparison, literal⟩ =
          some (i, conditions) ∧ l' = { l with conditions } := by
  unfold addCondition at h
  split at h
  · obtain ⟨⟨i, conditions⟩, hadd, h⟩ := bind_eq_ok_iff.mp h
    cases h
    exact ⟨conditions, insert?_of_addRow hadd, rfl⟩
  · cases h

theorem actions_of_addAction {rule i : Ident} {part : Part} {literal : String}
    (h : l.addAction rule part literal = .ok (i, l')) :
    ∃ actions, l.actions.insert? ⟨rule, Vocabulary.word part, literal⟩ = some (i, actions) ∧
      l' = { l with actions } := by
  unfold addAction at h
  split at h
  · obtain ⟨⟨i, actions⟩, hadd, h⟩ := bind_eq_ok_iff.mp h
    cases h
    exact ⟨actions, insert?_of_addRow hadd, rfl⟩
  · cases h

/-- Recording a rule is one insertion, of the row with the words and the stamps. -/
theorem rules_of_createRule {recorded effectiveFrom : Instant} {user i : Ident} {name : String}
    {description : Option String} {logic : Logic}
    (h : l.createRule recorded user name description effectiveFrom logic = .ok (i, l')) :
    ∃ rules, l.rules.insert?
        { user, name, description, effectiveFrom := stamp effectiveFrom,
          logic := Vocabulary.word logic, createdAt := some (stamp recorded) } =
          some (i, rules) ∧ l' = { l with rules } := by
  obtain ⟨⟨i, rules⟩, hadd, h⟩ := bind_eq_ok_iff.mp h
  cases h
  exact ⟨rules, insert?_of_addRow hadd, rfl⟩

/-- Writes that are not about rules leave them alone. -/
theorem Holds.of_same (h : l.Holds d)
    (hsame : l'.rules = l.rules ∧ l'.conditions = l.conditions ∧ l'.actions = l.actions) :
    l'.Holds (d.append .nil) := by
  obtain ⟨hrules, hconditions, hactions⟩ := hsame
  rw [Definitions.append_nil]
  exact ⟨hrules ▸ h.rules, hconditions ▸ h.conditions, hactions ▸ h.actions⟩

/-- **A write that succeeds** adds what it records after what there was. -/
theorem Holds.of_run {w : StoreWrite} (h : l.Holds d) (hrun : w.run l = .ok l') :
    l'.Holds (d.append (w.records l)) := by
  cases w with
  | createRule recorded user name description effectiveFrom logic =>
    obtain ⟨⟨i, l'⟩, hcall, rfl⟩ := map_eq_ok_iff.mp hrun
    obtain ⟨rules, hinsert, rfl⟩ := rules_of_createRule hcall
    simp only [StoreWrite.records, hcall, Definitions.append, List.append_nil]
    refine ⟨fun now => ?_, h.conditions, h.actions⟩
    -- The new row comes last, and it is read as what the write records.
    rw [(Table.entries_insert? hinsert).1]
    exact mapM_concat_eq_ok (h.rules now) (readRule_recorded _ _ _ _ _ _ _)
  | addCondition rule subject comparison literal =>
    obtain ⟨⟨i, l'⟩, hcall, rfl⟩ := map_eq_ok_iff.mp hrun
    obtain ⟨conditions, hinsert, rfl⟩ := conditions_of_addCondition hcall
    simp only [StoreWrite.records, hcall, Definitions.append, List.append_nil]
    refine ⟨h.rules, ?_, h.actions⟩
    rw [(Table.entries_insert? hinsert).1]
    exact mapM_concat_eq_ok h.conditions (readCondition_recorded _ _ _ _ _)
  | addAction rule part literal =>
    obtain ⟨⟨i, l'⟩, hcall, rfl⟩ := map_eq_ok_iff.mp hrun
    obtain ⟨actions, hinsert, rfl⟩ := actions_of_addAction hcall
    simp only [StoreWrite.records, hcall, Definitions.append, List.append_nil]
    refine ⟨h.rules, h.conditions, ?_⟩
    rw [(Table.entries_insert? hinsert).1]
    exact mapM_concat_eq_ok h.actions (readAction_recorded _ _ _ _)
  -- What is left is not about rules, so that only the three tables have to be looked at.
  | createAccount recorded user name =>
    obtain ⟨⟨i, l'⟩, hcall, rfl⟩ := map_eq_ok_iff.mp hrun
    obtain ⟨⟨i, accounts⟩, -, hcall⟩ := bind_eq_ok_iff.mp hcall
    cases hcall
    exact h.of_same ⟨rfl, rfl, rfl⟩
  | createCategory recorded user name =>
    obtain ⟨⟨i, l'⟩, hcall, rfl⟩ := map_eq_ok_iff.mp hrun
    unfold createCategory at hcall
    split at hcall
    · cases hcall
      exact h.of_same ⟨rfl, rfl, rfl⟩
    · obtain ⟨⟨i, categories⟩, -, hcall⟩ := bind_eq_ok_iff.mp hcall
      cases hcall
      exact h.of_same ⟨rfl, rfl, rfl⟩
  | insertTransaction recorded user new =>
    obtain ⟨⟨i, l'⟩, hcall, rfl⟩ := map_eq_ok_iff.mp hrun
    obtain ⟨row, transactions, -, -, rfl⟩ := row_of_insertTransaction hcall
    exact h.of_same ⟨rfl, rfl, rfl⟩
  | updateBase id user update =>
    change l.updateBase id user update = .ok l' at hrun
    unfold updateBase at hrun
    split at hrun
    · cases hrun
      exact h.of_same ⟨rfl, rfl, rfl⟩
    · obtain ⟨-, -, hrun⟩ := bind_eq_ok_iff.mp hrun
      cases hrun
      exact h.of_same ⟨rfl, rfl, rfl⟩
  | updateCategories id user categories =>
    obtain ⟨-, -, hrun⟩ := bind_eq_ok_iff.mp hrun
    obtain ⟨-, -, hrun⟩ := bind_eq_ok_iff.mp hrun
    cases hrun
    exact h.of_same ⟨rfl, rfl, rfl⟩
  | linkTransfer id user link =>
    obtain ⟨-, -, hrun⟩ := bind_eq_ok_iff.mp hrun
    obtain ⟨kept, -, hrun⟩ := bind_eq_ok_iff.mp hrun
    cases hrun
    exact h.of_same ⟨rfl, rfl, rfl⟩
  | applyChanges id user changes =>
    obtain ⟨g, -, rfl⟩ := exists_revise_of_applyChanges hrun
    -- A changeset is written into the transactions alone.
    exact h.of_same ⟨rfl, rfl, rfl⟩

end Ledger

/-- A write that fails records nothing. -/
theorem StoreWrite.records_of_error {w : StoreWrite} {l : Ledger} {e : LedgerError}
    (h : w.run l = .error e) : w.records l = .nil := by
  cases w with
  | createRule recorded user name description effectiveFrom logic =>
    cases hcall : l.createRule recorded user name description effectiveFrom logic with
    | ok result => simp [run, hcall, Except.map] at h
    | error e => simp only [records, hcall]
  | addCondition rule subject comparison literal =>
    cases hcall : l.addCondition rule subject comparison literal with
    | ok result => simp [run, hcall, Except.map] at h
    | error e => simp only [records, hcall]
  | addAction rule part literal =>
    cases hcall : l.addAction rule part literal with
    | ok result => simp [run, hcall, Except.map] at h
    | error e => simp only [records, hcall]
  -- The others record nothing in any case.
  | createAccount | createCategory | insertTransaction | updateBase | updateCategories
  | linkTransfer | applyChanges => rfl

namespace Ledger

variable {l : Ledger} {d : Definitions}

/-- **One write**, whether it succeeds or not. -/
theorem Holds.write (h : l.Holds d) (w : StoreWrite) :
    (l.afterWrites [w]).Holds (d.append (w.records l)) := by
  have hleft : l.afterWrites [w] = (w.run l).toOption.getD l := rfl
  rw [hleft]
  cases hrun : w.run l with
  | ok l' => exact h.of_run hrun
  | error e =>
    rw [StoreWrite.records_of_error hrun, Definitions.append_nil]
    exact h

/-- **A sequence of writes** adds what they record, one after the other. -/
theorem Holds.afterWrites (h : l.Holds d) (ws : List StoreWrite) :
    (l.afterWrites ws).Holds (d.append (l.definitions ws)) := by
  -- On the writes, each of which finds what those before it have recorded.
  induction ws generalizing l d with
  | nil =>
    rw [definitions, Definitions.append_nil]
    exact h
  | cons w ws ih =>
    rw [definitions, ← Definitions.append_assoc]
    exact ih (h.write w)

/-- After writes on the empty ledger there is what they have recorded, and nothing else. -/
theorem holds_definitions (ws : List StoreWrite) :
    (empty.afterWrites ws).Holds (empty.definitions ws) :=
  holds_empty.afterWrites ws

/-! ### The words of the tables -/

theorem checkWord_word {α : Type} [Vocabulary α] {v : α} (hv : v ∈ Vocabulary.values)
    (column : String) : checkWord (α := α) column (Vocabulary.word v) = .ok () := by
  have hsome : (Vocabulary.ofWord? (α := α) (Vocabulary.word v)).isSome = true :=
    List.find?_isSome.mpr ⟨v, hv, by simp⟩
  rw [checkWord, if_pos hsome]

/-- The word of a rule passes the check of the table, so recording it is putting its row in
    place. -/
theorem createRule_eq_putRule (l : Ledger) (now : Instant) (user : Ident) (name : String)
    (effectiveFrom : Instant) (logic : Logic) :
    l.createRule now user name none effectiveFrom logic =
      l.putRule now true user name (stamp effectiveFrom) (Vocabulary.word logic) := by
  have hlogic : logic ∈ Vocabulary.values := by cases logic <;> decide
  simp only [putRule, if_true, checkWord_word hlogic]
  rfl

/-- The words of a condition pass the checks of the table. -/
theorem addCondition_eq_putCondition (l : Ledger) (rule : Ident) (subject : Subject)
    (comparison : Comparison) (literal : String) :
    l.addCondition rule subject comparison literal =
      l.putCondition true
        ⟨rule, Vocabulary.word subject, Vocabulary.word comparison, literal⟩ := by
  have hsubject : subject ∈ Vocabulary.values := by cases subject <;> decide
  have hcomparison : comparison ∈ Vocabulary.values := by cases comparison <;> decide
  simp only [putCondition, if_true, checkWord_word hsubject, checkWord_word hcomparison]
  cases hrule : l.rules.has rule <;> simp [addCondition, hrule] <;> rfl

/-- The word of an action passes the check of the table. -/
theorem addAction_eq_putAction (l : Ledger) (rule : Ident) (part : Part) (literal : String) :
    l.addAction rule part literal =
      l.putAction true ⟨rule, Vocabulary.word part, literal⟩ := by
  have hpart : part ∈ Vocabulary.values := by cases part <;> decide
  simp only [putAction, if_true, checkWord_word hpart]
  cases hrule : l.rules.has rule <;> simp [addAction, hrule] <;> rfl

/-! ### Calls that name a rule -/

/-- Adding a row fails only if the table has given out all its identifiers. -/
theorem addRow_eq_error {α : Type} {table : Table α} {row : α} {e : LedgerError}
    (h : addRow table row = .error e) : e = .store .full := by
  unfold addRow at h
  split at h
  · cases h
  · cases h
    rfl

/-- **A call that adds to a rule** is refused if the rule is not there, and otherwise only if there
    is no room for another row. -/
theorem run_of_ruleNamed? {w : StoreWrite} {rule : Ident} (hw : w.ruleNamed? = some rule) :
    (l.rules.has rule = false → w.run l = .error (.store .foreignKey)) ∧
      (l.rules.has rule = true → ∀ e, w.run l = .error e → e = .store .full) := by
  cases w with
  | addCondition owner subject comparison literal =>
    cases hw
    refine ⟨fun hno => ?_, fun hyes e he => ?_⟩
    · simp [StoreWrite.run, addCondition, hno, Except.map]
    · have hcall := map_eq_error_iff.mp he
      rw [addCondition, if_pos hyes] at hcall
      rcases bind_eq_error_iff.mp hcall with hadd | ⟨added, -, hpure⟩
      · exact addRow_eq_error hadd
      · cases hpure
  | addAction owner part literal =>
    cases hw
    refine ⟨fun hno => ?_, fun hyes e he => ?_⟩
    · simp [StoreWrite.run, addAction, hno, Except.map]
    · have hcall := map_eq_error_iff.mp he
      -- The rule is there, so what is left to fail is the insertion.
      rw [addAction, if_pos hyes] at hcall
      rcases bind_eq_error_iff.mp hcall with hadd | ⟨added, -, hpure⟩
      · exact addRow_eq_error hadd
      · cases hpure
  | createAccount | createCategory | createRule | insertTransaction | updateBase | updateCategories
  | linkTransfer | applyChanges => cases hw

end Ledger

/-! ## Layer D: the engine of a run -/

namespace Definitions

/-- A rule with the conditions and actions that were recorded for it. -/
def complete (d : Definitions) (rule : Rule) : CompleteRule :=
  ⟨rule, d.conditionsOf rule.id, d.actionsOf rule.id⟩

/-- The rules of a user that are asked for: each that is named, where it is named first, or all that
    are in effect. -/
def select (d : Definitions) (now : Instant) (user : Ident) : Option (List Ident) → List Rule
  | some ids => ids.eraseDups.filterMap fun id => (d.rulesOf user).find? (·.id == id)
  | none => (d.rulesOf user).filter fun rule => decide (rule.effectiveFrom ≤ now)

end Definitions

namespace Ledger

variable {l : Ledger} {d : Definitions}

theorem Holds.completeRule (h : l.Holds d) (rule : Rule) :
    l.completeRule rule = .ok (d.complete rule) := by
  rw [Ledger.completeRule, h.conditionsOf, h.actionsOf]
  rfl

/-- What was recorded is what a listing of the user's complete rules shows. -/
theorem Holds.lists (h : l.Holds d) (user : Ident) :
    l.Lists user (d.rulesOf user) ((d.rulesOf user).map d.complete) where
  listed := fun now => h.rulesOf now user
  completed := (mapM_congr fun rule _ => h.completeRule rule).trans List.mapM_pure

/-- Looking for a rule of a user finds what was recorded under its identifier. -/
theorem Holds.rule?_eq (hl : Sound l) (h : l.Holds d) (now : Instant) (id user : Ident) :
    l.rule? now id user = .ok ((d.rulesOf user).find? (·.id == id)) := by
  have hlists := h.lists user
  obtain ⟨found, hfound⟩ := hl.exists_rule? now id user
  obtain ⟨howned, hid⟩ := ownsRule_of_rule? hfound
  rw [hfound]
  cases found with
  | none =>
    -- A rule under this identifier would be one that the user owns.
    have hno : ∀ rule ∈ d.rulesOf user, ¬ (rule.id == id) = true := by
      intro rule hrule heq
      have howns := hlists.ownsRule hrule
      rw [beq_iff_eq.mp heq, ← howned] at howns
      cases howns
    rw [List.find?_eq_none.mpr hno]
  | some rule =>
    -- The user's rules are found under their identifiers, since none of these comes twice.
    have hnodup : ((d.rulesOf user).map (·.id)).Nodup := nodup_ids_rulesOf (h.rulesOf now user)
    rw [(find?_eq_some_iff_of_nodup hnodup).mpr ⟨hlists.mem_of_rule? hfound, hid rule rfl⟩]

/-- **The rules that a run resolves** are those that it is asked for, with what was recorded for
    them. -/
theorem Holds.resolve_eq (hl : Sound l) (h : l.Holds d) (now : Instant) (user : Ident)
    (named : Option (List Ident)) :
    l.resolve now user named = .ok ((d.select now user named).map d.complete) := by
  have hselect : l.selectRules now user named = .ok (d.select now user named) := by
    cases named with
    | none => exact (h.lists user).selectRules_none
    -- The names that are looked up each find a rule or nothing, and what is nothing falls away.
    | some ids =>
      have hfound : (ids.eraseDups.mapM fun id => l.rule? now id user) =
          .ok (ids.eraseDups.map fun id => (d.rulesOf user).find? (·.id == id)) :=
        (mapM_congr fun id _ => h.rule?_eq hl now id user).trans List.mapM_pure
      rw [selectRules, hfound]
      show Except.ok _ = Except.ok _
      rw [List.filterMap_map]
      rfl
  rw [resolve, hselect]
  exact (mapM_congr fun rule _ => h.completeRule rule).trans List.mapM_pure

end Ledger

/-- What a step that follows a plan comes to is what the plan reads. -/
theorem Run.Follows.eq_of_run {α : Type} {σ : Schedule} {now : Instant} {l : Ledger} {x : Run α}
    {cs : List Call} {r : Except LedgerError α} (h : Run.Follows σ now l x cs r) {w w' : World}
    (hw : w.ledger = l) {a : α} (hrun : x w = .ok a w') : r = .ok a ∧ w'.ledger = l := by
  rcases Schedule.answersAll_or_failsFirst σ now l w.events cs with hall | ⟨before, c, e, hfails⟩
  -- If one of the planned calls fails, the step ends in an error and comes to nothing.
  · obtain ⟨b, w₁, hb, hrun', hledger, -⟩ := h.answered w hw hall
    rw [hrun] at hrun'
    cases hrun'
    exact ⟨hb, hledger⟩
  · obtain ⟨w₁, hrun', -⟩ := h.failed w hw before c e hfails
    rw [hrun] at hrun'
    cases hrun'

/-- The engine that a run builds has the rules that it was given. -/
theorem Ledger.rules_of_engine {l : Ledger} {now : Instant} {user : Ident}
    {rules : List CompleteRule} {e : Engine} (h : l.engine now user rules = .ok e) :
    e.rules = rules := by
  obtain ⟨categories, -, h⟩ := bind_eq_ok_iff.mp h
  simp only at h
  -- The accounts are read only if a rule looks at transfers.
  split at h
  · obtain ⟨accounts, -, h⟩ := bind_eq_ok_iff.mp h
    cases h
    rfl
  · cases h
    rfl

/-- Rules that are complete stage what was recorded as their actions, in that order. -/
theorem Definitions.asked_of_complete {d : Definitions} {e : Engine} {rules : List Rule}
    (hrules : e.rules = rules.map d.complete) (t : Transaction) :
    let applying := e.rules.filter fun r => r.Applies e.toSnapshot t
    e.asked t = Changeset.ofActions e.toSnapshot t
      (applying.flatMap fun r => d.actionsOf r.rule.id) (suppliers e.toSnapshot t applying) := by
  intro applying
  -- Each rule that applies is one of those that were completed.
  have hactions : joinedActions applying = applying.flatMap fun r => d.actionsOf r.rule.id := by
    refine List.flatMap_congr fun r hr => ?_
    have hmem : r ∈ rules.map d.complete := hrules ▸ (List.mem_filter.mp hr).1
    obtain ⟨rule, -, rfl⟩ := List.mem_map.mp hmem
    rfl
  rw [← hactions]
  rfl

/-- **Definitions of rules survive storage.** After any sequence of writes the listings show what
    the calls that succeeded have recorded: the rules of a user, and the conditions and the actions
    of a rule, each with what was given and in the order of the calls. Of a first moment its second
    is recorded without the fraction, and the next second in the place of a leap second within a
    minute. A call that adds to a rule fails if there is no such rule, and otherwise only if there
    is no room for another row; a call that fails changes nothing. The words under which logics,
    subjects, comparisons and parts are stored pass the checks of the tables. So the engine that a
    run builds has the rules that the run is asked for with the conditions and actions that were
    recorded for them, and what it stages is what the actions of the rules that apply ask for in the
    order in which they were added. If its calls are served, the run does build the engine. -/
theorem definitions_survive_storage (ws : List StoreWrite) :
    let l := Ledger.empty.afterWrites ws
    let given := Ledger.empty.definitions ws
    (∀ now user, l.rulesOf now user = .ok (given.rules.filter (·.user == user))) ∧
    (∀ rule, l.conditionsOf rule = .ok (given.conditions.filter (·.rule == rule))) ∧
    (∀ rule, l.actionsOf rule = .ok (given.actions.filter (·.rule == rule))) ∧
    (∀ effectiveFrom : Instant,
      (effectiveFrom.Regular → effectiveFrom.recorded = effectiveFrom.wholeSecond) ∧
      (¬ effectiveFrom.Regular →
        (effectiveFrom.recorded.date = effectiveFrom.date ∧
          effectiveFrom.recorded.hour = effectiveFrom.hour ∧
          effectiveFrom.recorded.minute = effectiveFrom.minute) ∧
        effectiveFrom.recorded.second = effectiveFrom.second + 1 ∧
        effectiveFrom.recorded.nano = 0)) ∧
    (∀ (w : StoreWrite) rule, w.ruleNamed? = some rule →
      (rule ∉ given.rules.map (·.id) → w.run l = .error (.store .foreignKey)) ∧
      (rule ∈ given.rules.map (·.id) → ∀ e, w.run l = .error e → e = .store .full)) ∧
    (∀ (w : StoreWrite) e, w.run l = .error e → Ledger.empty.afterWrites (ws ++ [w]) = l) ∧
    (∀ now user name effectiveFrom logic,
      l.createRule now user name none effectiveFrom logic =
        l.putRule now true user name (Ledger.stamp effectiveFrom) (Vocabulary.word logic)) ∧
    (∀ rule subject comparison literal,
      l.addCondition rule subject comparison literal =
        l.putCondition true
          ⟨rule, Vocabulary.word subject, Vocabulary.word comparison, literal⟩) ∧
    (∀ rule part literal,
      l.addAction rule part literal = l.putAction true ⟨rule, Vocabulary.word part, literal⟩) ∧
    ∀ (σ : Schedule) (now : Instant) (user : Ident) (named : Option (List Ident))
      (flag : Option Bool), σ.Alone → σ.Safe →
      (∀ rules w₁ engine w₂,
        Run.workingSet ⟨now, σ⟩ user named ⟨l, flag, []⟩ = .ok rules w₁ →
        Run.engineFor ⟨now, σ⟩ user rules w₁ = .ok engine w₂ →
          engine.rules = (given.select now user named).map given.complete ∧
          ∀ t cs, engine.evaluate t = some cs →
            let applying := engine.rules.filter fun r => r.Applies engine.toSnapshot t
            cs = Changeset.ofActions engine.toSnapshot t
              (applying.flatMap fun r => given.actions.filter (·.rule == r.rule.id))
              (suppliers engine.toSnapshot t applying)) ∧
      (σ.Serving → ∃ rules w₁ engine w₂,
        Run.workingSet ⟨now, σ⟩ user named ⟨l, flag, []⟩ = .ok rules w₁ ∧
        Run.engineFor ⟨now, σ⟩ user rules w₁ = .ok engine w₂) := by
  intro l given
  have hholds : l.Holds given := Ledger.holds_definitions ws
  have hsound : l.Sound := (Ledger.Reachable.empty.afterWrites ws).sound
  have hthere : ∀ rule, l.rules.has rule = true ↔ rule ∈ given.rules.map (·.id) := hholds.has_iff
  refine ⟨hholds.rulesOf, hholds.conditionsOf, hholds.actionsOf,
    fun _ => ⟨Instant.recorded_of_regular, Instant.parts_recorded⟩, ?_, ?_,
    l.createRule_eq_putRule, l.addCondition_eq_putCondition, l.addAction_eq_putAction, ?_⟩
  · intro w rule hw
    obtain ⟨hmissing, hfound⟩ := Ledger.run_of_ruleNamed? (l := l) hw
    refine ⟨fun hno => hmissing ?_, fun hyes => hfound ((hthere rule).mpr hyes)⟩
    exact Bool.eq_false_iff.mpr (mt (hthere rule).mp hno)
  · intro w e he
    have hlast : Ledger.empty.afterWrites (ws ++ [w]) = (w.run l).toOption.getD l := by
      simp [Ledger.afterWrites, l]
    rw [hlast, he]
    rfl
  · intro σ now user named flag halone hsafe
    have hresolve := hholds.resolve_eq hsound now user named
    -- First what an engine looks like that was built, then that one is built.
    constructor
    · intro rules w₁ engine w₂ hrules hengine
      obtain ⟨hresolved, hledger⟩ :=
        (Run.follows_workingSet halone hsafe named).eq_of_run rfl hrules
      obtain ⟨hbuilt, -⟩ := (Run.follows_engineFor halone hsafe rules).eq_of_run hledger hengine
      rw [hresolve] at hresolved
      cases hresolved
      have hall := Ledger.rules_of_engine hbuilt
      refine ⟨hall, fun t cs hcs => ?_⟩
      rw [Engine.eq_asked_of_evaluate hcs]
      exact Definitions.asked_of_complete hall t
    · intro hserving
      -- Calls that are about no transaction are all that is needed here, and all are served.
      obtain ⟨snapshot, hsnapshot⟩ := hsound.exists_snapshot now user
      have hserved : ∀ es c, c.subject? = none → (σ es c).fate = .served := fun es c _ =>
        hserving es c
      obtain ⟨-, w₁, hrules, hledger, -⟩ :=
        Run.finds_workingSet halone hsafe hserved hresolve ⟨l, flag, []⟩ rfl
      obtain ⟨engine, hfinds, -⟩ := Run.finds_engineFor halone hsafe hserved hsnapshot
        ((given.select now user named).map given.complete)
      obtain ⟨-, w₂, hengine, -⟩ := hfinds w₁ hledger
      exact ⟨_, w₁, engine, w₂, hrules, hengine⟩

/-- Two users' rules are defined in turn, one action names a rule that is not there, and the first
    of two names is staged. -/
theorem definitions_survive_storage_interleaved :
    let ws : List StoreWrite :=
      [.createRule Ledger.dawn 1 "Streams" none Ledger.dawn .and,
        .createRule Ledger.dawn 2 "Rent" (some "monthly") Ledger.dawn .or,
        .addCondition 1 .name .contains "netflix",
        .addAction 1 .name "Netflix",
        .addAction 2 .name "Rent",
        .addAction 3 .name "Lost",
        .addAction 1 .name "Streams"]
    let l := Ledger.empty.afterWrites ws
    let given := Ledger.empty.definitions ws
    let t : Transaction := ⟨1, 1, 1, "NETFLIX.COM", none, Amount.zero, Ledger.dawn, [], Ledger.dawn⟩
    l.actionsOf 1 = .ok [⟨1, 1, .name, "Netflix"⟩, ⟨3, 1, .name, "Streams"⟩] ∧
    l.rulesOf Ledger.dawn 2 =
      .ok [⟨2, 2, "Rent", some "monthly", Ledger.dawn, .or, Ledger.dawn⟩] ∧
    (StoreWrite.addAction 3 .name "Lost").run l = .error (.store .foreignKey) ∧
    Ledger.empty.afterWrites (ws ++ [.addAction 3 .name "Lost"]) = l ∧
    ∃ rules w₁ engine w₂ cs,
      Run.workingSet ⟨Ledger.dawn, .calm⟩ 1 none ⟨l, none, []⟩ = .ok rules w₁ ∧
      Run.engineFor ⟨Ledger.dawn, .calm⟩ 1 rules w₁ = .ok engine w₂ ∧
      engine.rules.map (·.actions) =
        [[⟨1, 1, .name, "Netflix"⟩, ⟨3, 1, .name, "Streams"⟩]] ∧
      engine.evaluate t = some cs ∧ cs.name = some "Netflix" ∧
      let applying := engine.rules.filter fun r => r.Applies engine.toSnapshot t
      cs = Changeset.ofActions engine.toSnapshot t
        (applying.flatMap fun r => given.actions.filter (·.rule == r.rule.id))
        (suppliers engine.toSnapshot t applying) := by
  intro ws l given t
  obtain ⟨hrules, -, hactions, -, hnamed, hfails, -, -, -, hengine⟩ :=
    definitions_survive_storage ws
  have hlost : (StoreWrite.addAction 3 .name "Lost").run l = .error (.store .foreignKey) :=
    (hnamed _ 3 rfl).1 (by decide)
  obtain ⟨hbuilt, hserved⟩ :=
    hengine .calm Ledger.dawn 1 none none Schedule.alone_calm Schedule.safe_calm
  obtain ⟨rules, w₁, engine, w₂, hworking, hengineFor⟩ := hserved Schedule.serving_calm
  obtain ⟨hall, hstaged⟩ := hbuilt rules w₁ engine w₂ hworking hengineFor
  -- What the engine stages for the transaction is found by running the setup.
  have hname : (Run.outcomeOf ((Run.workingSet ⟨Ledger.dawn, .calm⟩ 1 none >>= fun rules =>
      Run.engineFor ⟨Ledger.dawn, .calm⟩ 1 rules) ⟨l, none, []⟩)).toOption.bind
        (fun e => (e.evaluate t).map (·.name)) = some (some "Netflix") := by
    decide +kernel
  rw [Run.bind_of_ok hworking, hengineFor] at hname
  obtain ⟨cs, hcs, hname⟩ := Option.map_eq_some_iff.mp hname
  refine ⟨hactions 1, hrules Ledger.dawn 2, hlost, hfails _ _ hlost, rules, w₁, engine, w₂, cs,
    hworking, hengineFor, ?_, hcs, hname, hstaged t cs hcs⟩
  rw [hall]
  rfl

/-- A rule whose first moment lies in a leap second within a minute is listed with another one. -/
theorem first_moment_within_minute_is_not_listed :
    ∃ rule, (Ledger.empty.afterWrites [.createRule Ledger.dawn 1 "Streams" none
        Instant.withinMinute .and]).rulesOf Ledger.dawn 1 = .ok [rule] ∧
      rule.effectiveFrom ≠ Instant.withinMinute.wholeSecond :=
  ⟨_, (Ledger.holds_definitions _).rulesOf Ledger.dawn 1, by decide⟩

end LedgerRules
