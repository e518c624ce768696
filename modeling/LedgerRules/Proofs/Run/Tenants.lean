import LedgerRules.Proofs.Ledger.Agreement
import LedgerRules.Proofs.Run.Calls
import LedgerRules.Run.Execute

/-!
# Runs that do not see other users

Conditions and actions are looked up by rule alone, and a transaction may carry categories of other
users. Still what a run for a user does, and what it finds, depends on nothing that others own: from
two ledgers that agree on what the user owns it goes call by call in the same way.

## Overview

- **Layer A**: two ledgers beside each other, and what is known in both.
- **Layer B**: steps that go the same way in both, and how they are put together.
- **Layer C**: single calls.
- **Layer D**: finding the rules and the engine.
- **Layer E**: going over transactions.
- **Layer F**: whole runs.
-/

namespace LedgerRules

/-! ## Layer A: two ledgers -/

/-- Two ledgers in which a run for the same user begins. -/
structure Twins where
  /-- The user. -/
  user : Ident
  /-- The one ledger. -/
  left : Ledger
  /-- The other ledger. -/
  right : Ledger

namespace Twins

variable (p : Twins)

/-- A category that is there in both ledgers. -/
def HasCategory (category : Ident) : Prop :=
  p.left.categories.has category = true ∧ p.right.categories.has category = true

/-- An account that is there in both ledgers. -/
def HasAccount (account : Ident) : Prop :=
  p.left.accounts.has account = true ∧ p.right.accounts.has account = true

/-- A rule of the user. -/
def OwnRule (rule : Ident) : Prop := (p.left.rules.of RuleRow.user p.user).has rule = true

/-- An engine that stages only categories and accounts that are there in both ledgers. -/
structure Known (e : Engine) : Prop where
  category : ∀ owner i, e.OwnsCategory owner i → p.HasCategory i
  account : ∀ owner i, e.OwnsAccount owner i → p.HasAccount i

/-- Two ledgers later on: they still agree, and only transactions have changed. -/
structure Later (l m : Ledger) : Prop where
  agree : l.Agree p.user m
  soundLeft : l.Sound
  soundRight : m.Sound
  frameLeft : l = { p.left with transactions := l.transactions }
  frameRight : m = { p.right with transactions := m.transactions }

/-- Two worlds that look the same to the run. -/
structure Beside (w v : World) : Prop where
  ledgers : p.Later w.ledger v.ledger
  flag : w.flag = v.flag
  events : w.events = v.events

/-- A step that goes the same way from two worlds that look the same. -/
def Alike {α : Type} (Q : α → Prop) (x : Run α) : Prop :=
  ∀ w v, p.Beside w v →
    (∃ a w' v', x w = .ok a w' ∧ x v = .ok a v' ∧ Q a ∧ p.Beside w' v') ∨
    (∃ s w' v', x w = .error s w' ∧ x v = .error s v' ∧ p.Beside w' v')

variable {p} {α β : Type} {Q : α → Prop} {P : β → Prop} {l m : Ledger}

/-- An engine is known if the categories and accounts that it was given are there in both
    ledgers. -/
theorem known_of_snapshot {categories : List Category} {accounts : List Account}
    {rules : List CompleteRule} (hcategories : ∀ c ∈ categories, p.HasCategory c.id)
    (haccounts : ∀ a ∈ accounts, p.HasAccount a.id) :
    p.Known ⟨⟨categories, accounts⟩, rules⟩ where
  category := by
    -- What the engine takes for an owned category stands somewhere in the list it was given.
    rintro owner i ⟨before, c, after, hsplit, rfl, -⟩
    exact hcategories c (by rw [show categories = before ++ c :: after from hsplit]; simp)
  account := by
    rintro owner i ⟨before, a, after, hsplit, rfl, -⟩
    exact haccounts a (by rw [show accounts = before ++ a :: after from hsplit]; simp)

namespace Later

variable (h : p.Later l m) {i : Ident}
include h

/-- A row that says it is the user's is the user's rule, for no rule has been added or removed. -/
theorem ownRule {row : RuleRow} (hrow : l.rules.get? i = some row) (howner : row.user = p.user) :
    p.OwnRule i := by
  rw [h.frameLeft] at hrow
  exact Table.has_eq_true_iff.mpr ⟨row, Table.get?_of_eq_some_iff.mpr ⟨hrow, howner⟩⟩

theorem hasRule (hrule : p.OwnRule i) : (l.rules.of RuleRow.user p.user).has i = true := by
  rw [h.frameLeft]
  exact hrule

/-- What is there in both ledgers later on was there in both at the start. -/
theorem category (hleft : l.categories.has i = true) (hright : m.categories.has i = true) :
    p.HasCategory i := by
  rw [h.frameLeft] at hleft
  rw [h.frameRight] at hright
  exact ⟨hleft, hright⟩

theorem account (hleft : l.accounts.has i = true) (hright : m.accounts.has i = true) :
    p.HasAccount i := by
  rw [h.frameLeft] at hleft
  rw [h.frameRight] at hright
  exact ⟨hleft, hright⟩

theorem hasCategory (hi : p.HasCategory i) :
    l.categories.has i = true ∧ m.categories.has i = true := by
  rw [h.frameLeft, h.frameRight]
  exact hi

theorem hasAccount (hi : p.HasAccount i) :
    l.accounts.has i = true ∧ m.accounts.has i = true := by
  rw [h.frameLeft, h.frameRight]
  exact hi

/-- A category of the user is there in both ledgers, for they agree on what the user owns. -/
theorem category_of_row {row : NamedRow} (hrow : l.categories.get? i = some row)
    (howner : row.user = p.user) : p.HasCategory i := by
  obtain ⟨hleft, hright⟩ := Table.has_of_of_eq h.agree.categories hrow howner
  exact h.category hleft hright

theorem account_of_row {row : NamedRow} (hrow : l.accounts.get? i = some row)
    (howner : row.user = p.user) : p.HasAccount i := by
  obtain ⟨hleft, hright⟩ := Table.has_of_of_eq h.agree.accounts hrow howner
  exact h.account hleft hright

/-- The same change to both ledgers leads to two ledgers that are still alike, if it leaves the
    owner of the transaction in place and both ledgers have accepted it. -/
theorem modifyTransaction {f : TransactionRow → TransactionRow}
    (hf : ∀ row, (f row).user = row.user) {changes : Changes}
    (hleft : l.applyChanges i p.user changes = .ok (l.modifyTransaction i f))
    (hright : m.applyChanges i p.user changes = .ok (m.modifyTransaction i f)) :
    p.Later (l.modifyTransaction i f) (m.modifyTransaction i f) where
  agree := h.agree.modifyTransaction hf i
  soundLeft := h.soundLeft.applyChanges hleft
  soundRight := h.soundRight.applyChanges hright
  frameLeft := by
    rw [h.frameLeft]
    rfl
  frameRight := by
    rw [h.frameRight]
    rfl

/-- The categories of a user's transaction are there in both ledgers, whoever owns them. -/
theorem category_of_transaction {row : TransactionRow}
    (howned : l.ownedTransaction? i p.user = some row) {category : Ident}
    (hcategory : category ∈ row.categories) : p.HasCategory category := by
  have howned' : m.ownedTransaction? i p.user = some row := by
    rw [← h.agree.ownedTransaction? i, howned]
  -- Neither ledger holds a transaction with a category that is not there.
  have hleft := (Ledger.ownedTransaction?_eq_some_iff.mp howned).1
  have hright := (Ledger.ownedTransaction?_eq_some_iff.mp howned').1
  exact h.category ((h.soundLeft.transactions.of_get? hleft).known category hcategory)
    ((h.soundRight.transactions.of_get? hright).known category hcategory)

end Later

/-! ## Layer B: steps that go the same way -/

namespace Alike

/-- A step that does nothing, and one that fails, go the same way everywhere. -/
theorem pure {a : α} (hQ : Q a) : p.Alike Q (pure a : Run α) :=
  fun w v h => .inl ⟨a, w, v, rfl, rfl, hQ, h⟩

theorem fail (e : LedgerError) : p.Alike Q (Run.fail e : Run α) :=
  fun w v h => .inr ⟨.failed e, w, v, rfl, rfl, h⟩

/-- Whether the run is to stop is seen in the flag, and that is the same. -/
theorem cancelled : p.Alike (fun _ => True) Run.cancelled :=
  fun w v h => .inl ⟨_, w, v, rfl, by rw [h.flag]; rfl, trivial, h⟩

/-- The second step need go the same way only for the results that the first one can have. -/
theorem bind {x : Run α} {f : α → Run β} (hx : p.Alike Q x) (hf : ∀ a, Q a → p.Alike P (f a)) :
    p.Alike P (x >>= f) := by
  intro w v h
  -- Either both go on with the same result, or both end here with the same error.
  rcases hx w v h with ⟨a, w₁, v₁, hw, hv, ha, h₁⟩ | ⟨s, w₁, v₁, hw, hv, h₁⟩
  · rw [Run.bind_of_ok hw, Run.bind_of_ok hv]
    exact hf a ha w₁ v₁ h₁
  · exact .inr ⟨s, w₁, v₁, Run.bind_of_error hw, Run.bind_of_error hv, h₁⟩

theorem attempt {x : Run α} (hx : p.Alike Q x) :
    p.Alike (fun r => ∀ a, r = .ok a → Q a) (Run.attempt x) := by
  intro w v h
  rcases hx w v h with ⟨a, w₁, v₁, hw, hv, ha, h₁⟩ | ⟨e | _, w₁, v₁, hw, hv, h₁⟩
  · refine .inl ⟨.ok a, w₁, v₁, Run.attempt_of_ok hw, Run.attempt_of_ok hv, ?_, h₁⟩
    rintro _ ⟨⟩
    exact ha
  · refine .inl ⟨.error e, w₁, v₁, Run.attempt_of_failed hw, Run.attempt_of_failed hv, ?_, h₁⟩
    rintro _ ⟨⟩
  · exact .inr ⟨.crashed, w₁, v₁, by simp only [Run.attempt, hw], by simp only [Run.attempt, hv],
      h₁⟩

end Alike

/-! ## Layer C: single calls -/

section

variable {σ : Schedule} (hσ : σ.Alone) {now : Instant}
include hσ

/-- **One call** that two ledgers answer alike. What happens at it is the same, since the calls
    before it were the same. -/
theorem alike_perform {c : Call} {Q : c.Answer → Prop}
    (hserve : ∀ l m, p.Later l m →
      (∃ a l' m', c.serve now l = .ok (a, l') ∧ c.serve now m = .ok (a, m') ∧ Q a ∧
        p.Later l' m') ∨
      ∃ e, c.serve now l = .error e ∧ c.serve now m = .error e) :
    p.Alike Q (Run.perform ⟨now, σ⟩ c) := by
  rintro ⟨l, flag, es⟩ ⟨m, flag', es'⟩ ⟨h, hflag, hevents⟩
  obtain rfl : flag = flag' := hflag
  obtain rfl : es = es' := hevents
  -- Nobody else writes, so both calls are answered in the ledgers as the run left them.
  simp only [Run.perform, hσ es c, id]
  cases (σ es c).fate with
  | served =>
    rcases hserve l m h with ⟨a, l', m', hl, hm, ha, h'⟩ | ⟨e, hl, hm⟩
    · rw [hl, hm]
      exact .inl ⟨a, _, _, rfl, rfl, ha, h', rfl, rfl⟩
    · rw [hl, hm]
      exact .inr ⟨_, _, _, rfl, rfl, h, rfl, rfl⟩
  | refused e => exact .inr ⟨_, _, _, rfl, rfl, h, rfl, rfl⟩
  | crashed => exact .inr ⟨_, _, _, rfl, rfl, h, rfl, rfl⟩

/-- A call that only reads, and reads the same in both ledgers. -/
theorem alike_read (c : Call) {Q : c.Answer → Prop} (read : Ledger → Except LedgerError c.Answer)
    (hserve : ∀ l, c.serve now l = (read l).map (·, l))
    (hsame : ∀ l m, p.Later l m → read l = read m)
    (hQ : ∀ l m a, p.Later l m → read l = .ok a → Q a) :
    p.Alike Q (Run.perform ⟨now, σ⟩ c) := by
  -- Reading changes neither ledger, so the two that are beside each other stay so.
  refine alike_perform hσ fun l m h => ?_
  rw [hserve l, hserve m, ← hsame l m h]
  cases hread : read l with
  | error e => exact .inr ⟨e, rfl, rfl⟩
  | ok a => exact .inl ⟨a, l, m, rfl, rfl, hQ l m a h hread, h⟩

/-! ## Layer D: the rules and the engine -/

/-- The rules that are looked up by name are the same, and the user's. -/
theorem alike_namedRules (ids : List Ident) :
    p.Alike (fun rules => ∀ rule ∈ rules, p.OwnRule rule.id)
      (Run.namedRules ⟨now, σ⟩ p.user ids) := by
  -- On the names that are left. A rule of somebody else is not found in either ledger.
  induction ids with
  | nil => exact .pure (by simp)
  | cons id ids ih =>
    have hfind : p.Alike (fun found => ∀ rule, found = some rule → p.OwnRule rule.id)
        (Run.perform ⟨now, σ⟩ (.rule id p.user)) := by
      refine alike_read hσ (.rule id p.user) (fun l => l.rule? now id p.user) (fun _ => rfl)
        (fun l m h => h.agree.rule? now id) ?_
      rintro l m _ h hread rule rfl
      obtain ⟨row, hrow, howner, hrule⟩ := Ledger.exists_row_of_readOwned hread
      rw [Ledger.id_of_readRule hrule]
      exact h.ownRule hrow howner
    refine .bind hfind fun found hfound => .bind ih fun rules hrules => .pure fun rule hrule => ?_
    rcases List.mem_append.mp hrule with hfirst | hrest
    · exact hfound rule (Option.mem_toList.mp hfirst)
    · exact hrules rule hrest

theorem alike_currentRules :
    p.Alike (fun rules => ∀ rule ∈ rules, p.OwnRule rule.id)
      (Run.currentRules ⟨now, σ⟩ p.user) := by
  have hlist : p.Alike (fun rules => ∀ rule ∈ rules, p.OwnRule rule.id)
      (Run.perform ⟨now, σ⟩ (.rules p.user)) := by
    refine alike_read hσ (.rules p.user) (fun l => l.rulesOf now p.user) (fun _ => rfl)
      (fun l m h => h.agree.rulesOf now) ?_
    intro l m rules h hread rule hrule
    obtain ⟨e, he, hrule⟩ := exists_of_mem_mapM hread hrule
    obtain ⟨hmem, howner⟩ := List.mem_filter.mp he
    rw [Ledger.id_of_readRule hrule]
    exact h.ownRule (Table.get?_eq_some_iff.mpr hmem) (eq_of_beq howner)
  -- Leaving out rules that are not in effect brings in no others.
  exact .bind hlist fun rules hrules => .pure fun rule hrule =>
    hrules rule (List.mem_filter.mp hrule).1

/-- The conditions and actions of the user's rules are the same. They are looked up by rule alone,
    so that the rules are the user's is needed here. -/
theorem alike_complete {rules : List Rule} (hrules : ∀ rule ∈ rules, p.OwnRule rule.id) :
    p.Alike (fun _ => True) (Run.complete ⟨now, σ⟩ rules) := by
  induction rules with
  | nil => exact .pure trivial
  | cons rule rules ih =>
    -- The rule is the user's, and so are its conditions and actions.
    have hown := hrules rule List.mem_cons_self
    have hconditions : p.Alike (fun _ => True) (Run.perform ⟨now, σ⟩ (.conditions rule.id)) :=
      alike_read hσ (.conditions rule.id) (fun l => l.conditionsOf rule.id) (fun _ => rfl)
        (fun l m h => h.agree.conditionsOf (h.hasRule hown)) fun _ _ _ _ _ => trivial
    have hactions : p.Alike (fun _ => True) (Run.perform ⟨now, σ⟩ (.actions rule.id)) :=
      alike_read hσ (.actions rule.id) (fun l => l.actionsOf rule.id) (fun _ => rfl)
        (fun l m h => h.agree.actionsOf (h.hasRule hown)) fun _ _ _ _ _ => trivial
    have hothers := ih fun other hother => hrules other (List.mem_cons_of_mem _ hother)
    exact .bind hconditions fun _ _ => .bind hactions fun _ _ => .bind hothers fun _ _ =>
      .pure trivial

/-- The rules that a run works with are the same, whether they are named or listed. -/
theorem alike_workingSet (named : Option (List Ident)) :
    p.Alike (fun _ => True) (Run.workingSet ⟨now, σ⟩ p.user named) := by
  cases named with
  | some ids => exact .bind (alike_namedRules hσ _) fun rules hrules => alike_complete hσ hrules
  | none => exact .bind (alike_currentRules hσ) fun rules hrules => alike_complete hσ hrules

/-- The engine of a run stages only what is there in both ledgers. -/
theorem alike_engineFor (rules : List CompleteRule) :
    p.Alike p.Known (Run.engineFor ⟨now, σ⟩ p.user rules) := by
  have hcategories : p.Alike (fun categories => ∀ c ∈ categories, p.HasCategory c.id)
      (Run.perform ⟨now, σ⟩ (.categories p.user)) := by
    refine alike_read hσ (.categories p.user) (fun l => l.categoriesOf now p.user) (fun _ => rfl)
      (fun l m h => h.agree.categoriesOf now) ?_
    intro l m categories h hread c hc
    obtain ⟨e, he, hread⟩ := exists_of_mem_mapM hread hc
    obtain ⟨hmem, howner⟩ := List.mem_filter.mp (List.mem_mergeSort.mp he)
    rw [(Ledger.fields_of_readCategory hread).1]
    exact h.category_of_row (Table.get?_eq_some_iff.mpr hmem) (eq_of_beq howner)
  have haccounts : p.Alike (fun accounts => ∀ a ∈ accounts, p.HasAccount a.id)
      (Run.perform ⟨now, σ⟩ (.accounts p.user)) := by
    refine alike_read hσ (.accounts p.user) (fun l => l.accountsOf now p.user) (fun _ => rfl)
      (fun l m h => h.agree.accountsOf now) ?_
    intro l m accounts h hread a ha
    obtain ⟨e, he, hread⟩ := exists_of_mem_mapM hread ha
    obtain ⟨hmem, howner⟩ := List.mem_filter.mp he
    rw [(Ledger.fields_of_readAccount hread).1]
    exact h.account_of_row (Table.get?_eq_some_iff.mpr hmem) (eq_of_beq howner)
  -- Both snapshots are lists of the user's own, so each entry is there in both ledgers.
  refine .bind hcategories fun categories hc => ?_
  simp only
  -- An engine that is given no accounts stages no transfers.
  split
  · exact .bind haccounts fun accounts ha => .pure (known_of_snapshot hc ha)
  · exact .bind (Q := fun accounts => accounts = []) (.pure rfl) fun accounts ha =>
      .pure (known_of_snapshot hc (by simp [ha]))

/-! ## Layer E: going over transactions -/

variable {settings : Settings}

/-- The link to be written is the staged one or none, and it is looked up in both ledgers alike. -/
theorem alike_transferToLink (cs : Changeset) :
    p.Alike (fun transfer => ∀ link, transfer = some link → cs.transfer = some link)
      (Run.transferToLink ⟨now, σ⟩ settings p.user cs) := by
  unfold Run.transferToLink
  cases cs.transfer with
  | none => exact .pure fun link hlink => hlink
  | some staged =>
    simp only
    -- With the switch off, or when the transaction has a link, nothing is to be written.
    split
    · have hlinked : p.Alike (fun _ => True)
          (Run.perform ⟨now, σ⟩ (.transferLink cs.transaction p.user)) :=
        alike_read hσ (.transferLink cs.transaction p.user)
          (fun l => .ok (l.transferLink? cs.transaction p.user)) (fun _ => rfl)
          (fun l m h => congrArg Except.ok (h.agree.transferLink? cs.transaction))
          fun _ _ _ _ _ => trivial
      refine .bind hlinked fun linked _ => .pure fun link hlink => ?_
      split at hlink
      · cases hlink
      · exact hlink
    · exact .pure fun link hlink => nomatch hlink

/-- **Changes are written alike** if they refer only to what is there in both ledgers. -/
theorem alike_applyChanges {id : Ident} {changes : Changes}
    (hcategories : ∀ category ∈ changes.categories.getD [], p.HasCategory category)
    (haccount : ∀ link, changes.transfer = some link → p.HasAccount link.account) :
    p.Alike (fun _ => True) (Run.perform ⟨now, σ⟩ (.applyChanges id p.user changes)) := by
  refine alike_perform hσ fun l m h => ?_
  have hwrite := h.agree.applyChanges id (c := changes)
    (fun category hcategory => by simp [h.hasCategory (hcategories category hcategory)])
    (fun link hlink => by simp [h.hasAccount (haccount link hlink)])
  rcases hwrite with ⟨f, hf, hl, hm⟩ | ⟨e, hl, hm⟩
  · refine .inl ⟨(), _, _, ?_, ?_, trivial, h.modifyTransaction hf hl hm⟩
    · simp [Call.serve, hl, Except.map]
    · simp [Call.serve, hm, Except.map]
  · exact .inr ⟨e, by simp [Call.serve, hl, Except.map], by simp [Call.serve, hm, Except.map]⟩

/-- A transaction of the user is read alike, and its categories are there in both ledgers. -/
theorem alike_transaction (id : Ident) :
    p.Alike (fun found => ∀ t, found = some t → ∀ category ∈ t.categories, p.HasCategory category)
      (Run.perform ⟨now, σ⟩ (.transaction id p.user)) := by
  refine alike_read hσ (.transaction id p.user) (fun l => l.transaction? now id p.user)
    (fun _ => rfl) (fun l m h => h.agree.transaction? now id) ?_
  rintro l m _ h hread t rfl category hcategory
  obtain ⟨row, hrow, howner, hread⟩ := Ledger.exists_row_of_readOwned hread
  obtain ⟨-, -, -, -, -, -, hcategories⟩ := Ledger.fields_of_readTransaction hread
  exact h.category_of_transaction (Ledger.ownedTransaction?_eq_some_iff.mpr ⟨hrow, howner⟩)
    (hcategories ▸ hcategory)

/-- **Writing a changeset** whose categories and account are there in both ledgers. -/
theorem alike_apply {cs : Changeset} (hcategories : ∀ category ∈ cs.categories,
    p.HasCategory category) (haccount : ∀ link, cs.transfer = some link →
      p.HasAccount link.account) :
    p.Alike (fun _ => True) (Run.apply ⟨now, σ⟩ settings p.user cs) := by
  refine .bind (alike_transaction hσ cs.transaction) fun found hfound => ?_
  cases found with
  | none => exact .fail _
  | some live =>
    refine .bind (alike_transferToLink hσ cs) fun transfer htransfer => ?_
    simp only
    split
    · exact .pure trivial
    · refine .bind (alike_applyChanges hσ ?_ ?_) fun _ _ => .pure trivial
      · -- What is written are the categories that were there, and the staged ones after them.
        intro category hcategory
        unfold Changeset.categoriesAgainst at hcategory
        simp only at hcategory
        split at hcategory
        · cases hcategory
        · rcases List.mem_append.mp hcategory with hold | hnew
          · exact hfound live rfl category hold
          · exact hcategories category (List.mem_filter.mp hnew).1
      · exact fun link hlink => haccount link (htransfer link hlink)

variable {engine : Engine} (hengine : p.Known engine)
include hengine

/-- **One transaction** goes the same way in both ledgers, whatever becomes of its changeset. -/
theorem alike_process (s : Summary) (t : Transaction) :
    p.Alike (fun _ => True) (Run.process ⟨now, σ⟩ settings p.user engine s t) := by
  unfold Run.process
  cases hcs : engine.evaluate t with
  | none => exact .pure trivial
  | some cs =>
    -- What the engine stages it was given, and what it was given is there in both ledgers.
    have happly : p.Alike (fun _ => True) (Run.apply ⟨now, σ⟩ settings p.user cs) := by
      apply alike_apply hσ
      · exact fun category hcategory =>
          hengine.category _ _ (Engine.category_of_evaluate hcs hcategory).1
      · exact fun link hlink => hengine.account _ _ (Engine.transfer_of_evaluate hcs hlink).1
    refine .bind happly.attempt fun result _ => ?_
    rcases result with e | _ | modified
    · exact .pure trivial
    · exact .pure trivial
    · exact .pure trivial

theorem alike_processAll (ts : List Transaction) (s : Summary) :
    p.Alike (fun _ => True) (Run.processAll ⟨now, σ⟩ settings p.user engine s ts) := by
  induction ts generalizing s with
  | nil => exact .pure trivial
  | cons t ts ih => exact .bind (alike_process hσ hengine s t) fun s _ => ih s

theorem alike_processNamed (ids : List Ident) (s : Summary) :
    p.Alike (fun _ => True) (Run.processNamed ⟨now, σ⟩ settings p.user engine s ids) := by
  -- On the names that are left; a lookup that fails ends both runs.
  induction ids generalizing s with
  | nil => exact .pure trivial
  | cons id ids ih =>
    refine .bind (alike_transaction hσ id).attempt fun result _ => ?_
    rcases result with e | _ | t
    · exact .pure trivial
    · exact ih s
    · exact .bind (alike_process hσ hengine s t) fun s _ => ih s

/-- The pages of a full scan; both runs read the same ones and stop at the same one. -/
theorem alike_processPages (size : UInt64) (left : Nat) (page : UInt64) (s : Summary) :
    p.Alike (fun _ => True)
      (Run.processPages ⟨now, σ⟩ settings p.user engine size left page s) := by
  induction left generalizing page s with
  | zero => exact .pure trivial
  | succ left ih =>
    have hpage : p.Alike (fun _ => True) (Run.perform ⟨now, σ⟩ (.page p.user page size)) :=
      alike_read hσ (.page p.user page size) (fun l => l.page now p.user page size .newestFirst)
        (fun _ => rfl) (fun l m h => h.agree.page now page size .newestFirst)
        fun _ _ _ _ _ => trivial
    -- The flag is the same in both runs.
    refine .bind .cancelled fun stop _ => ?_
    split
    · exact .pure trivial
    · refine .bind hpage.attempt fun result _ => ?_
      rcases result with e | ts
      · exact .pure trivial
      · refine .bind (alike_processAll hσ hengine ts s) fun s _ => ?_
        split
        · exact .pure trivial
        · exact ih (page + 1) s

theorem alike_processRequest (request : Request) (s : Summary) :
    p.Alike (fun _ => True)
      (Run.processRequest ⟨now, σ⟩ settings p.user engine request s) := by
  unfold Run.processRequest
  split
  · refine .bind .cancelled fun stop _ => ?_
    split
    · exact .pure trivial
    · exact alike_processNamed hσ hengine _ s
  · exact alike_processPages hσ hengine _ _ _ s

end

/-! ## Layer F: whole runs -/

section

variable {σ : Schedule} (hσ : σ.Alone) {now : Instant}
include hσ

/-- **A whole run**: the rules, the engine, and then the transactions. -/
theorem alike_execute (settings : Settings) (request : Request) :
    p.Alike (fun _ => True) (Run.execute ⟨now, σ⟩ settings p.user request) := by
  refine .bind (alike_workingSet hσ request.rules) fun rules _ => ?_
  split
  · exact .pure trivial
  · exact .bind (alike_engineFor hσ rules) fun engine hengine =>
      alike_processRequest hσ hengine request _

theorem alike_preview (id : Ident) :
    p.Alike (fun _ => True) (Run.preview ⟨now, σ⟩ p.user id) := by
  refine .bind (alike_transaction hσ id) fun found _ => ?_
  cases found with
  | none => exact .fail _
  | some t =>
    refine .bind (alike_workingSet hσ none) fun rules _ => ?_
    split
    · exact .pure trivial
    · exact .bind (alike_engineFor hσ rules) fun engine _ => .pure trivial

end

end Twins

/-- Two runs that go the same way have the same outcome, and they leave worlds that look the
    same. -/
theorem Twins.Alike.outcomeOf_eq {p : Twins} {α : Type} {Q : α → Prop} {x : Run α}
    (hx : p.Alike Q x) {w v : World} (h : p.Beside w v) :
    Run.outcomeOf (x w) = Run.outcomeOf (x v) ∧
      p.Beside (Run.worldOf (x w)) (Run.worldOf (x v)) := by
  rcases hx w v h with ⟨a, w₁, v₁, hw, hv, -, h₁⟩ | ⟨s, w₁, v₁, hw, hv, h₁⟩
  · rw [hw, hv]
    exact ⟨rfl, h₁⟩
  · rw [hw, hv]
    exact ⟨rfl, h₁⟩

/-- **A run does not see other users.** From two reachable ledgers that agree on what a user owns,
    for any request, under the same settings and at the same time, let runs for the user be alone
    with their ledgers, and let the same happen to both of them after the same calls. They make the
    same calls, come to the same result, and the ledgers still agree on what the user owns. The same
    transaction has the same preview in both. -/
theorem execute_sees_only_own {user : Ident} {l m : Ledger} (hl : l.Reachable) (hm : m.Reachable)
    (hagree : l.Agree user m) {σ : Schedule} (hσ : σ.Alone) (now : Instant) (settings : Settings)
    (request : Request) (flag : Option Bool) :
    let run := fun l : Ledger => Run.execute ⟨now, σ⟩ settings user request ⟨l, flag, []⟩
    let preview := fun (l : Ledger) id => Run.preview ⟨now, σ⟩ user id ⟨l, flag, []⟩
    Run.outcomeOf (run l) = Run.outcomeOf (run m) ∧
    (Run.worldOf (run l)).events = (Run.worldOf (run m)).events ∧
    (Run.worldOf (run l)).ledger.Agree user (Run.worldOf (run m)).ledger ∧
    ∀ id, Run.outcomeOf (preview l id) = Run.outcomeOf (preview m id) := by
  intro run preview
  have hbeside : Twins.Beside ⟨user, l, m⟩ ⟨l, flag, []⟩ ⟨m, flag, []⟩ :=
    ⟨⟨hagree, hl.sound, hm.sound, rfl, rfl⟩, rfl, rfl⟩
  obtain ⟨houtcome, hafter⟩ :=
    (Twins.alike_execute (p := ⟨user, l, m⟩) hσ settings request).outcomeOf_eq hbeside
  refine ⟨houtcome, hafter.events, hafter.ledgers.agree, fun id => ?_⟩
  exact ((Twins.alike_preview (p := ⟨user, l, m⟩) hσ id).outcomeOf_eq hbeside).1

/-- The small ledger with what another user wrote to it: a rule that files streams elsewhere, and a
    transaction of its own. -/
def Ledger.shared : Ledger :=
  Ledger.streaming.afterWrites
    [.createAccount dawn 2 "Savings",
      .createCategory dawn 2 "Leisure",
      .createRule dawn 2 "Leisure" none dawn .or,
      .addCondition 2 .name .contains "netflix",
      .addAction 2 .category "2",
      .insertTransaction dawn 2 ⟨2, "Netflix", none, Amount.zero, dawn, [1]⟩]

theorem Ledger.reachable_shared : Reachable shared := reachable_streaming.afterWrites _

/-- The first user sees nothing of the second. -/
theorem Ledger.agree_shared : streaming.Agree 1 shared := by
  have hdetails : ∀ e ∈ (streaming.rules.of RuleRow.user 1).entries,
      (streaming.conditions.of ConditionRow.rule e.1).entries =
          (shared.conditions.of ConditionRow.rule e.1).entries ∧
        (streaming.actions.of ActionRow.rule e.1).entries =
          (shared.actions.of ActionRow.rule e.1).entries := by
    decide +kernel
  have hrule : ∀ rule, (streaming.rules.of RuleRow.user 1).has rule = true →
      ∃ e ∈ (streaming.rules.of RuleRow.user 1).entries, e.1 = rule := by
    intro rule hrule
    obtain ⟨row, hrow⟩ := Table.has_eq_true_iff.mp hrule
    exact ⟨_, Table.get?_eq_some_iff.mp hrow, rfl⟩
  -- Four tables of the user's own, and the two that hang on the rules of the user.
  refine ⟨?_, ?_, ?_, ?_, ?_, ?_⟩
  · exact Table.ext (by decide +kernel)
  · exact Table.ext (by decide +kernel)
  · exact Table.ext (by decide +kernel)
  · exact Table.ext (by decide +kernel)
  · intro rule howned
    obtain ⟨e, he, rfl⟩ := hrule rule howned
    exact Table.ext (hdetails e he).1
  · intro rule howned
    obtain ⟨e, he, rfl⟩ := hrule rule howned
    exact Table.ext (hdetails e he).2

/-- Whether the second user is there makes no difference to a run for the first. -/
theorem execute_sees_only_own_shared :
    Ledger.shared.transactions.has 4 = true ∧ Ledger.streaming.transactions.has 4 = false ∧
      Run.outcomeOf (Run.execute ⟨Ledger.dawn, .calm⟩ .standard 1 .all
          ⟨Ledger.streaming, none, []⟩) =
        Run.outcomeOf (Run.execute ⟨Ledger.dawn, .calm⟩ .standard 1 .all
          ⟨Ledger.shared, none, []⟩) := by
  obtain ⟨houtcome, -⟩ := execute_sees_only_own Ledger.reachable_streaming Ledger.reachable_shared
    Ledger.agree_shared Schedule.alone_calm Ledger.dawn .standard .all none
  exact ⟨by decide +kernel, by decide +kernel, houtcome⟩

end LedgerRules
