import LedgerRules.Proofs.Ledger.Revised
import LedgerRules.Proofs.Run.Operations

/-!
# The integrity of a ledger

What holds of a ledger whatever has happened to it: rows refer to rows that are there, nothing is
kept twice that is to be kept once, and everything that was written can be read. Most of this comes
from soundness; that no user has two categories of one name is a property that the writes keep on
their own.

## Overview

- **Layer A**: the integrity of the tables, and what it is to read all of a ledger.
- **Layer B**: names of categories.
- **Layer C**: sound ledgers can be read.
- **Layer D**: whatever happens to a ledger keeps its integrity.
-/

namespace LedgerRules

namespace Ledger

/-! ## Layer A: what integrity is -/

/-- The tables of a ledger fit together. That a transaction has one link at most, and a table one
    row at most under an identifier, is a matter of their types. -/
structure Intact (l : Ledger) : Prop where
  /-- A transaction is booked on an account of its user. -/
  booked : ∀ {id row}, l.transactions.get? id = some row →
    ∃ account, l.accounts.get? row.account = some account ∧ account.user = row.user
  /-- A transaction names each of its categories once. -/
  distinct : ∀ {id row}, l.transactions.get? id = some row → row.categories.Nodup
  /-- The categories of a transaction are there. -/
  filed : ∀ {id row}, l.transactions.get? id = some row →
    ∀ category ∈ row.categories, l.categories.has category = true
  /-- A transfer link leads to an account that is there, and its amount is a number. -/
  linked : ∀ {id row link}, l.transactions.get? id = some row → row.transfer = some link →
    l.accounts.has link.account = true ∧ link.amount.isNaN = false
  /-- The rule of a condition is there. -/
  conditioned : ∀ {id row}, l.conditions.get? id = some row → l.rules.has row.rule = true
  /-- The rule of an action is there. -/
  acted : ∀ {id row}, l.actions.get? id = some row → l.rules.has row.rule = true
  /-- No two categories of a user have the same name. -/
  named : ∀ {i j a b}, l.categories.get? i = some a → l.categories.get? j = some b →
    a.user = b.user → a.name = b.name → i = j
  /-- To record a category that is there is to find it. -/
  found : ∀ {i row} (now : Instant), l.categories.get? i = some row →
    l.createCategory now row.user row.name = .ok (i, l)

/-- A time of recording that is there and is a date. -/
def Recorded (createdAt : Option String) : Prop :=
  ∃ text t, createdAt = some text ∧ Calendar.readStored text.toList = .ok t

/-- A date that decodes. -/
def Dated (text : String) : Prop := ∃ t, Calendar.readStored text.toList = .ok t

/-- A word of a vocabulary. -/
def Worded (α : Type) [Vocabulary α] (text : String) : Prop :=
  ∃ v : α, Vocabulary.parse text = .ok v

/-- A look at a ledger that does not fail. -/
def Answers {α : Type} (look : Except LedgerError α) : Prop := ∃ a, look = .ok a

/-- All that a ledger holds can be read, one row at a time and in each listing. The transfer link of
    a transaction is read as it is kept. -/
structure Legible (l : Ledger) : Prop where
  accountRow : ∀ {id row}, l.accounts.get? id = some row → Recorded row.createdAt
  categoryRow : ∀ {id row}, l.categories.get? id = some row → Recorded row.createdAt
  transactionRow : ∀ {id row}, l.transactions.get? id = some row →
    Recorded row.createdAt ∧ Dated row.date
  ruleRow : ∀ {id row}, l.rules.get? id = some row →
    Recorded row.createdAt ∧ Dated row.effectiveFrom ∧ Worded Logic row.logic
  conditionRow : ∀ {id row}, l.conditions.get? id = some row →
    Worded Subject row.subject ∧ Worded Comparison row.comparison
  actionRow : ∀ {id row}, l.actions.get? id = some row → Worded Part row.part
  account : ∀ now id user, Answers (l.account? now id user)
  accounts : ∀ now user, Answers (l.accountsOf now user)
  categories : ∀ now user, Answers (l.categoriesOf now user)
  rule : ∀ now id user, Answers (l.rule? now id user)
  rules : ∀ now user, Answers (l.rulesOf now user)
  conditions : ∀ rule, Answers (l.conditionsOf rule)
  actions : ∀ rule, Answers (l.actionsOf rule)
  completeRules : ∀ now user, Answers (l.completeRulesOf now user)
  transaction : ∀ now id user, Answers (l.transaction? now id user)
  page : ∀ now user number size order, Answers (l.page now user number size order)

/-! ## Layer B: names of categories -/

variable {l : Ledger} {i : Ident} {row : NamedRow} {user : Ident} {name : String}

/-- Where no category of a name is found there is none. -/
theorem categoryNamed?_eq_none (h : l.categoryNamed? user name = none)
    (hrow : l.categories.get? i = some row) : ¬ (row.user = user ∧ row.name = name) := by
  rintro ⟨rfl, rfl⟩
  -- The search goes through all categories, so it would have found this one.
  rw [categoryNamed?, Option.map_eq_none_iff, List.find?_eq_none] at h
  exact h (i, row) (Table.get?_eq_some_iff.mp hrow) (by simp)

/-- A category that is found under a name has it. -/
theorem get?_of_categoryNamed? (h : l.categoryNamed? user name = some i) :
    ∃ row, l.categories.get? i = some row ∧ row.user = user ∧ row.name = name := by
  obtain ⟨e, he, rfl⟩ := Option.map_eq_some_iff.mp h
  have hname := List.find?_some he
  simp only [Bool.and_eq_true, beq_iff_eq] at hname
  exact ⟨e.2, Table.get?_eq_some_iff.mpr (List.mem_of_find?_eq_some he), hname⟩

/-- No two categories of a user have the same name. -/
def DistinctNames (l : Ledger) : Prop :=
  ∀ {i j a b}, l.categories.get? i = some a → l.categories.get? j = some b →
    a.user = b.user → a.name = b.name → i = j

theorem distinctNames_empty : DistinctNames Ledger.empty := by
  intro i j a b ha
  cases ha

/-- A category is recorded only if there is none of its name yet. -/
theorem DistinctNames.insert {new : NamedRow} {categories : Table NamedRow}
    (hl : DistinctNames l) (hnew : l.categoryNamed? new.user new.name = none)
    (h : l.categories.insert? new = some (i, categories)) :
    DistinctNames { l with categories } := by
  intro j k a b ha hb huser hname
  rw [Table.get?_insert? h] at ha hb
  -- Of two categories at most one is the new one, and that one differs from the old ones.
  split at ha <;> split at hb
  · rename_i hj hk
    rw [hj, hk]
  · cases ha
    exact absurd ⟨huser.symm, hname.symm⟩ (categoryNamed?_eq_none hnew hb)
  · cases hb
    exact absurd ⟨huser, hname⟩ (categoryNamed?_eq_none hnew ha)
  · exact hl ha hb huser hname

theorem lasting_distinctNames : Lasting DistinctNames := by
  intro w l l' hl h
  cases Wrote.of_run h with
  | category hnew hinsert => exact hl.insert hnew hinsert
  | nothing | account | rule | condition | action | transaction | change => exact hl

/-- Where names are distinct, a category that is there is the one found under its name. -/
theorem DistinctNames.createCategory_eq (hl : DistinctNames l)
    (hrow : l.categories.get? i = some row) (now : Instant) :
    l.createCategory now row.user row.name = .ok (i, l) := by
  unfold createCategory
  cases hfind : l.categoryNamed? row.user row.name with
  | none => exact absurd ⟨rfl, rfl⟩ (categoryNamed?_eq_none hfind hrow)
  | some j =>
    obtain ⟨other, hother, huser, hname⟩ := get?_of_categoryNamed? hfind
    -- The name is that of one category only, so it is this one that was found.
    rw [hl hother hrow huser hname]

/-! ## Layer C: reading -/

theorem dated_stamp (t : Instant) : Dated (stamp t) :=
  ⟨t.recorded, by rw [stamp, String.toList_ofList, Calendar.readStored_storedText]⟩

theorem Stamped.recorded {createdAt : Option String} (h : Stamped createdAt) :
    Recorded createdAt := by
  obtain ⟨t, rfl⟩ := h
  obtain ⟨t', ht'⟩ := dated_stamp t
  exact ⟨stamp t, t', rfl, ht'⟩

theorem worded_word {α : Type} [Vocabulary α] [Vocabulary.Lawful α] (v : α) :
    Worded α (Vocabulary.word v) :=
  ⟨v, Vocabulary.Lawful.parse_word v⟩

namespace Sound

variable (hl : Sound l)
include hl

theorem exists_account? (now : Instant) (id user : Ident) : Answers (l.account? now id user) :=
  exists_readOwned (hl.accounts.imp fun _ _ => exists_readAccount)

theorem exists_transaction? (now : Instant) (id user : Ident) :
    Answers (l.transaction? now id user) :=
  exists_readOwned (hl.transactions.imp fun _ _ => SoundTransaction.exists_read)

theorem exists_completeRulesOf (now : Instant) (user : Ident) :
    Answers (l.completeRulesOf now user) := by
  obtain ⟨rules, hrules⟩ := hl.exists_rulesOf now user
  -- The rules are listed first, and then conditions and actions for each.
  rw [Answers, completeRulesOf, hrules]
  exact exists_mapM_eq_ok fun rule _ => hl.exists_completeRule rule

theorem exists_page (now : Instant) (user : Ident) (number size : UInt64) (order : ListOrder) :
    Answers (l.page now user number size order) := by
  refine exists_mapM_eq_ok fun e he => ?_
  -- Each row on the page is in the listing, and so one of the user's sound rows.
  have howned :=
    ownedTransaction?_eq_some_iff.mp (mem_orderedRows_iff.mp (Window.mem_of_mem_cut he))
  exact (hl.transactions.of_get? howned.1).exists_read

theorem legible : Legible l where
  accountRow := fun hrow => (hl.accounts.of_get? hrow).recorded
  categoryRow := fun hrow => (hl.categories.of_get? hrow).recorded
  transactionRow := fun hrow => by
    have h := hl.transactions.of_get? hrow
    obtain ⟨date, hdate⟩ := h.dated
    exact ⟨h.stamped.recorded, hdate ▸ dated_stamp date⟩
  ruleRow := fun hrow => by
    have h := hl.rules.of_get? hrow
    obtain ⟨first, hfirst⟩ := h.effective
    obtain ⟨logic, hlogic⟩ := h.worded
    exact ⟨h.stamped.recorded, hfirst ▸ dated_stamp first, hlogic ▸ worded_word logic⟩
  conditionRow := fun hrow => by
    have h := hl.conditions.of_get? hrow
    obtain ⟨subject, hsubject⟩ := h.subject
    obtain ⟨comparison, hcomparison⟩ := h.comparison
    exact ⟨hsubject ▸ worded_word subject, hcomparison ▸ worded_word comparison⟩
  actionRow := fun hrow => by
    obtain ⟨part, hpart⟩ := (hl.actions.of_get? hrow).worded
    exact hpart ▸ worded_word part
  account := hl.exists_account?
  accounts := hl.exists_accountsOf
  categories := hl.exists_categoriesOf
  rule := hl.exists_rule?
  rules := hl.exists_rulesOf
  conditions := hl.exists_conditionsOf
  actions := hl.exists_actionsOf
  completeRules := hl.exists_completeRulesOf
  transaction := hl.exists_transaction?
  page := hl.exists_page

end Sound

/-! ## Layer D: integrity -/

theorem Sound.intact (hl : Sound l) (hnames : DistinctNames l) : Intact l where
  -- All but the names follows from the soundness of the rows.
  booked := fun hrow => (hl.transactions.of_get? hrow).account
  distinct := fun hrow => (hl.transactions.of_get? hrow).distinct
  filed := fun hrow => (hl.transactions.of_get? hrow).known
  linked := fun hrow hlink => by
    have hsound := (hl.transactions.of_get? hrow).linked _ hlink
    exact ⟨hsound.known, Amount.isNaN_of_kept? hsound.kept⟩
  conditioned := fun hrow => (hl.conditions.of_get? hrow).ruled
  acted := fun hrow => (hl.actions.of_get? hrow).ruled
  named := hnames
  found := fun now hrow => hnames.createCategory_eq hrow now

/-- **A ledger stays intact and legible.** Whatever writes and runs have happened to a ledger since
    it was empty, in whatever order, with whatever arguments, and whether they succeeded or failed:
    transactions are booked on accounts of their users, name each category once and only categories
    that are there, and link to accounts that are there with amounts that are numbers; conditions
    and actions belong to rules that are there; a name stands for one category of a user, which is
    found when it is to be recorded again; and every lookup and every listing succeeds, each stored
    date and word being one that decodes. -/
theorem operations_keep_integrity (ops : List Operation) :
    Intact (Ledger.empty.afterOperations ops) ∧ Legible (Ledger.empty.afterOperations ops) := by
  -- Operations lead from the empty ledger to reachable ones, and these are sound.
  have hsound : Sound (Ledger.empty.afterOperations ops) :=
    (Reachable.empty.afterOperations ops).sound
  have hnames : DistinctNames (Ledger.empty.afterOperations ops) :=
    lasting_distinctNames.afterOperations distinctNames_empty ops
  exact ⟨hsound.intact hnames, hsound.legible⟩

end Ledger

end LedgerRules
