import LedgerRules.Proofs.Calendar.Stored
import LedgerRules.Proofs.Ledger.Reachable
import LedgerRules.Proofs.Rules.Meaning
import Mathlib.Data.List.Perm.Subperm

/-!
# Reading a sound ledger

Nothing that a sound ledger holds fails to be read. What is stored as text was written from a
value, and each such text is read back.

## Overview

- **Layer A**: the columns that are kept as text.
- **Layer B**: rows, lookups and listings.
- **Layer C**: the rules that a run resolves, and the snapshot that it takes.
- **Layer D**: all of this at another time.
-/

namespace LedgerRules

/-! ## Layer A: columns -/

/-- A vocabulary of which every word names its value. -/
class Vocabulary.Lawful (α : Type) [Vocabulary α] : Prop where
  parse_word : ∀ v : α, Vocabulary.parse (Vocabulary.word v) = .ok v

instance : Vocabulary.Lawful Logic := ⟨fun v => by cases v <;> rfl⟩

instance : Vocabulary.Lawful Subject := ⟨fun v => by cases v <;> rfl⟩

instance : Vocabulary.Lawful Comparison := ⟨fun v => by cases v <;> rfl⟩

instance : Vocabulary.Lawful Part := ⟨fun v => by cases v <;> rfl⟩

namespace Ledger

theorem readWord_word {α : Type} [Vocabulary α] [Vocabulary.Lawful α] (column : Nat) (v : α) :
    readWord column (Vocabulary.word v) = .ok v := by
  rw [readWord, Vocabulary.Lawful.parse_word]

/-- What is read of a stored date is what a ledger keeps of the instant. -/
theorem readDate_stamp (column : Nat) (t : Instant) :
    readDate column (stamp t) = .ok t.recorded := by
  rw [readDate, stamp, String.toList_ofList, Calendar.readStored_storedText]

/-- What is read of a time of recording is what a ledger keeps of it, and the clock is not asked. -/
theorem readCreatedAt_stamp (now : Instant) (column : Nat) (t : Instant) :
    readCreatedAt now column (some (stamp t)) = .ok t.recorded := by
  simp only [readCreatedAt, stamp, String.toList_ofList, Calendar.readStored_storedText]

/-- Instants of which a ledger keeps the same have the same text. -/
theorem stamp_recorded (t : Instant) : stamp t.recorded = stamp t :=
  congrArg String.ofList (Calendar.storedText_recorded t)

/-- Whatever was read of a stored date, a ledger keeps it as it is. -/
theorem recorded_of_readDate {column : Nat} {text : String} {t : Instant}
    (h : readDate column text = .ok t) : t.recorded = t := by
  unfold readDate at h
  split at h
  · rename_i hread
    cases h
    exact Calendar.recorded_of_readStored hread
  · cases h

/-- **Stored dates are read to the second.** Reading the text that is stored for an instant
    succeeds. A regular instant comes back with every part but its fraction of a second, and the
    sixtieth second of a minute stays a leap second. A leap second after any other second, for which
    the text has no form of its own, comes back as the second after it. What is read has the same
    text again, and storing a date that was read, whatever text it was read from, and reading it
    once more changes nothing. -/
theorem stored_dates_are_read_to_the_second (column : Nat) (t : Instant) :
    (∃ s, readDate column (stamp t) = .ok s ∧
        (s.date = t.date ∧ s.hour = t.hour ∧ s.minute = t.minute) ∧
        (t.Regular → s = t.wholeSecond) ∧
        (¬ t.Regular → s.second = t.second + 1 ∧ s.nano = 0) ∧
        stamp s = stamp t) ∧
      ∀ text, ((readDate column text).bind fun s => readDate column (stamp s)) =
        readDate column text := by
  constructor
  · obtain ⟨hdate, hhour, hminute, -⟩ := t.recorded_parts
    exact ⟨t.recorded, readDate_stamp column t, ⟨hdate, hhour, hminute⟩,
      Instant.recorded_of_regular, fun h => (Instant.parts_recorded h).2, stamp_recorded t⟩
  · intro text
    cases h : readDate column text with
    | error e => rfl
    | ok s =>
      -- What was read is what a ledger keeps, so it has a text that is read as itself.
      have hkept : readDate column (stamp s) = .ok s := by
        rw [readDate_stamp, recorded_of_readDate h]
      rw [Except.bind, hkept]

/-- A leap second within a minute is not read back, not even without its fraction. -/
theorem leap_second_within_minute_is_not_read_back :
    ∃ s, readDate 6 (stamp Instant.withinMinute) = .ok s ∧
      s ≠ Instant.withinMinute.wholeSecond :=
  ⟨_, readDate_stamp 6 Instant.withinMinute, by decide⟩

/-! ## Layer B: rows, lookups and listings -/

variable {now : Instant} {id user : Ident}

theorem exists_readAccount {row : NamedRow} (h : Stamped row.createdAt) :
    ∃ account, readAccount now id row = .ok account := by
  obtain ⟨t, ht⟩ := h
  rw [readAccount, ht, readCreatedAt_stamp]
  exact ⟨_, rfl⟩

/-- A category whose time of recording was written from an instant can be read. -/
theorem exists_readCategory {row : NamedRow} (h : Stamped row.createdAt) :
    ∃ category, readCategory now id row = .ok category := by
  -- The name and the user are taken as they are, so nothing else could fail.
  obtain ⟨t, ht⟩ := h
  rw [readCategory, ht, readCreatedAt_stamp]
  exact ⟨_, rfl⟩

/-- A sound row of a transaction can be read. -/
theorem SoundTransaction.exists_read {accounts categories : Table NamedRow} {row : TransactionRow}
    (h : SoundTransaction accounts categories row) : ∃ t, readTransaction now id row = .ok t := by
  -- Two columns are texts of instants, and each is read back.
  obtain ⟨t, ht⟩ := h.stamped
  obtain ⟨date, hdate⟩ := h.dated
  rw [readTransaction, ht, readCreatedAt_stamp, hdate, readDate_stamp]
  exact ⟨_, rfl⟩

/-- A sound row of a rule can be read. -/
theorem SoundRule.exists_read {row : RuleRow} (h : SoundRule row) :
    ∃ rule, readRule now id row = .ok rule := by
  obtain ⟨t, ht⟩ := h.stamped
  obtain ⟨first, hfirst⟩ := h.effective
  obtain ⟨logic, hlogic⟩ := h.worded
  rw [readRule, ht, readCreatedAt_stamp, hfirst, readDate_stamp, hlogic, readWord_word]
  exact ⟨_, rfl⟩

/-- A sound row of a condition can be read. -/
theorem SoundCondition.exists_read {rules : Table RuleRow} {row : ConditionRow}
    (h : SoundCondition rules row) : ∃ condition, readCondition id row = .ok condition := by
  -- The two words stand for values, and the literal is not looked at here.
  obtain ⟨subject, hsubject⟩ := h.subject
  obtain ⟨comparison, hcomparison⟩ := h.comparison
  rw [readCondition, hsubject, readWord_word, hcomparison, readWord_word]
  exact ⟨_, rfl⟩

theorem SoundAction.exists_read {rules : Table RuleRow} {row : ActionRow}
    (h : SoundAction rules row) : ∃ action, readAction id row = .ok action := by
  obtain ⟨part, hpart⟩ := h.worded
  rw [readAction, hpart, readWord_word]
  exact ⟨_, rfl⟩

/-- What reading a transaction takes from its row as it is. -/
theorem fields_of_readTransaction {row : TransactionRow} {t : Transaction}
    (h : readTransaction now id row = .ok t) :
    t.id = id ∧ t.user = row.user ∧ t.account = row.account ∧ t.name = row.name ∧
      t.description = row.description ∧ t.amount = row.amount ∧ t.categories = row.categories := by
  obtain ⟨createdAt, -, h⟩ := bind_eq_ok_iff.mp h
  obtain ⟨date, -, h⟩ := bind_eq_ok_iff.mp h
  cases h
  exact ⟨rfl, rfl, rfl, rfl, rfl, rfl, rfl⟩

/-- A rule is read under the identifier of its row. -/
theorem id_of_readRule {row : RuleRow} {rule : Rule} (h : readRule now id row = .ok rule) :
    rule.id = id := by
  obtain ⟨createdAt, -, h⟩ := bind_eq_ok_iff.mp h
  obtain ⟨first, -, h⟩ := bind_eq_ok_iff.mp h
  obtain ⟨logic, -, h⟩ := bind_eq_ok_iff.mp h
  cases h
  rfl

/-- What reading a category takes from its row and its place as it is. -/
theorem fields_of_readCategory {row : NamedRow} {category : Category}
    (h : readCategory now id row = .ok category) : category.id = id ∧ category.user = row.user := by
  obtain ⟨createdAt, -, h⟩ := bind_eq_ok_iff.mp h
  cases h
  exact ⟨rfl, rfl⟩

theorem fields_of_readAccount {row : NamedRow} {account : Account}
    (h : readAccount now id row = .ok account) : account.id = id ∧ account.user = row.user := by
  obtain ⟨createdAt, -, h⟩ := bind_eq_ok_iff.mp h
  cases h
  exact ⟨rfl, rfl⟩

/-- In a table whose rows can all be read, looking for an owned row does not fail. -/
theorem exists_readOwned {α β : Type} {table : Table α} {owner : α → Ident}
    {read : Ident → α → Except LedgerError β}
    (h : table.All fun id row => ∃ x, read id row = .ok x) :
    ∃ found, readOwned table owner read id user = .ok found := by
  unfold readOwned
  split
  · exact ⟨_, rfl⟩
  · rename_i row hrow
    obtain ⟨x, hx⟩ := h.of_get? hrow
    -- The row is read only if the user owns it.
    split
    · exact ⟨_, map_eq_ok_iff.mpr ⟨x, hx, rfl⟩⟩
    · exact ⟨_, rfl⟩

/-- What is found for a user was read from a row of the user. -/
theorem exists_row_of_readOwned {α β : Type} {table : Table α} {owner : α → Ident}
    {read : Ident → α → Except LedgerError β} {x : β}
    (h : readOwned table owner read id user = .ok (some x)) :
    ∃ row, table.get? id = some row ∧ owner row = user ∧ read id row = .ok x := by
  unfold readOwned at h
  split at h
  · cases h
  · rename_i row hrow
    split at h
    · rename_i howner
      obtain ⟨y, hread, heq⟩ := map_eq_ok_iff.mp h
      cases heq
      exact ⟨row, hrow, eq_of_beq howner, hread⟩
    · cases h

/-- In a table whose rows can all be read, listing those that pass a test does not fail. -/
theorem exists_readWhere {α β : Type} {table : Table α} {test : α → Bool}
    {read : Ident → α → Except LedgerError β}
    (h : table.All fun id row => ∃ x, read id row = .ok x) :
    ∃ xs, readWhere table test read = .ok xs :=
  exists_mapM_eq_ok fun e he => h e (List.mem_filter.mp he).1

/-- What a lookup finds is the row under the identifier. -/
theorem ownedTransaction?_eq_some_iff {l : Ledger} {row : TransactionRow} :
    l.ownedTransaction? id user = some row ↔
      l.transactions.get? id = some row ∧ row.user = user := by
  simp [ownedTransaction?, Option.filter_eq_some_iff]

/-- The check for the owner passes exactly if the transaction is found. -/
theorem checkOwned_eq_ok_iff {l : Ledger} :
    l.checkOwned id user = .ok () ↔ ∃ row, l.ownedTransaction? id user = some row := by
  unfold checkOwned
  cases l.ownedTransaction? id user <;> simp

/-- The entry under the identifier of a transaction that is found holds the row that is found. -/
theorem eq_of_ownedTransaction? {l : Ledger} {row : TransactionRow}
    (howned : l.ownedTransaction? id user = some row) {e : Ident × TransactionRow}
    (he : e ∈ l.transactions.entries) (hid : e.1 = id) : e.2 = row := by
  have hget := (ownedTransaction?_eq_some_iff.mp howned).1
  have he' := Table.get?_eq_some_iff.mpr he
  rw [hid, hget] at he'
  exact (Option.some.inj he').symm

/-- A user's transaction is found as its row is read. -/
theorem transaction?_eq_some {l : Ledger} {row : TransactionRow}
    (howned : l.ownedTransaction? id user = some row) {t : Transaction}
    (hread : readTransaction now id row = .ok t) : l.transaction? now id user = .ok (some t) := by
  -- The row is there and its owner is asked for, so it is read.
  obtain ⟨hget, huser⟩ := ownedTransaction?_eq_some_iff.mp howned
  simp [transaction?, readOwned, hget, huser, hread, Except.map]

/-- What no row of the user is under an identifier is not found there. -/
theorem transaction?_eq_none {l : Ledger} (h : l.ownedTransaction? id user = none) :
    l.transaction? now id user = .ok none := by
  unfold ownedTransaction? at h
  unfold transaction? readOwned
  split
  · rfl
  · rename_i row hrow
    rw [hrow] at h
    have hother : ¬ row.user = user := by simpa [Option.filter] using h
    simp [hother]

namespace Sound

variable {l : Ledger} (hl : Sound l)
include hl

theorem exists_accountsOf (now : Instant) (user : Ident) :
    ∃ accounts, l.accountsOf now user = .ok accounts :=
  exists_readWhere (hl.accounts.imp fun _ _ => exists_readAccount)

theorem exists_categoriesOf (now : Instant) (user : Ident) :
    -- The listing is sorted, which only changes the order of the rows that are read.
    ∃ categories, l.categoriesOf now user = .ok categories := by
  refine exists_mapM_eq_ok fun e he => ?_
  have hmem := (List.mem_filter.mp (List.mem_mergeSort.mp he)).1
  exact exists_readCategory (hl.categories e hmem)

theorem exists_rule? (now : Instant) (id user : Ident) :
    ∃ rule, l.rule? now id user = .ok rule :=
  exists_readOwned (hl.rules.imp fun _ _ => SoundRule.exists_read)

theorem exists_rulesOf (now : Instant) (user : Ident) :
    ∃ rules, l.rulesOf now user = .ok rules :=
  exists_readWhere (hl.rules.imp fun _ _ => SoundRule.exists_read)

theorem exists_conditionsOf (rule : Ident) : ∃ conditions, l.conditionsOf rule = .ok conditions :=
  exists_readWhere (hl.conditions.imp fun _ _ => SoundCondition.exists_read)

theorem exists_actionsOf (rule : Ident) : ∃ actions, l.actionsOf rule = .ok actions :=
  exists_readWhere (hl.actions.imp fun _ _ => SoundAction.exists_read)

/-- The row of a user's transaction is one that the ledger can hold. -/
theorem soundTransaction {id user : Ident} {row : TransactionRow}
    (howned : l.ownedTransaction? id user = some row) :
    SoundTransaction l.accounts l.categories row :=
  hl.transactions.of_get? (ownedTransaction?_eq_some_iff.mp howned).1

/-- A user's transaction can be read, and is found. -/
theorem transaction?_eq (now : Instant) {id user : Ident} {row : TransactionRow}
    (hrow : l.ownedTransaction? id user = some row) :
    ∃ t, readTransaction now id row = .ok t ∧ l.transaction? now id user = .ok (some t) := by
  obtain ⟨t, ht⟩ := (hl.soundTransaction hrow).exists_read
  exact ⟨t, ht, transaction?_eq_some hrow ht⟩

end Sound

/-! ## Layer C: the rules and the snapshot of a run -/

/-- A rule with its conditions and actions. -/
def completeRule (l : Ledger) (rule : Rule) : Except LedgerError CompleteRule := do
  let conditions ← l.conditionsOf rule.id
  let actions ← l.actionsOf rule.id
  pure ⟨rule, conditions, actions⟩

/-- The rules that a run is asked for: those of the user that are named, each once, or all of the
    user's that are in effect. -/
def selectRules (l : Ledger) (now : Instant) (user : Ident) :
    Option (List Ident) → Except LedgerError (List Rule)
  | some ids => do
    let found ← ids.eraseDups.mapM fun id => l.rule? now id user
    pure (found.filterMap fun rule => rule)
  | none => do
    let rules ← l.rulesOf now user
    pure (rules.filter fun rule => decide (rule.effectiveFrom ≤ now))

/-- The resolved rules of a run: those that it is asked for, with conditions and actions. -/
def resolve (l : Ledger) (now : Instant) (user : Ident) (named : Option (List Ident)) :
    Except LedgerError (List CompleteRule) := do
  let rules ← l.selectRules now user named
  rules.mapM l.completeRule

/-- The rule of the small ledger. -/
def streamRule : CompleteRule :=
  ⟨⟨1, 1, "Streams", none, dawn, .and, dawn⟩, [⟨1, 1, .name, .contains, "netflix"⟩],
    [⟨1, 1, .category, "1"⟩]⟩

theorem resolve_streaming : streaming.resolve dawn 1 none = .ok [streamRule] := rfl

/-- The snapshot of a user's categories and accounts. -/
def snapshot (l : Ledger) (now : Instant) (user : Ident) : Except LedgerError Snapshot := do
  let categories ← l.categoriesOf now user
  let accounts ← l.accountsOf now user
  pure ⟨categories, accounts⟩

namespace Sound

variable {l : Ledger} (hl : Sound l)
include hl

theorem exists_completeRule (rule : Rule) : ∃ complete, l.completeRule rule = .ok complete := by
  obtain ⟨conditions, hconditions⟩ := hl.exists_conditionsOf rule.id
  obtain ⟨actions, hactions⟩ := hl.exists_actionsOf rule.id
  rw [completeRule, hconditions, hactions]
  exact ⟨_, rfl⟩

/-- Whatever a run is asked for, the rules of a sound ledger can be selected. -/
theorem exists_selectRules (now : Instant) (user : Ident) (named : Option (List Ident)) :
    ∃ rules, l.selectRules now user named = .ok rules := by
  cases named with
  | none =>
    obtain ⟨rules, hrules⟩ := hl.exists_rulesOf now user
    rw [selectRules, hrules]
    exact ⟨_, rfl⟩
  | some ids =>
    -- Each identifier is looked up by itself, and finding nothing is no failure.
    have hfind : ∀ id ∈ ids.eraseDups, ∃ rule, l.rule? now id user = .ok rule :=
      fun id _ => hl.exists_rule? now id user
    obtain ⟨found, hfound⟩ := exists_mapM_eq_ok hfind
    rw [selectRules, hfound]
    exact ⟨_, rfl⟩

/-- **The rules of a run can be resolved** in a sound ledger. -/
theorem exists_resolve (now : Instant) (user : Ident) (named : Option (List Ident)) :
    ∃ rules, l.resolve now user named = .ok rules := by
  obtain ⟨rules, hrules⟩ := hl.exists_selectRules now user named
  rw [resolve, hrules]
  exact exists_mapM_eq_ok fun rule _ => hl.exists_completeRule rule

/-- **A snapshot can be taken** of a sound ledger. -/
theorem exists_snapshot (now : Instant) (user : Ident) :
    ∃ snapshot, l.snapshot now user = .ok snapshot := by
  obtain ⟨categories, hcategories⟩ := hl.exists_categoriesOf now user
  obtain ⟨accounts, haccounts⟩ := hl.exists_accountsOf now user
  rw [snapshot, hcategories, haccounts]
  exact ⟨_, rfl⟩

end Sound

variable {l : Ledger}

/-- Whether there is a rule of a user under an identifier. -/
def ownsRule (l : Ledger) (user id : Ident) : Bool :=
  (l.rules.get? id).any fun row => row.user == user

/-- A rule is found under an identifier exactly if the user owns one there. -/
theorem ownsRule_of_rule? {found : Option Rule} (h : l.rule? now id user = .ok found) :
    found.isSome = l.ownsRule user id ∧ ∀ rule ∈ found, rule.id = id := by
  -- Of a row that somebody else owns nothing is read.
  unfold rule? readOwned at h
  unfold ownsRule
  cases hrow : l.rules.get? id with
  | none =>
    rw [hrow] at h
    cases h
    simp
  | some row =>
    simp only [hrow] at h
    by_cases howner : row.user = user
    · rw [if_pos (beq_iff_eq.mpr howner)] at h
      obtain ⟨rule, hread, rfl⟩ := map_eq_ok_iff.mp h
      simp [howner, id_of_readRule hread]
    · rw [if_neg (mt beq_iff_eq.mp howner)] at h
      cases h
      simp [howner]

/-- What lookups find, in their order: the rules under the identifiers that the user owns. -/
theorem ids_of_mapM_rule? {ids : List Ident} {found : List (Option Rule)}
    (h : (ids.mapM fun id => l.rule? now id user) = .ok found) :
    (found.filterMap fun rule => rule).map (·.id) = ids.filter (l.ownsRule user) := by
  -- The lookups are made in the order of the identifiers, one after the other.
  induction ids generalizing found with
  | nil =>
    cases h
    rfl
  | cons id ids ih =>
    obtain ⟨first, rest, hfirst, hrest, rfl⟩ := mapM_cons_eq_ok_iff.mp h
    obtain ⟨howned, hid⟩ := ownsRule_of_rule? hfirst
    cases first with
    | none => simpa [← howned] using ih hrest
    | some rule => simpa [← howned, hid rule rfl] using ih hrest

/-- No rule of a user is listed twice. -/
theorem nodup_ids_rulesOf {all : List Rule} (h : l.rulesOf now user = .ok all) :
    (all.map (·.id)).Nodup := by
  have hids : all.map (·.id) = (l.rules.entries.filter fun e => e.2.user == user).map (·.1) :=
    map_eq_map_of_mapM h fun e rule hrule => id_of_readRule hrule
  rw [hids]
  exact (List.filter_sublist.map _).nodup l.rules.ids_nodup

/-- No rule is selected twice, and each of them is in the table. -/
theorem ids_of_selectRules {named : Option (List Ident)} {rules : List Rule}
    (h : l.selectRules now user named = .ok rules) :
    (rules.map (·.id)).Nodup ∧ ∀ rule ∈ rules, l.rules.has rule.id = true := by
  cases named with
  | some ids =>
    obtain ⟨found, hfound, h⟩ := bind_eq_ok_iff.mp h
    -- Looked up are distinct identifiers, and each of them finds at most its own rule.
    cases h
    have hids := ids_of_mapM_rule? hfound
    constructor
    · rw [hids]
      exact List.filter_sublist.nodup (nodup_eraseDups ids)
    · intro rule hrule
      have hmem : rule.id ∈ ids.eraseDups.filter (l.ownsRule user) :=
        hids ▸ List.mem_map.mpr ⟨rule, hrule, rfl⟩
      obtain ⟨row, hrow, -⟩ := (Option.any_eq_true _ _).mp (List.mem_filter.mp hmem).2
      exact Table.has_eq_true_iff.mpr ⟨row, hrow⟩
  | none =>
    obtain ⟨all, hall, h⟩ := bind_eq_ok_iff.mp h
    cases h
    -- Leaving out the rules that are not in effect repeats none of the others.
    constructor
    · exact (List.filter_sublist.map _).nodup (nodup_ids_rulesOf hall)
    · intro rule hrule
      obtain ⟨e, he, hread⟩ := exists_of_mem_mapM hall (List.mem_filter.mp hrule).1
      rw [id_of_readRule hread]
      exact Table.has_eq_true_iff.mpr
        ⟨e.2, Table.get?_eq_some_iff.mpr (List.mem_filter.mp he).1⟩

/-- **There are fewer resolved rules than words.** -/
theorem Sound.length_resolve_lt (hl : Sound l) {named : Option (List Ident)}
    {rules : List CompleteRule} (h : l.resolve now user named = .ok rules) :
    rules.length < 0x8000000000000000 := by
  obtain ⟨selected, hselected, h⟩ := bind_eq_ok_iff.mp h
  obtain ⟨hnodup, hmem⟩ := ids_of_selectRules hselected
  have hlength : rules.length = (selected.map (·.id)).length := by
    rw [length_of_mapM h, List.length_map]
  -- Distinct identifiers of rows of the table: no more than there are rows.
  have hsubset : selected.map (·.id) ⊆ l.rules.entries.map (·.1) := by
    intro i hi
    obtain ⟨rule, hrule, rfl⟩ := List.mem_map.mp hi
    obtain ⟨row, hrow⟩ := Table.has_eq_true_iff.mp (hmem rule hrule)
    exact List.mem_map.mpr ⟨_, Table.get?_eq_some_iff.mp hrow, rfl⟩
  have hle := (List.subperm_of_subset hnodup hsubset).length_le
  have hids : (l.rules.entries.map (·.1)).length = l.rules.entries.length := List.length_map _
  rw [hids] at hle
  rw [hlength]
  exact Nat.lt_of_le_of_lt hle hl.ruleIds.length_lt

/-- A category that a snapshot shows as its owner's is that owner's. -/
theorem get?_of_ownsCategory {s : Snapshot} (h : l.snapshot now user = .ok s) {owner i : Ident}
    (howns : s.OwnsCategory owner i) :
    ∃ row, l.categories.get? i = some row ∧ row.user = owner := by
  obtain ⟨categories, hcategories, h⟩ := bind_eq_ok_iff.mp h
  obtain ⟨accounts, -, h⟩ := bind_eq_ok_iff.mp h
  cases h
  -- A later entry for the same identifier would have counted, so this one is what is listed.
  obtain ⟨before, c, after, hsplit, rfl, rfl, -⟩ := howns
  have hc : c ∈ categories := by
    rw [show categories = before ++ c :: after from hsplit]
    simp
  obtain ⟨e, he, hread⟩ := exists_of_mem_mapM hcategories hc
  obtain ⟨hid, howner⟩ := fields_of_readCategory hread
  have hmem := (List.mem_filter.mp (List.mem_mergeSort.mp he)).1
  exact ⟨e.2, Table.get?_eq_some_iff.mpr (hid ▸ hmem), howner.symm⟩

/-- An account that a snapshot shows as its owner's is that owner's. -/
theorem get?_of_ownsAccount {s : Snapshot} (h : l.snapshot now user = .ok s) {owner i : Ident}
    (howns : s.OwnsAccount owner i) :
    ∃ row, l.accounts.get? i = some row ∧ row.user = owner := by
  obtain ⟨categories, -, h⟩ := bind_eq_ok_iff.mp h
  obtain ⟨accounts, haccounts, h⟩ := bind_eq_ok_iff.mp h
  cases h
  obtain ⟨before, a, after, hsplit, rfl, rfl, -⟩ := howns
  have ha : a ∈ accounts := by
    rw [show accounts = before ++ a :: after from hsplit]
    simp
  obtain ⟨e, he, hread⟩ := exists_of_mem_mapM haccounts ha
  obtain ⟨hid, howner⟩ := fields_of_readAccount hread
  have hmem := (List.mem_filter.mp he).1
  exact ⟨e.2, Table.get?_eq_some_iff.mpr (hid ▸ hmem), howner.symm⟩

/-! ## Layer D: the clock -/

section

variable (now now' : Instant)

/-- The clock stands in only for a time of recording that cannot be read. -/
theorem readCreatedAt_eq (column : Nat) {text : Option String} (h : Stamped text) :
    readCreatedAt now column text = readCreatedAt now' column text := by
  obtain ⟨t, ht⟩ := h
  rw [ht, readCreatedAt_stamp, readCreatedAt_stamp]

/-- A sound row of a transaction is read the same at any time. -/
theorem SoundTransaction.read_eq {accounts categories : Table NamedRow} {row : TransactionRow}
    (h : SoundTransaction accounts categories row) (id : Ident) :
    readTransaction now id row = readTransaction now' id row := by
  rw [readTransaction, readTransaction, readCreatedAt_eq now now' _ h.stamped]

/-- **A transaction of a sound ledger is found the same at any time.** -/
theorem Sound.found_eq (hl : Sound l) (id user : Ident) :
    l.transaction? now id user = l.transaction? now' id user := by
  unfold transaction? readOwned
  cases hrow : l.transactions.get? id with
  | none => rfl
  | some row => simp only [(hl.transactions.of_get? hrow).read_eq now now' id]

theorem readAccount_eq {row : NamedRow} (h : Stamped row.createdAt) (id : Ident) :
    readAccount now id row = readAccount now' id row := by
  rw [readAccount, readAccount, readCreatedAt_eq now now' _ h]

theorem readCategory_eq {row : NamedRow} (h : Stamped row.createdAt) (id : Ident) :
    readCategory now id row = readCategory now' id row := by
  rw [readCategory, readCategory, readCreatedAt_eq now now' _ h]

/-- A sound row of a rule is read the same at any time. -/
theorem SoundRule.read_eq {row : RuleRow} (h : SoundRule row) (id : Ident) :
    readRule now id row = readRule now' id row := by
  rw [readRule, readRule, readCreatedAt_eq now now' _ h.stamped]

/-- **The snapshot of a sound ledger is the same at any time.** -/
theorem Sound.snapshot_eq (hl : Sound l) (user : Ident) :
    l.snapshot now user = l.snapshot now' user := by
  have hcategories : l.categoriesOf now user = l.categoriesOf now' user :=
    -- Row by row, since the order of the names does not depend on the clock.
    mapM_congr fun e he =>
      readCategory_eq now now' (hl.categories e (List.mem_filter.mp (List.mem_mergeSort.mp he)).1)
        e.1
  have haccounts : l.accountsOf now user = l.accountsOf now' user :=
    mapM_congr fun e he => readAccount_eq now now' (hl.accounts e (List.mem_filter.mp he).1) e.1
  rw [snapshot, snapshot, hcategories, haccounts]

/-- **The rules of a sound ledger are the same at any time.** -/
theorem Sound.rulesOf_eq (hl : Sound l) (user : Ident) : l.rulesOf now user = l.rulesOf now' user :=
  mapM_congr fun e he =>
    SoundRule.read_eq now now' (hl.rules e (List.mem_filter.mp he).1) e.1

end

end Ledger

end LedgerRules
