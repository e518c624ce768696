import LedgerRules.Ident
/-!
# Tables

A table keeps rows under identifiers. Its entries ascend by identifier, so an identifier has at
most one row and a listing by identifier is the list of entries itself. A new row goes under the
identifier that follows the highest one in use.

The view of a table is `Table.get?`; each operation has a lemma that says what it does to the
view.
-/

namespace LedgerRules

/-- Rows under ascending identifiers. -/
@[ext] structure Table (α : Type) where
  /-- The rows with their identifiers. -/
  entries : List (Ident × α)
  /-- The identifiers ascend. -/
  ascending : entries.Pairwise fun e f => e.1 < f.1

namespace Table

variable {α : Type}

/-- The table without rows. -/
def empty : Table α := ⟨[], .nil⟩

instance : Inhabited (Table α) := ⟨empty⟩

/-- The row under an identifier. -/
def get? (t : Table α) (i : Ident) : Option α := (t.entries.find? fun e => e.1 == i).map (·.2)

/-- Whether an identifier has a row. -/
def has (t : Table α) (i : Ident) : Bool := (t.get? i).isSome

/-- The highest identifier of a list of entries, zero if there is none. -/
def highestOf : List (Ident × α) → Ident
  | [] => 0
  | e :: entries => if highestOf entries < e.1 then e.1 else highestOf entries

/-- The highest identifier in use, zero if there is none. -/
def highest (t : Table α) : Ident := highestOf t.entries

/-- No identifier is above the highest. -/
theorem le_highestOf {entries : List (Ident × α)} {e : Ident × α} (h : e ∈ entries) :
    e.1 ≤ highestOf entries := by
  induction entries with
  | nil => cases h
  | cons f entries ih =>
    rw [highestOf]
    rcases List.mem_cons.mp h with rfl | h
    · split
      · exact Int64.le_refl _
      · rename_i hlt
        exact Int64.not_lt.mp hlt
    · split
      · rename_i hlt
        exact Int64.le_of_lt (Int64.lt_of_le_of_lt (ih h) hlt)
      · exact ih h

/-- Below the last identifier there is always a next one. -/
theorem lt_next {i : Ident} (h : i < Int64.maxValue) : i < i + 1 := by
  have hmin := i.minValue_le_toInt
  have hmax := Int64.lt_iff_toInt_lt.mp h
  rw [Int64.toInt_maxValue] at hmax
  rw [Int64.toInt_minValue] at hmin
  have hnext : (i + 1).toInt = i.toInt + 1 := by
    rw [Int64.toInt_add, Int64.toInt_one]
    exact Int.bmod_eq_of_le (by omega) (by omega)
  rw [Int64.lt_iff_toInt_lt, hnext]
  omega

/-- A row under the next identifier keeps the identifiers ascending. -/
theorem pairwise_append_next {entries : List (Ident × α)}
    (ascending : entries.Pairwise fun e f => e.1 < f.1)
    (h : highestOf entries < Int64.maxValue) (row : α) :
    (entries ++ [(highestOf entries + 1, row)]).Pairwise fun e f => e.1 < f.1 := by
  have hnext := lt_next h
  generalize highestOf entries + 1 = next at hnext
  refine List.pairwise_append.mpr ⟨ascending, List.pairwise_singleton _ _, ?_⟩
  intro e he f hf
  rw [List.mem_singleton.mp hf]
  exact Int64.lt_of_le_of_lt (le_highestOf he) hnext

/-- Adds a row under the next identifier, if identifiers are not used up. -/
def insert? (t : Table α) (row : α) : Option (Ident × Table α) :=
  if h : t.highest < Int64.maxValue then
    some (t.highest + 1,
      ⟨t.entries ++ [(t.highest + 1, row)], pairwise_append_next t.ascending h row⟩)
  else none

/-- Changes every row. -/
def map (f : Ident → α → α) (t : Table α) : Table α :=
  { entries := t.entries.map fun e => (e.1, f e.1 e.2)
    ascending := by
      rw [List.pairwise_map]
      exact t.ascending }

/-- Changes the row under an identifier, if there is one. -/
def modify (t : Table α) (i : Ident) (f : α → α) : Table α :=
  t.map fun j row => if j == i then f row else row

/-- Keeps the rows that pass a test. -/
def filter (keep : Ident → α → Bool) (t : Table α) : Table α :=
  { entries := t.entries.filter fun e => keep e.1 e.2
    ascending := t.ascending.filter _ }

/-- Removes the row under an identifier, if there is one. -/
def erase (t : Table α) (i : Ident) : Table α := t.filter fun j _ => !(j == i)

/-! ## The operations through the view -/

/-- The empty table has no row. -/
@[simp] theorem get?_empty (i : Ident) : (empty : Table α).get? i = none := rfl

/-- Changing all rows changes the view at each of them. -/
@[simp] theorem get?_map (f : Ident → α → α) (t : Table α) (i : Ident) :
    (t.map f).get? i = (t.get? i).map (f i) := by
  simp only [get?, map, List.find?_map, Option.map_map]
  have hpred : (fun e : Ident × α => e.1 == i) ∘ (fun e : Ident × α => (e.1, f e.1 e.2)) =
      fun e => e.1 == i := rfl
  rw [hpred]
  cases hfind : t.entries.find? (fun e => e.1 == i) with
  | none => rfl
  | some e =>
    have hi : e.1 = i := by simpa using List.find?_some hfind
    simp [hi]

/-- Modifying a row changes the view there and nowhere else. -/
theorem get?_modify (t : Table α) (i j : Ident) (f : α → α) :
    (t.modify i f).get? j = if j = i then (t.get? j).map f else t.get? j := by
  rw [modify, get?_map]
  by_cases h : j = i
  · subst h
    simp
  · simp [h]

/-- An inserted row is found under its new identifier, and nothing else changes. -/
theorem get?_insert? {t t' : Table α} {row : α} {i : Ident} (h : t.insert? row = some (i, t'))
    (j : Ident) : t'.get? j = if j = i then some row else t.get? j := by
  unfold insert? at h
  split at h
  · rename_i hroom
    cases h
    simp only [get?, List.find?_append]
    split
    · rename_i hj
      subst hj
      have hnone : t.entries.find? (fun e => e.1 == t.highest + 1) = none := by
        rw [List.find?_eq_none]
        intro e he heq
        have hle := le_highestOf he
        have hlt := lt_next hroom
        rw [beq_iff_eq] at heq
        rw [heq] at hle
        exact Int64.lt_irrefl (Int64.lt_of_le_of_lt hle hlt)
      simp [hnone]
    · rename_i hj
      have hne : ¬ t.highest + 1 = j := fun h => hj h.symm
      simp [hne]
  · cases h

end Table

end LedgerRules
