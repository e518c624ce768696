import LedgerRules.Ledger.Table
import LedgerRules.Proofs.Distinct

/-!
# Rows of a table

The entries of a table are the graph of its view, no identifier comes twice, and a table whose
identifiers are positive has fewer rows than there are words. `Table.All` states a property of
every row; insertion asks for it on the new row, a change on what it makes of old ones.
-/

namespace LedgerRules

namespace Table

variable {α : Type}

/-! ## Layer A: entries and the view -/

theorem ids_nodup (t : Table α) : (t.entries.map (·.1)).Nodup := by
  unfold List.Nodup
  rw [List.pairwise_map]
  -- Identifiers ascend along the table, so no two are equal.
  refine t.ascending.imp ?_
  intro e f hlt heq
  exact Int64.lt_irrefl (heq ▸ hlt)

theorem get?_eq_some_iff {t : Table α} {i : Ident} {row : α} :
    t.get? i = some row ↔ (i, row) ∈ t.entries := by
  unfold get?
  rw [Option.map_eq_some_iff]
  constructor
  -- Under an identifier there is one row, so the first that is found is the one.
  · rintro ⟨e, he, rfl⟩
    obtain ⟨hmem, rfl⟩ := (find?_eq_some_iff_of_nodup t.ids_nodup).mp he
    exact hmem
  · intro h
    exact ⟨(i, row), (find?_eq_some_iff_of_nodup t.ids_nodup).mpr ⟨h, rfl⟩, rfl⟩

theorem has_eq_true_iff {t : Table α} {i : Ident} : t.has i = true ↔ ∃ row, t.get? i = some row :=
  Option.isSome_iff_exists

/-! ## Layer B: properties of all rows -/

/-- Every row of a table has a property. -/
def All (t : Table α) (P : Ident → α → Prop) : Prop := ∀ x ∈ t.entries, P x.1 x.2

variable {t t' : Table α} {i : Ident} {row : α} {P Q : Ident → α → Prop}

/-- A row that is seen under an identifier has the property. -/
theorem All.of_get? (h : t.All P) (hrow : t.get? i = some row) : P i row :=
  h _ (get?_eq_some_iff.mp hrow)

theorem All.imp (h : t.All P) (himp : ∀ i row, P i row → Q i row) : t.All Q :=
  fun x hx => himp x.1 x.2 (h x hx)

theorem all_empty : (empty : Table α).All P := fun _ hx => nomatch hx

/-- An inserted row comes last, under the next identifier, for which there is room. -/
theorem entries_insert? (h : t.insert? row = some (i, t')) :
    t'.entries = t.entries ++ [(i, row)] ∧ i = t.highest + 1 ∧ t.highest < Int64.maxValue := by
  unfold insert? at h
  split at h
  · rename_i hroom
    cases h
    exact ⟨rfl, rfl, hroom⟩
  · cases h

/-- An inserted row takes the place of no other. -/
theorem get?_eq_none_of_insert? (h : t.insert? row = some (i, t')) : t.get? i = none := by
  obtain ⟨-, hi, hroom⟩ := entries_insert? h
  have hnext := lt_next hroom
  rw [highest] at hnext
  -- The new identifier is above all that there are.
  rw [Option.eq_none_iff_forall_ne_some]
  intro old hold
  have hle := le_highestOf (get?_eq_some_iff.mp hold)
  rw [hi] at hle
  exact Int64.not_le.mpr hnext hle

/-- Changing the rows leaves the identifiers, and so the highest of them. -/
theorem highestOf_map (f : Ident → α → α) (entries : List (Ident × α)) :
    highestOf (entries.map fun e => (e.1, f e.1 e.2)) = highestOf entries := by
  -- On the rows; the highest identifier depends on the identifiers alone.
  induction entries with
  | nil => rfl
  | cons e entries ih => rw [List.map_cons, highestOf, highestOf, ih]

/-- A row can be inserted before or after all rows are changed, if the change leaves it alone. -/
theorem insert?_map (f : Ident → α → α) (hrow : f (t.highest + 1) row = row) :
    (t.map f).insert? row = (t.insert? row).map fun r => (r.1, r.2.map f) := by
  have hhighest : (t.map f).highest = t.highest := highestOf_map f t.entries
  unfold insert?
  simp only [hhighest]
  split
  · simp [map, hrow]
  · rfl

theorem All.insert? (h : t.All P) (hinsert : t.insert? row = some (i, t')) (hrow : P i row) :
    t'.All P := by
  -- A row of the new table is an old row or the inserted one.
  intro x hx
  rw [(entries_insert? hinsert).1] at hx
  rcases List.mem_append.mp hx with hx | hx
  · exact h x hx
  · rw [List.mem_singleton.mp hx]
    exact hrow

/-- Changing one row asks for the property of what becomes of it. -/
theorem All.modify (h : t.All P) {f : α → α} (hf : ∀ row, t.get? i = some row → P i (f row)) :
    (t.modify i f).All P := by
  intro x hx
  obtain ⟨e, he, rfl⟩ := List.mem_map.mp hx
  by_cases hi : e.1 = i
  · -- Only this row changes, and it is the one that the table shows under `i`.
    have hrow := hf e.2 (get?_eq_some_iff.mpr (hi ▸ he))
    simpa [hi] using hrow
  · have hsame : (e.1 == i) = false := by simpa using hi
    simpa [hsame] using h e he

theorem get?_insert?_of_get? (hinsert : t.insert? row = some (i, t')) {j : Ident} {old : α}
    (hold : t.get? j = some old) : t'.get? j = some old := by
  rw [get?_eq_some_iff] at hold ⊢
  rw [(entries_insert? hinsert).1]
  exact List.mem_append_left _ hold

theorem has_insert? (hinsert : t.insert? row = some (i, t')) {j : Ident} (h : t.has j = true) :
    t'.has j = true := by
  obtain ⟨old, hold⟩ := has_eq_true_iff.mp h
  exact has_eq_true_iff.mpr ⟨old, get?_insert?_of_get? hinsert hold⟩

/-! ## Layer C: the number of rows -/

/-- No identifier is at or below zero. -/
def Positive (t : Table α) : Prop := t.All fun i _ => 0 < i

/-- The highest identifier is at least zero, which it is for a table without rows. -/
theorem highestOf_nonneg (entries : List (Ident × α)) : 0 ≤ highestOf entries := by
  induction entries with
  | nil => exact Int64.le_refl _
  | cons e entries ih =>
    rw [highestOf]
    split
    · rename_i hlt
      exact Int64.le_of_lt (Int64.lt_of_le_of_lt ih hlt)
    · exact ih

theorem Positive.insert? (h : t.Positive) (hinsert : t.insert? row = some (i, t')) :
    t'.Positive := by
  obtain ⟨-, rfl, hroom⟩ := entries_insert? hinsert
  refine All.insert? h hinsert ?_
  exact Int64.lt_of_le_of_lt (highestOf_nonneg t.entries) (lt_next hroom)

theorem Positive.modify (h : t.Positive) (i : Ident) (f : α → α) : (t.modify i f).Positive :=
  All.modify h fun _ hrow => All.of_get? (P := fun i _ => 0 < i) h hrow

/-- Ascending identifiers above a bound are no more than there is room above it. -/
private theorem length_add_le {entries : List (Ident × α)}
    (ascending : entries.Pairwise fun e f => e.1 < f.1) (low : Ident)
    (hlow : ∀ e ∈ entries, low < e.1) :
    (entries.length : Int) + low.toInt ≤ 0x7FFFFFFFFFFFFFFF := by
  induction entries generalizing low with
  | nil =>
    have hmax := low.toInt_le
    simp only [Int64.toInt_maxValue] at hmax
    simpa using hmax
  -- The first identifier takes one place above the bound, and is the bound for the others.
  | cons e entries ih =>
    obtain ⟨hfirst, hrest⟩ := List.pairwise_cons.mp ascending
    have hstep := ih hrest e.1 hfirst
    have he : low.toInt < e.1.toInt := Int64.lt_iff_toInt_lt.mp (hlow e List.mem_cons_self)
    simp only [List.length_cons]
    omega

/-- A table of positive identifiers has fewer than 2⁶³ rows. -/
theorem Positive.length_lt (h : t.Positive) : t.entries.length < 0x8000000000000000 := by
  have hlength := length_add_le t.ascending 0 h
  simp only [Int64.toInt_zero] at hlength
  omega

end Table

end LedgerRules
