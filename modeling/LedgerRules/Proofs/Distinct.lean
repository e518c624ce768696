import Mathlib.Data.List.Induction
import Mathlib.Data.List.Nodup

/-!
# Lists without repetition

Dropping later repetitions from a list, seen from the end of the list: one more element is either
there already or comes last. In a list whose elements have distinct keys, the element with a key is
found wherever it stands, and keys determine what is selected.
-/

namespace LedgerRules

variable {α : Type} [BEq α] [LawfulBEq α]

/-- Of a list and one more element, each once: the last is new or is left out. -/
theorem eraseDups_concat (xs : List α) (x : α) :
    (xs ++ [x]).eraseDups =
      if xs.eraseDups.contains x then xs.eraseDups else xs.eraseDups ++ [x] := by
  rw [List.eraseDups_append]
  by_cases h : x ∈ xs <;> simp [List.removeAll, List.eraseDups_cons, h]

theorem nodup_eraseDups (xs : List α) : xs.eraseDups.Nodup := by
  induction xs using List.reverseRecOn with
  | nil => exact List.nodup_nil
  | append_singleton xs x ih =>
    rw [eraseDups_concat]
    split
    · exact ih
    · rename_i h
      refine List.nodup_append.mpr ⟨ih, by simp, ?_⟩
      intro y hy z hz hyz
      rw [List.mem_singleton.mp hz] at hyz
      exact h (by simpa [← hyz] using hy)

theorem eraseDups_eq_self {xs : List α} (h : xs.Nodup) : xs.eraseDups = xs := by
  induction xs using List.reverseRecOn with
  | nil => rfl
  | append_singleton xs x ih =>
    obtain ⟨hxs, -, hdisjoint⟩ := List.nodup_append.mp h
    have hx : x ∉ xs := fun hmem => hdisjoint x hmem x (by simp) rfl
    rw [eraseDups_concat, ih hxs]
    simp [hx]

/-- Dropping repetitions and leaving out elements can be done in either order. -/
theorem filter_eraseDups (p : α → Bool) (xs : List α) :
    xs.eraseDups.filter p = (xs.filter p).eraseDups := by
  induction xs using List.reverseRecOn with
  | nil => rfl
  | append_singleton xs x ih =>
    rw [eraseDups_concat, List.filter_append]
    cases hx : p x with
    | false =>
      -- The last element is left out either way.
      have hlast : [x].filter p = [] := by simp [hx]
      rw [hlast, List.append_nil, ← ih]
      split
      · rfl
      · rw [List.filter_append, hlast, List.append_nil]
    | true =>
      have hlast : [x].filter p = [x] := by simp [hx]
      have hthere : (xs.filter p).eraseDups.contains x = xs.eraseDups.contains x := by
        simp [hx]
      rw [hlast, eraseDups_concat, hthere]
      split
      · exact ih
      · rw [List.filter_append, hlast, ih]

/-- An element that is there before may be put in once more. -/
theorem eraseDups_append_cons_of_mem {xs ys : List α} {x : α} (h : x ∈ xs) :
    (xs ++ x :: ys).eraseDups = (xs ++ ys).eraseDups := by
  rw [List.eraseDups_append, List.eraseDups_append]
  simp [List.removeAll, h]

/-! ## Distinct keys -/

/-- Among elements with distinct keys, a selection is determined by its keys in order. -/
theorem eq_of_map_eq_map_of_nodup {β γ : Type} {key : β → γ} {all xs ys : List β}
    (h : (all.map key).Nodup) (hxs : ∀ x ∈ xs, x ∈ all) (hys : ∀ y ∈ ys, y ∈ all)
    (hkeys : xs.map key = ys.map key) : xs = ys := by
  induction xs generalizing ys with
  | nil => exact (List.map_eq_nil_iff.mp hkeys.symm).symm
  | cons x xs ih =>
    cases ys with
    | nil => cases hkeys
    | cons y ys =>
      obtain ⟨hfirst, hrest⟩ := List.cons.inj hkeys
      have hxy : x = y :=
        List.inj_on_of_nodup_map h (hxs x List.mem_cons_self) (hys y List.mem_cons_self) hfirst
      have htail : xs = ys :=
        ih (fun z hz => hxs z (List.mem_cons_of_mem _ hz))
          (fun z hz => hys z (List.mem_cons_of_mem _ hz)) hrest
      rw [hxy, htail]

/-- Where keys are distinct, looking for a key finds the element that has it. -/
theorem find?_eq_some_iff_of_nodup {β : Type} {key : β → α} {xs : List β}
    (h : (xs.map key).Nodup) {x : β} {k : α} :
    xs.find? (fun y => key y == k) = some x ↔ x ∈ xs ∧ key x = k := by
  constructor
  · intro hfind
    exact ⟨List.mem_of_find?_eq_some hfind, by simpa using List.find?_some hfind⟩
  · rintro ⟨hx, rfl⟩
    -- Something is found, and no other element has the key.
    have hsome : (xs.find? fun y => key y == key x).isSome = true :=
      List.find?_isSome.mpr ⟨x, hx, by simp⟩
    obtain ⟨y, hy⟩ := Option.isSome_iff_exists.mp hsome
    have hkey : key y = key x := by simpa using List.find?_some hy
    rw [hy, List.inj_on_of_nodup_map h (List.mem_of_find?_eq_some hy) hx hkey]

end LedgerRules
