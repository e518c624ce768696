import LedgerRules.Ident
/-!
# The table of locks

Changes to one transaction are made under a lock of its own. The table has an entry for a lock as
long as somebody besides the table refers to it: the entry is made when the lock is asked for, and
removed by the last one who gives it back. Whoever crashes under a lock gives it back poisoned and
leaves its entry. A poisoned lock can be taken like any other.

The view of a table is `LockTable.get?`; each operation has a lemma that says what it does to the
view.
-/

namespace LedgerRules

/-! ## Locks -/

/-- A lock. -/
structure Lock where
  /-- How many refer to the lock, the table among them. -/
  references : Nat
  /-- Whether somebody holds the lock. -/
  held : Bool
  /-- Whether somebody crashed while holding the lock. -/
  poisoned : Bool
deriving DecidableEq

namespace Lock

/-- A lock to which only the table refers. -/
def fresh : Lock := ⟨1, false, false⟩

instance : Inhabited Lock := ⟨fresh⟩

/-- The lock with one more reference. -/
def refer (k : Lock) : Lock := { k with references := k.references + 1 }

/-- The lock with one reference fewer. -/
def drop (k : Lock) : Lock := { k with references := k.references - 1 }

/-- Takes the lock; that it is poisoned is an error, but the lock is taken. Nothing comes of it as
long as somebody holds the lock. -/
def take? (k : Lock) : Option (Except Lock Lock) :=
  if k.held then none
  else
    let taken := { k with held := true }
    some (if k.poisoned then .error taken else .ok taken)

/-- Takes the lock, poisoned or not. -/
def takeAnyway? (k : Lock) : Option Lock :=
  k.take?.map fun
    | .ok taken => taken
    | .error taken => taken

/-- Gives the lock back, after a crash or not. -/
def giveBack (crashed : Bool) (k : Lock) : Lock :=
  { k with held := false, poisoned := k.poisoned || crashed }

end Lock

/-! ## The table -/

/-- Locks under identifiers. -/
structure LockTable where
  /-- The entries, in no particular order. -/
  entries : List (Ident × Lock)
  /-- An identifier has at most one entry. -/
  nodup : (entries.map (·.1)).Nodup

namespace LockTable

/-- The table without entries. -/
def empty : LockTable := ⟨[], .nil⟩

instance : Inhabited LockTable := ⟨empty⟩

/-- The number of entries. -/
def size (t : LockTable) : Nat := t.entries.length

/-- The lock under an identifier. -/
def get? (t : LockTable) (id : Ident) : Option Lock :=
  (t.entries.find? fun e => e.1 == id).map (·.2)

instance : Membership Ident LockTable := ⟨fun t id => id ∈ t.entries.map (·.1)⟩

/-- Makes an entry with a fresh lock, unless there is one. -/
def ensure (t : LockTable) (id : Ident) : LockTable :=
  if h : id ∈ t.entries.map (·.1) then t
  else ⟨(id, .fresh) :: t.entries, List.nodup_cons.mpr ⟨h, t.nodup⟩⟩

/-- Changes the lock under an identifier, if there is one. -/
def modify (t : LockTable) (id : Ident) (f : Lock → Lock) : LockTable :=
  { entries := t.entries.map fun e => if e.1 == id then (e.1, f e.2) else e
    nodup := by
      have hids : ((t.entries.map fun e => if e.1 == id then (e.1, f e.2) else e).map (·.1)) =
          t.entries.map (·.1) := by
        rw [List.map_map]
        refine List.map_congr_left fun e _ => ?_
        simp only [Function.comp]
        split <;> rfl
      rw [hids]
      exact t.nodup }

/-- Removes the entry of an identifier, if there is one. -/
def remove (t : LockTable) (id : Ident) : LockTable :=
  ⟨t.entries.filter fun e => !(e.1 == id), (List.filter_sublist.map _).nodup t.nodup⟩

/-! ## Working under a lock -/

/-- Refers to a lock, whose entry is made if there is none. -/
def refer (t : LockTable) (id : Ident) : LockTable := (t.ensure id).modify id .refer

/-- Takes a lock to which one refers. Nothing comes of it as long as somebody holds the lock. -/
def take? (t : LockTable) (id : Ident) : Option LockTable :=
  ((t.get? id).bind Lock.takeAnyway?).map fun taken => t.modify id fun _ => taken

/-- Drops a reference to a lock, and removes the entry if only the table still refers to it. -/
def release (t : LockTable) (id : Ident) : LockTable :=
  let dropped := t.modify id .drop
  if (dropped.get? id).any fun k => k.references = 1 then dropped.remove id else dropped

/-- Begins to work under a lock. -/
def enter? (t : LockTable) (id : Ident) : Option LockTable := (t.refer id).take? id

/-- Ends the work under a lock. -/
def leave (t : LockTable) (id : Ident) : LockTable := (t.modify id (.giveBack false)).release id

/-- Ends the work under a lock by a crash: the reference is dropped, but nobody looks whether it was
the last. -/
def abandon (t : LockTable) (id : Ident) : LockTable :=
  (t.modify id (.giveBack true)).modify id .drop

/-! ## The operations through the view -/

variable {t : LockTable} {id other : Ident}

/-- An identifier has an entry if there is a lock under it. -/
theorem mem_iff : id ∈ t ↔ (t.get? id).isSome = true := by
  have hmem : id ∈ t ↔ id ∈ t.entries.map (·.1) := Iff.rfl
  rw [hmem, get?, Option.isSome_map, List.find?_isSome]
  simp

/-- The empty table has no locks. -/
@[simp] theorem get?_empty : empty.get? id = none := rfl

/-- Where there was no lock there is a fresh one. -/
theorem get?_ensure :
    (t.ensure id).get? other =
      if other = id then some ((t.get? id).getD .fresh) else t.get? other := by
  unfold ensure
  split
  · rename_i h
    obtain ⟨k, hk⟩ := Option.isSome_iff_exists.mp (mem_iff.mp (show id ∈ t from h))
    split
    · rename_i heq
      rw [heq, hk]
      rfl
    · rfl
  · rename_i h
    have hnone : t.get? id = none :=
      Option.not_isSome_iff_eq_none.mp (mt mem_iff.mpr (show ¬ id ∈ t from h))
    by_cases heq : other = id
    · rw [if_pos heq, hnone, heq]
      simp [get?]
    · have hne : (id == other) = false := by simpa using fun h => heq h.symm
      rw [if_neg heq]
      simp [get?, hne]

/-- Changing a lock changes the view there and nowhere else. -/
theorem get?_modify (f : Lock → Lock) :
    (t.modify id f).get? other = if other = id then (t.get? other).map f else t.get? other := by
  have hpred : ((fun e : Ident × Lock => e.1 == other) ∘ fun e : Ident × Lock =>
      if e.1 == id then (e.1, f e.2) else e) = fun e => e.1 == other := by
    funext e
    simp only [Function.comp]
    split <;> rfl
  simp only [get?, modify, List.find?_map, hpred, Option.map_map]
  cases hfind : t.entries.find? fun e => e.1 == other with
  | none => simp
  | some e =>
    have he : e.1 = other := by simpa using List.find?_some hfind
    by_cases heq : other = id <;> simp [he, heq]

/-- Removing an entry removes its lock from the view and no other. -/
theorem get?_remove : (t.remove id).get? other = if other = id then none else t.get? other := by
  have hfind : (t.remove id).get? other = (t.entries.find? fun e =>
      decide ((!(e.1 == id)) = true ∧ (e.1 == other) = true)).map (·.2) := by
    rw [get?, remove, List.find?_filter]
  rw [hfind]
  by_cases heq : other = id
  · rw [if_pos heq, Option.map_eq_none_iff, List.find?_eq_none]
    simp [heq]
  · -- The entry that is looked for is not the one that is removed.
    have hsame : (fun e : Ident × Lock =>
        decide ((!(e.1 == id)) = true ∧ (e.1 == other) = true)) = fun e => e.1 == other := by
      funext e
      by_cases he : e.1 = other <;> simp [he, heq]
    rw [if_neg heq, hsame, get?]

end LockTable

end LedgerRules
