import LedgerRules.Lock.Script
import Mathlib.Data.Finset.Card

/-!
# The entries of the table of locks

What a script has done so far says which locks it holds and under which the last work crashed. The
table has an entry for each of these and no other, and the entry is determined: besides the table
only the holder refers to a lock, and a lock is poisoned as long as the last work under it crashed.

## Overview

- **Layer A**: which locks are held and which are abandoned, from the events.
- **Layer B**: scripts that never take a lock that they hold.
- **Layer C**: the entries of a table, and what becomes of them.
- **Layer D**: a whole script.
-/

namespace LedgerRules

variable {α : Type}

/-! ## Layer A: held and abandoned locks -/

/-- The locks that are held, and those under which the last work that ended has crashed. -/
structure LockStatus where
  /-- The locks that are held. -/
  held : Finset Ident
  /-- The locks whose last work crashed. -/
  abandoned : Finset Ident

namespace LockStatus

/-- Nothing has happened. -/
def start : LockStatus := ⟨∅, ∅⟩

/-- The status after an event. -/
def after (s : LockStatus) : LockEvent α → LockStatus
  | .taken id => { s with held := insert id s.held }
  | .returned id _ => ⟨s.held.erase id, s.abandoned.erase id⟩
  | .abandoned id => ⟨s.held.erase id, insert id s.abandoned⟩
  | .counted _ | .rescued _ => s

/-- The status after events. -/
def afterAll (s : LockStatus) (es : List (LockEvent α)) : LockStatus := es.foldl after s

@[simp] theorem afterAll_nil (s : LockStatus) : s.afterAll ([] : List (LockEvent α)) = s := rfl

@[simp] theorem afterAll_cons (s : LockStatus) (e : LockEvent α) (es : List (LockEvent α)) :
    s.afterAll (e :: es) = (s.after e).afterAll es := rfl

theorem afterAll_append (s : LockStatus) (es es' : List (LockEvent α)) :
    s.afterAll (es ++ es') = (s.afterAll es).afterAll es' :=
  List.foldl_append

@[simp] theorem afterAll_concat (s : LockStatus) (es : List (LockEvent α)) (e : LockEvent α) :
    s.afterAll (es ++ [e]) = (s.afterAll es).after e :=
  afterAll_append s es [e]

/-- The locks that ought to have an entry. -/
def listed (s : LockStatus) : Finset Ident := s.held ∪ s.abandoned

end LockStatus

/-- Whether the work under a lock ends with an event. -/
def LockEvent.Ends (id : Ident) : LockEvent α → Prop
  | .returned other _ | .abandoned other => other = id
  | .taken _ | .counted _ | .rescued _ => False

/-- Among events there is the event `e`, and the work under a lock has not ended since. -/
def LockEvent.Lasts (id : Ident) (e : LockEvent α) (es : List (LockEvent α)) : Prop :=
  ∃ before after, es = before ++ e :: after ∧ ∀ e' ∈ after, ¬ e'.Ends id

/-- Whether an event lasts is decided by the last event, or else by those before it. -/
theorem LockEvent.lasts_concat {id : Ident} {e last : LockEvent α} {es : List (LockEvent α)} :
    e.Lasts id (es ++ [last]) ↔ last = e ∨ (¬ last.Ends id ∧ e.Lasts id es) := by
  constructor
  · rintro ⟨before, after, heq, hafter⟩
    -- Either the event is the last one, or the last one comes after it.
    rcases List.eq_nil_or_concat after with rfl | ⟨after, final, rfl⟩
    · exact .inl (List.singleton_inj.mp (List.append_inj' heq rfl).2)
    · rw [List.concat_eq_append, ← List.cons_append, ← List.append_assoc] at heq
      obtain ⟨hes, hlast⟩ := List.append_inj' heq rfl
      cases hlast
      exact .inr ⟨hafter last (by simp), before, after, hes, fun e' he' =>
        hafter e' (by simp [he'])⟩
  · rintro (rfl | ⟨hlast, before, after, rfl, hafter⟩)
    · exact ⟨es, [], rfl, by simp⟩
    · refine ⟨before, after ++ [last], by simp, fun e' he' => ?_⟩
      rcases List.mem_append.mp he' with he' | he'
      · exact hafter e' he'
      · rw [List.mem_singleton.mp he']
        exact hlast

/-- **A lock is held** if it was taken and the work under it has not ended since. -/
theorem LockStatus.mem_held_iff {es : List (LockEvent α)} {id : Ident} :
    id ∈ (start.afterAll es).held ↔ (LockEvent.taken id).Lasts id es := by
  induction es using List.reverseRecOn with
  | nil => simp [LockEvent.Lasts, start]
  | append_singleton es e ih =>
    rw [afterAll_concat, LockEvent.lasts_concat, ← ih]
    -- By what the last event is, and whether it is about this lock.
    cases e <;> simp [after, LockEvent.Ends, eq_comm]

/-- **A lock is abandoned** if the work under it that ended last has crashed. -/
theorem LockStatus.mem_abandoned_iff {es : List (LockEvent α)} {id : Ident} :
    id ∈ (start.afterAll es).abandoned ↔ (LockEvent.abandoned id).Lasts id es := by
  induction es using List.reverseRecOn with
  | nil => simp [LockEvent.Lasts, start]
  | append_singleton es e ih =>
    rw [afterAll_concat, LockEvent.lasts_concat, ← ih]
    cases e with
    | abandoned other =>
      by_cases h : other = id <;> simp [after, LockEvent.Ends, h, eq_comm]
    | taken | returned | counted | rescued => simp [after, LockEvent.Ends, eq_comm]

/-! ## Layer B: scripts -/

namespace Script

/-- Whether a script crashes, if it never waits for ever. -/
def crashes : Script α → Bool
  | done => false
  | count rest => rest.crashes
  | hold _ work _ rest => work.crashes || rest.crashes
  | crash => true
  | rescue _ rest => rest.crashes

/-- A script that never takes a lock that is held, neither by itself nor before it begins. What is
    skipped after a crash does not matter. -/
def Nested : Finset Ident → Script α → Prop
  | _, done => True
  | held, count rest => rest.Nested held
  | held, hold id work _ rest =>
    id ∉ held ∧ work.Nested (insert id held) ∧ (work.crashes = false → rest.Nested held)
  | _, crash => True
  | held, rescue work rest => work.Nested held ∧ rest.Nested held

end Script

/-! ## Layer C: entries -/

namespace LockStatus

/-- The lock that ought to be under an identifier. -/
def lock? (s : LockStatus) (id : Ident) : Option Lock :=
  if id ∈ s.listed then
    some ⟨if id ∈ s.held then 2 else 1, decide (id ∈ s.held), decide (id ∈ s.abandoned)⟩
  else none

/-- An entry depends on whether its own lock is held or abandoned. -/
theorem lock?_congr {s s' : LockStatus} {id : Ident} (hheld : id ∈ s.held ↔ id ∈ s'.held)
    (habandoned : id ∈ s.abandoned ↔ id ∈ s'.abandoned) : s.lock? id = s'.lock? id := by
  simp only [lock?, listed, Finset.mem_union, hheld, habandoned]

/-- A table whose entries are as they ought to be. -/
def Fits (s : LockStatus) (t : LockTable) : Prop := ∀ id, t.get? id = s.lock? id

/-- The empty table is as it ought to be before anything has happened. -/
theorem fits_start : start.Fits .empty := fun _ => rfl

variable {s : LockStatus} {t : LockTable} {id : Ident}

/-- There is an entry for each lock that ought to have one, and for no other. -/
theorem Fits.mem_iff (h : s.Fits t) (id : Ident) : id ∈ t ↔ id ∈ s.listed := by
  rw [LockTable.mem_iff, h id, lock?]
  split <;> simp [*]

/-- The entries are as many as the locks that ought to have one. -/
theorem Fits.size_eq (h : s.Fits t) : t.size = s.listed.card := by
  -- The identifiers of the entries are distinct, so that none is counted twice.
  have hlisted : s.listed = (t.entries.map (·.1)).toFinset := by
    ext id
    rw [List.mem_toFinset]
    exact (h.mem_iff id).symm
  rw [hlisted, List.toFinset_card_of_nodup t.nodup, List.length_map, LockTable.size]

/-- What asking for a lock makes of a table. -/
theorem Fits.get?_refer (h : s.Fits t) (id other : Ident) :
    (t.refer id).get? other =
      if other = id then
        some ⟨if id ∈ s.held then 3 else 2, decide (id ∈ s.held), decide (id ∈ s.abandoned)⟩
      else s.lock? other := by
  -- A lock without an entry gets the one that a lock has to which only the table refers.
  have hlock : (s.lock? id).getD .fresh =
      ⟨if id ∈ s.held then 2 else 1, decide (id ∈ s.held), decide (id ∈ s.abandoned)⟩ := by
    by_cases hheld : id ∈ s.held <;> by_cases hleft : id ∈ s.abandoned <;>
      simp [lock?, listed, Lock.fresh, hheld, hleft]
  rw [LockTable.refer, LockTable.get?_modify, LockTable.get?_ensure, h id, hlock, h other]
  by_cases hother : other = id
  · simp only [hother, if_true, Option.map_some, Lock.refer]
    split <;> rfl
  · simp only [hother, if_false]

/-- A lock can be taken unless it is held, poisoned or not. -/
theorem Fits.enter?_eq_none_iff (h : s.Fits t) : t.enter? id = none ↔ id ∈ s.held := by
  rw [LockTable.enter?, LockTable.take?, h.get?_refer id id, if_pos rfl]
  by_cases hheld : id ∈ s.held <;> simp [Lock.takeAnyway?, Lock.take?, hheld]

/-- **Taking a lock** that is not held. -/
theorem Fits.enter (h : s.Fits t) (hid : id ∉ s.held) :
    ∃ taken, t.enter? id = some taken ∧ (s.after (.taken id : LockEvent α)).Fits taken := by
  have hlock : (t.refer id).get? id = some ⟨2, false, decide (id ∈ s.abandoned)⟩ := by
    rw [h.get?_refer, if_pos rfl]
    simp [hid]
  refine ⟨(t.refer id).modify id fun _ => ⟨2, true, decide (id ∈ s.abandoned)⟩, ?_, fun other => ?_⟩
  · rw [LockTable.enter?, LockTable.take?, hlock]
    by_cases hleft : id ∈ s.abandoned <;> simp [Lock.takeAnyway?, Lock.take?, hleft]
  · rw [LockTable.get?_modify, h.get?_refer]
    by_cases hother : other = id
    · simp [hother, lock?, listed, after]
    · rw [if_neg hother, if_neg hother]
      exact lock?_congr (by simp [after, hother]) Iff.rfl

theorem Fits.get?_of_held (h : s.Fits t) (hid : id ∈ s.held) :
    t.get? id = some ⟨2, true, decide (id ∈ s.abandoned)⟩ := by
  rw [h id]
  simp [lock?, listed, hid]

/-- **Giving a lock back** removes its entry, whether it was poisoned or not. -/
theorem Fits.leave (h : s.Fits t) (hid : id ∈ s.held) (result : α) :
    (s.after (.returned id result)).Fits (t.leave id) := by
  -- Without the holder only the table refers to the lock.
  have hlast : (((t.modify id (.giveBack false)).modify id .drop).get? id).any
      (fun k => k.references = 1) = true := by
    rw [LockTable.get?_modify, LockTable.get?_modify, if_pos rfl, h.get?_of_held hid]
    simp [Lock.giveBack, Lock.drop]
  intro other
  rw [LockTable.leave, LockTable.release, if_pos hlast, LockTable.get?_remove,
    LockTable.get?_modify, LockTable.get?_modify, h other]
  by_cases hother : other = id
  · simp [hother, lock?, listed, after]
  · rw [if_neg hother, if_neg hother, if_neg hother]
    exact lock?_congr (by simp [after, hother]) (by simp [after, hother])

/-- **Abandoning a lock** leaves its entry, to which only the table refers. -/
theorem Fits.abandon (h : s.Fits t) (hid : id ∈ s.held) :
    (s.after (.abandoned id : LockEvent α)).Fits (t.abandon id) := by
  intro other
  rw [LockTable.abandon, LockTable.get?_modify, LockTable.get?_modify]
  by_cases hother : other = id
  · rw [hother, if_pos rfl, if_pos rfl, h.get?_of_held hid]
    simp [lock?, listed, after, Lock.giveBack, Lock.drop]
  · rw [if_neg hother, if_neg hother, h other]
    exact lock?_congr (by simp [after, hother]) (by simp [after, hother])

end LockStatus

/-! ## Layer D: a whole script -/

namespace LockStatus

/-- Steps whose tables have the entries that the events up to then call for. What is counted are the
    entries. -/
def Tracks : LockStatus → List (LockStep α) → Prop
  | _, [] => True
  | s, st :: steps =>
    ((s.after st.event).Fits st.table ∧ ∀ k, st.event = .counted k → k = s.listed.card) ∧
      (s.after st.event).Tracks steps

/-- Steps and further steps, which start from the status that the first ones lead to. -/
theorem tracks_append {s : LockStatus} {steps steps' : List (LockStep α)} :
    s.Tracks (steps ++ steps') ↔
      s.Tracks steps ∧ (s.afterAll (steps.map (·.event))).Tracks steps' := by
  induction steps generalizing s with
  | nil => simp [Tracks]
  | cons st steps ih => simp [Tracks, ih, and_assoc]

/-- What tracks the events does so at each of them. -/
theorem Tracks.getElem? {s : LockStatus} {steps : List (LockStep α)} (h : s.Tracks steps) {n : Nat}
    {st : LockStep α} (hst : steps[n]? = some st) :
    let before := s.afterAll ((steps.map (·.event)).take n)
    (before.after st.event).Fits st.table ∧
      ∀ k, st.event = .counted k → k = before.listed.card := by
  induction steps generalizing s n with
  | nil => simp at hst
  | cons st' steps ih =>
    cases n with
    | zero =>
      cases hst
      exact h.1
    | succ n => exact ih h.2 hst

end LockStatus

/-- A result to which a status leads: its tables track the events, in the end the same locks are
    held as before, and it ends by a crash or not. -/
structure LockStatus.Runs (s : LockStatus) (crashed : Bool) (r : ScriptResult α) : Prop where
  tracks : s.Tracks r.steps
  fits : (s.afterAll r.events).Fits r.table
  held : (s.afterAll r.events).held = s.held
  ending : r.ending = if crashed then .crashed else .finished

/-- Further steps in front of a result, after which the same locks are held as before. -/
theorem LockStatus.Runs.after {s : LockStatus} {crashed : Bool} {r : ScriptResult α}
    {steps : List (LockStep α)} (hsteps : s.Tracks steps)
    (hheld : (s.afterAll (steps.map (·.event))).held = s.held)
    (h : (s.afterAll (steps.map (·.event))).Runs crashed r) : s.Runs crashed (r.after steps) := by
  have hevents : (r.after steps).events = steps.map (·.event) ++ r.events := List.map_append
  refine ⟨tracks_append.mpr ⟨hsteps, h.tracks⟩, ?_, ?_, h.ending⟩
  · rw [hevents, afterAll_append]
    exact h.fits
  · rw [hevents, afterAll_append, h.held, hheld]

/-- A lock is taken, work is done under it, and then the work ends. -/
theorem LockStatus.Runs.held_between {s : LockStatus} {id : Ident} {taken left : LockTable}
    {crashed : Bool} {r : ScriptResult α} {last : LockEvent α}
    (htaken : (s.after (.taken id : LockEvent α)).Fits taken)
    (hwork : (s.after (.taken id : LockEvent α)).Runs crashed r)
    (hleft : (((s.after (.taken id : LockEvent α)).afterAll r.events).after last).Fits left)
    (hlast : ∀ k, last ≠ .counted k) :
    let steps := ⟨.taken id, taken⟩ :: r.steps ++ [⟨last, left⟩]
    s.Tracks steps ∧ s.afterAll (steps.map (·.event)) =
      ((s.after (.taken id : LockEvent α)).afterAll r.events).after last := by
  refine ⟨⟨⟨htaken, fun k hk => nomatch hk⟩, tracks_append.mpr ⟨hwork.tracks, ?_, trivial⟩⟩, ?_⟩
  · exact ⟨hleft, fun k hk => absurd hk (hlast k)⟩
  · simp [ScriptResult.events]

/-- **What a script does** is tracked by its tables. It never waits for ever, and in the end it
    holds what it held before. -/
theorem Script.runs (script : Script α) {s : LockStatus} {t : LockTable} (hfits : s.Fits t)
    (hnested : script.Nested s.held) : s.Runs script.crashes (script.run t) := by
  induction script generalizing s t with
  | done => exact ⟨trivial, hfits, rfl, rfl⟩
  | crash => exact ⟨trivial, hfits, rfl, rfl⟩
  | count rest ih =>
    have hcounted : s.Tracks [(⟨.counted t.size, t⟩ : LockStep α)] := by
      refine ⟨⟨hfits, ?_⟩, trivial⟩
      rintro k ⟨⟩
      exact hfits.size_eq
    exact .after hcounted rfl (ih hfits hnested)
  | hold id work result rest ihwork ihrest =>
    obtain ⟨hid, hwork, hrest⟩ := hnested
    obtain ⟨taken, htaken, hfits₁⟩ := hfits.enter (α := α) hid
    have hruns := ihwork hfits₁ hwork
    have hending := hruns.ending
    -- When the work ends, the lock is held again and no other that was not held before.
    have hheld : ((s.after (.taken id : LockEvent α)).afterAll (work.run taken).events).held =
        insert id s.held := hruns.held
    have hid' : id ∈ ((s.after (.taken id : LockEvent α)).afterAll
        (work.run taken).events).held := hheld ▸ Finset.mem_insert_self id s.held
    rw [run, htaken]
    cases hcrash : work.crashes with
    | true =>
      -- The lock is abandoned, and the rest is skipped.
      have hleft := hruns.fits.abandon (α := α) hid'
      obtain ⟨htracks, hafter⟩ := hruns.held_between hfits₁ hleft (fun k hk => nomatch hk)
      rw [hcrash, if_pos rfl] at hending
      simp only [hending, crashes, hcrash, Bool.true_or]
      refine ⟨htracks, ?_, ?_, rfl⟩
      · rw [ScriptResult.events, hafter]
        exact hleft
      · rw [ScriptResult.events, hafter]
        exact (congrArg (·.erase id) hheld).trans (Finset.erase_insert hid)
    | false =>
      -- The lock is given back, and the rest runs with what was held before.
      have hleft := hruns.fits.leave hid' result
      obtain ⟨htracks, hafter⟩ := hruns.held_between hfits₁ hleft (fun k hk => nomatch hk)
      have hback : (((s.after (.taken id : LockEvent α)).afterAll (work.run taken).events).after
          (.returned id result)).held = s.held :=
        (congrArg (·.erase id) hheld).trans (Finset.erase_insert hid)
      rw [hcrash, if_neg Bool.false_ne_true] at hending
      simp only [hending, crashes, hcrash, Bool.false_or]
      refine .after htracks (hafter ▸ hback) ?_
      rw [hafter]
      exact ihrest hleft (hback.symm ▸ hrest hcrash)
  | rescue work rest ihwork ihrest =>
    obtain ⟨hwork, hrest⟩ := hnested
    have hruns := ihwork hfits hwork
    have hending := hruns.ending
    -- A rescue changes neither the table nor what is held.
    have htracks (crashed : Bool) : s.Tracks
        ((work.run t).steps ++ [⟨.rescued crashed, (work.run t).table⟩]) :=
      LockStatus.tracks_append.mpr
        ⟨hruns.tracks, ⟨hruns.fits, fun k hk => nomatch hk⟩, trivial⟩
    have hafter (crashed : Bool) : s.afterAll (((work.run t).steps ++
        [(⟨.rescued crashed, (work.run t).table⟩ : LockStep α)]).map (·.event)) =
        s.afterAll (work.run t).events := by
      simp [ScriptResult.events, LockStatus.after]
    have hgoesOn (crashed : Bool) : s.Runs rest.crashes ((rest.run (work.run t).table).after
        ((work.run t).steps ++ [⟨.rescued crashed, (work.run t).table⟩])) := by
      refine .after (htracks crashed) (hafter crashed ▸ hruns.held) ?_
      rw [hafter]
      exact ihrest hruns.fits (hruns.held.symm ▸ hrest)
    rw [run]
    cases hcrash : work.crashes with
    | true =>
      rw [hcrash, if_pos rfl] at hending
      simpa only [hending, crashes] using hgoesOn true
    | false =>
      rw [hcrash, if_neg Bool.false_ne_true] at hending
      simpa only [hending, crashes] using hgoesOn false

/-- The table after some of the steps, from the table before them. -/
def ScriptResult.tableAfter (r : ScriptResult α) (t : LockTable) : Nat → LockTable
  | 0 => t
  | n + 1 => (r.steps[n]?.map (·.table)).getD r.table

/-- At every point the table has the entries that the events up to then call for. -/
theorem LockStatus.Runs.fits_tableAfter {s : LockStatus} {crashed : Bool} {r : ScriptResult α}
    {t : LockTable} (h : s.Runs crashed r) (ht : s.Fits t) (n : Nat) :
    (s.afterAll (r.events.take n)).Fits (r.tableAfter t n) := by
  cases n with
  | zero => exact ht
  | succ n =>
    cases hst : r.steps[n]? with
    | none =>
      -- All steps have been made.
      have hall : r.events.take (n + 1) = r.events := by
        refine List.take_of_length_le ?_
        rw [ScriptResult.events, List.length_map]
        exact (List.getElem?_eq_none_iff.mp hst).trans (Nat.le_succ n)
      simpa [ScriptResult.tableAfter, hst, hall] using h.fits
    | some st =>
      have hevent : r.events[n]? = some st.event := by
        rw [ScriptResult.events, List.getElem?_map, hst]
        rfl
      have htake : r.events.take (n + 1) = r.events.take n ++ [st.event] := by
        rw [List.take_add_one, hevent]
        rfl
      rw [htake, afterAll_concat, ScriptResult.tableAfter, hst]
      exact (h.tracks.getElem? hst).1

/-- What is counted is the number of the entries. -/
theorem LockStatus.Runs.eq_of_counted {s : LockStatus} {crashed : Bool} {r : ScriptResult α}
    (h : s.Runs crashed r) {n k : Nat} (hk : r.events[n]? = some (.counted k)) :
    k = (s.afterAll (r.events.take n)).listed.card := by
  rw [ScriptResult.events, List.getElem?_map] at hk
  obtain ⟨st, hst, hevent⟩ := Option.map_eq_some_iff.mp hk
  exact (h.tracks.getElem? hst).2 k hevent

/-- A lock that was never abandoned is not. -/
theorem LockStatus.abandoned_eq_empty {es : List (LockEvent α)}
    (h : ∀ id, LockEvent.abandoned id ∉ es) : (start.afterAll es).abandoned = ∅ := by
  refine Finset.eq_empty_iff_forall_notMem.mpr fun id hid => ?_
  obtain ⟨before, after, rfl, -⟩ := mem_abandoned_iff.mp hid
  exact h id (by simp)

/-- **The entries of the table** at every point of a script that never takes a lock that it holds,
    however its work crashes and is rescued: one for each lock that is held, one for each lock whose
    last work crashed, and no other. Giving a lock back removes its entry and no other, also if the
    lock had been abandoned before; every lock that is not held can be taken. As long as no work has
    crashed, the table is empty whenever no lock is held. The script never waits for ever, and in
    the end it holds no lock. -/
theorem lock_entries_are_held_or_abandoned (script : Script α) (hnested : script.Nested ∅) :
    let r := script.run .empty
    r.ending = (if script.crashes then .crashed else .finished) ∧
      (LockStatus.start.afterAll r.events).held = ∅ ∧
      ∀ n, let events := r.events.take n
        let s := LockStatus.start.afterAll events
        let t := r.tableAfter .empty n
        (∀ id, id ∈ s.held ↔ (LockEvent.taken id).Lasts id events) ∧
        (∀ id, id ∈ s.abandoned ↔ (LockEvent.abandoned id).Lasts id events) ∧
        (∀ id, id ∈ t ↔ id ∈ s.held ∪ s.abandoned) ∧
        (t.entries.map (·.1)).Nodup ∧
        t.size = (s.held ∪ s.abandoned).card ∧
        (∀ id, t.enter? id = none ↔ id ∈ s.held) ∧
        ((∀ id, LockEvent.abandoned id ∉ events) → s.held = ∅ → t.entries = []) ∧
        (∀ k, r.events[n]? = some (.counted k) → k = (s.held ∪ s.abandoned).card) ∧
        ∀ id result, r.events[n]? = some (.returned id result) →
          ∀ other, other ∈ r.tableAfter .empty (n + 1) ↔ other ∈ t ∧ other ≠ id := by
  intro r
  have hruns : LockStatus.start.Runs script.crashes r := script.runs LockStatus.fits_start hnested
  refine ⟨hruns.ending, hruns.held, fun n => ?_⟩
  intro events s t
  have hfits : s.Fits t := hruns.fits_tableAfter LockStatus.fits_start n
  refine ⟨fun id => LockStatus.mem_held_iff, fun id => LockStatus.mem_abandoned_iff,
    hfits.mem_iff, t.nodup, hfits.size_eq, fun id => hfits.enter?_eq_none_iff, ?empty,
    fun k hk => hruns.eq_of_counted hk, ?returned⟩
  case empty =>
    intro hnever hheld
    have hlisted : s.listed = ∅ := by
      rw [LockStatus.listed, hheld, LockStatus.abandoned_eq_empty hnever, Finset.empty_union]
    refine List.eq_nil_of_length_eq_zero ?_
    exact hfits.size_eq.trans (by rw [hlisted, Finset.card_empty])
  case returned =>
    intro id result hevent other
    have hnext : (s.after (.returned id result)).Fits (r.tableAfter .empty (n + 1)) := by
      have htake : r.events.take (n + 1) = events ++ [.returned id result] := by
        rw [List.take_add_one, hevent]
        rfl
      have h := hruns.fits_tableAfter LockStatus.fits_start (n + 1)
      rwa [htake, LockStatus.afterAll_concat] at h
    rw [hnext.mem_iff, hfits.mem_iff]
    simp only [LockStatus.listed, LockStatus.after, Finset.mem_union, Finset.mem_erase]
    tauto

/-- Two locks are abandoned by one crash. One of them is taken again and given back, and only the
    other is left. -/
theorem lock_entries_are_held_or_abandoned_nested :
    let inner : Script Unit := .hold 2 .crash () .done
    let again : Script Unit := .count (.hold 2 (.count .done) () (.count .done))
    let script : Script Unit := .rescue (.hold 1 inner () .done) again
    let r := script.run .empty
    script.Nested ∅ ∧
      r.events = [.taken 1, .taken 2, .abandoned 2, .abandoned 1, .rescued true, .counted 2,
        .taken 2, .counted 2, .returned 2 (), .counted 1] ∧
      r.ending = .finished ∧
      (∀ id, id ∈ r.tableAfter .empty 9 ↔ id ∈ r.tableAfter .empty 8 ∧ id ≠ 2) := by
  intro inner again script r
  have hnested : script.Nested ∅ := by
    simp [script, inner, again, Script.Nested, Script.crashes]
  obtain ⟨hending, -, hpoints⟩ := lock_entries_are_held_or_abandoned script hnested
  obtain ⟨-, -, -, -, -, -, -, -, hreturned⟩ := hpoints 8
  exact ⟨hnested, by decide, hending, hreturned 2 () (by decide)⟩

end LedgerRules
