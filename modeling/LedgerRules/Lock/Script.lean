import LedgerRules.Lock.Table
/-!
# Working under locks

A script is a program that takes locks, works under them and gives them back. Work can crash: a
crash ends everything up to the nearest rescue, and the locks that are held at that time are given
back poisoned, with their entries left behind. Taking such a lock again and giving it back removes
the entry.

`Script.run` yields the events in order, each with the table after it. A script that takes a lock
while it holds it waits for ever.
-/

namespace LedgerRules

/-- A program that works under locks, with results of type `α`. -/
inductive Script (α : Type) where
  /-- The end. -/
  | done
  /-- Counts the entries of the table. -/
  | count (rest : Script α)
  /-- Takes a lock, works under it and gives it back with a result. -/
  | hold (id : Ident) (work : Script α) (result : α) (rest : Script α)
  /-- Crashes. -/
  | crash
  /-- Works, and goes on after a crash of the work. -/
  | rescue (work : Script α) (rest : Script α)

/-- What happens in a script. -/
inductive LockEvent (α : Type) where
  /-- A lock was taken. -/
  | taken (id : Ident)
  /-- A lock was given back with a result. -/
  | returned (id : Ident) (result : α)
  /-- The work under a lock crashed. -/
  | abandoned (id : Ident)
  /-- The entries were counted. -/
  | counted (size : Nat)
  /-- Work under a rescue ended, by a crash or not. -/
  | rescued (crashed : Bool)
deriving DecidableEq

/-- An event with the table after it. -/
structure LockStep (α : Type) where
  /-- What happened. -/
  event : LockEvent α
  /-- The table afterwards. -/
  table : LockTable

/-- How a script ends. -/
inductive ScriptEnd where
  /-- It comes to its end. -/
  | finished
  /-- It crashes. -/
  | crashed
  /-- It waits for ever for a lock. -/
  | blocked
deriving DecidableEq

/-- What a script does. -/
structure ScriptResult (α : Type) where
  /-- What happened, in order. -/
  steps : List (LockStep α)
  /-- The table in the end. -/
  table : LockTable
  /-- How the script ended. -/
  ending : ScriptEnd

namespace ScriptResult

variable {α : Type}

/-- What happened, in order. -/
def events (r : ScriptResult α) : List (LockEvent α) := r.steps.map (·.event)

/-- The result with further steps in front. -/
def after (steps : List (LockStep α)) (r : ScriptResult α) : ScriptResult α :=
  { r with steps := steps ++ r.steps }

end ScriptResult

/-- Runs a script on a table. -/
def Script.run {α : Type} : Script α → LockTable → ScriptResult α
  | done, t => ⟨[], t, .finished⟩
  | count rest, t => (rest.run t).after [⟨.counted t.size, t⟩]
  | hold id work result rest, t =>
    match t.enter? id with
    | none => ⟨[], t.refer id, .blocked⟩
    | some taken =>
      let inner := work.run taken
      let steps := ⟨.taken id, taken⟩ :: inner.steps
      match inner.ending with
      | .finished =>
        let left := inner.table.leave id
        (rest.run left).after (steps ++ [⟨.returned id result, left⟩])
      | .crashed =>
        -- The rest is skipped, and with it the end of the work under the lock.
        let abandoned := inner.table.abandon id
        ⟨steps ++ [⟨.abandoned id, abandoned⟩], abandoned, .crashed⟩
      | .blocked => ⟨steps, inner.table, .blocked⟩
  | crash, t => ⟨[], t, .crashed⟩
  | rescue work rest, t =>
    let inner := work.run t
    match inner.ending with
    | .blocked => inner
    | .finished => (rest.run inner.table).after (inner.steps ++ [⟨.rescued false, inner.table⟩])
    | .crashed => (rest.run inner.table).after (inner.steps ++ [⟨.rescued true, inner.table⟩])

end LedgerRules
