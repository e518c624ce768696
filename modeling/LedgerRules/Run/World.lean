import LedgerRules.Run.Call
/-!
# The world of a run

A run is alone with its ledger only if nothing disturbs it. `Schedule` says what happens at each
call: another writer may have changed the ledger before, somebody may ask the run to stop, the
call may be refused, or the run may crash. Every call is recorded with how it ended.

The flag that asks a run to stop is looked at only where `Run.cancelled` is used.
-/

namespace LedgerRules

/-- How a call ends. -/
inductive Fate where
  /-- It reaches the ledger. -/
  | served
  /-- It is refused before it reaches the ledger. -/
  | refused (error : LedgerError)
  /-- The run crashes in it. -/
  | crashed

/-- What happens at a call, in this order. -/
structure Disturbance where
  /-- What another writer makes of the ledger before the call. -/
  writes : Ledger → Ledger
  /-- Whether the run is asked to stop. -/
  cancels : Bool
  /-- How the call ends. -/
  fate : Fate

/-- Nothing happens but the call. -/
def Disturbance.none : Disturbance := ⟨id, false, .served⟩

/-- A call that was made. -/
structure Event where
  /-- The call. -/
  call : Call
  /-- Whether it was answered; otherwise it failed. -/
  answered : Bool
deriving DecidableEq

/-- What happens at a call after earlier ones, the latest of which comes first. -/
abbrev Schedule := List Event → Call → Disturbance

/-- Nothing ever happens. -/
def Schedule.calm : Schedule := fun _ _ => .none

/-- What surrounds a run and stays the same during it. -/
structure Surroundings where
  /-- The clock. -/
  now : Instant
  /-- The disturbances. -/
  schedule : Schedule

/-- What changes during a run. -/
structure World where
  /-- The ledger. -/
  ledger : Ledger
  /-- The flag that asks the run to stop, if the run has one. -/
  flag : Option Bool
  /-- The calls made so far, the latest first. -/
  events : List Event

/-- Why a run, or a step of it, came to no result. -/
inductive Stop where
  /-- A step failed; the run may go on without it. -/
  | failed (error : LedgerError)
  /-- The run crashed. -/
  | crashed
deriving DecidableEq

/-- A step of a run. -/
abbrev Run := EStateM Stop World

namespace Run

/-- Makes a call. -/
def perform (env : Surroundings) (c : Call) : Run c.Answer := fun w =>
  -- Other writers come first, then the wish to stop, then the call itself.
  let disturbance := env.schedule w.events c
  let ledger := disturbance.writes w.ledger
  let flag := if disturbance.cancels then w.flag.map fun _ => true else w.flag
  match disturbance.fate with
  | .served =>
    match c.serve env.now ledger with
    | .ok (answer, ledger) => .ok answer ⟨ledger, flag, ⟨c, true⟩ :: w.events⟩
    | .error e => .error (.failed e) ⟨ledger, flag, ⟨c, false⟩ :: w.events⟩
  | .refused e => .error (.failed e) ⟨ledger, flag, ⟨c, false⟩ :: w.events⟩
  | .crashed => .error .crashed ⟨ledger, flag, ⟨c, false⟩ :: w.events⟩

/-- Fails with an error. -/
def fail {α : Type} (e : LedgerError) : Run α := fun w => .error (.failed e) w

/-- Takes a failure of a step as its result. What the step did before it failed stays done. -/
def attempt {α : Type} (step : Run α) : Run (Except LedgerError α) := fun w =>
  match step w with
  | .ok a w => .ok (.ok a) w
  | .error (.failed e) w => .ok (.error e) w
  | .error .crashed w => .error .crashed w

/-- Whether the run is asked to stop. -/
def cancelled : Run Bool := fun w => .ok (w.flag == some true) w

end Run

end LedgerRules
