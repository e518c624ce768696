import LedgerRules.Run.Apply
import LedgerRules.Run.Working
/-!
# Runs

A run finds its rules, reads transactions, evaluates the rules on each of them and writes what
they stage. Not finding the rules ends the run without a summary. After that nothing does:

* a transaction whose changes cannot be written is left as it is;
* a transaction or page that cannot be read ends the reading;
* a request to stop is heeded before each page, or before the first of the named transactions.

`Run.preview` evaluates the rules on one transaction and writes nothing.
-/

namespace LedgerRules

namespace Run

variable (env : Surroundings) (settings : Settings) (user : Ident) (engine : Engine)

/-- Evaluates the rules on a transaction, writes what they stage, and adds to the summary. -/
def process (sum : Summary) (t : Transaction) : Run Summary := do
  let sum := { sum with processed := sum.processed + 1 }
  match engine.evaluate t with
  | none => pure sum
  | some cs =>
    match ← attempt (apply env settings user cs) with
    | .ok (some modified) => pure { sum with modified := sum.modified ++ [modified] }
    | .ok none => pure sum
    | .error _ => pure sum

/-- Evaluates the rules on transactions in order. -/
def processAll : Summary → List Transaction → Run Summary
  | sum, [] => pure sum
  | sum, t :: ts => do processAll (← process env settings user engine sum t) ts

/-- Evaluates the rules on named transactions in order, up to one that cannot be read. Those that
the user does not own are left out. -/
def processNamed : Summary → List Ident → Run Summary
  | sum, [] => pure sum
  | sum, id :: ids => do
    match ← attempt (perform env (.transaction id user)) with
    | .ok (some t) => processNamed (← process env settings user engine sum t) ids
    | .ok none => processNamed sum ids
    | .error _ => pure sum

/-- Evaluates the rules on the pages from `page` on, at most `left` of them, up to one that is not
full or cannot be read. -/
def processPages (size : UInt64) : Nat → UInt64 → Summary → Run Summary
  | 0, _, sum => pure sum
  | left + 1, page, sum => do
    if ← cancelled then pure { sum with cancelled := true }
    else
      match ← attempt (perform env (.page user page size)) with
      | .error _ => pure sum
      | .ok ts =>
        let sum ← processAll env settings user engine sum ts
        -- A page that is not full is the last one.
        if ts.length < size.toNat then pure sum
        else processPages size left (page + 1) sum

/-- The number of pages that can be told apart: their first places are signed words. -/
def pageCount : Nat := 0x8000000000000000

/-- Evaluates the rules on all transactions that a request covers. -/
def processRequest (request : Request) (sum : Summary) : Run Summary :=
  match request.transactions with
  | some ids => do
    if ← cancelled then pure { sum with cancelled := true }
    else processNamed env settings user engine sum ids.eraseDups
  | none =>
    processPages env settings user engine (settings.pageSize request.pageSize) pageCount 0 sum

/-- Runs rules as a request asks. Without rules there is nothing to do. -/
def execute (request : Request) : Run Summary := do
  let rules ← workingSet env user request.rules
  if rules.isEmpty then pure Summary.empty
  else
    let engine ← engineFor env user rules
    processRequest env settings user engine request
      { Summary.empty with totalRules := UInt64.ofNat rules.length }

/-- What the rules in effect would change on a transaction. -/
def preview (id : Ident) : Run (Option Changeset) := do
  match ← perform env (.transaction id user) with
  | none => fail (.noTransaction id)
  | some t =>
    let rules ← workingSet env user none
    if rules.isEmpty then pure none
    else
      let engine ← engineFor env user rules
      pure (engine.evaluate t)

end Run

/-- The result of a run that nobody waits for: the summary, if there is one. -/
def backgroundSummary : EStateM.Result Stop World Summary → Option Summary
  | .ok summary _ => some summary
  | .error _ _ => none

end LedgerRules
