import LedgerRules.CommandLine.Arguments
import LedgerRules.Run.Summary
/-!
# Commands

What the arguments of the program ask for. An option that stands both before and after the command
counts as it stands after it.
-/

namespace LedgerRules.CommandLine

/-- A command with what it needs. -/
inductive Command where
  /-- Makes a ledger. -/
  | init
  /-- Runs a user's rules. -/
  | run (user : Ident) (request : Request) (json : Bool)
  /-- Lists a user's rules. -/
  | rules (user : Ident) (json : Bool)
  /-- Shows what a user's rules would do to a transaction. -/
  | preview (user transaction : Ident) (json : Bool)
deriving DecidableEq

/-- What the program is asked to do. -/
structure Invocation where
  /-- The file of the ledger. -/
  ledger : String
  /-- Whether the ledger is under a passphrase. -/
  locked : Bool
  /-- The file of the settings, if one is named. -/
  settings : Option String
  /-- The command. -/
  command : Command
deriving DecidableEq

namespace Given

/-- The number of an option that must be given. -/
def number (g : Given) (name : OptionName) : Except Interruption Int64 :=
  match g.numbers name with
  | [] => .error .misuse
  | value :: _ => .ok value

/-- The numbers of an option, of which none means that there is no restriction. -/
def choice (g : Given) (name : OptionName) : Option (List Ident) :=
  match g.numbers name with
  | [] => none
  | values => some values

/-- The request of a run. -/
def request (g : Given) : Request :=
  ⟨g.choice .rule, g.choice .transaction, (g.numbers .pageSize).head?⟩

/-- The command with what stands after it. -/
def command (after : Given) : CommandName → Except Interruption Command
  | .init => pure .init
  | .run => do pure (.run (← after.number .user) after.request (after.has .json))
  | .rules => do pure (.rules (← after.number .user) (after.has .json))
  | .preview => do
    pure (.preview (← after.number .user) (← after.number .transaction) (after.has .json))

end Given

namespace Invocation

/-- The file of the ledger if none is named. -/
def standardLedger : String := "sift.db"

/-- What the arguments ask for. -/
def ofArguments (arguments : List String) : Except Interruption Invocation := do
  let (before, name, after) ← readArguments arguments
  let command ← after.command name
  pure
    { ledger := ((after.path? .ledger) <|> before.path? .ledger).getD standardLedger
      locked := !(before.has .unlocked || after.has .unlocked)
      settings := (after.path? .settings) <|> before.path? .settings
      command }

end Invocation

end LedgerRules.CommandLine
