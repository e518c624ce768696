import LedgerRules.CommandLine.Command
import LedgerRules.CommandLine.Failure
import LedgerRules.CommandLine.Report
import LedgerRules.Json.Entities
import LedgerRules.Ledger.Vault
import LedgerRules.Run.Execute
import LedgerRules.Run.SettingsFile
/-!
# Outcomes

What an invocation of the program comes to: what it prints, with which status it ends, and what its
ledger file holds afterwards. A ledger that is opened is there from then on, whatever happens next.
The ledger is opened before the settings are read; only commands that evaluate rules read them.
-/

namespace LedgerRules.CommandLine

/-- What an invocation finds. -/
structure Circumstances where
  /-- The clock. -/
  now : Instant
  /-- The passphrase of the environment. -/
  passphrase : Option String
  /-- The page size of the environment. -/
  pageSize : Option String
  /-- What is found under the path of the ledger. -/
  ledger : VaultFile
  /-- The path of the settings. -/
  settingsPath : String
  /-- What is found there. -/
  settings : Settings.Source

/-- How an invocation ends. -/
structure Outcome where
  /-- What it prints. -/
  output : String
  /-- Why it failed, if it did. -/
  failure : Option Failure
  /-- What is found under the path of the ledger afterwards. -/
  ledger : VaultFile

namespace Outcome

/-- The status of the process. -/
def status (o : Outcome) : UInt32 := if o.failure.isSome then 1 else 0

end Outcome

namespace Invocation

variable (inv : Invocation) (c : Circumstances)

/-- Opens the ledger. -/
def openLedger : Except Failure Vault :=
  if inv.locked then
    (Vault.openSecret c.ledger c.passphrase).mapError (Failure.during "Failed to open database")
  else
    (Vault.openWith c.ledger none).mapError
      (Failure.during "Failed to open database (unencrypted)")

/-- Loads the settings. -/
def loadSettings : Except Failure Settings :=
  let headline :=
    match inv.settings with
    | some path => s!"Failed to load config from {path}"
    | none => "Failed to load config"
  (Settings.load c.settings c.pageSize).mapError fun fault =>
    ⟨headline, [fault.message c.settingsPath]⟩

/-- A value as JSON on lines of its own. -/
def jsonText {α : Type} [Form α] (a : α) : String := Json.print .indented a ++ "\n"

/-- The world in which a run starts. Nobody asks it to stop, though somebody could. -/
def world (ledger : Ledger) : World := ⟨ledger, some false, []⟩

/-- What a failed run reports, and the ledger that it leaves behind. -/
def finish {α : Type} (attempted : String) (print : α → String) :
    EStateM.Result Stop World α → Except Failure String × Ledger
  | .ok a w => (.ok (print a), w.ledger)
  | .error (.failed e) w => (.error (Failure.during attempted e), w.ledger)
  | .error .crashed w => (.error ⟨attempted, []⟩, w.ledger)

/-- Carries out the command on an open ledger. -/
def carryOut (ledger : Ledger) : Except Failure String × Ledger :=
  match inv.command with
  | .init => (.ok (unlines (initDone inv.locked)), ledger)
  | .run user request json =>
    match inv.loadSettings c with
    | .error failure => (.error failure, ledger)
    | .ok settings =>
      finish "Rule run failed" (fun s => if json then jsonText s else unlines (summaryLines s))
        (Run.execute ⟨c.now, .calm⟩ settings user request (world ledger))
  | .rules user json =>
    match ledger.completeRulesOf c.now user with
    | .error e => (.error (Failure.ofLedgerError e), ledger)
    | .ok rules =>
      (.ok (if json then jsonText rules else unlines (ruleListLines user rules)), ledger)
  | .preview user transaction json =>
    match inv.loadSettings c with
    | .error failure => (.error failure, ledger)
    | .ok _ =>
      finish s!"Failed to preview transaction {Ident.toText transaction}"
        (fun cs => if json then jsonText cs else unlines (previewLines transaction cs))
        (Run.preview ⟨c.now, .calm⟩ user transaction (world ledger))

/-- What is printed before the ledger is opened. -/
def opening : String :=
  match inv.command with
  | .init => unlines (initStart inv.ledger)
  | _ => ""

/-- What an invocation comes to. -/
def outcome : Outcome :=
  match inv.openLedger c with
  | .error failure => ⟨inv.opening, some failure, c.ledger⟩
  | .ok vault =>
    match inv.carryOut c vault.ledger with
    | (.ok output, ledger) => ⟨inv.opening ++ output, none, .vault { vault with ledger }⟩
    | (.error failure, ledger) => ⟨inv.opening, some failure, .vault { vault with ledger }⟩

end Invocation

end LedgerRules.CommandLine
