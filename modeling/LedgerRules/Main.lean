import LedgerRules.CommandLine.Image
import LedgerRules.CommandLine.Outcome
import LedgerRules.CommandLine.Usage
import Std.Time.DateTime.Timestamp
/-!
# The program

Reads the arguments, the environment and the files that they name, prints what comes of it, and
writes the ledger back.
-/

namespace LedgerRules.CommandLine

/-- The present moment. -/
def clock : IO Instant := do
  let t ← Std.Time.Timestamp.now
  pure ((Instant.ofUnix? t.toSecondsSinceUnixEpoch.val 0).getD default)

/-- What is found under the path of a ledger. -/
def findVault (path : String) : IO VaultFile := do
  try
    pure (Vault.ofImage (← IO.FS.readBinFile path))
  catch
    | .noFileOrDirectory .. => pure .missing
    | _ => pure (.unreachable path)

/-- Writes a ledger back, and says whether that was possible. -/
def keepVault (path : String) : VaultFile → IO Bool
  | .vault v => do
    try
      IO.FS.writeFile path v.image
      pure true
    catch _ => pure false
  | _ => pure true

/-- What is found under the path of the settings. -/
def findSettings (path : String) : IO Settings.Source := do
  try
    pure (.file (← IO.FS.readBinFile path))
  catch
    | .noFileOrDirectory .. => pure .missing
    | e => pure (.unreadable (toString e))

/-- The path of the settings if none is named. -/
def standardSettings : IO String := do
  let home := (← IO.getEnv "HOME").getD ""
  let data := (← IO.getEnv "XDG_DATA_HOME").getD (home ++ "/.local/share")
  pure (data ++ "/sift/config/executor.toml")

/-- What an invocation finds. -/
def find (inv : Invocation) : IO Circumstances := do
  let settingsPath ← inv.settings.elim standardSettings pure
  pure
    { now := ← clock, passphrase := ← IO.getEnv "SIFT_DB_KEY",
      pageSize := ← IO.getEnv "SIFT_PAGE_SIZE", ledger := ← findVault inv.ledger, settingsPath,
      settings := ← findSettings settingsPath }

/-- Carries out an invocation and gives the status of the process. -/
def perform (inv : Invocation) : IO UInt32 := do
  let outcome := inv.outcome (← find inv)
  if ← keepVault inv.ledger outcome.ledger then
    IO.print outcome.output
    if let some failure := outcome.failure then IO.eprint failure.report
    pure outcome.status
  else
    IO.print inv.opening
    IO.eprint (Failure.during "Failed to open database" (.unreachable inv.ledger)).report
    pure 1

end LedgerRules.CommandLine

open LedgerRules.CommandLine in
/-- The program. -/
def main (arguments : List String) : IO UInt32 := do
  match Invocation.ofArguments arguments with
  | .ok inv => perform inv
  | .error interruption =>
    if interruption = .misuse then IO.eprint interruption.text else IO.print interruption.text
    pure interruption.status
