import LedgerRules.Ledger.Basic
import LedgerRules.Ledger.Error
/-!
# Vaults

A vault is a ledger as it lies in its file: in the open, or under the passphrase with which it was
first opened. The empty passphrase is a passphrase like any other.
-/

namespace LedgerRules

/-- A ledger in its file. -/
structure Vault where
  /-- The passphrase, if the ledger is under one. -/
  passphrase : Option String
  /-- The ledger. -/
  ledger : Ledger

/-- What is found in the place of a vault. -/
inductive VaultFile where
  /-- Nothing. -/
  | missing
  /-- A vault. -/
  | vault (v : Vault)
  /-- A file that is no vault. -/
  | other
  /-- Nothing that could be opened, nor a place for a new file. -/
  | unreachable (path : String)

namespace Vault

/-- Opens a vault, or makes a new one where there is none. A wrong passphrase, a missing one and
one too many all look as if there were no vault in the file. -/
def openWith (found : VaultFile) (passphrase : Option String) : Except LedgerError Vault :=
  match found with
  | .missing => .ok ⟨passphrase, Ledger.empty⟩
  | .vault v => if v.passphrase = passphrase then .ok v else .error (.store .notALedger)
  | .other => .error (.store .notALedger)
  | .unreachable path => .error (.unreachable path)

/-- Opens a vault with the passphrase of the environment, which must have one. -/
def openSecret (found : VaultFile) (passphrase : Option String) : Except LedgerError Vault :=
  match passphrase with
  | none => .error .noPassphrase
  | some _ => openWith found passphrase

end Vault

end LedgerRules
