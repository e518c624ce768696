import LedgerRules.Calendar.Field
import LedgerRules.Ident
import LedgerRules.Rules.Word
/-!
# What can go wrong with a ledger

Errors are causes; their wording is in `LedgerError.message` alone. `LedgerError.causes` is the
chain from the error down to its first cause, for a report that shows every link.
-/

namespace LedgerRules

/-- Why a stored text cannot be read. -/
inductive Unreadable where
  /-- It is no date. -/
  | date (fault : Calendar.DateFault)
  /-- It is no word of a vocabulary. -/
  | word (unknown : UnknownWord)
deriving DecidableEq

/-- The wording of the reason. -/
def Unreadable.message : Unreadable → String
  | .date fault => fault.message
  | .word unknown => unknown.message

/-- What the store of rows refuses or cannot do. -/
inductive StoreFault where
  /-- A row would name another row that does not exist, or leave one behind that names it. -/
  | foreignKey
  /-- A column that needs a value would have none. -/
  | missingValue (table column : String)
  /-- A row would break a rule of its table. -/
  | brokenRule (rule : String)
  /-- A row would say the same as another row where each must say something of its own. -/
  | repeated (columns : String)
  /-- The text in a column cannot be read. -/
  | unreadable (column : Nat) (reason : Unreadable)
  /-- A column that is read as text has no value. -/
  | nullText (column : Nat) (name : String)
  /-- The file is no ledger, or not one that the passphrase opens. -/
  | notALedger
  /-- All identifiers of a table are used up. -/
  | full
deriving DecidableEq

/-- The wording of a fault. -/
def StoreFault.message : StoreFault → String
  | .foreignKey => "FOREIGN KEY constraint failed"
  | .missingValue table column => s!"NOT NULL constraint failed: {table}.{column}"
  | .brokenRule rule => s!"CHECK constraint failed: {rule}"
  | .repeated columns => s!"UNIQUE constraint failed: {columns}"
  | .unreadable column reason =>
    s!"Conversion error from type Text at index: {column}, {reason.message}"
  | .nullText column name => s!"Invalid column type Null at index: {column}, name: {name}"
  | .notALedger => "file is not a database"
  | .full => "database or disk is full"

/-- What lies below a fault. -/
def StoreFault.cause? : StoreFault → Option String
  | .unreadable _ reason => some reason.message
  | .notALedger => some "Error code 26: File opened that is not a database file"
  | _ => none

/-- An error of an operation on a ledger. -/
inductive LedgerError where
  /-- The store of rows failed. -/
  | store (fault : StoreFault)
  /-- The file of the ledger can neither be opened nor made. -/
  | unreachable (path : String)
  /-- A ledger under a passphrase was asked for without one. -/
  | noPassphrase
  /-- A transaction was to be booked on an account of somebody else, or on none. -/
  | foreignAccount (account user : Ident)
  /-- The call was refused for another reason. -/
  | refused (reason : String)
  /-- The user has no such transaction. -/
  | noTransaction (id : Ident)
deriving DecidableEq

namespace LedgerError

/-- Why the file under a path is given up. -/
def unreachableReason (path : String) : String :=
  s!"timed out waiting for connection: unable to open database file: {path}"

/-- The wording of an error. -/
def message : LedgerError → String
  | .store fault => s!"Database error: {fault.message}"
  | .unreachable path => s!"Database pool error: {unreachableReason path}"
  | .noPassphrase =>
    "Encryption error: Database encryption required. Set SIFT_DB_KEY environment variable with " ++
      "your passphrase, or use --no-encrypt for unencrypted databases (not recommended for " ++
      "production)."
  | .foreignAccount account user =>
    s!"Invalid data: account {Ident.toText account} does not belong to user {Ident.toText user}"
  | .refused reason => s!"Invalid data: {reason}"
  | .noTransaction id => s!"Not found: transaction {Ident.toText id}"

/-- The chain of causes, from the error itself on down. -/
def causes (e : LedgerError) : List String :=
  match e with
  | .store fault => e.message :: fault.message :: fault.cause?.toList
  | .unreachable path => [e.message, unreachableReason path]
  | _ => [e.message]

end LedgerError

end LedgerRules
