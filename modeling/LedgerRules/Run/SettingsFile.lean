import LedgerRules.Run.Settings
import LedgerRules.Toml.Document
/-!
# Settings from a file

Settings are written as a TOML document with the tables `paging` and `apply`. What is not set has
its standard value; keys that mean nothing here are passed over. A table may also be written as
the list of all its values.
-/

namespace LedgerRules.Settings

open Toml

/-- A setting of a size: a whole number that is not negative. -/
def size? : Node → Option UInt64
  | .whole n => if n < 0 then none else some n.toUInt64
  | _ => none

/-- A setting that is on or off. -/
def flag? : Node → Option Bool
  | .flag b => some b
  | _ => none

/-- A setting under a key, or none if there is no such key. It fails on a wrong value. -/
def setting? {α : Type} (read : Node → Option α) (entries : Entries) (key : String) :
    Option (Option α) :=
  match Entries.find entries key with
  | none => some none
  | some node => (read node).map some

/-- The default and the greatest page size that a document sets. -/
def paging? : Node → Option (Option UInt64 × Option UInt64)
  | .table _ entries => do
    pure (← setting? size? entries "default_page_size", ← setting? size? entries "max_page_size")
  | .list [first, second] => do pure (← size? first, ← size? second)
  | .moment => some (none, none)
  | _ => none

/-- Whether a document sets that transfers are linked. -/
def linking? : Node → Option (Option Bool)
  | .table _ entries => setting? flag? entries "link_transfers"
  | .list [only] => (flag? only).map some
  | .moment => some none
  | _ => none

/-- The settings of a document. -/
def ofEntries? (entries : Entries) : Option Settings := do
  let paging ← setting? paging? entries "paging"
  let linking ← setting? linking? entries "apply"
  let (defaultSize, maxSize) := paging.getD (none, none)
  pure
    { defaultPageSize := defaultSize.getD standard.defaultPageSize
      maxPageSize := (maxSize.map fun size => min size pageLimit).getD standard.maxPageSize
      linkTransfers := (linking.getD none).getD standard.linkTransfers }

/-- The settings that a text sets. -/
def parse? (text : String) : Option Settings := (Toml.parse? text.toList).bind ofEntries?

/-- The settings with the page size of the environment, if that is a number. -/
def withPageSize (s : Settings) (environment : Option String) : Settings :=
  match environment.bind fun text => word64? (Text.trim text.toList) with
  | some size => { s with defaultPageSize := size }
  | none => s

/-- What is found in place of a file. -/
inductive Source where
  /-- There is nothing. -/
  | missing
  /-- There is a file with these bytes. -/
  | file (bytes : ByteArray)
  /-- There is something that cannot be read, such as a directory. -/
  | unreadable (reason : String)

/-- Why there are no settings. -/
inductive Fault where
  /-- The file cannot be read as text. -/
  | unreadable (reason : String)
  /-- The text sets nothing that settings can be. -/
  | malformed
deriving DecidableEq

/-- The wording of a fault of the file under a path. -/
def Fault.message (path : String) : Fault → String
  | .unreadable reason => s!"Config error: Failed to read {path}: {reason}"
  | .malformed => "Config error: Invalid config TOML: no document of settings"

/-- The settings of a file and the environment. Without a file the standard ones are meant. -/
def load (source : Source) (environment : Option String) : Except Fault Settings := do
  let settings ←
    match source with
    | .missing => pure standard
    | .file bytes =>
      match String.fromUTF8? bytes with
      | none => throw (.unreadable "stream did not contain valid UTF-8")
      | some text =>
        match parse? text with
        | none => throw .malformed
        | some settings => pure settings
    | .unreadable reason => throw (.unreadable reason)
  pure (settings.withPageSize environment)

end LedgerRules.Settings
