import LedgerRules.Ident
/-!
# Options of the command line

The commands of the program and the options that may stand before and after them. An option is
known by a long name, and some are known by a letter as well. It takes nothing, a path or a
number.
-/

namespace LedgerRules.CommandLine

/-- What an option takes. -/
inductive Takes where
  /-- Nothing: it is given or not. -/
  | nothing
  /-- The path of a file. -/
  | path
  /-- A signed number of sixty-four bits. -/
  | number
deriving DecidableEq

/-- What an option has been given. -/
inductive Value where
  /-- Nothing. -/
  | present
  /-- A path. -/
  | path (file : String)
  /-- A number. -/
  | number (value : Int64)
deriving DecidableEq

/-- The value that a text, or its absence, stands for. A path has at least one character. -/
def Takes.value? : Takes → Option String → Option Value
  | .nothing, none => some .present
  | .path, some text => if text.isEmpty then none else some (.path text)
  | .number, some text => (Ident.parse? text.toList).map .number
  | _, _ => none

/-- An option. -/
inductive OptionName where
  /-- Asks how the program is used. -/
  | help
  /-- Asks which version it is. -/
  | version
  /-- Asks for more messages on the way; no result depends on it. -/
  | verbose
  /-- The file of the ledger. -/
  | ledger
  /-- The ledger lies in the open. -/
  | unlocked
  /-- The file of the settings. -/
  | settings
  /-- The user. -/
  | user
  /-- A rule to run. -/
  | rule
  /-- A transaction to look at. -/
  | transaction
  /-- The size of the pages of a full scan. -/
  | pageSize
  /-- Asks for results as JSON. -/
  | json
deriving DecidableEq

namespace OptionName

/-- The long name of an option. -/
def long : OptionName → String
  | help => "help"
  | version => "version"
  | verbose => "verbose"
  | ledger => "db"
  | unlocked => "no-encrypt"
  | settings => "config"
  | user => "user"
  | rule => "rule"
  | transaction => "transaction"
  | pageSize => "page-size"
  | json => "json"

/-- What an option takes. -/
def takes : OptionName → Takes
  | help | version | verbose | unlocked | json => .nothing
  | ledger | settings => .path
  | user | rule | transaction | pageSize => .number

end OptionName

/-- An option at a place of the command line. -/
structure Place where
  /-- The option. -/
  name : OptionName
  /-- Its letter. -/
  letter : Option Char
  /-- Whether it may be given more than once. -/
  many : Bool
deriving DecidableEq

/-- A command. -/
inductive CommandName where
  /-- Makes a ledger. -/
  | init
  /-- Runs rules. -/
  | run
  /-- Lists rules. -/
  | rules
  /-- Shows what the rules would do to a transaction. -/
  | preview
deriving DecidableEq

namespace CommandName

/-- All commands. -/
def all : List CommandName := [init, run, rules, preview]

/-- The word for a command. -/
def word : CommandName → String
  | init => "init"
  | run => "run"
  | rules => "rules"
  | preview => "preview"

/-- The command for which a word stands. -/
def ofWord? (word : String) : Option CommandName := all.find? fun c => c.word = word

end CommandName

/-! ## Places -/

/-- The options that may stand anywhere. -/
def everywhere : List Place :=
  [⟨.ledger, none, false⟩, ⟨.verbose, some 'v', false⟩, ⟨.unlocked, none, false⟩,
    ⟨.settings, none, false⟩, ⟨.help, some 'h', false⟩]

/-- The options before the command. -/
def beforeCommand : List Place := ⟨.version, some 'V', false⟩ :: everywhere

/-- The options after a command. -/
def CommandName.places : CommandName → List Place
  | .init => everywhere
  | .run =>
    [⟨.user, some 'u', false⟩, ⟨.rule, none, true⟩, ⟨.transaction, none, true⟩,
      ⟨.pageSize, none, false⟩, ⟨.json, none, false⟩] ++ everywhere
  | .rules => [⟨.user, some 'u', false⟩, ⟨.json, none, false⟩] ++ everywhere
  | .preview =>
    [⟨.user, some 'u', false⟩, ⟨.transaction, some 't', false⟩, ⟨.json, none, false⟩] ++
      everywhere

end LedgerRules.CommandLine
