import LedgerRules.CommandLine.Arguments
import LedgerRules.CommandLine.Report
/-!
# Usage

What the program says of itself instead of carrying out a command.
-/

namespace LedgerRules.CommandLine

/-- The name and the version of the program. -/
def versionText : String := "sift 0.1.0\n"

/-- How the program is used. -/
def usageText : String :=
  unlines
    ["Usage: sift [OPTIONS] <COMMAND>",
      "",
      "Commands:",
      "  init     Initialize the database",
      "  run      Run rules over a user's transactions and apply the results",
      "  rules    List a user's rules with their conditions and actions",
      "  preview  Show what the rules would change on one transaction, without writing",
      "",
      "Options:",
      "      --db <DB>          Database path",
      "  -v, --verbose          Enable verbose logging",
      "      --no-encrypt       Disable database encryption",
      "      --config <CONFIG>  Executor config file",
      "  -h, --help             Print help",
      "  -V, --version          Print version"]

namespace Interruption

/-- The status of the process. -/
def status : Interruption → UInt32
  | .help | .version => 0
  | .misuse => 2

/-- What is said. -/
def text : Interruption → String
  | .version => versionText
  | .help | .misuse => usageText

end Interruption

end LedgerRules.CommandLine
