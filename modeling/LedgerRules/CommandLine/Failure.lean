import LedgerRules.Ledger.Error
import LedgerRules.Text.Column
import LedgerRules.Text.Digits
/-!
# Failures

A failure of the program is reported with all its causes: first what the program was about to do,
then what went wrong, down to the first cause.
-/

namespace LedgerRules.CommandLine

/-- A failure with its causes. -/
structure Failure where
  /-- What failed. -/
  headline : String
  /-- Why, each cause below the one that it led to. -/
  causes : List String
deriving DecidableEq

namespace Failure

/-- What was about to be done failed for an error of the ledger. -/
def during (attempted : String) (e : LedgerError) : Failure := ⟨attempted, e.causes⟩

/-- An error of the ledger stands for itself. -/
def ofLedgerError (e : LedgerError) : Failure := ⟨e.message, e.causes.tail⟩

/-- A text whose later lines are indented. -/
def indentLines (indent : List Char) (s : String) : List Char :=
  s.toList.flatMap fun c => if c = '\n' then '\n' :: indent else [c]

/-- The only cause, on a line of its own. -/
def onlyCause (cause : String) : List Char :=
  let indent := List.replicate 4 ' '
  '\n' :: indent ++ indentLines indent cause

/-- Causes with their numbers, each on a line of its own. -/
def numberedCauses (number : Nat) : List String → List Char
  | [] => []
  | cause :: causes =>
    '\n' :: (Text.flushRight 5 (String.ofList (Text.decimal number))).toList ++ ':' :: ' ' ::
      indentLines (List.replicate 7 ' ') cause ++ numberedCauses (number + 1) causes

/-- The causes of a failure. -/
def causeLines : List String → List Char
  | [] => []
  | [cause] => "\n\nCaused by:".toList ++ onlyCause cause
  | causes => "\n\nCaused by:".toList ++ numberedCauses 0 causes

/-- The report of a failure. -/
def report (f : Failure) : String :=
  String.ofList ("Error: ".toList ++ f.headline.toList ++ causeLines f.causes ++ ['\n'])

end Failure

end LedgerRules.CommandLine
