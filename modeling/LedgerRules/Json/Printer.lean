import LedgerRules.Amount.Shortest
import LedgerRules.Calendar.Rfc3339
import LedgerRules.Json.Datum
import LedgerRules.Json.Quoted
/-!
# Writing JSON

Values are written in the order in which they stand. The compact layout has no space at all; the
indented layout puts each element on a line of its own, two spaces further in than what surrounds
it. Numbers that are neither finite nor whole are written as `null`.
-/

namespace LedgerRules.Json

open Text

/-- How the parts of a text are set apart. -/
inductive Layout where
  /-- Not at all. -/
  | compact
  /-- Line by line, indented by depth. -/
  | indented
deriving DecidableEq

namespace Layout

/-- What stands before an element, or before a closing bracket, at a depth. -/
def gap : Layout → Nat → List Char
  | .compact, _ => []
  | .indented, depth => '\n' :: List.replicate (2 * depth) ' '

/-- What stands between a key and its value. -/
def colon : Layout → List Char
  | .compact => [':']
  | .indented => [':', ' ']

end Layout

/-- A value without parts, as it is written. -/
def writeSingle : Datum → List Char
  | .flag true => "true".toList
  | .flag false => "false".toList
  | .whole z => integer z
  | .real x => (Amount.json? x).getD "null".toList
  | .text s => quote s
  | .moment t => '"' :: Calendar.rfc3339Text t ++ ['"']
  | .null | .list _ | .record _ => "null".toList

mutual

/-- A value as it is written at a depth. -/
def writeAt (layout : Layout) (depth : Nat) : Datum → List Char
  | .list [] => ['[', ']']
  | .list (item :: items) =>
    '[' :: layout.gap (depth + 1) ++ writeAt layout (depth + 1) item ++
      writeItems layout depth items
  | .record [] => ['{', '}']
  | .record ((key, value) :: members) =>
    '{' :: layout.gap (depth + 1) ++ quote key ++ layout.colon ++
      writeAt layout (depth + 1) value ++ writeMembers layout depth members
  | d => writeSingle d

/-- The later elements of a list at a depth, and its end. -/
def writeItems (layout : Layout) (depth : Nat) : List Datum → List Char
  | [] => layout.gap depth ++ [']']
  | item :: items =>
    ',' :: layout.gap (depth + 1) ++ writeAt layout (depth + 1) item ++
      writeItems layout depth items

/-- The later members of a record at a depth, and its end. -/
def writeMembers (layout : Layout) (depth : Nat) : List (String × Datum) → List Char
  | [] => layout.gap depth ++ ['}']
  | (key, value) :: members =>
    ',' :: layout.gap (depth + 1) ++ quote key ++ layout.colon ++
      writeAt layout (depth + 1) value ++ writeMembers layout depth members

end

/-- A value as it is written. -/
def write (layout : Layout) (d : Datum) : String := String.ofList (writeAt layout 0 d)

end LedgerRules.Json
