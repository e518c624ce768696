import LedgerRules.Toml.Scalar
import LedgerRules.Toml.Table
/-!
# Values of a document

Single values, lists between brackets and tables between braces. Lists may go over several lines
and end with a comma; tables may not. Brackets and braces are nested less than eighty deep, and a
dotted key has less than eighty parts.
-/

namespace LedgerRules.Toml

open Reader

/-- Whether a character may stand in a key without quotes. -/
def isBare (c : Char) : Bool := c.isAlphanum || c = '_' || c = '-'

/-- The least number of levels, or of parts of a key, that is too many. -/
def depthLimit : Nat := 80

/-- Takes a part of a key. -/
def keyPart : Reader String := do
  pure (String.ofList (← basicText <|> literalText <|> run1 isBare))

/-- Takes a key: one or more parts with dots between them. -/
def key : Reader (List String) := do
  let part : Reader String := do
    spaces
    let part ← keyPart
    spaces
    pure part
  let parts ← separated (exactly ['.']) part
  if parts.isEmpty || depthLimit ≤ parts.length then failure else pure parts

/-- Takes a key and its value. -/
def assignment (value : Reader Node) : Reader (List String × Node) := do
  let key ← key
  exactly ['=']
  spaces
  let value ← value
  pure (key, value)

/-- Takes a list between brackets, given the reader of its values. -/
def listOf (value : Reader Node) : Reader Node := do
  exactly ['[']
  let item : Reader Node := do
    gap
    let item ← value
    gap
    pure item
  let items ← separated (exactly [',']) item
  if !items.isEmpty then
    let _ ← opt (exactly [','])
  gap
  exactly [']']
  pure (.list items)

/-- Takes a table between braces, given the reader of its values. -/
def inlineTable (value : Reader Node) : Reader Node := do
  exactly ['{']
  let pair : Reader (List String × Node) := do
    let pair ← assignment value
    spaces
    pure pair
  let pairs ← separated (exactly [',']) pair
  spaces
  exactly ['}']
  match Entries.assignAll [] pairs with
  | some entries => pure (.table .inline entries)
  | none => failure

/-- Takes a value with at most so many levels of brackets and braces. -/
def valueWithin : Nat → Reader Node
  | 0 => scalar
  | levels + 1 =>
    listOf (valueWithin levels) <|> inlineTable (valueWithin levels) <|> scalar

/-- Takes a value. -/
def value : Reader Node := valueWithin (depthLimit - 1)

end LedgerRules.Toml
