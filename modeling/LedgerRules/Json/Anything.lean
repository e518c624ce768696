import LedgerRules.Json.Number
import LedgerRules.Json.Quoted
/-!
# Values of any shape

A value is taken either to be kept or to be passed over. What is passed over is still read, but
less closely: numbers may be too large, and surrogates may stand alone. A value may have at most
so many lists and records within one another.
-/

namespace LedgerRules.Json

open Reader

/-- How deep lists and records may lie within one another, the outermost included. -/
def depthLimit : Nat := 127

/-- Takes a value without parts, whose first character comes next. -/
def plain (kept : Bool) : Reader Datum := do
  match ← peek with
  | 'n' =>
    expectRest "null".toList
    pure .null
  | 't' =>
    expectRest "true".toList
    pure (.flag true)
  | 'f' =>
    expectRest "false".toList
    pure (.flag false)
  | '"' =>
    let s ← text kept
    pure (.text s)
  | c =>
    if c = '-' || c.isDigit then
      if kept then number
      else
        passNumber
        pure .null
    else throw .malformed

/-- Takes the members of a record after its opening brace, at most so many. -/
def members (kept : Bool) (value : Reader Datum) : Nat → Bool → Reader (List (String × Datum))
  | 0, _ => throw .malformed
  | most + 1, first => do
    if ← another first '}' then
      if (← peek) != '"' then throw .malformed
      let key ← text kept
      mark ':'
      let value' ← value
      pure ((key, value') :: (← members kept value most false))
    else pure []

/-- Takes a value after spaces, with at most so many levels of lists and records. -/
def anything (kept : Bool) : Nat → Reader Datum
  | 0 => do
    let _ ← peekPart
    plain kept
  | levels + 1 => do
    match ← peekPart with
    | '[' =>
      let _ ← take
      let items ← allElements (anything kept levels)
      pure (.list items)
    | '{' =>
      let _ ← take
      let ms ← fun s => members kept (anything kept levels) s.length true s
      pure (.record ms)
    | _ => plain kept

/-- Where a value has the wrong type, as its first character shows: a value without parts is read
to its end first. -/
def wrongType {α : Type} : Reader α := do
  let c ← peek
  if c = '[' || c = '{' then throw .mismatch
  else
    let _ ← plain true
    throw .mismatch

end LedgerRules.Json
