import LedgerRules.Calendar.Rfc3339
import LedgerRules.Json.Anything
/-!
# Expected shapes

A shape says what value is expected and takes it from a text. Records may have their members in
any order and further members, which are passed over; the first problem in the text decides. What
a shape takes is a datum whose records have exactly the expected members in the declared order.

* `single`, `word`, `orNull`, `listOf` and `record` are the shapes of most types.
* `merged` is the shape of a record that holds the members of another record beside its own. The
  members of the other record are looked at only when the whole text has been taken.
-/

namespace LedgerRules.Json

open Reader

/-- A reader of an expected value, which comes after spaces. The number says how many lists and
records may still be opened. -/
abbrev Shape := Nat → Reader Datum

/-! ## Values without parts -/

/-- A kind of value without parts. -/
inductive Single where
  /-- A whole number within bounds. -/
  | whole (low high : Int)
  /-- A number. -/
  | real
  /-- A truth value. -/
  | flag
  /-- A text. -/
  | text
  /-- A moment. -/
  | moment
  /-- One of some words. -/
  | word (words : List String)

/-- What a value means where a kind of value is expected. -/
def Single.interpret : Single → Datum → Option Datum
  | .whole low high, .whole z => if low ≤ z ∧ z ≤ high then some (.whole z) else none
  | .real, .whole z => some (.real (Amount.ofDecimal (z < 0) z.natAbs 0))
  | .real, .real x => some (.real x)
  | .flag, .flag b => some (.flag b)
  | .text, .text s => some (.text s)
  | .moment, .text s =>
    match Calendar.readRfc3339 s.toList with
    | .ok t => some (.moment t)
    | .error _ => none
  | .word words, .text s => if words.contains s then some (.text s) else none
  | .word words, .record [(key, .null)] => if words.contains key then some (.text key) else none
  | .word words, .record [(key, .record [])] =>
    if words.contains key then some (.text key) else none
  | _, _ => none

/-- What a value means, or the complaint that it is something else. -/
def demand (kind : Single) (d : Datum) : Reader Datum :=
  match kind.interpret d with
  | some value => pure value
  | none => throw .mismatch

/-- Whether a value of a kind can begin with a character. -/
def Single.opens : Single → Char → Bool
  | .whole _ _, c | .real, c => c = '-' || c.isDigit
  | .flag, c => c = 't' || c = 'f'
  | .text, c | .moment, c | .word _, c => c = '"'

/-- Takes the one word that stands as a key before `null`. -/
def wordAsKey (words : List String) : Reader Datum := do
  let _ ← take
  if (← peekPart) != '"' then wrongType
  let key ← demand (.word words) (.text (← text true))
  mark ':'
  if (← peekPart) = 'n' then expectRest "null".toList else wrongType
  mark '}'
  pure key

/-- The shape of a value without parts. A word may stand as a key before `null` instead, and what
is neither is no word at all. -/
def single (kind : Single) : Shape := fun _ => do
  let c ← peekPart
  if kind.opens c then demand kind (← plain true)
  else
    match kind with
    | .word words => if c = '{' then wordAsKey words else throw .malformed
    | _ => wrongType

/-! ## Values with parts -/

/-- The shape of a value that may be missing. -/
def orNull (shape : Shape) : Shape := fun levels => do
  spaces
  if (← peek?) = some 'n' then
    expectRest "null".toList
    pure .null
  else shape levels

/-- Opens a list or record: one level fewer is left for what lies inside. -/
def descend {α : Type} (inside : Nat → Reader α) : Nat → Reader α
  | 0 => throw .malformed
  | levels + 1 => do
    let _ ← take
    inside levels

/-- The shape of a list. -/
def listOf (shape : Shape) : Shape := fun levels => do
  if (← peekPart) = '[' then
    let items ← descend (fun levels => allElements (shape levels)) levels
    pure (.list items)
  else wrongType

/-- A member of a record. -/
structure Field where
  /-- The key. -/
  name : String
  /-- Whether the member may be missing, which means that it is null. -/
  optional : Bool
  /-- The shape of the value. -/
  shape : Shape

/-- The members that were found, in the declared order. -/
def arrange (found : List (String × Datum)) : List (String × Bool) →
    Reader (List (String × Datum))
  | [] => pure []
  | (name, optional) :: names =>
    match found.lookup name with
    | some value => do pure ((name, value) :: (← arrange found names))
    | none =>
      if optional then do pure ((name, .null) :: (← arrange found names))
      else throw .mismatch

/-- Takes a key whose opening quote should come next. -/
def key : Reader String := do
  if (← peek) = '"' then text true else throw .malformed

/-- Takes the members of a record after its opening brace, at most so many. -/
def fieldMembers (fields : List Field) (levels : Nat) :
    Nat → Bool → List (String × Datum) → Reader (List (String × Datum))
  | 0, _, _ => throw .malformed
  | most + 1, first, found => do
    if ← another first '}' then
      let name ← key
      match fields.find? fun f => f.name = name with
      | some field =>
        -- A member that comes twice is reported before its value is read.
        if (found.lookup name).isSome then throw .mismatch
        mark ':'
        let value ← field.shape levels
        fieldMembers fields levels most false ((name, value) :: found)
      | none =>
        mark ':'
        let _ ← anything false levels
        fieldMembers fields levels most false found
    else arrange found (fields.map fun f => (f.name, f.optional))

/-- Takes the values of a record from a list that holds them in the declared order. -/
def fieldElements (levels : Nat) : List Field → Bool → Reader (List (String × Datum))
  | [], _ => do
    mark ']'
    pure []
  | field :: fields, first => do
    if ← another first ']' then
      let value ← field.shape levels
      pure ((field.name, value) :: (← fieldElements levels fields false))
    else throw .mismatch

/-- The shape of a record, which may also be written as a list of its values. -/
def record (fields : List Field) : Shape := fun levels => do
  match ← peekPart with
  | '{' =>
    let ms ← descend (fun levels s => fieldMembers fields levels s.length true [] s) levels
    pure (.record ms)
  | '[' =>
    let ms ← descend (fun levels => fieldElements levels fields true) levels
    pure (.record ms)
  | _ => wrongType

/-! ## Merged records -/

/-- A member of a record whose members are merged into another. -/
structure MergedField where
  /-- The key. -/
  name : String
  /-- Whether the member may be null or missing. -/
  optional : Bool
  /-- The kind of the value. -/
  kind : Single

/-- What was found in a merged record: its own members, and all others as they are. -/
structure Found where
  /-- The members with a shape of their own. -/
  own : List (String × Datum)
  /-- The others. -/
  others : List (String × Datum)

/-- Takes the members of a merged record after its opening brace, at most so many. -/
def mergedMembers (fields : List Field) (levels : Nat) : Nat → Bool → Found → Reader Found
  | 0, _, _ => throw .malformed
  | most + 1, first, found => do
    if ← another first '}' then
      let name ← key
      match fields.find? fun f => f.name = name with
      | some field =>
        if (found.own.lookup name).isSome then throw .mismatch
        mark ':'
        let value ← field.shape levels
        mergedMembers fields levels most false { found with own := (name, value) :: found.own }
      | none =>
        mark ':'
        let value ← anything true levels
        mergedMembers fields levels most false
          { found with others := (name, value) :: found.others }
    else pure found

/-- The values of a merged record's members among others. A member must not come twice. -/
def interpretMembers (others : List (String × Datum)) : List MergedField →
    Reader (List (String × Datum))
  | [] => pure []
  | field :: fields => do
    let value ←
      match others.filter fun m => m.1 = field.name with
      | [] => if field.optional then pure .null else throw .mismatch
      | [(_, .null)] => if field.optional then pure .null else throw .mismatch
      | [(_, d)] => demand field.kind d
      | _ => throw .mismatch
    pure ((field.name, value) :: (← interpretMembers others fields))

/-- The shape of a record that holds the members of another before its own. -/
def merged (inner : List MergedField) (fields : List Field) : Shape := fun levels => do
  if (← peekPart) = '{' then
    let found ←
      descend (fun levels s => mergedMembers fields levels s.length true ⟨[], []⟩ s) levels
    let own ← arrange found.own (fields.map fun f => (f.name, f.optional))
    let others ← interpretMembers found.others inner
    pure (.record (others ++ own))
  else wrongType

/-- Takes a value of a shape that makes up a whole text. -/
def readWhole (shape : Shape) (s : String) : Except Problem Datum :=
  let whole : Reader Datum := do
    let value ← shape depthLimit
    finish
    pure value
  (whole s.toList).map (·.1)

end LedgerRules.Json
