import LedgerRules.Text.Digits
/-!
# Reading JSON

A text is read from left to right and the first problem ends the reading. A problem is of one of
three kinds: the text is no JSON, it ends before it is complete, or it is JSON for something else
than what is expected.
-/

namespace LedgerRules.Json

/-- What is wrong with a text. -/
inductive Problem where
  /-- It is no JSON. -/
  | malformed
  /-- It ends before it is complete. -/
  | unfinished
  /-- It does not have the expected shape. -/
  | mismatch
deriving DecidableEq

/-- A reader of a part of a text. -/
abbrev Reader := StateT (List Char) (Except Problem)

namespace Reader

variable {α : Type}

/-- Whether a character may stand between parts. -/
def isSpace (c : Char) : Bool := c = ' ' || c = '\n' || c = '\t' || c = '\r'

/-- Passes over what may stand between parts. -/
def spaces : Reader Unit := fun s => .ok ((), s.dropWhile isSpace)

/-- The next character, which is not taken. -/
def peek? : Reader (Option Char) := fun s => .ok (s.head?, s)

/-- The next character, which is not taken; the text must go on. -/
def peek : Reader Char := fun s =>
  match s with
  | [] => .error .unfinished
  | c :: _ => .ok (c, s)

/-- Takes the next character; the text must go on. -/
def take : Reader Char := fun s =>
  match s with
  | [] => .error .unfinished
  | c :: rest => .ok (c, rest)

/-- Passes over spaces and shows the next character. -/
def peekPart : Reader Char := do
  spaces
  peek

/-- Takes the rest of a word whose first character is known. -/
def expectRest : List Char → Reader Unit
  | [] => pure ()
  | expected :: cs => do
    if (← take) = expected then expectRest cs else throw .malformed

/-- Takes a mark after spaces. -/
def mark (expected : Char) : Reader Unit := do
  spaces
  if (← take) = expected then pure () else throw .malformed

/-- Whether a list or record that ends with `close` goes on with another element, the first or a
later one. The close is taken. -/
def another (first : Bool) (close : Char) : Reader Bool := do
  let c ← peekPart
  if c = close then
    let _ ← take
    pure false
  else if first then pure true
  else if c = ',' then
    let _ ← take
    if (← peekPart) = close then throw .malformed else pure true
  else throw .malformed

/-- Takes the elements of a list after its opening bracket, at most so many. -/
def elements (element : Reader α) : Nat → Bool → Reader (List α)
  | 0, _ => throw .malformed
  | most + 1, first => do
    if ← another first ']' then
      let a ← element
      pure (a :: (← elements element most false))
    else pure []

/-- Takes the elements of a list after its opening bracket. -/
def allElements (element : Reader α) : Reader (List α) := fun s =>
  elements element s.length true s

/-- Succeeds if only spaces are left. -/
def finish : Reader Unit := do
  spaces
  match ← peek? with
  | none => pure ()
  | some _ => throw .malformed

end Reader

end LedgerRules.Json
