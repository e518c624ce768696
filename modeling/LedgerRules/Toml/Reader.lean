import LedgerRules.Text.Digits
/-!
# Reading documents

A reader takes a part off the front of a text, or fails and takes nothing. Most of the parts that
stand between values are read here: blanks, comments, ends of lines, and digits that underscores
divide.
-/

namespace LedgerRules.Toml

/-- A reader of a part of a document. -/
abbrev Reader := StateT (List Char) Option

namespace Reader

variable {α : Type}

/-- Takes a character of a class. -/
def one (class? : Char → Bool) : Reader Char
  | [] => none
  | c :: s => if class? c then some (c, s) else none

/-- Takes the given characters. -/
def exactly (expected : List Char) : Reader Unit := fun s =>
  if expected.isPrefixOf s then some ((), s.drop expected.length) else none

/-- Takes all characters of a class that stand in front. -/
def run (class? : Char → Bool) : Reader (List Char) := fun s =>
  some (s.takeWhile class?, s.dropWhile class?)

/-- Takes one or more characters of a class. -/
def run1 (class? : Char → Bool) : Reader (List Char) := do
  let cs ← run class?
  if cs.isEmpty then failure else pure cs

/-- Takes exactly so many characters of a class. -/
def count (class? : Char → Bool) (n : Nat) : Reader (List Char) := fun s =>
  let cs := s.take n
  if cs.length = n && cs.all class? then some (cs, s.drop n) else none

/-- Takes a part if it is there. -/
def opt (r : Reader α) : Reader (Option α) := fun s =>
  match r s with
  | some (a, rest) => some (some a, rest)
  | none => some (none, s)

/-- Takes a part as often as it is there, at most `most` times. -/
def upTo (r : Reader α) : Nat → Reader (List α)
  | 0, s => some ([], s)
  | most + 1, s =>
    match r s with
    | none => some ([], s)
    | some (a, rest) => (upTo r most rest).map fun (as, rest) => (a :: as, rest)

/-- Takes a part as often as it is there. Each takes at least one character. -/
def many (r : Reader α) : Reader (List α) := fun s => upTo r s.length s

/-- Takes parts with separators between them. -/
def separated (separator : Reader Unit) (r : Reader α) : Reader (List α) := do
  match ← opt r with
  | none => pure []
  | some first => do
    let others ← many do
      separator
      r
    pure (first :: others)

/-- Succeeds at the end of the text. -/
def atEnd : Reader Unit := fun s => if s.isEmpty then some ((), s) else none

end Reader

open Reader

/-! ## What stands between values -/

/-- Whether a character is a blank within a line. -/
def isSpace (c : Char) : Bool := c = ' ' || c = '\t'

/-- Whether a character may stand in texts and comments: a tab, or no control character. -/
def isPlain (c : Char) : Bool := c = '\t' || (' ' ≤ c && c != '\x7f')

/-- Takes blanks. -/
def spaces : Reader Unit := do
  let _ ← run isSpace

/-- Takes the end of a line. -/
def newline : Reader Unit := exactly ['\n'] <|> exactly ['\r', '\n']

/-- Takes a comment up to the end of its line. -/
def comment : Reader Unit := do
  exactly ['#']
  let _ ← run isPlain

/-- Takes the end of a line or of the text. -/
def lineEnd : Reader Unit := newline <|> atEnd

/-- Takes what may follow on a line that is complete. -/
def lineRest : Reader Unit := do
  spaces
  let _ ← opt comment
  lineEnd

/-- Takes blanks, comments and ends of lines. -/
def gap : Reader Unit := do
  let space : Reader Unit := do let _ ← run1 isSpace
  let commentLine : Reader Unit := do
    comment
    newline
  let _ ← many (space <|> newline <|> commentLine)

/-- Takes digits of a class, single underscores between them aside. -/
def dividedDigits (class? : Char → Bool) : Reader (List Char) := do
  let first ← one class?
  let others ← many do
    let _ ← opt (exactly ['_'])
    one class?
  pure (first :: others)

end LedgerRules.Toml
