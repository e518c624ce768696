import LedgerRules.Toml.Reader
/-!
# Quoted texts of a document

Texts stand between double quotes, with escapes, or between single quotes, as they are; either
may go over several lines between tripled quotes.
-/

namespace LedgerRules.Toml

open Text Reader

/-- Whether a character is a hexadecimal digit. -/
def isHexDigit (c : Char) : Bool :=
  c.isDigit || ('a' ≤ c && c ≤ 'f') || ('A' ≤ c && c ≤ 'F')

/-- The value of a hexadecimal digit. -/
def hexDigitValue (c : Char) : Nat :=
  if c.isDigit then c.toNat - '0'.toNat
  else if 'a' ≤ c then c.toNat - 'a'.toNat + 10
  else c.toNat - 'A'.toNat + 10

/-- The number that hexadecimal digits denote. -/
def hexValue (cs : List Char) : Nat := cs.foldl (fun n c => 16 * n + hexDigitValue c) 0

/-- Takes the character of a code point that is written in hexadecimal digits. -/
def codePoint (width : Nat) : Reader Char := do
  let n := hexValue (← count isHexDigit width)
  if h : n.isValidChar then pure (Char.ofNatAux n h) else failure

/-- Takes an escape. -/
def escape : Reader Char := do
  exactly ['\\']
  match ← one fun _ => true with
  | 'b' => pure '\x08'
  | 'f' => pure '\x0c'
  | 'n' => pure '\n'
  | 'r' => pure '\r'
  | 't' => pure '\t'
  | '\\' => pure '\\'
  | '"' => pure '"'
  | 'u' => codePoint 4
  | 'U' => codePoint 8
  | _ => failure

/-- Takes a text of one line between quotes, given the reader of a character. -/
def oneLine (quote : Char) (character : Reader Char) : Reader (List Char) := do
  exactly [quote]
  let cs ← many character
  exactly [quote]
  pure cs

/-- Takes a text between double quotes. -/
def basicText : Reader (List Char) :=
  oneLine '"' (one (fun c => isPlain c && c != '"' && c != '\\') <|> escape)

/-- Takes a text between single quotes. -/
def literalText : Reader (List Char) := oneLine '\'' (one fun c => isPlain c && c != '\'')

/-- Takes one or two quotes that do not belong to the closing ones. -/
def innerQuotes (quote : Char) : Reader (List Char) := fun s =>
  match (s.takeWhile (· == quote)).length with
  | 1 => some ([quote], s.drop 1)
  | 2 => some ([quote, quote], s.drop 2)
  | _ => none

/-- Takes closing quotes with up to two more before them, which belong to the text. -/
def closingQuotes (quote : Char) : Reader (List Char) := fun s =>
  match (s.takeWhile (· == quote)).length with
  | 0 | 1 | 2 => none
  -- Up to five quotes in a row: the last three close the text.
  | n + 3 => some (List.replicate (min n 2) quote, s.drop (min n 2 + 3))

/-- Takes a text of several lines between tripled quotes, given the reader of a part of it. -/
def severalLines (quote : Char) (part : Reader (List Char)) : Reader (List Char) := do
  exactly [quote, quote, quote]
  let _ ← opt newline
  let parts ← many (part <|> innerQuotes quote)
  let last ← closingQuotes quote
  pure (parts.flatten ++ last)

/-- Takes the end of a line as a part of a text. -/
def lineBreak : Reader (List Char) := do
  newline
  pure ['\n']

/-- Takes a backslash at the end of a line with all blanks and line ends that follow. -/
def continuation : Reader (List Char) := do
  exactly ['\\']
  spaces
  newline
  let space : Reader Unit := do let _ ← run1 isSpace
  let _ ← many (space <|> newline)
  pure []

/-- Takes a text of several lines between tripled double quotes. -/
def longBasicText : Reader (List Char) :=
  let plain : Reader (List Char) := run1 fun c => isPlain c && c != '"' && c != '\\'
  let escaped : Reader (List Char) := do pure [← escape]
  severalLines '"' (plain <|> continuation <|> escaped <|> lineBreak)

/-- Takes a text of several lines between tripled single quotes. -/
def longLiteralText : Reader (List Char) :=
  severalLines '\'' ((run1 fun c => isPlain c && c != '\'') <|> lineBreak)

/-- Takes a quoted text. -/
def quoted : Reader (List Char) :=
  longBasicText <|> basicText <|> longLiteralText <|> literalText

end LedgerRules.Toml
