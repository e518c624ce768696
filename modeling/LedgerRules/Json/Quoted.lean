import LedgerRules.Json.Reader
/-!
# Quoted texts in JSON

A text stands between double quotes. Quotes, backslashes and control characters are escaped; a
reader also accepts escapes for all other characters, those beyond the first 65536 as a pair of
surrogates.
-/

namespace LedgerRules.Json

open Reader

/-! ## Writing -/

/-- A hexadecimal digit. -/
def hexDigit (n : Nat) : Char := Nat.digitChar (n % 16)

/-- A character as it stands between quotes. -/
def escaped (c : Char) : List Char :=
  if c = '"' then ['\\', '"']
  else if c = '\\' then ['\\', '\\']
  else if c = '\x08' then ['\\', 'b']
  else if c = '\x0c' then ['\\', 'f']
  else if c = '\n' then ['\\', 'n']
  else if c = '\r' then ['\\', 'r']
  else if c = '\t' then ['\\', 't']
  else if c.toNat < 0x20 then
    ['\\', 'u', '0', '0', hexDigit (c.toNat / 16), hexDigit c.toNat]
  else [c]

/-- A text between quotes. -/
def quote (s : String) : List Char := '"' :: s.toList.flatMap escaped ++ ['"']

/-! ## Reading -/

/-- The value of a hexadecimal digit. -/
def hexValue? (c : Char) : Option Nat :=
  if c.isDigit then some (c.toNat - '0'.toNat)
  else if 'a' ≤ c ∧ c ≤ 'f' then some (c.toNat - 'a'.toNat + 10)
  else if 'A' ≤ c ∧ c ≤ 'F' then some (c.toNat - 'A'.toNat + 10)
  else none

/-- Takes a number of four hexadecimal digits. The text must have four more bytes. -/
def fourHexDigits : Reader Nat := fun s =>
  match s with
  | a :: b :: c :: d :: rest =>
    match hexValue? a, hexValue? b, hexValue? c, hexValue? d with
    | some a, some b, some c, some d => .ok (((a * 16 + b) * 16 + c) * 16 + d, rest)
    | _, _, _, _ => .error .malformed
  | few =>
    if (String.ofList few).utf8ByteSize < 4 then .error .unfinished else .error .malformed

/-- The character of a code point that is no surrogate. -/
def character (n : Nat) : Reader Char :=
  if h : n.isValidChar then pure (Char.ofNatAux n h) else throw .malformed

/-- Takes the rest of a numeric escape. Surrogates must come in pairs; where the text is not kept
they need not. -/
def numericEscape (kept : Bool) : Reader Char := do
  let high ← fourHexDigits
  if !kept then pure '\uFFFD'
  else if high < 0xD800 || 0xDFFF < high then character high
  else if 0xDBFF < high then throw .malformed
  else
    expectRest ['\\', 'u']
    let low ← fourHexDigits
    if 0xDC00 ≤ low && low ≤ 0xDFFF then
      character ((high - 0xD800) * 1024 + (low - 0xDC00) + 0x10000)
    else throw .malformed

/-- Takes the rest of an escape. -/
def escapeRest (kept : Bool) : Reader Char := do
  match ← take with
  | '"' => pure '"'
  | '\\' => pure '\\'
  | '/' => pure '/'
  | 'b' => pure '\x08'
  | 'f' => pure '\x0c'
  | 'n' => pure '\n'
  | 'r' => pure '\r'
  | 't' => pure '\t'
  | 'u' => numericEscape kept
  | _ => throw .malformed

/-- Takes the rest of a text up to its closing quote, at most so many characters. -/
def textRest (kept : Bool) : Nat → Reader (List Char)
  | 0 => throw .unfinished
  | most + 1 => do
    match ← take with
    | '"' => pure []
    | '\\' =>
      let c ← escapeRest kept
      pure (c :: (← textRest kept most))
    | c =>
      if c.toNat < 0x20 then throw .malformed
      else pure (c :: (← textRest kept most))

/-- Takes a text whose opening quote comes next. -/
def text (kept : Bool) : Reader String := do
  let _ ← take
  let cs ← fun s => textRest kept (s.length + 1) s
  pure (String.ofList cs)

end LedgerRules.Json
