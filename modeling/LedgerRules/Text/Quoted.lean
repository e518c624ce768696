import LedgerRules.Text.Property.GraphemeExtend
import LedgerRules.Text.Property.Unprintable
import LedgerRules.Text.Runs
/-!
# Quoted texts

A text is shown between double quotes, so that its blanks can be told from those around it. Marks
that would merge with what stands before them, and characters without a printed form, are shown by
their code points.
-/

namespace LedgerRules.Text

/-- A character by its code point. -/
def codePoint (c : Char) : List Char :=
  '\\' :: 'u' :: '\x7b' :: Nat.toDigits 16 c.toNat ++ ['\x7d']

/-- A character as it is shown between quotes. -/
def shown (c : Char) : List Char :=
  if c = '\x00' then ['\\', '0']
  else if c = '\t' then ['\\', 't']
  else if c = '\r' then ['\\', 'r']
  else if c = '\n' then ['\\', 'n']
  else if c = '\\' then ['\\', '\\']
  else if c = '"' then ['\\', '"']
  else if inRuns graphemeExtendRuns c || inRuns unprintableRuns c then codePoint c
  else [c]

/-- A text between quotes. -/
def quoted (s : String) : String := String.ofList ('"' :: s.toList.flatMap shown ++ ['"'])

end LedgerRules.Text
