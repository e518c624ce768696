/-!
# Columns

Texts in tables are counted in characters: cut where they are too long, filled up with blanks
where they are too short.
-/

namespace LedgerRules.Text

/-- A text of at most so many characters. A text that is cut ends in three dots, which count. -/
def cut (most : Nat) (s : String) : String :=
  if s.length ≤ most then s
  else String.ofList (s.toList.take (most - 3) ++ ['.', '.', '.'])

/-- A text with blanks in front of it up to a width. -/
def flushRight (width : Nat) (s : String) : String :=
  String.ofList (List.replicate (width - s.length) ' ' ++ s.toList)

/-- A text with blanks behind it up to a width. -/
def flushLeft (width : Nat) (s : String) : String :=
  String.ofList (s.toList ++ List.replicate (width - s.length) ' ')

end LedgerRules.Text
