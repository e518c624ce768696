import LedgerRules.Amount.Basic
/-!
# Documents of settings

The values of a TOML document. A table remembers how it came into being, because that decides
what may still be added to it. Dates and times are told apart from other values but not kept.
-/

namespace LedgerRules.Toml

/-- How a table came into being. -/
inductive Origin where
  /-- It has a header of its own. -/
  | header
  /-- It lies on the way to a header. -/
  | path
  /-- It lies on the way to a dotted key. -/
  | dotted
  /-- It is written between braces. -/
  | inline
deriving DecidableEq

/-- A value of a document. -/
inductive Node where
  /-- A text. -/
  | text (s : String)
  /-- A whole number. -/
  | whole (n : Int64)
  /-- A number with a fraction or an exponent, an infinity or a NaN. -/
  | real (x : Amount)
  /-- A truth value. -/
  | flag (b : Bool)
  /-- A date, a time or both. -/
  | moment
  /-- Values between brackets. -/
  | list (items : List Node)
  /-- Values under keys. -/
  | table (origin : Origin) (entries : List (String × Node))
  /-- Tables whose headers stand between double brackets. -/
  | tables (elements : List (List (String × Node)))

/-- The values of a table under their keys; a key has at most one. -/
abbrev Entries := List (String × Node)

namespace Entries

/-- The value under a key. -/
def find (entries : Entries) (key : String) : Option Node := entries.lookup key

/-- Puts a value under a key in place of an earlier one. -/
def put (entries : Entries) (key : String) (value : Node) : Entries :=
  (key, value) :: entries.filter fun e => e.1 != key

end Entries

end LedgerRules.Toml
