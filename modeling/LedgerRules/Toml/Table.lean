import LedgerRules.Toml.Node
/-!
# Building tables

A document is a sequence of assignments and headers. A table may be filled in several places only
as far as its origin allows:

* a dotted key adds to tables that dotted keys have made, and to no others;
* a header may come after headers of tables within its own, but only once;
* a header between double brackets adds one more table to a list of such tables.
-/

namespace LedgerRules.Toml

namespace Entries

/-- The last of several tables, and those before it. -/
def last? : List Entries → Option (List Entries × Entries)
  | [] => none
  | first :: rest =>
    match last? rest with
    | none => some ([], first)
    | some (before, last) => some (first :: before, last)

/-- Puts a value under a dotted key, given the parts of the key that lead to it. `within` tells
whether the table may take the value itself. -/
def assign (within : Bool) (entries : Entries) (key : String) (value : Node) :
    List String → Option Entries
  | [] => if within && (find entries key).isNone then some (put entries key value) else none
  | part :: parts =>
    match find entries part with
    | none => (assign true [] key value parts).map fun inner =>
        put entries part (.table .dotted inner)
    | some (.table .dotted inner) => (assign true inner key value parts).map fun inner =>
        put entries part (.table .dotted inner)
    | some (.table .path inner) => (assign false inner key value parts).map fun inner =>
        put entries part (.table .path inner)
    | some (.tables elements) =>
      (last? elements).bind fun (before, last) =>
        (assign false last key value parts).map fun inner =>
          put entries part (.tables (before ++ [inner]))
    | some _ => none

/-- Puts a value under a key of one or more parts. -/
def assignKey (entries : Entries) (key : List String) (value : Node) : Option Entries :=
  match key.getLast? with
  | none => none
  | some last => assign true entries last value key.dropLast

/-- Puts values under keys in order. -/
def assignAll (entries : Entries) : List (List String × Node) → Option Entries
  | [] => some entries
  | (key, value) :: pairs => (assignKey entries key value).bind fun entries =>
      assignAll entries pairs

/-- Changes the table to which the parts of a header lead, and makes those on the way that are
missing. -/
def atPath (entries : Entries) (change : Entries → Option Entries) :
    List String → Option Entries
  | [] => change entries
  | part :: parts =>
    match find entries part with
    | none => (atPath [] change parts).map fun inner => put entries part (.table .path inner)
    | some (.table .inline _) => none
    | some (.table origin inner) => (atPath inner change parts).map fun inner =>
        put entries part (.table origin inner)
    | some (.tables elements) =>
      (last? elements).bind fun (before, last) =>
        (atPath last change parts).map fun inner =>
          put entries part (.tables (before ++ [inner]))
    | some _ => none

/-- Adds the table of a header under its last part. -/
def addTable (key : String) (pairs : List (List String × Node)) (entries : Entries) :
    Option Entries :=
  let fill (start : Entries) : Option Entries :=
    (assignAll start pairs).map fun inner => put entries key (.table .header inner)
  match find entries key with
  | none => fill []
  | some (.table .path inner) => fill inner
  | some _ => none

/-- Adds the table of a header between double brackets under its last part. -/
def addElement (key : String) (pairs : List (List String × Node)) (entries : Entries) :
    Option Entries :=
  let fill (elements : List Entries) : Option Entries :=
    (assignAll [] pairs).map fun inner => put entries key (.tables (elements ++ [inner]))
  match find entries key with
  | none => fill []
  | some (.tables elements) => fill elements
  | some _ => none

end Entries

end LedgerRules.Toml
