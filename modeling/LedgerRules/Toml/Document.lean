import LedgerRules.Toml.Value
/-!
# Whole documents

A document begins with assignments to its outermost table; each header starts a section with
assignments to a table of its own. `parse?` reads a document and builds its outermost table.
-/

namespace LedgerRules.Toml

open Reader

/-- The header of a section. -/
structure Header where
  /-- Whether the section adds to a list of tables. -/
  element : Bool
  /-- The parts of its key. -/
  key : List String

/-- A header with the assignments that follow it. -/
structure Section where
  /-- The header. -/
  header : Header
  /-- The assignments. -/
  pairs : List (List String × Node)

/-- Takes lines without content and the blanks before the next content. -/
def emptyLines : Reader Unit := do
  spaces
  let emptyLine : Reader Unit := do
    newline <|> do
      comment
      lineEnd
    spaces
  let _ ← many emptyLine

/-- Takes assignments, one a line. -/
def assignments : Reader (List (List String × Node)) := do
  emptyLines
  many do
    let pair ← assignment value
    lineRest
    emptyLines
    pure pair

/-- Takes a header with its line. -/
def header : Reader Header := do
  let element : Reader Header := do
    exactly ['[', '[']
    let key ← key
    exactly [']', ']']
    pure ⟨true, key⟩
  let single : Reader Header := do
    exactly ['[']
    let key ← key
    exactly [']']
    pure ⟨false, key⟩
  let header ← element <|> single
  lineRest
  pure header

/-- Takes a section. -/
def documentSection : Reader Section := do
  let header ← header
  let pairs ← assignments
  pure ⟨header, pairs⟩

/-- Takes a whole document. -/
def document : Reader (List (List String × Node) × List Section) := do
  let _ ← opt (exactly ['\uFEFF'])
  let pairs ← assignments
  let sections ← many documentSection
  atEnd
  pure (pairs, sections)

/-- Adds a section to the outermost table. -/
def Section.addTo (s : Section) (root : Entries) : Option Entries :=
  match s.header.key.getLast? with
  | none => none
  | some last =>
    let add := if s.header.element then Entries.addElement else Entries.addTable
    Entries.atPath root (add last s.pairs) s.header.key.dropLast

/-- Adds sections to the outermost table in order. -/
def addSections (root : Entries) : List Section → Option Entries
  | [] => some root
  | s :: sections => (s.addTo root).bind fun root => addSections root sections

/-- Reads a document. -/
def parse? (text : List Char) : Option Entries := do
  let ((pairs, sections), _) ← document text
  let root ← Entries.assignAll [] pairs
  addSections root sections

end LedgerRules.Toml
