import LedgerRules.Ident
import LedgerRules.Json.Printer
import LedgerRules.Json.Shape
import LedgerRules.Rules.Word
/-!
# JSON forms of types

A type with a JSON form can be written to a text and read back: `encode` says what its values are
as data, `shape` which data are expected in a text, and `decode` goes back. Of the data that have
the shape, `decode` accepts all.
-/

namespace LedgerRules

/-- A type whose values can be written as JSON. -/
class Form (α : Type) where
  /-- The shape of a value in a text. -/
  shape : Json.Shape
  /-- A value as a datum. -/
  encode : α → Datum
  /-- The value of a datum. -/
  decode : Datum → Option α

namespace Json

variable {α : Type}

/-- A value as JSON. -/
def print [Form α] (layout : Layout) (a : α) : String := write layout (Form.encode a)

/-- Reads a value from a text. -/
def parse (α : Type) [Form α] (s : String) : Except Problem α :=
  match readWhole (Form.shape α) s with
  | .error problem => .error problem
  | .ok d =>
    match Form.decode d with
    | some a => .ok a
    | none => .error .mismatch

/-! ## Parts of records -/

/-- A member of a record that holds a value of a type. -/
def field (α : Type) [Form α] (name : String) : Field := ⟨name, false, Form.shape α⟩

/-- A member of a record that may be missing. -/
def optionalField (α : Type) [Form α] (name : String) : Field :=
  ⟨name, true, orNull (Form.shape α)⟩

/-- A value that may be missing as a datum. -/
def encodeOption [Form α] : Option α → Datum
  | none => .null
  | some a => Form.encode a

/-- The value of a datum that may be missing. -/
def decodeOption [Form α] : Datum → Option (Option α)
  | .null => some none
  | d => (Form.decode d).map some

/-- The values of a datum that is a list. -/
def decodeList [Form α] : Datum → Option (List α)
  | .list items => items.mapM Form.decode
  | _ => none

instance instFormOption [Form α] : Form (Option α) where
  shape := orNull (Form.shape α)
  encode := encodeOption
  decode := decodeOption

instance instFormList [Form α] : Form (List α) where
  shape := listOf (Form.shape α)
  encode as := .list (as.map Form.encode)
  decode := decodeList

/-! ## Values without parts -/

instance : Form String where
  shape := single .text
  encode := .text
  decode
    | .text s => some s
    | _ => none

instance : Form Bool where
  shape := single .flag
  encode := .flag
  decode
    | .flag b => some b
    | _ => none

instance : Form Ident where
  shape := single (.whole (-0x8000000000000000) 0x7FFFFFFFFFFFFFFF)
  encode i := .whole i.toInt
  decode
    | .whole z => Ident.ofInt? z
    | _ => none

/-- The word with a given value, if it fits. -/
def wordOfInt? (z : Int) : Option UInt64 :=
  if 0 ≤ z ∧ z < 0x10000000000000000 then some (UInt64.ofNat z.toNat) else none

instance : Form UInt64 where
  shape := single (.whole 0 0xFFFFFFFFFFFFFFFF)
  encode n := .whole n.toNat
  decode
    | .whole z => wordOfInt? z
    | _ => none

instance : Form Amount where
  shape := single .real
  encode := .real
  decode
    | .real x => some x
    | _ => none

instance : Form Instant where
  shape := single .moment
  encode := .moment
  decode
    | .moment t => some t
    | _ => none

/-- The words of a vocabulary. -/
def wordsOf (α : Type) [Vocabulary α] : List String :=
  (Vocabulary.values (α := α)).map Vocabulary.word

instance instFormVocabulary [Vocabulary α] : Form α where
  shape := single (.word (wordsOf α))
  encode a := .text (Vocabulary.word a)
  decode
    | .text s => Vocabulary.ofWord? s
    | _ => none

end Json

end LedgerRules
