import LedgerRules.Text.Lowercase
/-!
# Words

The closed vocabularies of rules. Each of their values has one written word; a reader of requests
accepts the words in any case of letters, and some further names for them.
-/

namespace LedgerRules

/-- A closed set of values with their words. -/
class Vocabulary (α : Type) where
  /-- What the values are called in messages. -/
  title : String
  /-- All values. -/
  values : List α
  /-- The word for a value. -/
  word : α → String
  /-- Further names that a reader accepts. -/
  aliases : List (String × α)

/-- A text that is no word of a vocabulary. -/
structure UnknownWord where
  /-- What the vocabulary's values are called. -/
  title : String
  /-- The text as it was given. -/
  text : String
deriving DecidableEq

/-- The wording of the complaint. -/
def UnknownWord.message (u : UnknownWord) : String := s!"Unknown {u.title}: {u.text}"

namespace Vocabulary

variable {α : Type} [Vocabulary α]

/-- The value whose word is exactly the text. -/
def ofWord? (text : String) : Option α := (values (α := α)).find? fun v => word v = text

/-- The value that a text names in any case of letters. -/
def parse (text : String) : Except UnknownWord α :=
  let small := String.ofList (Text.lowercase text.toList)
  match ofWord? small <|> aliases.lookup small with
  | some v => .ok v
  | none => .error ⟨title α, text⟩

end Vocabulary

end LedgerRules
