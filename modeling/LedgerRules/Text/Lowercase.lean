import LedgerRules.Text.Runs
import LedgerRules.Text.Property.Cased
import LedgerRules.Text.Property.CaseIgnorable
import LedgerRules.Text.Property.LowercaseMapping
/-!
# Lowercase

The full lowercase of a text. One character looks at its surroundings: the capital sigma becomes
the final form at the end of a word and the common form elsewhere. All others are mapped one by
one, `İ` to two characters.
-/

namespace LedgerRules.Text

/-- The lowercase of a character on its own. -/
def smallForm (c : Char) : List Char :=
  -- The common case comes first: the table below holds no ASCII letters.
  if c.toNat < 0x80 then [c.toLower]
  else if c = 'İ' then ['i', '\u0307']
  else
    match capitalRuns.find? fun run => run.covers c.toNat with
    | some run => [run.small c.toNat]
    | none => [c]

/-- Whether the characters beyond a place, nearest first, show a cased letter once those that
casing ignores are looked through. -/
def facesLetter (beyond : List Char) : Bool :=
  match beyond.dropWhile (inRuns caseIgnorableRuns) with
  | c :: _ => inRuns casedRuns c
  | [] => false

/-- The small sigma for a capital one: the final form after a letter and before none. -/
def smallSigma (before after : List Char) : Char :=
  if facesLetter before && !facesLetter after then 'ς' else 'σ'

/-- The lowercase of a text that stands after the characters `before`, nearest first. -/
def lowercaseAfter (before : List Char) : List Char → List Char
  | [] => []
  | c :: s =>
    (if c = 'Σ' then [smallSigma before s] else smallForm c) ++ lowercaseAfter (c :: before) s

/-- The lowercase of a text. -/
def lowercase (s : List Char) : List Char := lowercaseAfter [] s

end LedgerRules.Text
