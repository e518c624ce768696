import LedgerRules.Proofs.Text.Lowercase
import LedgerRules.Rules.Engine

/-!
# Literals that occur in a text

A condition on the name or the description can ask whether its literal occurs there, the case of
letters aside. Text and literal are put into lowercase one apart from the other, so a literal that
stands in the text as it is can still be missed. The literals that are never missed are exactly
those without an open sigma.
-/

namespace LedgerRules

theorem Comparison.holdsOfText_contains_iff {text literal : String} :
    Comparison.contains.holdsOfText text literal = true ↔
      Text.lowercase literal.toList <:+: Text.lowercase text.toList :=
  Text.occursIn_iff

/-- A literal is found wherever it stands exactly if none of its sigmas is open. -/
theorem Comparison.contains_iff_not_openSigma (literal : String) :
    (∀ p q : String, Comparison.contains.holdsOfText (p ++ literal ++ q) literal = true) ↔
      ¬ Text.OpenSigma literal.toList := by
  rw [← Text.lowercase_infix_iff]
  constructor
  · intro h p q
    have hfound := holdsOfText_contains_iff.mp (h (String.ofList p) (String.ofList q))
    simpa using hfound
  · intro h p q
    have hfound := h p.toList q.toList
    exact holdsOfText_contains_iff.mpr (by simpa using hfound)

/-- A transaction with a given name and description and nothing else of note. -/
def Transaction.named (name : String) (description : Option String) : Transaction :=
  { id := 1, user := 1, account := 1, name, description, amount := Amount.zero,
    date := default, categories := [], createdAt := default }

/-- **A condition that asks for its literal finds it wherever it stands in the name, or in the
    description, exactly if none of the literal's sigmas is open.** That is so for every literal
    without a capital sigma. -/
theorem contains_finds_literal_iff (s : Snapshot) (id rule : Ident) (literal : String) :
    ((∀ (t : Transaction) (p q : String), t.name = p ++ literal ++ q →
        Condition.holds s t ⟨id, rule, .name, .contains, literal⟩ = true) ↔
      ¬ Text.OpenSigma literal.toList) ∧
    ((∀ (t : Transaction) (p q : String), t.description = some (p ++ literal ++ q) →
        Condition.holds s t ⟨id, rule, .description, .contains, literal⟩ = true) ↔
      ¬ Text.OpenSigma literal.toList) := by
  rw [← Comparison.contains_iff_not_openSigma]
  constructor
  · constructor
    -- A transaction that has the text as its name and nothing else is one of those that are meant.
    · exact fun h p q => h (.named (p ++ literal ++ q) none) p q rfl
    · intro h t p q hname
      have hfound := h p q
      rw [← hname] at hfound
      exact hfound
  · constructor
    · exact fun h p q => h (.named "" (some (p ++ literal ++ q))) p q rfl
    · intro h t p q hdescription
      have htext : t.descriptionText = p ++ literal ++ q := by
        rw [Transaction.descriptionText, hdescription, Option.getD_some]
      have hfound := h p q
      rw [← htext] at hfound
      exact hfound

/-- The end of a word is not found in a longer word that begins with it, because its sigma has
    another small form there. -/
theorem literal_missed_in_longer_word :
    (Transaction.named "ΚΟΣΜΟΣ" none).name = "" ++ "ΚΟΣ" ++ "ΜΟΣ" ∧
      Condition.holds ⟨[], []⟩ (.named "ΚΟΣΜΟΣ" none) ⟨1, 1, .name, .contains, "ΚΟΣ"⟩ = false := by
  decide +kernel

end LedgerRules
