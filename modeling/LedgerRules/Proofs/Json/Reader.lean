import LedgerRules.Json.Quoted
import Mathlib.Tactic.SplitIfs

/-!
# Reading part by part

What the readers of single marks and of texts give back in front of any rest. A text between quotes
is read back whatever characters it holds.

## Overview

- **Layer A**: one step after another.
- **Layer B**: spaces, marks, and the separation of elements.
- **Layer C**: texts.
-/

namespace LedgerRules.Json

namespace Reader

variable {α β : Type}

/-! ## Layer A: steps -/

/-- After a step that succeeds the next one goes on with what is left. -/
theorem bind_eq {x : Reader α} {a : α} {s s' : List Char} (h : x s = .ok (a, s'))
    (f : α → Reader β) : (x >>= f) s = f a s' := by
  show (x s >>= fun p => f p.1 p.2) = f a s'
  rw [h]
  rfl

@[simp] theorem pure_eq (a : α) (s : List Char) : (pure a : Reader α) s = .ok (a, s) := rfl

@[simp] theorem peek_cons (c : Char) (s : List Char) : peek (c :: s) = .ok (c, c :: s) := rfl

@[simp] theorem take_cons (c : Char) (s : List Char) : take (c :: s) = .ok (c, s) := rfl

@[simp] theorem peek?_eq (s : List Char) : peek? s = .ok (s.head?, s) := rfl

/-- A word is taken whole. -/
theorem expectRest_append (word s : List Char) : expectRest word (word ++ s) = .ok ((), s) := by
  induction word with
  | nil => rfl
  | cons c word ih =>
    rw [expectRest, List.cons_append, bind_eq (take_cons c _), if_pos rfl]
    exact ih

/-! ## Layer B: spaces and marks -/

/-- A text of spaces. -/
def IsGap (gap : List Char) : Prop := ∀ c ∈ gap, isSpace c = true

/-- Spaces are passed over up to the first other character. -/
theorem spaces_append {gap s : List Char} (hgap : IsGap gap)
    (hs : ∀ c, s.head? = some c → isSpace c = false) : spaces (gap ++ s) = .ok ((), s) := by
  have hrest : s.dropWhile isSpace = s := by
    cases s with
    | nil => rfl
    | cons c s => simp [hs c rfl]
  rw [spaces, List.dropWhile_append_of_pos hgap, hrest]

theorem spaces_gap_cons {gap : List Char} {c : Char} (hgap : IsGap gap) (hc : isSpace c = false)
    (s : List Char) : spaces (gap ++ c :: s) = .ok ((), c :: s) :=
  spaces_append hgap fun _ h => Option.some.inj h ▸ hc

/-- The part that comes after spaces is seen, and only the spaces are taken. -/
theorem peekPart_gap_cons {gap : List Char} {c : Char} (hgap : IsGap gap) (hc : isSpace c = false)
    (s : List Char) : peekPart (gap ++ c :: s) = .ok (c, c :: s) := by
  rw [peekPart, bind_eq (spaces_gap_cons hgap hc s), peek_cons]

theorem isGap_nil : IsGap [] := List.forall_mem_nil _

theorem spaces_cons {c : Char} (hc : isSpace c = false) (s : List Char) :
    spaces (c :: s) = .ok ((), c :: s) :=
  spaces_gap_cons isGap_nil hc s

theorem peekPart_cons {c : Char} (hc : isSpace c = false) (s : List Char) :
    peekPart (c :: s) = .ok (c, c :: s) :=
  peekPart_gap_cons isGap_nil hc s

theorem mark_cons {c : Char} (hc : isSpace c = false) (s : List Char) :
    mark c (c :: s) = .ok ((), s) := by
  rw [mark, bind_eq (spaces_cons hc s), bind_eq (take_cons c s), if_pos rfl, pure_eq]

/-- What stands before an element or a member: nothing before the first, a comma before a later
one. -/
def comma (first : Bool) : List Char := if first then [] else [',']

/-- The closing mark ends a list or record. -/
theorem another_close {close : Char} {gap : List Char} (hgap : IsGap gap)
    (hclose : isSpace close = false) (first : Bool) (s : List Char) :
    another first close (gap ++ close :: s) = .ok (false, s) := by
  rw [another, bind_eq (peekPart_gap_cons hgap hclose s), if_pos rfl, bind_eq (take_cons close s),
    pure_eq]

/-- Anything else goes on, after a comma if need be. -/
theorem another_cons {close c : Char} {gap : List Char} (hgap : IsGap gap)
    (hc : isSpace c = false) (hne : c ≠ close) (hcomma : ',' ≠ close) (first : Bool)
    (s : List Char) :
    another first close (comma first ++ gap ++ c :: s) = .ok (true, c :: s) := by
  cases first with
  | true =>
    rw [another, comma, if_pos rfl, List.nil_append, bind_eq (peekPart_gap_cons hgap hc s),
      if_neg hne, if_pos rfl, pure_eq]
  | false =>
    -- A later element comes after a comma, which is no space and does not close anything.
    have hpeek := peekPart_cons (show isSpace ',' = false from rfl) (gap ++ c :: s)
    rw [another, comma, if_neg Bool.false_ne_true, List.append_assoc, List.singleton_append,
      bind_eq hpeek, if_neg hcomma, if_neg Bool.false_ne_true, if_pos rfl,
      bind_eq (take_cons ',' _), bind_eq (peekPart_gap_cons hgap hc s), if_neg hne, pure_eq]

end Reader

/-! ## Layer C: texts -/

open Reader

/-- A digit to the base of sixteen is read as the value for which it was written. -/
theorem hexValue?_hexDigit {n : Nat} (h : n < 16) : hexValue? (hexDigit n) = some n := by
  -- There are sixteen of them.
  have hall : ∀ m : Fin 16, hexValue? (hexDigit m) = some m.val := by decide
  exact hall ⟨n, h⟩

theorem character_toNat (c : Char) (s : List Char) : character c.toNat s = .ok (c, s) := by
  have hvalid : c.toNat.isValidChar := c.valid
  rw [character, dif_pos hvalid, pure_eq]
  rfl

/-- The escape of a control character by its code point. -/
theorem escapeRest_control {c : Char} (hc : c.toNat < 0x20) (s : List Char) :
    escapeRest true ('u' :: '0' :: '0' :: hexDigit (c.toNat / 16) :: hexDigit c.toNat :: s) =
      .ok (c, s) := by
  have hhigh := hexValue?_hexDigit (show c.toNat / 16 < 16 by omega)
  have hlow : hexValue? (hexDigit c.toNat) = some (c.toNat % 16) := by
    have hdigit : hexDigit c.toNat = hexDigit (c.toNat % 16) := by simp [hexDigit]
    rw [hdigit, hexValue?_hexDigit (by omega)]
  have hzero : hexValue? '0' = some 0 := by decide
  have hvalue : ((0 * 16 + 0) * 16 + c.toNat / 16) * 16 + c.toNat % 16 = c.toNat := by omega
  have hfour : fourHexDigits ('0' :: '0' :: hexDigit (c.toNat / 16) :: hexDigit c.toNat :: s) =
      .ok (c.toNat, s) := by
    simp only [fourHexDigits, hzero, hhigh, hlow, hvalue]
  -- A control character is no surrogate, so its escape stands alone.
  have hplain : (c.toNat < 0xD800 || 0xDFFF < c.toNat) = true := by
    simp only [Bool.or_eq_true, decide_eq_true_eq]
    omega
  have hnumeric : numericEscape true
      ('0' :: '0' :: hexDigit (c.toNat / 16) :: hexDigit c.toNat :: s) = .ok (c, s) := by
    rw [numericEscape, bind_eq hfour]
    simp only [Bool.not_true, Bool.false_eq_true, if_false, hplain, if_true]
    exact character_toNat c s
  exact hnumeric

/-- One character more: an escape. -/
theorem textRest_escape {c e : Char} {cs s s' rest : List Char} {most : Nat}
    (hescape : escapeRest true (e :: s) = .ok (c, s'))
    (hrest : textRest true most s' = .ok (cs, rest)) :
    textRest true (most + 1) ('\\' :: e :: s) = .ok (c :: cs, rest) := by
  rw [textRest, bind_eq (take_cons '\\' _)]
  show (escapeRest true >>= _) (e :: s) = _
  rw [bind_eq hescape, bind_eq hrest, pure_eq]

/-- One character more: itself. -/
theorem textRest_cons {c : Char} {cs s rest : List Char} {most : Nat} (hquote : c ≠ '"')
    (hslash : c ≠ '\\') (hcontrol : ¬ c.toNat < 0x20)
    (hrest : textRest true most s = .ok (cs, rest)) :
    textRest true (most + 1) (c :: s) = .ok (c :: cs, rest) := by
  -- The other two cases are the quote and the backslash, which are written as escapes.
  rw [textRest, bind_eq (take_cons c s)]
  split
  · exact absurd rfl hquote
  · exact absurd rfl hslash
  · rw [if_neg hcontrol, bind_eq hrest, pure_eq]

/-- **A character is read back as it stands between quotes**, escaped or not. -/
theorem textRest_escaped (c : Char) {cs s rest : List Char} {most : Nat}
    (hrest : textRest true most s = .ok (cs, rest)) :
    textRest true (most + 1) (escaped c ++ s) = .ok (c :: cs, rest) := by
  -- The cases are the named escapes, the control characters without a name and all others.
  unfold escaped
  split_ifs with hquote hslash hback hform hline hreturn htab hcontrol
  · subst hquote
    exact textRest_escape rfl hrest
  · subst hslash
    exact textRest_escape rfl hrest
  · subst hback
    exact textRest_escape rfl hrest
  · subst hform
    exact textRest_escape rfl hrest
  · subst hline
    exact textRest_escape rfl hrest
  · subst hreturn
    exact textRest_escape rfl hrest
  · subst htab
    exact textRest_escape rfl hrest
  · exact textRest_escape (escapeRest_control hcontrol s) hrest
  · exact textRest_cons hquote hslash hcontrol hrest

theorem escaped_ne_nil (c : Char) : escaped c ≠ [] := by
  unfold escaped
  split_ifs <;> exact List.cons_ne_nil _ _

/-- The rest of a text is read back up to its closing quote. -/
theorem textRest_flatMap_escaped {cs : List Char} {most : Nat} (hmost : cs.length < most)
    (rest : List Char) :
    textRest true most (cs.flatMap escaped ++ '"' :: rest) = .ok (cs, rest) := by
  induction cs generalizing most with
  | nil =>
    obtain ⟨most, rfl⟩ := Nat.exists_eq_succ_of_ne_zero (Nat.ne_of_gt hmost)
    rw [List.flatMap_nil, List.nil_append, textRest, bind_eq (take_cons '"' rest)]
    rfl
  | cons c cs ih =>
    obtain ⟨most, rfl⟩ := Nat.exists_eq_succ_of_ne_zero (Nat.ne_of_gt (Nat.zero_lt_of_lt hmost))
    rw [List.flatMap_cons, List.append_assoc]
    exact textRest_escaped c (ih (Nat.lt_of_succ_lt_succ hmost))

theorem length_le_length_flatMap_escaped (cs : List Char) :
    cs.length ≤ (cs.flatMap escaped).length := by
  induction cs with
  | nil => exact Nat.le_refl _
  | cons c cs ih =>
    have hc := List.length_pos_iff.mpr (escaped_ne_nil c)
    rw [List.flatMap_cons, List.length_append, List.length_cons]
    omega

/-- **A text is read back from its quoted form.** -/
theorem text_quote (s : String) (rest : List Char) :
    text true (quote s ++ rest) = .ok (s, rest) := by
  have hlength := length_le_length_flatMap_escaped s.toList
  -- No character is written by nothing, so the text bounds the number of its characters.
  have hmost : s.toList.length < (s.toList.flatMap escaped ++ '"' :: rest).length + 1 := by
    rw [List.length_append]
    omega
  have hread := textRest_flatMap_escaped hmost rest
  have hquote : quote s ++ rest = '"' :: (s.toList.flatMap escaped ++ '"' :: rest) := by
    simp [quote]
  rw [hquote, text, bind_eq (take_cons '"' _)]
  refine (bind_eq hread fun cs => pure (String.ofList cs)).trans ?_
  rw [pure_eq, String.ofList_toList]

end LedgerRules.Json
