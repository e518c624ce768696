import LedgerRules.Text.Lowercase
import LedgerRules.Text.Occurrence

/-!
# Lowercase of a part and of the whole

All characters but one are mapped to lowercase whatever stands around them. The capital sigma is
the exception, so that the lowercase of a part of a text need not be a part of the lowercase of the
text. Here it is said for which parts it is, whatever the text.

## Overview

- **Layer A**: what a character sees of its surroundings.
- **Layer B**: the lowercase of a part in its place; a text is put together from such parts.
- **Layer C**: sigmas whose form depends on what stands around the part.
-/

namespace LedgerRules.Text

/-! ## Layer A: surroundings -/

/-- Whether casing looks through all of some characters. -/
def lookedThrough (cs : List Char) : Bool := cs.all (inRuns caseIgnorableRuns)

theorem facesLetter_cons_of_ignorable {c : Char} (hc : inRuns caseIgnorableRuns c = true)
    (cs : List Char) : facesLetter (c :: cs) = facesLetter cs := by
  simp [facesLetter, hc]

/-- Any other character decides by itself whether a letter is faced. -/
theorem facesLetter_cons_of_not_ignorable {c : Char} (hc : inRuns caseIgnorableRuns c = false)
    (cs : List Char) : facesLetter (c :: cs) = inRuns casedRuns c := by
  simp [facesLetter, hc]

/-- What is farther away counts only if all that is nearer is looked through. -/
theorem facesLetter_append (near far : List Char) :
    facesLetter (near ++ far) =
      if lookedThrough near then facesLetter far else facesLetter near := by
  induction near with
  | nil => rfl
  | cons c near ih =>
    cases hc : inRuns caseIgnorableRuns c with
    | true =>
      have hall : lookedThrough (c :: near) = lookedThrough near := by simp [lookedThrough, hc]
      rw [List.cons_append, facesLetter_cons_of_ignorable hc, facesLetter_cons_of_ignorable hc, ih,
        hall]
    | false =>
      have hall : lookedThrough (c :: near) = false := by simp [lookedThrough, hc]
      rw [List.cons_append, facesLetter_cons_of_not_ignorable hc,
        facesLetter_cons_of_not_ignorable hc, hall]
      rfl

/-- Where all characters are looked through no letter is faced. -/
theorem facesLetter_of_lookedThrough {cs : List Char} (h : lookedThrough cs = true) :
    facesLetter cs = false := by
  have hnothing := facesLetter_append cs []
  rw [List.append_nil, if_pos h] at hnothing
  exact hnothing

/-- A capital sigma is a letter itself. -/
theorem facesLetter_sigma (cs : List Char) : facesLetter ('Σ' :: cs) = true :=
  facesLetter_cons_of_not_ignorable (by decide +kernel) cs

/-- Nothing beyond a capital sigma is seen. -/
theorem facesLetter_append_sigma (near far far' : List Char) :
    facesLetter (near ++ 'Σ' :: far) = facesLetter (near ++ 'Σ' :: far') := by
  rw [facesLetter_append, facesLetter_append, facesLetter_sigma, facesLetter_sigma]

theorem smallSigma_before_sigma (before near far far' : List Char) :
    smallSigma before (near ++ 'Σ' :: far) = smallSigma before (near ++ 'Σ' :: far') := by
  simp only [smallSigma, facesLetter_append_sigma near far far']

theorem smallSigma_after_sigma (near far far' after : List Char) :
    smallSigma (near ++ 'Σ' :: far) after = smallSigma (near ++ 'Σ' :: far') after := by
  simp only [smallSigma, facesLetter_append_sigma near far far']

theorem not_mem_of_lookedThrough {cs : List Char} (h : lookedThrough cs = true) : 'Σ' ∉ cs := by
  intro hmem
  have hignored : inRuns caseIgnorableRuns 'Σ' = true := List.all_eq_true.mp h 'Σ' hmem
  exact absurd hignored (by decide +kernel)

/-! ## Layer B: a part in its place -/

/-- The lowercase of a text that stands after the characters `before`, nearest first, and before
    the characters `after`. -/
def lowercaseBetween (before after : List Char) : List Char → List Char
  | [] => []
  | c :: s =>
    (if c = 'Σ' then [smallSigma before (s ++ after)] else smallForm c) ++
      lowercaseBetween (c :: before) after s

/-- Mapping a text on from what has been read is mapping it in its place before nothing. -/
theorem lowercaseAfter_eq (before s : List Char) :
    lowercaseAfter before s = lowercaseBetween before [] s := by
  induction s generalizing before with
  | nil => rfl
  | cons c s ih => rw [lowercaseAfter, lowercaseBetween, ih, List.append_nil]

/-- The lowercase of two texts in a place: each sees the other beside it. -/
theorem lowercaseBetween_append (before after s s' : List Char) :
    lowercaseBetween before after (s ++ s') =
      lowercaseBetween before (s' ++ after) s ++
        lowercaseBetween (s.reverse ++ before) after s' := by
  induction s generalizing before with
  | nil => rfl
  | cons c s ih =>
    rw [List.cons_append, lowercaseBetween, lowercaseBetween, ih]
    simp

/-- A text in its place, seen at one of its capital sigmas. -/
theorem lowercaseBetween_sigma (before after b a : List Char) :
    lowercaseBetween before after (b ++ 'Σ' :: a) =
      lowercaseBetween before ('Σ' :: a ++ after) b ++
        smallSigma (b.reverse ++ before) (a ++ after) ::
          lowercaseBetween ('Σ' :: (b.reverse ++ before)) after a := by
  rw [lowercaseBetween_append, lowercaseBetween, if_pos rfl]
  rfl

/-- The lowercase of a text is that of its parts in their places. -/
theorem lowercase_append (p v s : List Char) :
    lowercase (p ++ v ++ s) =
      lowercaseBetween [] (v ++ s) p ++ lowercaseBetween p.reverse s v ++
        lowercaseBetween (v.reverse ++ p.reverse) [] s := by
  rw [lowercase, lowercaseAfter_eq, lowercaseBetween_append, lowercaseBetween_append]
  simp

/-- Two places do the same to a text if they do the same to its capital sigmas. -/
theorem lowercaseBetween_congr {before before' after after' s : List Char}
    (h : ∀ b a, s = b ++ 'Σ' :: a →
      smallSigma (b.reverse ++ before) (a ++ after) =
        smallSigma (b.reverse ++ before') (a ++ after')) :
    lowercaseBetween before after s = lowercaseBetween before' after' s := by
  induction s generalizing before before' with
  | nil => rfl
  | cons c s ih =>
    have hrest : lowercaseBetween (c :: before) after s =
        lowercaseBetween (c :: before') after' s := by
      refine ih fun b a hs => ?_
      have hsigma := h (c :: b) a (by rw [hs, List.cons_append])
      simpa using hsigma
    rw [lowercaseBetween, lowercaseBetween, hrest]
    by_cases hc : c = 'Σ'
    · have hsigma := h [] s (by rw [hc, List.nil_append])
      rw [List.reverse_nil, List.nil_append, List.nil_append] at hsigma
      rw [hsigma]
    · rw [if_neg hc, if_neg hc]

/-- Without a capital sigma the place of a text does not matter. -/
theorem lowercaseBetween_of_not_mem {s : List Char} (h : 'Σ' ∉ s)
    (before before' after after' : List Char) :
    lowercaseBetween before after s = lowercaseBetween before' after' s :=
  lowercaseBetween_congr fun b a hs => absurd (hs ▸ by simp) h

/-! ## Layer C: open sigmas -/

/-- A capital sigma of a text is open if its small form depends on what stands around the text:
    it ends a word as far as the text shows but nothing after it says that the word is over, or
    nothing before it says whether a word has begun and no letter follows it. -/
def OpenSigma (v : List Char) : Prop :=
  ∃ b a, v = b ++ 'Σ' :: a ∧
    (facesLetter b.reverse = true ∧ lookedThrough a = true ∨
      lookedThrough b = true ∧ facesLetter a = false)

/-- Whether all characters are looked through does not depend on their order. -/
theorem lookedThrough_reverse (cs : List Char) : lookedThrough cs.reverse = lookedThrough cs := by
  simp [lookedThrough]

/-- Where no sigma is open, a text has its own lowercase in every place. -/
theorem lowercaseBetween_of_not_openSigma {v : List Char} (h : ¬ OpenSigma v)
    (before after : List Char) : lowercaseBetween before after v = lowercase v := by
  rw [lowercase, lowercaseAfter_eq]
  refine lowercaseBetween_congr fun b a hv => ?_
  have hclosed : ¬ (facesLetter b.reverse = true ∧ lookedThrough a = true ∨
      lookedThrough b = true ∧ facesLetter a = false) := fun hopen => h ⟨b, a, hv, hopen⟩
  unfold smallSigma
  rw [facesLetter_append, facesLetter_append, lookedThrough_reverse, List.append_nil,
    List.append_nil]
  -- A side that is looked through leaves the decision to the other side of the sigma.
  cases hb : lookedThrough b <;> cases ha : lookedThrough a
  · rfl
  · have hnone : facesLetter b.reverse = false := by simpa [ha, hb] using hclosed
    simp [hnone]
  · have hsome : facesLetter a = true := by simpa [ha, hb] using hclosed
    simp [hsome]
  · have hnone := facesLetter_of_lookedThrough ha
    exact absurd (.inr ⟨hb, hnone⟩) hclosed

/-- A part without open sigmas keeps its lowercase in every text. -/
theorem lowercase_infix_of_not_openSigma {v : List Char} (h : ¬ OpenSigma v) (p s : List Char) :
    lowercase v <:+: lowercase (p ++ v ++ s) := by
  -- The text falls into what is before the part, the part and what is after it.
  rw [lowercase_append, lowercaseBetween_of_not_openSigma h]
  exact List.infix_append _ _ _

/-- A text that holds a character more often is no part. -/
theorem not_infix_of_count_lt {s t : List Char} {c : Char} (h : t.count c < s.count c) :
    ¬ s <:+: t :=
  fun hpart => Nat.not_le.mpr h (hpart.sublist.count_le c)

/-- A place that changes one sigma of a text and nothing else lacks that sigma. -/
theorem count_lt_of_sigma {before after b a : List Char} {form : Char}
    (halone : smallSigma b.reverse a = form)
    (hplaced : smallSigma (b.reverse ++ before) (a ++ after) ≠ form)
    (hb : lowercaseBetween before ('Σ' :: a ++ after) b = lowercaseBetween [] ('Σ' :: a) b)
    (ha : lowercaseBetween ('Σ' :: (b.reverse ++ before)) after a =
      lowercaseBetween ('Σ' :: b.reverse) [] a) :
    (lowercaseBetween before after (b ++ 'Σ' :: a)).count form <
      (lowercase (b ++ 'Σ' :: a)).count form := by
  have hwhole : lowercase (b ++ 'Σ' :: a) =
      lowercaseBetween [] ('Σ' :: a) b ++ form :: lowercaseBetween ('Σ' :: b.reverse) [] a := by
    rw [lowercase, lowercaseAfter_eq, lowercaseBetween_sigma]
    simp [halone]
  rw [lowercaseBetween_sigma, hwhole, hb, ha, List.count_append, List.count_append,
    List.count_cons_of_ne hplaced, List.count_cons_self]
  omega

/-- The letter that is put beside an open sigma. -/
theorem facesLetter_letter : facesLetter ['a'] = true := by decide +kernel

/-- A sigma at the end of a word is no longer there once a letter follows. -/
theorem not_infix_before_letter {b a : List Char} (hb : facesLetter b.reverse = true)
    (ha : lookedThrough a = true) :
    ¬ lowercase (b ++ 'Σ' :: a) <:+: lowercase (b ++ 'Σ' :: a ++ ['a']) := by
  have halone : smallSigma b.reverse a = 'ς' := by
    simp [smallSigma, hb, facesLetter_of_lookedThrough ha]
  have hplaced : smallSigma (b.reverse ++ []) (a ++ ['a']) ≠ 'ς' := by
    simp [smallSigma, facesLetter_append, ha, facesLetter_letter]
  -- Earlier sigmas see this one, and there are no later ones.
  have hcount := count_lt_of_sigma halone hplaced
    (lowercaseBetween_congr fun b' a' _ => smallSigma_before_sigma _ a' _ _)
    (lowercaseBetween_of_not_mem (not_mem_of_lookedThrough ha) _ _ _ _)
  have hplace : lowercase (b ++ 'Σ' :: a ++ ['a']) =
      lowercaseBetween [] ['a'] (b ++ 'Σ' :: a) ++ ['a'] := by
    rw [lowercase, lowercaseAfter_eq, lowercaseBetween_append]
    rfl
  refine not_infix_of_count_lt (Nat.lt_of_le_of_lt ?_ hcount)
  rw [hplace, List.count_append]
  exact Nat.le_refl _

/-- A sigma at the beginning of a word is no longer there once a letter precedes and none
    follows. -/
theorem not_infix_after_letter {b a : List Char} (hb : lookedThrough b = true)
    (ha : facesLetter a = false) :
    ¬ lowercase (b ++ 'Σ' :: a) <:+: lowercase ('a' :: (b ++ 'Σ' :: a)) := by
  rw [← lookedThrough_reverse] at hb
  have halone : smallSigma b.reverse a = 'σ' := by
    simp [smallSigma, facesLetter_of_lookedThrough hb]
  have hplaced : smallSigma (b.reverse ++ ['a']) (a ++ []) ≠ 'σ' := by
    simp [smallSigma, facesLetter_append, hb, ha, facesLetter_letter]
  -- There are no earlier sigmas, and later ones see this one.
  have hcount := count_lt_of_sigma halone hplaced
    (lowercaseBetween_of_not_mem (not_mem_of_lookedThrough (lookedThrough_reverse b ▸ hb)) _ _ _ _)
    (lowercaseBetween_congr fun b' a' _ => smallSigma_after_sigma b'.reverse _ _ _)
  have hplace : lowercase ('a' :: (b ++ 'Σ' :: a)) =
      ['a'] ++ lowercaseBetween ['a'] [] (b ++ 'Σ' :: a) := by
    rw [lowercase, lowercaseAfter_eq, lowercaseBetween]
    rfl
  refine not_infix_of_count_lt (Nat.lt_of_le_of_lt ?_ hcount)
  rw [hplace, List.count_append]
  exact Nat.le_of_eq (Nat.zero_add _)

/-- **A part keeps its lowercase in every text exactly if none of its sigmas is open.** -/
theorem lowercase_infix_iff (v : List Char) :
    (∀ p s, lowercase v <:+: lowercase (p ++ v ++ s)) ↔ ¬ OpenSigma v := by
  constructor
  -- The letter is put where the open sigma would see it: after the part or before it.
  · rintro h ⟨b, a, rfl, ⟨hb, ha⟩ | ⟨hb, ha⟩⟩
    · exact not_infix_before_letter hb ha (h [] ['a'])
    · have hpart := h ['a'] []
      rw [List.append_nil, List.singleton_append] at hpart
      exact not_infix_after_letter hb ha hpart
  · exact fun h p s => lowercase_infix_of_not_openSigma h p s

end LedgerRules.Text
