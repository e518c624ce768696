import LedgerRules.Proofs.Run.Operations
import LedgerRules.Proofs.Run.Report
import LedgerRules.Proofs.Run.Undisturbed

/-!
# Changesets that come late

A changeset is staged on what a transaction was when it was read, and by the time it is written the
row may be another: its categories, its name, its description and its link may have been changed by
hand. Writing the changeset does not undo that. It merges what is staged with what is there, writes
only what is still missing, and nothing the second time.

## Overview

- **Layer A**: the merged row, and rows that say the same.
- **Layer B**: what is written of a late changeset, and the row after it.
- **Layer C**: how writing a changeset goes, call by call.
- **Layer D**: the theorem.
-/

namespace LedgerRules

namespace TransactionRow

/-! ## Layer A: the merged row -/

/-- The row of a transaction with which a changeset was merged. What is staged for the name and the
    description replaces what is there; of the staged categories those that are not there yet come
    after those that are; and a staged transfer replaces the link if transfers are linked. -/
def merged (settings : Settings) (cs : Changeset) (row : TransactionRow) : TransactionRow :=
  { row with
    name := cs.name.getD row.name
    description := cs.description <|> row.description
    categories := row.categories ++ cs.categories.filter fun c => !row.categories.contains c
    transfer := if settings.linkTransfers then cs.transfer <|> row.transfer else row.transfer }

/-- Two rows that say the same: they have the same head, and no part changes from one to the other,
    where amounts of links are compared as numbers. -/
structure Agrees (row row' : TransactionRow) : Prop where
  head : row.SameHead row'
  parts : ∀ part, row.altered row' part = false

variable {accounts categories : Table NamedRow} {row row' : TransactionRow} {settings : Settings}
  {cs : Changeset}

/-- A link that is kept is the same as itself, since its amount is a number. -/
theorem sameLink_self (h : Ledger.SoundTransaction accounts categories row) :
    sameLink row.transfer row.transfer = true := by
  cases hlink : row.transfer with
  | none => rfl
  | some link =>
    have hnumber := Amount.isNaN_of_kept? (h.linked link hlink).kept
    simp [sameLink, TransferLink.same, Amount.same_self hnumber]

/-- A row with which a changeset was merged has nothing more to get from it. -/
theorem Agrees.merged_again (hrow' : Ledger.SoundTransaction accounts categories row')
    (h : row'.Agrees (row.merged settings cs)) : row'.Agrees (row'.merged settings cs) := by
  refine ⟨⟨rfl, rfl, rfl, rfl, rfl⟩, fun part => ?_⟩
  have hpart := h.parts part
  cases part with
  | name =>
    simp only [altered, merged, bne_eq_false_iff_eq] at hpart ⊢
    cases hname : cs.name with
    | none => rfl
    | some name => simpa [hname] using hpart
  | description =>
    simp only [altered, merged, bne_eq_false_iff_eq] at hpart ⊢
    cases hdescription : cs.description with
    | none => rfl
    | some text => simpa [hdescription] using hpart
  | category =>
    simp only [altered, merged, bne_eq_false_iff_eq] at hpart ⊢
    -- Every staged category is on the row by now.
    have hnone : (cs.categories.filter fun c => !row'.categories.contains c) = [] := by
      rw [List.filter_eq_nil_iff]
      intro category hcategory
      rw [← hpart]
      by_cases hold : category ∈ row.categories <;> simp [hold, hcategory]
    rw [hnone, List.append_nil]
  | transfer =>
    simp only [altered, merged, Bool.not_eq_false'] at hpart ⊢
    have hself := sameLink_self hrow'
    cases hlinks : settings.linkTransfers with
    | false => simpa using hself
    | true =>
      cases htransfer : cs.transfer with
      | none => simpa using hself
      | some staged => simpa [hlinks, htransfer] using hpart

end TransactionRow

/-! ## Layer B: what is written -/

section

variable {l l' : Ledger} {now : Instant} {id user : Ident} {row : TransactionRow} {cs : Changeset}
  {live : Transaction} {settings : Settings}

/-- **What is written is what the merged row has and the row has not.** -/
theorem Changes.writes_against_eq_altered
    (hrow : Ledger.SoundTransaction l.accounts l.categories row)
    (hread : Ledger.readTransaction now id row = .ok live) (part : Part) :
    (cs.against settings live row.transfer).writes part =
      row.altered (row.merged settings cs) part := by
  obtain ⟨-, -, -, hname, hdescription, -, hcategories⟩ := Ledger.fields_of_readTransaction hread
  -- A part is written if it is staged and differs; the merged row has what is staged.
  cases part with
  | name =>
    rw [writes, Changeset.against, Changeset.isSome_nameAgainst, hname]
    rfl
  | description =>
    rw [writes, Changeset.against, Changeset.isSome_descriptionAgainst, hdescription]
    rfl
  | category =>
    simp only [writes, Changeset.against, Changeset.categoriesAgainst, hcategories,
      TransactionRow.altered, TransactionRow.merged]
    cases cs.categories.filter fun c => !row.categories.contains c <;> simp
  | transfer =>
    have hself := TransactionRow.sameLink_self hrow
    simp only [writes, Changeset.against, Changeset.linkAgainst, TransactionRow.altered,
      TransactionRow.merged]
    -- With a switch that is off, or nothing staged, the link of the row stays.
    cases settings.linkTransfers with
    | false => simp [hself]
    | true =>
      cases cs.transfer with
      | none => simp [hself]
      | some staged =>
        cases row.transfer with
        | none => simp [TransactionRow.sameLink]
        | some link =>
          by_cases h : link.same staged = true <;>
            simp [Option.filter, TransactionRow.sameLink, h]

/-- Nothing is left to write exactly if the row says what the merged row says. -/
theorem Changes.isEmpty_against_iff_agrees
    (hrow : Ledger.SoundTransaction l.accounts l.categories row)
    (hread : Ledger.readTransaction now id row = .ok live) :
    (cs.against settings live row.transfer).isEmpty = true ↔
      row.Agrees (row.merged settings cs) := by
  rw [isEmpty_iff]
  constructor
  · intro h
    refine ⟨⟨rfl, rfl, rfl, rfl, rfl⟩, fun part => ?_⟩
    rw [← writes_against_eq_altered hrow hread, h]
  · intro h part
    rw [writes_against_eq_altered hrow hread, h.parts]

namespace Ledger

/-- The kept form of a link is the same link. -/
theorem same_of_keepLink {link kept : TransferLink} (h : l.keepLink link = .ok kept) :
    kept.same link = true := by
  obtain ⟨amount, hamount, h⟩ := bind_eq_ok_iff.mp h
  have hsame : link.amount.same amount = true := by
    unfold keepAmount at hamount
    split at hamount
    · rename_i hkept
      cases hamount
      exact Amount.same_of_kept? hkept
    · cases hamount
  split at h
  · cases h
    rw [Amount.same_comm] at hsame
    simp [TransferLink.same, hsame]
  · cases h

/-- Whatever is kept of the link that is written, the row has the link of the merged row then. -/
theorem sameLink_of_keepLink (hrow : SoundTransaction l.accounts l.categories row)
    {kept : Option TransferLink}
    (h : (cs.linkAgainst settings row.transfer).mapM l.keepLink = .ok kept) :
    TransactionRow.sameLink (kept <|> row.transfer) (row.merged settings cs).transfer = true := by
  have hself := TransactionRow.sameLink_self hrow
  simp only [Changeset.linkAgainst] at h
  simp only [TransactionRow.merged]
  cases hlinks : settings.linkTransfers with
  | false =>
    simp only [hlinks] at h
    cases h
    exact hself
  | true =>
    cases htransfer : cs.transfer with
    | none =>
      simp only [hlinks, htransfer] at h
      cases h
      exact hself
    | some staged =>
      -- If the staged link is there already, nothing is written and the row's own link is kept.
      by_cases hlinked : (row.transfer.any fun link => link.same staged) = true
      · -- The link that is there stays, and it is the staged one.
        simp only [hlinks, htransfer, Option.filter, hlinked] at h
        cases h
        obtain ⟨link, hlink, hsame⟩ := (Option.any_eq_true _ _).mp hlinked
        simpa [hlink, TransactionRow.sameLink] using hsame
      · simp only [hlinks, htransfer, Option.filter, hlinked] at h
        obtain ⟨link, hkeep, h⟩ := bind_eq_ok_iff.mp h
        cases h
        exact same_of_keepLink hkeep

/-- **What is written makes the merged row**, and touches no other row. -/
theorem exists_row_of_applyChanges (hl : Sound l) (howned : l.ownedTransaction? id user = some row)
    (hread : readTransaction now id row = .ok live) (hdistinct : cs.categories.Nodup)
    (hsome : (cs.against settings live row.transfer).isEmpty = false)
    (h : l.applyChanges id user (cs.against settings live row.transfer) = .ok l') :
    ∃ row', l' = l.revise (fun i r => if i = id then row' else r) ∧
      row'.Agrees (row.merged settings cs) := by
  -- The three checks pass, so the ledger is the old one with one row changed.
  have hrow := hl.soundTransaction howned
  rw [applyChanges, if_neg (by simp [hsome])] at h
  obtain ⟨-, -, h⟩ := bind_eq_ok_iff.mp h
  obtain ⟨-, -, h⟩ := bind_eq_ok_iff.mp h
  obtain ⟨kept, hkept, h⟩ := bind_eq_ok_iff.mp h
  obtain rfl := Except.ok.inj h
  refine ⟨{ row.merged settings cs with transfer := kept <|> row.transfer },
    modifyTransaction_against howned hrow hread hdistinct kept,
    ⟨⟨rfl, rfl, rfl, rfl, rfl⟩, fun part => ?_⟩⟩
  -- Only the link is kept in another form than it was staged.
  cases part with
  | name | description | category => simp [TransactionRow.altered]
  | transfer => simpa [TransactionRow.altered] using sameLink_of_keepLink hrow hkept

end Ledger

end

/-! ## Layer C: how writing a changeset goes -/

/-- From one world to a later one these transactions were written to, in this order. -/
def World.WroteTo (w w' : World) (ids : List Ident) : Prop :=
  ∃ evs, w'.events = evs ++ w.events ∧ evs.reverse.filterMap Event.written? = ids

namespace World.WroteTo

variable {w w₁ w₂ : World} {ids ids' : List Ident}

theorem refl (w : World) : w.WroteTo w [] := ⟨[], rfl, rfl⟩

/-- What was written on the way to a world and then on to the next. -/
theorem trans (h : w.WroteTo w₁ ids) (h' : w₁.WroteTo w₂ ids') : w.WroteTo w₂ (ids ++ ids') := by
  obtain ⟨evs, hevents, rfl⟩ := h
  obtain ⟨evs', hevents', rfl⟩ := h'
  refine ⟨evs' ++ evs, ?_, ?_⟩
  · rw [hevents', hevents, List.append_assoc]
  · rw [List.reverse_append, List.filterMap_append]

theorem after {σ : Schedule} {c : Call} (l : Ledger) :
    w.WroteTo (w.after σ c true l) (Event.written? ⟨c, true⟩).toList := by
  refine ⟨[⟨c, true⟩], rfl, ?_⟩
  cases h : Event.written? ⟨c, true⟩ <;> simp [h]

end World.WroteTo

/-- What becomes of a world in which a changeset is written of which some changes are left: nothing
    if none are left; otherwise they are written and reported. -/
def World.WroteRest (w : World) (user : Ident) (cs : Changeset) (changes : Changes)
    (result : Option Modified) (w' : World) : Prop :=
  (changes.isEmpty = true ∧ result = none ∧ w'.ledger = w.ledger ∧ w.WroteTo w' []) ∨
    (changes.isEmpty = false ∧ result = some ⟨cs.transaction, cs.rules, changes.parts⟩ ∧
      w.ledger.applyChanges cs.transaction user changes = .ok w'.ledger ∧
      w.WroteTo w' [cs.transaction])

/-- A ledger refuses changes if there are any and writing them fails. -/
def Ledger.Refuses (l : Ledger) (id user : Ident) (changes : Changes) : Prop :=
  changes.isEmpty = false ∧ ∃ e, l.applyChanges id user changes = .error e

namespace Run

variable {α β : Type} {F : Prop} {Q : α → World → Prop} {w : World}

/-- A step that concludes as is said, or fails for a reason. -/
def Concludes (F : Prop) (x : Run α) (w : World) (Q : α → World → Prop) : Prop :=
  match x w with
  | .ok a w' => Q a w'
  | .error _ _ => F

namespace Concludes

theorem of_ok {x : Run α} (hx : Concludes F x w Q) {a : α} {w' : World} (hrun : x w = .ok a w') :
    Q a w' := by
  rw [Concludes, hrun] at hx
  exact hx

/-- Without a reason to fail a step ends well. -/
theorem exists_ok {x : Run α} (hx : Concludes F x w Q) (hF : ¬ F) :
    ∃ a w', x w = .ok a w' ∧ Q a w' := by
  cases hrun : x w with
  | ok a w' => exact ⟨a, w', rfl, hx.of_ok hrun⟩
  | error stop w' =>
    rw [Concludes, hrun] at hx
    exact absurd hx hF

theorem pure {a : α} (h : Q a w) : Concludes F (Pure.pure a : Run α) w Q := h

theorem imp {F' : Prop} {Q' : α → World → Prop} {x : Run α} (hx : Concludes F x w Q) (hF : F → F')
    (hQ : ∀ a w', Q a w' → Q' a w') : Concludes F' x w Q' := by
  unfold Concludes at hx ⊢
  split
  · rename_i a w' hrun
    rw [hrun] at hx
    exact hQ a w' hx
  · rename_i hrun
    rw [hrun] at hx
    exact hF hx

/-- The second step goes on from what the first has concluded. -/
theorem bind {R : β → World → Prop} {x : Run α} {f : α → Run β} (hx : Concludes F x w Q)
    (hf : ∀ a w', Q a w' → Concludes F (f a) w' R) : Concludes F (x >>= f) w R := by
  cases hrun : x w with
  | ok a w' =>
    rw [Concludes, bind_of_ok hrun]
    exact hf a w' (hx.of_ok hrun)
  | error stop w' =>
    rw [Concludes, bind_of_error hrun]
    rw [Concludes, hrun] at hx
    exact hx

/-- A call fails only if it is not served or the ledger refuses it. -/
theorem perform {σ : Schedule} (hσ : σ.Alone) (now : Instant) (c : Call) :
    Concludes (σ.Serving → ∃ e, c.serve now w.ledger = .error e) (Run.perform ⟨now, σ⟩ c) w
      fun a w' => c.serve now w.ledger = .ok (a, w'.ledger) ∧
        w.WroteTo w' (Event.written? ⟨c, true⟩).toList := by
  cases hrun : Run.perform ⟨now, σ⟩ c w with
  | ok a w' =>
    rw [Concludes, hrun]
    obtain ⟨l, hserve, rfl⟩ := serve_of_perform_eq_ok hσ hrun
    exact ⟨hserve, .after l⟩
  | error stop w' =>
    -- It was served, so it is the ledger that has refused.
    rw [Concludes, hrun]
    intro hserving
    cases hserve : c.serve now w.ledger with
    | ok answer =>
      rw [perform_eq_ok hσ (hserving w.events c) hserve] at hrun
      cases hrun
    | error e => exact ⟨e, rfl⟩

/-- A call that the ledger answers without changing. -/
theorem ask {σ : Schedule} (hσ : σ.Alone) {now : Instant} {c : Call} {a : c.Answer}
    (ha : c.serve now w.ledger = .ok (a, w.ledger)) (hF : ¬ σ.Serving → F) :
    Concludes F (Run.perform ⟨now, σ⟩ c) w fun a' w' => a' = a ∧ w'.ledger = w.ledger ∧
      w.WroteTo w' (Event.written? ⟨c, true⟩).toList := by
  refine (Concludes.perform hσ now c).imp (fun hfails => hF fun hserving => ?_) ?_
  · obtain ⟨e, he⟩ := hfails hserving
    rw [ha] at he
    cases he
  · rintro a' w' ⟨hserve, hwrote⟩
    rw [ha] at hserve
    obtain ⟨ha', hl'⟩ := Prod.mk.inj (Except.ok.inj hserve)
    exact ⟨ha'.symm, hl'.symm, hwrote⟩

end Concludes

/-- What is left of a changeset is written in one call, if there is something left. -/
theorem concludes_write {σ : Schedule} (hσ : σ.Alone) {now : Instant} {user : Ident}
    {cs : Changeset} (changes : Changes) {w₀ : World} (hledger : w.ledger = w₀.ledger)
    (hwrote : w₀.WroteTo w []) :
    Concludes (σ.Serving → w₀.ledger.Refuses cs.transaction user changes)
      (if changes.isEmpty then Pure.pure none
        else do
          Run.perform ⟨now, σ⟩ (.applyChanges cs.transaction user changes)
          Pure.pure (some ⟨cs.transaction, cs.rules, changes.parts⟩))
      w (w₀.WroteRest user cs changes) := by
  cases hempty : changes.isEmpty with
  | true => exact .pure (.inl ⟨hempty, rfl, hledger, hwrote⟩)
  | false =>
    refine ((Concludes.perform hσ now _).imp ?_ fun _ _ h => h).bind ?_
    -- If the call was served and failed all the same, the ledger refuses the changes.
    · intro hfails hserving
      obtain ⟨e, he⟩ := hfails hserving
      rw [hledger] at he
      cases happly : w₀.ledger.applyChanges cs.transaction user changes with
      | ok l' => simp [Call.serve, happly, Except.map] at he
      | error e' => exact ⟨hempty, e', happly⟩
    · rintro ⟨⟩ w' ⟨hserve, hwrote'⟩
      rw [hledger] at hserve
      obtain ⟨l', happly, heq⟩ := map_eq_ok_iff.mp hserve
      cases heq
      exact .pure (.inr ⟨hempty, rfl, happly, hwrote.trans hwrote'⟩)

section

variable {σ : Schedule} (hσ : σ.Alone) {now : Instant} {settings : Settings} {user : Ident}
  {cs : Changeset} {row : TransactionRow}
  (howned : w.ledger.ownedTransaction? cs.transaction user = some row)
include hσ howned

/-- The link that is to be written is what is left of the staged one beside the link that is
    there. -/
theorem concludes_transferToLink (hF : ¬ σ.Serving → F) :
    Concludes F (transferToLink ⟨now, σ⟩ settings user cs) w fun transfer w' =>
      transfer = cs.linkAgainst settings row.transfer ∧ w'.ledger = w.ledger ∧
        w.WroteTo w' [] := by
  have hcall : (Call.transferLink cs.transaction user).serve now w.ledger =
      .ok (row.transfer, w.ledger) := by
    simp [Call.serve, Ledger.transferLink?, howned]
  unfold transferToLink Changeset.linkAgainst
  cases cs.transfer with
  | none => exact .pure ⟨by simp, rfl, .refl w⟩
  | some staged =>
    cases settings.linkTransfers with
    | false => exact .pure ⟨rfl, rfl, .refl w⟩
    | true =>
      refine (Concludes.ask hσ hcall hF).bind ?_
      rintro linked w₁ ⟨rfl, hledger, hwrote⟩
      refine .pure ⟨?_, hledger, hwrote⟩
      -- A link that says the same is not written again.
      by_cases hsame : (row.transfer.any fun link => link.same staged) = true
      · simp [Option.filter, hsame]
      · simp [Option.filter, hsame]

/-- **Writing a changeset** either finds nothing left to write, or writes all that is left in one
    call. It fails only if a call is not served, or if the ledger refuses what is left. -/
theorem concludes_apply (hl : w.ledger.Sound) {live : Transaction}
    (hread : Ledger.readTransaction now cs.transaction row = .ok live) :
    let changes := cs.against settings live row.transfer
    Concludes (σ.Serving → w.ledger.Refuses cs.transaction user changes)
      (apply ⟨now, σ⟩ settings user cs) w (w.WroteRest user cs changes) := by
  intro changes
  have hlive : (Call.transaction cs.transaction user).serve now w.ledger =
      .ok (some live, w.ledger) := by
    obtain ⟨live', hread', hfound⟩ := hl.transaction?_eq now howned
    rw [hread] at hread'
    cases hread'
    simp [Call.serve, hfound, Except.map]
  -- Reading fails only if it is not served.
  refine (Concludes.ask hσ hlive fun h hserving => absurd hserving h).bind ?_
  rintro found w₁ ⟨rfl, hledger₁, hwrote₁⟩
  rw [← hledger₁] at howned
  refine (concludes_transferToLink hσ howned fun h hserving => absurd hserving h).bind ?_
  rintro transfer w₂ ⟨rfl, hledger₂, hwrote₂⟩
  exact concludes_write hσ changes (hledger₂.trans hledger₁) (hwrote₁.trans hwrote₂)

end

end Run

/-! ## Layer D: the theorem -/

namespace Ledger

variable {l : Ledger} {now : Instant} {id user : Ident} {row : TransactionRow} {cs : Changeset}
  {live : Transaction}

/-- What can be stored is not refused. -/
theorem Stores.not_refuses (h : l.Stores cs) (settings : Settings) (hl : Sound l)
    (howned : l.ownedTransaction? id user = some row)
    (hread : readTransaction now id row = .ok live) :
    ¬ l.Refuses id user (cs.against settings live row.transfer) := by
  rintro ⟨hsome, e, happly⟩
  have hrow := hl.soundTransaction howned
  obtain ⟨-, -, -, -, -, -, hcategories⟩ := fields_of_readTransaction hread
  -- None of the three checks of the write fails.
  have howns : l.checkOwned id user = .ok () := by simp [checkOwned, howned]
  have hknown := checkCategories_against hrow h hcategories
  obtain ⟨kept, hkept, -⟩ := keepLink_linkAgainst settings hrow h
  rw [applyChanges, if_neg (by simp [hsome])] at happly
  simp [Changeset.against, howns, hknown, hkept, bind, Except.bind, pure, Except.pure] at happly

end Ledger

section

variable {w w' : World} {user : Ident} {cs : Changeset} {row : TransactionRow} {settings : Settings}
  {now : Instant}

/-- A ledger stays sound, whether anything was left to write or not. -/
theorem World.WroteRest.sound {changes : Changes} {result : Option Modified}
    (h : w.WroteRest user cs changes result w') (hl : w.ledger.Sound) : w'.ledger.Sound := by
  rcases h with ⟨-, -, hledger, -⟩ | ⟨-, -, happly, -⟩
  · rw [hledger]
    exact hl
  · exact hl.applyChanges happly

variable (hl : w.ledger.Sound)
  (howned : w.ledger.ownedTransaction? cs.transaction user = some row)
include hl howned

/-- Whether anything was left to write or not, the row says what the merged row says then. -/
theorem World.WroteRest.exists_row {live : Transaction}
    (hread : Ledger.readTransaction now cs.transaction row = .ok live)
    (hdistinct : cs.categories.Nodup) {result : Option Modified}
    (h : w.WroteRest user cs (cs.against settings live row.transfer) result w') :
    ∃ row', w'.ledger = w.ledger.revise (fun i r => if i = cs.transaction then row' else r) ∧
      w'.ledger.ownedTransaction? cs.transaction user = some row' ∧
      row'.Agrees (row.merged settings cs) := by
  obtain ⟨hget, huser⟩ := Ledger.ownedTransaction?_eq_some_iff.mp howned
  obtain ⟨row', hledger, hagrees⟩ : ∃ row',
      w'.ledger = w.ledger.revise (fun i r => if i = cs.transaction then row' else r) ∧
        row'.Agrees (row.merged settings cs) := by
    -- If nothing was left, the row is the old one and agrees already.
    rcases h with ⟨hempty, -, hledger, -⟩ | ⟨hsome, -, happly, -⟩
    · have hrow := hl.soundTransaction howned
      refine ⟨row, ?_, (Changes.isEmpty_against_iff_agrees hrow hread).mp hempty⟩
      rw [hledger]
      refine (Ledger.revise_eq_self fun e he => ?_).symm
      split
      · rename_i hid
        exact (Ledger.eq_of_ownedTransaction? howned he hid).symm
      · rfl
    · exact Ledger.exists_row_of_applyChanges hl howned hread hdistinct hsome happly
  refine ⟨row', hledger, Ledger.ownedTransaction?_eq_some_iff.mpr ⟨?_, ?_⟩, hagrees⟩
  · rw [hledger, Ledger.get?_revise, hget]
    simp
  · exact hagrees.head.user.symm.trans huser

/-- A changeset of which nothing is left is written without a write. -/
theorem Run.exists_apply_of_agrees {σ : Schedule} (hσ : σ.Alone) (hserving : σ.Serving)
    (hagrees : row.Agrees (row.merged settings cs)) :
    ∃ w', Run.apply ⟨now, σ⟩ settings user cs w = .ok none w' ∧ w'.ledger = w.ledger ∧
      w.WroteTo w' [] := by
  have hrow := hl.soundTransaction howned
  obtain ⟨live, hread⟩ : ∃ live, Ledger.readTransaction now cs.transaction row = .ok live :=
    hrow.exists_read
  have hempty := (Changes.isEmpty_against_iff_agrees hrow hread).mpr hagrees
  have hnone : ¬ w.ledger.Refuses cs.transaction user (cs.against settings live row.transfer) :=
    fun hrefuses => by simp [hrefuses.1] at hempty
  obtain ⟨result, w', hrun, hwrote⟩ := (Run.concludes_apply hσ howned hl hread).exists_ok
    fun hfails => hnone (hfails hserving)
  rcases hwrote with ⟨-, rfl, hledger, hwrote⟩ | ⟨hsome, -⟩
  · exact ⟨w', hrun, hledger, hwrote⟩
  · simp [hsome] at hempty

end

namespace Ledger

/-- The small ledger after its user has seen to the transaction: it has a name and a category of the
    user's choice and is linked to the savings account. -/
def tidied : Ledger :=
  subscriptions.afterWrites
    [.createCategory dawn 1 "Films",
      .updateBase 1 1 ⟨some "Film night", none⟩,
      .updateCategories 1 1 [2],
      .linkTransfer 1 1 ⟨2, Amount.zero⟩]

theorem reachable_tidied : Reachable tidied := reachable_subscriptions.afterWrites _

end Ledger

/-- **Late changesets merge.** Let the engine have staged a changeset for some version of a
    transaction, and let the ledger be any reachable one in which the user has that transaction.
    The changeset can be written if nothing of it is left to write, or if all that it stages can be
    stored. If it is written, by someone who is alone with the ledger, only the row of the
    transaction changes, and says what the merged row says; no category comes twice. Nothing is
    written or reported exactly if the row said so before; otherwise there is one write, and the
    parts in which the merged row differs are reported. Whoever writes the same changeset right
    afterwards writes and reports nothing. -/
theorem stale_changesets_merge {engine : Engine} {t : Transaction} {cs : Changeset}
    (hcs : engine.evaluate t = some cs) {w : World} (hw : w.ledger.Reachable) {user : Ident}
    {row : TransactionRow} (howned : w.ledger.ownedTransaction? t.id user = some row)
    (settings : Settings) :
    let target := row.merged settings cs
    let parts := [.name, .description, .category, .transfer].filter (row.altered target)
    (∀ now σ, σ.Alone → σ.Serving → row.Agrees target ∨ w.ledger.Stores cs →
      ∃ result w', Run.apply ⟨now, σ⟩ settings user cs w = .ok result w') ∧
    ∀ now σ result w', σ.Alone → Run.apply ⟨now, σ⟩ settings user cs w = .ok result w' →
      (∃ row', w'.ledger = w.ledger.revise (fun i r => if i = t.id then row' else r) ∧
        w'.ledger.ownedTransaction? t.id user = some row' ∧
        row'.Agrees target ∧ row'.categories.Nodup) ∧
      (row.Agrees target → result = none ∧ w'.ledger = w.ledger ∧ w.WroteTo w' []) ∧
      (¬ row.Agrees target → result = some ⟨t.id, cs.rules, parts⟩ ∧ w.WroteTo w' [t.id]) ∧
      ∀ now' σ', σ'.Alone → σ'.Serving →
        ∃ w'', Run.apply ⟨now', σ'⟩ settings user cs w' = .ok none w'' ∧
          w''.ledger = w'.ledger ∧ w'.WroteTo w'' [] := by
  intro target parts
  rw [← Engine.transaction_of_evaluate hcs] at howned ⊢
  have hdistinct := Engine.nodup_categories_of_evaluate hcs
  have hl := hw.sound
  have hrow := hl.soundTransaction howned
  have hread (now : Instant) : ∃ live, Ledger.readTransaction now cs.transaction row = .ok live :=
    hrow.exists_read
  refine ⟨fun now σ hσ hserving hcan => ?_, fun now σ result w' hσ hrun => ?_⟩
  -- That it can be written: with nothing left, or with all that is staged at hand.
  · rcases hcan with hagrees | hstores
    · obtain ⟨w', hrun, -⟩ := Run.exists_apply_of_agrees hl howned hσ hserving hagrees
      exact ⟨none, w', hrun⟩
    · obtain ⟨live, hlive⟩ := hread now
      have hnone := hstores.not_refuses settings hl howned hlive
      obtain ⟨result, w', hrun, -⟩ := (Run.concludes_apply hσ howned hl hlive).exists_ok
        fun hfails => hnone (hfails hserving)
      exact ⟨result, w', hrun⟩
  -- Whatever is said of a changeset that was written is read off how writing it went.
  · obtain ⟨live, hlive⟩ := hread now
    have hwrote := (Run.concludes_apply hσ howned hl hlive).of_ok hrun
    have hempty : (cs.against settings live row.transfer).isEmpty = true ↔ row.Agrees target :=
      Changes.isEmpty_against_iff_agrees hrow hlive
    obtain ⟨row', hledger, howned', hagrees⟩ := hwrote.exists_row hl howned hlive hdistinct
    have hl' := hwrote.sound hl
    have hrow' := hl'.soundTransaction howned'
    refine ⟨⟨row', hledger, howned', hagrees, hrow'.distinct⟩, fun hsame => ?_,
      fun hdiffers => ?_, ?_⟩
    · rcases hwrote with ⟨-, hresult, hsame', hnone⟩ | ⟨hsome, -⟩
      · exact ⟨hresult, hsame', hnone⟩
      · simp [hempty.mpr hsame] at hsome
    · rcases hwrote with ⟨hnone, -⟩ | ⟨-, hresult, -, hone⟩
      · exact absurd (hempty.mp hnone) hdiffers
      · refine ⟨?_, hone⟩
        have hparts : (cs.against settings live row.transfer).parts = parts :=
          List.filter_congr fun part _ => Changes.writes_against_eq_altered hrow hlive part
        rw [hresult, hparts]
    · -- The row that the first write has left is merged with the changeset already.
      intro now' σ' hσ' hserving'
      exact Run.exists_apply_of_agrees hl' howned' hσ' hserving' (hagrees.merged_again hrow')

/-- The changeset that was staged before the user saw to the transaction adds its category after the
    user's and does not link the transaction again. -/
theorem stale_changesets_merge_tidied :
    let engine : Engine :=
      { categories := [⟨1, 1, "Streams", Ledger.dawn⟩]
        accounts := [⟨1, 1, "Checking", Ledger.dawn⟩, ⟨2, 1, "Savings", Ledger.dawn⟩]
        rules := [Ledger.subscriptionRule] }
    let t : Transaction :=
      ⟨1, 1, 1, "NETFLIX.COM", none, Amount.zero, Ledger.dawn, [], Ledger.dawn⟩
    let cs : Changeset := ⟨1, some "Netflix", some "Monthly", [1], some ⟨2, -Amount.zero⟩, [1]⟩
    engine.evaluate t = some cs ∧
    ∃ w₁ w₂ row,
      Run.apply ⟨Ledger.dawn, .calm⟩ .standard 1 cs ⟨Ledger.tidied, none, []⟩ =
        .ok (some ⟨1, [1], [.name, .description, .category]⟩) w₁ ∧
      w₁.ledger.ownedTransaction? 1 1 = some row ∧
      row.categories = [2, 1] ∧
      Run.apply ⟨Ledger.dawn, .calm⟩ .standard 1 cs w₁ = .ok none w₂ ∧ w₂.ledger = w₁.ledger := by
  intro engine t cs
  have hcs : engine.evaluate t = some cs := by decide +kernel
  refine ⟨hcs, ?_⟩
  obtain ⟨row, howned⟩ : ∃ row, Ledger.tidied.ownedTransaction? 1 1 = some row :=
    Option.isSome_iff_exists.mp (by decide +kernel)
  have hstores : Ledger.tidied.Stores cs := by
    refine ⟨fun category hcategory => ?_, fun link hlink => ?_, fun link hlink => ?_⟩
    · obtain rfl := List.mem_singleton.mp hcategory
      decide +kernel
    · cases hlink
      decide +kernel
    · cases hlink
      decide +kernel
  -- The amounts of the two links are zeros of different signs.
  have hparts : (Ledger.tidied.ownedTransaction? 1 1).map (fun row =>
      [.name, .description, .category, .transfer].filter (row.altered (row.merged .standard cs))) =
        some [.name, .description, .category] := by
    decide +kernel
  have hmerged : (Ledger.tidied.ownedTransaction? 1 1).map (fun row =>
      (row.merged .standard cs).categories) = some [2, 1] := by
    decide +kernel
  rw [howned] at hparts hmerged
  have hdiffers : ¬ row.Agrees (row.merged .standard cs) := by
    intro hagrees
    simp [List.filter, hagrees.parts] at hparts
  generalize hw : (⟨Ledger.tidied, none, []⟩ : World) = w
  have hledger : w.ledger = Ledger.tidied := by rw [← hw]
  have hreachable := Ledger.reachable_tidied
  rw [← hledger] at howned hstores hreachable
  obtain ⟨hcan, hdid⟩ := stale_changesets_merge hcs hreachable howned .standard
  obtain ⟨result, w₁, hfirst⟩ := hcan Ledger.dawn .calm Schedule.alone_calm Schedule.serving_calm
    (.inr hstores)
  obtain ⟨⟨row', -, howned', hagrees, -⟩, -, hreport, hagain⟩ :=
    hdid Ledger.dawn .calm result w₁ Schedule.alone_calm hfirst
  obtain ⟨w₂, hsecond, hsame, -⟩ :=
    hagain Ledger.dawn .calm Schedule.alone_calm Schedule.serving_calm
  refine ⟨w₁, w₂, row', ?_, howned', ?_, hsecond, hsame⟩
  · rw [hfirst, (hreport hdiffers).1]
    have hparts' := Option.some.inj hparts
    beta_reduce at hparts'
    rw [hparts']
  · have hcategories : (row.merged .standard cs).categories = row'.categories := by
      simpa [TransactionRow.altered] using hagrees.parts .category
    rw [← hcategories]
    exact Option.some.inj hmerged

end LedgerRules
