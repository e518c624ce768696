import LedgerRules.Proofs.Ledger.Listing
import LedgerRules.Run.Apply

/-!
# Rows after a changeset

What a changeset makes of the row of a transaction, and that writing it does just that. Only what
differs is written, and what is written differs: a part is written exactly if the row before and
the row after differ in it.

## Overview

- **Layer A**: the row after a changeset, and the parts in which two rows differ.
- **Layer B**: amounts and links in the form in which they are kept.
- **Layer C**: changesets that can be written, and what is written of them.
- **Layer D**: the write itself.
-/

namespace LedgerRules

/-! ## Layer A: the row after a changeset -/

/-- The form in which a ledger keeps a link, if its amount is a number. -/
def TransferLink.kept? (link : TransferLink) : Option TransferLink :=
  link.amount.kept?.map fun amount => { link with amount }

namespace TransactionRow

/-- The row of a transaction to which a changeset was written. Name and description are replaced if
    they are staged, the staged categories come after the old ones, and the link is replaced if a
    transfer is staged and the settings let transfers be linked. -/
def revised (settings : Settings) (cs : Changeset) (row : TransactionRow) : TransactionRow :=
  { row with
    name := cs.name.getD row.name
    description := cs.description <|> row.description
    categories := row.categories ++ cs.categories
    transfer :=
      if settings.linkTransfers then cs.transfer.bind TransferLink.kept? <|> row.transfer
      else row.transfer }

/-- Whether two rows differ in a part of the transaction. -/
def differs (old new : TransactionRow) : Part → Bool
  | .name => new.name != old.name
  | .description => new.description != old.description
  | .category => new.categories != old.categories
  | .transfer => new.transfer != old.transfer

/-- The parts in which two rows differ. -/
def differences (old new : TransactionRow) : List Part :=
  (Vocabulary.values (α := Part)).filter (old.differs new)

/-- A row that differs from itself in no part after a changeset is the same row. -/
theorem revised_eq_self_iff (settings : Settings) (cs : Changeset) (row : TransactionRow) :
    row.revised settings cs = row ↔
      ∀ part, row.differs (row.revised settings cs) part = false := by
  constructor
  · intro h part
    rw [h]
    cases part <;> simp [differs]
  · -- The parts are all that a changeset can replace in a row.
    intro h
    have hname := h .name
    have hdescription := h .description
    have hcategories := h .category
    have htransfer := h .transfer
    simp only [differs, bne_eq_false_iff_eq] at hname hdescription hcategories htransfer
    simp only [revised] at hname hdescription hcategories htransfer ⊢
    rw [hname, hdescription, hcategories, htransfer]

/-- A changeset makes a difference in some part unless it leaves the row as it is. -/
theorem differences_revised_eq_nil_iff (settings : Settings) (cs : Changeset)
    (row : TransactionRow) :
    row.differences (row.revised settings cs) = [] ↔ row.revised settings cs = row := by
  have hall (part : Part) : part ∈ Vocabulary.values (α := Part) := by cases part <;> decide
  rw [revised_eq_self_iff, differences, List.filter_eq_nil_iff]
  constructor
  · intro h part
    simpa using h part (hall part)
  · intro h part _
    simp [h part]

end TransactionRow

/-! ## Layer B: kept amounts and links -/

theorem Amount.isNaN_of_kept? {x y : Amount} (h : x.kept? = some y) : x.isNaN = false := by
  unfold kept? at h
  split at h
  · cases h
  · rename_i hx
    simpa using hx

theorem Amount.exists_kept? {x : Amount} (h : x.isNaN = false) : ∃ y, x.kept? = some y := by
  by_cases hzero : x.magnitude = 0
  · exact ⟨zero, by simp [kept?, h, hzero]⟩
  · exact ⟨x, by simp [kept?, h, hzero]⟩

theorem Amount.eq_of_same {x y : Amount} (hx : x.kept? = some x) (hy : y.kept? = some y)
    (h : x.same y = true) : x = y := by
  obtain ⟨nx, mx, bx⟩ := x
  obtain ⟨ny, my, b⟩ := y
  have hplace : place ⟨nx, mx, bx⟩ = place ⟨ny, my, b⟩ := by
    simp only [same, Bool.and_eq_true, beq_iff_eq] at h
    exact h.2
  -- A kept form with a zero magnitude is the positive zero.
  have hzero : ∀ (n : Bool) (m : Nat) (hm : m < 0x8000000000000000),
      kept? ⟨n, m, hm⟩ = some ⟨n, m, hm⟩ → m = 0 → n = false := by
    intro n m hm hkept hm0
    subst hm0
    have hnumber := isNaN_of_kept? hkept
    simp only [kept?, hnumber] at hkept
    cases hkept
    rfl
  have hzx := hzero nx mx bx hx
  have hzy := hzero ny my b hy
  -- Equal places leave room for two signs only at zero.
  cases nx <;> cases ny <;> simp [place] at hplace hzx hzy <;> simp <;> omega

/-- What is kept of a number is the same number as another exactly if both keep the same. -/
theorem Amount.same_iff_kept? {x y z : Amount} (hx : x.kept? = some x) (hy : y.kept? = some z) :
    x.same y = true ↔ x = z := by
  have hz := Ledger.kept?_kept hy
  have hyz := same_of_kept? hy
  have hnumber := isNaN_of_kept? hy
  constructor
  · -- Both `x` and what is kept of `y` are kept forms, and there is only one of a number.
    intro h
    apply eq_of_same hx hz
    simp only [same, Bool.and_eq_true, beq_iff_eq] at h hyz ⊢
    exact ⟨⟨h.1.1, hyz.1.2⟩, h.2.trans hyz.2⟩
  · rintro rfl
    rw [same_comm]
    exact hyz

namespace TransferLink

theorem exists_kept? {link : TransferLink} (h : link.amount.isNaN = false) :
    ∃ kept, link.kept? = some kept := by
  obtain ⟨amount, hamount⟩ := Amount.exists_kept? h
  refine ⟨{ link with amount }, ?_⟩
  rw [kept?, hamount]
  rfl

/-- A link in kept form is the same as another exactly if that one is kept as it. -/
theorem same_iff_kept? {link staged kept : TransferLink}
    (hlink : link.amount.kept? = some link.amount) (hkept : staged.kept? = some kept) :
    link.same staged = true ↔ link = kept := by
  obtain ⟨amount, hamount, rfl⟩ := Option.map_eq_some_iff.mp hkept
  rw [same, Bool.and_eq_true, beq_iff_eq, Amount.same_iff_kept? hlink hamount]
  constructor
  · rintro ⟨haccount, rfl⟩
    obtain ⟨account, amount⟩ := link
    simp_all
  · rintro rfl
    exact ⟨rfl, rfl⟩

end TransferLink

/-! ## Layer C: what is written of a changeset -/

namespace Changeset

/-- The transfer that is still to be linked, beside the link that is there. -/
def linkAgainst (settings : Settings) (cs : Changeset) (linked : Option TransferLink) :
    Option TransferLink :=
  if settings.linkTransfers then
    cs.transfer.filter fun staged => !linked.any fun link => link.same staged
  else none

/-- What is written of a changeset, beside the transaction as it is. -/
def against (settings : Settings) (cs : Changeset) (live : Transaction)
    (linked : Option TransferLink) : Changes :=
  ⟨cs.baseAgainst live, cs.categoriesAgainst live, cs.linkAgainst settings linked⟩

/-- A name is written if it is another one. -/
theorem isSome_nameAgainst (cs : Changeset) (live : Transaction) :
    (cs.baseAgainst live).name.isSome = (cs.name.getD live.name != live.name) := by
  unfold baseAgainst
  cases cs.name with
  | none => simp
  | some name => by_cases h : name = live.name <;> simp [Option.filter, h]

/-- A description is written if it is another one, or the first one. -/
theorem isSome_descriptionAgainst (cs : Changeset) (live : Transaction) :
    (cs.baseAgainst live).description.isSome =
      ((cs.description <|> live.description) != live.description) := by
  unfold baseAgainst
  cases cs.description with
  | none => simp
  | some text =>
    by_cases h : live.description = some text
    · simp [Option.filter, h]
    · simp [Option.filter, h, Ne.symm h]

end Changeset

/-- A changeset that a ledger can write to a row: its categories are there and new to the
    transaction, and its transfer leads to an account with a number as amount. -/
structure Ledger.Writable (l : Ledger) (row : TransactionRow) (cs : Changeset) : Prop where
  distinct : cs.categories.Nodup
  fresh : ∀ category ∈ cs.categories, category ∉ row.categories
  known : ∀ category ∈ cs.categories, l.categories.has category = true
  account : ∀ link, cs.transfer = some link → l.accounts.has link.account = true
  number : ∀ link, cs.transfer = some link → link.amount.isNaN = false

/-- Whatever a changeset stages can be stored: its categories are there, and its transfer leads to
    an account with a number as amount. -/
structure Ledger.Stores (l : Ledger) (cs : Changeset) : Prop where
  known : ∀ category ∈ cs.categories, l.categories.has category = true
  account : ∀ link, cs.transfer = some link → l.accounts.has link.account = true
  number : ∀ link, cs.transfer = some link → link.amount.isNaN = false

namespace Ledger.Writable

variable {l : Ledger} {row : TransactionRow} {cs : Changeset}

theorem stores (h : l.Writable row cs) : l.Stores cs := ⟨h.known, h.account, h.number⟩

/-- All categories of the changeset are new to the row. -/
theorem new_categories (h : l.Writable row cs) :
    (cs.categories.filter fun c => !row.categories.contains c) = cs.categories := by
  apply List.filter_eq_self.mpr
  intro category hcategory
  simpa using h.fresh category hcategory

end Ledger.Writable

namespace Changes

variable {l : Ledger} {now : Instant} {id user : Ident} {row : TransactionRow} {cs : Changeset}
  {live : Transaction} {settings : Settings}

theorem isEmpty_iff (c : Changes) : c.isEmpty = true ↔ ∀ part, c.writes part = false := by
  constructor
  · intro h part
    simp only [isEmpty, BaseUpdate.isEmpty, Bool.and_eq_true, Option.isNone_iff_eq_none] at h
    cases part <;> simp [writes, h]
  · intro h
    have hname := h .name
    have hdescription := h .description
    have hcategories := h .category
    have htransfer := h .transfer
    simp only [writes, Option.isSome_eq_false_iff] at hname hdescription hcategories htransfer
    simp [isEmpty, BaseUpdate.isEmpty, hname, hdescription, hcategories, htransfer]

/-- **What is written differs, and what differs is written.** -/
theorem writes_against (hrow : Ledger.SoundTransaction l.accounts l.categories row)
    (hcs : l.Writable row cs) (hread : Ledger.readTransaction now id row = .ok live) (part : Part) :
    (cs.against settings live row.transfer).writes part =
      row.differs (row.revised settings cs) part := by
  obtain ⟨-, -, -, hname, hdescription, -, hcategories⟩ := Ledger.fields_of_readTransaction hread
  cases part with
  | name =>
    rw [writes, Changeset.against, Changeset.isSome_nameAgainst, hname]
    rfl
  | description =>
    rw [writes, Changeset.against, Changeset.isSome_descriptionAgainst, hdescription]
    rfl
  | category =>
    -- No staged category is on the row, so the list grows unless nothing is staged.
    simp only [writes, Changeset.against, Changeset.categoriesAgainst, hcategories,
      hcs.new_categories, TransactionRow.differs, TransactionRow.revised]
    cases cs.categories <;> simp
  | transfer =>
    simp only [writes, Changeset.against, Changeset.linkAgainst, TransactionRow.differs,
      TransactionRow.revised]
    cases settings.linkTransfers with
    | false => simp
    | true =>
      cases htransfer : cs.transfer with
      | none => simp
      | some staged =>
        obtain ⟨kept, hkept⟩ := TransferLink.exists_kept? (hcs.number staged htransfer)
        cases hlinked : row.transfer with
        | none => simp [hkept]
        | some link =>
          -- The staged amount is compared as a number, but kept in its one form.
          have hsame := TransferLink.same_iff_kept? (hrow.linked link hlinked).kept hkept
          by_cases h : link = kept
          · subst h
            simp [Option.filter, hkept, hsame.mpr rfl]
          · have hdiffers : link.same staged = false := by simpa using mt hsame.mp h
            simp [Option.filter, hkept, hdiffers, Ne.symm h]

variable (hrow : Ledger.SoundTransaction l.accounts l.categories row)
  (hcs : l.Writable row cs) (hread : Ledger.readTransaction now id row = .ok live)
include hrow hcs hread

/-- The parts that are written are those in which the row differs afterwards. -/
theorem parts_against :
    (cs.against settings live row.transfer).parts =
      row.differences (row.revised settings cs) :=
  List.filter_congr fun part _ => writes_against hrow hcs hread part

/-- Nothing is to be written exactly if the row is what it would become. -/
theorem isEmpty_against_iff :
    (cs.against settings live row.transfer).isEmpty = true ↔ row.revised settings cs = row := by
  rw [isEmpty_iff, TransactionRow.revised_eq_self_iff]
  exact forall_congr' fun part => by rw [writes_against hrow hcs hread part]

end Changes

/-! ## Layer D: the write -/

namespace Ledger

variable {l : Ledger} {now : Instant} {id user : Ident} {row : TransactionRow} {cs : Changeset}
  {live : Transaction} {settings : Settings}

theorem keepLink_eq_ok {link kept : TransferLink} (hkept : link.kept? = some kept)
    (hknown : l.accounts.has link.account = true) : l.keepLink link = .ok kept := by
  obtain ⟨amount, hamount, rfl⟩ := Option.map_eq_some_iff.mp hkept
  simp [keepLink, keepAmount, hamount, hknown, bind, Except.bind, pure, Except.pure]

/-- The categories that are written pass the check: the old ones are there, and so are the
    new ones. -/
theorem checkCategories_against (hrow : SoundTransaction l.accounts l.categories row)
    (hcs : l.Stores cs) (hlive : live.categories = row.categories) :
    l.checkCategories ((cs.categoriesAgainst live).getD []) = .ok () := by
  rw [checkCategories_eq_ok_iff]
  intro category hcategory
  simp only [Changeset.categoriesAgainst, hlive] at hcategory
  split at hcategory
  · simp at hcategory
  · rcases List.mem_append.mp hcategory with hold | hnew
    · exact hrow.known category hold
    · exact hcs.known category (List.mem_filter.mp hnew).1

/-- A name that is not written because it is there already makes no difference. -/
theorem getD_nameAgainst (cs : Changeset) (live : Transaction) :
    (cs.baseAgainst live).name.getD live.name = cs.name.getD live.name := by
  unfold Changeset.baseAgainst
  cases cs.name with
  | none => rfl
  | some name => by_cases h : name = live.name <;> simp [Option.filter, h]

/-- A description that is not written because it is there already makes no difference. -/
theorem orElse_descriptionAgainst (cs : Changeset) (live : Transaction) :
    ((cs.baseAgainst live).description <|> live.description) =
      (cs.description <|> live.description) := by
  unfold Changeset.baseAgainst
  cases cs.description with
  | none => rfl
  | some text => by_cases h : live.description = some text <;> simp [Option.filter, h]

/-- The categories that are written have no repetitions to drop. -/
theorem getD_categoriesAgainst (hrow : SoundTransaction l.accounts l.categories row)
    (hdistinct : cs.categories.Nodup) (hlive : live.categories = row.categories) :
    ((cs.categoriesAgainst live).map List.eraseDups).getD row.categories =
      row.categories ++ cs.categories.filter fun c => !row.categories.contains c := by
  have hnodup : (row.categories ++
      cs.categories.filter fun c => !row.categories.contains c).Nodup := by
    refine List.nodup_append.mpr ⟨hrow.distinct, hdistinct.filter _, ?_⟩
    rintro category hold _ hnew rfl
    simp [hold] at hnew
  simp only [Changeset.categoriesAgainst, hlive]
  split
  · rename_i h
    rw [List.isEmpty_iff.mp h, List.append_nil]
    rfl
  · exact eraseDups_eq_self hnodup

/-- What is written of name, description and categories, with whatever is kept of the link, makes
    one row of the row of the transaction. -/
theorem modifyTransaction_against (howned : l.ownedTransaction? id user = some row)
    (hrow : SoundTransaction l.accounts l.categories row)
    (hread : readTransaction now id row = .ok live) (hdistinct : cs.categories.Nodup)
    (kept : Option TransferLink) :
    (l.modifyTransaction id fun r =>
      { r with
        name := (cs.baseAgainst live).name.getD r.name
        description := (cs.baseAgainst live).description <|> r.description
        categories := ((cs.categoriesAgainst live).map List.eraseDups).getD r.categories
        transfer := kept <|> r.transfer }) =
      l.revise fun i r =>
        if i = id then
          { row with
            name := cs.name.getD row.name
            description := cs.description <|> row.description
            categories :=
              row.categories ++ cs.categories.filter fun c => !row.categories.contains c
            transfer := kept <|> row.transfer }
        else r := by
  obtain ⟨-, -, -, hname, hdescription, -, hcategories⟩ := fields_of_readTransaction hread
  refine revise_congr fun e he => ?_
  by_cases hid : e.1 = id
  · -- The row that is written to is the one that the transaction was read from.
    have hnamed := getD_nameAgainst cs live
    have hdescribed := orElse_descriptionAgainst cs live
    rw [hname] at hnamed
    rw [hdescription] at hdescribed
    rw [eq_of_ownedTransaction? howned he hid, if_pos (by simpa using hid), if_pos hid]
    beta_reduce
    rw [hnamed, hdescribed, getD_categoriesAgainst hrow hdistinct hcategories]
  · rw [if_neg (by simpa using hid), if_neg hid]

/-- What is kept of the transfer that is still to be linked, where the old link is not the same. -/
theorem keepLink_linkAgainst (settings : Settings)
    (hrow : SoundTransaction l.accounts l.categories row) (hcs : l.Stores cs) :
    ∃ kept, (cs.linkAgainst settings row.transfer).mapM l.keepLink = .ok kept ∧
      (kept <|> row.transfer) = (row.revised settings cs).transfer := by
  simp only [Changeset.linkAgainst, TransactionRow.revised]
  cases settings.linkTransfers with
  | false => exact ⟨none, rfl, by simp⟩
  | true =>
    cases htransfer : cs.transfer with
    | none => exact ⟨none, rfl, by simp⟩
    | some staged =>
      obtain ⟨kept, hkept⟩ := TransferLink.exists_kept? (hcs.number staged htransfer)
      have hkeep := keepLink_eq_ok hkept (hcs.account staged htransfer)
      by_cases hsame : (row.transfer.any fun link => link.same staged) = true
      · -- The link that is there has the kept form already.
        obtain ⟨link, hlinked, hlink⟩ := (Option.any_eq_true _ _).mp hsame
        have hform := (TransferLink.same_iff_kept? (hrow.linked link hlinked).kept hkept).mp hlink
        refine ⟨none, by simp [Option.filter, hsame]; rfl, ?_⟩
        simp [hkept, hlinked, hform]
      · refine ⟨some kept, ?_, by simp [hkept]⟩
        simp [Option.filter, hsame, hkeep]

/-- **Writing a changeset makes the revised row of the row**, and touches no other row. -/
theorem applyChanges_against (hl : Sound l) (howned : l.ownedTransaction? id user = some row)
    (hcs : l.Writable row cs) (hread : readTransaction now id row = .ok live)
    (hsome : row.revised settings cs ≠ row) :
    l.applyChanges id user (cs.against settings live row.transfer) =
      .ok (l.revise fun i r => if i = id then r.revised settings cs else r) := by
  have hrow := hl.soundTransaction howned
  obtain ⟨-, -, -, -, -, -, hcategories⟩ := fields_of_readTransaction hread
  -- None of the checks of the write stands in its way.
  have hempty : (cs.against settings live row.transfer).isEmpty = false := by
    rw [Bool.eq_false_iff]
    exact mt (Changes.isEmpty_against_iff hrow hcs hread).mp hsome
  obtain ⟨kept, hkept, htransfer⟩ := keepLink_linkAgainst settings hrow hcs.stores
  have howns : l.checkOwned id user = .ok () := by simp [checkOwned, howned]
  have hknown := checkCategories_against hrow hcs.stores hcategories
  rw [applyChanges, if_neg (by simp [hempty])]
  -- All three checks pass, and the change of the row that is left is the one above.
  simp only [howns, Changeset.against, hknown, hkept, bind, Except.bind, pure, Except.pure]
  rw [modifyTransaction_against howned hrow hread hcs.distinct, hcs.new_categories, htransfer]
  refine congrArg Except.ok (revise_congr fun e he => ?_)
  by_cases hid : e.1 = id
  · rw [if_pos hid, if_pos hid, eq_of_ownedTransaction? howned he hid]
    rfl
  · rw [if_neg hid, if_neg hid]

end Ledger

end LedgerRules
