import LedgerRules.Proofs.Distinct
import LedgerRules.Proofs.Json.Plain
import Mathlib.Data.List.Forall2

/-!
# Lists and records are read back

If a shape reads each element of a list back, the shape of the list reads the list back, and the
same holds of records and of records that are merged into others. Each needs one level of lists and
records more than its parts.

## Overview

- **Layer A**: what it means that a shape reads a value back, and what stands between values.
- **Layer B**: lists.
- **Layer C**: records.
- **Layer D**: merged records.
-/

namespace LedgerRules.Json

open Reader

/-! ## Layer A: values in their places -/

/-- A character with which a value may begin: no space and no closing mark. -/
def Begins (c : Char) : Prop := isSpace c = false ∧ c ≠ ']' ∧ c ≠ '}'

/-- A shape reads a value back wherever it is written, in front of anything that does not go on with
it, if so many lists and records may still be opened. -/
structure ReadsBack (shape : Shape) (height : Nat) (d : Datum) : Prop where
  /-- The beginning of the value can be told from spaces and closing marks. -/
  begins : ∀ layout depth, ∃ c s, writeAt layout depth d = c :: s ∧ Begins c
  /-- The value is read back after spaces. -/
  reads : ∀ (layout : Layout) (depth : Nat) {levels : Nat} {gap rest : List Char},
    height ≤ levels → IsGap gap → Apart rest →
      shape levels (gap ++ (writeAt layout depth d ++ rest)) = .ok (d, rest)

/-- A bound on the lists and records within one another may be raised. -/
theorem ReadsBack.mono {shape : Shape} {m n : Nat} {d : Datum} (h : ReadsBack shape m d)
    (hmn : m ≤ n) : ReadsBack shape n d :=
  ⟨h.begins, fun layout depth _ _ _ hlevels => h.reads layout depth (Nat.le_trans hmn hlevels)⟩

theorem Starts.begins {c : Char} (hc : Starts c) : Begins c :=
  ⟨hc.isSpace_eq_false, hc.ne (by decide) rfl, hc.ne (by decide) rfl⟩

/-- **Values without parts are read back.** -/
theorem ReadsBack.single {kind : Single} {d : Datum} (hd : Plain d) (hkind : kind.Holds d) :
    ReadsBack (single kind) 0 d where
  begins layout depth := by
    obtain ⟨c, s, hwrite, hc⟩ := exists_writeSingle_eq_cons hd
    exact ⟨c, s, (writeAt_of_plain hd layout depth).trans hwrite, hc.begins⟩
  reads := by
    intro layout depth levels gap rest _ hgap hrest
    rw [writeAt_of_plain hd]
    exact single_writeSingle hd hkind hgap hrest _

/-- What stands before an element of a layout is a text of spaces. -/
theorem isGap_gap (layout : Layout) (depth : Nat) : IsGap (layout.gap depth) := by
  cases layout with
  | compact => exact isGap_nil
  | indented =>
    refine List.forall_mem_cons.mpr ⟨rfl, fun c hc => ?_⟩
    rw [List.eq_of_mem_replicate hc]
    rfl

/-- The colon after a key is taken, and spaces are left. -/
theorem exists_mark_colon (layout : Layout) :
    ∃ gap, IsGap gap ∧ ∀ s, mark ':' (layout.colon ++ s) = .ok ((), gap ++ s) := by
  cases layout with
  | compact => exact ⟨[], isGap_nil, fun s => mark_cons rfl s⟩
  | indented => exact ⟨[' '], by simp [IsGap, isSpace], fun s => mark_cons rfl (' ' :: s)⟩

/-- A comma or a closing mark does not go on with a number. -/
theorem apart_cons {c : Char} (hc : c ∈ [',', ']', '}']) (s : List Char) : Apart (c :: s) := by
  rintro _ ⟨⟩
  simp only [List.mem_cons, List.not_mem_nil, or_false] at hc
  rcases hc with rfl | rfl | rfl <;> decide

/-- No space goes on with a number. -/
theorem Apart.gap_append {gap s : List Char} (hgap : IsGap gap) (hs : Apart s) :
    Apart (gap ++ s) := by
  cases gap with
  | nil => exact hs
  | cons c gap =>
    have hc : isSpace c = true := hgap c List.mem_cons_self
    simp only [isSpace, Bool.or_eq_true, decide_eq_true_eq] at hc
    rintro _ ⟨⟩
    rcases hc with ((rfl | rfl) | rfl) | rfl <;> decide

/-- What stands before a closing mark: nothing in an empty list or record. -/
def closingGap (layout : Layout) (depth : Nat) (first : Bool) : List Char :=
  if first then [] else layout.gap depth

theorem isGap_closingGap (layout : Layout) (depth : Nat) (first : Bool) :
    IsGap (closingGap layout depth first) := by
  cases first with
  | true => exact isGap_nil
  | false => exact isGap_gap layout depth

/-- When a list or record is opened, what lies inside has one level fewer. -/
theorem descend_cons {α : Type} (inside : Nat → Reader α) (levels : Nat) (c : Char)
    (s : List Char) : descend inside (levels + 1) (c :: s) = inside levels s :=
  bind_eq (take_cons c s) _

/-! ## Layer B: lists -/

/-- The elements of a list from the first, or a later one, on, and its end. -/
def itemsText (layout : Layout) (depth : Nat) : Bool → List Datum → List Char
  | first, [] => closingGap layout depth first ++ [']']
  | first, item :: items =>
    comma first ++ layout.gap (depth + 1) ++
      (writeAt layout (depth + 1) item ++ itemsText layout depth false items)

/-- The elements after the first are written as the elements from a later one on. -/
theorem writeItems_eq (layout : Layout) (depth : Nat) (items : List Datum) :
    writeItems layout depth items = itemsText layout depth false items := by
  -- Element by element, each with a comma before it.
  induction items with
  | nil => simp [writeItems, itemsText, closingGap]
  | cons item items ih => simp [writeItems, itemsText, comma, ih]

/-- A list is written as the bracket and its elements from the first on. -/
theorem writeAt_list (layout : Layout) (depth : Nat) (items : List Datum) :
    writeAt layout depth (.list items) = '[' :: itemsText layout depth true items := by
  cases items <;> simp [writeAt, itemsText, closingGap, comma, writeItems_eq]

theorem apart_itemsText (layout : Layout) (depth : Nat) (items : List Datum) (rest : List Char) :
    Apart (itemsText layout depth false items ++ rest) := by
  cases items with
  | nil =>
    rw [itemsText, List.append_assoc]
    exact .gap_append (isGap_closingGap layout depth false) (apart_cons (by simp) rest)
  | cons item items => exact apart_cons (by simp) _

/-- A list has fewer elements than its text has characters, so that counting characters is enough to
    bound the steps of the reader. -/
theorem length_lt_length_itemsText {shape : Shape} {height : Nat} {items : List Datum}
    (h : ∀ d ∈ items, ReadsBack shape height d) (layout : Layout) (depth : Nat) (first : Bool)
    (rest : List Char) : items.length < (itemsText layout depth first items ++ rest).length := by
  induction items generalizing first with
  | nil =>
    simp only [itemsText, List.length_append, List.length_cons, List.length_nil]
    omega
  | cons item items ih =>
    obtain ⟨c, s, hwrite, -⟩ := (h item List.mem_cons_self).begins layout (depth + 1)
    have hitems := ih (fun d hd => h d (List.mem_cons_of_mem _ hd)) false
    simp only [itemsText, hwrite, List.length_append, List.length_cons] at hitems ⊢
    omega

/-- Elements are taken one after the other up to the closing bracket. -/
theorem elements_itemsText {shape : Shape} {height levels : Nat} (hlevels : height ≤ levels)
    {items : List Datum} (h : ∀ d ∈ items, ReadsBack shape height d) {most : Nat}
    (hmost : items.length < most) (layout : Layout) (depth : Nat) (first : Bool)
    (rest : List Char) :
    elements (shape levels) most first (itemsText layout depth first items ++ rest) =
      .ok (items, rest) := by
  -- Only the first element has no comma before it, so the induction is on any position.
  induction items generalizing most first with
  | nil =>
    obtain ⟨most, rfl⟩ := Nat.exists_eq_succ_of_ne_zero (Nat.ne_of_gt hmost)
    have hend := another_close (isGap_closingGap layout depth first)
      (show isSpace ']' = false from rfl) first rest
    -- Nothing is left but the closing bracket, before which there may be spaces.
    rw [elements, itemsText, List.append_assoc, List.singleton_append, bind_eq hend]
    rfl
  | cons item items ih =>
    obtain ⟨most, rfl⟩ := Nat.exists_eq_succ_of_ne_zero (Nat.ne_of_gt (Nat.zero_lt_of_lt hmost))
    have hitem := h item List.mem_cons_self
    obtain ⟨c, s, hwrite, hspace, hclose, -⟩ := hitem.begins layout (depth + 1)
    have hgoesOn := another_cons (isGap_gap layout (depth + 1)) hspace hclose (by decide) first
      (s ++ (itemsText layout depth false items ++ rest))
    have hread := hitem.reads layout (depth + 1) hlevels isGap_nil
      (apart_itemsText layout depth items rest)
    have hitems := ih (fun d hd => h d (List.mem_cons_of_mem _ hd)) (Nat.lt_of_succ_lt_succ hmost)
      false
    have htext : itemsText layout depth first (item :: items) ++ rest =
        comma first ++ layout.gap (depth + 1) ++
          c :: (s ++ (itemsText layout depth false items ++ rest)) := by
      simp [itemsText, hwrite]
    rw [hwrite, List.nil_append, List.cons_append] at hread
    -- The comma is taken, then the element, and then what follows.
    rw [elements, htext, bind_eq hgoesOn, if_pos rfl, bind_eq hread, bind_eq hitems]
    rfl

/-- **A list is read back** if each of its elements is. -/
theorem ReadsBack.list {shape : Shape} {height : Nat} {items : List Datum}
    (h : ∀ d ∈ items, ReadsBack shape height d) :
    ReadsBack (listOf shape) (height + 1) (.list items) where
  begins layout depth := ⟨'[', _, writeAt_list layout depth items, rfl, by decide, by decide⟩
  reads := by
    intro layout depth levels gap rest hlevels hgap hrest
    obtain ⟨levels, rfl⟩ := Nat.exists_eq_succ_of_ne_zero (Nat.ne_of_gt (Nat.zero_lt_of_lt hlevels))
    have hpeek := peekPart_gap_cons hgap (show isSpace '[' = false from rfl)
      (itemsText layout depth true items ++ rest)
    have hlength := length_lt_length_itemsText h layout depth true rest
    have hitems := elements_itemsText (Nat.le_of_succ_le_succ hlevels) h hlength layout depth true
      rest
    have hdescend : descend (fun levels => allElements (shape levels)) (levels + 1)
        ('[' :: (itemsText layout depth true items ++ rest)) = .ok (items, rest) :=
      (descend_cons _ levels '[' _).trans hitems
    rw [writeAt_list, List.cons_append, listOf, bind_eq hpeek, if_pos rfl, bind_eq hdescend,
      pure_eq]

/-! ## Layer C: records -/

/-- The members of a record from the first, or a later one, on, and its end. -/
def membersText (layout : Layout) (depth : Nat) : Bool → List (String × Datum) → List Char
  | first, [] => closingGap layout depth first ++ ['}']
  | first, (key, value) :: members =>
    comma first ++ layout.gap (depth + 1) ++ (quote key ++ (layout.colon ++
      (writeAt layout (depth + 1) value ++ membersText layout depth false members)))

/-- The members after the first are written as the members from a later one on. -/
theorem writeMembers_eq (layout : Layout) (depth : Nat) (members : List (String × Datum)) :
    writeMembers layout depth members = membersText layout depth false members := by
  induction members with
  | nil => simp [writeMembers, membersText, closingGap]
  | cons m members ih => simp [writeMembers, membersText, comma, ih]

/-- A record is written as the brace and its members from the first on. -/
theorem writeAt_record (layout : Layout) (depth : Nat) (members : List (String × Datum)) :
    writeAt layout depth (.record members) = '{' :: membersText layout depth true members := by
  rcases members with _ | ⟨⟨key, value⟩, members⟩ <;>
    simp [writeAt, membersText, closingGap, comma, writeMembers_eq]

theorem apart_membersText (layout : Layout) (depth : Nat) (members : List (String × Datum))
    (rest : List Char) : Apart (membersText layout depth false members ++ rest) := by
  cases members with
  | nil =>
    rw [membersText, List.append_assoc]
    exact .gap_append (isGap_closingGap layout depth false) (apart_cons (by simp) rest)
  | cons m members => exact apart_cons (by simp) _

/-- A record has fewer members than its text has characters, since each has a key in quotes. -/
theorem length_lt_length_membersText (members : List (String × Datum)) (layout : Layout)
    (depth : Nat) (first : Bool) (rest : List Char) :
    members.length < (membersText layout depth first members ++ rest).length := by
  induction members generalizing first with
  | nil =>
    simp only [membersText, List.length_append, List.length_cons, List.length_nil]
    omega
  | cons m members ih =>
    have hmembers := ih false
    have hkey : 0 < (quote m.1).length := by simp [quote]
    simp only [membersText, List.length_append, List.length_cons] at hmembers ⊢
    omega

theorem another_membersText_nil (layout : Layout) (depth : Nat) (first : Bool) (rest : List Char) :
    another first '}' (membersText layout depth first [] ++ rest) = .ok (false, rest) := by
  rw [membersText, List.append_assoc, List.singleton_append]
  exact another_close (isGap_closingGap layout depth first) rfl first rest

/-- What is left of a member when its comma has been taken. -/
def memberText (layout : Layout) (depth : Nat) (m : String × Datum)
    (members : List (String × Datum)) (rest : List Char) : List Char :=
  quote m.1 ++ (layout.colon ++
    (writeAt layout (depth + 1) m.2 ++ (membersText layout depth false members ++ rest)))

theorem another_membersText_cons (layout : Layout) (depth : Nat) (first : Bool)
    (m : String × Datum) (members : List (String × Datum)) (rest : List Char) :
    another first '}' (membersText layout depth first (m :: members) ++ rest) =
      .ok (true, memberText layout depth m members rest) := by
  have htext : membersText layout depth first (m :: members) ++ rest =
      comma first ++ layout.gap (depth + 1) ++ memberText layout depth m members rest := by
    simp [membersText, memberText]
  rw [htext]
  exact another_cons (isGap_gap layout (depth + 1)) rfl (by decide) (by decide) first _

/-- The key of a member is taken, and its colon and value are left. -/
theorem key_memberText (layout : Layout) (depth : Nat) (m : String × Datum)
    (members : List (String × Datum)) (rest : List Char) :
    key (memberText layout depth m members rest) =
      .ok (m.1, layout.colon ++
        (writeAt layout (depth + 1) m.2 ++ (membersText layout depth false members ++ rest))) := by
  have hpeek : peek (memberText layout depth m members rest) =
      .ok ('"', memberText layout depth m members rest) := rfl
  rw [key, bind_eq hpeek, if_pos rfl, memberText, text_quote]

/-- Among members with distinct keys each is found under its key. -/
theorem lookup_eq_some_of_mem {members : List (String × Datum)}
    (hdistinct : (members.map Prod.fst).Nodup) {key : String} {value : Datum}
    (hm : (key, value) ∈ members) : members.lookup key = some value := by
  induction members with
  | nil => cases hm
  | cons n members ih =>
    obtain ⟨hn, hrest⟩ := List.nodup_cons.mp hdistinct
    -- The key that is looked for is the first one, or it is not and so lies further on.
    rcases List.mem_cons.mp hm with rfl | hm
    · exact List.lookup_cons_self
    · have hne : (key == n.1) = false :=
        beq_eq_false_iff_ne.mpr fun h => hn (h ▸ List.mem_map_of_mem hm)
      rw [List.lookup_cons, hne]
      exact ih hrest hm

/-- Members that were found are put into the declared order. -/
theorem arrange_eq {found members : List (String × Datum)} {names : List (String × Bool)}
    (hfound : ∀ m ∈ members, found.lookup m.1 = some m.2)
    (hnames : names.map Prod.fst = members.map Prod.fst) (rest : List Char) :
    arrange found names rest = .ok (members, rest) := by
  -- Nothing is missing, so that no member is filled in and none refused.
  induction members generalizing names with
  | nil =>
    rw [List.map_eq_nil_iff.mp hnames]
    rfl
  | cons m members ih =>
    obtain ⟨⟨name, optional⟩, names, rfl⟩ := List.exists_cons_of_ne_nil
      (show names ≠ [] by rintro rfl; cases hnames)
    obtain ⟨hname, hrest⟩ := List.cons.inj hnames
    have hm := hfound m List.mem_cons_self
    have hmembers := ih (fun n hn => hfound n (List.mem_cons_of_mem _ hn)) hrest
    have hname' : name = m.1 := hname
    rw [arrange, hname', hm]
    exact (bind_eq hmembers _).trans rfl

/-- The member of a record reads a value back under its key. -/
structure Field.Fits (height : Nat) (field : Field) (m : String × Datum) : Prop where
  /-- The key. -/
  name_eq : field.name = m.1
  /-- The value. -/
  reads : ReadsBack field.shape height m.2

section Record

variable {height levels most : Nat} {fields : List Field} {found members : List (String × Datum)}

/-- A member that is declared is taken and kept. -/
theorem fieldMembers_cons (hlevels : height ≤ levels) {field : Field} {m : String × Datum}
    (hfield : (fields.find? fun f => f.name = m.1) = some field) (hfits : field.Fits height m)
    (hnew : found.lookup m.1 = none) (layout : Layout) (depth : Nat) (first : Bool)
    (rest : List Char) :
    fieldMembers fields levels (most + 1) first found
        (membersText layout depth first (m :: members) ++ rest) =
      fieldMembers fields levels most false (m :: found)
        (membersText layout depth false members ++ rest) := by
  obtain ⟨gap, hgap, hmark⟩ := exists_mark_colon layout
  have hvalue := hfits.reads.reads layout (depth + 1) hlevels hgap
    (apart_membersText layout depth members rest)
  rw [fieldMembers, bind_eq (another_membersText_cons layout depth first m members rest),
    if_pos rfl, bind_eq (key_memberText layout depth m members rest)]
  simp only [hfield, hnew, Option.isSome_none, Bool.false_eq_true, if_false]
  rw [bind_eq (hmark _), bind_eq hvalue]

/-- Members are taken one after the other up to the closing brace. -/
theorem fieldMembers_membersText (hlevels : height ≤ levels)
    (hfits : ∀ m ∈ members, ∃ field,
      (fields.find? fun f => f.name = m.1) = some field ∧ field.Fits height m)
    (hdistinct : (members.map Prod.fst).Nodup)
    (hnew : ∀ m ∈ members, found.lookup m.1 = none) (hmost : members.length < most)
    (layout : Layout) (depth : Nat) (first : Bool) (rest : List Char) :
    fieldMembers fields levels most first found
        (membersText layout depth first members ++ rest) =
      arrange (members.reverse ++ found) (fields.map fun f => (f.name, f.optional)) rest := by
  induction members generalizing most first found with
  | nil =>
    obtain ⟨most, rfl⟩ := Nat.exists_eq_succ_of_ne_zero (Nat.ne_of_gt hmost)
    rw [fieldMembers, bind_eq (another_membersText_nil layout depth first rest),
      if_neg Bool.false_ne_true]
    rfl
  | cons m members ih =>
    obtain ⟨most, rfl⟩ := Nat.exists_eq_succ_of_ne_zero (Nat.ne_of_gt (Nat.zero_lt_of_lt hmost))
    obtain ⟨field, hfield, hm⟩ := hfits m List.mem_cons_self
    obtain ⟨hfresh, hrest⟩ := List.nodup_cons.mp hdistinct
    -- The key that has been taken is none of those that come.
    have hnew' : ∀ n ∈ members, (m :: found).lookup n.1 = none := by
      intro n hn
      have hne : (n.1 == m.1) = false :=
        beq_eq_false_iff_ne.mpr fun h => hfresh (h ▸ List.mem_map_of_mem hn)
      rw [List.lookup_cons, hne]
      exact hnew n (List.mem_cons_of_mem _ hn)
    rw [fieldMembers_cons hlevels hfield hm (hnew m List.mem_cons_self),
      ih (fun n hn => hfits n (List.mem_cons_of_mem _ hn)) hrest hnew'
        (Nat.lt_of_succ_lt_succ hmost), List.reverse_cons, List.append_assoc,
      List.singleton_append]

/-- Declared members have the declared keys. -/
theorem map_fst_of_forall₂ (h : List.Forall₂ (Field.Fits height) fields members) :
    fields.map Field.name = members.map Prod.fst := by
  -- The declarations and the members go in step.
  induction h with
  | nil => rfl
  | cons hm _ ih => rw [List.map_cons, List.map_cons, hm.name_eq, ih]

/-- With distinct keys each declared member is found under its key. -/
theorem exists_field_of_mem (h : List.Forall₂ (Field.Fits height) fields members)
    (hdistinct : (members.map Prod.fst).Nodup) :
    ∀ m ∈ members, ∃ field,
      (fields.find? fun f => f.name = m.1) = some field ∧ field.Fits height m := by
  intro m hm
  obtain ⟨field, hfield, hfits⟩ : ∃ field ∈ fields, field.Fits height m := by
    -- Where the names are distinct plays no part in finding the declaration.
    clear hdistinct
    induction h with
    | nil => cases hm
    | cons hn _ ih =>
      rcases List.mem_cons.mp hm with rfl | hm
      · exact ⟨_, List.mem_cons_self, hn⟩
      · obtain ⟨field, hfield, hfits⟩ := ih hm
        exact ⟨field, List.mem_cons_of_mem _ hfield, hfits⟩
  rw [← map_fst_of_forall₂ h] at hdistinct
  exact ⟨field, (find?_eq_some_iff_of_nodup hdistinct).mpr ⟨hfield, hfits.name_eq⟩, hfits⟩

/-- Members that were found in the declared order are put into it again. -/
theorem arrange_reverse (h : List.Forall₂ (Field.Fits height) fields members)
    (hdistinct : (members.map Prod.fst).Nodup) (rest : List Char) :
    arrange members.reverse (fields.map fun f => (f.name, f.optional)) rest =
      .ok (members, rest) := by
  have hnames : (fields.map fun f => (f.name, f.optional)).map Prod.fst =
      members.map Prod.fst := by
    rw [← map_fst_of_forall₂ h, List.map_map]
    rfl
  have hkeys : (members.reverse.map Prod.fst).Nodup := by
    rw [List.map_reverse]
    exact List.nodup_reverse.mpr hdistinct
  exact arrange_eq (fun m hm => lookup_eq_some_of_mem hkeys (List.mem_reverse.mpr hm)) hnames rest

/-- **A record is read back** if each of its members is and their keys are distinct. -/
theorem ReadsBack.record (h : List.Forall₂ (Field.Fits height) fields members)
    (hdistinct : (members.map Prod.fst).Nodup) :
    ReadsBack (record fields) (height + 1) (.record members) where
  begins layout depth := ⟨'{', _, writeAt_record layout depth members, rfl, by decide, by decide⟩
  reads := by
    intro layout depth levels gap rest hlevels hgap hrest
    obtain ⟨levels, rfl⟩ := Nat.exists_eq_succ_of_ne_zero (Nat.ne_of_gt (Nat.zero_lt_of_lt hlevels))
    have hpeek := peekPart_gap_cons hgap (show isSpace '{' = false from rfl)
      (membersText layout depth true members ++ rest)
    have hlength := length_lt_length_membersText members layout depth true rest
    have hmembers := fieldMembers_membersText (Nat.le_of_succ_le_succ hlevels)
      (exists_field_of_mem h hdistinct) hdistinct (fun _ _ => List.lookup_nil) hlength layout depth
      true rest
    have harranged := arrange_reverse h hdistinct rest
    rw [List.append_nil] at hmembers
    have hdescend : descend (fun levels s => fieldMembers fields levels s.length true [] s)
        (levels + 1) ('{' :: (membersText layout depth true members ++ rest)) =
          .ok (members, rest) :=
      (descend_cons _ levels '{' _).trans (hmembers.trans harranged)
    rw [writeAt_record, List.cons_append, Json.record, bind_eq hpeek]
    exact (bind_eq hdescend _).trans rfl

end Record

/-! ## Layer D: merged records -/

/-- The member of a merged record holds a value under its key. -/
structure MergedField.Fits (field : MergedField) (m : String × Datum) : Prop where
  /-- The key. -/
  name_eq : field.name = m.1
  /-- The value has no parts. -/
  plain : Plain m.2
  /-- The value is of the right kind, or is missing where it may be. -/
  holds : field.kind.Holds m.2 ∨ m.2 = .null ∧ field.optional = true

/-- What has been found in a merged record, with one member more. -/
def Found.add (fields : List Field) (found : Found) (m : String × Datum) : Found :=
  match fields.find? fun f => f.name = m.1 with
  | some _ => { found with own := m :: found.own }
  | none => { found with others := (m.1, unshaped m.2) :: found.others }

/-- A member can be taken in a merged record: it is declared and new, or it has no parts. -/
def Takes (fields : List Field) (height : Nat) (found : Found) (m : String × Datum) : Prop :=
  (∃ field, (fields.find? fun f => f.name = m.1) = some field ∧ field.Fits height m ∧
      found.own.lookup m.1 = none) ∨
    (fields.find? fun f => f.name = m.1) = none ∧ Plain m.2

/-- A member of a merged record is taken and added to what has been found. -/
theorem mergedMembers_cons {fields : List Field} {height levels most : Nat}
    (hlevels : height ≤ levels) {m : String × Datum} {found : Found}
    {members : List (String × Datum)} (htakes : Takes fields height found m) (layout : Layout)
    (depth : Nat) (first : Bool) (rest : List Char) :
    mergedMembers fields levels (most + 1) first found
        (membersText layout depth first (m :: members) ++ rest) =
      mergedMembers fields levels most false (found.add fields m)
        (membersText layout depth false members ++ rest) := by
  obtain ⟨gap, hgap, hmark⟩ := exists_mark_colon layout
  have hapart := apart_membersText layout depth members rest
  rw [mergedMembers, bind_eq (another_membersText_cons layout depth first m members rest),
    if_pos rfl, bind_eq (key_memberText layout depth m members rest)]
  -- A declared value is read by its shape, any other as it stands.
  rcases htakes with ⟨field, hfield, hfits, hnew⟩ | ⟨hnone, hplain⟩
  · have hvalue := hfits.reads.reads layout (depth + 1) hlevels hgap hapart
    simp only [hfield, hnew, Option.isSome_none, Bool.false_eq_true, if_false, Found.add]
    rw [bind_eq (hmark _), bind_eq hvalue]
  · have hvalue := anything_writeSingle hplain hgap hapart levels
    rw [← writeAt_of_plain hplain layout (depth + 1)] at hvalue
    simp only [hnone, Found.add]
    rw [bind_eq (hmark _), bind_eq hvalue]

/-- What can be taken stays so when a member with another key has been added. -/
theorem Takes.add {fields : List Field} {height : Nat} {found : Found} {m n : String × Datum}
    (h : Takes fields height found n) (hne : n.1 ≠ m.1) :
    Takes fields height (found.add fields m) n := by
  rcases h with ⟨field, hfield, hfits, hnew⟩ | hother
  · refine .inl ⟨field, hfield, hfits, ?_⟩
    unfold Found.add
    split
    · rw [List.lookup_cons, beq_eq_false_iff_ne.mpr hne]
      exact hnew
    · exact hnew
  · exact .inr hother

/-- Members are found one after the other up to the closing brace. -/
theorem mergedMembers_membersText {fields : List Field} {height levels : Nat}
    (hlevels : height ≤ levels) {members : List (String × Datum)} {found : Found}
    (htakes : ∀ m ∈ members, Takes fields height found m)
    (hdistinct : (members.map Prod.fst).Nodup) {most : Nat} (hmost : members.length < most)
    (layout : Layout) (depth : Nat) (first : Bool) (rest : List Char) :
    mergedMembers fields levels most first found
        (membersText layout depth first members ++ rest) =
      .ok (members.foldl (Found.add fields) found, rest) := by
  -- On the members that come. What is found is generalized, since it grows.
  induction members generalizing most first found with
  | nil =>
    obtain ⟨most, rfl⟩ := Nat.exists_eq_succ_of_ne_zero (Nat.ne_of_gt hmost)
    rw [mergedMembers, bind_eq (another_membersText_nil layout depth first rest),
      if_neg Bool.false_ne_true]
    rfl
  | cons m members ih =>
    obtain ⟨most, rfl⟩ := Nat.exists_eq_succ_of_ne_zero (Nat.ne_of_gt (Nat.zero_lt_of_lt hmost))
    obtain ⟨hfresh, hrest⟩ := List.nodup_cons.mp hdistinct
    -- What has been found grows by the member, and those that come can still be taken.
    have htakes' : ∀ n ∈ members, Takes fields height (found.add fields m) n := fun n hn =>
      (htakes n (List.mem_cons_of_mem _ hn)).add fun h => hfresh (h ▸ List.mem_map_of_mem hn)
    rw [mergedMembers_cons hlevels (htakes m List.mem_cons_self),
      ih htakes' hrest (Nat.lt_of_succ_lt_succ hmost), List.foldl_cons]

/-- Members that are not declared are kept as they are read. -/
theorem foldl_add_others {fields : List Field} {members : List (String × Datum)}
    (h : ∀ m ∈ members, (fields.find? fun f => f.name = m.1) = none) (found : Found) :
    members.foldl (Found.add fields) found =
      ⟨found.own, (members.map fun m => (m.1, unshaped m.2)).reverse ++ found.others⟩ := by
  induction members generalizing found with
  | nil => rfl
  | cons m members ih =>
    have hadd : found.add fields m = ⟨found.own, (m.1, unshaped m.2) :: found.others⟩ := by
      simp only [Found.add, h m List.mem_cons_self]
    rw [List.foldl_cons, ih (fun n hn => h n (List.mem_cons_of_mem _ hn)), hadd]
    simp

/-- Members that are declared are kept in front of those that were found before. -/
theorem foldl_add_own {fields : List Field} {members : List (String × Datum)}
    (h : ∀ m ∈ members, ∃ field, (fields.find? fun f => f.name = m.1) = some field)
    (found : Found) :
    members.foldl (Found.add fields) found = ⟨members.reverse ++ found.own, found.others⟩ := by
  induction members generalizing found with
  | nil => rfl
  | cons m members ih =>
    obtain ⟨field, hfield⟩ := h m List.mem_cons_self
    have hadd : found.add fields m = ⟨m :: found.own, found.others⟩ := by
      simp only [Found.add, hfield]
    rw [List.foldl_cons, ih (fun n hn => h n (List.mem_cons_of_mem _ hn)), hadd]
    simp

theorem Single.Holds.unshaped_ne_null {kind : Single} {d : Datum} (h : kind.Holds d) :
    unshaped d ≠ .null := by
  cases h <;> simp [unshaped]

/-- A member that was found once and is not null is asked for its kind. -/
theorem interpretMembers_cons {field : MergedField} {others : List (String × Datum)} {key : String}
    {d : Datum} (hfound : (others.filter fun n => n.1 = field.name) = [(key, d)])
    (hd : d ≠ .null) (inner : List MergedField) :
    interpretMembers others (field :: inner) = (do
      let value ← demand field.kind d
      pure ((field.name, value) :: (← interpretMembers others inner))) := by
  -- The case of a missing value is the only one that is treated differently.
  rw [interpretMembers, hfound]
  cases d with
  | null => exact absurd rfl hd
  | flag | whole | real | text | moment | list | record => rfl

/-- Members of another record mean what they were. -/
theorem interpretMembers_eq {inner : List MergedField} {members others : List (String × Datum)}
    (h : List.Forall₂ MergedField.Fits inner members)
    (hothers : ∀ m ∈ members, (others.filter fun n => n.1 = m.1) = [(m.1, unshaped m.2)])
    (rest : List Char) : interpretMembers others inner rest = .ok (members, rest) := by
  -- On the declarations, with the members beside them.
  induction h with
  | nil => rfl
  | @cons field m inner members hm _ ih =>
    have hmembers := ih fun n hn => hothers n (List.mem_cons_of_mem _ hn)
    have hfound := hothers m List.mem_cons_self
    rw [← hm.name_eq] at hfound
    rcases hm.holds with hholds | ⟨hnull, hoptional⟩
    -- A value is demanded in its kind; a missing one is filled in where that is allowed.
    · have hdemand : demand field.kind (unshaped m.2) rest = .ok (m.2, rest) := by
        simp only [demand, hholds.interpret, pure_eq]
      rw [interpretMembers_cons hfound hholds.unshaped_ne_null, bind_eq hdemand, bind_eq hmembers,
        pure_eq, hm.name_eq]
    · rw [hnull] at hfound
      rw [interpretMembers, hfound]
      dsimp only [unshaped]
      rw [if_pos hoptional, pure_bind, bind_eq hmembers, pure_eq, hm.name_eq, ← hnull]

/-- Among members with distinct keys one has the key of each. -/
theorem filter_key_eq_singleton {members : List (String × Datum)}
    (hdistinct : (members.map Prod.fst).Nodup) {m : String × Datum} (hm : m ∈ members) :
    (members.filter fun n => n.1 = m.1) = [m] := by
  induction members with
  | nil => cases hm
  | cons n members ih =>
    obtain ⟨hfresh, hrest⟩ := List.nodup_cons.mp hdistinct
    rcases List.mem_cons.mp hm with rfl | hm
    · have hnone : (members.filter fun n => n.1 = m.1) = [] := by
        refine List.filter_eq_nil_iff.mpr fun n hn => ?_
        have hne : n.1 ≠ m.1 := fun h => hfresh (h ▸ List.mem_map_of_mem hn)
        simpa using hne
      rw [List.filter_cons_of_pos (by simp), hnone]
    · have hne : ¬ n.1 = m.1 := fun h => hfresh (h ▸ List.mem_map_of_mem hm)
      rw [List.filter_cons_of_neg (by simpa using hne), ih hrest hm]

theorem plain_of_forall₂ {inner : List MergedField} {members : List (String × Datum)}
    (h : List.Forall₂ MergedField.Fits inner members) : ∀ m ∈ members, Plain m.2 := by
  induction h with
  | nil => exact List.forall_mem_nil _
  | cons hm _ ih => exact List.forall_mem_cons.mpr ⟨hm.plain, ih⟩

section Merged

variable {height : Nat} {inner : List MergedField} {fields : List Field}
variable {others own : List (String × Datum)}

/-- The members of the other record are not declared. -/
theorem find?_eq_none_of_nodup (hfields : List.Forall₂ (Field.Fits height) fields own)
    (hdistinct : ((others ++ own).map Prod.fst).Nodup) :
    ∀ m ∈ others, (fields.find? fun f => f.name = m.1) = none := by
  rw [List.map_append, ← map_fst_of_forall₂ hfields] at hdistinct
  intro m hm
  -- The declared keys are those of the record's own members, and these are no keys of the other.
  refine List.find?_eq_none.mpr fun f hf => ?_
  have hne : m.1 ≠ f.name := (List.nodup_append.mp hdistinct).2.2 m.1 (List.mem_map_of_mem hm)
    f.name (List.mem_map_of_mem hf)
  simpa using hne.symm

/-- What is found in a merged record: its own members, and the others as they are read. -/
theorem foldl_add_append (hfields : List.Forall₂ (Field.Fits height) fields own)
    (hdistinct : ((others ++ own).map Prod.fst).Nodup) :
    (others ++ own).foldl (Found.add fields) ⟨[], []⟩ =
      ⟨own.reverse, (others.map fun m => (m.1, unshaped m.2)).reverse⟩ := by
  have hown : (own.map Prod.fst).Nodup := by
    rw [List.map_append] at hdistinct
    exact (List.nodup_append.mp hdistinct).2.1
  have hdeclared : ∀ m ∈ own, ∃ field, (fields.find? fun f => f.name = m.1) = some field :=
    fun m hm => (exists_field_of_mem hfields hown m hm).imp fun _ h => h.1
  rw [List.foldl_append, foldl_add_others (find?_eq_none_of_nodup hfields hdistinct),
    foldl_add_own hdeclared, List.append_nil, List.append_nil]

/-- The members of the other record are found once, as they are read. -/
theorem filter_unshaped_eq (hdistinct : (others.map Prod.fst).Nodup) :
    ∀ m ∈ others, ((others.map fun m => (m.1, unshaped m.2)).reverse.filter fun n => n.1 = m.1) =
      [(m.1, unshaped m.2)] := by
  intro m hm
  have hkeys : ((others.map fun m => (m.1, unshaped m.2)).map Prod.fst).Nodup := by
    rw [List.map_map]
    exact hdistinct
  have hfilter := filter_key_eq_singleton hkeys (List.mem_map_of_mem hm)
  rw [List.filter_reverse, hfilter, List.reverse_singleton]

/-- **A record that is merged into another is read back** with the other, if all keys are
distinct. -/
theorem ReadsBack.merged (hinner : List.Forall₂ MergedField.Fits inner others)
    (hfields : List.Forall₂ (Field.Fits height) fields own)
    (hdistinct : ((others ++ own).map Prod.fst).Nodup) :
    ReadsBack (merged inner fields) (height + 1) (.record (others ++ own)) where
  begins layout depth :=
    ⟨'{', _, writeAt_record layout depth (others ++ own), rfl, by decide, by decide⟩
  reads := by
    intro layout depth levels gap rest hlevels hgap hrest
    obtain ⟨levels, rfl⟩ := Nat.exists_eq_succ_of_ne_zero (Nat.ne_of_gt (Nat.zero_lt_of_lt hlevels))
    have hpeek := peekPart_gap_cons hgap (show isSpace '{' = false from rfl)
      (membersText layout depth true (others ++ own) ++ rest)
    have hlength := length_lt_length_membersText (others ++ own) layout depth true rest
    have hkeys := hdistinct
    rw [List.map_append, List.nodup_append] at hkeys
    obtain ⟨hothers, hown, -⟩ := hkeys
    have htakes : ∀ m ∈ others ++ own, Takes fields height ⟨[], []⟩ m := by
      intro m hm
      -- A member of the other record is kept aside, a declared one is read by its shape.
      rcases List.mem_append.mp hm with hm | hm
      · exact .inr ⟨find?_eq_none_of_nodup hfields hdistinct m hm, plain_of_forall₂ hinner m hm⟩
      · obtain ⟨field, hfield, hfits⟩ := exists_field_of_mem hfields hown m hm
        exact .inl ⟨field, hfield, hfits, List.lookup_nil⟩
    have hmembers := mergedMembers_membersText (Nat.le_of_succ_le_succ hlevels) htakes hdistinct
      hlength layout depth true rest
    rw [foldl_add_append hfields hdistinct] at hmembers
    have hdescend : descend
        (fun levels s => mergedMembers fields levels s.length true ⟨[], []⟩ s) (levels + 1)
        ('{' :: (membersText layout depth true (others ++ own) ++ rest)) =
          .ok (⟨own.reverse, (others.map fun m => (m.1, unshaped m.2)).reverse⟩, rest) :=
      (descend_cons _ levels '{' _).trans hmembers
    -- Both halves of what was found are put back into their declared orders.
    have harranged := arrange_reverse hfields hown rest
    have hinterpreted := interpretMembers_eq hinner (filter_unshaped_eq hothers) rest
    rw [writeAt_record, List.cons_append, Json.merged, bind_eq hpeek, if_pos rfl,
      bind_eq hdescend, bind_eq harranged, bind_eq hinterpreted, pure_eq]

end Merged

end LedgerRules.Json
