import LedgerRules.CommandLine.Outcome
import LedgerRules.Proofs.Ident
import LedgerRules.Proofs.Json.Parts

/-!
# What is written as JSON is read back

For each type that the program writes as JSON there is a bound on the lists and records within one
another, and its values are read back wherever so many may still be opened. The bounds are far from
the limit, so that a text which holds a single value is read as this value.

Instants are the exception: one that is not regular is written like another one. A rule is therefore
read back with the instants that are written like its own, and as itself if both are regular.

## Overview

- **Layer A**: values that come back, types all of whose values do, and lists of them.
- **Layer B**: values without parts.
- **Layer C**: rules and summaries, member by member.
- **Layer D**: rules that are written alike.
- **Layer E**: whole texts.
-/

namespace LedgerRules

namespace CompleteRule

/-- The rule with the regular instants that are written like its own. -/
def written (r : CompleteRule) : CompleteRule :=
  { r with rule := { r.rule with
      effectiveFrom := r.rule.effectiveFrom.written
      createdAt := r.rule.createdAt.written } }

/-- A rule both of whose instants are regular. -/
def Regular (r : CompleteRule) : Prop :=
  r.rule.effectiveFrom.Regular ∧ r.rule.createdAt.Regular

/-- A rule with regular instants is regular, whatever rule it was made from. -/
theorem regular_written (r : CompleteRule) : r.written.Regular :=
  ⟨r.rule.effectiveFrom.regular_written, r.rule.createdAt.regular_written⟩

/-- Exactly the regular rules are what they are written like. -/
theorem written_eq_self_iff {r : CompleteRule} : r.written = r ↔ r.Regular := by
  constructor
  · intro h
    exact h ▸ r.regular_written
  · rintro ⟨hfirst, hcreated⟩
    rw [written, Instant.written_of_regular hfirst, Instant.written_of_regular hcreated]

end CompleteRule

namespace Json

open Reader

/-! ## Layer A: values that come back -/

/-- A value that comes back from its JSON form, which has at most so many lists and records within
one another. -/
structure ComesBack {α : Type} [Form α] (height : Nat) (a : α) : Prop where
  /-- The form of the value is read back. -/
  reads : ReadsBack (Form.shape α) height (Form.encode a)
  /-- The form of the value stands for this value. -/
  decodes : Form.decode (Form.encode a) = some a

/-- A type all of whose values come back. -/
class Faithful (α : Type) [Form α] (height : outParam Nat) : Prop where
  /-- Each of its values comes back. -/
  comesBack : ∀ a : α, ComesBack height a

variable {α : Type} [Form α] {height : Nat}

theorem decodeList_map {as : List α} (h : ∀ a ∈ as, ComesBack height a) :
    decodeList (.list (as.map Form.encode)) = some as := by
  show (as.map Form.encode).mapM Form.decode = some as
  -- On the elements, each of which is decoded to itself.
  induction as with
  | nil => rfl
  | cons a as ih =>
    obtain ⟨ha, has⟩ := List.forall_mem_cons.mp h
    rw [List.map_cons, List.mapM_cons, ha.decodes, ih has]
    rfl

/-- **Lists come back** if their elements do. -/
theorem ComesBack.list {as : List α} (h : ∀ a ∈ as, ComesBack height a) :
    ComesBack (height + 1) as where
  reads := by
    refine .list fun d hd => ?_
    obtain ⟨a, ha, rfl⟩ := List.mem_map.mp hd
    exact (h a ha).reads
  decodes := decodeList_map h

instance [Faithful α height] : Faithful (List α) (height + 1) where
  comesBack _ := .list fun a _ => Faithful.comesBack a

/-- The member of a record that holds a value of a faithful type. -/
theorem fits_field [Faithful α height] {most : Nat} (hmost : height ≤ most) (name : String)
    (a : α) : (field α name).Fits most (name, Form.encode a) :=
  ⟨rfl, (Faithful.comesBack a).reads.mono hmost⟩

/-! ## Layer B: values without parts -/

instance : Faithful String 0 where
  comesBack s := ⟨.single (.text s) (.text s), rfl⟩

instance : Faithful Bool 0 where
  comesBack b := ⟨.single (.flag b) (.flag b), rfl⟩

/-- An identifier fits into the range of numbers that are kept as they are. -/
theorem plain_ident (i : Ident) : Plain (Form.encode i) := by
  have hlow := i.le_toInt
  have hhigh := i.toInt_lt
  exact .whole (by omega) (by omega)

theorem holds_ident (i : Ident) :
    Single.Holds (.whole (-0x8000000000000000) 0x7FFFFFFFFFFFFFFF) (Form.encode i) := by
  have hlow := i.le_toInt
  have hhigh := i.toInt_lt
  exact .whole (by omega) (by omega)

instance : Faithful Ident 0 where
  comesBack i := ⟨.single (plain_ident i) (holds_ident i), Ident.ofInt?_toInt i⟩

theorem wordOfInt?_toNat (n : UInt64) : wordOfInt? n.toNat = some n := by
  have hhigh := n.toNat_lt
  rw [wordOfInt?, if_pos (by omega), Int.toNat_natCast, UInt64.ofNat_toNat]

instance : Faithful UInt64 0 where
  comesBack n := by
    have hhigh := n.toNat_lt
    exact ⟨.single (.whole (by omega) (by omega)) (.whole (by omega) (by omega)),
      wordOfInt?_toNat n⟩

/-- Values are read back as words if every word stands for one value only. -/
theorem faithful_of_ofWord? {ω : Type} [Vocabulary ω]
    (h : ∀ v : ω, Vocabulary.ofWord? (Vocabulary.word v) = some v) : Faithful ω 0 where
  comesBack v :=
    have hword := List.mem_map_of_mem (List.mem_of_find?_eq_some (h v))
    ⟨.single (.text _) (.word hword), h v⟩

instance : Faithful Logic 0 := faithful_of_ofWord? fun v => by cases v <;> rfl

instance : Faithful Subject 0 := faithful_of_ofWord? fun v => by cases v <;> rfl

instance : Faithful Comparison 0 := faithful_of_ofWord? fun v => by cases v <;> rfl

instance : Faithful Part 0 := faithful_of_ofWord? fun v => by cases v <;> rfl

/-! ## Layer C: rules and summaries -/

/-- The decoder of a record goes on with the value of a member. -/
theorem decode_encode_bind [Faithful α height] {β : Type} (a : α) (f : α → Option β) :
    (Form.decode (Form.encode a) >>= f) = f a := by
  rw [(Faithful.comesBack a).decodes]
  rfl

instance : Faithful Condition 1 where
  comesBack c := {
    reads := .record
      (.cons (fits_field (Nat.le_refl 0) "id" c.id) <|
        .cons (fits_field (Nat.le_refl 0) "rule_id" c.rule) <|
        .cons (fits_field (Nat.le_refl 0) "field" c.subject) <|
        .cons (fits_field (Nat.le_refl 0) "operator" c.comparison) <|
        .cons (fits_field (Nat.le_refl 0) "value" c.literal) .nil)
      (by simp)
    decodes :=
      (decode_encode_bind c.id _).trans <|
        (decode_encode_bind c.rule _).trans <|
        (decode_encode_bind c.subject _).trans <|
        (decode_encode_bind c.comparison _).trans <|
        decode_encode_bind c.literal _ }

instance : Faithful Action 1 where
  comesBack a := {
    reads := .record
      (.cons (fits_field (Nat.le_refl 0) "id" a.id) <|
        .cons (fits_field (Nat.le_refl 0) "rule_id" a.rule) <|
        .cons (fits_field (Nat.le_refl 0) "field" a.part) <|
        .cons (fits_field (Nat.le_refl 0) "value" a.literal) .nil)
      (by simp)
    decodes :=
      (decode_encode_bind a.id _).trans <|
        (decode_encode_bind a.rule _).trans <|
        (decode_encode_bind a.part _).trans <|
        decode_encode_bind a.literal _ }

instance : Faithful Modified 2 where
  comesBack m := {
    reads := .record
      (.cons (fits_field (by decide) "transaction_id" m.transaction) <|
        .cons (fits_field (by decide) "applied_rule_ids" m.rules) <|
        .cons (fits_field (by decide) "updated_field_kinds" m.parts) .nil)
      (by simp)
    decodes :=
      (decode_encode_bind m.transaction _).trans <|
        (decode_encode_bind m.rules _).trans <|
        decode_encode_bind m.parts _ }

instance : Faithful Skipped 1 where
  comesBack s := {
    reads := .record
      (.cons (fits_field (Nat.le_refl 0) "transaction_id" s.transaction) <|
        .cons (fits_field (Nat.le_refl 0) "reason" s.reason) .nil)
      (by simp)
    decodes :=
      (decode_encode_bind s.transaction _).trans <|
        decode_encode_bind s.reason _ }

instance : Faithful Summary 4 where
  comesBack s := {
    reads := .record
      (.cons (fits_field (Nat.le_refl 3) "modified" s.modified) <|
        .cons (fits_field (by decide) "skipped" s.skipped) <|
        .cons (fits_field (by decide) "total_rules" s.totalRules) <|
        .cons (fits_field (by decide) "processed_txns" s.processed) <|
        .cons (fits_field (by decide) "cancelled" s.cancelled) .nil)
      (by simp)
    decodes :=
      (decode_encode_bind s.modified _).trans <|
        (decode_encode_bind s.skipped _).trans <|
        (decode_encode_bind s.totalRules _).trans <|
        (decode_encode_bind s.processed _).trans <|
        decode_encode_bind s.cancelled _ }

/-- The decoder of a record goes on with a text that may be missing. -/
theorem decodeOption_encodeOption_bind {β : Type} (o : Option String)
    (f : Option String → Option β) : (decodeOption (encodeOption o) >>= f) = f o := by
  cases o <;> rfl

theorem fits_ident (name : String) (i : Ident) :
    MergedField.Fits ⟨name, false, .whole (-0x8000000000000000) 0x7FFFFFFFFFFFFFFF⟩
      (name, Form.encode i) :=
  ⟨rfl, plain_ident i, .inl (holds_ident i)⟩

/-- A member with a regular instant fits; others would be read as something else. -/
theorem fits_moment (name : String) {t : Instant} (ht : t.Regular) :
    MergedField.Fits ⟨name, false, .moment⟩ (name, Form.encode t) :=
  ⟨rfl, .moment t, .inl (.moment ht)⟩

theorem fits_description (o : Option String) :
    MergedField.Fits ⟨"description", true, .text⟩ ("description", encodeOption o) := by
  cases o with
  | none => exact ⟨rfl, .null, .inr ⟨rfl, rfl⟩⟩
  | some s => exact ⟨rfl, .text s, .inl (.text s)⟩

theorem fits_logic (l : Logic) :
    MergedField.Fits ⟨"condition_logic", false, .word (wordsOf Logic)⟩
      ("condition_logic", Form.encode l) :=
  ⟨rfl, .text _, .inl (.word (by cases l <;> decide))⟩

/-- The members of a regular rule fit wherever they are merged with others. -/
theorem forall₂_members {r : Rule} (hfirst : r.effectiveFrom.Regular)
    (hcreated : r.createdAt.Regular) :
    List.Forall₂ MergedField.Fits Rule.mergedFields r.members :=
  -- The members come in the order in which the merged record declares them.
  .cons (fits_ident "id" r.id) <|
    .cons (fits_ident "user_id" r.user) <|
    .cons ⟨rfl, .text r.name, .inl (.text r.name)⟩ <|
    .cons (fits_description r.description) <|
    .cons (fits_moment "effective_from" hfirst) <|
    .cons (fits_logic r.logic) <|
    .cons (fits_moment "created_at" hcreated) .nil

/-- The keys of a rule are distinct from each other and from those of the two lists beside it. -/
theorem nodup_completeRule (r : CompleteRule) :
    ((r.rule.members ++ [("conditions", Form.encode r.conditions),
      ("actions", Form.encode r.actions)]).map Prod.fst).Nodup := by
  simp [Rule.members]

/-- **A regular rule comes back**, and its conditions and actions with it. -/
theorem comesBack_of_regular {r : CompleteRule} (h : r.Regular) : ComesBack 3 r where
  reads := .merged (forall₂_members h.1 h.2)
    (.cons (fits_field (Nat.le_refl 2) "conditions" r.conditions) <|
      .cons (fits_field (Nat.le_refl 2) "actions" r.actions) .nil)
    (nodup_completeRule r)
  decodes :=
    -- A datum that is a moment stands for it, regular or not.
    have hmoment {β : Type} (t : Instant) (f : Instant → Option β) :
        (Form.decode (Form.encode t) >>= f) = f t := rfl
    (decode_encode_bind r.rule.id _).trans <|
      (decode_encode_bind r.rule.user _).trans <|
      (decode_encode_bind r.rule.name _).trans <|
      (decodeOption_encodeOption_bind r.rule.description _).trans <|
      (hmoment r.rule.effectiveFrom _).trans <|
      (decode_encode_bind r.rule.logic _).trans <|
      (hmoment r.rule.createdAt _).trans <|
      (decode_encode_bind r.conditions _).trans <|
      decode_encode_bind r.actions _

/-! ## Layer D: rules that are written alike -/

/-- Two values with the same text, wherever it stands. -/
def WrittenAlike (a b : α) : Prop :=
  ∀ layout depth, writeAt layout depth (Form.encode a) = writeAt layout depth (Form.encode b)

theorem WrittenAlike.print_eq {a b : α} (h : WrittenAlike a b) (layout : Layout) :
    print layout a = print layout b :=
  congrArg String.ofList (h layout 0)

/-- Lists are written alike if their elements are, one by one. -/
theorem WrittenAlike.list {f : α → α} (h : ∀ a, WrittenAlike (f a) a) (as : List α) :
    WrittenAlike (as.map f) as := by
  intro layout depth
  have hitems : ∀ as : List α, writeItems layout depth ((as.map f).map Form.encode) =
      writeItems layout depth (as.map Form.encode) := by
    intro as
    induction as with
    | nil => rfl
    | cons a as ih =>
      simp only [List.map_cons, writeItems]
      rw [h a, ih]
  -- Only the first element has no comma before it.
  cases as with
  | nil => rfl
  | cons a as =>
    show writeAt layout depth (.list ((f a :: as.map f).map Form.encode)) =
      writeAt layout depth (.list ((a :: as).map Form.encode))
    simp only [List.map_cons, writeAt]
    rw [h a, hitems as]

/-- An instant and the regular one that is written like it have the same text. -/
theorem writtenAlike_moment (t : Instant) : WrittenAlike t.written t := by
  intro layout depth
  show writeSingle (.moment t.written) = writeSingle (.moment t)
  rw [writeSingle, Calendar.rfc3339Text_written, writeSingle]

/-- **A rule is written like the one with regular instants.** -/
theorem writtenAlike_rule (r : CompleteRule) : WrittenAlike r.written r := by
  intro layout depth
  show writeAt layout depth (.record (r.written.rule.members ++ _)) =
    writeAt layout depth (.record (r.rule.members ++ _))
  simp only [Rule.members, List.cons_append, List.nil_append, writeAt, writeMembers]
  -- Two members differ, and they are moments.
  simp only [CompleteRule.written, writtenAlike_moment r.rule.effectiveFrom layout,
    writtenAlike_moment r.rule.createdAt layout]

/-! ## Layer E: whole texts -/

/-- Spaces may stand after a value, and then there is nothing more. -/
theorem finish_gap {gap : List Char} (hgap : IsGap gap) : finish gap = .ok ((), []) := by
  have hspaces : spaces (gap ++ []) = .ok ((), []) := spaces_append hgap (by rintro _ ⟨⟩)
  rw [List.append_nil] at hspaces
  rw [finish, bind_eq hspaces]
  rfl

/-- **What is written is read back**, spaces after it aside, as long as its lists and records are
not too deep. -/
theorem ComesBack.parse_print_append {a : α} (h : ComesBack height a)
    (hheight : height ≤ depthLimit) (layout : Layout) {gap : List Char} (hgap : IsGap gap) :
    parse α (print layout a ++ String.ofList gap) = .ok a := by
  -- What comes after the value cannot go on with it, even if it is a number.
  have hend : Apart (gap ++ []) := .gap_append hgap (by rintro _ ⟨⟩)
  rw [List.append_nil] at hend
  have hread := h.reads.reads layout 0 hheight isGap_nil hend
  have htext : (print layout a ++ String.ofList gap).toList =
      [] ++ (writeAt layout 0 (Form.encode a) ++ gap) := by
    rw [String.toList_append, print, write, String.toList_ofList, String.toList_ofList,
      List.nil_append]
  have hwhole : readWhole (Form.shape α) (print layout a ++ String.ofList gap) =
      .ok (Form.encode a) := by
    rw [readWhole, htext, bind_eq hread, bind_eq (finish_gap hgap)]
    rfl
  rw [parse, hwhole]
  simp only [h.decodes]

theorem ComesBack.parse_print {a : α} (h : ComesBack height a) (hheight : height ≤ depthLimit)
    (layout : Layout) : parse α (print layout a) = .ok a := by
  have hparse := h.parse_print_append hheight layout isGap_nil
  rwa [String.ofList_nil, String.append_empty] at hparse

/-- The text that is printed ends with a line break, which is no part of the value. -/
theorem ComesBack.parse_jsonText {a : α} (h : ComesBack height a)
    (hheight : height ≤ depthLimit) : parse α (CommandLine.Invocation.jsonText a) = .ok a := by
  have hgap : IsGap ['\n'] := by simp [IsGap, isSpace]
  exact h.parse_print_append hheight .indented hgap

/-- A rule is read back from the layouts with regular instants. -/
theorem parse_print_rule (layout : Layout) (r : CompleteRule) :
    parse CompleteRule (print layout r) = .ok r.written := by
  have hback : ComesBack 3 r.written := comesBack_of_regular r.regular_written
  rw [← (writtenAlike_rule r).print_eq layout]
  exact hback.parse_print (by decide) layout

theorem parse_jsonText_rule (r : CompleteRule) :
    parse CompleteRule (CommandLine.Invocation.jsonText r) = .ok r.written := by
  have hback : ComesBack 3 r.written := comesBack_of_regular r.regular_written
  have hprint := (writtenAlike_rule r).print_eq .indented
  rw [CommandLine.Invocation.jsonText, ← hprint]
  exact hback.parse_jsonText (by decide)

theorem parse_jsonText_rules (rules : List CompleteRule) :
    parse (List CompleteRule) (CommandLine.Invocation.jsonText rules) =
      .ok (rules.map (·.written)) := by
  -- Each element of the list has regular instants.
  have hback : ComesBack 4 (rules.map (·.written)) := by
    refine .list fun r hr => ?_
    obtain ⟨r, -, rfl⟩ := List.mem_map.mp hr
    exact comesBack_of_regular r.regular_written
  have hprint := (WrittenAlike.list writtenAlike_rule rules).print_eq .indented
  rw [CommandLine.Invocation.jsonText, ← hprint]
  exact hback.parse_jsonText (by decide)

/-- **JSON output reads back.** The summary of a run is read back from the compact and from the
    indented text and from the text that is printed. A rule with its conditions and actions is read
    back from these texts with the instants that are written like its own, and a list of such rules
    from the text that is printed; so exactly those rules come back as they are whose two instants
    are regular. In the form of a rule with its conditions and actions no key comes twice, and each
    member of the rule is found under its own key beside the conditions and the actions. -/
theorem json_output_reads_back (r : CompleteRule) (s : Summary) :
    (∀ layout, parse CompleteRule (print layout r) = .ok r.written ∧
        parse Summary (print layout s) = .ok s) ∧
      (parse CompleteRule (CommandLine.Invocation.jsonText r) = .ok r.written ∧
        parse Summary (CommandLine.Invocation.jsonText s) = .ok s ∧
        ∀ rules : List CompleteRule,
          parse (List CompleteRule) (CommandLine.Invocation.jsonText rules) =
            .ok (rules.map (·.written))) ∧
      (r.written = r ↔ r.rule.effectiveFrom.Regular ∧ r.rule.createdAt.Regular) ∧
      ∃ members, Form.encode r = .record members ∧ (members.map Prod.fst).Nodup ∧
        (∀ m ∈ r.rule.members, members.lookup m.1 = some m.2) ∧
        members.lookup "conditions" = some (Form.encode r.conditions) ∧
        members.lookup "actions" = some (Form.encode r.actions) := by
  have hlimit : 4 ≤ depthLimit := by decide
  have hsummary : ComesBack 4 s := Faithful.comesBack s
  refine ⟨fun layout => ⟨parse_print_rule layout r, hsummary.parse_print hlimit layout⟩,
    ⟨parse_jsonText_rule r, hsummary.parse_jsonText hlimit, parse_jsonText_rules⟩,
    CompleteRule.written_eq_self_iff, ?_⟩
  -- With distinct keys a member is found if it is there.
  have hdistinct := nodup_completeRule r
  refine ⟨_, rfl, hdistinct, fun m hm => ?_, ?_, ?_⟩
  · exact lookup_eq_some_of_mem hdistinct (List.mem_append_left _ hm)
  · exact lookup_eq_some_of_mem hdistinct (List.mem_append_right _ (by simp))
  · exact lookup_eq_some_of_mem hdistinct (List.mem_append_right _ (by simp))

/-- A rule whose first moment lies in a leap second within a minute. -/
def straying : CompleteRule :=
  ⟨⟨1, 1, "Streams", none, Instant.withinMinute, .and, Instant.midnight Date.epoch⟩, [], []⟩

/-- Such a rule is read back from its text, but not as itself. -/
theorem rule_within_minute_does_not_come_back :
    ∃ r, parse CompleteRule (print .compact straying) = .ok r ∧
      parse CompleteRule (CommandLine.Invocation.jsonText straying) = .ok r ∧ r ≠ straying :=
  ⟨straying.written, parse_print_rule .compact straying, parse_jsonText_rule straying, by decide⟩

end Json

end LedgerRules
