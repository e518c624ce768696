import LedgerRules.Proofs.Run.Operations

/-!
# Rules and older transactions

A rule has a first moment, and the engine leaves alone every transaction that is dated before it.
Both are compared as the ledger gives them back, and the ledger keeps instants to the second. What
can be said of the instants that were handed to it is therefore less than is promised: a rule never
touches a transaction of an earlier second, but it may touch an earlier one of its own second.

What a run knows about a rule or a transaction it has read some calls earlier, and others may have
written since. But no write changes the first moment of a rule or the date of a transaction, so what
was read once is true for good.

## Overview

- **Layer A**: seconds.
- **Layer B**: what a run can know about rules and transactions.
- **Layer C**: what a step learns, whoever else writes.
- **Layer D**: what each step of a run learns.
- **Layer E**: the theorem, and the fraction of a second that it leaves open.
-/

namespace LedgerRules

/-! ## Layer A: seconds -/

/-- What is kept of two instants orders the second of the first and the second instant, if that is
    regular. -/
theorem Instant.wholeSecond_le_of_recorded_le {s t : Instant} (h : s.recorded ≤ t.recorded)
    (ht : t.Regular) : s.wholeSecond ≤ t := by
  rw [recorded_of_regular ht] at h
  -- The second of `s` has begun when what is kept of it is reached, and that is in `t`'s second.
  exact Int.le_trans s.wholeSecond_le_recorded (Int.le_trans h t.wholeSecond_le)

/-! ## Layer B: what a run can know -/

namespace Ledger

/-- The first moment of a rule is what its row says. -/
def Knows (rule : Rule) (l : Ledger) : Prop :=
  ∃ row, l.rules.get? rule.id = some row ∧ readDate 4 row.effectiveFrom = .ok rule.effectiveFrom

/-- The date of a transaction is what its row says. -/
def Dates (t : Transaction) (l : Ledger) : Prop :=
  ∃ row, l.transactions.get? t.id = some row ∧ readDate 6 row.date = .ok t.date

/-- A rule whose first moment is not after the date of a transaction. -/
def Gated (rule id : Ident) (l : Ledger) : Prop :=
  ∃ ruleRow row first date, l.rules.get? rule = some ruleRow ∧
    readDate 4 ruleRow.effectiveFrom = .ok first ∧ l.transactions.get? id = some row ∧
    readDate 6 row.date = .ok date ∧ first ≤ date

/-- A ledger operation leaves the rules that are there as they are. -/
theorem lasting_knows (rule : Rule) : Lasting (Knows rule) := by
  rintro w l l' ⟨row, hrow, hread⟩ h
  -- No operation changes a rule, so the row that was read is the row that is there.
  exact ⟨row, (Wrote.of_run h).rule? hrow, hread⟩

/-- A ledger operation may alter a transaction, but not its date. -/
theorem lasting_dates (t : Transaction) : Lasting (Dates t) := by
  rintro w l l' ⟨row, hrow, hread⟩ h
  obtain ⟨row', hrow', hhead⟩ := (Wrote.of_run h).transaction? hrow
  -- The row may be another by now; its head, and with it the date, is the same.
  exact ⟨row', hrow', hhead.date ▸ hread⟩

/-- What is gated stays so: the two moments that are compared are never rewritten. -/
theorem lasting_gated (rule id : Ident) : Lasting (Gated rule id) := by
  rintro w l l' ⟨ruleRow, row, first, date, hrule, hfirst, hrow, hdate, hle⟩ h
  obtain ⟨row', hrow', hhead⟩ := (Wrote.of_run h).transaction? hrow
  exact ⟨ruleRow, row', first, date, (Wrote.of_run h).rule? hrule, hfirst, hrow',
    hhead.date ▸ hdate, hle⟩

variable {l : Ledger} {now : Instant} {id user : Ident}

/-- Reading a row into a rule takes over the first moment as the row has it. -/
theorem knows_of_readRule {row : RuleRow} {rule : Rule} (hrow : l.rules.get? id = some row)
    (h : readRule now id row = .ok rule) : l.Knows rule := by
  -- The three reads that can fail are those of the creation date, the first moment and the logic.
  obtain ⟨createdAt, -, h⟩ := bind_eq_ok_iff.mp h
  obtain ⟨first, hfirst, h⟩ := bind_eq_ok_iff.mp h
  obtain ⟨logic, -, h⟩ := bind_eq_ok_iff.mp h
  cases h
  exact ⟨row, hrow, hfirst⟩

/-- Reading a row into a transaction takes over identifier and date. -/
theorem dates_of_readTransaction {row : TransactionRow} {t : Transaction}
    (hrow : l.transactions.get? id = some row) (h : readTransaction now id row = .ok t) :
    t.id = id ∧ l.Dates t := by
  obtain ⟨createdAt, -, h⟩ := bind_eq_ok_iff.mp h
  obtain ⟨date, hdate, h⟩ := bind_eq_ok_iff.mp h
  cases h
  exact ⟨rfl, row, hrow, hdate⟩

/-- A rule that was looked up is known. -/
theorem knows_of_rule? {rule : Rule} (h : l.rule? now id user = .ok (some rule)) :
    l.Knows rule := by
  obtain ⟨row, hrow, -, hread⟩ := exists_row_of_readOwned h
  exact knows_of_readRule hrow hread

/-- So are all rules that were listed. -/
theorem knows_of_rulesOf {rules : List Rule} (h : l.rulesOf now user = .ok rules) :
    ∀ rule ∈ rules, l.Knows rule := by
  intro rule hrule
  obtain ⟨e, he, hread⟩ := exists_of_mem_mapM h hrule
  exact knows_of_readRule (Table.get?_eq_some_iff.mpr (List.mem_filter.mp he).1) hread

/-- A transaction that was looked up is dated, and it is the one that was asked for. -/
theorem dates_of_transaction? {t : Transaction} (h : l.transaction? now id user = .ok (some t)) :
    t.id = id ∧ l.Dates t := by
  obtain ⟨row, hrow, -, hread⟩ := exists_row_of_readOwned h
  exact dates_of_readTransaction hrow hread

/-- The transactions of a page are dated. -/
theorem dates_of_page {number size : UInt64} {order : ListOrder} {ts : List Transaction}
    (h : l.page now user number size order = .ok ts) : ∀ t ∈ ts, l.Dates t := by
  intro t ht
  obtain ⟨e, he, hread⟩ := exists_of_mem_mapM h ht
  have howned :=
    ownedTransaction?_eq_some_iff.mp (mem_orderedRows_iff.mp (Window.mem_of_mem_cut he))
  exact (dates_of_readTransaction howned.1 hread).2

/-- A rule that the engine lets touch a transaction is gated. -/
theorem gated_of_evaluate {engine : Engine} {t : Transaction} {cs : Changeset}
    (hrules : ∀ r ∈ engine.rules, l.Knows r.rule) (ht : l.Dates t)
    (hcs : engine.evaluate t = some cs) : ∀ rule ∈ cs.rules, l.Gated rule cs.transaction := by
  intro rule hrule
  obtain ⟨r, hr, rfl, happlies⟩ := Engine.rule_of_evaluate hcs hrule
  -- Known, dated and applicable: the last of these is the comparison of the two moments.
  obtain ⟨ruleRow, hrow, hfirst⟩ := hrules r hr
  obtain ⟨row, ht, hdate⟩ := ht
  rw [Engine.transaction_of_evaluate hcs]
  exact ⟨ruleRow, row, _, _, hrow, hfirst, ht, hdate, happlies.1⟩

end Ledger

/-! ## Layer C: what a step learns -/

namespace Run

variable {α β : Type} {P : Ledger → Prop} {Q : α → Ledger → Prop} {R : β → Ledger → Prop}

/-- A step that starts where something holds of the ledger, and leaves it so; and if it yields a
    value, then something holds of that value and the ledger. -/
def Learns (P : Ledger → Prop) (x : Run α) (Q : α → Ledger → Prop) : Prop :=
  ∀ w : World, P w.ledger →
    match x w with
    | .ok a w' => P w'.ledger ∧ Q a w'.ledger
    | .error _ w' => P w'.ledger

namespace Learns

/-- What a step has learnt when it has yielded a value. -/
theorem of_ok {x : Run α} (hx : Learns P x Q) {w w' : World} {a : α} (hrun : x w = .ok a w')
    (hw : P w.ledger) : P w'.ledger ∧ Q a w'.ledger := by
  have hresult := hx w hw
  rw [hrun] at hresult
  exact hresult

/-- A value that is at hand teaches what follows from what is known already. -/
theorem pure {a : α} (h : ∀ l, P l → Q a l) : Learns P (Pure.pure a : Run α) Q :=
  fun w hw => ⟨hw, h w.ledger hw⟩

/-- A step that fails yields no value, so it teaches anything. -/
theorem fail (e : LedgerError) : Learns P (Run.fail e : Run α) Q := fun _ hw => hw

/-- Looking at the stop flag teaches nothing, and changes nothing. -/
theorem cancelled : Learns P Run.cancelled fun _ _ => True := fun _ hw => ⟨hw, trivial⟩

/-- What was learnt may be weakened by what is known. -/
theorem imp {x : Run α} {Q' : α → Ledger → Prop} (hx : Learns P x Q)
    (h : ∀ a l, P l → Q a l → Q' a l) : Learns P x Q' := by
  intro w hw
  have hresult := hx w hw
  cases hrun : x w with
  | ok a w' =>
    rw [hrun] at hresult
    exact ⟨hresult.1, h a w'.ledger hresult.1 hresult.2⟩
  | error stop w' =>
    rw [hrun] at hresult
    exact hresult

/-- What the first step has learnt the second one can use. -/
theorem bind {x : Run α} {f : α → Run β} (hx : Learns P x Q)
    (hf : ∀ a, Learns (fun l => P l ∧ Q a l) (f a) R) : Learns P (x >>= f) R := by
  intro w hw
  -- The world in between satisfies what the first step left, and that is what the second starts
  -- from.
  have hfirst := hx w hw
  cases hrun : x w with
  | error stop w₁ =>
    rw [hrun] at hfirst
    rw [bind_of_error hrun]
    exact hfirst
  | ok a w₁ =>
    rw [hrun] at hfirst
    rw [bind_of_ok hrun]
    have hsecond := hf a w₁ hfirst
    cases hrun' : f a w₁ with
    | ok b w₂ =>
      rw [hrun'] at hsecond
      exact ⟨hsecond.1.1, hsecond.2⟩
    | error stop w₂ =>
      rw [hrun'] at hsecond
      exact hsecond.1

/-- A failure that is taken as a result teaches nothing. -/
theorem attempt {x : Run α} (hx : Learns P x Q) :
    Learns P (Run.attempt x) fun result l => ∀ a, result = .ok a → Q a l := by
  intro w hw
  have hresult := hx w hw
  -- Only a crash goes on as an error; the other failure has become a result.
  unfold Run.attempt
  rcases hrun : x w with ⟨a, w'⟩ | ⟨e | _, w'⟩
  · rw [hrun] at hresult
    refine ⟨hresult.1, ?_⟩
    rintro b ⟨⟩
    exact hresult.2
  · rw [hrun] at hresult
    refine ⟨hresult, ?_⟩
    rintro b ⟨⟩
  · rw [hrun] at hresult
    exact hresult

/-- A call learns what its answer says of the ledger in which it is answered. -/
theorem perform {σ : Schedule} (hσ : σ.ThroughStore) {now : Instant} (hP : Ledger.Lasting P)
    {c : Call} {Q : c.Answer → Ledger → Prop}
    (h : ∀ l a l', c.serve now l = .ok (a, l') → Q a l') :
    Learns P (Run.perform ⟨now, σ⟩ c) Q := by
  intro w hw
  have hkept := hP.perform hσ now c w hw
  -- What lasts survives the writes of the others before the call; the fate decides what is added.
  simp only [Run.perform] at hkept ⊢
  cases hfate : (σ w.events c).fate with
  | served =>
    simp only [hfate] at hkept ⊢
    cases hserve : c.serve now ((σ w.events c).writes w.ledger) with
    | ok answer =>
      rw [hserve] at hkept
      exact ⟨hkept, h _ _ _ hserve⟩
    | error e =>
      rw [hserve] at hkept
      exact hkept
  | refused e =>
    simp only [hfate] at hkept ⊢
    exact hkept
  | crashed =>
    simp only [hfate] at hkept ⊢
    exact hkept

/-- A call whose answer does not matter. -/
theorem ask {σ : Schedule} (hσ : σ.ThroughStore) {now : Instant} (hP : Ledger.Lasting P)
    (c : Call) : Learns P (Run.perform ⟨now, σ⟩ c) fun _ _ => True :=
  perform hσ hP fun _ _ _ _ => trivial

end Learns

/-! ## Layer D: what a run learns -/

/-- All reports of a summary are of rules and transactions that are gated. -/
def Told (s : Summary) (l : Ledger) : Prop :=
  ∀ m ∈ s.modified, ∀ rule ∈ m.rules, l.Gated rule m.transaction

/-- What is reported stays gated, however others write on. -/
theorem lasting_told (s : Summary) : Ledger.Lasting (Told s) :=
  .all fun m _ => .all fun rule _ => Ledger.lasting_gated rule m.transaction

section

variable {σ : Schedule} (hσ : σ.ThroughStore) (now : Instant) (user : Ident)
include hσ

/-- The rules that were looked up one by one are known, although others write between the
    lookups. -/
theorem learns_namedRules (ids : List Ident) (hP : Ledger.Lasting P) :
    Learns P (namedRules ⟨now, σ⟩ user ids) fun rules l => ∀ rule ∈ rules, l.Knows rule := by
  -- On the identifiers that are left; what the earlier lookups have learnt lasts.
  induction ids generalizing P with
  | nil => exact .pure fun l _ rule hrule => nomatch hrule
  | cons id ids ih =>
    have hfirst : Learns P (perform ⟨now, σ⟩ (.rule id user)) fun found l =>
        ∀ rule, found = some rule → l.Knows rule := by
      apply Learns.perform hσ hP
      rintro l found l' hserve rule rfl
      obtain ⟨_, hfound, heq⟩ := map_eq_ok_iff.mp hserve
      cases heq
      exact Ledger.knows_of_rule? hfound
    refine hfirst.bind fun found => ?_
    refine (ih (hP.and (.all fun rule _ => Ledger.lasting_knows rule))).bind fun rules => ?_
    refine .pure fun l hl rule hrule => ?_
    rcases List.mem_append.mp hrule with hrule | hrule
    · exact hl.1.2 rule (Option.mem_toList.mp hrule)
    · exact hl.2 rule hrule

/-- The rules that were listed are known; those that are not applied are left out. -/
theorem learns_currentRules (hP : Ledger.Lasting P) :
    Learns P (currentRules ⟨now, σ⟩ user) fun rules l => ∀ rule ∈ rules, l.Knows rule := by
  have hread : Learns P (perform ⟨now, σ⟩ (.rules user)) fun rules l =>
      ∀ rule ∈ (rules : List Rule), l.Knows rule := by
    apply Learns.perform hσ hP
    intro l rules l' hserve
    obtain ⟨_, hrules, heq⟩ := map_eq_ok_iff.mp hserve
    cases heq
    exact Ledger.knows_of_rulesOf hrules
  refine hread.bind fun rules => .pure fun l hl rule hrule => ?_
  exact hl.2 rule (List.mem_filter.mp hrule).1

/-- Conditions and actions are added to the rules that are there. -/
theorem learns_complete (rules : List Rule) (hP : Ledger.Lasting P) :
    Learns P (complete ⟨now, σ⟩ rules) fun found _ => found.map (·.rule) = rules := by
  -- On the rules that are left; each costs two calls that teach nothing about it.
  induction rules generalizing P with
  | nil => exact .pure fun l _ => rfl
  | cons rule rules ih =>
    refine (Learns.ask hσ hP _).bind fun conditions => ?_
    have hP₁ := hP.and (.const True)
    refine (Learns.ask hσ hP₁ _).bind fun actions => ?_
    refine (ih (hP₁.and (.const True))).bind fun others => .pure fun l hl => ?_
    rw [List.map_cons, hl.2]

/-- The rules that a run works with are known, whether they were named or listed. -/
theorem learns_workingSet (named : Option (List Ident)) (hP : Ledger.Lasting P) :
    Learns P (workingSet ⟨now, σ⟩ user named) fun rules l => ∀ r ∈ rules, l.Knows r.rule := by
  -- Whichever rules there are, adding to them changes none of them.
  have hcomplete (rules : List Rule) :
      Learns (fun l => P l ∧ ∀ rule ∈ rules, l.Knows rule) (complete ⟨now, σ⟩ rules)
        fun found l => ∀ r ∈ found, l.Knows r.rule := by
    have hP₁ := hP.and (.all fun rule (_ : rule ∈ rules) => Ledger.lasting_knows rule)
    refine (learns_complete hσ now rules hP₁).imp fun found l hl hfound r hr => ?_
    exact hl.2 r.rule (hfound ▸ List.mem_map_of_mem hr)
  cases named with
  | some ids => exact (learns_namedRules hσ now user ids.eraseDups hP).bind hcomplete
  | none => exact (learns_currentRules hσ now user hP).bind hcomplete

/-- The engine is made of the rules that were found, whatever else is read for it. -/
theorem learns_engineFor (rules : List CompleteRule) (hP : Ledger.Lasting P) :
    Learns P (engineFor ⟨now, σ⟩ user rules) fun engine _ => engine.rules = rules := by
  refine (Learns.ask hσ hP _).bind fun categories => ?_
  -- Whether the accounts are read or not, the rules are the given ones.
  dsimp only
  split
  · exact (Learns.ask hσ (hP.and (.const True)) _).bind fun accounts => .pure fun _ _ => rfl
  · exact .pure fun _ _ => rfl

/-- What is reported of a changeset that was written names its transaction and its rules. -/
theorem learns_apply (settings : Settings) (cs : Changeset) (hP : Ledger.Lasting P) :
    Learns P (apply ⟨now, σ⟩ settings user cs) fun result _ =>
      ∀ m, result = some m → m.transaction = cs.transaction ∧ m.rules = cs.rules := by
  refine (Learns.ask hσ hP _).bind fun live => ?_
  have hP₁ := hP.and (.const True)
  -- Without the live transaction the step fails, with it the answer of the link call is not used.
  cases live with
  | none => exact .fail _
  | some live =>
    have hlink : Learns (fun l => P l ∧ True) (transferToLink ⟨now, σ⟩ settings user cs)
        fun _ _ => True := by
      unfold transferToLink
      split
      · exact .pure fun _ _ => trivial
      · split
        · exact (Learns.ask hσ hP₁ _).bind fun linked => .pure fun _ _ => trivial
        · exact .pure fun _ _ => trivial
    refine hlink.bind fun transfer => ?_
    simp only
    split
    · exact .pure fun _ _ _ h => nomatch h
    · refine (Learns.ask hσ (hP₁.and (.const True)) _).bind fun _ => .pure fun l _ m hm => ?_
      cases hm
      exact ⟨rfl, rfl⟩

variable (settings : Settings) {engine : Engine}

/-- **One transaction** that was read, evaluated by rules that were read. -/
theorem learns_process {s : Summary} {t : Transaction} (hP : Ledger.Lasting P)
    (hrules : ∀ l, P l → ∀ r ∈ engine.rules, l.Knows r.rule) (ht : ∀ l, P l → l.Dates t)
    (hs : ∀ l, P l → Told s l) : Learns P (process ⟨now, σ⟩ settings user engine s t) Told := by
  unfold process
  -- Without a changeset nothing is added to the summary; with one, at most the report of its write.
  cases hcs : engine.evaluate t with
  | none => exact .pure fun l hl => hs l hl
  | some cs =>
    refine (learns_apply hσ now user settings cs hP).attempt.bind fun result => ?_
    rcases result with e | _ | modified
    · exact .pure fun l hl => hs l hl.1
    · exact .pure fun l hl => hs l hl.1
    · refine .pure fun l hl m hm rule hrule => ?_
      rcases List.mem_append.mp hm with hm | hm
      · exact hs l hl.1 m hm rule hrule
      · -- The new report is of the changeset that the engine has staged.
        obtain rfl := List.mem_singleton.mp hm
        obtain ⟨htransaction, hrules'⟩ := hl.2 (some m) rfl m rfl
        rw [htransaction]
        rw [hrules'] at hrule
        exact Ledger.gated_of_evaluate (hrules l hl.1) (ht l hl.1) hcs rule hrule

/-- **One page**, transaction after transaction; what has been told lasts while the next is
    written. -/
theorem learns_processAll {s : Summary} {ts : List Transaction} (hP : Ledger.Lasting P)
    (hrules : ∀ l, P l → ∀ r ∈ engine.rules, l.Knows r.rule)
    (hts : ∀ l, P l → ∀ t ∈ ts, l.Dates t) (hs : ∀ l, P l → Told s l) :
    Learns P (processAll ⟨now, σ⟩ settings user engine s ts) Told := by
  -- On the transactions that are left, with the summary so far added to what lasts.
  induction ts generalizing P s with
  | nil => exact .pure fun l hl => hs l hl
  | cons t ts ih =>
    have hfirst := learns_process hσ now user settings hP hrules
      (fun l hl => hts l hl t List.mem_cons_self) hs
    refine hfirst.bind fun s' => ih (hP.and (lasting_told s')) ?_ ?_ ?_
    · exact fun l hl => hrules l hl.1
    · exact fun l hl t ht => hts l hl.1 t (List.mem_cons_of_mem _ ht)
    · exact fun l hl => hl.2

/-- A lookup teaches the date of the transaction that it finds. -/
theorem learns_transaction (id : Ident) (hP : Ledger.Lasting P) :
    Learns P (perform ⟨now, σ⟩ (.transaction id user)) fun found l =>
      ∀ t, found = some t → t.id = id ∧ l.Dates t := by
  apply Learns.perform hσ hP
  rintro l found l' hserve t rfl
  obtain ⟨_, hfound, heq⟩ := map_eq_ok_iff.mp hserve
  cases heq
  exact Ledger.dates_of_transaction? hfound

/-- **The named transactions**, each looked up just before it is processed. -/
theorem learns_processNamed {s : Summary} (ids : List Ident) (hP : Ledger.Lasting P)
    (hrules : ∀ l, P l → ∀ r ∈ engine.rules, l.Knows r.rule) (hs : ∀ l, P l → Told s l) :
    Learns P (processNamed ⟨now, σ⟩ settings user engine s ids) Told := by
  -- On the names that are left; a lookup that fails is skipped like one that finds nothing.
  induction ids generalizing P s with
  | nil => exact .pure fun l hl => hs l hl
  | cons id ids ih =>
    refine (learns_transaction hσ now user id hP).attempt.bind fun result => ?_
    have hP₁ := hP.and (.all fun found (_ : result = .ok found) =>
      .all fun t (_ : found = some t) => (Ledger.Lasting.const (t.id = id)).and
        (Ledger.lasting_dates t))
    rcases result with e | _ | t
    · exact .pure fun l hl => hs l hl.1
    · exact ih hP₁ (fun l hl => hrules l hl.1) fun l hl => hs l hl.1
    · have hfirst := learns_process hσ now user settings hP₁ (fun l hl => hrules l hl.1)
        (fun l hl => (hl.2 (some t) rfl t rfl).2) fun l hl => hs l hl.1
      refine hfirst.bind fun s' => ih (hP₁.and (lasting_told s')) ?_ ?_
      · exact fun l hl => hrules l hl.1.1
      · exact fun l hl => hl.2

/-- **The pages** of a full scan. A page is read in one call and processed in many. -/
theorem learns_processPages {s : Summary} (size : UInt64) (left : Nat) (page : UInt64)
    (hP : Ledger.Lasting P) (hrules : ∀ l, P l → ∀ r ∈ engine.rules, l.Knows r.rule)
    (hs : ∀ l, P l → Told s l) :
    Learns P (processPages ⟨now, σ⟩ settings user engine size left page s) Told := by
  -- On the pages that are left; the number of the page is no part of what is learnt.
  induction left generalizing P page s with
  | zero => exact .pure fun l hl => hs l hl
  | succ left ih =>
    refine Learns.cancelled.bind fun stop => ?_
    have hP₁ := hP.and (.const True)
    split
    · exact .pure fun l hl => hs l hl.1
    · have hread : Learns (fun l => P l ∧ True) (perform ⟨now, σ⟩ (.page user page size))
          fun ts l => ∀ t ∈ (ts : List Transaction), l.Dates t := by
        apply Learns.perform hσ hP₁
        intro l ts l' hserve
        obtain ⟨_, hpage, heq⟩ := map_eq_ok_iff.mp hserve
        cases heq
        exact Ledger.dates_of_page hpage
      refine hread.attempt.bind fun result => ?_
      have hP₂ := hP₁.and (.all fun ts (_ : result = .ok ts) =>
        .all fun t (_ : t ∈ ts) => Ledger.lasting_dates t)
      rcases result with e | ts
      · exact .pure fun l hl => hs l hl.1.1
      · have hall := learns_processAll hσ now user settings hP₂ (fun l hl => hrules l hl.1.1)
          (fun l hl => hl.2 ts rfl) fun l hl => hs l hl.1.1
        refine hall.bind fun s' => ?_
        split
        · exact .pure fun l hl => hl.2
        · exact ih (page + 1) (hP₂.and (lasting_told s')) (fun l hl => hrules l hl.1.1.1)
            fun l hl => hl.2

/-- **Whatever a run reports is gated** in the ledger that it leaves behind. -/
theorem learns_execute (request : Request) (hP : Ledger.Lasting P) :
    Learns P (execute ⟨now, σ⟩ settings user request) Told := by
  have hempty (s : Summary) (h : s.modified = []) (l : Ledger) : Told s l := by
    intro m hm
    rw [h] at hm
    cases hm
  -- The set-up calls first: no summary exists yet, so what is told is told of no report.
  refine (learns_workingSet hσ now user request.rules hP).bind fun rules => ?_
  have hP₁ := hP.and (.all fun r (_ : r ∈ rules) => Ledger.lasting_knows r.rule)
  split
  · exact .pure fun l _ => hempty _ rfl l
  · refine (learns_engineFor hσ now user rules hP₁).bind fun engine => ?_
    have hP₂ := hP₁.and (.const (engine.rules = rules))
    have hknown : ∀ l, (P l ∧ ∀ r ∈ rules, l.Knows r.rule) ∧ engine.rules = rules →
        ∀ r ∈ engine.rules, l.Knows r.rule := fun l hl r hr => hl.1.2 r (hl.2 ▸ hr)
    unfold processRequest
    split
    · refine Learns.cancelled.bind fun stop => ?_
      split
      · exact .pure fun l _ => hempty _ rfl l
      · exact learns_processNamed hσ now user settings _ (hP₂.and (.const True))
          (fun l hl => hknown l hl.1) fun l _ => hempty _ rfl l
    · exact learns_processPages hσ now user settings _ _ _ hP₂ hknown fun l _ => hempty _ rfl l

/-- **Whatever a preview shows is gated** in the ledger that it leaves behind. -/
theorem learns_preview (id : Ident) (hP : Ledger.Lasting P) :
    Learns P (preview ⟨now, σ⟩ user id) fun found l => ∀ cs, found = some cs →
      cs.transaction = id ∧ ∀ rule ∈ cs.rules, l.Gated rule cs.transaction := by
  -- A preview is a lookup and the set-up of a run, and then the evaluation alone.
  refine (learns_transaction hσ now user id hP).bind fun found => ?_
  have hP₁ := hP.and (.all fun t (_ : found = some t) =>
    (Ledger.Lasting.const (t.id = id)).and (Ledger.lasting_dates t))
  cases found with
  | none => exact .fail _
  | some t =>
    refine (learns_workingSet hσ now user none hP₁).bind fun rules => ?_
    split
    · exact .pure fun l _ _ h => nomatch h
    · have hP₂ := hP₁.and (.all fun r (_ : r ∈ rules) => Ledger.lasting_knows r.rule)
      refine (learns_engineFor hσ now user rules hP₂).bind fun engine => ?_
      refine .pure fun l hl cs hcs => ?_
      obtain ⟨⟨⟨-, ht⟩, hknown⟩, hrules⟩ := hl
      obtain ⟨hid, hdates⟩ := ht t rfl
      refine ⟨(Engine.transaction_of_evaluate hcs).trans hid, ?_⟩
      exact Ledger.gated_of_evaluate (fun r hr => hknown r (hrules ▸ hr)) hdates hcs

end

end Run

/-! ## Layer E: the theorem -/

namespace Ledger

/-- The row of a rule lasts. -/
theorem lasting_rule (i : Ident) (row : RuleRow) : Lasting fun l => l.rules.get? i = some row :=
  fun _ _ _ hrow h => (Wrote.of_run h).rule? hrow

/-- The date column of a transaction lasts; other columns of its row need not. -/
theorem lasting_date (i : Ident) (date : String) :
    Lasting fun l => ∃ row, l.transactions.get? i = some row ∧ row.date = date := by
  rintro w l l' ⟨row, hrow, hdate⟩ h
  obtain ⟨row', hrow', hhead⟩ := (Wrote.of_run h).transaction? hrow
  exact ⟨row', hrow', hhead.date.trans hdate⟩

variable {l l₁ l₂ l₃ l₄ : Ledger} {rule id : Ident}

/-- What is gated in a ledger was ordered when it was handed to the ledger, as far as this keeps
    instants. -/
theorem recorded_le_of_gated {now₁ now₂ e : Instant} {owner holder : Ident} {name : String}
    {description : Option String} {logic : Logic} {new : NewTransaction}
    (hrule : l₁.createRule now₁ owner name description e logic = .ok (rule, l₂))
    (hnew : l₃.insertTransaction now₂ holder new = .ok (id, l₄)) (hruled : l₂.Precedes l)
    (hbooked : l₄.Precedes l) (h : l.Gated rule id) : e.recorded ≤ new.date.recorded := by
  -- The rows are still there, and they say what they said at first.
  obtain ⟨⟨i, rules⟩, hadd, hrule⟩ := bind_eq_ok_iff.mp hrule
  cases hrule
  have hruleRow := Table.get?_insert? (insert?_of_addRow hadd) rule
  rw [if_pos rfl] at hruleRow
  obtain ⟨row, transactions, ⟨hdate, -, -⟩, hinsert, rfl⟩ := row_of_insertTransaction hnew
  have hrow := Table.get?_insert? hinsert id
  rw [if_pos rfl] at hrow
  obtain ⟨ruleRow, row', first, date, hruleRow', hfirst, hrow', hdate', hle⟩ := h
  have hlater := (lasting_rule rule _).precedes hruleRow hruled
  rw [hruleRow'] at hlater
  cases hlater
  obtain ⟨row'', hrow'', hsame⟩ := (lasting_date id (stamp new.date)).precedes ⟨row, hrow, hdate⟩
    hbooked
  rw [hrow'] at hrow''
  cases hrow''
  rw [readDate_stamp] at hfirst
  rw [hsame, readDate_stamp] at hdate'
  cases hfirst
  cases hdate'
  exact hle

end Ledger

/-- **A rule never touches a transaction of an earlier second.** Let a rule be recorded with its
    first moment and a transaction with its date, in whatever ledgers. Whenever a run, or a preview,
    that ends in a later ledger names the rule for the transaction, what is kept of the first moment
    is not after what is kept of the date; so the second in which the first moment lies has begun by
    that date, if the date is regular. Others may have written by the store in between and during
    the run, calls may have been refused, and the run may have been stopped. -/
theorem rules_leave_earlier_seconds_alone {σ : Schedule} (hσ : σ.ThroughStore)
    {l₁ l₂ l₃ l₄ : Ledger} {now₁ now₂ e : Instant} {owner holder rule id : Ident} {name : String}
    {description : Option String} {logic : Logic} {new : NewTransaction}
    (hrule : l₁.createRule now₁ owner name description e logic = .ok (rule, l₂))
    (hnew : l₃.insertTransaction now₂ holder new = .ok (id, l₄))
    (now : Instant) (settings : Settings) (user : Ident) (l : Ledger) (flag : Option Bool) :
    (∀ request s w, Run.execute ⟨now, σ⟩ settings user request ⟨l, flag, []⟩ = .ok s w →
      l₂.Precedes w.ledger → l₄.Precedes w.ledger →
      ∀ m ∈ s.modified, m.transaction = id → rule ∈ m.rules →
        e.recorded ≤ new.date.recorded ∧ (new.date.Regular → e.wholeSecond ≤ new.date)) ∧
    (∀ cs w, Run.preview ⟨now, σ⟩ user id ⟨l, flag, []⟩ = .ok (some cs) w →
      l₂.Precedes w.ledger → l₄.Precedes w.ledger →
      rule ∈ cs.rules →
        e.recorded ≤ new.date.recorded ∧ (new.date.Regular → e.wholeSecond ≤ new.date)) := by
  have hordered {l' : Ledger} (hruled : l₂.Precedes l') (hbooked : l₄.Precedes l')
      (hgated : l'.Gated rule id) :
      e.recorded ≤ new.date.recorded ∧ (new.date.Regular → e.wholeSecond ≤ new.date) := by
    have hle := Ledger.recorded_le_of_gated hrule hnew hruled hbooked hgated
    exact ⟨hle, Instant.wholeSecond_le_of_recorded_le hle⟩
  constructor
  -- A run: its summary is told, and the report in question is one of its reports.
  · intro request s w hrun hruled hbooked m hm hid hmem
    obtain ⟨-, htold⟩ :=
      (Run.learns_execute hσ now user settings request (.const True)).of_ok hrun trivial
    have hgated := htold m hm rule hmem
    rw [hid] at hgated
    exact hordered hruled hbooked hgated
  -- A preview: the changeset it shows is gated itself.
  · intro cs w hrun hruled hbooked hmem
    obtain ⟨-, hshown⟩ := (Run.learns_preview hσ now user id (.const True)).of_ok hrun trivial
    obtain ⟨hid, hgated⟩ := hshown cs rfl
    have hgated' := hgated rule hmem
    rw [hid] at hgated'
    exact hordered hruled hbooked hgated'

/-! ### The fraction of a second -/

namespace Ledger

/-- A fifth of a second after the small ledger is written. -/
def fifth : Instant := { dawn with nano := 200000000, nano_lt := by decide }

/-- Half a second after the small ledger is written. -/
def half : Instant := { dawn with nano := 500000000, nano_lt := by decide }

/-- A ledger with one account. -/
def checking : Ledger := empty.afterWrites [.createAccount dawn 1 "Checking"]

/-- The transaction to be recorded on it. -/
def netflix : NewTransaction := ⟨1, "Netflix", none, Amount.zero, fifth, []⟩

/-- The ledger with the transaction. -/
def booked : Ledger := checking.afterWrites [.insertTransaction dawn 1 netflix]

/-- The ledger with a rule that begins three tenths of a second after the transaction. -/
def ruled : Ledger := booked.afterWrites [.createRule dawn 1 "Streams" none half .and]

/-- The ledger with the condition and the action of the rule. -/
def sameSecond : Ledger :=
  ruled.afterWrites [.addCondition 1 .name .contains "netflix", .addAction 1 .name "Film"]

/-- The transaction is recorded as the first one. -/
theorem netflix_booked : checking.insertTransaction dawn 1 netflix = .ok (1, booked) := rfl

/-- The rule is recorded as the first one. -/
theorem streams_ruled : booked.createRule dawn 1 "Streams" none half .and = .ok (1, ruled) := rfl

/-- Adding the condition and the action is all that happens after the rule is recorded. -/
theorem ruled_precedes : ruled.Precedes sameSecond := ⟨_, rfl⟩

/-- The transaction is recorded before the rule, so it is there as well. -/
theorem booked_precedes : booked.Precedes sameSecond :=
  (lasting_precedes booked).precedes ⟨_, rfl⟩ ruled_precedes

/-- A run on the ledger reports that the rule has renamed the transaction. -/
theorem exists_execute_sameSecond :
    ∃ s w, Run.execute ⟨dawn, .calm⟩ .standard 1 .all ⟨sameSecond, none, []⟩ = .ok s w ∧
      ⟨1, [1], [.name]⟩ ∈ s.modified := by
  have hreported : (backgroundSummary (Run.execute ⟨dawn, .calm⟩ .standard 1 .all
      ⟨sameSecond, none, []⟩)).map (·.modified) = some [⟨1, [1], [.name]⟩] := by
    decide +kernel
  cases hrun : Run.execute ⟨dawn, .calm⟩ .standard 1 .all ⟨sameSecond, none, []⟩ with
  | error stop w =>
    rw [hrun] at hreported
    cases hreported
  | ok s w =>
    rw [hrun] at hreported
    have hmodified : s.modified = [⟨1, [1], [.name]⟩] := Option.some.inj hreported
    exact ⟨s, w, rfl, by simp [hmodified]⟩

/-- A preview on the ledger shows that the rule would touch the transaction. -/
theorem exists_preview_sameSecond :
    ∃ cs w, Run.preview ⟨dawn, .calm⟩ 1 1 ⟨sameSecond, none, []⟩ = .ok (some cs) w ∧
      cs.transaction = 1 ∧ 1 ∈ cs.rules := by
  have hshown : (match Run.preview ⟨dawn, .calm⟩ 1 1 ⟨sameSecond, none, []⟩ with
      | .ok found _ => found
      | .error _ _ => none) = some ⟨1, some "Film", none, [], none, [1]⟩ := by
    decide +kernel
  cases hrun : Run.preview ⟨dawn, .calm⟩ 1 1 ⟨sameSecond, none, []⟩ with
  | error stop w =>
    rw [hrun] at hshown
    cases hshown
  | ok found w =>
    rw [hrun] at hshown
    obtain rfl : found = some _ := hshown
    exact ⟨_, w, rfl, rfl, by simp⟩

end Ledger

/-- The rule begins in the second of the transaction, so it may touch it, and does. -/
theorem rules_leave_earlier_seconds_alone_sameSecond :
    (∃ s w, Run.execute ⟨Ledger.dawn, .calm⟩ .standard 1 .all ⟨Ledger.sameSecond, none, []⟩ =
        .ok s w ∧
      ∃ m ∈ s.modified, m.transaction = 1 ∧ 1 ∈ m.rules ∧
        Ledger.half.wholeSecond ≤ Ledger.netflix.date) ∧
    ∃ cs w, Run.preview ⟨Ledger.dawn, .calm⟩ 1 1 ⟨Ledger.sameSecond, none, []⟩ =
        .ok (some cs) w ∧
      1 ∈ cs.rules ∧ Ledger.half.wholeSecond ≤ Ledger.netflix.date := by
  have hσ := Schedule.alone_calm.throughStore
  obtain ⟨hruns, hpreviews⟩ := rules_leave_earlier_seconds_alone hσ Ledger.streams_ruled
    Ledger.netflix_booked Ledger.dawn .standard 1 Ledger.sameSecond none
  -- Both rows were recorded before the run, and so before its end.
  have hbefore : Ledger.Lasting fun l => Ledger.ruled.Precedes l ∧ Ledger.booked.Precedes l :=
    (Ledger.lasting_precedes _).and (Ledger.lasting_precedes _)
  have hstart := And.intro Ledger.ruled_precedes Ledger.booked_precedes
  constructor
  · obtain ⟨s, w, hrun, hm⟩ := Ledger.exists_execute_sameSecond
    obtain ⟨⟨hruled, hbooked⟩, -⟩ :=
      (Run.learns_execute hσ Ledger.dawn 1 .standard .all hbefore).of_ok hrun hstart
    obtain ⟨-, hle⟩ := hruns .all s w hrun hruled hbooked _ hm rfl (by simp)
    exact ⟨s, w, hrun, _, hm, rfl, by simp, hle (by decide)⟩
  · obtain ⟨cs, w, hrun, -, hmem⟩ := Ledger.exists_preview_sameSecond
    obtain ⟨⟨hruled, hbooked⟩, -⟩ :=
      (Run.learns_preview hσ Ledger.dawn 1 1 hbefore).of_ok hrun hstart
    obtain ⟨-, hle⟩ := hpreviews cs w hrun hruled hbooked hmem
    exact ⟨cs, w, hrun, hmem, hle (by decide)⟩

/-- A run and a preview name a rule for a transaction that is dated before the rule's first moment,
    in the same second. -/
theorem rule_touches_transaction_of_same_second :
    Ledger.checking.insertTransaction Ledger.dawn 1 Ledger.netflix = .ok (1, Ledger.booked) ∧
    Ledger.booked.createRule Ledger.dawn 1 "Streams" none Ledger.half .and =
      .ok (1, Ledger.ruled) ∧
    Ledger.ruled.Precedes Ledger.sameSecond ∧
    (∃ s w, Run.execute ⟨Ledger.dawn, .calm⟩ .standard 1 .all ⟨Ledger.sameSecond, none, []⟩ =
        .ok s w ∧
      ∃ m ∈ s.modified, m.transaction = 1 ∧ 1 ∈ m.rules) ∧
    (∃ cs w, Run.preview ⟨Ledger.dawn, .calm⟩ 1 1 ⟨Ledger.sameSecond, none, []⟩ =
        .ok (some cs) w ∧
      cs.transaction = 1 ∧ 1 ∈ cs.rules) ∧
    ¬ Ledger.half ≤ Ledger.netflix.date := by
  obtain ⟨s, w, hrun, hm⟩ := Ledger.exists_execute_sameSecond
  exact ⟨Ledger.netflix_booked, Ledger.streams_ruled, Ledger.ruled_precedes,
    ⟨s, w, hrun, _, hm, rfl, by simp⟩, Ledger.exists_preview_sameSecond, by decide⟩

end LedgerRules
