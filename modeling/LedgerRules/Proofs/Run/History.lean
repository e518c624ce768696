import LedgerRules.Proofs.Ledger.Table
import LedgerRules.Proofs.Outcome
import LedgerRules.Proofs.Run.Calls
import LedgerRules.Run.Execute

/-!
# The history of a run

A run touches its ledger only by calls, and every call is recorded. If nobody else writes, the
ledger at any moment is therefore the result of the calls that were recorded until then. Only
changes that are applied make a difference, and only to the transaction that they name.

## Overview

- **Layer A**: runs are built of calls for one user.
- **Layer B**: what every call keeps, a run keeps.
- **Layer C**: what every call respects of two worlds, a run respects.
- **Layer D**: the ledger as the result of the calls on record.
- **Layer E**: what a history leaves as it is.
-/

namespace LedgerRules

/-! ## Layer A: runs are built of calls -/

/-- A call for a user. Conditions and actions are asked for by rule. -/
def Call.By (user : Ident) : Call → Prop
  | .rules u | .rule _ u | .categories u | .accounts u | .page u _ _ | .transaction _ u
  | .transferLink _ u | .applyChanges _ u _ => u = user
  | .conditions _ | .actions _ => True

namespace Run

/-- A step that is put together of calls for a user. -/
inductive Built (env : Surroundings) (user : Ident) : {α : Type} → Run α → Prop where
  | pure {α : Type} (a : α) : Built env user (pure a : Run α)
  | fail {α : Type} (e : LedgerError) : Built env user (fail e : Run α)
  | cancelled : Built env user cancelled
  | perform {c : Call} (hc : c.By user) : Built env user (perform env c)
  | attempt {α : Type} {x : Run α} (hx : Built env user x) : Built env user (attempt x)
  | bind {α β : Type} {x : Run α} {f : α → Run β} (hx : Built env user x)
      (hf : ∀ a, Built env user (f a)) : Built env user (x >>= f)

section

variable (env : Surroundings) (settings : Settings) (user : Ident) (engine : Engine)

theorem built_namedRules (ids : List Ident) : Built env user (namedRules env user ids) := by
  induction ids with
  | nil => exact .pure []
  | cons id ids ih => exact .bind (.perform rfl) fun rule => .bind ih fun rules => .pure _

/-- Conditions and actions are asked for with two calls for each rule. -/
theorem built_complete (rules : List Rule) : Built env user (complete env rules) := by
  induction rules with
  | nil => exact .pure []
  | cons rule rules ih =>
    refine .bind (.perform trivial) fun conditions => ?_
    exact .bind (.perform trivial) fun actions => .bind ih fun others => .pure _

/-- The working set is built of calls, whether the rules are named or listed. -/
theorem built_workingSet (named : Option (List Ident)) :
    Built env user (workingSet env user named) := by
  cases named with
  | some ids => exact .bind (built_namedRules env user _) fun rules => built_complete env user rules
  | none =>
    refine .bind ?_ fun rules => built_complete env user rules
    exact .bind (.perform rfl) fun rules => .pure _

theorem built_engineFor (rules : List CompleteRule) : Built env user (engineFor env user rules) := by
  refine .bind (.perform rfl) fun categories => ?_
  simp only
  -- The accounts are asked for only if a rule looks at transfers.
  split
  · exact .bind (.perform rfl) fun accounts => .pure _
  · exact .bind (.pure []) fun accounts => .pure _

/-- Writing a changeset is at most three calls: for the transaction, for its link, and the write. -/
theorem built_apply (cs : Changeset) : Built env user (apply env settings user cs) := by
  refine .bind (.perform rfl) fun live => ?_
  cases live with
  | none => exact .fail _
  | some live =>
    -- The link is read only if a transfer is staged and may be linked.
    have hlink : Built env user (transferToLink env settings user cs) := by
      unfold transferToLink
      split
      · exact .pure none
      · split
        · exact .bind (.perform rfl) fun linked => .pure _
        · exact .pure none
    refine .bind hlink fun transfer => ?_
    simp only
    split
    · exact .pure none
    · exact .bind (.perform rfl) fun _ => .pure _

/-- One transaction is built of the calls of its changeset, if it has one. -/
theorem built_process (s : Summary) (t : Transaction) :
    Built env user (process env settings user engine s t) := by
  unfold process
  cases engine.evaluate t with
  | none => exact .pure _
  | some cs =>
    refine .bind (.attempt (built_apply env settings user cs)) fun result => ?_
    rcases result with e | _ | modified
    · exact .pure _
    · exact .pure _
    · exact .pure _

theorem built_processAll (ts : List Transaction) (s : Summary) :
    Built env user (processAll env settings user engine s ts) := by
  induction ts generalizing s with
  | nil => exact .pure s
  | cons t ts ih => exact .bind (built_process env settings user engine s t) ih

/-- Transactions that are named, with a call for each before it is processed. -/
theorem built_processNamed (ids : List Ident) (s : Summary) :
    Built env user (processNamed env settings user engine s ids) := by
  induction ids generalizing s with
  | nil => exact .pure s
  | cons id ids ih =>
    refine .bind (.attempt (.perform rfl)) fun result => ?_
    rcases result with e | _ | t
    · exact .pure s
    · exact ih s
    · exact .bind (built_process env settings user engine s t) ih

theorem built_processPages (size : UInt64) (left : Nat) (page : UInt64) (s : Summary) :
    Built env user (processPages env settings user engine size left page s) := by
  -- On the pages that are left; the fuel that is used up ends the scan without a call.
  induction left generalizing page s with
  | zero => exact .pure s
  | succ left ih =>
    refine .bind .cancelled fun stop => ?_
    split
    · exact .pure _
    · refine .bind (.attempt (.perform rfl)) fun result => ?_
      rcases result with e | ts
      · exact .pure s
      · refine .bind (built_processAll env settings user engine ts s) fun s => ?_
        split
        · exact .pure s
        · exact ih (page + 1) s

theorem built_processRequest (request : Request) (s : Summary) :
    Built env user (processRequest env settings user engine request s) := by
  unfold processRequest
  split
  · refine .bind .cancelled fun stop => ?_
    split
    · exact .pure _
    · exact built_processNamed env settings user engine _ s
  · exact built_processPages env settings user engine _ _ _ s

/-- **A run is built of calls for its user.** -/
theorem built_execute (request : Request) :
    Built env user (execute env settings user request) := by
  refine .bind (built_workingSet env user request.rules) fun rules => ?_
  split
  · exact .pure _
  · refine .bind (built_engineFor env user rules) fun engine => ?_
    exact built_processRequest env settings user engine request _

end

/-! ## Layer B: what a run keeps -/

variable {α β : Type} {env : Surroundings} {user : Ident} {I : World → Prop}

/-- A step that keeps a property of the world, however it ends. -/
def Keeps (I : World → Prop) (x : Run α) : Prop := ∀ w, I w → I (worldOf (x w))

/-- Two steps keep what each of them keeps; after an error the second is not reached. -/
theorem Keeps.bind {x : Run α} {f : α → Run β} (hx : Keeps I x) (hf : ∀ a, Keeps I (f a)) :
    Keeps I (x >>= f) := by
  intro w hw
  have hworld := hx w hw
  cases hrun : x w with
  | ok a w₁ =>
    rw [hrun] at hworld
    rw [bind_of_ok hrun]
    exact hf a w₁ hworld
  | error s w₁ =>
    rw [hrun] at hworld
    rw [bind_of_error hrun]
    exact hworld

/-- An attempt ends in the world in which the step that is attempted ends. -/
theorem Keeps.attempt {x : Run α} (hx : Keeps I x) : Keeps I (attempt x) := by
  intro w hw
  have hworld := hx w hw
  unfold Run.attempt
  rcases hrun : x w with ⟨a, w₁⟩ | ⟨e | _, w₁⟩
  all_goals
    rw [hrun] at hworld
    exact hworld

/-- **What every call keeps, a run keeps.** -/
theorem Built.keeps {x : Run α} (h : Built env user x)
    (hcall : ∀ c : Call, c.By user → Keeps I (Run.perform env c)) : Keeps I x := by
  -- On how the step is built; only calls touch the world.
  induction h with
  | pure a => exact fun w hw => hw
  | fail e => exact fun w hw => hw
  | cancelled => exact fun w hw => hw
  | perform hc => exact hcall _ hc
  | attempt _ ih => exact ih.attempt
  | bind _ _ ihx ihf => exact ihx.bind ihf

/-! ## Layer C: two runs beside each other -/

variable {R : World → World → Prop}

/-- A step that comes to the same in worlds that are related, and leaves related worlds. -/
def Respects (R : World → World → Prop) (x : Run α) : Prop :=
  ∀ w v, R w v → outcomeOf (x w) = outcomeOf (x v) ∧ R (worldOf (x w)) (worldOf (x v))

theorem Respects.bind {x : Run α} {f : α → Run β} (hx : Respects R x)
    (hf : ∀ a, Respects R (f a)) : Respects R (x >>= f) := by
  intro w v h
  have hsame := hx w v h
  rcases hw : x w with ⟨a, w₁⟩ | ⟨s, w₁⟩ <;> rcases hv : x v with ⟨b, v₁⟩ | ⟨t, v₁⟩ <;>
    rw [hw, hv] at hsame
  · -- Both come to a result, which is one and the same.
    obtain ⟨houtcome, hworld⟩ := hsame
    cases houtcome
    rw [bind_of_ok hw, bind_of_ok hv]
    exact hf a w₁ v₁ hworld
  -- The outcomes are the same, so it cannot be that one is a value and the other an error.
  · cases hsame.1
  · cases hsame.1
  · obtain ⟨houtcome, hworld⟩ := hsame
    cases houtcome
    rw [bind_of_error hw, bind_of_error hv]
    exact ⟨rfl, hworld⟩

theorem Respects.attempt {x : Run α} (hx : Respects R x) : Respects R (attempt x) := by
  intro w v h
  have hsame := hx w v h
  unfold Run.attempt
  rcases hw : x w with ⟨a, w₁⟩ | ⟨e | _, w₁⟩ <;> rcases hv : x v with ⟨b, v₁⟩ | ⟨e' | _, v₁⟩ <;>
    rw [hw, hv] at hsame <;> cases hsame.1
  all_goals exact ⟨rfl, hsame.2⟩

/-- **What every call respects, a run respects**, if related worlds have the same flag. -/
theorem Built.respects {x : Run α} (h : Built env user x)
    (hcall : ∀ c : Call, c.By user → Respects R (Run.perform env c))
    (hflag : ∀ w v, R w v → w.flag = v.flag) : Respects R x := by
  -- On how the step is built. Besides calls, looking at the flag depends on the world.
  induction h with
  | pure a => exact fun w v hR => ⟨rfl, hR⟩
  | fail e => exact fun w v hR => ⟨rfl, hR⟩
  | cancelled =>
    intro w v hR
    refine ⟨?_, hR⟩
    show Except.ok (w.flag == some true) = Except.ok (v.flag == some true)
    rw [hflag w v hR]
  | perform hc => exact hcall _ hc
  | attempt _ ih => exact ih.attempt
  | bind _ _ ihx ihf => exact ihx.bind ihf

end Run

/-! ## Layer D: the record -/

namespace Ledger

/-- Calls that were made one after the other, the latest of which comes first, lead from one ledger
    to another. Calls that were answered do what they do, and calls that failed do nothing. -/
inductive History (now : Instant) (l : Ledger) : List Event → Ledger → Prop where
  | nil : History now l [] l
  | answered {es : List Event} {c : Call} {l₁ l₂ : Ledger} {a : c.Answer}
      (h : History now l es l₁) (hserve : c.serve now l₁ = .ok (a, l₂)) :
      History now l (⟨c, true⟩ :: es) l₂
  | failed {es : List Event} {c : Call} {l₁ : Ledger} (h : History now l es l₁) :
      History now l (⟨c, false⟩ :: es) l₁

variable {now : Instant} {l l' : Ledger} {later earlier es : List Event}

/-- A history comes through a ledger at each of its moments. -/
theorem History.split (h : History now l (later ++ earlier) l') :
    ∃ l₁, History now l earlier l₁ ∧ History now l₁ later l' := by
  induction later generalizing l' with
  | nil => exact ⟨l', h, .nil⟩
  | cons ev later ih =>
    cases h with
    | answered h hserve =>
      obtain ⟨l₁, hearlier, hlater⟩ := ih h
      exact ⟨l₁, hearlier, .answered hlater hserve⟩
    | failed h =>
      obtain ⟨l₁, hearlier, hlater⟩ := ih h
      exact ⟨l₁, hearlier, .failed hlater⟩

end Ledger

/-- The ledger is what the calls on record have made of a ledger, and all of them were made for a
    user. -/
def World.Recorded (now : Instant) (user : Ident) (l : Ledger) (w : World) : Prop :=
  l.History now w.events w.ledger ∧ ∀ ev ∈ w.events, ev.call.By user

theorem Run.keeps_recorded_perform {σ : Schedule} (hσ : σ.Alone) (now : Instant) {user : Ident}
    (l : Ledger) {c : Call} (hc : c.By user) :
    Keeps (World.Recorded now user l) (perform ⟨now, σ⟩ c) := by
  rintro w ⟨hhistory, hby⟩
  have hby' : ∀ answered, ∀ ev ∈ (⟨c, answered⟩ :: w.events : List Event), ev.call.By user := by
    intro answered ev hev
    rcases List.mem_cons.mp hev with rfl | hev
    · exact hc
    · exact hby ev hev
  -- Nobody else writes, so the call finds the ledger that the record leads to.
  simp only [perform, hσ w.events c, id]
  cases (σ w.events c).fate with
  | served =>
    cases hserve : c.serve now w.ledger with
    | ok answer => exact ⟨.answered hhistory hserve, hby' true⟩
    | error e => exact ⟨.failed hhistory, hby' false⟩
  | refused e => exact ⟨.failed hhistory, hby' false⟩
  | crashed => exact ⟨.failed hhistory, hby' false⟩

/-- **The ledger after a run is the result of the calls on record**, if nobody else writes. -/
theorem Run.recorded_execute {σ : Schedule} (hσ : σ.Alone) (now : Instant) (settings : Settings)
    (user : Ident) (request : Request) (l : Ledger) (flag : Option Bool) :
    (worldOf (execute ⟨now, σ⟩ settings user request ⟨l, flag, []⟩)).Recorded now user l := by
  refine (built_execute ⟨now, σ⟩ settings user request).keeps
    (fun c hc => keeps_recorded_perform hσ now l hc) _ ⟨.nil, ?_⟩
  simp

/-! ## Layer E: what a history leaves as it is -/

/-- **Only changes that are applied make a difference.** -/
theorem Call.eq_applyChanges_of_serve {c : Call} {now : Instant} {l l' : Ledger} {a : c.Answer}
    (h : c.serve now l = .ok (a, l')) (hne : l' ≠ l) :
    ∃ id user changes, c = .applyChanges id user changes := by
  -- All other calls only read, and give the ledger back.
  cases c
  case applyChanges id user changes => exact ⟨id, user, changes, rfl⟩
  case transferLink id user =>
    cases h
    exact absurd rfl hne
  all_goals
    obtain ⟨_, _, heq⟩ := map_eq_ok_iff.mp h
    exact absurd (congrArg Prod.snd heq).symm hne

namespace Ledger

variable {now : Instant} {l l' : Ledger} {es : List Event} {id user : Ident} {changes : Changes}

theorem get?_applyChanges (h : l.applyChanges id user changes = .ok l') {other : Ident}
    (hother : other ≠ id) : l'.transactions.get? other = l.transactions.get? other := by
  unfold applyChanges at h
  split at h
  · cases h
    rfl
  · obtain ⟨-, -, h⟩ := bind_eq_ok_iff.mp h
    obtain ⟨-, -, h⟩ := bind_eq_ok_iff.mp h
    obtain ⟨kept, -, h⟩ := bind_eq_ok_iff.mp h
    cases h
    rw [modifyTransaction, Table.get?_modify, if_neg hother]

/-- **A transaction to which nothing was written** has the row that it had. -/
theorem History.get?_eq (h : History now l es l') (hid : id ∉ es.filterMap Event.written?) :
    l'.transactions.get? id = l.transactions.get? id := by
  -- On the calls, the latest of which is taken off.
  induction h with
  | nil => rfl
  | @answered es c l₁ l₂ a h hserve ih =>
    have hearlier : id ∉ es.filterMap Event.written? := by
      intro hmem
      refine hid ?_
      rw [List.filterMap_cons]
      split
      · exact hmem
      · exact List.mem_cons_of_mem _ hmem
    rw [← ih hearlier]
    -- The last call made no difference, or it changed another transaction.
    by_cases hsame : l₂ = l₁
    · rw [hsame]
    · obtain ⟨other, user, changes, rfl⟩ := Call.eq_applyChanges_of_serve hserve hsame
      obtain ⟨_, happlied, heq⟩ := map_eq_ok_iff.mp hserve
      cases heq
      refine get?_applyChanges happlied ?_
      rintro rfl
      exact hid (by simp [Event.written?])
  | failed h ih => exact ih (by simpa [Event.written?] using hid)

end Ledger

end LedgerRules
