import LedgerRules.Run.World

/-!
# Calls under a schedule

What a run does next depends on a call only through its answer, so a proof about a run follows its
calls. Here is what one call does when the run is alone with its ledger, and how the steps of a run
are put together.

## Overview

- **Layer A**: properties of schedules.
- **Layer B**: one call, and the world after it.
- **Layer C**: steps in sequence, and a step whose failure is taken as its result.
- **Layer D**: steps that only look something up.
- **Layer E**: steps about one transaction, of which a call may fail.
-/

namespace LedgerRules

/-! ## Layer A: schedules -/

namespace Schedule

/-- Nobody else writes to the ledger. -/
def Alone (σ : Schedule) : Prop := ∀ es c, (σ es c).writes = id

/-- Nobody asks the run to stop. -/
def Silent (σ : Schedule) : Prop := ∀ es c, (σ es c).cancels = false

/-- No call crashes the run. -/
def Safe (σ : Schedule) : Prop := ∀ es c, (σ es c).fate ≠ .crashed

/-- No call is refused, and none crashes the run. -/
def Serving (σ : Schedule) : Prop := ∀ es c, (σ es c).fate = .served

theorem alone_calm : calm.Alone := fun _ _ => rfl

theorem silent_calm : calm.Silent := fun _ _ => rfl

theorem safe_calm : calm.Safe := fun _ _ h => nomatch h

theorem serving_calm : calm.Serving := fun _ _ => rfl

end Schedule

/-- The transaction that a call is about, if it is about one. -/
def Call.subject? : Call → Option Ident
  | .transaction id _ | .transferLink id _ | .applyChanges id _ _ => some id
  | .rules _ | .rule _ _ | .conditions _ | .actions _ | .categories _ | .accounts _
  | .page _ _ _ => none

/-- The transaction to which a call has written, if it has. -/
def Event.written? : Event → Option Ident
  | ⟨.applyChanges id _ _, true⟩ => some id
  | _ => none

theorem Event.written?_eq_none {ev : Event} (h : ev.call.subject? = none) : ev.written? = none := by
  obtain ⟨c, answered⟩ := ev
  cases c <;> cases answered <;> first | rfl | cases h

/-- Whether a call belongs to the writing of a changeset: the transaction is read again, its link is
    read, or the changes are written. Transactions that were named have been read once before. -/
def Call.OfApply (named : Bool) (es : List Event) : Call → Prop
  | .transaction id user => named = true → ⟨.transaction id user, true⟩ ∈ es
  | .transferLink _ _ | .applyChanges _ _ _ => True
  | .rules _ | .rule _ _ | .conditions _ | .actions _ | .categories _ | .accounts _
  | .page _ _ _ => False

/-- Whether a call is one by which a run goes on to transactions that it has not looked at: it reads
    a page, or a named transaction for the first time. -/
def Call.OfScan (named : Bool) (es : List Event) : Call → Prop
  | .page _ _ _ => named = false
  | .transaction id user => named = true ∧ ⟨.transaction id user, true⟩ ∉ es
  | .rules _ | .rule _ _ | .conditions _ | .actions _ | .categories _ | .accounts _
  | .transferLink _ _ | .applyChanges _ _ _ => False

/-- A schedule under which a run is alone with its ledger, never crashes, and is refused nothing but
    calls of some kind. -/
structure Schedule.RefusesOnly (σ : Schedule) (kind : List Event → Call → Prop) : Prop where
  alone : σ.Alone
  safe : σ.Safe
  served : ∀ es c, ¬ kind es c → (σ es c).fate = .served

/-- The calm schedule refuses nothing, so it refuses only calls of whatever kind. -/
theorem Schedule.refusesOnly_calm (kind : List Event → Call → Prop) : calm.RefusesOnly kind :=
  ⟨alone_calm, safe_calm, fun _ _ _ => rfl⟩

/-- Some calls are refused, and nothing else happens. -/
def Schedule.refusing (refused : List Event → Call → Bool) : Schedule := fun es c =>
  { Disturbance.none with
    fate := if refused es c then .refused (.store .full) else .served }

/-- A schedule that refuses some calls refuses only calls of a kind if all of them are of
    that kind. -/
theorem Schedule.refusesOnly_refusing {kind : List Event → Call → Prop}
    {refused : List Event → Call → Bool} (h : ∀ es c, refused es c = true → kind es c) :
    (refusing refused).RefusesOnly kind where
  alone := fun _ _ => rfl
  safe := by
    intro es c
    cases hrefused : refused es c <;> simp [refusing, hrefused]
  served := by
    intro es c hkind
    have hserved : ¬ refused es c = true := mt (h es c) hkind
    simp [refusing, hserved]

namespace Schedule.RefusesOnly

variable {σ : Schedule}

/-- Calls that are about no transaction are served where only writing is refused. -/
theorem served_of_subject? {named : Bool} (h : σ.RefusesOnly (Call.OfApply named))
    (es : List Event) (c : Call) (hc : c.subject? = none) : (σ es c).fate = .served := by
  apply h.served
  -- Of calls about no transaction none is a call by which a changeset is written.
  cases c <;> first | exact id | cases hc

/-- Calls by which a run goes on are served where only writing is refused. -/
theorem served_of_ofScan {named : Bool} (h : σ.RefusesOnly (Call.OfApply named)) (es : List Event)
    (c : Call) (hc : c.OfScan named es) : (σ es c).fate = .served := by
  refine h.served es c fun happly => ?_
  -- The two kinds of calls share none: what is left of them is that a named transaction is read
  -- once.
  cases c with
  | page => exact happly
  | transaction => exact hc.2 (happly hc.1)
  | _ => exact hc

end Schedule.RefusesOnly

/-! ## Layer B: one call -/

/-- The world after a call that left a ledger behind. -/
def World.after (σ : Schedule) (w : World) (c : Call) (answered : Bool) (l : Ledger) : World :=
  { ledger := l
    flag := if (σ w.events c).cancels then w.flag.map fun _ => true else w.flag
    events := ⟨c, answered⟩ :: w.events }

/-- From one world to a later one: the calls made in between, the latest first, all of one kind.
    Where calls are served, all of them were answered, and where nobody asks the run to stop, the
    flag stays. -/
structure World.Trail (σ : Schedule) (kind : Event → Prop) (evs : List Event) (w w' : World) :
    Prop where
  events : w'.events = evs ++ w.events
  all : ∀ ev ∈ evs, kind ev
  answered : σ.Serving → ∀ ev ∈ evs, ev.answered = true
  flag : σ.Silent → w'.flag = w.flag

namespace World.Trail

variable {σ : Schedule} {kind kind' : Event → Prop} {evs evs' : List Event} {w w₁ w₂ : World}

theorem refl : Trail σ kind [] w w := ⟨rfl, by simp, by simp, fun _ => rfl⟩

/-- Calls between two worlds and further calls to a third are calls between the first and
    the third. -/
theorem trans (h : Trail σ kind evs w w₁) (h' : Trail σ kind evs' w₁ w₂) :
    Trail σ kind (evs' ++ evs) w w₂ where
  events := by rw [h'.events, h.events, List.append_assoc]
  all := by
    intro ev hev
    rcases List.mem_append.mp hev with hev | hev
    · exact h'.all ev hev
    · exact h.all ev hev
  answered := by
    intro hσ ev hev
    rcases List.mem_append.mp hev with hev | hev
    · exact h'.answered hσ ev hev
    · exact h.answered hσ ev hev
  flag := fun hσ => by rw [h'.flag hσ, h.flag hσ]

theorem imp (h : Trail σ kind evs w w₁) (himp : ∀ ev ∈ evs, kind ev → kind' ev) :
    Trail σ kind' evs w w₁ :=
  ⟨h.events, fun ev hev => himp ev hev (h.all ev hev), h.answered, h.flag⟩

theorem after {c : Call} {answered : Bool} (l : Ledger) (hkind : kind ⟨c, answered⟩)
    (hanswered : σ.Serving → answered = true) :
    Trail σ kind [⟨c, answered⟩] w (w.after σ c answered l) where
  events := rfl
  all := by simpa using hkind
  answered := by simpa using hanswered
  flag := fun hσ => by simp [World.after, hσ w.events c]

end World.Trail

/-- The world in which a step has ended. -/
def Run.worldOf {α : Type} : EStateM.Result Stop World α → World
  | .ok _ w => w
  | .error _ w => w

/-- What a step comes to, without the world in which it ends. -/
def Run.outcomeOf {α : Type} : EStateM.Result Stop World α → Except Stop α
  | .ok a _ => .ok a
  | .error s _ => .error s

namespace Run

variable {α β : Type} {σ : Schedule} {now : Instant} {w w' : World} {c : Call}

/-- A call that is served gets its answer from the ledger as it is. -/
theorem perform_of_served (hσ : σ.Alone) (hserved : (σ w.events c).fate = .served) :
    perform ⟨now, σ⟩ c w =
      match c.serve now w.ledger with
      | .ok (answer, l) => .ok answer (w.after σ c true l)
      | .error e => .error (.failed e) (w.after σ c false w.ledger) := by
  simp only [perform, hserved, hσ w.events c, id]
  rfl

theorem perform_of_refused (hσ : σ.Alone) {e : LedgerError}
    (hrefused : (σ w.events c).fate = .refused e) :
    perform ⟨now, σ⟩ c w = .error (.failed e) (w.after σ c false w.ledger) := by
  simp only [perform, hrefused, hσ w.events c, id]
  rfl

/-- A call that the ledger answers is answered if it is served. -/
theorem perform_eq_ok (hσ : σ.Alone) (hserved : (σ w.events c).fate = .served) {a : c.Answer}
    {l : Ledger} (ha : c.serve now w.ledger = .ok (a, l)) :
    perform ⟨now, σ⟩ c w = .ok a (w.after σ c true l) := by
  rw [perform_of_served hσ hserved, ha]

/-- An answer comes from the ledger as it is. -/
theorem serve_of_perform_eq_ok (hσ : σ.Alone) {a : c.Answer}
    (h : perform ⟨now, σ⟩ c w = .ok a w') :
    ∃ l, c.serve now w.ledger = .ok (a, l) ∧ w' = w.after σ c true l := by
  -- Of the three fates of a call only being served leads to an answer.
  cases hfate : (σ w.events c).fate with
  | served =>
    rw [perform_of_served hσ hfate] at h
    cases hserve : c.serve now w.ledger with
    | ok answer =>
      rw [hserve] at h
      cases h
      exact ⟨answer.2, rfl, rfl⟩
    | error e =>
      rw [hserve] at h
      cases h
  | refused e =>
    rw [perform_of_refused hσ hfate] at h
    cases h
  | crashed =>
    simp only [perform, hfate] at h
    cases h

/-- A call that is not answered leaves nothing behind but its record. -/
theorem eq_after_of_perform_eq_error (hσ : σ.Alone) {s : Stop}
    (h : perform ⟨now, σ⟩ c w = .error s w') : w' = w.after σ c false w.ledger := by
  cases hfate : (σ w.events c).fate with
  | served =>
    -- The ledger itself has refused, or else it would have been answered.
    rw [perform_of_served hσ hfate] at h
    split at h
    · cases h
    · cases h
      rfl
  | refused e =>
    rw [perform_of_refused hσ hfate] at h
    cases h
    rfl
  | crashed =>
    -- A crash is recorded like a failure; nothing else is changed by it.
    simp only [perform, hfate, hσ w.events c, id] at h
    cases h
    rfl

/-- **One call.** Where nothing crashes, a call that the ledger answers is answered, or it is
    refused and leaves the ledger as it was. -/
theorem perform_cases (hσ : σ.Alone) (hsafe : σ.Safe) {a : c.Answer} {l : Ledger}
    (ha : c.serve now w.ledger = .ok (a, l)) :
    perform ⟨now, σ⟩ c w = .ok a (w.after σ c true l) ∨
      ((∃ e, perform ⟨now, σ⟩ c w = .error (.failed e) (w.after σ c false w.ledger)) ∧
        ¬ σ.Serving) := by
  cases hfate : (σ w.events c).fate with
  | served => exact .inl (perform_eq_ok hσ hfate ha)
  | refused e =>
    -- Where calls are served this one would have been.
    refine .inr ⟨⟨e, perform_of_refused hσ hfate⟩, fun hserving => ?_⟩
    rw [hserving] at hfate
    cases hfate
  | crashed => exact absurd hfate (hsafe w.events c)

/-! ## Layer C: steps in sequence -/

theorem bind_of_ok {x : Run α} {f : α → Run β} {a : α} (hx : x w = .ok a w') :
    (x >>= f) w = f a w' := by
  simp only [bind, EStateM.bind, hx]

theorem bind_of_error {x : Run α} {f : α → Run β} {s : Stop} (hx : x w = .error s w') :
    (x >>= f) w = .error s w' := by
  simp only [bind, EStateM.bind, hx]

/-- A result of two steps comes from a result of the first. -/
theorem exists_of_bind_eq_ok {x : Run α} {f : α → Run β} {b : β} (h : (x >>= f) w = .ok b w') :
    ∃ a w₁, x w = .ok a w₁ ∧ f a w₁ = .ok b w' := by
  cases hx : x w with
  | ok a w₁ => exact ⟨a, w₁, rfl, by rwa [bind_of_ok hx] at h⟩
  | error s w₁ =>
    rw [bind_of_error hx] at h
    cases h

theorem attempt_of_ok {x : Run α} {a : α} (hx : x w = .ok a w') :
    attempt x w = .ok (.ok a) w' := by
  simp only [attempt, hx]

theorem attempt_of_failed {x : Run α} {e : LedgerError} (hx : x w = .error (.failed e) w') :
    attempt x w = .ok (.error e) w' := by
  simp only [attempt, hx]

/-! ## Layer D: looking things up -/

/-- A step that finds a value in a ledger and leaves the ledger alone. Its calls are about no
    transaction, and all of them are answered. -/
def Finds (σ : Schedule) (l : Ledger) (x : Run α) (a : α) : Prop :=
  ∀ w : World, w.ledger = l → ∃ evs w', x w = .ok a w' ∧ w'.ledger = l ∧
    w.Trail σ (fun ev => ev.answered = true ∧ ev.call.subject? = none) evs w'

/-! ## Layer E: trying something on a transaction -/

/-- A step about one transaction. Either all its calls are answered, and it yields a value and makes
    a new ledger of the old one; or one of its calls fails and the step with it, and the ledger
    stays. -/
def Tries (σ : Schedule) (id : Ident) (x : Run α) (a : α) (l : Ledger) (written : List Ident)
    (w : World) : Prop :=
  ∃ evs w', w.Trail σ (fun ev => ev.call.subject? = some id) evs w' ∧
    ((x w = .ok a w' ∧ w'.ledger = l ∧ (∀ ev ∈ evs, ev.answered = true) ∧
        evs.reverse.filterMap Event.written? = written) ∨
      ((∃ e, x w = .error (.failed e) w') ∧ w'.ledger = w.ledger ∧
        (∃ ev ∈ evs, ev.answered = false) ∧ evs.reverse.filterMap Event.written? = []))

namespace Tries

variable {id : Ident} {l : Ledger} {a : α} {b : β} {written : List Ident}

theorem pure : Tries σ id (pure a : Run α) a w.ledger [] w :=
  ⟨[], w, .refl, .inl ⟨rfl, rfl, by simp, rfl⟩⟩

/-- A reading step before another. What fails in either fails in both together. -/
theorem bind {x : Run α} {f : α → Run β} (hx : Tries σ id x a w.ledger [] w)
    (hf : ∀ w₁ : World, w₁.ledger = w.ledger → Tries σ id (f a) b l written w₁) :
    Tries σ id (x >>= f) b l written w := by
  obtain ⟨evs₁, w₁, htrail₁, hfirst⟩ := hx
  rcases hfirst with ⟨hrun₁, hledger₁, hanswered₁, hwritten₁⟩ | ⟨⟨e, hrun₁⟩, hledger₁, hfailed₁⟩
  · -- The first step only reads, so what the second one writes is all that is written.
    obtain ⟨evs₂, w₂, htrail₂, hsecond⟩ := hf w₁ hledger₁
    refine ⟨evs₂ ++ evs₁, w₂, htrail₁.trans htrail₂, ?_⟩
    rw [bind_of_ok hrun₁, List.reverse_append, List.filterMap_append, hwritten₁, List.nil_append]
    rcases hsecond with
      ⟨hrun₂, hledger₂, hanswered₂, hwritten₂⟩ | ⟨hrun₂, hledger₂, ⟨ev, hev, hfailed⟩, hwritten₂⟩
    · refine .inl ⟨hrun₂, hledger₂, ?_, hwritten₂⟩
      intro ev hev
      rcases List.mem_append.mp hev with hev | hev
      · exact hanswered₂ ev hev
      · exact hanswered₁ ev hev
    · exact .inr ⟨hrun₂, hledger₂.trans hledger₁, ⟨ev, List.mem_append_left _ hev, hfailed⟩,
        hwritten₂⟩
  -- The second step is not reached.
  · exact ⟨evs₁, w₁, htrail₁, .inr ⟨⟨e, bind_of_error hrun₁⟩, hledger₁, hfailed₁⟩⟩

/-- A step whose value is replaced in the end. -/
theorem bind_pure {x : Run α} (hx : Tries σ id x a l written w) :
    Tries σ id (x >>= fun _ => Pure.pure b) b l written w := by
  obtain ⟨evs, w', htrail, hrun | ⟨⟨e, hrun⟩, hrest⟩⟩ := hx
  · exact ⟨evs, w', htrail, .inl ⟨bind_of_ok hrun.1, hrun.2⟩⟩
  · exact ⟨evs, w', htrail, .inr ⟨⟨e, bind_of_error hrun⟩, hrest⟩⟩

/-- A call about the transaction that the ledger answers. -/
theorem perform (hσ : σ.Alone) (hsafe : σ.Safe) {c : Call} (hc : c.subject? = some id)
    {a : c.Answer} (ha : c.serve now w.ledger = .ok (a, l)) :
    Tries σ id (perform ⟨now, σ⟩ c) a l (Event.written? ⟨c, true⟩).toList w := by
  rcases perform_cases hσ hsafe ha with hrun | ⟨hrun, hrefused⟩
  · refine ⟨_, _, .after l hc fun _ => rfl, .inl ⟨hrun, rfl, by simp, ?_⟩⟩
    cases h : Event.written? ⟨c, true⟩ <;> simp [h]
  · exact ⟨_, _, .after w.ledger hc fun hserving => absurd hserving hrefused,
      .inr ⟨hrun, rfl, by simp, by simp [Event.written?]⟩⟩

end Tries

end Run

end LedgerRules
