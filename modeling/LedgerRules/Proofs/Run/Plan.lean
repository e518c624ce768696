import LedgerRules.Proofs.Ledger.Readable
import LedgerRules.Proofs.Run.Calls
import LedgerRules.Run.Execute

/-!
# The plan of the setup

Before a run looks at transactions it makes calls that only read, and which calls these are can be
said beforehand: they depend on the ledger and on the request alone. Whatever is refused, the run
follows this plan up to the first call that fails, and ends there with the error of that call.

## Overview

- **Layer A**: calls made one after the other, and the first of them that fails.
- **Layer B**: a step that follows a plan, and how plans are put together.
- **Layer C**: the plan of the setup.
-/

namespace LedgerRules

/-! ## Layer A: the first failure -/

/-- The parts of a ledger that calls are about. -/
inductive Call.Area where
  /-- Rules with their conditions and actions. -/
  | rules
  /-- Categories. -/
  | categories
  /-- Accounts. -/
  | accounts
  /-- Transactions with their links. -/
  | transactions
deriving DecidableEq

/-- The part of a ledger that a call is about. -/
def Call.area : Call → Call.Area
  | .rules _ | .rule _ _ | .conditions _ | .actions _ => .rules
  | .categories _ => .categories
  | .accounts _ => .accounts
  | .page _ _ _ | .transaction _ _ | .transferLink _ _ | .applyChanges _ _ _ => .transactions

/-- A call that is not about transactions is about no particular one. -/
theorem Call.subject?_eq_none {c : Call} (h : c.area ≠ .transactions) : c.subject? = none := by
  cases c
  case transaction | transferLink | applyChanges => exact absurd rfl h
  all_goals rfl

/-- The record of calls that were answered one after the other, the latest first. -/
def answeredAll (cs : List Call) : List Event := (cs.map fun c => ⟨c, true⟩).reverse

theorem answeredAll_append (cs cs' : List Call) :
    answeredAll (cs ++ cs') = answeredAll cs' ++ answeredAll cs := by
  simp [answeredAll]

theorem answeredAll_cons (c : Call) (cs : List Call) :
    answeredAll (c :: cs) = answeredAll cs ++ [⟨c, true⟩] := by
  simp [answeredAll]

theorem call_mem_of_mem_answeredAll {cs : List Call} {ev : Event} (h : ev ∈ answeredAll cs) :
    ev.call ∈ cs := by
  obtain ⟨c, hc, rfl⟩ := List.mem_map.mp (List.mem_reverse.mp h)
  exact hc

/-- If no call is about transactions, then those on record were answered and are about none. -/
theorem answered_of_mem_answeredAll {cs : List Call} (hcs : ∀ c ∈ cs, c.area ≠ .transactions)
    {ev : Event} (h : ev ∈ answeredAll cs) : ev.answered = true ∧ ev.call.subject? = none := by
  obtain ⟨c, hc, rfl⟩ := List.mem_map.mp (List.mem_reverse.mp h)
  exact ⟨rfl, Call.subject?_eq_none (hcs c hc)⟩

namespace Schedule

variable (σ : Schedule) (now : Instant) (l : Ledger)

/-- The error with which a call fails after earlier ones, if it fails: it is refused, or it is
    served and the ledger cannot answer it. -/
def failure? (es : List Event) (c : Call) : Option LedgerError :=
  match (σ es c).fate with
  | .refused e => some e
  | .served | .crashed =>
    match c.serve now l with
    | .ok _ => none
    | .error e => some e

/-- After earlier calls, all of these are answered one after the other. -/
def AnswersAll : List Event → List Call → Prop
  | _, [] => True
  | es, c :: cs => σ.failure? now l es c = none ∧ AnswersAll (⟨c, true⟩ :: es) cs

instance decidableAnswersAll :
    (es : List Event) → (cs : List Call) → Decidable (AnswersAll σ now l es cs)
  | _, [] => isTrue trivial
  | es, c :: cs =>
    have := decidableAnswersAll (⟨c, true⟩ :: es) cs
    inferInstanceAs (Decidable (_ ∧ _))

/-- After earlier calls, `c` is the first of these that fails, and `before` come before it. -/
def FailsFirst (es : List Event) (cs before : List Call) (c : Call) (e : LedgerError) : Prop :=
  before ++ [c] <+: cs ∧ σ.AnswersAll now l es before ∧
    σ.failure? now l (answeredAll before ++ es) c = some e

variable {σ now l} {es : List Event} {cs cs' before : List Call} {c d : Call} {e : LedgerError}

/-- Calls and further calls are all answered if the calls are and the further ones are after
    them. -/
theorem answersAll_append_iff :
    σ.AnswersAll now l es (cs ++ cs') ↔
      σ.AnswersAll now l es cs ∧ σ.AnswersAll now l (answeredAll cs ++ es) cs' := by
  -- On the calls; the record grows by the one that is answered first.
  induction cs generalizing es with
  | nil => simp [AnswersAll, answeredAll]
  | cons c cs ih => simp [AnswersAll, ih, answeredAll_cons, and_assoc]

theorem AnswersAll.of_isPrefix (h : σ.AnswersAll now l es cs) (hfirst : before <+: cs) :
    σ.AnswersAll now l es before := by
  obtain ⟨after, rfl⟩ := hfirst
  exact (answersAll_append_iff.mp h).1

/-- Calls that are served and that the ledger can answer are answered. -/
theorem answersAll_of_served (hserved : ∀ es, ∀ c ∈ cs, (σ es c).fate = .served)
    (hanswer : ∀ c ∈ cs, ∃ answer, c.serve now l = .ok (answer, l)) (es : List Event) :
    σ.AnswersAll now l es cs := by
  induction cs generalizing es with
  | nil => exact trivial
  | cons c cs ih =>
    obtain ⟨answer, hserve⟩ := hanswer c List.mem_cons_self
    refine ⟨by simp [failure?, hserved es c List.mem_cons_self, hserve], ?_⟩
    exact ih (fun es d hd => hserved es d (List.mem_cons_of_mem _ hd))
      (fun d hd => hanswer d (List.mem_cons_of_mem _ hd)) _

/-- Either all calls are answered, or one of them is the first that fails. -/
theorem answersAll_or_failsFirst (σ : Schedule) (now : Instant) (l : Ledger) (es : List Event)
    (cs : List Call) :
    σ.AnswersAll now l es cs ∨ ∃ before c e, σ.FailsFirst now l es cs before c e := by
  induction cs generalizing es with
  | nil => exact .inl trivial
  | cons c cs ih =>
    cases hfailure : σ.failure? now l es c with
    | some e => exact .inr ⟨[], c, e, List.prefix_append [c] cs, trivial, hfailure⟩
    | none =>
      rcases ih (⟨c, true⟩ :: es) with hall | ⟨before, d, e, hreached, hbefore, hfails⟩
      · exact .inl ⟨hfailure, hall⟩
      · refine .inr ⟨c :: before, d, e, ?_, ⟨hfailure, hbefore⟩, ?_⟩
        · exact List.prefix_cons_iff.mpr (.inr ⟨_, rfl, hreached⟩)
        · rw [answeredAll_cons, List.append_assoc]
          exact hfails

/-- The first failure of some calls and then others is one of the first calls, or it is one of the
    others after all of the first. -/
theorem FailsFirst.of_append (h : σ.FailsFirst now l es (cs ++ cs') before c e) :
    σ.FailsFirst now l es cs before c e ∨
      ∃ before', before = cs ++ before' ∧ σ.AnswersAll now l es cs ∧
        σ.FailsFirst now l (answeredAll cs ++ es) cs' before' c e := by
  obtain ⟨⟨after, hsplit⟩, hbefore, hfails⟩ := h
  rw [List.append_assoc] at hsplit
  rcases List.append_eq_append_iff.mp hsplit with ⟨rest, hcs, hrest⟩ | ⟨before', rfl, hcs'⟩
  -- The calls up to the failure reach into the others, or end where these begin.
  · cases rest with
    | nil =>
      -- The failure is the first of the other calls.
      rw [List.append_nil] at hcs
      subst hcs
      refine .inr ⟨[], (List.append_nil _).symm, hbefore, ?_, trivial, hfails⟩
      exact ⟨after, by simpa using hrest⟩
    | cons d rest =>
      obtain ⟨rfl, hrest⟩ := List.cons.inj hrest
      exact .inl ⟨⟨rest, by rw [hcs, List.append_assoc]; rfl⟩, hbefore, hfails⟩
  · obtain ⟨hfirst, hothers⟩ := answersAll_append_iff.mp hbefore
    refine .inr ⟨before', rfl, hfirst, ⟨after, by rw [hcs', List.append_assoc]⟩, hothers, ?_⟩
    rw [answeredAll_append, List.append_assoc] at hfails
    exact hfails

end Schedule

/-! ## Layer B: following a plan -/

namespace Run

variable {α β : Type} {σ : Schedule} {now : Instant} {l : Ledger} {cs cs' : List Call}

/-- A step that makes the calls of a plan to read something from a ledger: if all of them are
    answered it yields what it reads, and otherwise it ends with the first that fails. The ledger
    stays as it is. What can be read is read by calls that the ledger can answer. -/
structure Follows (σ : Schedule) (now : Instant) (l : Ledger) (x : Run α) (cs : List Call)
    (r : Except LedgerError α) : Prop where
  answerable : ∀ a, r = .ok a → ∀ c ∈ cs, ∃ answer, c.serve now l = .ok (answer, l)
  answered : ∀ w : World, w.ledger = l → σ.AnswersAll now l w.events cs →
    ∃ a w', r = .ok a ∧ x w = .ok a w' ∧ w'.ledger = l ∧
      w.Trail σ (fun ev => ev ∈ answeredAll cs) (answeredAll cs) w'
  failed : ∀ w : World, w.ledger = l → ∀ before c e, σ.FailsFirst now l w.events cs before c e →
    ∃ w', x w = .error (.failed e) w' ∧ w'.ledger = l ∧
      w'.events = ⟨c, false⟩ :: (answeredAll before ++ w.events)

namespace Follows

variable {x : Run α} {r : Except LedgerError α} {f : α → Run β} {g : α → Except LedgerError β}

theorem pure (a : α) : Follows σ now l (pure a : Run α) [] (.ok a) where
  answerable := by simp
  answered := fun w hw _ => ⟨a, w, rfl, rfl, hw, .refl⟩
  failed := by
    rintro w hw before c e ⟨hreached, -⟩
    simp at hreached

/-- One plan after the other. The second may depend on what the first step reads. -/
theorem bind (hx : Follows σ now l x cs r) (hf : ∀ a, r = .ok a → Follows σ now l (f a) cs' (g a)) :
    Follows σ now l (x >>= f) (cs ++ cs') (r >>= g) where
  answerable := by
    intro b hb c hc
    obtain ⟨a, ha, hb⟩ := bind_eq_ok_iff.mp hb
    rcases List.mem_append.mp hc with hc | hc
    · exact hx.answerable a ha c hc
    · exact (hf a ha).answerable b hb c hc
  answered := by
    intro w hw hall
    obtain ⟨hfirst, hsecond⟩ := Schedule.answersAll_append_iff.mp hall
    obtain ⟨a, w₁, ha, hrun₁, hledger₁, htrail₁⟩ := hx.answered w hw hfirst
    -- The record of the first step is the one that the calls of the second are judged by.
    rw [← htrail₁.events] at hsecond
    obtain ⟨b, w₂, hb, hrun₂, hledger₂, htrail₂⟩ := (hf a ha).answered w₁ hledger₁ hsecond
    refine ⟨b, w₂, bind_eq_ok_iff.mpr ⟨a, ha, hb⟩, (bind_of_ok hrun₁).trans hrun₂, hledger₂, ?_⟩
    rw [answeredAll_append]
    refine (htrail₁.imp fun ev _ hev => ?_).trans (htrail₂.imp fun ev _ hev => ?_)
    · exact List.mem_append_right _ hev
    · exact List.mem_append_left _ hev
  failed := by
    intro w hw before c e hfails
    rcases hfails.of_append with hfirst | ⟨before', rfl, hall, hsecond⟩
    · obtain ⟨w', hrun, hrest⟩ := hx.failed w hw before c e hfirst
      exact ⟨w', bind_of_error hrun, hrest⟩
    · -- All calls of the first step are answered, and the second step ends with the failure.
      obtain ⟨a, w₁, ha, hrun₁, hledger₁, htrail₁⟩ := hx.answered w hw hall
      rw [← htrail₁.events] at hsecond
      obtain ⟨w₂, hrun₂, hledger₂, hevents₂⟩ := (hf a ha).failed w₁ hledger₁ before' c e hsecond
      refine ⟨w₂, (bind_of_ok hrun₁).trans hrun₂, hledger₂, ?_⟩
      rw [hevents₂, htrail₁.events, answeredAll_append, List.append_assoc]

/-- A step whose last part makes no more calls. -/
theorem map (hx : Follows σ now l x cs r) (p : α → β) :
    Follows σ now l (x >>= fun a => Pure.pure (p a)) cs (r >>= fun a => .ok (p a)) := by
  have h := bind hx fun a _ => pure (p a)
  rwa [List.append_nil] at h

/-- A single call that reads. -/
theorem perform (hσ : σ.Alone) (hsafe : σ.Safe) {c : Call}
    {r : Except LedgerError c.Answer} (hr : c.serve now l = r.map (·, l)) :
    Follows σ now l (perform ⟨now, σ⟩ c) [c] r where
  answerable := by
    rintro a rfl d hd
    rw [List.mem_singleton.mp hd]
    exact ⟨a, hr⟩
  answered := by
    rintro w rfl ⟨hanswered, -⟩
    simp only [Schedule.failure?] at hanswered
    cases hfate : (σ w.events c).fate with
    | served =>
      cases r with
      | error e => simp [hfate, hr, Except.map] at hanswered
      | ok a =>
        refine ⟨a, _, rfl, perform_eq_ok hσ hfate hr, rfl, ?_⟩
        exact .after _ (by simp [answeredAll]) fun _ => rfl
    | refused e => simp [hfate] at hanswered
    | crashed => exact absurd hfate (hsafe _ _)
  failed := by
    rintro w rfl before d e ⟨hreached, -, hfails⟩
    -- The only call is the one that fails.
    obtain ⟨rfl, rfl⟩ : before = [] ∧ d = c := by
      obtain ⟨after, hafter⟩ := hreached
      cases before <;> simp_all
    simp only [Schedule.failure?, answeredAll, List.map_nil, List.reverse_nil,
      List.nil_append] at hfails
    refine ⟨w.after σ d false w.ledger, ?_, rfl, rfl⟩
    cases hfate : (σ w.events d).fate with
    | served =>
      cases r with
      | ok a => simp [hfate, hr, Except.map] at hfails
      | error e' =>
        have heq : e' = e := by simpa [hfate, hr, Except.map] using hfails
        rw [perform_of_served hσ hfate, hr, heq]
        rfl
    | refused e' =>
      have heq : e' = e := by simpa [hfate] using hfails
      rw [perform_of_refused hσ hfate, heq]
    | crashed => exact absurd hfate (hsafe _ _)

/-- Where the calls of a plan are served, the step finds what it reads. -/
theorem finds (h : Follows σ now l x cs r) {a : α} (hr : r = .ok a)
    (hcs : ∀ c ∈ cs, c.area ≠ .transactions)
    (hserved : ∀ es c, c.subject? = none → (σ es c).fate = .served) : Finds σ l x a := by
  intro w hw
  have hall : σ.AnswersAll now l w.events cs := by
    refine Schedule.answersAll_of_served (fun es c hc => ?_) (h.answerable a hr) _
    exact hserved es c (Call.subject?_eq_none (hcs c hc))
  obtain ⟨b, w', hb, hrun, hledger, htrail⟩ := h.answered w hw hall
  rw [hr] at hb
  cases hb
  exact ⟨_, w', hrun, hledger, htrail.imp fun ev _ hev => answered_of_mem_answeredAll hcs hev⟩

end Follows

end Run

/-! ## Layer C: the plan of the setup -/

namespace Ledger

variable (l : Ledger) (now : Instant) (user : Ident)

/-- The calls that find the rules of a run: one for each rule that is named, or one for all. -/
def ruleCalls : Option (List Ident) → List Call
  | some ids => ids.eraseDups.map fun id => .rule id user
  | none => [.rules user]

/-- The calls that complete rules. -/
def detailCalls (rules : List Rule) : List Call :=
  rules.flatMap fun rule => [.conditions rule.id, .actions rule.id]

/-- The calls that resolve the rules of a run. What comes after a call that the ledger cannot answer
    is never reached. -/
def resolutionCalls (named : Option (List Ident)) : List Call :=
  ruleCalls user named ++
    match l.selectRules now user named with
    | .ok rules => detailCalls rules
    | .error _ => []

/-- The calls that take the snapshot: the accounts are read only if a rule looks at transfers. -/
def snapshotCalls (rules : List CompleteRule) : List Call :=
  .categories user ::
    if rules.any CompleteRule.referencesTransfers then [.accounts user] else []

/-- The calls of the setup. Without rules no snapshot is taken. -/
def setupCalls (named : Option (List Ident)) : List Call :=
  l.resolutionCalls now user named ++
    match l.resolve now user named with
    | .ok rules => if rules = [] then [] else snapshotCalls user rules
    | .error _ => []

/-- The engine that a run builds from rules. It knows no accounts if no rule looks at transfers. -/
def engine (rules : List CompleteRule) : Except LedgerError Engine := do
  let categories ← l.categoriesOf now user
  let accounts ←
    if rules.any CompleteRule.referencesTransfers then l.accountsOf now user else pure []
  pure { categories, accounts, rules }

variable {l now user} {named : Option (List Ident)} {c : Call}

theorem area_of_mem_resolutionCalls (hc : c ∈ l.resolutionCalls now user named) :
    c.area = .rules := by
  rcases List.mem_append.mp hc with hrule | hdetail
  · cases named with
    | some ids =>
      obtain ⟨id, -, rfl⟩ := List.mem_map.mp hrule
      rfl
    | none =>
      rw [List.mem_singleton.mp hrule]
      rfl
  · split at hdetail
    · obtain ⟨rule, -, hcall⟩ := List.mem_flatMap.mp hdetail
      rcases List.mem_pair.mp hcall with rfl | rfl <;> rfl
    · cases hdetail

/-- The snapshot is taken by calls that are not about transactions. -/
theorem area_of_mem_snapshotCalls {rules : List CompleteRule} (hc : c ∈ snapshotCalls user rules) :
    c.area ≠ .transactions := by
  unfold snapshotCalls at hc
  rcases List.mem_cons.mp hc with rfl | haccounts
  · simp [Call.area]
  · split at haccounts
    · rw [List.mem_singleton.mp haccounts]
      simp [Call.area]
    · cases haccounts

/-- The setup is not about transactions. -/
theorem area_of_mem_setupCalls (hc : c ∈ l.setupCalls now user named) :
    c.area ≠ .transactions := by
  rcases List.mem_append.mp hc with hresolution | hsnapshot
  · simp [area_of_mem_resolutionCalls hresolution]
  · split at hsnapshot
    · split at hsnapshot
      · cases hsnapshot
      · exact area_of_mem_snapshotCalls hsnapshot
    · cases hsnapshot

end Ledger

namespace Run

variable {σ : Schedule} {now : Instant} {l : Ledger} {user : Ident} (hσ : σ.Alone) (hsafe : σ.Safe)
include hσ hsafe

theorem follows_namedRules (ids : List Ident) :
    Follows σ now l (namedRules ⟨now, σ⟩ user ids) (ids.map fun id => .rule id user)
      ((ids.mapM fun id => l.rule? now id user) >>= fun found =>
        .ok (found.filterMap fun rule => rule)) := by
  -- On the names; the plan for the others is followed after the call for the first.
  induction ids with
  | nil => exact .pure []
  | cons id ids ih =>
    have hcall : (Call.rule id user).serve now l = (l.rule? now id user).map (·, l) := rfl
    have h := Follows.bind (Follows.perform hσ hsafe hcall)
      fun rule _ => ih.map fun rules => rule.toList ++ rules
    -- The first rule is put before the others if it is found.
    have hcons : (((id :: ids).mapM fun id => l.rule? now id user) >>= fun found =>
          .ok (found.filterMap fun rule => rule)) =
        (l.rule? now id user >>= fun rule =>
          ((ids.mapM fun id => l.rule? now id user) >>= fun found =>
            .ok (found.filterMap fun rule => rule)) >>= fun rules =>
              .ok (rule.toList ++ rules)) := by
      rw [List.mapM_cons]
      cases l.rule? now id user with
      | error e => rfl
      | ok first =>
        cases ids.mapM fun id => l.rule? now id user with
        | error e => rfl
        | ok rest => cases first <;> rfl
    rw [hcons]
    exact h

theorem follows_currentRules :
    Follows σ now l (currentRules ⟨now, σ⟩ user) [.rules user] (l.selectRules now user none) := by
  -- Rules that are not in effect are left out without a further call.
  have hcall : (Call.rules user).serve now l = (l.rulesOf now user).map (·, l) := rfl
  have h := (Follows.perform hσ hsafe hcall).map fun rules : List Rule =>
    rules.filter fun rule => decide (rule.effectiveFrom ≤ now)
  exact h

theorem follows_complete (rules : List Rule) :
    Follows σ now l (complete ⟨now, σ⟩ rules) (Ledger.detailCalls rules)
      (rules.mapM l.completeRule) := by
  induction rules with
  | nil => exact .pure []
  | cons rule rules ih =>
    have hconditions : (Call.conditions rule.id).serve now l =
        (l.conditionsOf rule.id).map (·, l) := rfl
    have hactions : (Call.actions rule.id).serve now l =
        (l.actionsOf rule.id).map (·, l) := rfl
    have h := Follows.bind (Follows.perform hσ hsafe hconditions) fun conditions _ =>
      Follows.bind (Follows.perform hσ hsafe hactions) fun actions _ =>
        ih.map fun others => (⟨rule, conditions, actions⟩ : CompleteRule) :: others
    -- A rule is completed before the others are.
    have hcons : (rule :: rules).mapM l.completeRule =
        (l.conditionsOf rule.id >>= fun conditions => l.actionsOf rule.id >>= fun actions =>
          rules.mapM l.completeRule >>= fun others =>
            .ok ((⟨rule, conditions, actions⟩ : CompleteRule) :: others)) := by
      rw [List.mapM_cons, Ledger.completeRule]
      cases l.conditionsOf rule.id with
      | error e => rfl
      | ok conditions => cases l.actionsOf rule.id <;> rfl
    rw [hcons]
    exact h

/-- **The working set** is found by the calls that resolve the rules. -/
theorem follows_workingSet (named : Option (List Ident)) :
    Follows σ now l (workingSet ⟨now, σ⟩ user named) (l.resolutionCalls now user named)
      (l.resolve now user named) := by
  -- The plan of the second part is written down from what the ledger selects, which is what the
  -- first part yields.
  have hcomplete : ∀ rules, l.selectRules now user named = .ok rules →
      Follows σ now l (complete ⟨now, σ⟩ rules)
        (match l.selectRules now user named with
          | .ok rules => Ledger.detailCalls rules
          | .error _ => [])
        (rules.mapM l.completeRule) := by
    intro rules hrules
    rw [hrules]
    exact follows_complete hσ hsafe rules
  cases named with
  | some ids => exact Follows.bind (follows_namedRules hσ hsafe ids.eraseDups) hcomplete
  | none => exact Follows.bind (follows_currentRules hσ hsafe) hcomplete

/-- **The engine** is built by the calls that take the snapshot. -/
theorem follows_engineFor (rules : List CompleteRule) :
    Follows σ now l (engineFor ⟨now, σ⟩ user rules) (Ledger.snapshotCalls user rules)
      (l.engine now user rules) := by
  have hcategories : (Call.categories user).serve now l =
      (l.categoriesOf now user).map (·, l) := rfl
  -- Whether accounts are read is decided by the rules, before any call is made.
  have haccounts : (Call.accounts user).serve now l = (l.accountsOf now user).map (·, l) := rfl
  refine Follows.bind (Follows.perform hσ hsafe hcategories) fun categories _ => ?_
  cases rules.any CompleteRule.referencesTransfers with
  | true =>
    exact (Follows.perform hσ hsafe haccounts).map fun accounts : List Account =>
      (⟨⟨categories, accounts⟩, rules⟩ : Engine)
  | false => exact Follows.pure _

end Run

end LedgerRules
