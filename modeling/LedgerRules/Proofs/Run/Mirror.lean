import LedgerRules.Proofs.Rules.Meaning
import LedgerRules.Proofs.Run.Calls
import LedgerRules.Run.Execute

/-!
# Runs that see no difference

A wish to stop raises the flag and does nothing else, and the flag is looked at only where a run
asks for it. Everything in between therefore goes as if nobody had asked: a step whose calls are
served does to the ledger and to the list of calls just what it does when nothing happens.

## Overview

- **Layer A**: the flag after some calls, and the world of a run that is asked to stop.
- **Layer B**: steps that see no difference, and how they are put together.
- **Layer C**: finding the rules and the snapshot.
- **Layer D**: going over transactions.
-/

namespace LedgerRules

/-! ## Layer A: the flag -/

namespace Schedule

/-- Whether the run was asked to stop at one of its calls, the latest of which comes first. -/
def asked (σ : Schedule) : List Event → Bool
  | [] => false
  | ev :: es => (σ es ev.call).cancels || σ.asked es

/-- The flag of a run after its calls. -/
def flagAfter (σ : Schedule) (flag : Option Bool) (es : List Event) : Option Bool :=
  flag.map fun raised => raised || σ.asked es

end Schedule

/-- The same world with the flag that the run would have after its calls. -/
def World.under (w : World) (σ : Schedule) (flag : Option Bool) : World :=
  { w with flag := σ.flagAfter flag w.events }

/-- The same result with the flag that the run would have after its calls. -/
def Run.underResult {α : Type} (σ : Schedule) (flag : Option Bool) :
    EStateM.Result Stop World α → EStateM.Result Stop World α
  | .ok a w => .ok a (w.under σ flag)
  | .error s w => .error s (w.under σ flag)

/-! ## Layer B: steps that see no difference -/

namespace Run

variable {α β : Type} {σ : Schedule} {flag : Option Bool} {now : Instant}
  {known : List Event → Prop}

/-- A call that is served does what it does when nothing happens, but for the flag. -/
theorem perform_under {c : Call} {w : World} (hσ : σ.Alone)
    (hserved : (σ w.events c).fate = .served) :
    perform ⟨now, σ⟩ c (w.under σ flag) = underResult σ flag (perform ⟨now, .calm⟩ c w) := by
  have hworld : ∀ answered l, World.after σ (w.under σ flag) c answered l =
      (w.after .calm c answered l).under σ flag := by
    intro answered l
    simp only [World.after, World.under, Schedule.flagAfter, Schedule.asked]
    by_cases hcancels : (σ w.events c).cancels = true <;> cases flag <;> simp [hcancels]
  have hunder : perform ⟨now, σ⟩ c (w.under σ flag) = _ := perform_of_served hσ hserved
  have hcalm : (Schedule.calm w.events c).fate = .served := rfl
  have hledger : (w.under σ flag).ledger = w.ledger := rfl
  -- The ledger that is asked is the same.
  rw [hunder, hledger, perform_of_served Schedule.alone_calm hcalm]
  cases c.serve now w.ledger with
  | ok answer => simp only [underResult, hworld]
  | error e => simp only [underResult, hworld]

/-- A step that, once something is known of the calls before it, goes under a schedule as it goes
    when nothing happens, but for the flag. What is known before is known after it, and nothing
    crashes in it. -/
structure Mirrors (σ : Schedule) (flag : Option Bool) (now : Instant) (known : List Event → Prop)
    (x : Surroundings → Run α) : Prop where
  run : ∀ w, known w.events →
    x ⟨now, σ⟩ (w.under σ flag) = underResult σ flag (x ⟨now, .calm⟩ w)
  known : ∀ w, known w.events → known (worldOf (x ⟨now, .calm⟩ w)).events
  safe : ∀ w w', x ⟨now, .calm⟩ w ≠ .error .crashed w'

namespace Mirrors

theorem pure (a : α) : Mirrors σ flag now known fun _ => (pure a : Run α) :=
  ⟨fun _ _ => rfl, fun _ h => h, fun _ _ h => nomatch h⟩

theorem fail (e : LedgerError) : Mirrors σ flag now known fun _ => (fail e : Run α) :=
  ⟨fun _ _ => rfl, fun _ h => h, fun _ _ h => nomatch h⟩

/-- A call that is served once the thing is known, which further calls do not make unknown. -/
theorem perform {c : Call} (hσ : σ.Alone) (hmono : ∀ ev es, known es → known (ev :: es))
    (hserved : ∀ es, known es → (σ es c).fate = .served) :
    Mirrors σ flag now known fun env => perform env c where
  run := fun w hw => perform_under hσ (hserved w.events hw)
  known := by
    intro w hw
    rw [perform_of_served Schedule.alone_calm rfl]
    cases c.serve now w.ledger with
    | ok answer => exact hmono _ _ hw
    | error e => exact hmono _ _ hw
  safe := by
    intro w w' h
    rw [perform_of_served Schedule.alone_calm rfl] at h
    cases hserve : c.serve now w.ledger <;> simp [hserve] at h

theorem bind {x : Surroundings → Run α} {f : Surroundings → α → Run β}
    (hx : Mirrors σ flag now known x)
    (hf : ∀ a, Mirrors σ flag now known fun env => f env a) :
    Mirrors σ flag now known fun env => x env >>= f env where
  run := by
    intro w hw
    have hrun := hx.run w hw
    have hknown := hx.known w hw
    -- The second step starts where the first one ends, in both runs.
    cases hcalm : x ⟨now, .calm⟩ w with
    | ok a w₁ =>
      rw [hcalm] at hrun hknown
      rw [bind_of_ok hrun, bind_of_ok hcalm]
      exact (hf a).run w₁ hknown
    | error s w₁ =>
      rw [hcalm] at hrun
      rw [bind_of_error hrun, bind_of_error hcalm]
      rfl
  known := by
    intro w hw
    have hknown := hx.known w hw
    cases hcalm : x ⟨now, .calm⟩ w with
    | ok a w₁ =>
      rw [hcalm] at hknown
      rw [bind_of_ok hcalm]
      exact (hf a).known w₁ hknown
    | error s w₁ =>
      rw [hcalm] at hknown
      rw [bind_of_error hcalm]
      exact hknown
  safe := by
    intro w w' h
    cases hcalm : x ⟨now, .calm⟩ w with
    | ok a w₁ =>
      rw [bind_of_ok hcalm] at h
      exact (hf a).safe w₁ w' h
    | error s w₁ =>
      rw [bind_of_error hcalm] at h
      cases h
      exact hx.safe w w' hcalm

/-- A step whose failure is taken as its result. -/
theorem attempt {x : Surroundings → Run α} (hx : Mirrors σ flag now known x) :
    Mirrors σ flag now known fun env => attempt (x env) where
  -- A failure is taken alike in both; a crash is excluded, since nothing crashes when all is calm.
  run := by
    intro w hw
    have hrun := hx.run w hw
    cases hcalm : x ⟨now, .calm⟩ w with
    | ok a w₁ =>
      rw [hcalm] at hrun
      rw [attempt_of_ok hrun, attempt_of_ok hcalm]
      rfl
    | error s w₁ =>
      cases s with
      | failed e =>
        rw [hcalm] at hrun
        rw [attempt_of_failed hrun, attempt_of_failed hcalm]
        rfl
      | crashed => exact absurd hcalm (hx.safe w w₁)
  known := by
    intro w hw
    have hknown := hx.known w hw
    cases hcalm : x ⟨now, .calm⟩ w with
    | ok a w₁ =>
      rw [hcalm] at hknown
      rw [attempt_of_ok hcalm]
      exact hknown
    | error s w₁ =>
      cases s with
      | failed e =>
        rw [hcalm] at hknown
        rw [attempt_of_failed hcalm]
        exact hknown
      | crashed => exact absurd hcalm (hx.safe w w₁)
  safe := by
    intro w w' h
    cases hcalm : x ⟨now, .calm⟩ w with
    | ok a w₁ =>
      rw [attempt_of_ok hcalm] at h
      cases h
    | error s w₁ =>
      cases s with
      | failed e =>
        rw [attempt_of_failed hcalm] at h
        cases h
      | crashed => exact absurd hcalm (hx.safe w w₁)

section

variable {named : Bool} {user : Ident} (hσ : σ.RefusesOnly (Call.OfScan named))
  (hmono : ∀ ev es, known es → known (ev :: es))
include hσ hmono

/-! ## Layer C: finding the rules and the snapshot -/

/-- A call that a run makes before it goes on to transactions, or between them. -/
theorem ask {c : Call} (hc : ∀ es, known es → ¬ Call.OfScan named es c) :
    Mirrors σ flag now known fun env => Run.perform env c :=
  perform hσ.alone hmono fun es h => hσ.served es c (hc es h)

theorem namedRules (ids : List Ident) :
    Mirrors σ flag now known fun env => namedRules env user ids := by
  induction ids with
  | nil => exact pure []
  | cons id ids ih =>
    refine bind (ask hσ hmono fun _ _ h => h) fun rule => ?_
    exact bind ih fun rules => pure _

theorem currentRules : Mirrors σ flag now known fun env => currentRules env user := by
  have hcall : Mirrors σ flag now known fun env => Run.perform env (.rules user) :=
    ask hσ hmono fun _ _ h => h
  -- The clock is the same in both.
  exact bind hcall fun rules => ⟨fun _ _ => rfl, fun _ h => h, fun _ _ h => nomatch h⟩

theorem complete (rules : List Rule) :
    Mirrors σ flag now known fun env => complete env rules := by
  induction rules with
  | nil => exact pure []
  | cons rule rules ih =>
    refine bind (ask hσ hmono fun _ _ h => h) fun conditions => ?_
    refine bind (ask hσ hmono fun _ _ h => h) fun actions => ?_
    exact bind ih fun others => pure _

theorem workingSet (rules : Option (List Ident)) :
    Mirrors σ flag now known fun env => workingSet env user rules := by
  cases rules with
  | some ids => exact bind (namedRules hσ hmono ids.eraseDups) (complete hσ hmono)
  | none => exact bind (currentRules hσ hmono) (complete hσ hmono)

theorem engineFor (rules : List CompleteRule) :
    Mirrors σ flag now known fun env => engineFor env user rules := by
  refine bind (ask hσ hmono fun _ _ h => h) fun categories => ?_
  -- What is read depends on the rules, and they are the same in both.
  cases rules.any CompleteRule.referencesTransfers with
  | true =>
    refine bind (ask hσ hmono fun _ _ h => h) fun accounts => ?_
    exact pure _
  | false => exact pure _

/-! ## Layer D: going over transactions -/

variable {settings : Settings}

theorem transferToLink (cs : Changeset) :
    Mirrors σ flag now known fun env => transferToLink env settings user cs := by
  unfold Run.transferToLink
  -- The link is read only where there is something to link.
  cases cs.transfer with
  | none => exact pure none
  | some staged =>
    cases settings.linkTransfers with
    | false => exact pure none
    | true =>
      refine bind (ask hσ hmono fun _ _ h => h) fun linked => ?_
      exact pure _

/-- Writing a changeset, if reading the transaction again is no step of the scan. -/
theorem apply {cs : Changeset}
    (hread : ∀ es, known es → ¬ Call.OfScan named es (.transaction cs.transaction user)) :
    Mirrors σ flag now known fun env => apply env settings user cs := by
  refine bind (ask hσ hmono hread) fun live => ?_
  cases live with
  | none => exact fail _
  | some live =>
    refine bind (transferToLink hσ hmono cs) fun transfer => ?_
    simp only
    split
    · exact pure none
    · refine bind (ask hσ hmono fun _ _ h => h) fun _ => ?_
      exact pure _

/-- **One transaction.** Its changeset is written as if nobody had asked to stop. -/
theorem process {engine : Engine} {t : Transaction}
    (hread : ∀ es, known es → ¬ Call.OfScan named es (.transaction t.id user)) (sum : Summary) :
    Mirrors σ flag now known fun env => process env settings user engine sum t := by
  unfold Run.process
  cases hcs : engine.evaluate t with
  | none => exact pure _
  | some cs =>
    rw [← Engine.transaction_of_evaluate hcs] at hread
    -- Whether the changes were written, and whether there were any, is the same in both runs.
    refine bind (attempt (apply hσ hmono hread)) fun result => ?_
    rcases result with e | _ | modified
    · exact pure _
    · exact pure _
    · exact pure _

end

/-- **All transactions of a page.** -/
theorem processAll {user : Ident} (hσ : σ.RefusesOnly (Call.OfScan false))
    (hmono : ∀ ev es, known es → known (ev :: es)) {settings : Settings} {engine : Engine}
    (ts : List Transaction) (sum : Summary) :
    Mirrors σ flag now known fun env => processAll env settings user engine sum ts := by
  induction ts generalizing sum with
  | nil => exact pure sum
  | cons t ts ih =>
    -- In a scan of pages no transaction is read by the scan itself.
    have hread : ∀ es, known es → ¬ Call.OfScan false es (.transaction t.id user) := by
      rintro es - ⟨hnamed, -⟩
      cases hnamed
    exact bind (process hσ hmono hread sum) ih

end Mirrors

end Run

end LedgerRules
