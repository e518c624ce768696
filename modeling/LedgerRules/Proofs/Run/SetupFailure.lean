import LedgerRules.Proofs.Run.History
import LedgerRules.Proofs.Run.Setup

/-!
# Failures of the setup

A run fails exactly if one of the calls of its setup does. It then fails with the error of the
first such call, and has neither looked at a transaction nor written anything. Whatever fails after
the setup, the run comes to a summary.

## Overview

- **Layer A**: steps in which nothing crashes, and steps that always come to a result.
- **Layer B**: after the setup a run comes to a result.
- **Layer C**: the setup decides.
-/

namespace LedgerRules

namespace Run

/-! ## Layer A: coming to a result -/

variable {α β : Type}

/-- A step in which nothing crashes. -/
def Uncrashed (x : Run α) : Prop := ∀ w w', x w ≠ .error .crashed w'

/-- A step that comes to a result, whatever fails in it. -/
def Completes (x : Run α) : Prop := ∀ w, ∃ a w', x w = .ok a w'

theorem Uncrashed.perform {env : Surroundings} (hsafe : env.schedule.Safe) (c : Call) :
    Uncrashed (perform env c) := by
  intro w w' h
  simp only [Run.perform] at h
  split at h
  · split at h <;> cases h
  · cases h
  · rename_i hcrashed
    exact hsafe _ _ hcrashed

theorem Uncrashed.bind {x : Run α} {f : α → Run β} (hx : Uncrashed x) (hf : ∀ a, Uncrashed (f a)) :
    Uncrashed (x >>= f) := by
  intro w w' h
  cases hrun : x w with
  | ok a w₁ =>
    rw [bind_of_ok hrun] at h
    exact hf a w₁ w' h
  | error s w₁ =>
    rw [bind_of_error hrun] at h
    cases h
    exact hx w w' hrun

/-- A step that is built of calls crashes only in one of them. -/
theorem Built.uncrashed {env : Surroundings} (hsafe : env.schedule.Safe) {user : Ident} {x : Run α}
    (h : Built env user x) : Uncrashed x := by
  induction h with
  | pure | fail | cancelled => exact fun _ _ h => nomatch h
  | perform => exact .perform hsafe _
  | attempt _ ih =>
    intro w w' h
    unfold Run.attempt at h
    split at h
    · cases h
    · cases h
    · rename_i hcrashed
      exact ih _ _ hcrashed
  | bind _ _ ihx ihf => exact ihx.bind ihf

theorem Completes.pure (a : α) : Completes (pure a : Run α) := fun w => ⟨a, w, rfl⟩

theorem Completes.cancelled : Completes cancelled := fun w => ⟨_, w, rfl⟩

theorem Completes.bind {x : Run α} {f : α → Run β} (hx : Completes x) (hf : ∀ a, Completes (f a)) :
    Completes (x >>= f) := by
  intro w
  obtain ⟨a, w₁, hrun⟩ := hx w
  obtain ⟨b, w₂, hrun'⟩ := hf a w₁
  exact ⟨b, w₂, (bind_of_ok hrun).trans hrun'⟩

/-- Taking a failure as the result leaves nothing but a crash to end a step. -/
theorem Completes.attempt {x : Run α} (hx : Uncrashed x) : Completes (attempt x) := by
  intro w
  cases hrun : x w with
  | ok a w' => exact ⟨_, w', attempt_of_ok hrun⟩
  | error s w' =>
    cases s with
    | failed e => exact ⟨_, w', attempt_of_failed hrun⟩
    | crashed => exact absurd hrun (hx w w')

/-! ## Layer B: after the setup -/

section

variable {env : Surroundings} (hsafe : env.schedule.Safe) {settings : Settings} {user : Ident}
  {engine : Engine}
include hsafe

theorem completes_process (sum : Summary) (t : Transaction) :
    Completes (process env settings user engine sum t) := by
  unfold process
  cases engine.evaluate t with
  | none => exact .pure _
  | some cs =>
    -- Whatever comes of the writing is taken down, a failure as well.
    refine .bind (.attempt ((built_apply env settings user cs).uncrashed hsafe)) fun result => ?_
    rcases result with e | _ | modified
    · exact .pure _
    · exact .pure _
    · exact .pure _

theorem completes_processAll (ts : List Transaction) (sum : Summary) :
    Completes (processAll env settings user engine sum ts) := by
  induction ts generalizing sum with
  | nil => exact .pure sum
  | cons t ts ih => exact .bind (completes_process hsafe sum t) ih

theorem completes_processNamed (ids : List Ident) (sum : Summary) :
    Completes (processNamed env settings user engine sum ids) := by
  induction ids generalizing sum with
  | nil => exact .pure sum
  | cons id ids ih =>
    -- A transaction that cannot be had ends the scan, and one that is not there is passed over.
    refine .bind (.attempt (.perform hsafe _)) fun result => ?_
    rcases result with e | _ | t
    · exact .pure sum
    · exact ih sum
    · exact .bind (completes_process hsafe sum t) ih

theorem completes_processPages (size : UInt64) (left : Nat) (page : UInt64) (sum : Summary) :
    Completes (processPages env settings user engine size left page sum) := by
  induction left generalizing page sum with
  | zero => exact .pure sum
  | succ left ih =>
    refine .bind .cancelled fun stop => ?_
    split
    · exact .pure _
    · -- A page that cannot be had ends the scan, and the summary stands as it is.
      refine .bind (.attempt (.perform hsafe _)) fun result => ?_
      rcases result with e | ts
      · exact .pure sum
      · refine .bind (completes_processAll hsafe ts sum) fun sum => ?_
        split
        · exact .pure sum
        · exact ih (page + 1) sum

theorem completes_processRequest (request : Request) (sum : Summary) :
    Completes (processRequest env settings user engine request sum) := by
  unfold processRequest
  split
  · refine .bind .cancelled fun stop => ?_
    split
    · exact .pure _
    · exact completes_processNamed hsafe _ sum
  · exact completes_processPages hsafe _ _ _ sum

end

end Run

/-! ## Layer C: the setup decides -/

section

variable {σ : Schedule} (hσ : σ.Alone) (hsafe : σ.Safe) {l : Ledger} {now : Instant} {user : Ident}
  {request : Request} (settings : Settings) (flag : Option Bool)
include hσ hsafe

/-- Where the resolution is answered and finds no rules, the run has nothing to do. -/
theorem exists_execute_eq_empty
    (hall : σ.AnswersAll now l [] (l.resolutionCalls now user request.rules))
    (hnone : l.resolve now user request.rules = .ok []) :
    ∃ w, Run.execute ⟨now, σ⟩ settings user request ⟨l, flag, []⟩ = .ok Summary.empty w ∧
      w.ledger = l ∧ w.events = answeredAll (l.resolutionCalls now user request.rules) := by
  obtain ⟨rules, w, hrules, hrun, hledger, htrail⟩ :=
    (Run.follows_workingSet hσ hsafe request.rules).answered ⟨l, flag, []⟩ rfl hall
  rw [hnone] at hrules
  cases hrules
  refine ⟨w, ?_, hledger, by simpa using htrail.events⟩
  rw [Run.execute, Run.bind_of_ok hrun]
  rfl

/-- Where the setup is answered, the run comes to a summary. -/
theorem exists_execute_eq_ok
    (hall : σ.AnswersAll now l [] (l.setupCalls now user request.rules)) :
    ∃ s w, Run.execute ⟨now, σ⟩ settings user request ⟨l, flag, []⟩ = .ok s w := by
  obtain ⟨hresolution, hsnapshot⟩ := Schedule.answersAll_append_iff.mp hall
  obtain ⟨rules, w₁, hrules, hrun₁, hledger₁, htrail₁⟩ :=
    (Run.follows_workingSet hσ hsafe request.rules).answered ⟨l, flag, []⟩ rfl hresolution
  by_cases hsome : rules = []
  · rw [hsome] at hrules
    obtain ⟨w, hrun, -⟩ := exists_execute_eq_empty hσ hsafe settings flag hresolution hrules
    exact ⟨_, w, hrun⟩
  · -- The engine is built, and nothing fails the run after that.
    simp only [hrules, hsome, if_false, ← htrail₁.events] at hsnapshot
    obtain ⟨engine, w₂, -, hrun₂, -⟩ :=
      (Run.follows_engineFor hσ hsafe rules).answered w₁ hledger₁ hsnapshot
    rw [Run.execute_eq_prepared, Run.prepared_eq hrun₁ hsome hrun₂]
    exact Run.completes_processRequest hsafe request _ w₂

/-- Where a call of the setup fails, the run ends with the first that does. -/
theorem exists_execute_eq_error {before : List Call} {c : Call} {e : LedgerError}
    (hfails : σ.FailsFirst now l [] (l.setupCalls now user request.rules) before c e) :
    ∃ w, Run.execute ⟨now, σ⟩ settings user request ⟨l, flag, []⟩ = .error (.failed e) w ∧
      w.ledger = l ∧ w.events = ⟨c, false⟩ :: answeredAll before ∧
      ∀ ev ∈ w.events, ev.call.area ≠ .transactions := by
  have hsetup : ∀ ev ∈ ⟨c, false⟩ :: answeredAll before, ev.call.area ≠ .transactions := by
    intro ev hev
    apply Ledger.area_of_mem_setupCalls (hfails.1.subset _)
    rcases List.mem_cons.mp hev with rfl | hbefore
    · exact List.mem_append_right _ List.mem_cons_self
    · exact List.mem_append_left _ (call_mem_of_mem_answeredAll hbefore)
  suffices hend : ∃ w, Run.execute ⟨now, σ⟩ settings user request ⟨l, flag, []⟩ =
      .error (.failed e) w ∧ w.ledger = l ∧ w.events = ⟨c, false⟩ :: answeredAll before by
    obtain ⟨w, hrun, hledger, hevents⟩ := hend
    exact ⟨w, hrun, hledger, hevents, hevents ▸ hsetup⟩
  -- A failure lies in the resolution, or in the snapshot after a resolution that was answered.
  rcases Schedule.FailsFirst.of_append hfails with hfirst | ⟨before', rfl, hall, hsecond⟩
  · -- The rules cannot be resolved.
    obtain ⟨w, hrun, hledger, hevents⟩ :=
      (Run.follows_workingSet hσ hsafe request.rules).failed ⟨l, flag, []⟩ rfl before c e hfirst
    exact ⟨w, Run.bind_of_error hrun, hledger, by simpa using hevents⟩
  · obtain ⟨rules, w₁, hrules, hrun₁, hledger₁, htrail₁⟩ :=
      (Run.follows_workingSet hσ hsafe request.rules).answered ⟨l, flag, []⟩ rfl hall
    by_cases hsome : rules = []
    · -- Without rules no call is left that could fail.
      simp only [hrules, hsome, if_true] at hsecond
      have hreached := hsecond.1
      simp at hreached
    · -- The snapshot cannot be taken.
      simp only [hrules, hsome, if_false, ← htrail₁.events] at hsecond
      obtain ⟨w₂, hrun₂, hledger₂, hevents₂⟩ :=
        (Run.follows_engineFor hσ hsafe rules).failed w₁ hledger₁ before' c e hsecond
      refine ⟨w₂, ?_, hledger₂, ?_⟩
      · rw [Run.execute, Run.bind_of_ok hrun₁]
        simp only [List.isEmpty_iff, hsome, if_false]
        exact Run.bind_of_error hrun₂
      · rw [hevents₂, htrail₁.events, answeredAll_append, List.append_nil]

end

/-- **A run fails exactly if a call of its setup fails.** From any ledger, for any request, let a
    run be alone with the ledger and let any calls be refused to it. The calls of its setup read
    rules, categories and accounts. If all of them are answered, the run comes to a summary; and if
    one of them fails, the run ends with the error of the first that does, having made no call but
    those of the setup up to there, and the ledger is as it was. Where the rules are resolved and
    there are none, the summary says nothing and only rules have been asked for. -/
theorem execute_fails_iff_setup_fails {σ : Schedule} (hσ : σ.Alone) (hsafe : σ.Safe) (l : Ledger)
    (now : Instant) (settings : Settings) (user : Ident) (request : Request) (flag : Option Bool) :
    let resolution := l.resolutionCalls now user request.rules
    let setup := l.setupCalls now user request.rules
    let result := Run.execute ⟨now, σ⟩ settings user request ⟨l, flag, []⟩
    ((∃ stop w, result = .error stop w) ↔ ∃ before c e, σ.FailsFirst now l [] setup before c e) ∧
    ((∃ s w, result = .ok s w) ↔ σ.AnswersAll now l [] setup) ∧
    (∀ stop w, result = .error stop w →
      w.ledger = l ∧ (∀ ev ∈ w.events, ev.call.area ≠ .transactions) ∧
      ∃ before c e, σ.FailsFirst now l [] setup before c e ∧ stop = .failed e ∧
        w.events = ⟨c, false⟩ :: answeredAll before) ∧
    (σ.AnswersAll now l [] resolution → l.resolve now user request.rules = .ok [] →
      ∃ w, result = .ok Summary.empty w ∧ w.ledger = l ∧ w.events = answeredAll resolution ∧
        ∀ ev ∈ w.events, ev.call.area = .rules) := by
  intro resolution setup result
  have hok : σ.AnswersAll now l [] setup → ∃ s w, result = .ok s w :=
    exists_execute_eq_ok hσ hsafe settings flag
  have herror : ∀ before c e, σ.FailsFirst now l [] setup before c e →
      ∃ w, result = .error (.failed e) w ∧ w.ledger = l ∧
        w.events = ⟨c, false⟩ :: answeredAll before ∧
        ∀ ev ∈ w.events, ev.call.area ≠ .transactions :=
    fun before c e => exists_execute_eq_error hσ hsafe settings flag
  -- The setup is answered or fails, and a run has one result.
  have hfails : ∀ stop w, result = .error stop w →
      ∃ before c e, σ.FailsFirst now l [] setup before c e := by
    intro stop w hresult
    refine (Schedule.answersAll_or_failsFirst σ now l [] setup).resolve_left fun hall => ?_
    obtain ⟨s, w', hrun⟩ := hok hall
    rw [hrun] at hresult
    cases hresult
  refine ⟨⟨?_, ?_⟩, ⟨?_, hok⟩, ?_, ?_⟩
  · rintro ⟨stop, w, hresult⟩
    exact hfails stop w hresult
  · rintro ⟨before, c, e, h⟩
    obtain ⟨w, hrun, -⟩ := herror before c e h
    exact ⟨_, w, hrun⟩
  · rintro ⟨s, w, hresult⟩
    refine (Schedule.answersAll_or_failsFirst σ now l [] setup).resolve_right ?_
    rintro ⟨before, c, e, h⟩
    obtain ⟨w', hrun, -⟩ := herror before c e h
    rw [hrun] at hresult
    cases hresult
  · intro stop w hresult
    obtain ⟨before, c, e, h⟩ := hfails stop w hresult
    obtain ⟨w', hrun, hledger, hevents, harea⟩ := herror before c e h
    rw [hrun] at hresult
    cases hresult
    exact ⟨hledger, harea, before, c, e, h, rfl, hevents⟩
  -- Without rules the summary is there at once, and the calls so far are the resolution.
  · intro hall hnone
    obtain ⟨w, hrun, hledger, hevents⟩ :=
      exists_execute_eq_empty hσ hsafe settings flag hall hnone
    refine ⟨w, hrun, hledger, hevents, fun ev hev => ?_⟩
    rw [hevents] at hev
    exact Ledger.area_of_mem_resolutionCalls (call_mem_of_mem_answeredAll hev)

/-- A run over the small ledger to which the categories are refused fails once its rules are read,
    and a run to which all transactions are refused does not. -/
theorem execute_fails_iff_setup_fails_streaming :
    let result := fun refused : Call → Bool =>
      Run.execute ⟨Ledger.dawn, .refusing fun _ c => refused c⟩ .standard 1 .all
        ⟨Ledger.streaming, some false, []⟩
    (∃ stop w, result (· == .categories 1) = .error stop w ∧ w.ledger = Ledger.streaming) ∧
    ∃ s w, result (fun c => decide (c.area = .transactions)) = .ok s w := by
  intro result
  have hsafe : ∀ refused : Call → Bool, (Schedule.refusing fun _ c => refused c).Safe := by
    intro refused es c
    cases hc : refused c <;> simp [Schedule.refusing, hc]
  have hsetup : Ledger.streaming.setupCalls Ledger.dawn 1 Request.all.rules =
      [.rules 1, .conditions 1, .actions 1] ++ [.categories 1] := by
    decide +kernel
  constructor
  -- The refused call is the fourth of the plan, and the three before it are answered.
  · obtain ⟨hfails, -, hclean, -⟩ := execute_fails_iff_setup_fails
      (σ := .refusing fun _ c => c == .categories 1) (fun _ _ => rfl) (hsafe _) Ledger.streaming
      Ledger.dawn .standard 1 .all (some false)
    obtain ⟨stop, w, hrun⟩ := hfails.mpr ⟨[.rules 1, .conditions 1, .actions 1], .categories 1,
      .store .full, hsetup ▸ List.prefix_refl _, by decide +kernel, by decide +kernel⟩
    exact ⟨stop, w, hrun, (hclean stop w hrun).1⟩
  -- No call of the plan is about transactions, so none is refused.
  · obtain ⟨-, hanswered, -⟩ := execute_fails_iff_setup_fails
      (σ := .refusing fun _ c => decide (c.area = .transactions)) (fun _ _ => rfl) (hsafe _)
      Ledger.streaming Ledger.dawn .standard 1 .all (some false)
    apply hanswered.mpr
    rw [hsetup]
    decide +kernel

end LedgerRules
