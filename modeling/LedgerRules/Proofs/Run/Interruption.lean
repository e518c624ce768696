import LedgerRules.Proofs.Run.Mirror
import LedgerRules.Proofs.Run.Scan

/-!
# Interrupted runs

A run goes over its transactions in parts: page by page, or one named transaction after another. It
ends early if it is asked to stop, or if a part cannot be read. Then it has done what the run that
nothing disturbs has done after as many parts, and nothing of the next one.

## Overview

- **Layer A**: the parts of a run, and the run that goes over the first of them.
- **Layer B**: how a run ends beside one that nothing disturbs.
- **Layer C**: pages.
- **Layer D**: named transactions.
- **Layer E**: whole runs.
-/

namespace LedgerRules

/-! ## Layer A: parts of a run -/

/-- The call by which a run reads its part `k`: a page, or one of the named transactions. -/
def Request.load? (request : Request) (settings : Settings) (user : Ident) (k : Nat) :
    Option Call :=
  match request.transactions with
  | some ids => ids.eraseDups[k]?.map fun id => .transaction id user
  | none => some (.page user (UInt64.ofNat k) (settings.pageSize request.pageSize))

/-- Whether a run looks at the flag before its part `k`: before every page, but only before the
    first of the named transactions. -/
def Request.Looks (request : Request) (k : Nat) : Prop :=
  request.transactions = none ∨ k = 0

namespace Run

variable (env : Surroundings) (settings : Settings) (user : Ident)

/-- Evaluates the rules on the first `k` parts of what a request covers. -/
def processFirst (engine : Engine) (request : Request) (k : Nat) (sum : Summary) : Run Summary :=
  match request.transactions with
  | some ids => processNamed env settings user engine sum (ids.eraseDups.take k)
  | none => processPages env settings user engine (settings.pageSize request.pageSize) k 0 sum

/-- A run that goes over its first `k` parts only. -/
def firstParts (request : Request) (k : Nat) : Run Summary :=
  prepared env user request.rules fun engine sum =>
    processFirst env settings user engine request k sum

end Run

/-! ## Layer B: early ends -/

namespace Run

variable {σ : Schedule} {flag : Option Bool} {looks looks' : Nat → Prop}
  {load : Nat → Option Call} {s₀ s : Summary} {w₀ w : World}

/-- In the world `w₀` the call is the next one that was made and answered after those in `w`. -/
def Next (w₀ w : World) (c : Call) : Prop := ⟨c, true⟩ :: w.events <:+ w₀.events

/-- How a run ends after `k` parts, beside one that nothing disturbs: that one has the summary `s`
    and the world `w` after as many parts, and `s₀` and `w₀` in the end. -/
inductive Ends (σ : Schedule) (flag : Option Bool) (looks : Nat → Prop)
    (load : Nat → Option Call) (s₀ : Summary) (w₀ : World) (k : Nat) (s : Summary) (w : World) :
    EStateM.Result Stop World Summary → Prop
  /-- There are no more parts. -/
  | through {v : World} (summary : s = s₀) (world : w = w₀) (ledger : v.ledger = w.ledger)
      (events : v.events = w.events) : Ends σ flag looks load s₀ w₀ k s w (.ok s v)
  /-- The run looks at the flag and is asked to stop. -/
  | asked {v : World} (look : looks k) (raised : σ.flagAfter flag w.events = some true)
      (next : ∀ c, load k = some c → Next w₀ w c) (ledger : v.ledger = w.ledger)
      (events : v.events = w.events) :
      Ends σ flag looks load s₀ w₀ k s w (.ok { s with cancelled := true } v)
  /-- The next part cannot be read. -/
  | refused {v : World} {c : Call}
      (unasked : ¬ (looks k ∧ σ.flagAfter flag w.events = some true)) (call : load k = some c)
      (fate : (σ w.events c).fate ≠ .served) (next : Next w₀ w c) (ledger : v.ledger = w.ledger)
      (events : v.events = ⟨c, false⟩ :: w.events) :
      Ends σ flag looks load s₀ w₀ k s w (.ok s v)

/-- A run goes on with its part `k`: it is not asked to stop, or does not look, and can read it. -/
def GoesOn (σ : Schedule) (flag : Option Bool) (looks : Nat → Prop) (load : Nat → Option Call)
    (w₀ : World) (k : Nat) (w : World) : Prop :=
  ¬ (looks k ∧ σ.flagAfter flag w.events = some true) ∧
    ∃ c, load k = some c ∧ (σ w.events c).fate = .served ∧ Next w₀ w c

/-- **A run is a prefix of another**: for some `k` it goes on with each of its first `k` parts, and
    then it ends. What the undisturbed run has after its first parts is given by `upTo`. -/
def IsPrefix (σ : Schedule) (flag : Option Bool) (looks : Nat → Prop) (load : Nat → Option Call)
    (upTo : Nat → EStateM.Result Stop World Summary) (s₀ : Summary) (w₀ : World)
    (result : EStateM.Result Stop World Summary) : Prop :=
  ∃ k s w, upTo k = .ok s w ∧ s.cancelled = false ∧
    (∀ j < k, ∃ sj wj, upTo j = .ok sj wj ∧ GoesOn σ flag looks load w₀ j wj) ∧
    Ends σ flag looks load s₀ w₀ k s w result

namespace IsPrefix

variable {upTo upTo' : Nat → EStateM.Result Stop World Summary}
  {result : EStateM.Result Stop World Summary}

theorem zero (hupTo : upTo 0 = .ok s w) (hs : s.cancelled = false)
    (h : Ends σ flag looks load s₀ w₀ 0 s w result) :
    IsPrefix σ flag looks load upTo s₀ w₀ result :=
  ⟨0, s, w, hupTo, hs, fun j hj => absurd hj (Nat.not_lt_zero j), h⟩

/-- A run that goes on with its first part, and what it does then. -/
theorem succ (hupTo : upTo 0 = .ok s w) (hgo : GoesOn σ flag looks load w₀ 0 w)
    (hshift : ∀ j, upTo (j + 1) = upTo' j)
    (h : IsPrefix σ flag (fun j => looks (j + 1)) (fun j => load (j + 1)) upTo' s₀ w₀ result) :
    IsPrefix σ flag looks load upTo s₀ w₀ result := by
  obtain ⟨k, sk, wk, hk, hsk, hbefore, hends⟩ := h
  refine ⟨k + 1, sk, wk, (hshift k).trans hk, hsk, ?_, ?_⟩
  · -- The first part is the new one, and the others come one later than before.
    -- The parts that come before the end are one more than in the rest.
    intro j hj
    cases j with
    | zero => exact ⟨s, w, hupTo, hgo⟩
    | succ j =>
      rw [hshift j]
      exact hbefore j (Nat.lt_of_succ_lt_succ hj)
  · cases hends with
    -- How the rest ends says nothing of the parts before it, so it is how the whole ends.
    | through hsummary hworld hledger hevents =>
      exact .through hsummary hworld hledger hevents
    | asked hlook hraised hnext hledger hevents =>
      exact .asked hlook hraised hnext hledger hevents
    | refused hunasked hcall hfate hnext hledger hevents =>
      exact .refused hunasked hcall hfate hnext hledger hevents

/-- A run that finds itself not asked may as well have looked. -/
theorem of_looks (h : IsPrefix σ flag (fun _ => False) load upTo s₀ w₀ result)
    (hlooks : ∀ k s w, looks k → upTo k = .ok s w → σ.flagAfter flag w.events ≠ some true) :
    IsPrefix σ flag looks load upTo s₀ w₀ result := by
  obtain ⟨k, s, w, hk, hs, hbefore, hends⟩ := h
  refine ⟨k, s, w, hk, hs, ?_, ?_⟩
  · intro j hj
    obtain ⟨sj, wj, hj, -, hread⟩ := hbefore j hj
    exact ⟨sj, wj, hj, fun hasked => hlooks j sj wj hasked.1 hj hasked.2, hread⟩
  -- Only the refusal has to be shown anew, for it says that the run was not asked.
  · cases hends with
    | through hsummary hworld hledger hevents =>
      exact .through hsummary hworld hledger hevents
    | asked hlook => exact hlook.elim
    | refused _ hcall hfate hnext hledger hevents =>
      exact .refused (fun hasked => hlooks k s w hasked.1 hk hasked.2) hcall hfate hnext hledger
        hevents

end IsPrefix

end Run

/-! ## Layer C: pages -/

namespace Run

variable {σ : Schedule} {now : Instant} {s s' : Summary}
  {w₀ w w₁ w' : World}

theorem events_of_perform {env : Surroundings} {c : Call} {a : c.Answer}
    (h : perform env c w = .ok a w') : w'.events = ⟨c, true⟩ :: w.events := by
  simp only [perform] at h
  split at h
  · split at h
    · cases h
      rfl
    · cases h
  · cases h
  · cases h

variable {settings : Settings} {user : Ident} {engine : Engine} {size page : UInt64}
  {ts : List Transaction}

/-- What a run does after it has read a page does not undo the call. -/
theorem next_of_page (hpage : perform ⟨now, .calm⟩ (.page user page size) w = .ok ts w₁)
    (hall : processAll ⟨now, .calm⟩ settings user engine s ts w₁ = .ok s' w') :
    Next w' w (.page user page size) := by
  -- The mirror is taken for the calm run itself: what it keeps is that the page has been read.
  have hmirror : Mirrors .calm none now
      (fun es => (⟨.page user page size, true⟩ : Event) :: w.events <:+ es)
      (fun env => processAll env settings user engine s ts) :=
    .processAll (Schedule.refusesOnly_calm _) (fun ev es h => h.trans (List.suffix_cons ev es)) ts s
  -- That the page was read is known from the first call after it on.
  have hread : (⟨.page user page size, true⟩ : Event) :: w.events <:+ w₁.events := by
    simp only [events_of_perform hpage, List.suffix_refl]
  have hknown := hmirror.known w₁ hread
  rw [hall] at hknown
  exact hknown

/-- **One page.** A run that comes to a page as the undisturbed run does ends before it, or goes
    over it as that run does. -/
theorem ends_or_goesOn_page (hσ : σ.RefusesOnly (Call.OfScan false)) (flag : Option Bool)
    (load : Nat → Option Call) (hload : load 0 = some (.page user page size)) (s₀ : Summary)
    (hpage : perform ⟨now, .calm⟩ (.page user page size) w = .ok ts w₁)
    (hall : processAll ⟨now, .calm⟩ settings user engine s ts w₁ = .ok s' w')
    (hnext : Next w₀ w (.page user page size)) (left : Nat) :
    Ends σ flag (fun _ => True) load s₀ w₀ 0 s w
        (processPages ⟨now, σ⟩ settings user engine size (left + 1) page s (w.under σ flag)) ∨
      GoesOn σ flag (fun _ => True) load w₀ 0 w ∧
        processPages ⟨now, σ⟩ settings user engine size (left + 1) page s (w.under σ flag) =
          if ts.length < size.toNat then .ok s' (w'.under σ flag)
          else processPages ⟨now, σ⟩ settings user engine size left (page + 1) s'
            (w'.under σ flag) := by
  by_cases hraised : σ.flagAfter flag w.events = some true
  · -- The run looks at the flag and stops.
    rw [processPages_of_raised hraised]
    refine .inl (.asked trivial hraised ?_ rfl rfl)
    intro c hc
    rw [hload] at hc
    cases hc
    exact hnext
  · have hunasked : ¬ (True ∧ σ.flagAfter flag w.events = some true) := fun h => hraised h.2
    cases hfate : (σ w.events (.page user page size)).fate with
    | served =>
      have hunder : perform ⟨now, σ⟩ (.page user page size) (w.under σ flag) =
          .ok ts (w₁.under σ flag) := by
        rw [perform_under hσ.alone hfate, hpage]
        rfl
      -- Going over the page does not look at the flag.
      have hmirror : Mirrors σ flag now (fun _ => True)
          (fun env => processAll env settings user engine s ts) :=
        .processAll hσ (fun _ _ h => h) ts s
      have hall' : processAll ⟨now, σ⟩ settings user engine s ts (w₁.under σ flag) =
          .ok s' (w'.under σ flag) := by
        rw [hmirror.run w₁ trivial, hall]
        rfl
      exact .inr ⟨⟨hunasked, _, hload, hfate, hnext⟩, processPages_succ hraised hunder hall' left⟩
    | refused e =>
      -- The failure is taken as the end of the scan; the ledger has not been touched.
      have hcheck : cancelled (w.under σ flag) = .ok false (w.under σ flag) :=
        cancelled_of_not_raised hraised
      have hunder : perform ⟨now, σ⟩ (.page user page size) (w.under σ flag) =
          .error (.failed e) ((w.under σ flag).after σ (.page user page size) false w.ledger) :=
        perform_of_refused hσ.alone hfate
      rw [processPages, bind_of_ok hcheck]
      simp only [Bool.false_eq_true, if_false]
      rw [bind_of_ok (attempt_of_failed hunder)]
      exact .inl (.refused hunasked hload (by simp [hfate]) hnext rfl rfl)
    | crashed => exact absurd hfate (hσ.safe _ _)

end Run

namespace Pass

variable {p : Pass} {σ : Schedule} {evs : List Event} {s₀ s : Summary} {w₀ w : World}

/-- The calls that read the pages from one on. -/
def pagesFrom (p : Pass) (size : UInt64) (k j : Nat) : Option Call :=
  some (.page p.user (UInt64.ofNat (k + j)) size)

theorem pagesFrom_succ (p : Pass) (size : UInt64) (k : Nat) :
    p.pagesFrom size (k + 1) = fun j => p.pagesFrom size k (j + 1) := by
  funext j
  rw [pagesFrom, pagesFrom, Nat.add_right_comm k 1 j, Nat.add_assoc]

/-- **The scan of the pages** from one page on is a prefix of the undisturbed one. -/
theorem exists_isPrefix_processPages (hσ : σ.RefusesOnly (Call.OfScan false)) (flag : Option Bool)
    (hready : p.Ready w₀.ledger) (hflag : w₀.flag ≠ some true) (hs₀ : s₀.cancelled = false)
    {size : UInt64} (hsize : 1 ≤ size.toNat ∧ size.toNat ≤ 1000) (left k : Nat)
    (hk : k * size.toNat ≤ (p.listing w₀.ledger).length)
    (hroom : (p.listing w₀.ledger).length < (k + left) * size.toNat)
    (h : p.Covers .calm (((p.listing w₀.ledger).map (·.1)).take (k * size.toNat)) evs s₀ w₀ s w) :
    ∃ s' w',
      Run.processPages ⟨p.now, .calm⟩ p.settings p.user p.engine size left (UInt64.ofNat k) s w =
        .ok s' w' ∧
      Run.Next w' w (.page p.user (UInt64.ofNat k) size) ∧
      Run.IsPrefix σ flag (fun _ => True)
        (p.pagesFrom size k)
        (fun j =>
          Run.processPages ⟨p.now, .calm⟩ p.settings p.user p.engine size j (UInt64.ofNat k) s w)
        s' w'
        (Run.processPages ⟨p.now, σ⟩ p.settings p.user p.engine size left (UInt64.ofNat k) s
          (w.under σ flag)) := by
  have hlength := length_listing_lt hready.sound p
  -- On the pages that are left. What the undisturbed run has covered so far says which page comes
  -- next, and that it can be read.
  induction left generalizing k evs s w with
  | zero =>
    rw [Nat.add_zero] at hroom
    omega
  | succ left ih =>
    have hle : k ≤ k * size.toNat := Nat.le_mul_of_pos_right k hsize.1
    have hnext : (k + 1) * size.toNat = k * size.toNat + size.toNat := Nat.succ_mul k size.toNat
    obtain ⟨ts, w₁, evs', s', w', hpage, hcount, hall, hcovers⟩ :=
      h.exists_page Schedule.alone_calm Schedule.safe_calm hready hsize.2
        (by omega) (by omega) rfl
    -- None of the parts before has moved the flag or said that the run was cancelled.
    have hw : w.flag ≠ some true := by
      rw [h.trail.flag Schedule.silent_calm]
      exact hflag
    have hs : s.cancelled = false := by
      rw [h.summary]
      exact hs₀
    have hs' : s'.cancelled = false := by
      rw [hcovers.summary]
      exact hs₀
    have hstep := Run.processPages_succ hw hpage hall
    have hpast := Run.next_of_page hpage hall
    have hload : p.pagesFrom size k 0 = some (.page p.user (UInt64.ofNat k) size) := rfl
    by_cases hlast : ts.length < size.toNat
    · -- The undisturbed run ends after this page.
      refine ⟨s', w', by rw [hstep, if_pos hlast], hpast, ?_⟩
      rcases Run.ends_or_goesOn_page hσ flag (p.pagesFrom size k) hload s' hpage hall hpast left
        with hends | ⟨hgo, hrun⟩
      · exact .zero rfl hs hends
      · rw [hrun, if_pos hlast]
        -- What is left to go through after it has no part any more.
        have hdone : Run.IsPrefix σ flag (fun _ => True) (fun j => p.pagesFrom size k (j + 1))
            (fun _ => .ok s' w') s' w' (.ok s' (w'.under σ flag)) :=
          .zero rfl hs' (.through rfl rfl rfl rfl)
        refine .succ rfl hgo (fun j => ?_) hdone
        rw [hstep, if_pos hlast]
    · -- It goes on, and its end is that of the scan from the next page on.
      obtain ⟨s'', w'', hfull, hnext', hprefix⟩ :=
        ih (k + 1) (by omega) (by rwa [Nat.add_right_comm k 1 left, Nat.add_assoc]) hcovers
      have hpast' : Run.Next w'' w (.page p.user (UInt64.ofNat k) size) :=
        (hpast.trans (List.suffix_cons _ _)).trans hnext'
      refine ⟨s'', w'', by rw [hstep, if_neg hlast, ofNat_word_succ, hfull], hpast', ?_⟩
      rcases Run.ends_or_goesOn_page hσ flag (p.pagesFrom size k) hload s'' hpage hall hpast' left
        with hends | ⟨hgo, hrun⟩
      · exact .zero rfl hs hends
      · rw [hrun, if_neg hlast, ofNat_word_succ]
        rw [pagesFrom_succ] at hprefix
        refine .succ rfl hgo (fun j => ?_) hprefix
        rw [hstep, if_neg hlast, ofNat_word_succ]

end Pass

/-! ## Layer D: named transactions -/

namespace Run

variable {σ : Schedule} {now : Instant} {s s' : Summary} {w₀ w w₁ w' : World}
  {settings : Settings} {user : Ident} {engine : Engine} {id : Ident} {t : Option Transaction}

/-- Going over a named transaction looks the same once it has been looked up. -/
theorem mirrors_processLoaded (hσ : σ.RefusesOnly (Call.OfScan true)) (flag : Option Bool)
    (ht : ∀ found, t = some found → found.id = id) (s : Summary) :
    Mirrors σ flag now (fun es => ⟨.transaction id user, true⟩ ∈ es)
      (fun env => processLoaded env settings user engine s t) := by
  cases t with
  | none => exact .pure s
  | some t =>
    -- Writing its changes reads it again, which is not a call of the scan any more.
    refine .process hσ (fun ev es h => List.mem_cons_of_mem ev h) (fun es hread hscan => ?_) s
    rw [ht t rfl] at hscan
    exact hscan.2 hread

/-- **One named transaction.** A run that comes to it as the undisturbed run does ends before it, or
    goes over it as that run does. -/
theorem ends_or_goesOn_named (hσ : σ.RefusesOnly (Call.OfScan true)) (flag : Option Bool)
    (load : Nat → Option Call) (hfirst : load 0 = some (.transaction id user)) (s₀ : Summary)
    (hload : perform ⟨now, .calm⟩ (.transaction id user) w = .ok t w₁)
    (ht : ∀ found, t = some found → found.id = id)
    (hdone : processLoaded ⟨now, .calm⟩ settings user engine s t w₁ = .ok s' w')
    (hnext : Next w₀ w (.transaction id user)) (ids : List Ident) :
    Ends σ flag (fun _ => False) load s₀ w₀ 0 s w
        (processNamed ⟨now, σ⟩ settings user engine s (id :: ids) (w.under σ flag)) ∨
      GoesOn σ flag (fun _ => False) load w₀ 0 w ∧
        processNamed ⟨now, σ⟩ settings user engine s (id :: ids) (w.under σ flag) =
          processNamed ⟨now, σ⟩ settings user engine s' ids (w'.under σ flag) := by
  have hunasked : ¬ (False ∧ σ.flagAfter flag w.events = some true) := fun h => h.1
  -- The flag is not looked at here: all depends on whether the transaction can be read.
  cases hfate : (σ w.events (.transaction id user)).fate with
  | served =>
    have hunder : perform ⟨now, σ⟩ (.transaction id user) (w.under σ flag) =
        .ok t (w₁.under σ flag) := by
      rw [perform_under hσ.alone hfate, hload]
      rfl
    have hread : (⟨.transaction id user, true⟩ : Event) ∈ w₁.events := by
      rw [events_of_perform hload]
      exact List.mem_cons_self
    have hdone' : processLoaded ⟨now, σ⟩ settings user engine s t (w₁.under σ flag) =
        .ok s' (w'.under σ flag) := by
      rw [(mirrors_processLoaded hσ flag ht s).run w₁ hread, hdone]
      rfl
    exact .inr ⟨⟨hunasked, _, hfirst, hfate, hnext⟩, processNamed_cons hunder hdone' ids⟩
  | refused e =>
    have hunder : perform ⟨now, σ⟩ (.transaction id user) (w.under σ flag) =
        .error (.failed e) ((w.under σ flag).after σ (.transaction id user) false w.ledger) :=
      perform_of_refused hσ.alone hfate
    rw [processNamed, bind_of_ok (attempt_of_failed hunder)]
    exact .inl (.refused hunasked hfirst (by simp [hfate]) hnext rfl rfl)
  | crashed => exact absurd hfate (hσ.safe _ _)

end Run

namespace Pass

variable {p : Pass} {σ : Schedule} {s : Summary} {w : World}

/-- **The scan of named transactions** is a prefix of the undisturbed one. -/
theorem exists_isPrefix_processNamed (hσ : σ.RefusesOnly (Call.OfScan true)) (flag : Option Bool)
    (ids : List Ident) (hready : p.Ready w.ledger) (hs : s.cancelled = false) :
    ∃ s' w', Run.processNamed ⟨p.now, .calm⟩ p.settings p.user p.engine s ids w = .ok s' w' ∧
      w.events <:+ w'.events ∧
      (∀ c, (ids[0]?.map fun id => Call.transaction id p.user) = some c → Run.Next w' w c) ∧
      Run.IsPrefix σ flag (fun _ => False)
        (fun j => ids[j]?.map fun id => Call.transaction id p.user)
        (fun j => Run.processNamed ⟨p.now, .calm⟩ p.settings p.user p.engine s (ids.take j) w)
        s' w' (Run.processNamed ⟨p.now, σ⟩ p.settings p.user p.engine s ids (w.under σ flag)) := by
  -- On the names that are left, whether or not one of them has come before.
  induction ids generalizing w s with
  | nil =>
    -- Without names left neither run makes a call.
    refine ⟨s, w, rfl, List.suffix_refl _, by simp, .zero rfl hs ?_⟩
    exact .through rfl rfl rfl rfl
  | cons id ids ih =>
    obtain ⟨t, w₁, evs, s₁, w₂, hload, hw₁, ht, hdone, hcovers⟩ := exists_covers_processLoaded
      Schedule.alone_calm Schedule.safe_calm hready id rfl s
    have hready₂ : p.Ready w₂.ledger := hcovers.ready (hw₁ ▸ hready)
    have hs₁ : s₁.cancelled = false := by
      rw [hcovers.summary]
      exact hs
    obtain ⟨s', w', hfull, hgrown, -, hprefix⟩ := ih hready₂ hs₁
    -- The lookup is the next call, for all later ones are made on top of it.
    have hpast : Run.Next w' w (.transaction id p.user) := by
      rw [hcovers.trail.events, Run.events_of_perform hload] at hgrown
      exact (List.suffix_append evs _).trans hgrown
    have hstep := Run.processNamed_cons hload hdone
    refine ⟨s', w', (hstep ids).trans hfull, (List.suffix_cons _ _).trans hpast, ?_, ?_⟩
    · intro c hc
      cases hc
      exact hpast
    · rcases Run.ends_or_goesOn_named hσ flag
        (fun j => (id :: ids)[j]?.map fun id => .transaction id p.user) rfl s' hload ht hdone hpast
        ids with hends | ⟨hgo, hrun⟩
      · exact .zero rfl hs hends
      · rw [hrun]
        refine .succ rfl hgo (fun j => ?_) hprefix
        exact hstep (ids.take j)

end Pass

/-! ## Layer E: whole runs -/

/-- **A scan that may be interrupted** is a prefix of the undisturbed one. -/
theorem Pass.exists_isPrefix_processRequest {p : Pass} {σ : Schedule} {request : Request}
    (hσ : σ.RefusesOnly (Call.OfScan request.transactions.isSome)) (flag : Option Bool) {w : World}
    (hready : p.Ready w.ledger) (hflag : w.flag ≠ some true) {s : Summary}
    (hs : s.cancelled = false) :
    ∃ s' w',
      Run.processRequest ⟨p.now, .calm⟩ p.settings p.user p.engine request s w = .ok s' w' ∧
      Run.IsPrefix σ flag request.Looks (request.load? p.settings p.user)
        (fun k => Run.processFirst ⟨p.now, .calm⟩ p.settings p.user p.engine request k s w) s' w'
        (Run.processRequest ⟨p.now, σ⟩ p.settings p.user p.engine request s (w.under σ flag)) := by
  cases hnamed : request.transactions with
  | some ids =>
    rw [hnamed] at hσ
    obtain ⟨s', w', hfull, -, hnext, hprefix⟩ :=
      exists_isPrefix_processNamed hσ flag ids.eraseDups hready hs
    -- The names without repetitions are the parts, one lookup each.
    have hload : request.load? p.settings p.user =
        fun j => ids.eraseDups[j]?.map fun id => .transaction id p.user := by
      funext j
      simp only [Request.load?, hnamed]
    have hfirst : ∀ k, Run.processFirst ⟨p.now, .calm⟩ p.settings p.user p.engine request k s w =
        Run.processNamed ⟨p.now, .calm⟩ p.settings p.user p.engine s (ids.eraseDups.take k) w := by
      intro k
      simp only [Run.processFirst, hnamed]
    refine ⟨s', w', ?_, ?_⟩
    · simp only [Run.processRequest, hnamed]
      rw [Run.bind_of_ok (Run.cancelled_of_not_raised hflag)]
      exact hfull
    · simp only [hload, hfirst, Run.processRequest, hnamed]
      by_cases hraised : σ.flagAfter flag w.events = some true
      -- Asked at the one look there is, the run ends before its first part.
      · have hstop : Run.cancelled (w.under σ flag) = .ok true (w.under σ flag) :=
          Run.cancelled_of_raised hraised
        rw [Run.bind_of_ok hstop]
        exact .zero rfl hs (.asked (.inr rfl) hraised hnext rfl rfl)
      · have hgo : Run.cancelled (w.under σ flag) = .ok false (w.under σ flag) :=
          Run.cancelled_of_not_raised hraised
        rw [Run.bind_of_ok hgo]
        -- The flag is looked at once, before the first of them.
        refine hprefix.of_looks fun k sk wk hlook hk => ?_
        have hzero : k = 0 := hlook.resolve_left (by simp [hnamed])
        subst hzero
        cases hk
        exact hraised
  | none =>
    rw [hnamed] at hσ
    have hsize := p.settings.pageSize_bounds request.pageSize
    obtain ⟨s', w', hfull, -, hprefix⟩ := exists_isPrefix_processPages hσ flag hready hflag hs hsize
      Run.pageCount 0 (by rw [Nat.zero_mul]; exact Nat.zero_le _)
      (length_listing_lt_pages hready hsize.1) (.start _)
    -- A scan of pages looks at the flag before each of them.
    have hlooks : request.Looks = fun _ => True := by
      funext k
      simp [Request.Looks, hnamed]
    have hload : request.load? p.settings p.user =
        p.pagesFrom (p.settings.pageSize request.pageSize) 0 := by
      funext j
      simp only [Request.load?, hnamed, pagesFrom, Nat.zero_add]
    refine ⟨s', w', ?_, ?_⟩
    · simp only [Run.processRequest, hnamed]
      exact hfull
    · simp only [hlooks, hload, Run.processFirst, Run.processRequest, hnamed]
      exact hprefix

/-- **Interrupted runs are exact prefixes.** From a reachable ledger, with a resolved rule at least,
    let a run be alone with the ledger, let no call be refused to it but reads of its parts, and let
    it be asked to stop at any moment. Beside the run in which nothing happens it goes over some of
    the first parts as that run does, and then ends in one of three ways: there are no more parts,
    and it has the same summary and ledger; or it looks at the flag and finds it raised, which alone
    makes it say so in its summary; or the next part cannot be read. In the last two cases its
    summary and its ledger are those of the undisturbed run after as many parts. -/
theorem interrupted_runs_are_prefixes {l : Ledger} (hl : l.Reachable) {σ : Schedule}
    {request : Request} (hσ : σ.RefusesOnly (Call.OfScan request.transactions.isSome))
    {now : Instant} {user : Ident} {rules : List CompleteRule}
    (hrules : l.resolve now user request.rules = .ok rules) (hsome : rules ≠ [])
    (settings : Settings) (flag : Option Bool) :
    ∃ s₀ w₀, Run.execute ⟨now, .calm⟩ settings user request ⟨l, none, []⟩ = .ok s₀ w₀ ∧
      (∃ w, Run.firstParts ⟨now, .calm⟩ settings user request 0 ⟨l, none, []⟩ =
          .ok { Summary.empty with totalRules := UInt64.ofNat rules.length } w ∧
        w.ledger = l ∧ ∀ ev ∈ w.events, ev.call.subject? = none) ∧
      Run.IsPrefix σ flag request.Looks (request.load? settings user)
        (fun k => Run.firstParts ⟨now, .calm⟩ settings user request k ⟨l, none, []⟩) s₀ w₀
        (Run.execute ⟨now, σ⟩ settings user request ⟨l, flag, []⟩) := by
  have hsound := hl.sound
  obtain ⟨snapshot, hsnapshot⟩ := hsound.exists_snapshot now user
  -- The undisturbed run finds the rules and builds the engine.
  have hserved : ∀ es c, c.subject? = none → (Schedule.calm es c).fate = .served := fun _ _ _ => rfl
  obtain ⟨evs₁, w₁, hrun₁, hledger₁, htrail₁⟩ :=
    Run.finds_workingSet Schedule.alone_calm Schedule.safe_calm hserved hrules ⟨l, none, []⟩ rfl
  obtain ⟨e, hfinds, hagrees⟩ :=
    Run.finds_engineFor Schedule.alone_calm Schedule.safe_calm hserved hsnapshot rules
  obtain ⟨evs₂, w₂, hrun₂, hledger₂, htrail₂⟩ := hfinds w₁ hledger₁
  have htrail := htrail₁.trans htrail₂
  have hcalm := Run.prepared_eq hrun₁ hsome hrun₂
  -- The run that may be interrupted comes just as far.
  have hstart : (⟨l, none, []⟩ : World).under σ flag = ⟨l, flag, []⟩ := by
    cases flag <;> simp [World.under, Schedule.flagAfter, Schedule.asked]
  have hrules' : Run.workingSet ⟨now, σ⟩ user request.rules ⟨l, flag, []⟩ =
      .ok rules (w₁.under σ flag) := by
    have hmirror : Run.Mirrors σ flag now (fun _ => True)
        (fun env => Run.workingSet env user request.rules) :=
      .workingSet hσ (fun _ _ h => h) request.rules
    rw [← hstart, hmirror.run _ trivial, hrun₁]
    rfl
  have hengine' : Run.engineFor ⟨now, σ⟩ user rules (w₁.under σ flag) =
      .ok e (w₂.under σ flag) := by
    have hmirror : Run.Mirrors σ flag now (fun _ => True)
        (fun env => Run.engineFor env user rules) :=
      .engineFor hσ (fun _ _ h => h) rules
    rw [hmirror.run _ trivial, hrun₂]
    rfl
  have hready : Pass.Ready ⟨e, now, settings, user⟩ w₂.ledger := by
    rw [hledger₂]
    exact Pass.ready_of_snapshot hsound hsnapshot hagrees
  -- The flag was down at the start, and the setup does not touch it.
  have hflag : w₂.flag ≠ some true := by
    rw [htrail.flag Schedule.silent_calm]
    simp
  obtain ⟨s₀, w₀, hfull, hprefix⟩ := Pass.exists_isPrefix_processRequest hσ flag hready hflag
    (s := { Summary.empty with totalRules := UInt64.ofNat rules.length }) rfl
  refine ⟨s₀, w₀, ?_, ⟨w₂, ?_, hledger₂, ?_⟩, ?_⟩
  · rw [Run.execute_eq_prepared, hcalm]
    exact hfull
  -- No part has been gone over yet, and the setup writes nothing.
  · rw [Run.firstParts, hcalm, Run.processFirst]
    cases request.transactions <;> rfl
  · intro ev hev
    rw [htrail.events, List.append_nil] at hev
    exact (htrail.all ev hev).2
  · -- From the setup on both are scans.
    simp only [Run.firstParts, hcalm]
    rw [Run.execute_eq_prepared, Run.prepared_eq hrules' hsome hengine']
    exact hprefix

/-- Of three named transactions the second cannot be read. So the run goes on with the first of them
    only, which it files, and it ends because the next part is refused to it. -/
theorem interrupted_runs_are_prefixes_streaming :
    let request : Request := ⟨none, some [1, 2, 3], none⟩
    let σ : Schedule := .refusing fun es c =>
      c == .transaction 2 1 && !es.contains ⟨.transaction 2 1, true⟩
    let upTo := fun k => Run.firstParts ⟨Ledger.dawn, .calm⟩ .standard 1 request k
      ⟨Ledger.streaming, none, []⟩
    let result := Run.execute ⟨Ledger.dawn, σ⟩ .standard 1 request ⟨Ledger.streaming, none, []⟩
    ∃ s₀ w₀ s w v, Run.execute ⟨Ledger.dawn, .calm⟩ .standard 1 request
        ⟨Ledger.streaming, none, []⟩ = .ok s₀ w₀ ∧
      Run.IsPrefix σ none request.Looks (request.load? .standard 1) upTo s₀ w₀ result ∧
      upTo 1 = .ok s w ∧
      (result = .ok s v ∧ v.ledger = w.ledger ∧
        v.events = ⟨.transaction 2 1, false⟩ :: w.events) ∧
      (s.modified = [⟨1, [1], [.category]⟩] ∧ s.processed = 1 ∧ s.cancelled = false) ∧
      s₀.processed = 3 := by
  intro request σ upTo result
  have hσ : σ.RefusesOnly (Call.OfScan request.transactions.isSome) := by
    apply Schedule.refusesOnly_refusing
    intro es c hc
    obtain ⟨hcall, hfirst⟩ := Bool.and_eq_true_iff.mp hc
    rw [eq_of_beq hcall]
    exact ⟨rfl, by simpa using hfirst⟩
  have hrules : Ledger.streaming.resolve Ledger.dawn 1 request.rules =
      .ok [Ledger.streamRule] := Ledger.resolve_streaming
  obtain ⟨s₀, w₀, hrun, -, hprefix⟩ :=
    interrupted_runs_are_prefixes Ledger.reachable_streaming hσ hrules (by simp) .standard none
  -- The outcomes are computed; which of the three ways it is has to be read off them.
  have hwhole : (backgroundSummary (Run.execute ⟨Ledger.dawn, .calm⟩ .standard 1 request
      ⟨Ledger.streaming, none, []⟩)).map (·.processed) = some 3 := by
    decide +kernel
  rw [hrun] at hwhole
  have hthree : s₀.processed = 3 := Option.some.inj hwhole
  have hcut : (backgroundSummary result).map (fun s => (s.modified, s.processed, s.cancelled)) =
      some ([⟨1, [1], [.category]⟩], 1, false) := by
    decide +kernel
  have hlast : (Run.worldOf result).events.head? = some ⟨.transaction 2 1, false⟩ := by
    decide +kernel
  obtain ⟨k, s, w, hk, -, -, hends⟩ := id hprefix
  -- The interrupted run ends with a summary, so the failing outcome is none of its own.
  obtain ⟨s', v, hresult⟩ : ∃ s' v, result = .ok s' v := by
    cases hresult : result with
    | error stop v =>
      rw [hresult] at hcut
      cases hcut
    | ok s' v => exact ⟨s', v, rfl⟩
  change Run.Ends σ none _ _ s₀ w₀ k s w result at hends
  rw [hresult] at hends hcut hlast
  obtain ⟨hmodified, hrest⟩ := Prod.mk.inj (Option.some.inj hcut)
  obtain ⟨hprocessed, hcancelled⟩ := Prod.mk.inj hrest
  -- Of the three ways to end, only a refusal leaves one transaction counted and the flag alone.
  cases hends with
  | through hsummary =>
    rw [hsummary, hthree] at hprocessed
    cases hprocessed
  | asked => cases hcancelled
  | @refused _ c _ hcall _ _ hledger hevents =>
    rw [show (Run.worldOf (.ok s v)).events = ⟨c, false⟩ :: w.events from hevents] at hlast
    cases hlast
    -- The second transaction is the part after the first.
    have hnamed : ([1, 2, 3] : List Ident).eraseDups = [1, 2, 3] := by decide
    have hsecond : ∀ k < 3, ([1, 2, 3] : List Ident)[k]? = some 2 → k = 1 := by decide
    obtain ⟨id, hid, hload⟩ := Option.map_eq_some_iff.mp hcall
    obtain ⟨rfl, -⟩ := Call.transaction.inj hload
    rw [hnamed] at hid
    have hlt : k < 3 := (List.getElem?_eq_some_iff.mp hid).1
    obtain rfl : k = 1 := hsecond k hlt hid
    exact ⟨s₀, w₀, s, w, v, hrun, hprefix, hk, ⟨hresult, hledger, hevents⟩,
      ⟨hmodified, hprocessed, hcancelled⟩, hthree⟩

end LedgerRules
