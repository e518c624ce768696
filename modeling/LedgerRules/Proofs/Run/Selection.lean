import LedgerRules.Proofs.Run.Undisturbed

/-!
# Runs over a selection

A run over named transactions takes them up one after the other, in the order in which they are
named first. What comes of it does not depend on that order: transactions that the user does not own
and names that come again make no difference, and a scan of all pages does to its transactions what
a run does that names all of them.

## Overview

- **Layer A**: taking things up in turn.
- **Layer B**: the transactions of a user that are asked for.
- **Layer C**: two requests that ask for the same transactions.
- **Layer D**: the order in which named transactions are taken up.
- **Layer E**: the theorem.
-/

namespace LedgerRules

/-! ## Layer A: in turn -/

/-- The second list takes up the elements of the first one after the other, each of them once or
    several times before it goes on to the next. -/
inductive InTurn {α : Type} : List α → List α → Prop where
  | nil : InTurn [] []
  | cons (x : α) {xs ys : List α} (again : Nat) (h : InTurn xs ys) :
      InTurn (x :: xs) (List.replicate (again + 1) x ++ ys)

/-- Calls that are about one transaction or about none take up this one only. -/
theorem filterMap_subject?_eq_replicate {evs : List Event} {id : Ident}
    (h : ∀ ev ∈ evs, ∀ i, ev.call.subject? = some i → i ∈ [id]) :
    ∃ n, evs.reverse.filterMap (·.call.subject?) = List.replicate n id := by
  refine ⟨_, List.eq_replicate_iff.mpr ⟨rfl, fun i hi => ?_⟩⟩
  obtain ⟨ev, hev, hsubject⟩ := List.mem_filterMap.mp hi
  exact List.mem_singleton.mp (h ev (List.mem_reverse.mp hev) i hsubject)

/-! ## Layer B: what is asked for -/

/-- Whether a user owns a transaction. -/
def Ledger.Owns (l : Ledger) (user id : Ident) : Prop := (l.ownedTransaction? id user).isSome = true

/-- The transactions of a user in a list of names, in the order in which they are named first. -/
def Ledger.chosen (l : Ledger) (user : Ident) (ids : List Ident) : List Ident :=
  ids.eraseDups.filter fun id => (l.ownedTransaction? id user).isSome

namespace Pass

variable {p : Pass} {l : Ledger} {request request' : Request}

/-- The transactions of the user over which a run goes. -/
def gone (p : Pass) (l : Ledger) (request : Request) : List Ident :=
  (p.covered l request).filter fun id => (l.ownedTransaction? id p.user).isSome

/-- A run goes over what the user owns and the request covers. -/
theorem mem_gone_iff {id : Ident} :
    id ∈ p.gone l request ↔ l.Owns p.user id ∧ request.Covers id := by
  rw [gone, List.mem_filter, and_comm]
  refine and_congr_right fun howns => ?_
  obtain ⟨row, howned⟩ := Option.isSome_iff_exists.mp howns
  exact mem_covered_iff howned

theorem nodup_gone (p : Pass) (l : Ledger) (request : Request) : (p.gone l request).Nodup :=
  (p.nodup_covered l request).filter _

/-- The number that a run counts is the number of those that it goes over. -/
theorem count_covered (p : Pass) (l : Ledger) (request : Request) :
    p.count l (p.covered l request) = (p.gone l request).length := by
  rw [count, gone, List.countP_eq_length_filter]

/-- Of the transactions gone over only those of the user are reported. -/
theorem filterMap_covered (p : Pass) (l : Ledger) (request : Request) :
    ((p.covered l request).filterMap fun id =>
        (l.ownedTransaction? id p.user).bind (p.report id)) =
      (p.gone l request).filterMap fun id =>
        (l.ownedTransaction? id p.user).bind (p.report id) := by
  rw [gone, List.filterMap_filter]
  refine List.filterMap_congr fun id _ => ?_
  cases howned : l.ownedTransaction? id p.user with
  | none => simp
  | some row => simp

/-- There are fewer of them than words. -/
theorem length_gone_lt (hl : l.Sound) (p : Pass) (request : Request) :
    (p.gone l request).length < 0x8000000000000000 := by
  -- They are all in the user's listing, and a ledger that can be reached is not too long.
  have hsubset : p.gone l request ⊆ (p.listing l).map (·.1) := by
    intro id hid
    obtain ⟨row, howned⟩ := Option.isSome_iff_exists.mp (mem_gone_iff.mp hid).1
    exact List.mem_map.mpr ⟨(id, row), mem_listing_iff.mpr howned, rfl⟩
  have hle := (List.subperm_of_subset (p.nodup_gone l request) hsubset).length_le
  rw [List.length_map] at hle
  exact Nat.lt_of_le_of_lt hle (length_listing_lt hl p)

/-! ## Layer C: the same transactions -/

/-- Two requests that ask for the same transactions of a user. -/
def SameChoice (l : Ledger) (user : Ident) (request request' : Request) : Prop :=
  ∀ id, l.Owns user id → (request.Covers id ↔ request'.Covers id)

variable (h : SameChoice l p.user request request')
include h

/-- What a run makes of a row depends on the request only through what is asked of the user's. -/
theorem passOver_of_sameChoice {e : Ident × TransactionRow} (he : e ∈ l.transactions.entries) :
    p.passOver request e.1 e.2 = p.passOver request' e.1 e.2 := by
  by_cases huser : e.2.user = p.user
  · have howned : l.ownedTransaction? e.1 p.user = some e.2 :=
      Ledger.ownedTransaction?_eq_some_iff.mpr ⟨Table.get?_eq_some_iff.mpr he, huser⟩
    have howns : l.Owns p.user e.1 := by rw [Ledger.Owns, howned]; rfl
    simp only [passOver, h e.1 howns]
  -- A row of somebody else is left alone whatever is asked for.
  · simp only [passOver, huser, and_false]

/-- The order is all in which what they go over can differ. -/
theorem gone_perm : (p.gone l request).Perm (p.gone l request') := by
  refine (List.perm_ext_iff_of_nodup (p.nodup_gone l request) (p.nodup_gone l request')).mpr ?_
  intro id
  rw [mem_gone_iff, mem_gone_iff]
  exact and_congr_right (h id)

end Pass

/-- The report on a row is the same at any time. -/
theorem Pass.report_at {p : Pass} {accounts categories : Table NamedRow} {row : TransactionRow}
    (h : Ledger.SoundTransaction accounts categories row) (now : Instant) (id : Ident) :
    ({ p with now } : Pass).report id row = p.report id row := by
  simp only [report, staged, h.read_eq now p.now id]

/-- A run that leaves a ledger behind and reports, in some order, what a summary reports. -/
def ComesTo (result : EStateM.Result Stop World Summary) (s : Summary) (l : Ledger) : Prop :=
  ∃ s' w', result = .ok s' w' ∧ w'.ledger = l ∧ s'.modified.Perm s.modified ∧
    s'.processed = s.processed

/-- **Runs that ask for the same transactions come to the same**, whenever they are made. -/
theorem comesTo_of_sameChoice {l : Ledger} (hl : l.Sound) {σ : Schedule} {flag : Option Bool}
    (hσ : σ.Undisturbed flag) {now now' : Instant} {user : Ident} (request request' : Request)
    {rules : List CompleteRule} (hrules : l.resolve now' user request'.rules = .ok rules)
    (hsome : rules ≠ []) {snapshot : Snapshot} (hsnapshot : l.snapshot now user = .ok snapshot)
    (settings : Settings) (h : Pass.SameChoice l user request request') {s : Summary} :
    let p : Pass := ⟨{ snapshot with rules }, now, settings, user⟩
    s.modified = ((p.gone l request).filterMap fun id =>
      (l.ownedTransaction? id user).bind (p.report id)) →
    s.processed = UInt64.ofNat (p.gone l request).length →
    ComesTo (Run.execute ⟨now', σ⟩ settings user request' ⟨l, flag, []⟩) s
      (l.revise (p.passOver request)) := by
  intro p hmodified hprocessed
  let p' : Pass := { p with now := now' }
  have hsnapshot' : l.snapshot now' user = .ok snapshot := by
    rw [hl.snapshot_eq now' now, hsnapshot]
  obtain ⟨s', w', hrun, hledger, hmodified', hprocessed'⟩ :=
    exists_execute_undisturbed hl hσ hrules hsnapshot' settings
  -- The run is stated with the other clock; what it covers is put in terms of the second request.
  change w'.ledger = l.revise (p'.passOver request') at hledger
  change s'.modified = (p'.covered l request').filterMap
    (fun id => (l.ownedTransaction? id p'.user).bind (p'.report id)) at hmodified'
  change s'.processed = if rules = [] then 0 else UInt64.ofNat (p'.count l (p'.covered l request'))
    at hprocessed'
  have hperm : (p'.gone l request').Perm (p.gone l request) :=
    (Pass.gone_perm (p := p) h).symm
  refine ⟨s', w', hrun, ?_, ?_, ?_⟩
  · rw [hledger]
    apply Ledger.revise_congr
    intro e he
    rw [Pass.passOver_at (hl.transactions e he), Pass.passOver_of_sameChoice (p := p) h he]
  · -- The reports do not depend on the clock, and their order is that of the transactions.
    have hreport : (fun id => (l.ownedTransaction? id p'.user).bind (p'.report id)) =
        fun id => (l.ownedTransaction? id user).bind (p.report id) := by
      funext id
      cases howned : l.ownedTransaction? id user with
      | none => simp [p', p]
      | some row =>
        have hat := Pass.report_at (p := p) (hl.soundTransaction howned) now' id
        simpa [p', p] using hat
    rw [hmodified', p'.filterMap_covered, hreport, hmodified]
    exact hperm.filterMap _
  · rw [hprocessed', if_neg hsome, p'.count_covered, hperm.length_eq, hprocessed]

/-! ## Layer D: the order of named transactions -/

namespace Pass

variable {p : Pass} {σ : Schedule}

/-- **Named transactions are taken up in turn.** -/
theorem inTurn_processNamed (hσ : σ.Alone) (hserving : σ.Serving) (ids : List Ident) (w : World)
    (hready : p.Ready w.ledger) (s : Summary) :
    ∃ evs s' w', Run.processNamed ⟨p.now, σ⟩ p.settings p.user p.engine s ids w = .ok s' w' ∧
      w'.events = evs ++ w.events ∧ InTurn ids (evs.reverse.filterMap (·.call.subject?)) := by
  -- On the names that are left; the ledger stays ready whatever was done about the others.
  induction ids generalizing w s with
  | nil => exact ⟨[], s, w, rfl, rfl, .nil⟩
  | cons id ids ih =>
    obtain ⟨t, w₁, evs₁, s₁, w₂, hload, rfl, -, hdone, hcovers⟩ :=
      exists_covers_processLoaded hσ hserving.safe hready id (hserving _ _) s
    obtain ⟨evs₂, s', w', hrun, hevents, hturn⟩ := ih w₂ (hcovers.ready hready) s₁
    refine ⟨evs₂ ++ (evs₁ ++ [⟨.transaction id p.user, true⟩]), s', w', ?_, ?_, ?_⟩
    · rw [Run.processNamed_cons hload hdone, hrun]
    · rw [hevents, hcovers.trail.events]
      simp [World.after]
    · -- The lookup comes first, and whatever follows is about the same transaction.
      obtain ⟨again, hagain⟩ := filterMap_subject?_eq_replicate hcovers.trail.all
      have hfirst : (evs₁ ++ [(⟨.transaction id p.user, true⟩ : Event)]).reverse.filterMap
          (·.call.subject?) = List.replicate (again + 1) id := by
        rw [List.reverse_append, List.filterMap_append, hagain]
        rfl
      rw [List.reverse_append, List.filterMap_append, hfirst]
      exact .cons id again hturn

end Pass

/-- **A run over named transactions takes them up in the order in which they are named first.** -/
theorem inTurn_execute {l : Ledger} (hl : l.Sound) {σ : Schedule} {flag : Option Bool}
    (hσ : σ.Undisturbed flag) {now : Instant} {user : Ident} {named : Option (List Ident)}
    {rules : List CompleteRule} (hrules : l.resolve now user named = .ok rules)
    (hsome : rules ≠ []) {snapshot : Snapshot} (hsnapshot : l.snapshot now user = .ok snapshot)
    (settings : Settings) (ids : List Ident) (pageSize : Option Int64) {s : Summary} {w : World}
    (hrun : Run.execute ⟨now, σ⟩ settings user ⟨named, some ids, pageSize⟩ ⟨l, flag, []⟩ =
      .ok s w) :
    InTurn ids.eraseDups (w.events.reverse.filterMap (·.call.subject?)) := by
  have hserved : ∀ es c, c.subject? = none → (σ es c).fate = .served :=
    fun es c _ => hσ.serving es c
  -- The calls of the setup are about no transaction.
  obtain ⟨evs₁, w₁, hrun₁, hledger₁, htrail₁⟩ :=
    Run.finds_workingSet hσ.alone hσ.serving.safe hserved hrules ⟨l, flag, []⟩ rfl
  obtain ⟨e, hfinds, hagrees⟩ :=
    Run.finds_engineFor hσ.alone hσ.serving.safe hserved hsnapshot rules
  obtain ⟨evs₂, w₂, hrun₂, hledger₂, htrail₂⟩ := hfinds w₁ hledger₁
  have htrail := htrail₁.trans htrail₂
  have hsetup : w₂.events.reverse.filterMap (·.call.subject?) = [] := by
    refine List.filterMap_eq_nil_iff.mpr fun ev hev => ?_
    rw [List.mem_reverse, htrail.events, List.append_nil] at hev
    exact (htrail.all ev hev).2
  have hflag : w₂.flag ≠ some true := by
    rw [htrail.flag hσ.silent]
    exact hσ.unasked
  let p : Pass := ⟨e, now, settings, user⟩
  have hready : p.Ready w₂.ledger := hledger₂ ▸ Pass.ready_of_snapshot hl hsnapshot hagrees
  obtain ⟨evs, s', w', hnamed, hevents, hturn⟩ :=
    Pass.inTurn_processNamed hσ.alone hσ.serving ids.eraseDups w₂ hready
      { Summary.empty with totalRules := UInt64.ofNat rules.length }
  rw [Run.execute_eq_prepared, Run.prepared_eq hrun₁ hsome hrun₂, Run.processRequest] at hrun
  simp only at hrun
  -- The flag is down, so the names are gone through.
  rw [Run.bind_of_ok (Run.cancelled_of_not_raised hflag)] at hrun
  simp only [Bool.false_eq_true, if_false] at hrun
  rw [show Run.processNamed ⟨now, σ⟩ settings user e _ ids.eraseDups w₂ = .ok s' w' from hnamed]
    at hrun
  cases hrun
  rw [hevents, List.reverse_append, List.filterMap_append, hsetup, List.nil_append]
  exact hturn

/-! ## Layer E: the theorem -/

/-- **Runs over named transactions depend only on the set of names.** From a reachable ledger, with
    resolved rules, and where nothing disturbs the run: it takes up the named transactions in the
    order in which they are named first, goes over exactly those that the user owns, which it
    counts, settles the rows of these and no others, and reports in their order. Any other
    undisturbed run that names the same transactions of the user, in whatever order, however often
    and among whatever other names, comes to the same ledger and the same count, and reports the
    same in some order; and if these are all transactions of the user, so does the scan of all
    pages. -/
theorem named_runs_depend_on_set {l : Ledger} (hl : l.Reachable) {σ : Schedule}
    {flag : Option Bool} (hσ : σ.Undisturbed flag) {now : Instant} {user : Ident}
    {named : Option (List Ident)} {rules : List CompleteRule}
    (hrules : l.resolve now user named = .ok rules) (hsome : rules ≠ []) (settings : Settings)
    (ids : List Ident) (pageSize : Option Int64) :
    ∃ snapshot s w, l.snapshot now user = .ok snapshot ∧
      Run.execute ⟨now, σ⟩ settings user ⟨named, some ids, pageSize⟩ ⟨l, flag, []⟩ = .ok s w ∧
      let p : Pass := ⟨{ snapshot with rules }, now, settings, user⟩
      let chosen := l.chosen user ids
      InTurn ids.eraseDups (w.events.reverse.filterMap (·.call.subject?)) ∧
      s.processed.toNat = chosen.length ∧
      w.ledger = l.revise (fun id row => if id ∈ chosen then p.settle id row else row) ∧
      s.modified = (chosen.filterMap fun id =>
        (l.ownedTransaction? id user).bind (p.report id)) ∧
      ∀ {σ' : Schedule} {flag' : Option Bool}, σ'.Undisturbed flag' →
        ∀ {now' : Instant} {named' : Option (List Ident)},
          l.resolve now' user named' = .ok rules → ∀ pageSize' : Option Int64,
            (∀ ids' : List Ident, (∀ id, l.Owns user id → (id ∈ ids ↔ id ∈ ids')) →
              ComesTo (Run.execute ⟨now', σ'⟩ settings user ⟨named', some ids', pageSize'⟩
                ⟨l, flag', []⟩) s w.ledger) ∧
            ((∀ id, l.Owns user id → id ∈ ids) →
              ComesTo (Run.execute ⟨now', σ'⟩ settings user ⟨named', none, pageSize'⟩
                ⟨l, flag', []⟩) s w.ledger) := by
  have hsound := hl.sound
  obtain ⟨snapshot, hsnapshot⟩ := hsound.exists_snapshot now user
  let request : Request := ⟨named, some ids, pageSize⟩
  let p : Pass := ⟨{ snapshot with rules }, now, settings, user⟩
  have hresolved : l.resolve now user request.rules = .ok rules := hrules
  obtain ⟨s, w, hrun, hledger, hmodified, hprocessed⟩ :=
    exists_execute_undisturbed hsound hσ hresolved hsnapshot settings
  change w.ledger = l.revise (p.passOver request) at hledger
  change s.modified = (p.covered l request).filterMap
    (fun id => (l.ownedTransaction? id p.user).bind (p.report id)) at hmodified
  change s.processed = if rules = [] then 0 else UInt64.ofNat (p.count l (p.covered l request))
    at hprocessed
  rw [p.filterMap_covered] at hmodified
  rw [if_neg hsome, p.count_covered] at hprocessed
  -- Naming a transaction is what it means for a request with names to cover it.
  have hgone : p.gone l request = l.chosen user ids := rfl
  have hcovers : ∀ id, request.Covers id ↔ id ∈ ids := fun id =>
    ⟨fun h => h ids rfl, fun h ids' hids => Option.some.inj hids ▸ h⟩
  refine ⟨snapshot, s, w, hsnapshot, hrun,
    inTurn_execute hsound hσ hrules hsome hsnapshot settings ids pageSize hrun, ?_, ?_, hmodified,
    fun hσ' now' named' hrules' pageSize' => ⟨fun ids' hsame => ?_, fun hall => ?_⟩⟩
  · rw [hprocessed, toNat_ofNat_word (Pass.length_gone_lt hsound p request), hgone]
  · rw [hledger]
    apply Ledger.revise_congr
    intro e he
    -- Among the rows of the user, those that are asked for are those that are chosen.
    by_cases huser : e.2.user = user
    · have howned : l.ownedTransaction? e.1 user = some e.2 :=
        Ledger.ownedTransaction?_eq_some_iff.mpr ⟨Table.get?_eq_some_iff.mpr he, huser⟩
      have hmem : e.1 ∈ l.chosen user ids ↔ request.Covers e.1 := by
        rw [← hgone, Pass.mem_gone_iff]
        exact and_iff_right (by rw [Ledger.Owns, howned]; rfl)
      simp only [Pass.passOver, hmem, huser, p, and_true]
    · have hmem : e.1 ∉ l.chosen user ids := by
        rw [← hgone, Pass.mem_gone_iff]
        rintro ⟨howns, -⟩
        obtain ⟨row, howned⟩ := Option.isSome_iff_exists.mp howns
        rw [← Ledger.eq_of_ownedTransaction? howned he rfl] at howned
        exact huser (Ledger.ownedTransaction?_eq_some_iff.mp howned).2
      simp only [Pass.passOver, hmem, huser, p, and_false, if_false]
  -- Any other names: of the user's transactions they ask for the same.
  · rw [hledger]
    refine comesTo_of_sameChoice hsound hσ' request ⟨named', some ids', pageSize'⟩ hrules' hsome
      hsnapshot settings (fun id howns => ?_) hmodified hprocessed
    rw [hcovers, hsame id howns]
    exact ⟨fun h ids'' hids => Option.some.inj hids ▸ h, fun h => h ids' rfl⟩
  · rw [hledger]
    refine comesTo_of_sameChoice hsound hσ' request ⟨named', none, pageSize'⟩ hrules' hsome
      hsnapshot settings (fun id howns => ?_) hmodified hprocessed
    rw [hcovers]
    -- Without names all are covered.
    refine iff_of_true (hall id howns) fun ids' hids => ?_
    cases hids

/-- All three transactions of the small ledger, named in two ways and not named at all. -/
theorem named_runs_depend_on_set_streaming :
    let world : World := ⟨Ledger.streaming, none, []⟩
    ∃ s w, Run.execute ⟨Ledger.dawn, .calm⟩ .standard 1 ⟨none, some [3, 9, 1, 2, 3], none⟩ world =
        .ok s w ∧
      InTurn [3, 9, 1, 2] (w.events.reverse.filterMap (·.call.subject?)) ∧
      s.processed.toNat = 3 ∧ s.modified.map (·.transaction) = [3, 1] ∧
      ComesTo (Run.execute ⟨Ledger.dawn, .calm⟩ .standard 1 ⟨none, some [2, 1, 1, 3], none⟩ world) s
        w.ledger ∧
      ComesTo (Run.execute ⟨Ledger.dawn, .calm⟩ .standard 1 ⟨none, none, some 2⟩ world) s
        w.ledger := by
  intro world
  obtain ⟨snapshot, s, w, -, hrun, hturn, hprocessed, -, -, hothers⟩ :=
    named_runs_depend_on_set Ledger.reachable_streaming Schedule.undisturbed_calm
      Ledger.resolve_streaming (by simp) .standard [3, 9, 1, 2, 3] none
  have hmodified : (backgroundSummary (Run.execute ⟨Ledger.dawn, .calm⟩ .standard 1
      ⟨none, some [3, 9, 1, 2, 3], none⟩ world)).map (fun s => s.modified.map (·.transaction)) =
        some [3, 1] := by
    decide +kernel
  rw [hrun] at hmodified
  have howned : ∀ id, Ledger.streaming.Owns 1 id → id ∈ [1, 2, 3] := by
    intro id howns
    obtain ⟨row, howned⟩ := Option.isSome_iff_exists.mp howns
    have hget := (Ledger.ownedTransaction?_eq_some_iff.mp howned).1
    have hall : ∀ e ∈ Ledger.streaming.transactions.entries, e.1 ∈ [1, 2, 3] := by decide +kernel
    exact hall _ (Table.get?_eq_some_iff.mp hget)
  have hnamed : ∀ id, Ledger.streaming.Owns 1 id → id ∈ [3, 9, 1, 2, 3] ∧ id ∈ [2, 1, 1, 3] := by
    intro id howns
    have hid := howned id howns
    simp only [List.mem_cons, List.not_mem_nil, or_false] at hid ⊢
    rcases hid with rfl | rfl | rfl <;> simp
  -- The number 9 is nobody's transaction, and the repetitions make no difference.
  have hsame := hothers Schedule.undisturbed_calm Ledger.resolve_streaming
  exact ⟨s, w, hrun, hturn, hprocessed, Option.some.inj hmodified,
    (hsame none).1 [2, 1, 1, 3] fun id howns => iff_of_true (hnamed id howns).1 (hnamed id howns).2,
    (hsame (some 2)).2 fun id howns => (hnamed id howns).1⟩

end LedgerRules
