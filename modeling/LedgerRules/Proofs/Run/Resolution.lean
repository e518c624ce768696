import LedgerRules.Proofs.Run.History
import LedgerRules.Proofs.Run.Setup
import LedgerRules.Proofs.Run.Tenants
import LedgerRules.Proofs.Run.Undisturbed

/-!
# Ways to resolve rules

A run asks for its rules by their identifiers, or for all that are in effect, and a listing shows
all of them. Whichever way a rule is found, it is the same rule with the same conditions and
actions. Among named rules only the identifiers that the user owns count, each where it comes
first; what is named besides them changes neither the rules nor what the run does.

## Overview

- **Layer A**: the rules of a ledger as they are listed.
- **Layer B**: rules that are selected by name, and those in effect.
- **Layer C**: names that do not count.
- **Layer D**: runs that differ in the rules that they look up.
- **Layer E**: the ways agree.
-/

namespace LedgerRules

namespace Ledger

variable {l : Ledger} {now : Instant} {user : Ident} {ids ids' : List Ident} {base : List Rule}
  {all : List CompleteRule}

/-! ## Layer A: the listed rules -/

/-- The rules of a user as they are listed at any time, and with their conditions and actions. -/
structure Lists (l : Ledger) (user : Ident) (base : List Rule) (all : List CompleteRule) :
    Prop where
  listed : ∀ clock, l.rulesOf clock user = .ok base
  completed : base.mapM l.completeRule = .ok all

/-- The rules of a user in a sound ledger can be listed and completed. -/
theorem Sound.exists_lists (hl : Sound l) (user : Ident) : ∃ base all, l.Lists user base all := by
  obtain ⟨base, hbase⟩ := hl.exists_rulesOf dawn user
  obtain ⟨all, hall⟩ := exists_mapM_eq_ok fun rule (_ : rule ∈ base) => hl.exists_completeRule rule
  exact ⟨base, all, fun clock => (hl.rulesOf_eq clock dawn user).trans hbase, hall⟩

theorem rule_of_completeRule {rule : Rule} {r : CompleteRule} (h : l.completeRule rule = .ok r) :
    r.rule = rule := by
  obtain ⟨conditions, -, h⟩ := bind_eq_ok_iff.mp h
  obtain ⟨actions, -, h⟩ := bind_eq_ok_iff.mp h
  cases h
  rfl

/-- Completing rules leaves their identifiers. -/
theorem ids_of_mapM_completeRule {rules : List Rule} {complete : List CompleteRule}
    (h : rules.mapM l.completeRule = .ok complete) :
    complete.map (·.rule.id) = rules.map (·.id) :=
  map_eq_map_of_mapM h fun rule r hr => by rw [rule_of_completeRule hr]

namespace Lists

variable (h : l.Lists user base all)
include h

theorem completeRulesOf (clock : Instant) : l.completeRulesOf clock user = .ok all := by
  have hcomplete : l.completeRulesOf clock user =
      (l.rulesOf clock user >>= fun rules => rules.mapM l.completeRule) := rfl
  rw [hcomplete, h.listed clock]
  exact h.completed

/-- No rule is listed twice. -/
theorem nodup : (all.map (·.rule.id)).Nodup := by
  rw [ids_of_mapM_completeRule h.completed]
  exact nodup_ids_rulesOf (h.listed dawn)

/-- What is listed is owned. -/
theorem ownsRule {rule : Rule} (hrule : rule ∈ base) : l.ownsRule user rule.id = true := by
  obtain ⟨e, he, hread⟩ := exists_of_mem_mapM (h.listed dawn) hrule
  obtain ⟨hentry, howner⟩ := List.mem_filter.mp he
  have hrow : l.rules.get? e.1 = some e.2 := Table.get?_eq_some_iff.mpr hentry
  rw [Ledger.ownsRule, id_of_readRule hread, hrow]
  exact howner

/-- What is found by its identifier is listed. -/
theorem mem_of_rule? {id : Ident} {rule : Rule} (hfound : l.rule? now id user = .ok (some rule)) :
    rule ∈ base := by
  obtain ⟨row, hrow, howner, hread⟩ := exists_row_of_readOwned hfound
  have hentry : (id, row) ∈ l.rules.entries.filter fun e => e.2.user == user :=
    List.mem_filter.mpr ⟨Table.get?_eq_some_iff.mp hrow, beq_iff_eq.mpr howner⟩
  exact mem_of_mapM (h.listed now) hentry hread

end Lists

/-! ## Layer B: selected rules -/

section

variable (hl : Sound l) (h : l.Lists user base all)
include h

include hl in
/-- **Rules that are selected by name** are listed rules, namely those under the identifiers that
    the user owns, in the order in which these come first. -/
theorem Lists.selectRules_eq_ok_iff {rules : List Rule} :
    l.selectRules now user (some ids) = .ok rules ↔
      rules.map (·.id) = ids.eraseDups.filter (l.ownsRule user) ∧ ∀ rule ∈ rules, rule ∈ base := by
  -- What is selected is as described; no other selection of listed rules is, so the converse holds.
  have hselects : ∀ rules, l.selectRules now user (some ids) = .ok rules →
      rules.map (·.id) = ids.eraseDups.filter (l.ownsRule user) ∧ ∀ rule ∈ rules, rule ∈ base := by
    intro rules hrules
    obtain ⟨found, hfound, hrules⟩ := bind_eq_ok_iff.mp hrules
    -- Each selected rule was looked up under its identifier and found.
    cases hrules
    refine ⟨ids_of_mapM_rule? hfound, fun rule hrule => ?_⟩
    obtain ⟨first, hfirst, rfl⟩ := List.mem_filterMap.mp hrule
    obtain ⟨id, -, hread⟩ := exists_of_mem_mapM hfound hfirst
    exact h.mem_of_rule? hread
  constructor
  · exact hselects rules
  · rintro ⟨hids, hmem⟩
    obtain ⟨selected, hselected⟩ := hl.exists_selectRules now user (some ids)
    obtain ⟨hids', hmem'⟩ := hselects selected hselected
    -- Listed rules are told apart by their identifiers.
    have hsame : selected = rules :=
      eq_of_map_eq_map_of_nodup (nodup_ids_rulesOf (h.listed now)) hmem' hmem
        (hids'.trans hids.symm)
    rw [hselected, hsame]

/-- The listed rules that are in effect are selected without names. -/
theorem Lists.selectRules_none :
    l.selectRules now user none =
      .ok (base.filter fun rule => decide (rule.effectiveFrom ≤ now)) := by
  rw [selectRules, h.listed now]
  rfl

include hl in
/-- Listed rules are selected by their own identifiers. -/
theorem Lists.selectRules_sublist {rules : List Rule} (hsub : rules.Sublist base) :
    l.selectRules now user (some (rules.map (·.id))) = .ok rules := by
  apply (h.selectRules_eq_ok_iff hl).mpr
  have hnodup : (rules.map (·.id)).Nodup :=
    (hsub.map _).nodup (nodup_ids_rulesOf (h.listed now))
  have howned : ∀ id ∈ rules.map (·.id), l.ownsRule user id = true := by
    intro id hid
    obtain ⟨rule, hrule, rfl⟩ := List.mem_map.mp hid
    exact h.ownsRule (hsub.subset hrule)
  -- No identifier is named twice, and the user owns all of them.
  refine ⟨?_, fun rule hrule => hsub.subset hrule⟩
  rw [eraseDups_eq_self hnodup, List.filter_eq_self.mpr howned]

/-- Completing the listed rules that are in effect gives those of the complete rules. -/
theorem Lists.mapM_current :
    (base.filter fun rule => decide (rule.effectiveFrom ≤ now)).mapM l.completeRule =
      .ok (all.filter fun r => decide (r.rule.effectiveFrom ≤ now)) := by
  apply mapM_filter h.completed
  intro rule r hr
  rw [rule_of_completeRule hr]

/-- **The rules in effect** are resolved without names. -/
theorem Lists.resolve_none :
    l.resolve now user none = .ok (all.filter fun r => decide (r.rule.effectiveFrom ≤ now)) := by
  rw [resolve, h.selectRules_none]
  exact h.mapM_current

include hl in
/-- **The rules in effect** are also resolved by their own identifiers. -/
theorem Lists.resolve_current :
    let current := all.filter fun r => decide (r.rule.effectiveFrom ≤ now)
    l.resolve now user (some (current.map (·.rule.id))) = .ok current := by
  intro current
  have hcompleted : (base.filter fun rule => decide (rule.effectiveFrom ≤ now)).mapM
      l.completeRule = .ok current := h.mapM_current
  rw [resolve, ids_of_mapM_completeRule hcompleted, h.selectRules_sublist hl List.filter_sublist]
  exact hcompleted

include hl in
/-- **Named rules** are resolved to the complete rules under the identifiers that the user owns. -/
theorem Lists.exists_resolve (ids : List Ident) :
    ∃ rules, l.resolve now user (some ids) = .ok rules ∧
      rules.map (·.rule.id) = ids.eraseDups.filter (l.ownsRule user) ∧ ∀ r ∈ rules, r ∈ all := by
  obtain ⟨rules, hrules⟩ := hl.exists_resolve now user (some ids)
  refine ⟨rules, hrules, ?_⟩
  obtain ⟨selected, hselected, hcompleted⟩ := bind_eq_ok_iff.mp hrules
  obtain ⟨hids, hmem⟩ := (h.selectRules_eq_ok_iff hl).mp hselected
  -- Completing keeps the identifiers, so what was said of the selection holds of the result.
  constructor
  · rw [ids_of_mapM_completeRule hcompleted, hids]
  · intro r hr
    obtain ⟨rule, hrule, hcomplete⟩ := exists_of_mem_mapM hcompleted hr
    exact mem_of_mapM h.completed (hmem rule hrule) hcomplete

end

/-! ## Layer C: names that do not count -/

/-- More identifiers are named than before: some under which the user owns no rule, wherever they
    stand, and some again that have been named further to the front. -/
inductive Padded (l : Ledger) (user : Ident) : List Ident → List Ident → Prop where
  | refl (ids : List Ident) : Padded l user ids ids
  | insert {ids before after : List Ident} {id : Ident} (h : Padded l user ids (before ++ after))
      (hid : l.ownsRule user id = false ∨ id ∈ before) :
      Padded l user ids (before ++ id :: after)

/-- The identifiers that count stay the same, each where it comes first. -/
theorem Padded.owned_eq (h : l.Padded user ids ids') :
    ids'.eraseDups.filter (l.ownsRule user) = ids.eraseDups.filter (l.ownsRule user) := by
  induction h with
  | refl => rfl
  | @insert before after id _ hid ih =>
    rw [← ih, filter_eraseDups, filter_eraseDups, List.filter_append, List.filter_append]
    -- What is not owned is left out in any case, and what is owned has been named before.
    cases howned : l.ownsRule user id with
    | false => rw [List.filter_cons_of_neg (by simp [howned])]
    | true =>
      have hbefore : id ∈ before := hid.resolve_left (by simp [howned])
      rw [List.filter_cons_of_pos howned]
      exact eraseDups_append_cons_of_mem (List.mem_filter.mpr ⟨hbefore, howned⟩)

/-- **Padding selects the same rules.** -/
theorem Padded.selectRules_eq (hl : Sound l) (h : l.Padded user ids ids') :
    l.selectRules now user (some ids') = l.selectRules now user (some ids) := by
  obtain ⟨base, all, hlists⟩ := hl.exists_lists user
  obtain ⟨rules, hrules⟩ := hl.exists_selectRules now user (some ids)
  obtain ⟨hids, hmem⟩ := (hlists.selectRules_eq_ok_iff hl).mp hrules
  rw [hrules]
  exact (hlists.selectRules_eq_ok_iff hl).mpr ⟨hids.trans h.owned_eq.symm, hmem⟩

end Ledger

/-! ## Layer D: runs that look up other rules -/

/-- Whether a call looks up a rule by its identifier. -/
def Event.isLookup (ev : Event) : Bool :=
  match ev.call with
  | .rule _ _ => true
  | _ => false

/-- Two worlds that are the same but for the rules that were looked up in them. -/
structure World.SameButLookups (w v : World) : Prop where
  ledger : w.ledger = v.ledger
  flag : w.flag = v.flag
  events : (w.events.filter fun ev => !ev.isLookup) = v.events.filter fun ev => !ev.isLookup

/-- A schedule in which nothing depends on how many rules have been looked up, and in which nobody
    asks the run to stop while it looks them up. -/
structure Schedule.OverlooksLookups (σ : Schedule) : Prop where
  blind : ∀ (es es' : List Event) (c : Call),
    ((es.filter fun ev => !ev.isLookup) = es'.filter fun ev => !ev.isLookup) → σ es c = σ es' c
  silent : ∀ (es : List Event) (id user : Ident), (σ es (.rule id user)).cancels = false

/-- Where all calls are served and nobody asks the run to stop, nothing depends on lookups. -/
theorem Schedule.overlooksLookups_of_silent {σ : Schedule} (hσ : σ.Alone) (hserving : σ.Serving)
    (hsilent : σ.Silent) : σ.OverlooksLookups := by
  have hnone : ∀ es c, σ es c = .none := by
    intro es c
    have hwrites := hσ es c
    have hcancels := hsilent es c
    have hfate := hserving es c
    -- The three parts of what happens at a call are fixed by the three properties.
    rcases h : σ es c with ⟨writes, cancels, fate⟩
    rw [h] at hwrites hcancels hfate
    rw [show writes = id from hwrites, show cancels = false from hcancels,
      show fate = .served from hfate]
    rfl
  constructor
  · intro es es' c _
    rw [hnone, hnone]
  · exact fun es id user => hsilent es (.rule id user)

namespace World.SameButLookups

variable {w v u : World}

/-- Worlds that are the same but for lookups are so in either direction. -/
theorem symm (h : w.SameButLookups v) : v.SameButLookups w :=
  ⟨h.ledger.symm, h.flag.symm, h.events.symm⟩

theorem trans (h : w.SameButLookups v) (h' : v.SameButLookups u) : w.SameButLookups u :=
  ⟨h.ledger.trans h'.ledger, h.flag.trans h'.flag, h.events.trans h'.events⟩

end World.SameButLookups

namespace Run

variable {σ : Schedule} {now : Instant} {l : Ledger} {user : Ident}

/-- One call comes to the same after other lookups. -/
theorem respects_perform (hσ : σ.OverlooksLookups) (c : Call) :
    Respects World.SameButLookups (perform ⟨now, σ⟩ c) := by
  rintro ⟨ledger, flag, es⟩ ⟨_, _, es'⟩ ⟨rfl, rfl, hevents⟩
  have hcall : σ es c = σ es' c := hσ.blind es es' c hevents
  have hrecorded : ∀ answered, ((⟨c, answered⟩ :: es).filter fun ev : Event => !ev.isLookup) =
      (⟨c, answered⟩ :: es').filter fun ev => !ev.isLookup := by
    intro answered
    rw [List.filter_cons, List.filter_cons, hevents]
  simp only [perform, hcall]
  cases (σ es' c).fate with
  | served =>
    cases c.serve now ((σ es' c).writes ledger) with
    | ok answer => exact ⟨rfl, rfl, rfl, hrecorded true⟩
    | error e => exact ⟨rfl, rfl, rfl, hrecorded false⟩
  | refused e => exact ⟨rfl, rfl, rfl, hrecorded false⟩
  | crashed => exact ⟨rfl, rfl, rfl, hrecorded false⟩

/-- What is left of a run once its rules are selected. -/
def withSelected (env : Surroundings) (settings : Settings) (user : Ident) (request : Request)
    (selected : List Rule) : Run Summary := do
  let rules ← complete env selected
  if rules.isEmpty then pure Summary.empty
  else
    let engine ← engineFor env user rules
    processRequest env settings user engine request
      { Summary.empty with totalRules := UInt64.ofNat rules.length }

theorem built_withSelected (env : Surroundings) (settings : Settings) (user : Ident)
    (request : Request) (selected : List Rule) :
    Built env user (withSelected env settings user request selected) := by
  refine .bind (built_complete env user selected) fun rules => ?_
  split
  · exact .pure _
  · refine .bind (built_engineFor env user rules) fun engine => ?_
    exact built_processRequest env settings user engine request _

section

variable (hσ : σ.Alone) (hserving : σ.Serving) (hover : σ.OverlooksLookups)
include hσ hserving hover

/-- Looking rules up leaves a world that is the same but for the lookups. -/
theorem exists_namedRules {ids : List Ident} {found : List (Option Rule)}
    (hfound : (ids.mapM fun id => l.rule? now id user) = .ok found) {w : World}
    (hw : w.ledger = l) :
    ∃ w', namedRules ⟨now, σ⟩ user ids w = .ok (found.filterMap fun rule => rule) w' ∧
      w.SameButLookups w' := by
  -- On the names that are left, from a world to which the earlier lookups have led.
  induction ids generalizing found w with
  | nil =>
    cases hfound
    exact ⟨w, rfl, rfl, rfl, rfl⟩
  | cons id ids ih =>
    obtain ⟨first, rest, hfirst, hrest, rfl⟩ := mapM_cons_eq_ok_iff.mp hfound
    have hserve : (Call.rule id user).serve now w.ledger = .ok (first, l) := by
      rw [Call.serve, hw, hfirst]
      rfl
    -- The lookup goes on record, and nobody asks the run to stop.
    have hlookup : w.SameButLookups (w.after σ (.rule id user) true l) := by
      refine ⟨hw, ?_, rfl⟩
      simp only [World.after, hover.silent]
      rfl
    obtain ⟨w', hrun, hsame⟩ := ih hrest (w := w.after σ (.rule id user) true l) rfl
    refine ⟨w', ?_, hlookup.trans hsame⟩
    rw [namedRules, bind_of_ok (perform_eq_ok hσ (hserving _ _) hserve), bind_of_ok hrun]
    cases first <;> rfl

/-- A run with named rules goes on with those that are selected. -/
theorem exists_execute_named {ids : List Ident} {selected : List Rule}
    (hselected : l.selectRules now user (some ids) = .ok selected) (settings : Settings)
    (request : Request) (flag : Option Bool) :
    ∃ w, World.SameButLookups ⟨l, flag, []⟩ w ∧
      execute ⟨now, σ⟩ settings user { request with rules := some ids } ⟨l, flag, []⟩ =
        withSelected ⟨now, σ⟩ settings user request selected w := by
  obtain ⟨found, hfound, hselected⟩ := bind_eq_ok_iff.mp hselected
  cases hselected
  obtain ⟨w, hrun, hsame⟩ :=
    exists_namedRules hσ hserving hover hfound (w := ⟨l, flag, []⟩) rfl
  refine ⟨w, hsame, ?_⟩
  have hset : workingSet ⟨now, σ⟩ user (some ids) ⟨l, flag, []⟩ =
      complete ⟨now, σ⟩ (found.filterMap fun rule => rule) w := bind_of_ok hrun
  rw [execute, withSelected]
  simp only [bind, EStateM.bind, hset]
  rfl

/-- **Runs that select the same rules** come to the same and leave the same world, whatever else
    they look up. -/
theorem execute_eq_of_selectRules (hl : l.Sound) {ids ids' : List Ident}
    (hsame : l.selectRules now user (some ids') = l.selectRules now user (some ids))
    (settings : Settings) (request : Request) (flag : Option Bool) :
    let run := fun ids =>
      execute ⟨now, σ⟩ settings user { request with rules := some ids } ⟨l, flag, []⟩
    outcomeOf (run ids') = outcomeOf (run ids) ∧
      (worldOf (run ids')).SameButLookups (worldOf (run ids)) := by
  intro run
  obtain ⟨selected, hselected⟩ := hl.exists_selectRules now user (some ids)
  obtain ⟨w, hw, hrun⟩ := exists_execute_named hσ hserving hover hselected settings request flag
  -- Both runs go on with one selection, from worlds that are the same but for lookups.
  obtain ⟨v, hv, hrun'⟩ :=
    exists_execute_named hσ hserving hover (hsame.trans hselected) settings request flag
  have hrespects : Respects World.SameButLookups
      (withSelected ⟨now, σ⟩ settings user request selected) :=
    (built_withSelected ⟨now, σ⟩ settings user request selected).respects
      (fun c _ => respects_perform hover c) fun _ _ h => h.flag
  rw [show run ids' = _ from hrun', show run ids = _ from hrun]
  exact hrespects v w (hv.symm.trans hw)

end

end Run

/-! ## Layer E: the ways agree -/

/-- **The ways to resolve rules agree.** In any reachable ledger, let a run for a user be alone and
    let all its calls be served. There is one list of the user's rules with conditions and actions,
    each of them once, which is listed at any time. Without names, the run resolves those of the
    list that are in effect, in its order; and it resolves the same if it is given their
    identifiers. With any names, it resolves those of the list whose identifiers are named, in the
    order in which they are named first. Further names under which the user owns no rule, and names
    that have come before, change nothing about these; and unless the schedule heeds lookups, the
    run comes to the same with them as without, with the same calls but for the lookups, and leaves
    the same ledger. -/
theorem resolution_paths_agree {l : Ledger} (hl : l.Reachable) (user : Ident) (now : Instant)
    {σ : Schedule} (hσ : σ.Alone) (hserving : σ.Serving) :
    let Resolves := fun named rules => Run.Finds σ l (Run.workingSet ⟨now, σ⟩ user named) rules
    ∃ all : List CompleteRule,
      let current := all.filter fun r => decide (r.rule.effectiveFrom ≤ now)
      (∀ clock, l.completeRulesOf clock user = .ok all) ∧ (all.map (·.rule.id)).Nodup ∧
      Resolves none current ∧ Resolves (some (current.map (·.rule.id))) current ∧
      ∀ ids : List Ident, ∃ rules, Resolves (some ids) rules ∧
        rules.map (·.rule.id) = ids.eraseDups.filter (l.ownsRule user) ∧ (∀ r ∈ rules, r ∈ all) ∧
        ∀ ids', l.Padded user ids ids' → Resolves (some ids') rules ∧
          (σ.OverlooksLookups → ∀ (settings : Settings) (request : Request) (flag : Option Bool),
            let run := fun ids => Run.execute ⟨now, σ⟩ settings user
              { request with rules := some ids } ⟨l, flag, []⟩
            Run.outcomeOf (run ids') = Run.outcomeOf (run ids) ∧
              (Run.worldOf (run ids')).SameButLookups (Run.worldOf (run ids))) := by
  intro Resolves
  -- A run in which all calls are served finds what the ledger resolves, so it is enough to compare
  -- what the ledger resolves with the listing.
  have hsound : l.Sound := hl.sound
  have hresolves : ∀ {named rules}, l.resolve now user named = .ok rules → Resolves named rules :=
    Run.finds_workingSet hσ hserving.safe fun es c _ => hserving es c
  obtain ⟨base, all, hlists⟩ := hsound.exists_lists user
  refine ⟨all, hlists.completeRulesOf, hlists.nodup, ?_, ?_, fun ids => ?_⟩
  · exact hresolves hlists.resolve_none
  · exact hresolves (hlists.resolve_current hsound)
  · obtain ⟨rules, hrules, hids, hmem⟩ := hlists.exists_resolve hsound ids
    refine ⟨rules, hresolves hrules, hids, hmem, fun ids' hpadded => ?_⟩
    have hselected : l.selectRules now user (some ids') = l.selectRules now user (some ids) :=
      hpadded.selectRules_eq hsound
    have hrules' : l.resolve now user (some ids') = .ok rules := by
      rw [← hrules, Ledger.resolve, hselected]
      rfl
    refine ⟨hresolves hrules', fun hover settings request flag => ?_⟩
    exact Run.execute_eq_of_selectRules hσ hserving hover hsound hselected settings request flag

namespace Ledger

/-- The shared ledger with a further rule of the first user, which is not in effect yet. -/
def planned : Ledger :=
  shared.afterWrites
    [.createRule dawn 1 "Series" none noon .and,
      .addAction 3 .category "1"]

/-- The rule that is not in effect yet. -/
def plannedRule : CompleteRule :=
  ⟨⟨3, 1, "Series", none, noon, .and, dawn⟩, [], [⟨3, 3, .category, "1"⟩]⟩

theorem reachable_planned : Reachable planned := reachable_shared.afterWrites _

/-- An unknown identifier, a rule of the other user and a repetition. -/
theorem padded_planned : planned.Padded 1 [3, 1] [7, 3, 2, 1, 3] := by
  have hrepeated : planned.Padded 1 [3, 1] ([3, 1] ++ 3 :: []) :=
    .insert (.refl _) (.inr (by decide))
  have hforeign : planned.Padded 1 [3, 1] ([3] ++ 2 :: [1, 3]) :=
    .insert hrepeated (.inl (by decide +kernel))
  show planned.Padded 1 [3, 1] ([] ++ 7 :: [3, 2, 1, 3])
  exact .insert hforeign (.inl (by decide +kernel))

end Ledger

/-- At dawn the planned rule is not in effect, but it is resolved where it is named, and before the
    other rule if it is named first. -/
theorem resolution_paths_agree_planned :
    let resolves := fun named rules => Run.Finds .calm Ledger.planned
      (Run.workingSet ⟨Ledger.dawn, .calm⟩ 1 named) rules
    let run := fun ids => Run.execute ⟨Ledger.dawn, .calm⟩ .standard 1 ⟨some ids, none, none⟩
      ⟨Ledger.planned, none, []⟩
    Ledger.planned.completeRulesOf Ledger.dawn 1 =
      .ok [Ledger.streamRule, Ledger.plannedRule] ∧
    resolves none [Ledger.streamRule] ∧ resolves (some [1]) [Ledger.streamRule] ∧
    resolves (some [3, 1]) [Ledger.plannedRule, Ledger.streamRule] ∧
    resolves (some [7, 3, 2, 1, 3]) [Ledger.plannedRule, Ledger.streamRule] ∧
    Run.outcomeOf (run [7, 3, 2, 1, 3]) = Run.outcomeOf (run [3, 1]) := by
  intro resolves run
  obtain ⟨all, hall, hnodup, hnone, hcurrent, hnamed⟩ :=
    resolution_paths_agree Ledger.reachable_planned 1 Ledger.dawn Schedule.alone_calm
      Schedule.serving_calm
  have hlisted : Ledger.planned.completeRulesOf Ledger.dawn 1 =
      .ok [Ledger.streamRule, Ledger.plannedRule] := by
    decide +kernel
  obtain rfl : all = [Ledger.streamRule, Ledger.plannedRule] :=
    Except.ok.inj ((hall Ledger.dawn).symm.trans hlisted)
  -- The rules that are resolved are those of the listing under the two identifiers, in their order.
  obtain ⟨rules, hrules, hids, hmem, hpadded⟩ := hnamed [3, 1]
  have hresolved : rules = [Ledger.plannedRule, Ledger.streamRule] := by
    apply eq_of_map_eq_map_of_nodup hnodup hmem (by decide)
    rw [hids]
    decide +kernel
  obtain ⟨hrules', hruns⟩ := hpadded [7, 3, 2, 1, 3] Ledger.padded_planned
  rw [hresolved] at hrules hrules'
  refine ⟨hlisted, hnone, hcurrent, hrules, hrules', ?_⟩
  have hover : Schedule.calm.OverlooksLookups :=
    Schedule.overlooksLookups_of_silent Schedule.alone_calm Schedule.serving_calm
      Schedule.silent_calm
  exact (hruns hover .standard .all none).1

end LedgerRules
