import LedgerRules.Proofs.Run.Cover
import LedgerRules.Proofs.Run.Setup

/-!
# Scans

A full scan goes over the pages of the user's listing and reads each of them only when the pages
before it have been written to. Still it covers the listing as it was before the scan: what the
scan writes moves no row, so every page holds just the rows that come next in the first listing,
unchanged. A scan of named transactions covers those of them that the user owns.

## Overview

- **Layer A**: one step of a scan, as an equation.
- **Layer B**: the page that is read after the pages before it were covered.
- **Layer C**: how a scan ends.
- **Layer D**: the scan of all pages.
- **Layer E**: the scan of named transactions.
- **Layer F**: the engine that a run builds, and the pass that it makes.
-/

namespace LedgerRules

/-! ## Layer A: one step of a scan -/

namespace Run

variable {env : Surroundings} {settings : Settings} {user : Ident} {engine : Engine}
  {s s' : Summary} {w w₁ w' : World}

/-- A run that has been asked to stop finds that out when it looks at the flag. -/
theorem cancelled_of_raised (h : w.flag = some true) : cancelled w = .ok true w := by
  simp [cancelled, h]

theorem cancelled_of_not_raised (h : w.flag ≠ some true) : cancelled w = .ok false w := by
  simp [cancelled, h]

/-- A scan that finds the flag raised before a page reads no more pages and says so. -/
theorem processPages_of_raised (hflag : w.flag = some true) (size page : UInt64) (s : Summary)
    (left : Nat) :
    processPages env settings user engine size (left + 1) page s w =
      .ok { s with cancelled := true } w := by
  rw [processPages, bind_of_ok (cancelled_of_raised hflag)]
  rfl

/-- A run that reads a page and is not asked to stop goes over it, and then to the next one unless
    it was the last. -/
theorem processPages_succ {size page : UInt64} {ts : List Transaction} (hflag : w.flag ≠ some true)
    (hpage : perform env (.page user page size) w = .ok ts w₁)
    (hall : processAll env settings user engine s ts w₁ = .ok s' w') (left : Nat) :
    processPages env settings user engine size (left + 1) page s w =
      if ts.length < size.toNat then .ok s' w'
      else processPages env settings user engine size left (page + 1) s' w' := by
  rw [processPages, bind_of_ok (cancelled_of_not_raised hflag)]
  simp only [Bool.false_eq_true, if_false]
  rw [bind_of_ok (attempt_of_ok hpage)]
  simp only
  rw [bind_of_ok hall]
  split <;> rfl

/-- Evaluates the rules on a transaction that was looked up, if it was found. -/
def processLoaded (env : Surroundings) (settings : Settings) (user : Ident) (engine : Engine)
    (sum : Summary) : Option Transaction → Run Summary
  | some t => process env settings user engine sum t
  | none => pure sum

/-- A run that looks up a named transaction goes over it, and then to the next one. -/
theorem processNamed_cons {id : Ident} {t : Option Transaction}
    (hload : perform env (.transaction id user) w = .ok t w₁)
    (hdone : processLoaded env settings user engine s t w₁ = .ok s' w') (ids : List Ident) :
    processNamed env settings user engine s (id :: ids) w =
      processNamed env settings user engine s' ids w' := by
  rw [processNamed, bind_of_ok (attempt_of_ok hload)]
  cases t with
  -- A transaction that is not there leaves the summary as it is.
  | none =>
    cases hdone
    rfl
  | some t =>
    simp only [processLoaded] at hdone
    simp only
    rw [bind_of_ok hdone]

end Run

namespace Pass

variable {p : Pass} {σ : Schedule} {evs : List Event} {s₀ s : Summary} {w₀ w : World}

/-! ## Layer B: the next page -/

/-- The listing over which a pass goes. -/
def listing (p : Pass) (l : Ledger) : List (Ident × TransactionRow) :=
  l.orderedRows p.user .newestFirst

/-- What is listed from some place on is not among what is listed before it. -/
theorem not_mem_take_listing (l : Ledger) {n : Nat} {e : Ident × TransactionRow}
    (he : e ∈ (p.listing l).drop n) : e.1 ∉ ((p.listing l).map (·.1)).take n := by
  have hnodup : ((p.listing l).map (·.1)).Nodup := l.nodup_ids_orderedRows p.user .newestFirst
  have hdrop : e.1 ∈ ((p.listing l).map (·.1)).drop n := by
    rw [← List.map_drop]
    exact List.mem_map_of_mem he
  exact fun htake => List.disjoint_take_drop hnodup (Nat.le_refl n) htake hdrop

/-- **The next page** holds the rows that come next in the first listing. -/
theorem Covers.page_eq {k : Nat} {size : UInt64} (hsize : size.toNat ≤ 1000)
    (hk : k < 0x8000000000000000) (hstart : k * size.toNat < 0x8000000000000000)
    (h : p.Covers σ (((p.listing w₀.ledger).map (·.1)).take (k * size.toNat)) evs s₀ w₀ s w) :
    w.ledger.page p.now p.user (UInt64.ofNat k) size .newestFirst =
      (((p.listing w₀.ledger).drop (k * size.toNat)).take size.toNat).mapM fun e =>
        Ledger.readTransaction p.now e.1 e.2 := by
  -- The listing is the first one with the covered rows settled in place.
  have hlisting : w.ledger.orderedRows p.user .newestFirst =
      (p.listing w₀.ledger).map fun e => (e.1, p.settleAll
        (((p.listing w₀.ledger).map (·.1)).take (k * size.toNat)) evs e.1 e.2) := by
    rw [h.ledger]
    exact Ledger.orderedRows_revise (p.keepsPlace_settleAll _ evs)
  rw [Ledger.page, Window.cut_ofPage _ hsize hk hstart, hlisting, ← List.map_drop,
    ← List.map_take]
  -- None of the rows on this page is among them.
  refine congrArg _ ((List.map_congr_left fun e he => ?_).trans (List.map_id _))
  have hnew := p.not_mem_take_listing w₀.ledger (List.mem_of_mem_take he)
  simp only [settleAll, hnew, false_and, if_false]
  rfl

/-- Each transaction has an identifier of its own, so a listing is shorter than any signed word. -/
theorem length_listing_lt {l : Ledger} (hl : l.Sound) (p : Pass) :
    (p.listing l).length < 0x8000000000000000 := by
  rw [listing, Ledger.length_orderedRows]
  exact hl.transactionCount_lt p.user

/-- There are more pages than the listing needs. -/
theorem length_listing_lt_pages (hready : p.Ready w.ledger) {n : Nat} (hn : 1 ≤ n) :
    (p.listing w.ledger).length < (0 + Run.pageCount) * n := by
  -- Pages are counted up to the first number that is no signed word.
  have hlength : (p.listing w.ledger).length < Run.pageCount := length_listing_lt hready.sound p
  have hpages : Run.pageCount ≤ Run.pageCount * n := Nat.le_mul_of_pos_right _ hn
  rw [Nat.zero_add]
  exact Nat.lt_of_lt_of_le hlength hpages

theorem Covers.start (n : Nat) :
    p.Covers σ (((p.listing w.ledger).map (·.1)).take (0 * n)) [] s w s w := by
  rw [Nat.zero_mul, List.take_zero]
  exact .nil

/-! ## Layer C: how a scan ends -/

/-- How a scan ends that has some transactions left: nothing is left; or it looks at the flag and
    finds it raised, which it says in its summary; or a call is refused by which it would have gone
    on. -/
inductive Halts (σ : Schedule) (named : Bool) (rest : List Ident) (s : Summary) (w : World) :
    Summary → World → Prop where
  | through (hrest : rest = []) : Halts σ named rest s w s w
  | asked (hraised : w.flag = some true) : Halts σ named rest s w { s with cancelled := true } w
  | refused {c : Call} (hscan : c.OfScan named w.events) (hrefused : (σ w.events c).fate ≠ .served) :
      Halts σ named rest s w s (w.after σ c false w.ledger)

/-- **What a scan has done**: it has gone over the first of some transactions when it ends. -/
def Scans (p : Pass) (σ : Schedule) (named : Bool) (all : List Ident) (s : Summary) (w : World)
    (s' : Summary) (w' : World) : Prop :=
  ∃ ids rest evs s₁ w₁, all = ids ++ rest ∧ p.Covers σ ids evs s w s₁ w₁ ∧
    Halts σ named rest s₁ w₁ s' w'

section

variable {named : Bool} {ids ids' rest : List Ident} {s₁ s' : Summary} {w₁ w' : World}

theorem Scans.of_halts (h : Halts σ named ids s w s' w') : p.Scans σ named ids s w s' w' :=
  ⟨[], ids, [], s, w, rfl, .nil, h⟩

/-- Some transactions may be gone over before a scan. -/
theorem Covers.scans_append (h : p.Covers σ ids evs s w s₁ w₁)
    (hscans : p.Scans σ named ids' s₁ w₁ s' w') (hdisjoint : ∀ id ∈ ids, id ∉ ids') :
    p.Scans σ named (ids ++ ids') s w s' w' := by
  obtain ⟨first, rest, evs', s₂, w₂, rfl, hcovers, hhalts⟩ := hscans
  refine ⟨ids ++ first, rest, evs' ++ evs, s₂, w₂, (List.append_assoc ids first rest).symm,
    h.append hcovers fun id hid hfirst => ?_, hhalts⟩
  exact hdisjoint id hid (List.mem_append_left rest hfirst)

/-- Where calls of the scan are served, it goes over all transactions unless it is asked to
    stop. -/
theorem Scans.covers_or_asked (h : p.Scans σ named ids s w s' w')
    (hserved : ∀ es c, c.OfScan named es → (σ es c).fate = .served) :
    (∃ evs, p.Covers σ ids evs s w s' w') ∨
      (s'.cancelled = true ∧ ¬ (σ.Silent ∧ w.flag ≠ some true)) := by
  obtain ⟨first, rest, evs, s₁, w₁, rfl, hcovers, hhalts⟩ := h
  cases hhalts with
  -- Nothing is left, so what has been covered is all.
  | through hrest =>
    rw [hrest, List.append_nil]
    exact .inl ⟨evs, hcovers⟩
  -- The flag was raised before or during the scan.
  | asked hraised =>
    refine .inr ⟨rfl, ?_⟩
    rintro ⟨hsilent, hflag⟩
    rw [← hcovers.trail.flag hsilent] at hflag
    exact hflag hraised
  | refused hscan hrefused => exact absurd (hserved _ _ hscan) hrefused

end

/-! ## Layer D: all pages -/

section

variable (hσ : σ.Alone) (hsafe : σ.Safe)
include hσ hsafe

/-- **One page** that can be read is gone over, and then what is covered reaches to its end. -/
theorem Covers.exists_page (hready : p.Ready w₀.ledger) {k : Nat} {size : UInt64}
    (hsize : size.toNat ≤ 1000) (hk : k < 0x8000000000000000)
    (hstart : k * size.toNat < 0x8000000000000000)
    (h : p.Covers σ (((p.listing w₀.ledger).map (·.1)).take (k * size.toNat)) evs s₀ w₀ s w)
    (hserved : (σ w.events (.page p.user (UInt64.ofNat k) size)).fate = .served) :
    ∃ ts w₁ evs' s' w',
      Run.perform ⟨p.now, σ⟩ (.page p.user (UInt64.ofNat k) size) w = .ok ts w₁ ∧
      ts.length = min size.toNat ((p.listing w₀.ledger).length - k * size.toNat) ∧
      Run.processAll ⟨p.now, σ⟩ p.settings p.user p.engine s ts w₁ = .ok s' w' ∧
      p.Covers σ (((p.listing w₀.ledger).map (·.1)).take ((k + 1) * size.toNat)) evs' s₀ w₀
        s' w' := by
  have hpage := h.page_eq hsize hk hstart
  -- The rows on the page, as the first listing has them.
  generalize hchunk :
    ((p.listing w₀.ledger).drop (k * size.toNat)).take size.toNat = chunk at hpage
  have hdrop : ∀ e ∈ chunk, e ∈ (p.listing w₀.ledger).drop (k * size.toNat) := by
    intro e he
    rw [← hchunk] at he
    exact List.mem_of_mem_take he
  have hnew : ∀ e ∈ chunk, e.1 ∉ ((p.listing w₀.ledger).map (·.1)).take (k * size.toNat) :=
    fun e he => p.not_mem_take_listing w₀.ledger (hdrop e he)
  have howned : ∀ e ∈ chunk, w.ledger.ownedTransaction? e.1 p.user = some e.2 := by
    intro e he
    rw [h.ownedTransaction?_eq (hnew e he) p.user]
    exact Ledger.mem_orderedRows_iff.mp (List.mem_of_mem_drop (hdrop e he))
  have hids : chunk.map (·.1) =
      (((p.listing w₀.ledger).map (·.1)).drop (k * size.toNat)).take size.toNat := by
    rw [← hchunk, List.map_take, List.map_drop]
  -- Every row on the page can be read, and the page with them.
  have hready' := h.ready hready
  obtain ⟨ts, hts⟩ : ∃ ts, (chunk.mapM fun e => Ledger.readTransaction p.now e.1 e.2) = .ok ts := by
    apply exists_mapM_eq_ok
    intro e he
    have hget := (Ledger.ownedTransaction?_eq_some_iff.mp (howned e he)).1
    exact (hready'.sound.transactions.of_get? hget).exists_read
  have hcall : (Call.page p.user (UInt64.ofNat k) size).serve p.now w.ledger =
      .ok (ts, w.ledger) := by
    simp [Call.serve, hpage, hts, Except.map]
  have hrun := Run.perform_eq_ok hσ hserved hcall
  have hnodup : (chunk.map (·.1)).Nodup := by
    rw [hids]
    have hall : ((p.listing w₀.ledger).map (·.1)).Nodup :=
      w₀.ledger.nodup_ids_orderedRows p.user .newestFirst
    exact ((List.take_sublist _ _).trans (List.drop_sublist _ _)).nodup hall
  obtain ⟨evs', s', w', hrun', hcovers⟩ :=
    exists_covers_processAll hσ hsafe hnodup hts (w.after σ _ true w.ledger) hready' howned s
  have htrail : w.Trail σ (fun ev => ∀ id, ev.call.subject? = some id → id ∈ chunk.map (·.1))
      [⟨.page p.user (UInt64.ofNat k) size, true⟩] (w.after σ _ true w.ledger) :=
    .after w.ledger (by simp [Call.subject?]) fun _ => rfl
  -- The rows up to this page and those on it make the rows up to the next page.
  have hboth := h.append (hcovers.prepend htrail rfl (by simp) rfl) ?_
  · rw [hids, ← List.take_add, ← Nat.succ_mul] at hboth
    refine ⟨ts, _, _, s', w', hrun, ?_, hrun', hboth⟩
    rw [length_of_mapM hts, ← hchunk, List.length_take, List.length_drop]
  · intro id hold hmem
    obtain ⟨e, he, rfl⟩ := List.mem_map.mp hmem
    exact hnew e he hold

/-- **The scan of the pages** from one page on goes over the rest of the first listing. -/
theorem Covers.exists_scans_processPages (hready : p.Ready w₀.ledger) {size : UInt64}
    (hsize : 1 ≤ size.toNat ∧ size.toNat ≤ 1000) (left k : Nat)
    (hk : k * size.toNat ≤ (p.listing w₀.ledger).length)
    (hroom : (p.listing w₀.ledger).length < (k + left) * size.toNat)
    (h : p.Covers σ (((p.listing w₀.ledger).map (·.1)).take (k * size.toNat)) evs s₀ w₀ s w) :
    ∃ s' w', Run.processPages ⟨p.now, σ⟩ p.settings p.user p.engine size left (UInt64.ofNat k) s w =
        .ok s' w' ∧ p.Scans σ false ((p.listing w₀.ledger).map (·.1)) s₀ w₀ s' w' := by
  have hlength := length_listing_lt hready.sound p
  -- On the pages that are left; the invariant is that the listing is covered up to page `k`.
  induction left generalizing k evs s w with
  | zero =>
    -- There is still room for a page that the listing does not fill, so this does not come up.
    rw [Nat.add_zero] at hroom
    omega
  | succ left ih =>
    have hscans : ∀ {s' w'}, Halts σ false
        (((p.listing w₀.ledger).map (·.1)).drop (k * size.toNat)) s w s' w' →
        p.Scans σ false ((p.listing w₀.ledger).map (·.1)) s₀ w₀ s' w' := fun hhalts =>
      ⟨_, _, evs, s, w, (List.take_append_drop _ _).symm, h, hhalts⟩
    by_cases hraised : w.flag = some true
    · exact ⟨_, w, Run.processPages_of_raised hraised _ _ _ _, hscans (.asked hraised)⟩
    · cases hfate : (σ w.events (.page p.user (UInt64.ofNat k) size)).fate with
      | crashed => exact absurd hfate (hsafe _ _)
      -- The page cannot be had, which ends the scan.
      | refused e =>
        have hscan : Call.OfScan false w.events (.page p.user (UInt64.ofNat k) size) := rfl
        refine ⟨s, _, ?_, hscans (.refused hscan (by simp [hfate]))⟩
        rw [Run.processPages, Run.bind_of_ok (Run.cancelled_of_not_raised hraised)]
        simp only [Bool.false_eq_true, if_false]
        rw [Run.bind_of_ok (Run.attempt_of_failed (Run.perform_of_refused hσ hfate))]
        rfl
      | served =>
        -- The page begins within the listing, and this is shorter than any signed word.
        have hle : k ≤ k * size.toNat := Nat.le_mul_of_pos_right k hsize.1
        have hnext : (k + 1) * size.toNat = k * size.toNat + size.toNat :=
          Nat.succ_mul k size.toNat
        obtain ⟨ts, w₁, evs', s', w', hpage, hcount, hall, hcovers⟩ :=
          h.exists_page hσ hsafe hready hsize.2 (by omega) (by omega) hfate
        rw [Run.processPages_succ hraised hpage hall left]
        by_cases hlast : ts.length < size.toNat
        · -- A page that is not full ends at the end of the listing.
          rw [if_pos hlast]
          refine ⟨s', w', rfl, _, [], evs', s', w', (List.append_nil _).symm, ?_, .through rfl⟩
          rwa [List.take_of_length_le] at hcovers
          rw [List.length_map]
          omega
        · -- After a full page there may be more of the listing.
          rw [if_neg hlast, ofNat_word_succ]
          refine ih (k + 1) (by omega) ?_ hcovers
          rwa [Nat.add_right_comm k 1 left, Nat.add_assoc]

end

/-! ## Layer E: named transactions -/

section

variable (hσ : σ.Alone) (hsafe : σ.Safe)
include hσ hsafe

/-- **One named transaction** is looked up and gone over, if it can be read. -/
theorem exists_covers_processLoaded (hready : p.Ready w.ledger) (id : Ident)
    (hserved : (σ w.events (.transaction id p.user)).fate = .served) (s : Summary) :
    ∃ t w₁ evs s' w', Run.perform ⟨p.now, σ⟩ (.transaction id p.user) w = .ok t w₁ ∧
      w₁ = w.after σ (.transaction id p.user) true w.ledger ∧
      (∀ found, t = some found → found.id = id) ∧
      Run.processLoaded ⟨p.now, σ⟩ p.settings p.user p.engine s t w₁ = .ok s' w' ∧
      p.Covers σ [id] evs s w₁ s' w' := by
  cases howned : w.ledger.ownedTransaction? id p.user with
  | none =>
    -- There is no such transaction of the user: it is passed over.
    have hcall : (Call.transaction id p.user).serve p.now w.ledger = .ok (none, w.ledger) :=
      Call.serve_transaction_of_none howned
    exact ⟨none, _, [], s, _, Run.perform_eq_ok hσ hserved hcall, rfl, by simp, rfl,
      .of_absent howned⟩
  | some row =>
    obtain ⟨t, hread⟩ := (hready.sound.soundTransaction howned).exists_read
    have hcall : (Call.transaction id p.user).serve p.now w.ledger = .ok (some t, w.ledger) :=
      Call.serve_transaction howned hread
    obtain ⟨evs, s', w', hrun, hcovers⟩ := exists_covers_process hσ hsafe
      (w := w.after σ (.transaction id p.user) true w.ledger) hready howned hread s
    refine ⟨some t, _, evs, s', w', Run.perform_eq_ok hσ hserved hcall, rfl, ?_, hrun, hcovers⟩
    rintro found ⟨⟩
    exact (Ledger.fields_of_readTransaction hread).1

/-- **The scan of named transactions** goes over them, if they have not been read before. -/
theorem exists_scans_processNamed {ids : List Ident} (hnodup : ids.Nodup) (w : World)
    (hready : p.Ready w.ledger)
    (hnew : ∀ ev ∈ w.events, ∀ id ∈ ids, ev.call.subject? ≠ some id) (s : Summary) :
    ∃ s' w', Run.processNamed ⟨p.now, σ⟩ p.settings p.user p.engine s ids w = .ok s' w' ∧
      p.Scans σ true ids s w s' w' := by
  -- On the names that are left, none of which has been read.
  induction ids generalizing w s with
  | nil => exact ⟨s, w, rfl, .of_halts (.through rfl)⟩
  | cons id ids ih =>
    obtain ⟨hid, hids⟩ := List.nodup_cons.mp hnodup
    have hunread : (⟨.transaction id p.user, true⟩ : Event) ∉ w.events := fun hmem =>
      hnew _ hmem id List.mem_cons_self rfl
    cases hfate : (σ w.events (.transaction id p.user)).fate with
    | crashed => exact absurd hfate (hsafe _ _)
    -- A named transaction that cannot be had ends the scan as well.
    | refused e =>
      have hscan : Call.OfScan true w.events (.transaction id p.user) := ⟨rfl, hunread⟩
      refine ⟨s, _, ?_, .of_halts (.refused hscan (by simp [hfate]))⟩
      rw [Run.processNamed, Run.bind_of_ok (Run.attempt_of_failed (Run.perform_of_refused hσ hfate))]
      rfl
    | served =>
      obtain ⟨t, w₁, evs₁, s₁, w₂, hload, rfl, -, hdone, hcovers₁⟩ :=
        exists_covers_processLoaded hσ hsafe hready id hfate s
      have htrail : w.Trail σ (fun ev => ∀ i, ev.call.subject? = some i → i ∈ [id])
          [⟨.transaction id p.user, true⟩] (w.after σ (.transaction id p.user) true w.ledger) :=
        .after w.ledger (by simp [Call.subject?]) fun _ => rfl
      have hcovers := hcovers₁.prepend htrail rfl (by simp) rfl
      -- Whatever was done about the first one, the others have still not been read.
      have hnew₂ : ∀ ev ∈ w₂.events, ∀ i ∈ ids, ev.call.subject? ≠ some i := by
        intro ev hev i hi hsubject
        rw [hcovers.trail.events] at hev
        rcases List.mem_append.mp hev with hev | hev
        · rw [List.mem_singleton.mp (hcovers.trail.all ev hev i hsubject)] at hi
          exact hid hi
        · exact hnew ev hev i (List.mem_cons_of_mem _ hi) hsubject
      obtain ⟨s', w', hrun, hscans⟩ := ih hids w₂ (hcovers.ready hready) hnew₂ s₁
      refine ⟨s', w', ?_, hcovers.scans_append hscans ?_⟩
      · rw [Run.processNamed_cons hload hdone, hrun]
      · intro i hi
        rw [List.mem_singleton.mp hi]
        exact hid

end

/-! ## Layer F: the whole run -/

/-- The transactions over which a run goes. -/
def covered (p : Pass) (l : Ledger) (request : Request) : List Ident :=
  match request.transactions with
  | some ids => ids.eraseDups
  | none => (p.listing l).map (·.1)

theorem staged_eq_of_agrees {e f : Engine} (h : e.Agrees f) :
    ({ p with engine := e } : Pass).staged = ({ p with engine := f } : Pass).staged := by
  funext id row
  unfold staged
  cases Ledger.readTransaction p.now id row with
  | ok t => exact h t
  | error _ => rfl

theorem Covers.of_agrees {e f : Engine} (h : e.Agrees f) {ids : List Ident} {s' : Summary}
    {w' : World} (hcovers : ({ p with engine := e } : Pass).Covers σ ids evs s w s' w') :
    ({ p with engine := f } : Pass).Covers σ ids evs s w s' w' := by
  -- An engine enters what is covered only by what it stages for a row.
  have hstaged := staged_eq_of_agrees (p := p) h
  have hsettle : ({ p with engine := e } : Pass).settleAll =
      ({ p with engine := f } : Pass).settleAll := by
    funext ids evs id row
    simp only [settleAll, settle, hstaged]
  have hreport : ({ p with engine := e } : Pass).report =
      ({ p with engine := f } : Pass).report := by
    funext id row
    simp only [report, hstaged]
  have hreports : ({ p with engine := e } : Pass).reports =
      ({ p with engine := f } : Pass).reports := by
    funext l ids evs
    simp only [reports, hreport]
  exact ⟨hcovers.trail, hsettle ▸ hcovers.ledger, hreports ▸ hcovers.summary,
    hreports ▸ hcovers.written⟩

/-- A sound ledger is ready for a pass over its own snapshot. -/
theorem ready_of_snapshot {l : Ledger} (hl : l.Sound) {snapshot : Snapshot}
    (hsnapshot : l.snapshot p.now p.user = .ok snapshot) {rules : List CompleteRule}
    (h : p.engine.Agrees { snapshot with rules }) : p.Ready l where
  sound := hl
  category := by
    intro t cs hcs category hcategory
    -- What the engine stages is what the full snapshot lets it stage, and that is from the ledger.
    rw [h t] at hcs
    obtain ⟨row, hrow, -⟩ :=
      Ledger.get?_of_ownsCategory hsnapshot (Engine.category_of_evaluate hcs hcategory).1
    exact Table.has_eq_true_iff.mpr ⟨row, hrow⟩
  account := by
    intro t cs hcs link hlink
    rw [h t] at hcs
    obtain ⟨row, hrow, -⟩ :=
      Ledger.get?_of_ownsAccount hsnapshot (Engine.transfer_of_evaluate hcs hlink).1
    exact Table.has_eq_true_iff.mpr ⟨row, hrow⟩

/-- **A scan goes over what it was asked for.** -/
theorem exists_scans_processRequest (hσ : σ.Alone) (hsafe : σ.Safe) (hready : p.Ready w.ledger)
    (hnew : ∀ ev ∈ w.events, ev.call.subject? = none) (request : Request) (s : Summary) :
    ∃ s' w', Run.processRequest ⟨p.now, σ⟩ p.settings p.user p.engine request s w = .ok s' w' ∧
      p.Scans σ request.transactions.isSome (p.covered w.ledger request) s w s' w' := by
  unfold Run.processRequest covered
  cases hnamed : request.transactions with
  | some ids =>
    simp only
    by_cases hraised : w.flag = some true
    · rw [Run.bind_of_ok (Run.cancelled_of_raised hraised)]
      exact ⟨_, w, rfl, .of_halts (.asked hraised)⟩
    · rw [Run.bind_of_ok (Run.cancelled_of_not_raised hraised)]
      exact exists_scans_processNamed hσ hsafe (nodup_eraseDups ids) w hready
        (fun ev hev id _ => by simp [hnew ev hev]) s
  | none =>
    have hsize := p.settings.pageSize_bounds request.pageSize
    exact Covers.exists_scans_processPages hσ hsafe hready hsize Run.pageCount 0
      (by rw [Nat.zero_mul]; exact Nat.zero_le _) (length_listing_lt_pages hready hsize.1)
      (.start _)

theorem nodup_covered (p : Pass) (l : Ledger) (request : Request) :
    (p.covered l request).Nodup := by
  unfold covered
  split
  · exact nodup_eraseDups _
  · exact l.nodup_ids_orderedRows p.user .newestFirst

end Pass

/-- The calls of the setup can all be answered from a ledger that has the rules and the engine. -/
theorem answersAll_setupCalls_of_engine {l : Ledger} {now : Instant} {user : Ident}
    {named : Option (List Ident)} {rules : List CompleteRule}
    (hrules : l.resolve now user named = .ok rules) {e : Engine}
    (hengine : l.engine now user rules = .ok e) {σ : Schedule}
    (hserved : ∀ es c, c.subject? = none → (σ es c).fate = .served) (es : List Event) :
    σ.AnswersAll now l es (l.setupCalls now user named) := by
  refine Schedule.answersAll_of_served (fun es c hc => ?_) (fun c hc => ?_) es
  · exact hserved es c (Call.subject?_eq_none (Ledger.area_of_mem_setupCalls hc))
  · rcases List.mem_append.mp hc with hresolution | hsnapshot
    -- The plans themselves say which of their calls can be answered, whatever the schedule.
    · exact (Run.follows_workingSet Schedule.alone_calm Schedule.safe_calm named).answerable rules
        hrules c hresolution
    · simp only [hrules] at hsnapshot
      split at hsnapshot
      · cases hsnapshot
      · exact (Run.follows_engineFor Schedule.alone_calm Schedule.safe_calm rules).answerable e
          hengine c hsnapshot

/-- The calls of the setup can all be answered from a ledger that has the rules and the snapshot. -/
theorem answersAll_setupCalls {l : Ledger} {now : Instant} {user : Ident}
    {named : Option (List Ident)} {rules : List CompleteRule}
    (hrules : l.resolve now user named = .ok rules) {snapshot : Snapshot}
    (hsnapshot : l.snapshot now user = .ok snapshot) {σ : Schedule}
    (hserved : ∀ es c, c.subject? = none → (σ es c).fate = .served) (es : List Event) :
    σ.AnswersAll now l es (l.setupCalls now user named) := by
  obtain ⟨e, hengine, -⟩ := Ledger.exists_engine hsnapshot rules
  exact answersAll_setupCalls_of_engine hrules hengine hserved es

/-- **A setup that is answered** finds the rules and builds the engine. It leaves the ledger as it
    is, and its calls are on record. -/
theorem exists_setup {l : Ledger} {σ : Schedule} (hσ : σ.Alone) (hsafe : σ.Safe) {now : Instant}
    {user : Ident} {named : Option (List Ident)}
    (hsetup : σ.AnswersAll now l [] (l.setupCalls now user named)) {rules : List CompleteRule}
    (hrules : l.resolve now user named = .ok rules) (hsome : rules ≠ []) (flag : Option Bool) :
    ∃ e w₁ w₂, l.engine now user rules = .ok e ∧
      Run.workingSet ⟨now, σ⟩ user named ⟨l, flag, []⟩ = .ok rules w₁ ∧
      Run.engineFor ⟨now, σ⟩ user rules w₁ = .ok e w₂ ∧ w₂.ledger = l ∧
      World.Trail σ (fun ev => ev.answered = true ∧ ev.call.area ≠ .transactions) w₂.events
        ⟨l, flag, []⟩ w₂ := by
  obtain ⟨hresolution, hrest⟩ := Schedule.answersAll_append_iff.mp hsetup
  obtain ⟨rules', w₁, hrules', hrun₁, hledger₁, htrail₁⟩ :=
    (Run.follows_workingSet hσ hsafe named).answered ⟨l, flag, []⟩ rfl hresolution
  rw [hrules] at hrules'
  cases hrules'
  simp only [hrules, hsome, if_false, ← htrail₁.events] at hrest
  obtain ⟨e, w₂, hengine, hrun₂, hledger₂, htrail₂⟩ :=
    (Run.follows_engineFor hσ hsafe rules).answered w₁ hledger₁ hrest
  -- No call of the two plans is about transactions, which the run has yet to look at.
  have harea : ∀ {cs : List Call}, (∀ c ∈ cs, c.area ≠ .transactions) → ∀ ev ∈ answeredAll cs,
      ev.answered = true ∧ ev.call.area ≠ .transactions := fun hcs ev hev =>
    ⟨(answered_of_mem_answeredAll hcs hev).1, hcs _ (call_mem_of_mem_answeredAll hev)⟩
  have htrail := (htrail₁.imp fun ev hev _ => harea (fun c hc => by
      simp [Ledger.area_of_mem_resolutionCalls hc]) ev hev).trans
    (htrail₂.imp fun ev hev _ => harea (fun c hc => Ledger.area_of_mem_snapshotCalls hc) ev hev)
  refine ⟨e, w₁, w₂, hengine, hrun₁, hrun₂, hledger₂, ?_⟩
  rwa [htrail.events, List.append_nil]

/-- **A run whose setup is answered goes over what it was asked for**, with the resolved rules over
    the user's snapshot. Its summary starts from the number of rules. -/
theorem exists_scans_execute {l : Ledger} (hl : l.Sound) {σ : Schedule} (hσ : σ.Alone)
    (hsafe : σ.Safe) {request : Request} {now : Instant} {user : Ident}
    (hsetup : σ.AnswersAll now l [] (l.setupCalls now user request.rules))
    {rules : List CompleteRule} (hrules : l.resolve now user request.rules = .ok rules)
    (hsome : rules ≠ []) {snapshot : Snapshot} (hsnapshot : l.snapshot now user = .ok snapshot)
    (settings : Settings) (flag : Option Bool) :
    let p : Pass := ⟨{ snapshot with rules }, now, settings, user⟩
    ∃ s w, Run.execute ⟨now, σ⟩ settings user request ⟨l, flag, []⟩ = .ok s w ∧
      p.Scans σ request.transactions.isSome (p.covered l request)
        { Summary.empty with totalRules := UInt64.ofNat rules.length } ⟨l, flag, []⟩ s w := by
  intro p
  -- The setup reads the rules and the snapshot, and leaves the ledger as it is.
  obtain ⟨e, w₁, w₂, hengine, hrun₁, hrun₂, hledger₂, htrail⟩ :=
    exists_setup hσ hsafe hsetup hrules hsome flag
  have hagrees : e.Agrees { snapshot with rules } := by
    obtain ⟨e', hengine', hagrees⟩ := Ledger.exists_engine hsnapshot rules
    rw [hengine] at hengine'
    cases hengine'
    exact hagrees
  have hready : Pass.Ready { p with engine := e } l := Pass.ready_of_snapshot hl hsnapshot hagrees
  have hsubject : ∀ ev ∈ w₂.events, ev.call.subject? = none := fun ev hev =>
    Call.subject?_eq_none (htrail.all ev hev).2
  obtain ⟨s, w, hrun, ids, rest, evs, s₁, w₃, hall, hcovers, hhalts⟩ :=
    Pass.exists_scans_processRequest (p := { p with engine := e }) (w := w₂) hσ hsafe
      (hledger₂ ▸ hready) hsubject request
      { Summary.empty with totalRules := UInt64.ofNat rules.length }
  -- The engine that was built need not know all accounts, but it stages the same.
  have hcovers' := (Pass.Covers.of_agrees (p := p) hagrees hcovers).prepend
    (htrail.imp fun ev hev _ id hid => by simp [hsubject ev hev] at hid) hledger₂
    (fun ev hev => (htrail.all ev hev).1)
    (List.filterMap_eq_nil_iff.mpr fun ev hev => ev.written?_eq_none (hsubject ev hev))
  rw [hledger₂] at hall
  refine ⟨s, w, ?_, ids, rest, _, s₁, w₃, hall, hcovers', hhalts⟩
  rw [Run.execute_eq_prepared, Run.prepared_eq hrun₁ hsome hrun₂]
  exact hrun

/-- **A run covers what it was asked for**, with the resolved rules over the user's snapshot, if
    nothing is refused to it but calls by which changesets are written, and unless it is asked to
    stop. -/
theorem exists_covers_execute {l : Ledger} (hl : l.Sound) {σ : Schedule} {request : Request}
    (hσ : σ.RefusesOnly (Call.OfApply request.transactions.isSome)) {now : Instant} {user : Ident}
    {rules : List CompleteRule} (hrules : l.resolve now user request.rules = .ok rules)
    (hsome : rules ≠ []) {snapshot : Snapshot} (hsnapshot : l.snapshot now user = .ok snapshot)
    (settings : Settings) (flag : Option Bool) :
    let p : Pass := ⟨{ snapshot with rules }, now, settings, user⟩
    ∃ s w, Run.execute ⟨now, σ⟩ settings user request ⟨l, flag, []⟩ = .ok s w ∧
      ((∃ evs, p.Covers σ (p.covered l request) evs
          { Summary.empty with totalRules := UInt64.ofNat rules.length } ⟨l, flag, []⟩ s w) ∨
        (s.cancelled = true ∧ ¬ (σ.Silent ∧ flag ≠ some true))) := by
  intro p
  -- The setup makes calls about no transaction, and only others are refused.
  have hsetup := answersAll_setupCalls hrules hsnapshot hσ.served_of_subject? []
  obtain ⟨s, w, hrun, hscans⟩ :=
    exists_scans_execute hl hσ.alone hσ.safe hsetup hrules hsome hsnapshot settings flag
  exact ⟨s, w, hrun, hscans.covers_or_asked fun es c => hσ.served_of_ofScan es c⟩

end LedgerRules
