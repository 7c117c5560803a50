/-
**Membership is stable while the feed grows.**

A feed grows at any place, orders and fills of the database become known to the broker, passes
classify what the feed was at any time, and at some point the generation is sealed with the latest
record of a pass.  An activity that was found to be before, in, or late in the generation stays so,
as long as the sealed population has every activity that was classified before; and every record of
a pass can be verified.

Main definitions:

* `membership` — the feed, the database and the passes;
* `SealsAll` — the sealed population leaves nothing out.

Main results:

* `idxOf_lt_idxOf_of_sublist` — a list that grows keeps the order of its elements;
* `classifyAt_stable` — a classification stays when the evidence grows;
* `membership_stable` — all of it, for every run.
-/

import TradePulse.Process.Machine
import TradePulse.Reconciliation.Membership

set_option autoImplicit false

namespace TradePulse

open HistoricalFees Storage Process

/-! ### Places in a list that grows -/

/-- A list that grows keeps the order of its elements. -/
theorem idxOf_lt_idxOf_of_sublist {α : Type} [DecidableEq α] {l l' : List α} (h : l.Sublist l')
    (hn : l'.Nodup) {a b : α} (ha : a ∈ l) (hb : b ∈ l) :
    l.idxOf a < l.idxOf b ↔ l'.idxOf a < l'.idxOf b := by
  induction h with
  | slnil => cases ha
  | @cons l l' x h ih =>
      rw [List.nodup_cons] at hn
      have hxa : x ≠ a := fun hx => hn.1 (hx ▸ h.subset ha)
      have hxb : x ≠ b := fun hx => hn.1 (hx ▸ h.subset hb)
      rw [List.idxOf_cons_ne _ hxa, List.idxOf_cons_ne _ hxb, ih hn.2 ha hb]
      omega
  | @cons_cons l l' x h ih =>
      rw [List.nodup_cons] at hn
      by_cases hxb : x = b
      · subst hxb
        simp
      · rw [List.idxOf_cons_ne _ hxb, List.idxOf_cons_ne _ hxb]
        have hb := (List.mem_cons.1 hb).resolve_left (Ne.symm hxb)
        by_cases hxa : x = a
        · subst hxa
          simp
        · have ha := (List.mem_cons.1 ha).resolve_left (Ne.symm hxa)
          have := ih hn.2 ha hb
          rw [List.idxOf_cons_ne _ hxa, List.idxOf_cons_ne _ hxa]
          omega

theorem indexOf_lt_iff {ids ids' : List String} (h : ids.Sublist ids') (hn : ids'.Nodup)
    {cursor : Option String} {index index' : ℤ} (hindex : indexOf ids cursor = .ok index)
    (hindex' : indexOf ids' cursor = .ok index') {id : String} (hid : id ∈ ids) :
    index < ids.idxOf id ↔ index' < ids'.idxOf id := by
  cases cursor with
  | none =>
      cases hindex
      cases hindex'
      omega
  | some cursor =>
      simp only [indexOf] at hindex hindex'
      by_cases hmem : cursor ∈ ids
      · rw [if_pos hmem] at hindex
        rw [if_pos (h.subset hmem)] at hindex'
        cases hindex
        cases hindex'
        have := idxOf_lt_idxOf_of_sublist h hn hmem hid
        omega
      · rw [if_neg hmem] at hindex
        cases hindex

/-! ### One activity -/

/-- Before, in, or late in the generation. -/
def ActivityMembership.determined : ActivityMembership → Bool
  | .preGeneration | .inGeneration | .lateArrivingInGeneration => true
  | _ => false

/-- From one pass to a later one the evidence grows. -/
structure EvidenceGrows (e e' : MembershipEvidence) (index index' : ℕ) (raw : InboxActivity) :
    Prop where
  opening : e'.opening = e.opening
  opened : e'.opened = e.opened
  observed : e.observed ≤ e'.observed
  orders : e.orders ⊆ e'.orders
  fills : e.fills ⊆ e'.fills
  place : e.boundaryIndex < index ↔ e'.boundaryIndex < index'
  closing : e'.closing = e.closing ∨
    e.closing = none ∧ ∀ c, e'.closing = some c → raw.id ∈ c.activities.map (·.id)

theorem InboxActivity.linked_mono {raw : InboxActivity} {orders orders' fills fills' : Finset String}
    (horders : orders ⊆ orders') (hfills : fills ⊆ fills') (h : raw.linked orders fills) :
    raw.linked orders' fills' := by
  have hmono : ∀ {s s' : Finset String} {x : Option String}, s ⊆ s' →
      x.any (· ∈ s) = true → x.any (· ∈ s') = true := by
    intro s s' x hs hx
    cases x with
    | none => cases hx
    | some y => simpa using hs (by simpa using hx)
  rcases h with h | h | h
  · exact .inl (hmono horders h)
  · exact .inr (.inl (hmono hfills h))
  · exact .inr (.inr (hmono hfills h))

/-- **A classification stays when the evidence grows.** -/
theorem classifyAt_stable {e e' : MembershipEvidence} {index index' : ℕ} {raw : InboxActivity}
    {time : Instant} (h : EvidenceGrows e e' index index' raw)
    (hdetermined : (classifyAt e index raw time).1.determined = true) :
    (classifyAt e' index' raw time).1 = (classifyAt e index raw time).1 := by
  have hlinked : raw.linked e.orders e.fills → raw.linked e'.orders e'.fills :=
    InboxActivity.linked_mono h.orders h.fills
  have hsealed : (e'.closing.filter fun c => raw.id ∉ c.activities.map (·.id)) =
      e.closing.filter fun c => raw.id ∉ c.activities.map (·.id) := by
    rcases h.closing with hsame | ⟨hnone, hmem⟩
    · rw [hsame]
    · rw [hnone]
      cases hc : e'.closing with
      | none => rfl
      | some c => simp [Option.filter, hmem c hc]
  unfold classifyAt at hdetermined ⊢
  rw [h.opening, h.opened, hsealed]
  by_cases hopening : raw.id ∈ e.opening.map (·.id)
  · rw [if_pos hopening, if_pos hopening]
  rw [if_neg hopening] at hdetermined ⊢
  rw [if_neg hopening]
  cases hopened : e.opened with
  | none => rfl
  | some opened =>
      simp only [hopened] at hdetermined ⊢
      -- what is in the future, or from before the opening, is not determined
      by_cases hfuture : e.observed < time
      · rw [if_pos hfuture] at hdetermined
        cases hdetermined
      have hfuture' : ¬ e'.observed < time := fun hlt => hfuture (h.observed.trans_lt hlt)
      by_cases hbefore : time < opened
      · rw [if_neg hfuture, if_pos hbefore] at hdetermined
        cases hdetermined
      rw [if_neg hfuture, if_neg hbefore] at hdetermined ⊢
      rw [if_neg hfuture', if_neg hbefore]
      cases hclosing : e.closing.filter fun c => raw.id ∉ c.activities.map (·.id) with
      | some closing =>
          simp only [hclosing] at hdetermined ⊢
          by_cases hl : raw.linked e.orders e.fills
          · rw [if_pos (hlinked hl), if_pos hl]
          · rw [if_neg hl] at hdetermined
            split_ifs at hdetermined <;> cases hdetermined
      | none =>
          simp only [hclosing] at hdetermined ⊢
          by_cases hplace : e.boundaryIndex < index
          · rw [if_pos (h.place.1 hplace), if_pos hplace]
          · rw [if_neg hplace] at hdetermined ⊢
            rw [if_neg fun hp => hplace (h.place.2 hp)]
            by_cases hl : raw.linked e.orders e.fills
            · rw [if_pos (hlinked hl), if_pos hl]
            · rw [if_neg hl] at hdetermined
              cases hdetermined

/-! ### The passes -/

/-- A pass that succeeded: what it read, and what it said. -/
structure MembershipPass where
  db : GenerationDatabase
  activities : List InboxActivity
  pagination : Pagination
  observed : Instant
  classified : Classifications

/-- The clock, what the feed was at any time, the latest first, the database, and the passes, the
latest first. -/
structure MembershipRun where
  clock : Instant
  populations : List (List InboxActivity) := []
  db : GenerationDatabase
  passes : List MembershipPass := []

inductive MembershipAction
  | tick (t : Instant)
  /-- The feed grows, at any place. -/
  | post (activities : List InboxActivity)
  | accept (orders fills : Finset String)
  | classify (k : ℕ) (pagination : Pagination)
  | sealWith (n : ℕ)

def MembershipRun.step (w : MembershipRun) : MembershipAction → Option MembershipRun
  | .tick t => if w.clock ≤ t then some { w with clock := t } else none
  | .post activities =>
      if ∀ older ∈ w.populations, older.Sublist activities then
        some { w with populations := activities :: w.populations }
      else none
  | .accept orders fills =>
      some { w with
        db := { w.db with orders := w.db.orders ∪ orders, fills := w.db.fills ∪ fills } }
  | .classify k pagination =>
      (w.populations[k]?).map fun activities =>
        match classifyPopulation activities pagination w.clock w.db with
        | .ok (m, db) =>
            { w with
              db := db
              passes := ⟨w.db, activities, pagination, w.clock, m.classified⟩ :: w.passes }
        | .error _ => w
  | .sealWith n =>
      if w.db.generationSeal.isNone then
        some { w with
          db := { w.db with generationSeal := some ⟨w.clock, w.db.records.take n⟩ } }
      else none

def membership : Machine MembershipRun MembershipAction := ⟨MembershipRun.step⟩

/-- The record that a generation is sealed with has every activity that was classified. -/
def SealsAll (w : MembershipRun) : MembershipAction → Prop
  | .sealWith n => ∀ record ∈ latestRecord (w.db.records.take n),
      ∀ p ∈ w.passes, ∀ raw ∈ p.activities, raw.id ∈ record.body.activities.map (·.id)
  | _ => True

instance (w : MembershipRun) : (a : MembershipAction) → Decidable (SealsAll w a)
  | .sealWith n => inferInstanceAs (Decidable (∀ record ∈ latestRecord (w.db.records.take n),
      ∀ p ∈ w.passes, ∀ raw ∈ p.activities,
        raw.id ∈ record.body.activities.map (·.id)))
  | .tick _ | .post _ | .accept _ _ | .classify _ _ => inferInstanceAs (Decidable True)

/-- One pass comes after another. -/
structure Follows (earlier later : MembershipPass) : Prop where
  observed : earlier.observed ≤ later.observed
  orders : earlier.db.orders ⊆ later.db.orders
  fills : earlier.db.fills ⊆ later.db.fills
  sealed : earlier.db.generationSeal = later.db.generationSeal ∨
    earlier.db.generationSeal = none ∧ ∀ s record, later.db.generationSeal = some s →
      latestRecord s.evidence = some record →
        ∀ raw ∈ earlier.activities, raw.id ∈ record.body.activities.map (·.id)

/-- The invariant. -/
structure StableMembership (opening : Option OpeningCheckpoint) (w : MembershipRun) : Prop where
  bound : w.db.opening = opening
  chain : w.populations.Pairwise fun newer older => older.Sublist newer
  /-- A pass rests on its evidence, and the next one would follow it. -/
  passes : ∀ p ∈ w.passes, p.activities ∈ w.populations ∧ p.db.opening = opening ∧
    (∃ closing, Passed p.db p.activities p.pagination p.observed closing p.classified) ∧
    ∀ later, later.observed = w.clock → later.db = w.db → Follows p later
  ordered : w.passes.Pairwise fun later earlier => Follows earlier later
  records : ∀ record ∈ w.db.records, ∃ checkpoint, opening = some checkpoint ∧
    verifyMembershipRecord checkpoint record = .ok record.body.classified
  recorded : ∀ p ∈ w.passes, ∀ checkpoint, opening = some checkpoint →
    ∃ record ∈ w.db.records, record.body.activities = p.activities ∧
      record.body.classified = p.classified

section Step

variable {opening : Option OpeningCheckpoint} {w : MembershipRun}

theorem StableMembership.tick (h : StableMembership opening w) {t : Instant} (ht : w.clock ≤ t) :
    StableMembership opening { w with clock := t } where
  bound := h.bound
  chain := h.chain
  passes p hp := by
    obtain ⟨hmem, hopening, hpassed, hfollows⟩ := h.passes p hp
    refine ⟨hmem, hopening, hpassed, fun later hobserved hdb => ?_⟩
    have hf := hfollows { later with observed := w.clock } rfl hdb
    exact ⟨hf.observed.trans (ht.trans hobserved.ge), hf.orders, hf.fills, hf.sealed⟩
  ordered := h.ordered
  records := h.records
  recorded := h.recorded

theorem StableMembership.post (h : StableMembership opening w) {activities : List InboxActivity}
    (hgrows : ∀ older ∈ w.populations, older.Sublist activities) :
    StableMembership opening { w with populations := activities :: w.populations } where
  bound := h.bound
  chain := List.pairwise_cons.2 ⟨hgrows, h.chain⟩
  passes p hp := by
    obtain ⟨hmem, hrest⟩ := h.passes p hp
    exact ⟨List.mem_cons_of_mem _ hmem, hrest⟩
  ordered := h.ordered
  records := h.records
  recorded := h.recorded

theorem StableMembership.accept (h : StableMembership opening w) (orders fills : Finset String) :
    StableMembership opening { w with
      db := { w.db with orders := w.db.orders ∪ orders, fills := w.db.fills ∪ fills } } where
  bound := h.bound
  chain := h.chain
  passes p hp := by
    obtain ⟨hmem, hopening, hpassed, hfollows⟩ := h.passes p hp
    refine ⟨hmem, hopening, hpassed, fun later hobserved hdb => ?_⟩
    have hf := hfollows { later with db := w.db } hobserved rfl
    refine ⟨hf.observed, ?_, ?_, ?_⟩
    · rw [hdb]
      exact hf.orders.trans Finset.subset_union_left
    · rw [hdb]
      exact hf.fills.trans Finset.subset_union_left
    · rw [hdb]
      exact hf.sealed
  ordered := h.ordered
  records := h.records
  recorded := h.recorded

theorem StableMembership.sealed (h : StableMembership opening w) {n : ℕ}
    (hnone : w.db.generationSeal = none) (hall : SealsAll w (.sealWith n)) :
    StableMembership opening { w with
      db := { w.db with generationSeal := some ⟨w.clock, w.db.records.take n⟩ } } where
  bound := h.bound
  chain := h.chain
  passes p hp := by
    obtain ⟨hmem, hopening, hpassed, hfollows⟩ := h.passes p hp
    refine ⟨hmem, hopening, hpassed, fun later hobserved hdb => ?_⟩
    have hf := hfollows { later with db := w.db } hobserved rfl
    have hearlier : p.db.generationSeal = none :=
      hf.sealed.elim (fun hsame => hsame.trans hnone) And.left
    refine ⟨hf.observed, ?_, ?_, .inr ⟨hearlier, ?_⟩⟩
    · rw [hdb]
      exact hf.orders
    · rw [hdb]
      exact hf.fills
    · rw [hdb]
      rintro s record ⟨⟩ hrecord raw hraw
      exact hall record hrecord p hp raw hraw
  ordered := h.ordered
  records := h.records
  recorded := h.recorded

theorem mem_insertRecord {records : List MembershipRecord} {record r : MembershipRecord} :
    r ∈ insertRecord records record → r ∈ records ∨ r = record := by
  unfold insertRecord
  split
  · exact .inl
  · simp

theorem exists_mem_insertRecord (records : List MembershipRecord) (record : MembershipRecord) :
    ∃ r ∈ insertRecord records record, r.body = record.body := by
  unfold insertRecord
  split
  · rename_i hmem
    obtain ⟨r, hr, hbody⟩ := List.mem_map.1 hmem
    exact ⟨r, hr, hbody⟩
  · exact ⟨record, by simp, rfl⟩

theorem mem_insertRecord_of_mem {records : List MembershipRecord} {record r : MembershipRecord}
    (h : r ∈ records) : r ∈ insertRecord records record := by
  unfold insertRecord
  split
  · exact h
  · exact List.mem_append_left _ h

/-- **A pass.** -/
theorem StableMembership.classified (h : StableMembership opening w)
    {activities : List InboxActivity} (hmem : activities ∈ w.populations)
    {pagination : Pagination} {m : MembershipResult} {db : GenerationDatabase}
    (hpass : classifyPopulation activities pagination w.clock w.db = .ok (m, db)) :
    StableMembership opening { w with
      db := db
      passes := ⟨w.db, activities, pagination, w.clock, m.classified⟩ :: w.passes } := by
  obtain ⟨closing, hpassed, -, hdb⟩ := classifyPopulation_ok hpass
  have hopening : db.opening = w.db.opening := by rw [hdb]
  have horders : db.orders = w.db.orders := by rw [hdb]
  have hfills : db.fills = w.db.fills := by rw [hdb]
  have hseal : db.generationSeal = w.db.generationSeal := by rw [hdb]
  have hrecords := congrArg GenerationDatabase.records hdb
  -- whatever follows a pass over the old database follows it over the new one
  have hnext : ∀ {p later : MembershipPass},
      (∀ later, later.observed = w.clock → later.db = w.db → Follows p later) →
        later.observed = w.clock → later.db = db → Follows p later := by
    intro p later hfollows hobserved hlater
    have hf := hfollows { later with db := w.db } hobserved rfl
    refine ⟨hf.observed, ?_, ?_, ?_⟩
    · rw [hlater, horders]
      exact hf.orders
    · rw [hlater, hfills]
      exact hf.fills
    · rw [hlater, hseal]
      exact hf.sealed
  constructor
  · exact hopening.trans h.bound
  · exact h.chain
  · intro p hp
    rcases List.mem_cons.1 hp with rfl | hp
    · refine ⟨hmem, h.bound, ⟨closing, hpassed⟩, fun later hobserved hlater => ?_⟩
      exact hnext (fun later hobserved hlater => ⟨by rw [hobserved], by rw [hlater], by rw [hlater],
        .inl (by rw [hlater])⟩) hobserved hlater
    · obtain ⟨hmem, hopening, hpassed, hfollows⟩ := h.passes p hp
      exact ⟨hmem, hopening, hpassed, fun later => hnext hfollows⟩
  · exact List.pairwise_cons.2 ⟨fun p hp => (h.passes p hp).2.2.2 _ rfl rfl, h.ordered⟩
  · intro record hrecord
    change record ∈ db.records at hrecord
    rw [hrecords] at hrecord
    cases hbound : w.db.opening with
    | none =>
        simp only [hbound] at hrecord
        exact h.records record hrecord
    | some checkpoint =>
        simp only [hbound] at hrecord
        rcases mem_insertRecord hrecord with hold | rfl
        · exact h.records record hold
        · exact ⟨checkpoint, h.bound.symm.trans hbound, verifyMembershipRecord_ok hbound hpassed⟩
  · intro p hp checkpoint hcheckpoint
    change ∃ record ∈ db.records, _
    have hbound : w.db.opening = some checkpoint := h.bound.trans hcheckpoint
    rw [hrecords]
    simp only [hbound]
    rcases List.mem_cons.1 hp with rfl | hp
    · obtain ⟨r, hr, hbody⟩ := exists_mem_insertRecord w.db.records
        (membershipRecord checkpoint closing w.db activities pagination m.classified w.clock)
      exact ⟨r, hr, by rw [hbody]; rfl, by rw [hbody]; rfl⟩
    · obtain ⟨r, hr, hrest⟩ := h.recorded p hp checkpoint hcheckpoint
      exact ⟨r, mem_insertRecord_of_mem hr, hrest⟩

end Step

/-- **The step lemma.** -/
theorem StableMembership.step {opening : Option OpeningCheckpoint} {w w' : MembershipRun}
    {a : MembershipAction} (h : StableMembership opening w) (ha : SealsAll w a)
    (hstep : w.step a = some w') : StableMembership opening w' := by
  cases a with
  | tick t =>
      simp only [MembershipRun.step, Option.ite_none_right_eq_some, Option.some.injEq] at hstep
      obtain ⟨ht, rfl⟩ := hstep
      exact h.tick ht
  | post activities =>
      simp only [MembershipRun.step, Option.ite_none_right_eq_some, Option.some.injEq] at hstep
      obtain ⟨hgrows, rfl⟩ := hstep
      exact h.post hgrows
  | accept orders fills =>
      cases hstep
      exact h.accept orders fills
  | classify k pagination =>
      simp only [MembershipRun.step, Option.map_eq_some_iff] at hstep
      obtain ⟨activities, hmem, rfl⟩ := hstep
      cases hpass : classifyPopulation activities pagination w.clock w.db with
      | error e => exact h
      | ok result => exact h.classified (List.mem_of_getElem? hmem) hpass
  | sealWith n =>
      simp only [MembershipRun.step, Option.ite_none_right_eq_some, Option.some.injEq,
        Option.isNone_iff_eq_none] at hstep
      obtain ⟨hnone, rfl⟩ := hstep
      exact h.sealed hnone ha

/-! ### Two passes -/

/-- Two populations of the feed, of which one is earlier. -/
theorem StableMembership.comparable {opening : Option OpeningCheckpoint} {w : MembershipRun}
    (h : StableMembership opening w) {x y : List InboxActivity} (hx : x ∈ w.populations)
    (hy : y ∈ w.populations) : x.Sublist y ∨ y.Sublist x := by
  have hsymm : w.populations.Pairwise fun x y => x.Sublist y ∨ y.Sublist x :=
    h.chain.imp fun hxy => .inr hxy
  have : Std.Symm fun x y : List InboxActivity => x.Sublist y ∨ y.Sublist x :=
    ⟨fun _ _ hor => hor.symm⟩
  by_cases hxy : x = y
  · exact .inl (hxy ▸ List.Sublist.refl x)
  · exact hsymm.forall hx hy hxy

theorem eq_of_id {x y : List InboxActivity} (hsub : x.Sublist y ∨ y.Sublist x)
    (hx : (x.map (·.id)).Nodup) (hy : (y.map (·.id)).Nodup) {raw raw' : InboxActivity}
    (hraw : raw ∈ x) (hraw' : raw' ∈ y) (hid : raw.id = raw'.id) : raw = raw' := by
  rcases hsub with h | h
  · exact List.inj_on_of_nodup_map hy (h.subset hraw) hraw' hid
  · exact List.inj_on_of_nodup_map hx hraw (h.subset hraw') hid

/-- The closing checkpoint depends on the opening and on the seal only. -/
theorem loadBoundClosingCheckpoint_congr {db db' : GenerationDatabase}
    (hopening : db.opening = db'.opening) (hseal : db.generationSeal = db'.generationSeal) :
    loadBoundClosingCheckpoint db = loadBoundClosingCheckpoint db' := by
  unfold loadBoundClosingCheckpoint
  rw [hopening, hseal]

/-- Before the seal there is no closing checkpoint. -/
theorem loadBoundClosingCheckpoint_none {db : GenerationDatabase}
    (hseal : db.generationSeal = none) : loadBoundClosingCheckpoint db = .ok none := by
  unfold loadBoundClosingCheckpoint
  rw [hseal]
  cases db.opening <;> rfl

/-- **A later pass says the same of an activity that was determined.** -/
theorem determined_stable {opening : Option OpeningCheckpoint} {p p' : MembershipPass}
    {closing closing' : Option ClosingCheckpoint} (hopening : p.db.opening = opening)
    (hopening' : p'.db.opening = opening) (hfollows : Follows p p')
    (hsub : p.activities.Sublist p'.activities ∨ p'.activities.Sublist p.activities)
    (h : Passed p.db p.activities p.pagination p.observed closing p.classified)
    (h' : Passed p'.db p'.activities p'.pagination p'.observed closing' p'.classified)
    {id : String} {status status' : ActivityMembership}
    (hstatus : p.classified.statusOf id = some status)
    (hstatus' : p'.classified.statusOf id = some status') (hdetermined : status.determined = true) :
    status' = status := by
  obtain ⟨hn, -⟩ := validatePagination_ok h.pages
  obtain ⟨hn', -⟩ := validatePagination_ok h'.pages
  obtain ⟨boundary, closingIndex, hboundary, -, hclassified⟩ := h.classified
  obtain ⟨boundary', closingIndex', hboundary', -, hclassified'⟩ := h'.classified
  obtain ⟨raw, hraw, rfl, reason, hclassify⟩ := hclassified.of_statusOf hstatus
  obtain ⟨raw', hraw', hid, reason', hclassify'⟩ := hclassified'.of_statusOf hstatus'
  obtain rfl : raw = raw' := eq_of_id hsub hn hn' hraw hraw' hid.symm
  simp only [Nat.zero_add] at hclassify hclassify'
  obtain ⟨time, htime, hclassify⟩ := except_bind_eq_ok.1 hclassify
  obtain ⟨time', htime', hclassify'⟩ := except_bind_eq_ok.1 hclassify'
  obtain rfl : time = time' := Except.ok.inj (htime.symm.trans htime')
  have hmem : raw.id ∈ p.activities.map (·.id) := List.mem_map_of_mem hraw
  have hmem' : raw.id ∈ p'.activities.map (·.id) := List.mem_map_of_mem hraw'
  have hsame : p'.db.opening = p.db.opening := hopening'.trans hopening.symm
  rw [hsame] at hclassify' hboundary'
  have hplace : boundary < (p.activities.map (·.id)).idxOf raw.id ↔
      boundary' < (p'.activities.map (·.id)).idxOf raw.id := by
    rcases hsub with hsub | hsub
    · exact indexOf_lt_iff (hsub.map _) hn' hboundary hboundary' hmem
    · exact (indexOf_lt_iff (hsub.map _) hn hboundary' hboundary hmem').symm
  have hclosing : closing' = closing ∨
      closing = none ∧ ∀ c, closing' = some c → raw.id ∈ c.activities.map (·.id) := by
    rcases hfollows.sealed with hseal | ⟨hnone, hall⟩
    · have hload := loadBoundClosingCheckpoint_congr hsame.symm hseal
      rw [h.loaded, h'.loaded] at hload
      exact .inl (Except.ok.inj hload).symm
    · have hload := loadBoundClosingCheckpoint_none hnone
      rw [h.loaded] at hload
      refine .inr ⟨Except.ok.inj hload, ?_⟩
      rintro c rfl
      obtain ⟨s, record, hs, hrecord, hactivities, -⟩ := loadBoundClosingCheckpoint_ok h'.loaded
      rw [hactivities]
      exact hall s record hs hrecord raw hraw
  have hstatus : _ = status := congrArg Prod.fst (Except.ok.inj hclassify)
  have hstatus' : _ = status' := congrArg Prod.fst (Except.ok.inj hclassify')
  rw [← hstatus] at hdetermined ⊢
  rw [← hstatus']
  exact classifyAt_stable
    ⟨rfl, rfl, hfollows.observed, hfollows.orders, hfollows.fills, hplace, hclosing⟩ hdetermined

/-- **Membership is stable over growing populations.**  In every run whose seal leaves out nothing
that was classified before it: a later pass repeats the classification of every activity that was
before, in, or late in the generation, so that no activity that was eligible is revoked; each pass
of a bound generation has a record; and every record is accepted, with its classifications. -/
theorem membership_stable {t₀ : Instant} {opening : Option OpeningCheckpoint}
    {orders fills : Finset String} {inbox : Table InboxActivity} {w : MembershipRun}
    (hreach : membership.Reaches SealsAll
      { clock := t₀, db := { opening := opening, orders := orders, fills := fills, inbox := inbox } }
      w) :
    (w.passes.Pairwise fun later earlier => ∀ id status status',
      earlier.classified.statusOf id = some status → later.classified.statusOf id = some status' →
        (status.determined = true → status' = status) ∧
          (status.eligible = true → status'.eligible = true)) ∧
    ∀ checkpoint, opening = some checkpoint →
      (∀ p ∈ w.passes, ∃ record ∈ w.db.records, record.body.activities = p.activities ∧
        verifyMembershipRecord checkpoint record = .ok p.classified) ∧
      ∀ record ∈ w.db.records,
        verifyMembershipRecord checkpoint record = .ok record.body.classified := by
  have hw : StableMembership opening w := by
    refine hreach.invariant ?_ fun _ _ _ h hok hstep => h.step hok hstep
    exact ⟨rfl, .nil, fun _ h => absurd h List.not_mem_nil, .nil,
      fun _ h => absurd h List.not_mem_nil, fun _ h => absurd h List.not_mem_nil⟩
  have hrecords : ∀ checkpoint, opening = some checkpoint → ∀ record ∈ w.db.records,
      verifyMembershipRecord checkpoint record = .ok record.body.classified := by
    intro checkpoint hopening record hrecord
    obtain ⟨checkpoint', hopening', hverified⟩ := hw.records record hrecord
    obtain rfl := Option.some.inj (hopening.symm.trans hopening')
    exact hverified
  refine ⟨?_, fun checkpoint hopening => ⟨fun p hp => ?_, hrecords checkpoint hopening⟩⟩
  · refine hw.ordered.imp_of_mem ?_
    intro later earlier hlater hearlier hfollows id status status' hstatus hstatus'
    obtain ⟨hmem, hopening, ⟨closing, hpassed⟩, -⟩ := hw.passes earlier hearlier
    obtain ⟨hmem', hopening', ⟨closing', hpassed'⟩, -⟩ := hw.passes later hlater
    have hstable := determined_stable hopening hopening' hfollows (hw.comparable hmem hmem')
      hpassed hpassed' hstatus hstatus'
    refine ⟨hstable, fun heligible => ?_⟩
    rw [hstable (by cases status <;> first | rfl | cases heligible)]
    exact heligible
  · obtain ⟨record, hrecord, hactivities, hclassified⟩ := hw.recorded p hp checkpoint hopening
    exact ⟨record, hrecord, hactivities, hclassified ▸ hrecords checkpoint hopening record hrecord⟩

section Runs

/-- A feed that fits on one page. -/
private def onePage (activities : List InboxActivity) : Pagination where
  complete := true
  populationHash := activities
  activityIds := activities.map (·.id)
  pages :=
    [{ pageSize := 100
       direction := "asc"
       pageToken := none
       filtered := false
       activityIds := activities.map (·.id)
       terminal := true
       responseHash := activities
       receivedAt := none }]

private def deposit : InboxActivity :=
  { id := "deposit", activityType := "CSD", createdAt := some 0 }

private def executionReceipt (id orderId : String) (time : Instant) : InboxActivity :=
  { id := id, activityType := "FILL", transactionTime := some time, orderId := some orderId }

/-- An opening with one activity. -/
private def openedWithDeposit : OpeningCheckpoint where
  verificationGenerationId := "generation"
  checkpointId := "checkpoint"
  openedAt := 10
  activities := [deposit]
  positions := []
  nodup := by decide
  before := by
    intro raw hraw time htime
    obtain rfl := List.mem_singleton.1 hraw
    cases htime
    decide

/-- An execution is posted after the deposit, and one before it that belongs to an order. -/
private def postedFeed : List MembershipAction :=
  let first := [deposit, executionReceipt "in" "" 20]
  let second := [executionReceipt "late" "order" 25, deposit, executionReceipt "in" "" 20]
  [.tick 30, .post first, .classify 0 (onePage first), .accept {"order"} ∅, .tick 31, .post second,
    .classify 0 (onePage second)]

/-- After a seal with both executions the deposit is before the generation, one execution in it and
one late, and they stay so. -/
theorem membership_stable_posted :
    ∃ w : MembershipRun, w.passes.map (fun p =>
        (p.classified.statusOf "in", p.classified.statusOf "late")) =
        [(some .inGeneration, some .lateArrivingInGeneration),
          (some .inGeneration, some .lateArrivingInGeneration), (some .inGeneration, none)] ∧
      ∀ record ∈ w.db.records, verifyMembershipRecord openedWithDeposit record =
        .ok record.body.classified := by
  have hrun : (membership.runUnder SealsAll
      { clock := 0, db := { opening := some openedWithDeposit } }
      (postedFeed ++ [.sealWith 3, .tick 40, .classify 0
        (onePage [executionReceipt "late" "order" 25, deposit, executionReceipt "in" "" 20])])).any (fun w =>
      decide (w.passes.map (fun p =>
        (p.classified.statusOf "in", p.classified.statusOf "late")) =
        [(some .inGeneration, some .lateArrivingInGeneration),
          (some .inGeneration, some .lateArrivingInGeneration), (some .inGeneration, none)])) =
        true := by
    decide +kernel
  obtain ⟨w, hreach, hpasses⟩ := Machine.exists_of_runUnder hrun
  exact ⟨w, hpasses, ((membership_stable hreach).2 openedWithDeposit rfl).2⟩

/-- **A seal that leaves an activity out revokes it.**  The generation is sealed with the record of
the first pass, and the execution that the second one found in the generation is unresolved
then. -/
theorem revoked_of_early_seal :
    ∃ w, membership.Reaches (fun _ _ => True)
        { clock := 0, db := { opening := some openedWithDeposit } } w ∧
      w.passes.map (fun p => p.classified.statusOf "in") =
        [some .unresolvedGenerationMembership, some .inGeneration, none] := by
  have hrun : (membership.run { clock := 0, db := { opening := some openedWithDeposit } }
      [.tick 30, .post [deposit], .classify 0 (onePage [deposit]), .tick 31,
        .post [deposit, executionReceipt "in" "" 20],
        .classify 0 (onePage [deposit, executionReceipt "in" "" 20]), .sealWith 1, .tick 32,
        .classify 0 (onePage [deposit, executionReceipt "in" "" 20])]).any (fun w =>
      decide (w.passes.map (fun p => p.classified.statusOf "in") =
        [some .unresolvedGenerationMembership, some .inGeneration, none])) = true := by
    decide +kernel
  exact Machine.exists_of_run hrun

end Runs

end TradePulse
