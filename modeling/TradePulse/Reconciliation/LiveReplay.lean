/-
**A replay without fees agrees with the live settlement.**

Executions of one instrument that are settled one after another leave lots and profits.  The replay
rebuilds both from the executions alone.  The two run side by side: after every execution the lots
of the replay are the live lots, up to the extremes of the price, which a replay takes from the lots
that it is given.

Main definitions:

* `Live` — executions settled one after another, from no lots;
* `NeverOversells` — every sale finds enough that was bought before;
* `LiveLot` — what is known of a lot of such a run;
* `Covers` — lots among which every lot of a store has a later state.

Main results:

* `liveLots_of_live` — what is known of the lots after a run;
* `closeLots_mirrors` — closures applied live and in the replay;
* `replay_of_live` — the replay of a run;
* `previewFeeReplay_live` — **the replay returns the lots and the profits of the live run**.
-/

import TradePulse.Reconciliation.ReplayDeterminism
import TradePulse.Settlement.BareLots
import TradePulse.Settlement.Resuming

set_option autoImplicit false

namespace TradePulse

open Storage Process Settlement

namespace HistoricalFees

/-! ### The live run -/

/-- Executions settled one after another by undisturbed runs of the first stage, from no lots, and
their events as the stages left them.  Between two of the runs nobody writes a lot. -/
inductive Live : List SettlementEvent → Store → Prop
  | start {s : Store} : s.positionLots = default → Live [] s
  | elsewhere {past : List SettlementEvent} {s t : Store} : Live past s →
      t.positionLots = s.positionLots → t.convertedLots = s.convertedLots → Live past t
  | settle {past : List SettlementEvent} {s t : Store} {i : Outside} {event row : SettlementEvent}
      {pnl : ℚ} : Live past s → NewId s i.uuid → lotOutcome i event s = (.ok (some pnl), t) →
      row.toSettlementFacts = event.toSettlementFacts → row.realizedPnl = some pnl →
      Live (past ++ [row]) t

/-- What executions bought and did not sell. -/
def held (past : List SettlementEvent) : ℚ := (past.map fun e => (Occurrence.fill e).units).sum

/-- No sale is of more than is held. -/
def NeverOversells (events : List SettlementEvent) : Prop :=
  ∀ past e rest, events = past ++ e :: rest → e.side = .sell → e.quantity ≤ held past

theorem NeverOversells.of_append {events rest : List SettlementEvent}
    (h : NeverOversells (events ++ rest)) : NeverOversells events := by
  rintro past e between rfl hside
  exact h past e (between ++ rest) (by simp) hside

/-! ### What one settlement does to the lots -/

section Step

variable {event : SettlementEvent} {s t : Store} {i : Outside} {pnl : ℚ}

/-- The parts of an undisturbed run of the first stage. -/
theorem lotOutcome_parts (h : lotOutcome i event s = (.ok (some pnl), t)) :
    ∃ plan u, Planned event (visibleLots s event.asset) plan ∧
      alone exec i (closing event plan.closures) s = (.ok (), u) ∧
      alone exec i (openPosition (visibleLots s event.asset) event plan) u = (.ok (), t) ∧
      pnl = plan.realizedPnl := by
  cases hplan : planSignedLotFill (visibleLots s event.asset) event with
  | error e =>
      rw [alone_projectLot_error hplan] at h
      cases h
  | ok plan =>
      by_cases hshort : ∃ c ∈ plan.closures, c.lot.positionSide = .short
      · rw [alone_projectLot_short hplan hshort] at h
        cases h
      · have hplanned : Planned event (visibleLots s event.asset) plan := by
          refine ⟨hplan, fun c hc => ?_⟩
          cases hside : c.lot.positionSide with
          | long => rfl
          | short => exact absurd ⟨c, hc, hside⟩ hshort
        rw [alone_projectLot hplanned, carryOut] at h
        obtain ⟨_, u, hclosing, h⟩ := andThen_eq_ok h
        obtain ⟨_, v, hopen, h⟩ := andThen_eq_ok h
        cases h
        exact ⟨plan, u, hplanned, hclosing, hopen, rfl⟩

theorem alone_closing_cons (c : LotClosure) (cs : List LotClosure) :
    alone exec i (closing event (c :: cs)) s
      = andThen (once exec (.closeLot c event) i s) fun _ u => alone exec i (closing event cs) u := by
  rw [closing, alone_forEach_cons, Prog.bind_eq, alone_bind, alone_perform]
  cases once exec (.closeLot c event) i s with
  | mk x u => cases x <;> rfl

theorem once_eq_ok {o : Op} {r : o.Res} {u : Store} (h : once exec o i s = (.ok r, u)) :
    exec o i s = .ok (r, u) := by
  unfold once at h
  split at h
  · rename_i r' s' hx
    cases h
    exact hx
  · cases h

theorem closing_keeps {I : Store → Prop} {closures : List LotClosure}
    (hstep : ∀ c s r u, I s → exec (.closeLot c event) i s = .ok (r, u) → I u)
    (h : alone exec i (closing event closures) s = (.ok (), t)) (hs : I s) : I t := by
  induction closures generalizing s with
  | nil =>
      cases h
      exact hs
  | cons c cs ih =>
      rw [alone_closing_cons] at h
      obtain ⟨r, u, hx, hrest⟩ := andThen_eq_ok h
      exact ih hrest (hstep c s r u hs (once_eq_ok hx))

/-- A position that was opened: a lot, or none. -/
theorem openPosition_ok {lots : List PositionLot} {plan : SignedLotPlan}
    (h : alone exec i (openPosition lots event plan) s = (.ok (), t)) :
    (0 < plan.openingQuantity ∧ plan.openingDirection ≠ .short ∧
      ∃ l, openedLot event i.uuid plan.openingDirection plan.openingQuantity = .ok l ∧
        t = withLot s l) ∨
      ((plan.openingQuantity ≤ 0 ∨ plan.openingDirection = .short) ∧
        t.positionLots = s.positionLots ∧ t.convertedLots = s.convertedLots) := by
  unfold openPosition at h
  split at h
  · rename_i hopens
    split at h
    · rename_i hshort
      refine .inr ⟨.inr hshort, ?_⟩
      rw [Prog.bind_eq, alone_bind, alone_ofExcept] at h
      obtain ⟨b, u, hb, h⟩ := andThen_eq_ok h
      obtain ⟨-, rfl⟩ := Prod.mk.inj hb
      cases h
      exact ⟨rfl, rfl⟩
    · rename_i hlong
      split at h
      · cases h
      · have huuid : exec .uuid4 i s = .ok (i.uuid, s) := rfl
        rw [Prog.bind_eq, alone_perform_bind _ huuid, Prog.bind_eq, alone_bind,
          alone_ofExcept] at h
        obtain ⟨l, u, hmade, h⟩ := andThen_eq_ok h
        obtain ⟨hl, rfl⟩ := Prod.mk.inj hmade
        rw [Prog.bind_eq, alone_bind, alone_perform] at h
        obtain ⟨r, v, hx, h⟩ := andThen_eq_ok h
        obtain ⟨-, -, hx⟩ := except_bind_eq_ok.1 (once_eq_ok hx)
        cases hx
        cases h
        exact .inl ⟨hopens, hlong, l, hl, rfl⟩
  · rename_i hopens
    cases h
    exact .inr ⟨.inl (not_lt.1 hopens), rfl, rfl⟩

end Step

/-! ### What is known of the lots of a run -/

/-- What is known of a lot of a run: it is a long one of the instrument, one of the executions
opened it, and only these closed some of it. -/
structure LiveLot (key : String) (past : List SettlementEvent) (l : PositionLot) : Prop where
  long : l.positionSide = .long
  asset : assetIdentityKey l.asset = key
  filled : l.origin ≠ .adopted
  opened : ∃ e ∈ past, e.fillId = l.originatingFillId ∧ opensLot l e = true
  closer : ∀ id ∈ l.closures, ∃ e ∈ past, e.fillId = id

/-- What is known of the lots after a run. -/
structure LiveLots (key : String) (past : List SettlementEvent) (s : Store) : Prop where
  lot : ∀ l ∈ s.positionLots, LiveLot key past l
  unconverted : ∀ l ∈ s.positionLots, l.lotId ∉ s.convertedLots

section Lots

variable {key : String} {past : List SettlementEvent} {s t : Store} {event row : SettlementEvent}

theorem LiveLot.append {l : PositionLot} (h : LiveLot key past l) (rest : List SettlementEvent) :
    LiveLot key (past ++ rest) l := by
  obtain ⟨e, he, hopens⟩ := h.opened
  refine ⟨h.long, h.asset, h.filled, ⟨e, List.mem_append_left rest he, hopens⟩, fun id hid => ?_⟩
  obtain ⟨c, hc, hfill⟩ := h.closer id hid
  exact ⟨c, List.mem_append_left rest hc, hfill⟩

theorem LiveLots.visibleLots_eq (h : LiveLots key past s) {asset : AssetIdentity}
    (hkey : assetIdentityKey asset = key) : visibleLots s asset = s.positionLots.rows := by
  unfold visibleLots Store.lotsByAsset
  rw [List.filter_filter, List.filter_eq_self]
  intro l hl
  simp [(h.lot l hl).asset, hkey, h.unconverted l hl]

theorem LiveLots.close {i : Outside} {c : LotClosure} {r : Option PositionLot}
    (h : LiveLots key past s) (hknown : ∃ e ∈ past, e.fillId = event.fillId)
    (hx : exec (.closeLot c event) i s = .ok (r, t)) : LiveLots key past t := by
  rcases closeLot_ok hx with ⟨-, -, rfl⟩ | ⟨current, l, hcurrent, hl, -, rfl⟩
  · exact h
  · have hmem := (Table.get?_eq_some_iff.1 hcurrent).1
    have hfields := PositionLot.make_eq_ok_iff.1 hl
    have hid : l.lotId = current.lotId := congrArg (·.lotId) hfields
    have horig : l.originatingFillId = current.originatingFillId :=
      congrArg (·.originatingFillId) hfields
    have hside : l.positionSide = current.positionSide := congrArg (·.positionSide) hfields
    have hasset : l.asset = current.asset := congrArg (·.asset) hfields
    have hopened : l.openedQuantity = current.openedQuantity := congrArg (·.openedQuantity) hfields
    have hprice : l.acquisitionPrice = current.acquisitionPrice :=
      congrArg (·.acquisitionPrice) hfields
    have htime : l.openedAt = current.openedAt := congrArg (·.openedAt) hfields
    have hclosures : l.closures = current.closures.insert event.fillId c.quantity :=
      congrArg (·.closures) hfields
    have hcurrentLot := h.lot current hmem
    have hlot : LiveLot key past l := by
      refine ⟨hside.trans hcurrentLot.long, hasset ▸ hcurrentLot.asset, ?_, ?_, ?_⟩
      · rw [PositionLot.origin, hid]
        exact hcurrentLot.filled
      · obtain ⟨e, he, hfill, hopens⟩ := hcurrentLot.opened
        refine ⟨e, he, hfill.trans horig.symm, ?_⟩
        unfold opensLot at hopens ⊢
        rw [hopened, hprice, htime]
        exact hopens
      · intro id hmem'
        rw [hclosures, AList.mem_insert] at hmem'
        rcases hmem' with rfl | hmem'
        · exact hknown
        · exact hcurrentLot.closer id hmem'
    refine ⟨fun x hx => ?_, fun x hx => ?_⟩
    · rcases Table.mem_put_imp hx with rfl | hx
      · exact hlot
      · exact h.lot x hx
    · rcases Table.mem_put_imp hx with rfl | hx
      · rw [hid]
        exact h.unconverted current hmem
      · exact h.unconverted x hx

theorem LiveLots.lookup_eq_none (h : LiveLots key past s)
    (hfresh : event.fillId ∉ past.map (·.fillId)) {l : PositionLot} (hl : l ∈ s.positionLots.rows) :
    l.closures.lookup event.fillId = none := by
  refine AList.lookup_eq_none.2 fun hmem => ?_
  obtain ⟨e, he, hid⟩ := (h.lot l hl).closer _ hmem
  exact hfresh (List.mem_map.2 ⟨e, he, hid⟩)

theorem LiveLots.originatingFillId_ne (h : LiveLots key past s)
    (hfresh : event.fillId ∉ past.map (·.fillId)) {l : PositionLot} (hl : l ∈ s.positionLots.rows) :
    l.originatingFillId ≠ event.fillId := by
  intro heq
  obtain ⟨e, he, hid, -⟩ := (h.lot l hl).opened
  exact hfresh (List.mem_map.2 ⟨e, he, hid.trans heq⟩)

theorem LiveLots.unspent (h : LiveLots key past s) (hfresh : event.fillId ∉ past.map (·.fillId))
    (side : PositionSide) :
    alreadyClosed s.positionLots.rows event.fillId = 0 ∧
      alreadyOpened s.positionLots.rows event.fillId side = 0 := by
  constructor
  · refine List.sum_eq_zero fun q hq => ?_
    obtain ⟨l, hl, rfl⟩ := List.mem_map.1 hq
    rw [h.lookup_eq_none hfresh hl]
    rfl
  · have hfilter : (s.positionLots.rows.filter fun l =>
        l.originatingFillId = event.fillId && l.positionSide = side) = [] := by
      refine List.filter_eq_nil_iff.2 fun l hl => ?_
      simp [h.originatingFillId_ne hfresh hl]
    unfold alreadyOpened
    rw [hfilter]
    rfl

section Settle

variable {i : Outside} {pnl : ℚ}

/-- **A purchase opens one lot of its whole quantity.** -/
theorem LiveLots.buy (h : LiveLots key past s) (hkey : assetIdentityKey event.asset = key)
    (hfresh : event.fillId ∉ past.map (·.fillId)) (hnew : NewId s i.uuid) (hside : event.side = .buy)
    (hout : lotOutcome i event s = (.ok (some pnl), t)) :
    ∃ l, openedLot event i.uuid .long event.quantity = .ok l ∧
      t.positionLots.rows = s.positionLots.rows ++ [l] ∧ t.convertedLots = s.convertedLots ∧
      pnl = 0 := by
  obtain ⟨plan, u, hplan, hclosing, hopen, rfl⟩ := lotOutcome_parts hout
  obtain ⟨multiplier, hm, -, hdir, -, -⟩ := planSignedLotFill_ok hplan.1
  have hlong : plan.openingDirection = .long := by
    rw [hdir, openingDirection, if_pos hside]
  have hnotShort : plan.openingDirection ≠ .short := by
    rw [hlong]
    decide
  have hnil : plan.closures = [] := closures_nil_of_long hplan hnotShort
  have htotal := planSignedLotFill_total hplan.1
  have hrealized := planSignedLotFill_realized hplan.1 hm
  obtain ⟨hclosed, hopened⟩ := h.unspent hfresh (openingDirection event.side)
  rw [h.visibleLots_eq hkey, hclosed, hopened, hnil] at htotal
  rw [h.visibleLots_eq hkey, hnil] at hrealized
  have hquantity : plan.openingQuantity = event.quantity := by
    simpa using htotal
  rw [hnil] at hclosing
  cases hclosing
  rcases openPosition_ok hopen with ⟨-, -, l, hl, rfl⟩ | ⟨hnone, -⟩
  · rw [hlong, hquantity] at hl
    have hfields := PositionLot.make_eq_ok_iff.1 hl
    have hid : l.lotId = i.uuid := congrArg (·.lotId) hfields
    have horig : l.originatingFillId = event.fillId := congrArg (·.originatingFillId) hfields
    have hadmits : s.positionLots.Admits l := by
      intro a ha
      refine ⟨?_, .inr ?_⟩
      · intro heq
        exact hnew.unused a ha (heq.trans hid)
      · intro heq
        exact h.originatingFillId_ne hfresh ha ((Option.some.inj heq).trans horig)
    refine ⟨l, hl, Table.rows_createOnce hadmits, rfl, ?_⟩
    rw [hrealized, List.map_nil, List.sum_nil, add_zero]
    refine List.sum_eq_zero fun q hq => ?_
    obtain ⟨x, hx, rfl⟩ := List.mem_map.1 hq
    rw [h.lookup_eq_none hfresh hx]
    rfl
  · exfalso
    rcases hnone with hzero | hshort
    · exact absurd (hquantity ▸ event.quantity_pos) (not_lt.2 hzero)
    · rw [hlong] at hshort
      cases hshort

theorem LiveLots.sell (h : LiveLots key past s) (hkey : assetIdentityKey event.asset = key)
    (hside : event.side = .sell) (hout : lotOutcome i event s = (.ok (some pnl), t)) :
    ∃ plan u, planSignedLotFill s.positionLots.rows event = .ok plan ∧
      alone exec i (closing event plan.closures) s = (.ok (), u) ∧
      t.positionLots = u.positionLots ∧ t.convertedLots = u.convertedLots ∧
      pnl = plan.realizedPnl := by
  obtain ⟨plan, u, hplan, hclosing, hopen, rfl⟩ := lotOutcome_parts hout
  rw [h.visibleLots_eq hkey] at hplan
  obtain ⟨-, -, -, hdir, -, -⟩ := planSignedLotFill_ok hplan.1
  rcases openPosition_ok hopen with ⟨-, hlong, -⟩ | ⟨-, hlots, hconverted⟩
  · refine absurd ?_ hlong
    rw [hdir, openingDirection, hside]
    rfl
  · exact ⟨plan, u, hplan.1, hclosing, hlots, hconverted, rfl⟩

theorem LiveLots.congr (h : LiveLots key past s) (hlots : t.positionLots = s.positionLots)
    (hconverted : t.convertedLots = s.convertedLots) : LiveLots key past t := by
  refine ⟨fun l hl => ?_, fun l hl => ?_⟩
  · rw [hlots] at hl
    exact h.lot l hl
  · rw [hlots] at hl
    rw [hconverted]
    exact h.unconverted l hl

/-- **One settlement keeps what is known of the lots.** -/
theorem LiveLots.settle (h : LiveLots key past s) (hkey : assetIdentityKey event.asset = key)
    (hfresh : event.fillId ∉ past.map (·.fillId)) (hnew : NewId s i.uuid)
    (hout : lotOutcome i event s = (.ok (some pnl), t))
    (hfacts : row.toSettlementFacts = event.toSettlementFacts) : LiveLots key (past ++ [row]) t := by
  have hfill : row.fillId = event.fillId := congrArg (·.fillId) hfacts
  have hmem : row ∈ past ++ [row] := by simp
  cases hside : event.side with
  | buy =>
      obtain ⟨l, hl, hrows, hconverted, -⟩ := h.buy hkey hfresh hnew hside hout
      have hfields := PositionLot.make_eq_ok_iff.1 hl
      have hid : l.lotId = i.uuid := congrArg (·.lotId) hfields
      have horig : l.originatingFillId = event.fillId := congrArg (·.originatingFillId) hfields
      have hasset : l.asset = event.asset := congrArg (·.asset) hfields
      have hopened : l.openedQuantity = event.quantity := congrArg (·.openedQuantity) hfields
      have hprice : l.acquisitionPrice = event.price := congrArg (·.acquisitionPrice) hfields
      have htime : l.openedAt = event.occurredAt := congrArg (·.openedAt) hfields
      have hclosures : l.closures = ∅ := congrArg (·.closures) hfields
      have hlot : LiveLot key (past ++ [row]) l := by
        refine ⟨congrArg (·.positionSide) hfields, hasset ▸ hkey, ?_, ?_, ?_⟩
        · rw [PositionLot.origin, hid, hnew.notAdopted]
          exact nofun
        · refine ⟨row, hmem, hfill.trans horig.symm, ?_⟩
          have hquantity : row.quantity = event.quantity := congrArg (·.quantity) hfacts
          have hprice' : row.price = event.price := congrArg (·.price) hfacts
          have htime' : row.occurredAt = event.occurredAt := congrArg (·.occurredAt) hfacts
          have hside' : row.side = .buy := (congrArg (·.side) hfacts).trans hside
          simp [opensLot, hside', hquantity, hprice', htime', hopened, hprice, htime]
        · intro id hclosed
          rw [hclosures] at hclosed
          exact absurd hclosed (AList.notMem_empty id)
      refine ⟨fun x hx => ?_, fun x hx => ?_⟩
      · rw [Table.mem_def, hrows, List.mem_append, List.mem_singleton] at hx
        rcases hx with hx | rfl
        · exact (h.lot x hx).append [row]
        · exact hlot
      · rw [Table.mem_def, hrows, List.mem_append, List.mem_singleton] at hx
        rw [hconverted]
        rcases hx with hx | rfl
        · exact h.unconverted x hx
        · rw [hid]
          exact hnew.unconverted
  | sell =>
      obtain ⟨plan, u, -, hclosing, hlots, hconverted, -⟩ := h.sell hkey hside hout
      have happend : LiveLots key (past ++ [row]) s :=
        ⟨fun l hl => (h.lot l hl).append [row], h.unconverted⟩
      have hclosed : LiveLots key (past ++ [row]) u :=
        closing_keeps (fun _ _ _ _ hs hx => hs.close ⟨row, hmem, hfill⟩ hx) hclosing happend
      exact hclosed.congr hlots hconverted

end Settle

/-- **What is known of the lots after a run.** -/
theorem liveLots_of_live (h : Live past s) (hkey : ∀ e ∈ past, assetIdentityKey e.asset = key)
    (hfills : (past.map (·.fillId)).Nodup) : LiveLots key past s := by
  induction h with
  | start hempty =>
      have hnone : ∀ l, l ∉ (default : Table PositionLot) := fun l hl => by cases hl
      refine ⟨fun l hl => ?_, fun l hl => ?_⟩ <;> rw [hempty] at hl <;> exact absurd hl (hnone l)
  | elsewhere _ hlots hconverted ih => exact (ih hkey hfills).congr hlots hconverted
  | @settle past s t i event row pnl _ hnew hout hfacts _ ih =>
      have hfill : row.fillId = event.fillId := congrArg (·.fillId) hfacts
      have hasset : row.asset = event.asset := congrArg (·.asset) hfacts
      rw [List.map_append, List.nodup_append] at hfills
      have hfresh : event.fillId ∉ past.map (·.fillId) := by
        intro hmem
        exact hfills.2.2 _ hmem _ (by simp) hfill.symm
      refine (ih (fun e he => hkey e (List.mem_append_left _ he)) hfills.1).settle ?_ hfresh hnew hout
        hfacts
      rw [← hasset]
      exact hkey row (by simp)

end Lots

/-! ### Lots and their later states -/

/-- What a lot was when it opened, without the extremes. -/
def source (l : PositionLot) : PositionLotFields := bareFields (reopenedFields l.toPositionLotFields)

/-- Every lot of the store has a later state among these. -/
def Covers (later : List PositionLot) (s : Store) : Prop :=
  ∀ l ∈ s.positionLots, ∃ l' ∈ later, source l' = source l

section Sources

variable {s t : Store} {event : SettlementEvent} {i : Outside} {later : List PositionLot}

theorem source_closedLot {c : LotClosure} {current l : PositionLot}
    (h : closedLot current c event = .ok l) : source l = source current := by
  have hfields := PositionLot.make_eq_ok_iff.1 h
  unfold source
  rw [hfields]
  rfl

theorem source_closing {closures : List LotClosure}
    (h : alone exec i (closing event closures) s = (.ok (), t)) :
    ∀ l ∈ s.positionLots, ∃ l' ∈ t.positionLots, source l' = source l := by
  refine closing_keeps (I := fun u => ∀ l ∈ s.positionLots, ∃ l' ∈ u.positionLots,
    source l' = source l) (fun c u r v hu hx l hl => ?_) h fun l hl => ⟨l, hl, rfl⟩
  obtain ⟨l', hl', hsource⟩ := hu l hl
  rcases closeLot_ok hx with ⟨-, -, rfl⟩ | ⟨current, new, hcurrent, hnew, -, rfl⟩
  · exact ⟨l', hl', hsource⟩
  · have hmem := (Table.get?_eq_some_iff.1 hcurrent).1
    have hfields := PositionLot.make_eq_ok_iff.1 hnew
    have hid : new.lotId = current.lotId := congrArg (·.lotId) hfields
    by_cases heq : l'.lotId = current.lotId
    · obtain rfl := Table.eq_of_recordId hl' hmem heq
      have hkeys : SameKeys l' new :=
        ⟨hid.symm, congrArg (fun f => some f.originatingFillId) hfields.symm⟩
      exact ⟨new, Table.mem_put_self hmem hkeys, (source_closedLot hnew).trans hsource⟩
    · exact ⟨l', Table.mem_put_of_ne hl' fun h => heq (h.trans hid), hsource⟩

end Sources

/-! ### Closures, live and in the replay -/

theorem Keyed.values_insert {current : OrderedDict String PositionLot} (h : Keyed current)
    {l : PositionLot} (hmem : l.lotId ∈ current.keys) :
    (current.insert l.lotId l).values = replaceLot l current.values := by
  unfold OrderedDict.insert
  rw [dif_pos hmem]
  simp only [OrderedDict.values, replaceLot, List.map_map]
  refine List.map_congr_left fun e he => ?_
  have hid := h e he
  by_cases hk : e.1 = l.lotId <;> simp [hid, hk]

theorem map_bare_replaceLot (l : PositionLot) (lots : List PositionLot) :
    (replaceLot l lots).map PositionLot.bare = replaceLot l.bare (lots.map PositionLot.bare) := by
  unfold replaceLot
  rw [List.map_map, List.map_map]
  refine List.map_congr_left fun x _ => ?_
  by_cases hid : x.lotId = l.lotId <;> simp [hid]

theorem exists_soldLot {event row : SettlementEvent} {c c' : LotClosure} {l : PositionLot}
    (hfill : row.fillId = event.fillId) (hbare : c'.bare = c.bare)
    (hl : closedLot c.lot c event = .ok l) :
    ∃ l', PositionLot.make (soldFields row c'.lot c'.quantity c'.pnl) = .ok l' ∧
      l'.bare = l.bare ∧ l'.lotId = c'.lot.lotId := by
  obtain ⟨hbareLot, hquantity, hpnl⟩ := LotClosure.mk.inj hbare
  have hlot : bareFields c'.lot.toPositionLotFields = bareFields c.lot.toPositionLotFields :=
    congrArg PositionLot.toPositionLotFields hbareLot
  have hfields := PositionLot.make_eq_ok_iff.1 hl
  have hsold : ∀ (lot : PositionLot) (q p : ℚ), bareFields (soldFields row lot q p)
      = { bareFields lot.toPositionLotFields with
          remainingQuantity := (bareFields lot.toPositionLotFields).remainingQuantity - q
          closures := (bareFields lot.toPositionLotFields).closures.insert row.fillId q
          realizedPnl := (bareFields lot.toPositionLotFields).realizedPnl + p } :=
    fun _ _ _ => rfl
  have hsame : bareFields (soldFields row c'.lot c'.quantity c'.pnl)
      = bareFields l.toPositionLotFields := by
    rw [hsold, hlot, hquantity, hpnl, hfill, hfields]
    rfl
  have hvalid : Valid (soldFields row c'.lot c'.quantity c'.pnl) := by
    rw [valid_iff_bareFields, hsame]
    exact ⟨l.bare.valid, ((valid_iff_bareFields _).1 c'.lot.valid).2⟩
  refine ⟨⟨_, hvalid⟩, dif_pos hvalid, ?_, rfl⟩
  unfold PositionLot.bare
  simp only [hsame]

/-- **Closures leave the same bare lots in the replay as live.** -/
theorem closeLots_mirrors {event row : SettlementEvent} {s t : Store} {i : Outside}
    {closures closures' : List LotClosure} {current : OrderedDict String PositionLot}
    (hfill : row.fillId = event.fillId)
    (hbare : closures'.map LotClosure.bare = closures.map LotClosure.bare) (hkeyed : Keyed current)
    (hvalues : current.values.map PositionLot.bare = s.positionLots.rows.map PositionLot.bare)
    (hmem : ∀ c ∈ closures, c.lot ∈ s.positionLots)
    (hdistinct : (closures.map fun c => c.lot.lotId).Nodup)
    (h : alone exec i (closing event closures) s = (.ok (), t)) :
    ∃ current', closeLots row closures' current = .ok current' ∧ Keyed current' ∧
      current'.values.map PositionLot.bare = t.positionLots.rows.map PositionLot.bare := by
  induction closures generalizing closures' current s with
  | nil =>
      obtain rfl := List.map_eq_nil_iff.1 hbare
      cases h
      exact ⟨current, rfl, hkeyed, hvalues⟩
  | cons c cs ih =>
      cases closures' with
      | nil => cases hbare
      | cons c' cs' =>
          obtain ⟨hc, hcs⟩ := List.cons.inj hbare
          rw [List.map_cons, List.nodup_cons] at hdistinct
          rw [alone_closing_cons] at h
          obtain ⟨r, u, hx, hrest⟩ := andThen_eq_ok h
          have hlot := hmem c List.mem_cons_self
          have hget : s.positionLots.get? c.lot.lotId = some c.lot :=
            Table.get?_eq_some_iff.2 ⟨hlot, rfl⟩
          rcases closeLot_ok (once_eq_ok hx) with ⟨hnone, -⟩ | ⟨_, l, hcurrent, hl, -, rfl⟩
          · rw [hget] at hnone
            cases hnone
          · obtain rfl := Option.some.inj (hget.symm.trans hcurrent)
            have hfields := PositionLot.make_eq_ok_iff.1 hl
            have hid : l.lotId = c.lot.lotId := congrArg (·.lotId) hfields
            have horig : l.originatingFillId = c.lot.originatingFillId :=
              congrArg (·.originatingFillId) hfields
            obtain ⟨l', hl', hsame, hid'⟩ := exists_soldLot hfill hc hl
            obtain ⟨hbareLot, -, -⟩ := LotClosure.mk.inj hc
            have hids : c'.lot.bare.lotId = c.lot.bare.lotId := congrArg (·.lotId) hbareLot
            rw [PositionLot.bare_lotId, PositionLot.bare_lotId] at hids
            have hkey : l'.lotId ∈ current.keys := by
              have hmap := congrArg (List.map fun x : PositionLot => x.lotId) hvalues
              rw [List.map_map, List.map_map] at hmap
              rw [← hkeyed.map_lotId, hid', hids]
              refine hmap.symm ▸ List.mem_map.2 ⟨c.lot, hlot, rfl⟩
            have hnext : (current.insert l'.lotId l').values.map PositionLot.bare
                = (s.positionLots.put l).rows.map PositionLot.bare := by
              rw [hkeyed.values_insert hkey, rows_putLot hlot hid horig, map_bare_replaceLot,
                map_bare_replaceLot, hsame, hvalues]
            have hothers : ∀ d ∈ cs, d.lot ∈ s.positionLots.put l := by
              intro d hd
              refine Table.mem_put_of_ne (hmem d (List.mem_cons_of_mem c hd)) fun heq => ?_
              exact hdistinct.1 (List.mem_map.2 ⟨d, hd, heq.trans hid⟩)
            obtain ⟨current', hclosed, hkeyed', hvalues'⟩ := ih hcs (hkeyed.insert l') hnext hothers
              hdistinct.2 hrest
            refine ⟨current', ?_, hkeyed', hvalues'⟩
            rw [closeLots, hl', ← hid']
            exact hclosed

/-! ### The replay of a run -/

/-- What is asked of the lots that a replay is given. -/
structure Origins (later : List PositionLot) (past : List SettlementEvent) : Prop where
  ids : (later.map (·.lotId)).Nodup
  openings : (later.map (·.originatingFillId)).Nodup
  long : ∀ lot ∈ later, lot.positionSide = .long
  opens : ∀ e ∈ past, ∀ lot ∈ later, lot.originatingFillId = e.fillId →
    lot.openedQuantity = e.quantity

/-- A replay that has come as far as the live run. -/
structure Mirrors (later : List PositionLot) (past : List SettlementEvent) (s : Store)
    (st : Replay) : Prop where
  values : st.current.values.map PositionLot.bare = s.positionLots.rows.map PositionLot.bare
  accounts : Accounts later (past.map Occurrence.fill) st
  realized : ∀ e ∈ past, st.realized.get? e.fillId = e.realizedPnl

theorem originOf_eq {later : List PositionLot} {lot : PositionLot}
    (hdistinct : (later.map (·.originatingFillId)).Nodup) (hmem : lot ∈ later) :
    originOf later lot.originatingFillId = some lot := by
  cases hfind : originOf later lot.originatingFillId with
  | none =>
      have hnone := List.find?_eq_none.1 hfind lot hmem
      simp at hnone
  | some found =>
      have hid : found.originatingFillId = lot.originatingFillId := by
        simpa using List.find?_some hfind
      rw [List.inj_on_of_nodup_map hdistinct (List.mem_of_find?_eq_some hfind) hmem hid]

section Turn

variable {key : String} {later : List PositionLot} {past : List SettlementEvent} {s t : Store}
  {event row : SettlementEvent} {i : Outside} {pnl : ℚ} {st : Replay}

theorem Mirrors.map_lotId (h : Mirrors later past s st) :
    st.current.keys = s.positionLots.rows.map (·.lotId) := by
  have hids := congrArg (List.map fun x : PositionLot => x.lotId) h.values
  rw [List.map_map, List.map_map] at hids
  rw [← h.accounts.keyed.map_lotId]
  exact hids

theorem Mirrors.held_eq (h : Mirrors later past s st) :
    (s.positionLots.rows.map fun l => l.remainingQuantity).sum = held past := by
  have hremaining := congrArg (List.map fun x : PositionLot => x.remainingQuantity) h.values
  rw [List.map_map, List.map_map] at hremaining
  have htotal := h.accounts.total
  rw [List.map_map] at htotal
  exact (congrArg List.sum hremaining.symm).trans htotal

theorem Mirrors.get?_insert (h : Mirrors later past s st)
    (hfresh : row.fillId ∉ past.map (·.fillId)) (hpnl : row.realizedPnl = some pnl) :
    ∀ e ∈ past ++ [row], (st.realized.insert row.fillId pnl).get? e.fillId = e.realizedPnl := by
  intro e he
  rw [OrderedDict.get?_insert]
  rcases List.mem_append.1 he with he | he
  · have hne : e.fillId ≠ row.fillId := by
      intro heq
      exact hfresh (List.mem_map.2 ⟨e, he, heq⟩)
    rw [if_neg hne]
    exact h.realized e he
  · rw [List.mem_singleton.1 he, if_pos rfl, hpnl]

/-- **A purchase in the replay.** -/
theorem Mirrors.buy (h : Mirrors later past s st) (hlots : LiveLots key past s)
    (horigins : Origins later (past ++ [row])) (hcovers : Covers later t)
    (hkey : assetIdentityKey event.asset = key) (hfresh : row.fillId ∉ past.map (·.fillId))
    (hnew : NewId s i.uuid) (hside : event.side = .buy)
    (hout : lotOutcome i event s = (.ok (some pnl), t))
    (hfacts : row.toSettlementFacts = event.toSettlementFacts) :
    ∃ st', applyFill (originOf later) row st = .ok st' ∧
      st'.current.values.map PositionLot.bare = t.positionLots.rows.map PositionLot.bare ∧
      st'.realized = st.realized.insert row.fillId pnl := by
  have hfill : row.fillId = event.fillId := congrArg (·.fillId) hfacts
  have hside' : row.side = .buy := (congrArg (·.side) hfacts).trans hside
  obtain ⟨l, hl, hrows, -, rfl⟩ := hlots.buy hkey (hfill ▸ hfresh) hnew hside hout
  have hfields := PositionLot.make_eq_ok_iff.1 hl
  have hid : l.lotId = i.uuid := congrArg (·.lotId) hfields
  have horig : l.originatingFillId = event.fillId := congrArg (·.originatingFillId) hfields
  obtain ⟨lot, hlot, hsource⟩ := hcovers l (by rw [Table.mem_def, hrows]; simp)
  have hlotId : lot.lotId = l.lotId := congrArg (·.lotId) hsource
  have hlotOrig : lot.originatingFillId = row.fillId :=
    (congrArg (·.originatingFillId) hsource).trans (horig.trans hfill.symm)
  -- the lot is put back to where it started, which is the lot that was opened
  have hopened : source l = bareFields l.toPositionLotFields := by
    unfold source
    rw [hfields]
    rfl
  have hvalid : Valid (reopenedFields lot.toPositionLotFields) := by
    have hbare : bareFields (reopenedFields lot.toPositionLotFields) = _ := hsource.trans hopened
    rw [valid_iff_bareFields, hbare]
    exact ⟨l.bare.valid, ((valid_iff_bareFields _).1 lot.valid).2⟩
  have hmake : PositionLot.make (reopenedFields lot.toPositionLotFields)
      = .ok ⟨reopenedFields lot.toPositionLotFields, hvalid⟩ := dif_pos hvalid
  have hfind : originOf later row.fillId = some lot := by
    rw [← hlotOrig]
    exact originOf_eq horigins.openings hlot
  have hnotMem : lot.lotId ∉ st.current.keys := by
    rw [h.map_lotId, hlotId, hid]
    rintro hmem
    obtain ⟨x, hx, hxid⟩ := List.mem_map.1 hmem
    exact hnew.unused x hx hxid
  refine ⟨{ current := st.current.insert lot.lotId ⟨_, hvalid⟩
            realized := st.realized.insert row.fillId 0 }, ?_, ?_, rfl⟩
  · unfold applyFill
    rw [if_pos hside', hfind]
    simp only [hmake]
    rfl
  · rw [OrderedDict.values_insert_of_notMem hnotMem, hrows, List.map_append, List.map_append,
      h.values]
    have hsame : (⟨_, hvalid⟩ : PositionLot).bare = l.bare := by
      unfold PositionLot.bare
      congr 1
      exact hsource.trans hopened
    rw [List.map_singleton, List.map_singleton, hsame]

/-- **A sale in the replay.** -/
theorem Mirrors.sell (h : Mirrors later past s st) (hlots : LiveLots key past s)
    (hkey : assetIdentityKey event.asset = key) (hfresh : row.fillId ∉ past.map (·.fillId))
    (hside : event.side = .sell) (hcovered : event.quantity ≤ held past)
    (hout : lotOutcome i event s = (.ok (some pnl), t))
    (hfacts : row.toSettlementFacts = event.toSettlementFacts) :
    ∃ st', applyFill (originOf later) row st = .ok st' ∧
      st'.current.values.map PositionLot.bare = t.positionLots.rows.map PositionLot.bare ∧
      st'.realized = st.realized.insert row.fillId pnl := by
  have hfill : row.fillId = event.fillId := congrArg (·.fillId) hfacts
  have hside' : row.side = .sell := (congrArg (·.side) hfacts).trans hside
  obtain ⟨plan, u, hplan, hclosing, htu, -, rfl⟩ := hlots.sell hkey hside hout
  obtain ⟨plan', hplan', hbare⟩ := planSignedLotFill_of_bare h.values hplan
  rw [← planSignedLotFill_facts hfacts] at hplan'
  obtain ⟨-, hclosures, hopening, hrealized⟩ := SignedLotPlan.mk.inj hbare
  -- enough is held, so nothing is left to open
  have hnone : plan.openingQuantity = 0 := by
    obtain ⟨multiplier, -, hle, -, -, hopen⟩ := planSignedLotFill_ok hplan
    obtain ⟨hclosed, hopened⟩ := hlots.unspent (hfill ▸ hfresh) (openingDirection event.side)
    rw [hopen, hclosed, hopened, sub_zero, sub_zero]
    refine planClosures_of_covered _ _ event.quantity_pos.le ?_
    rw [sum_oppositeLots fun l hl => ?_, h.held_eq]
    · exact hcovered
    · rw [(hlots.lot l hl).long, closingDirection, hside]
      rfl
  have hmem : ∀ c ∈ plan.closures, c.lot ∈ s.positionLots := fun c hc =>
    (planSignedLotFill_closure hplan hc).1
  have hdistinct := planSignedLotFill_distinct hplan (nodup_lotId s.positionLots)
  obtain ⟨current, hclosed, -, hvalues⟩ := closeLots_mirrors hfill hclosures h.accounts.keyed
    h.values hmem hdistinct hclosing
  refine ⟨{ current := current
            realized := st.realized.insert row.fillId plan'.realizedPnl }, ?_, ?_, ?_⟩
  · have hnotBuy : row.side ≠ .buy := by
      rw [hside']
      decide
    have hzero : raiseIf (plan'.openingQuantity ≠ 0)
        (assetFeeIntegrity "ASSET_FEE_REPLAY_OVERSELL") = .ok () :=
      raiseIf_eq_ok_iff.2 fun hne => hne (hopening.trans hnone)
    unfold applyFill
    rw [if_neg hnotBuy, hplan']
    simp only [bind, Except.bind, hclosed, hzero]
    rfl
  · rw [htu]
    exact hvalues
  · rw [show plan'.realizedPnl = plan.realizedPnl from hrealized]

theorem Origins.of_append {rest : List SettlementEvent} (h : Origins later (past ++ rest)) :
    Origins later past :=
  { h with opens := fun e he => h.opens e (List.mem_append_left rest he) }

/-- **One settlement, live and in the replay.** -/
theorem Mirrors.settle (h : Mirrors later past s st) (hlots : LiveLots key past s)
    (horigins : Origins later (past ++ [row])) (hcovers : Covers later t)
    (hkey : assetIdentityKey event.asset = key) (hfresh : row.fillId ∉ past.map (·.fillId))
    (hnew : NewId s i.uuid) (hcovered : NeverOversells (past ++ [row]))
    (hout : lotOutcome i event s = (.ok (some pnl), t))
    (hfacts : row.toSettlementFacts = event.toSettlementFacts)
    (hpnl : row.realizedPnl = some pnl) :
    ∃ st', replayOne (originOf later) st (.fill row) = .ok st' ∧
      Mirrors later (past ++ [row]) t st' := by
  have hquantity : row.quantity = event.quantity := congrArg (·.quantity) hfacts
  have hsides : row.side = event.side := congrArg (·.side) hfacts
  obtain ⟨st', hturn, hvalues, hrealized⟩ :
      ∃ st', applyFill (originOf later) row st = .ok st' ∧
        st'.current.values.map PositionLot.bare = t.positionLots.rows.map PositionLot.bare ∧
        st'.realized = st.realized.insert row.fillId pnl := by
    cases hside : event.side with
    | buy => exact h.buy hlots horigins hcovers hkey hfresh hnew hside hout hfacts
    | sell =>
        have hheld := hcovered past row [] rfl (hsides.trans hside)
        exact h.sell hlots hkey hfresh hside (hquantity ▸ hheld) hout hfacts
  refine ⟨st', hturn, hvalues, ?_, fun e he => ?_⟩
  · rw [List.map_append, List.map_singleton]
    refine accounts_replayOne h.accounts horigins.ids horigins.long (fun y hy => ?_)
      (fun e he lot hlot hid => ?_) hturn
    · obtain ⟨e, he, rfl⟩ := List.mem_map.1 hy
      intro heq
      exact hfresh (List.mem_map.2 ⟨e, he, heq⟩)
    · cases he
      exact horigins.opens row (by simp) lot hlot hid
  · rw [hrealized]
    exact h.get?_insert hfresh hpnl e he

theorem Covers.of_settle (h : Covers later t) (hlots : LiveLots key past s)
    (hkey : assetIdentityKey event.asset = key) (hfresh : event.fillId ∉ past.map (·.fillId))
    (hnew : NewId s i.uuid) (hout : lotOutcome i event s = (.ok (some pnl), t)) :
    Covers later s := by
  intro l hl
  cases hside : event.side with
  | buy =>
      obtain ⟨new, -, hrows, -⟩ := hlots.buy hkey hfresh hnew hside hout
      refine h l ?_
      rw [Table.mem_def, hrows]
      exact List.mem_append_left [new] hl
  | sell =>
      obtain ⟨plan, u, -, hclosing, htu, -⟩ := hlots.sell hkey hside hout
      obtain ⟨l', hl', hsource⟩ := source_closing hclosing l hl
      obtain ⟨x, hx, hsame⟩ := h l' (htu ▸ hl')
      exact ⟨x, hx, hsame.trans hsource⟩

end Turn

section Run

variable {key : String} {later : List PositionLot} {past : List SettlementEvent} {s : Store}

/-- **The replay of a run.** -/
theorem replay_of_live (h : Live past s) (hkey : ∀ e ∈ past, assetIdentityKey e.asset = key)
    (hfills : (past.map (·.fillId)).Nodup) (hcovered : NeverOversells past)
    (horigins : Origins later past) (hcovers : Covers later s) :
    ∃ st, (past.map Occurrence.fill).foldlM (replayOne (originOf later)) {} = .ok st ∧
      Mirrors later past s st := by
  induction h with
  | start hempty =>
      refine ⟨{}, rfl, ?_, accounts_empty later, fun e he => by cases he⟩
      rw [hempty]
      rfl
  | elsewhere _ hlots _ ih =>
      obtain ⟨st, hfold, hmirrors⟩ := ih hkey hfills hcovered horigins (by
        unfold Covers at hcovers ⊢
        rwa [hlots] at hcovers)
      refine ⟨st, hfold, ?_, hmirrors.accounts, hmirrors.realized⟩
      rw [hlots]
      exact hmirrors.values
  | @settle past s t i event row pnl hrun hnew hout hfacts hpnl ih =>
      have hfill : row.fillId = event.fillId := congrArg (·.fillId) hfacts
      have hasset : row.asset = event.asset := congrArg (·.asset) hfacts
      have hkey' : assetIdentityKey event.asset = key := hasset ▸ hkey row (by simp)
      have hkeys : ∀ e ∈ past, assetIdentityKey e.asset = key := fun e he =>
        hkey e (List.mem_append_left _ he)
      rw [List.map_append, List.nodup_append] at hfills
      have hfresh : row.fillId ∉ past.map (·.fillId) := by
        intro hmem
        exact hfills.2.2 _ hmem _ (by simp) rfl
      have hlots := liveLots_of_live hrun hkeys hfills.1
      obtain ⟨st, hfold, hmirrors⟩ := ih hkeys hfills.1 hcovered.of_append horigins.of_append
        (hcovers.of_settle hlots hkey' (hfill ▸ hfresh) hnew hout)
      obtain ⟨st', hturn, hmirrors'⟩ := hmirrors.settle hlots horigins hcovers hkey' hfresh hnew
        hcovered hout hfacts hpnl
      refine ⟨st', ?_, hmirrors'⟩
      rw [List.map_append, List.foldlM_append, hfold]
      simp only [List.map_singleton, List.foldlM_cons, List.foldlM_nil, bind, Except.bind, hturn]
      rfl

theorem exists_lot_of_live (h : Live past s) (hkey : ∀ e ∈ past, assetIdentityKey e.asset = key)
    (hfills : (past.map (·.fillId)).Nodup) {e : SettlementEvent} (he : e ∈ past)
    (hside : e.side = .buy) : ∃ l ∈ s.positionLots, l.originatingFillId = e.fillId := by
  induction h with
  | start => cases he
  | elsewhere _ hlots _ ih =>
      rw [hlots]
      exact ih hkey hfills he
  | @settle past s t i event row pnl hrun hnew hout hfacts hpnl ih =>
      have hfill : row.fillId = event.fillId := congrArg (·.fillId) hfacts
      have hasset : row.asset = event.asset := congrArg (·.asset) hfacts
      have hsides : row.side = event.side := congrArg (·.side) hfacts
      have hkey' : assetIdentityKey event.asset = key := hasset ▸ hkey row (by simp)
      have hkeys : ∀ e ∈ past, assetIdentityKey e.asset = key := fun e he =>
        hkey e (List.mem_append_left _ he)
      rw [List.map_append, List.nodup_append] at hfills
      have hfresh : event.fillId ∉ past.map (·.fillId) := by
        intro hmem
        exact hfills.2.2 _ hmem _ (by simp) hfill.symm
      have hlots := liveLots_of_live hrun hkeys hfills.1
      cases hevent : event.side with
      | buy =>
          obtain ⟨new, hnewLot, hrows, -⟩ := hlots.buy hkey' hfresh hnew hevent hout
          have hfields := PositionLot.make_eq_ok_iff.1 hnewLot
          rcases List.mem_append.1 he with he | he
          · obtain ⟨l, hl, horig⟩ := ih hkeys hfills.1 he
            refine ⟨l, ?_, horig⟩
            rw [Table.mem_def, hrows]
            exact List.mem_append_left [new] hl
          · obtain rfl := List.mem_singleton.1 he
            refine ⟨new, ?_, (congrArg (·.originatingFillId) hfields).trans hfill.symm⟩
            rw [Table.mem_def, hrows]
            simp
      | sell =>
          obtain ⟨plan, u, -, hclosing, htu, -⟩ := hlots.sell hkey' hevent hout
          rcases List.mem_append.1 he with he | he
          · obtain ⟨l, hl, horig⟩ := ih hkeys hfills.1 he
            obtain ⟨l', hl', hsource⟩ := source_closing hclosing l hl
            exact ⟨l', htu ▸ hl', (congrArg (·.originatingFillId) hsource).trans horig⟩
          · obtain rfl := List.mem_singleton.1 he
            rw [hsides, hevent] at hside
            cases hside

theorem mapM_replayedLot {st : Replay} (hkeyed : Keyed st.current) {lots : List PositionLot}
    (h : ∀ l ∈ lots, l ∈ st.current.values) :
    (lots.map (·.lotId)).mapM (replayedLot st) = .ok lots := by
  induction lots with
  | nil => rfl
  | cons l lots ih =>
      have hfound : replayedLot st l.lotId = .ok l := by
        unfold replayedLot
        rw [hkeyed.get?_lotId (h l List.mem_cons_self)]
      rw [List.map_cons, List.mapM_cons, hfound, ih fun x hx => h x (List.mem_cons_of_mem l hx)]
      rfl

/-- Executions in the order of their times are sorted already. -/
theorem chronology_of_sorted (htimes : (past.map (·.occurredAt)).Pairwise (· < ·)) :
    chronology past [] = past.map Occurrence.fill ∧ Untied past [] := by
  rw [List.pairwise_map] at htimes
  constructor
  · unfold chronology
    rw [List.map_nil, List.append_nil]
    refine List.Pairwise.insertionSort_eq (List.pairwise_map.2 (htimes.imp ?_))
    intro a b hab
    exact .inl hab
  · unfold Untied
    rw [List.map_nil, List.append_nil, List.map_map]
    refine List.pairwise_map.2 (htimes.imp ?_)
    intro a b hab heq
    exact hab.ne (congrArg Prod.fst heq)

theorem LiveLots.origins (h : LiveLots key past s) (hfills : (past.map (·.fillId)).Nodup) :
    Origins s.positionLots.rows past := by
  refine ⟨nodup_lotId s.positionLots, List.pairwise_map.2 (s.positionLots.keyed.imp ?_),
    fun l hl => (h.lot l hl).long, fun e he l hl hid => ?_⟩
  · intro a b hab heq
    rcases hab.2 with hnone | hne
    · cases hnone
    · exact hne (congrArg some heq)
  · obtain ⟨opening, hopening, hfill, hopens⟩ := (h.lot l hl).opened
    obtain rfl := mem_of_fillId hfills hopening he (hfill.trans hid)
    simp only [opensLot, Bool.and_eq_true, beq_iff_eq] at hopens
    exact hopens.1.1.2.symm

theorem Mirrors.exists_value {st : Replay} (h : Mirrors later past s st) {l : PositionLot}
    (hl : l ∈ s.positionLots) : ∃ l' ∈ st.current.values, l'.bare = l.bare := by
  have hmem : l.bare ∈ st.current.values.map PositionLot.bare := by
    rw [h.values]
    exact List.mem_map_of_mem hl
  obtain ⟨l', hl', hbare⟩ := List.mem_map.1 hmem
  exact ⟨l', hl', hbare⟩

/-- What a replay keeps of a lot: its identifier, what remains, what was closed, and its profit. -/
def kept (l : PositionLot) : String × ℚ × Dict ℚ × ℚ :=
  (l.lotId, l.remainingQuantity, l.closures, l.realizedPnl)

/-- **The replay returns the lots and the profits of the live run.** -/
theorem previewFeeReplay_live {settlements : List SettlementEvent} (hlive : Live past s)
    (hnonempty : past ≠ []) (hone : ∃ key, ∀ e ∈ past, assetIdentityKey e.asset = key)
    (htimes : (past.map (·.occurredAt)).Pairwise (· < ·)) (hfills : (past.map (·.fillId)).Nodup)
    (hcovered : NeverOversells past) (hsettled : ∀ e ∈ past, fullySettled e = true)
    (hidentified : ∀ e ∈ past, e.brokerFillId.getD "" ≠ "") (hperm : settlements.Perm past) :
    ∃ out realized, previewFeeReplay s.positionLots.rows settlements [] = .ok (out, realized) ∧
      out.map kept = s.positionLots.rows.map kept ∧
      ∀ e ∈ past, e.side = .sell → realized.get? e.fillId = e.realizedPnl := by
  obtain ⟨key, hkey⟩ := hone
  have hlots := liveLots_of_live hlive hkey hfills
  have horigins := hlots.origins hfills
  obtain ⟨st, hfold, hmirrors⟩ := replay_of_live hlive hkey hfills hcovered horigins
    fun l hl => ⟨l, hl, rfl⟩
  obtain ⟨hsorted, huntied⟩ := chronology_of_sorted htimes
  have hrows : s.positionLots.rows ≠ [] := by
    cases past with
    | nil => exact absurd rfl hnonempty
    | cons e rest =>
        have hbuy : e.side = .buy := by
          cases hside : e.side with
          | buy => rfl
          | sell => exact absurd (hcovered [] e rest rfl hside) (not_le.2 e.quantity_pos)
        obtain ⟨l, hl, -⟩ := exists_lot_of_live hlive hkey hfills List.mem_cons_self hbuy
        exact List.ne_nil_of_mem hl
  have haccepted : Accepted s.positionLots.rows settlements [] :=
    { nonempty := hrows
      oneAsset := by
        refine ⟨key, fun asset hasset => ?_⟩
        simp only [List.map_nil, List.append_nil, List.mem_append, List.mem_map] at hasset
        rcases hasset with ⟨l, hl, rfl⟩ | ⟨e, he, rfl⟩
        · exact (hlots.lot l hl).asset
        · exact hkey e (hperm.mem_iff.1 he)
      long := horigins.long
      receipts := List.nodup_nil
      parsed := fun fee hfee => by cases hfee
      known := fun l hl id hid => by
        obtain ⟨l', hl', hbare⟩ := hmirrors.exists_value hl
        have hid' : id ∈ l'.bare.assetFeeQuantities := by
          rw [hbare]
          exact hid
        obtain ⟨fee, hfee, -⟩ := hmirrors.accounts.debitor l' hl' id hid'
        simp at hfee
      fills := (hperm.map _).nodup_iff.2 hfills
      filled := fun l hl => (hlots.lot l hl).filled
      openings := horigins.openings
      settled := fun e he => hsettled e (hperm.mem_iff.1 he)
      opened := fun l hl => by
        obtain ⟨e, he, hfill, hopens⟩ := (hlots.lot l hl).opened
        exact ⟨e, hperm.mem_iff.2 he, hfill, hopens⟩
      conserved := fun l hl => by
        obtain ⟨l', hl', hbare⟩ := hmirrors.exists_value hl
        have hconserved : l'.bare.Conserved := hmirrors.accounts.conserved l' hl'
        rw [hbare] at hconserved
        exact hconserved
      identified := fun e he => hidentified e (hperm.mem_iff.1 he) }
  have hids : s.positionLots.rows.map (·.lotId) = st.current.values.map (·.lotId) := by
    rw [hmirrors.accounts.keyed.map_lotId, hmirrors.map_lotId]
  refine ⟨st.current.values, st.realized, previewFeeReplay_ok_iff.2 ⟨haccepted, st, ?_, ?_, rfl⟩, ?_,
    fun e he _ => hmirrors.realized e he⟩
  · rw [chronology_perm huntied hperm .rfl, hsorted]
    exact hfold
  · rw [hids]
    exact mapM_replayedLot hmirrors.accounts.keyed fun _ hl => hl
  · have hboth := congrArg (List.map kept) hmirrors.values
    rw [List.map_map, List.map_map] at hboth
    exact hboth

end Run

/-! ### Examples -/

/-- The purchase of the examples, as its stages left it. -/
def boughtRow : SettlementEvent :=
  ⟨{ settledFill "bought" .buy 3 1 with realizedPnl := some 0 }, by decide +kernel⟩

/-- A sale of some of it, at a profit. -/
def soldRow : SettlementEvent :=
  ⟨{ settledFill "sold" .sell 1 3 with
      price := 110
      realizedPnl := some 10 }, by decide +kernel⟩

/-- The store after the purchase. -/
def afterBuying (event : SettlementEvent) : Store := (lotOutcome { uuid := "lot" } event {}).2

/-- The store after the sale. -/
def afterSelling : Store := (lotOutcome { uuid := "other" } soldRow (afterBuying boughtRow)).2

theorem live_buying {event : SettlementEvent} (hnew : NewId {} "lot")
    (hout : (lotOutcome { uuid := "lot" } event {}).1 = .ok (some 0))
    (hpnl : event.realizedPnl = some 0) : Live [event] (afterBuying event) := by
  have hstart : Live [] {} := .start rfl
  have hrun : lotOutcome { uuid := "lot" } event {} = (.ok (some 0), afterBuying event) :=
    Prod.ext hout rfl
  exact hstart.settle hnew hrun rfl hpnl

theorem live_bought : Live [boughtRow] (afterBuying boughtRow) :=
  live_buying (by decide +kernel) (by decide +kernel) rfl

theorem live_sold : Live [boughtRow, soldRow] afterSelling := by
  have hnew : NewId (afterBuying boughtRow) "other" := by decide +kernel
  have hout : (lotOutcome { uuid := "other" } soldRow (afterBuying boughtRow)).1
      = .ok (some 10) := by decide +kernel
  have hrun : lotOutcome { uuid := "other" } soldRow (afterBuying boughtRow)
      = (.ok (some 10), afterSelling) := Prod.ext hout rfl
  exact live_bought.settle hnew hrun rfl rfl

theorem neverOversells_sold : NeverOversells [boughtRow, soldRow] := by
  rintro (_ | ⟨a, _ | ⟨b, past⟩⟩) e rest h hside
  · cases h
    cases hside
  · cases h
    decide +kernel
  · cases past <;> cases h

theorem previewFeeReplay_live_sold : ∃ out realized,
    previewFeeReplay afterSelling.positionLots.rows [soldRow, boughtRow] [] = .ok (out, realized) ∧
      out.map kept = afterSelling.positionLots.rows.map kept ∧
      ∀ e ∈ [boughtRow, soldRow], e.side = .sell → realized.get? e.fillId = e.realizedPnl :=
  previewFeeReplay_live live_sold (by simp) ⟨assetIdentityKey bitcoin, by decide +kernel⟩ (by decide +kernel)
    (by decide +kernel) neverOversells_sold (by decide +kernel) (by decide +kernel)
    (List.Perm.swap boughtRow soldRow [])

/-- A purchase that the broker gave no identifier. -/
def unidentified : SettlementEvent :=
  ⟨{ settledFill "bought" .buy 3 1 with
      brokerFillId := none
      realizedPnl := some 0 }, by decide +kernel⟩

/-- A replay raises where nothing was settled, and over an execution without the broker's
identifier. -/
theorem replay_refuses :
    (Live [] {} ∧ NeverOversells [] ∧
      previewFeeReplay [] [] [] = .error (assetFeeIntegrity "ASSET_FEE_NO_LOCAL_LOTS")) ∧
    Live [unidentified] (afterBuying unidentified) ∧ NeverOversells [unidentified] ∧
      fullySettled unidentified = true ∧
      previewFeeReplay (afterBuying unidentified).positionLots.rows [unidentified] []
        = .error (assetFeeIntegrity "ASSET_FEE_BROKER_ACTIVITY_ID_MISSING") := by
  refine ⟨⟨.start rfl, ?_, rfl⟩, ?_, ?_, by decide +kernel, ?_⟩
  · rintro (_ | ⟨a, past⟩) e rest h - <;> cases h
  · exact live_buying (by decide +kernel) (by decide +kernel) rfl
  · rintro (_ | ⟨a, past⟩) e rest h hside
    · cases h
      cases hside
    · cases past <;> cases h
  · have hraises : (match previewFeeReplay (afterBuying unidentified).positionLots.rows
        [unidentified] [] with
      | .ok _ => false
      | .error e => e == assetFeeIntegrity "ASSET_FEE_BROKER_ACTIVITY_ID_MISSING") = true := by
      decide +kernel
    split at hraises
    · cases hraises
    · rename_i e he
      rw [he, eq_of_beq hraises]

end HistoricalFees

end TradePulse
