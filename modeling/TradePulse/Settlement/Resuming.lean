/-
**The first stage, stopped anywhere and run again.**

The first stage writes the closures of its plan one by one and then opens what is left.  Wherever it
stops, running it again does the rest: the new plan is the rest of the old one, and a row that is
there is not written twice.

Main definitions:

* `lotOutcome` — what the first stage does when nothing disturbs it;
* `SameOutcome` — two outcomes of the first stage, up to the identifier of the lot that it opened;
* `Resumable` — no lot that the fill may close knows it, or nothing of it is left to close;
* `Resumes` — from here, the first stage comes to a given outcome.

Main results:

* `alone_projectLot_advance` — the first closure does not change what the stage comes to;
* `sameOutcome_of_newId` — nor does the identifier that a lot is given;
* `projectLot_resumes` — **stopped anywhere, any number of times, and run again: the outcome of one
  run**.
-/

import TradePulse.Process.Alone
import TradePulse.Settlement.LotRule
import TradePulse.Settlement.Replanning

set_option autoImplicit false

namespace TradePulse

namespace Settlement

open Process Storage Record

/-! ### The first stage, undisturbed -/

/-- What the first stage does. -/
abbrev lotOutcome (i : Outside) (event : SettlementEvent) (s : Store) :
    Except Raised (Option ℚ) × Store :=
  alone exec i (projectLot event) s

/-- Apply planned closures. -/
def closing (event : SettlementEvent) (closures : List LotClosure) : Settle Unit :=
  Prog.forEach closures fun closure => do
    let _ ← perform (.closeLot closure event)
    return ()

/-- Apply the closures of a plan that was made, and open what is left. -/
def carryOut (i : Outside) (event : SettlementEvent) (lots : List PositionLot)
    (plan : SignedLotPlan) (s : Store) : Except Raised (Option ℚ) × Store :=
  andThen (alone exec i (closing event plan.closures) s) fun _ t =>
    andThen (alone exec i (openPosition lots event plan) t) fun _ u =>
      (.ok (some plan.realizedPnl), u)

theorem alone_projectLot {event : SettlementEvent} {s : Store} {plan : SignedLotPlan}
    (hplan : Planned event (visibleLots s event.asset) plan) (i : Outside) :
    lotOutcome i event s = carryOut i event (visibleLots s event.asset) plan s := by
  have hlong : raiseIf ((plan.closures.any fun c => c.lot.positionSide == .short) = true)
      (.integrityViolation "INTEGRITY_VIOLATION: UNSUPPORTED_SHORT_LOT") = .ok () := by
    rw [raiseIf_eq_ok_iff, List.any_eq_true]
    rintro ⟨c, hc, hshort⟩
    rw [hplan.2 c hc] at hshort
    cases hshort
  have hread : alone exec i (unconvertedLots .projectLot event.asset) s
      = (.ok (visibleLots s event.asset), s) := rfl
  unfold lotOutcome projectLot
  simp only [Prog.bind_eq, alone_bind, alone_ofExcept, hread, hplan.1, hlong, andThen_ok]
  rfl

theorem alone_projectLot_error {event : SettlementEvent} {s : Store} {e : Raised}
    (hplan : planSignedLotFill (visibleLots s event.asset) event = .error e) (i : Outside) :
    lotOutcome i event s = (.error e, s) := by
  have hread : alone exec i (unconvertedLots .projectLot event.asset) s
      = (.ok (visibleLots s event.asset), s) := rfl
  unfold lotOutcome projectLot
  simp only [Prog.bind_eq, alone_bind, alone_ofExcept, hread, hplan, andThen_ok, andThen_error]

theorem alone_projectLot_short {event : SettlementEvent} {s : Store} {plan : SignedLotPlan}
    (hplan : planSignedLotFill (visibleLots s event.asset) event = .ok plan)
    (hshort : ∃ c ∈ plan.closures, c.lot.positionSide = .short) (i : Outside) :
    lotOutcome i event s
      = (.error (.integrityViolation "INTEGRITY_VIOLATION: UNSUPPORTED_SHORT_LOT"), s) := by
  have hraise : raiseIf ((plan.closures.any fun c => c.lot.positionSide == .short) = true)
      (.integrityViolation "INTEGRITY_VIOLATION: UNSUPPORTED_SHORT_LOT")
        = .error (.integrityViolation "INTEGRITY_VIOLATION: UNSUPPORTED_SHORT_LOT") := by
    obtain ⟨c, hc, hside⟩ := hshort
    refine if_pos (List.any_eq_true.2 ⟨c, hc, ?_⟩)
    rw [hside]
    rfl
  have hread : alone exec i (unconvertedLots .projectLot event.asset) s
      = (.ok (visibleLots s event.asset), s) := rfl
  unfold lotOutcome projectLot
  simp only [Prog.bind_eq, alone_bind, alone_ofExcept, hread, hplan, hraise, andThen_ok,
    andThen_error]

/-! ### The lots after one closure -/

theorem nodup_lotId (t : Table PositionLot) : (t.rows.map (·.lotId)).Nodup :=
  List.pairwise_map.2 (t.keyed.imp fun h => h.1)

theorem nodup_visibleLots (s : Store) (asset : AssetIdentity) :
    ((visibleLots s asset).map (·.lotId)).Nodup :=
  ((List.filter_sublist.trans List.filter_sublist).map fun l : PositionLot => l.lotId).nodup
    (nodup_lotId s.positionLots)

theorem mem_visibleLots {s : Store} {asset : AssetIdentity} {l : PositionLot} :
    l ∈ visibleLots s asset ↔ l ∈ s.positionLots ∧
      assetIdentityKey l.asset = assetIdentityKey asset ∧ l.lotId ∉ s.convertedLots := by
  simp [visibleLots, Store.mem_lotsByAsset, and_assoc]

section Put

variable {old l : PositionLot}

theorem rows_putLot {t : Table PositionLot} (hold : old ∈ t) (hid : l.lotId = old.lotId)
    (horig : l.originatingFillId = old.originatingFillId) :
    (t.put l).rows = replaceLot l t.rows := by
  have hrows : (t.put l).rows = t.rows.map fun a => if SameKeys a l then l else a := rfl
  rw [hrows, replaceLot]
  refine List.map_congr_left fun x hx => ?_
  by_cases h : x.lotId = l.lotId
  · have hsame : x = old := Table.eq_of_recordId hx hold (h.trans hid)
    rw [if_pos h, if_pos ⟨h, by rw [hsame]; exact congrArg some horig.symm⟩]
  · rw [if_neg h, if_neg fun hk => h hk.1]

/-- Writing a lot anew writes it anew among the lots of its instrument. -/
theorem visibleLots_put {s : Store} {asset : AssetIdentity} (hold : old ∈ s.positionLots)
    (hid : l.lotId = old.lotId) (horig : l.originatingFillId = old.originatingFillId)
    (hasset : l.asset = old.asset) :
    visibleLots { s with positionLots := s.positionLots.put l } asset
      = replaceLot l (visibleLots s asset) := by
  unfold visibleLots Store.lotsByAsset
  rw [rows_putLot hold hid horig, replaceLot, replaceLot, List.filter_filter, List.filter_filter,
    List.filter_map]
  refine congrArg _ (List.filter_congr fun x hx => ?_)
  by_cases h : x.lotId = l.lotId
  · have hsame : x = old := Table.eq_of_recordId hx hold (h.trans hid)
    simp [hsame, hid, hasset]
  · simp [h]

end Put

/-- A planned closure that was applied: the lot it was planned for, closed. -/
theorem closeLot_planned {s s' : Store} {event : SettlementEvent} {plan : SignedLotPlan}
    {c : LotClosure} {i : Outside} {r : Option PositionLot}
    (hplan : planSignedLotFill (visibleLots s event.asset) event = .ok plan)
    (hc : c ∈ plan.closures) (hx : exec (.closeLot c event) i s = .ok (r, s')) :
    ∃ l, closedLot c.lot c event = .ok l ∧ ClosedBy event.fillId c l ∧ l.asset = c.lot.asset ∧
      s' = { s with positionLots := s.positionLots.put l } ∧
      visibleLots s' event.asset = replaceLot l (visibleLots s event.asset) := by
  have hmem := (mem_visibleLots.1 (planSignedLotFill_closure hplan hc).1).1
  have hget : s.positionLots.get? c.lot.lotId = some c.lot :=
    Table.get?_eq_some_iff.2 ⟨hmem, rfl⟩
  rcases closeLot_ok hx with ⟨hnone, -⟩ | ⟨current, l, hcur, hl, -, rfl⟩
  · rw [hget] at hnone
    cases hnone
  · rw [hget, Option.some.injEq] at hcur
    subst hcur
    have hf := PositionLot.make_eq_ok_iff.1 hl
    have hasset : l.asset = c.lot.asset := congrArg (·.asset) hf
    have hclosed : ClosedBy event.fillId c l :=
      { lotId := congrArg (·.lotId) hf
        originatingFillId := congrArg (·.originatingFillId) hf
        positionSide := congrArg (·.positionSide) hf
        openedQuantity := congrArg (·.openedQuantity) hf
        acquisitionPrice := congrArg (·.acquisitionPrice) hf
        remaining := congrArg (·.remainingQuantity) hf
        closures := congrArg (·.closures) hf }
    exact ⟨l, hl, hclosed, hasset, rfl,
      visibleLots_put hmem hclosed.lotId hclosed.originatingFillId hasset⟩

/-- The plan that is left after the first closure was applied. -/
theorem planned_advance {s s' : Store} {event : SettlementEvent} {plan : SignedLotPlan}
    {c : LotClosure} {cs : List LotClosure} {i : Outside} {r : Option PositionLot}
    (hplan : Planned event (visibleLots s event.asset) plan) (hcs : plan.closures = c :: cs)
    (hfresh : event.fillId ∉ c.lot.closures) (hx : exec (.closeLot c event) i s = .ok (r, s')) :
    Planned event (visibleLots s' event.asset) { plan with closures := cs } := by
  obtain ⟨l, -, hclosed, -, -, hvisible⟩ :=
    closeLot_planned hplan.1 (hcs ▸ List.mem_cons_self) hx
  rw [hvisible]
  refine ⟨planSignedLotFill_resume (nodup_visibleLots s event.asset) hplan.1 hcs hfresh hclosed,
    fun d hd => ?_⟩
  exact hplan.2 d (hcs ▸ List.mem_cons_of_mem c hd)

/-- A plan that closes a long lot opens a short position, if any. -/
theorem openingDirection_of_closure {event : SettlementEvent} {lots : List PositionLot}
    {plan : SignedLotPlan} {c : LotClosure} (hplan : Planned event lots plan)
    (hc : c ∈ plan.closures) : plan.openingDirection = .short := by
  obtain ⟨-, -, -, hdir, -⟩ := planSignedLotFill_ok hplan.1
  have hside := (planSignedLotFill_closure hplan.1 hc).2.1
  rw [hplan.2 c hc] at hside
  rw [hdir]
  unfold closingDirection at hside
  unfold openingDirection
  split at hside
  · cases hside
  · rename_i hsell
    exact if_neg hsell

/-- What an oversell opens does not depend on the lots that were read. -/
theorem openPosition_short {event : SettlementEvent} {plan : SignedLotPlan}
    (hdir : plan.openingDirection = .short) (lots lots' : List PositionLot)
    (closures : List LotClosure) :
    openPosition lots event plan = openPosition lots' event { plan with closures := closures } := by
  unfold openPosition
  simp only [hdir, if_true]

/-- **The first closure does not change what the stage comes to.** -/
theorem alone_projectLot_advance {s s' : Store} {event : SettlementEvent} {plan : SignedLotPlan}
    {c : LotClosure} {cs : List LotClosure} {i j : Outside} {r : Option PositionLot}
    (hplan : Planned event (visibleLots s event.asset) plan) (hcs : plan.closures = c :: cs)
    (hfresh : event.fillId ∉ c.lot.closures) (hx : exec (.closeLot c event) i s = .ok (r, s')) :
    lotOutcome j event s' = lotOutcome j event s := by
  have hdir := openingDirection_of_closure hplan (hcs ▸ List.mem_cons_self)
  have hclose : exec (.closeLot c event) j s = .ok (r, s') := hx
  rw [alone_projectLot hplan, alone_projectLot (planned_advance hplan hcs hfresh hx)]
  unfold carryOut closing
  rw [hcs, alone_forEach_cons]
  have hfirst : alone exec j (do let _ ← perform (.closeLot c event); return ()) s
      = (.ok (), s') := by
    rw [Prog.bind_eq, alone_perform_bind _ hclose]
    rfl
  rw [hfirst, andThen_ok, openPosition_short hdir (visibleLots s event.asset) _ cs]

/-! ### Outcomes up to the identifier of the new lot -/

/-- A lot without its identifier, if the event opened it. -/
def nameless (event : SettlementEvent) (l : PositionLot) : PositionLotFields :=
  if l.originatingFillId = event.fillId then { l.toPositionLotFields with lotId := "" }
  else l.toPositionLotFields

/-- Two stores that agree on everything but the identifier of the lot that the event opened. -/
structure SameStore (event : SettlementEvent) (s t : Store) : Prop where
  lots : s.positionLots.rows.map (nameless event) = t.positionLots.rows.map (nameless event)
  others : { s with positionLots := default } = { t with positionLots := default }

/-- The same result, in stores that agree. -/
def SameOutcome (event : SettlementEvent) (x y : Except Raised (Option ℚ) × Store) : Prop :=
  x.1 = y.1 ∧ SameStore event x.2 y.2

theorem SameOutcome.refl (event : SettlementEvent) (x : Except Raised (Option ℚ) × Store) :
    SameOutcome event x x :=
  ⟨rfl, rfl, rfl⟩

/-- No lot that the fill may close knows it, or nothing of it is left to close. -/
def Resumable (event : SettlementEvent) (lots : List PositionLot) : Prop :=
  (∀ l ∈ oppositeLots lots event.side, event.fillId ∉ l.closures) ∨
    alreadyClosed lots event.fillId
      + alreadyOpened lots event.fillId (openingDirection event.side) = event.quantity

/-- What a plan closes knows nothing of the fill. -/
def FreshPlan (event : SettlementEvent) (s : Store) : Prop :=
  ∀ plan, planSignedLotFill (visibleLots s event.asset) event = .ok plan →
    ∀ c ∈ plan.closures, event.fillId ∉ c.lot.closures

theorem freshPlan_of_resumable {event : SettlementEvent} {s : Store}
    (h : Resumable event (visibleLots s event.asset)) : FreshPlan event s := by
  intro plan hplan c hc
  obtain ⟨multiplier, -, -, -, hclosures, -⟩ := planSignedLotFill_ok hplan
  rw [hclosures] at hc
  rcases h with h | h
  · exact h c.lot (planClosures_closure hc).1
  · have hzero : event.quantity - alreadyClosed (visibleLots s event.asset) event.fillId
        - alreadyOpened (visibleLots s event.asset) event.fillId (openingDirection event.side)
          ≤ 0 := by
      rw [← h]
      ring_nf
      exact le_refl 0
    rw [planClosures_of_nonpos _ _ _ hzero] at hc
    cases hc

/-- From here the first stage comes to the given outcome; it closes lots that do not know the fill,
and no identifier that may be drawn is that of a converted lot. -/
structure Resumes (Drawn : String → Prop) (event : SettlementEvent)
    (outcome : Except Raised (Option ℚ) × Store) (s : Store) : Prop where
  outcome : ∀ i, Drawn i.uuid → SameOutcome event (lotOutcome i event s) outcome
  fresh : FreshPlan event s
  unconverted : ∀ id, Drawn id → id ∉ s.convertedLots

section Writes

variable {Drawn : String → Prop} {event : SettlementEvent}
  {outcome : Except Raised (Option ℚ) × Store} {s s' : Store} {plan : SignedLotPlan}

theorem Resumes.of_outcome (h : Resumes Drawn event outcome s) (hfresh : FreshPlan event s')
    (hconverted : s'.convertedLots = s.convertedLots)
    (hsame : ∀ i, Drawn i.uuid → ∃ j, Drawn j.uuid ∧ lotOutcome i event s' = lotOutcome j event s) :
    Resumes Drawn event outcome s' := by
  refine ⟨fun i hi => ?_, hfresh, hconverted ▸ h.unconverted⟩
  obtain ⟨j, hj, heq⟩ := hsame i hi
  rw [heq]
  exact h.outcome j hj

theorem FreshPlan.advance (h : FreshPlan event s)
    (hplan : Planned event (visibleLots s event.asset) plan) {c : LotClosure} {cs : List LotClosure}
    (hcs : plan.closures = c :: cs) {i : Outside} {r : Option PositionLot}
    (hx : exec (.closeLot c event) i s = .ok (r, s')) : FreshPlan event s' := by
  have hfresh : event.fillId ∉ c.lot.closures := h plan hplan.1 c (hcs ▸ List.mem_cons_self)
  intro plan' hplan' d hd
  rw [(planned_advance hplan hcs hfresh hx).1, Except.ok.injEq] at hplan'
  subst hplan'
  exact h plan hplan.1 d (hcs ▸ List.mem_cons_of_mem c hd)

theorem Resumes.close (h : Resumes Drawn event outcome s)
    (hplan : Planned event (visibleLots s event.asset) plan) {c : LotClosure} {cs : List LotClosure}
    (hcs : plan.closures = c :: cs) {i : Outside} {r : Option PositionLot}
    (hx : exec (.closeLot c event) i s = .ok (r, s')) :
    Resumes Drawn event outcome s' ∧
      Planned event (visibleLots s' event.asset) { plan with closures := cs } := by
  have hfresh : event.fillId ∉ c.lot.closures :=
    h.fresh plan hplan.1 c (hcs ▸ List.mem_cons_self)
  obtain ⟨l, -, -, -, rfl, -⟩ := closeLot_planned hplan.1 (hcs ▸ List.mem_cons_self) hx
  exact ⟨h.of_outcome (h.fresh.advance hplan hcs hx) rfl fun j hj =>
    ⟨j, hj, alone_projectLot_advance hplan hcs hfresh hx⟩, planned_advance hplan hcs hfresh hx⟩

/-- Where no closure is left, the stage opens what is left. -/
theorem lotOutcome_of_nil (hplan : Planned event (visibleLots s event.asset) plan)
    (hnil : plan.closures = []) (i : Outside) :
    lotOutcome i event s
      = andThen (alone exec i (openPosition (visibleLots s event.asset) event plan) s) fun _ u =>
          (.ok (some plan.realizedPnl), u) := by
  rw [alone_projectLot hplan, carryOut, hnil]
  rfl

theorem createOnce_createOnce {α : Type} [Record α] (t : Table α) (r : α) :
    (t.createOnce r).createOnce r = t.createOnce r := by
  refine Table.createOnce_of_not_admits fun hadmits => ?_
  by_cases h : t.Admits r
  · have hmem : r ∈ (t.createOnce r).rows := Table.mem_createOnce.2 (.inr ⟨h, rfl⟩)
    exact (hadmits r hmem).1 rfl
  · rw [Table.createOnce_of_not_admits h] at hadmits
    exact h hadmits

/-- The liability of an oversell, once written, is not written again. -/
theorem Resumes.owe (h : Resumes Drawn event outcome s)
    (hplan : Planned event (visibleLots s event.asset) plan) (hnil : plan.closures = [])
    (hopens : 0 < plan.openingQuantity) (hdir : plan.openingDirection = .short)
    {b : ShortExposureLiability} (hb : oversellLiability event plan.openingQuantity = .ok b) :
    Resumes Drawn event outcome
      { s with shortExposureLiabilities := s.shortExposureLiabilities.createOnce b } := by
  have hopen : ∀ (i : Outside) (t : Store),
      alone exec i (openPosition (visibleLots s event.asset) event plan) t
        = (.ok (), { t with shortExposureLiabilities := t.shortExposureLiabilities.createOnce b }) :=
    fun i t => by
      unfold openPosition
      rw [if_pos hopens, if_pos hdir]
      simp only [Prog.bind_eq, alone_bind, alone_ofExcept, hb, andThen_ok]
      rfl
  refine h.of_outcome h.fresh rfl fun i hi => ⟨i, hi, ?_⟩
  rw [lotOutcome_of_nil hplan hnil, hopen, lotOutcome_of_nil (s := { s with
    shortExposureLiabilities := s.shortExposureLiabilities.createOnce b }) hplan hnil]
  refine (congrArg (fun x => andThen x _) (hopen i _)).trans ?_
  simp only [andThen_ok, createOnce_createOnce]

/-- A fill that would open a position beside an adopted lot. -/
def Mixed (lots : List PositionLot) (plan : SignedLotPlan) : Prop :=
  0 < plan.openingQuantity ∧ plan.openingDirection ≠ .short ∧
    (lots.any fun l => l.origin == .adopted && l.status != .closed) = true

/-- What stops the session over such a fill. -/
def mixedLatch (event : SettlementEvent) (s : Store) : Store :=
  s.latchFinancialIntegrityBlock ("MIXED_LOT_ORIGIN: " ++ event.asset.symbol ++ " fill "
    ++ event.fillId) event.occurredAt

/-- The hold over the order of such a fill. -/
def mixedRecord (event : SettlementEvent) : IntegrityHold where
  brokerOrderId := match event.brokerOrderId with
    | some id => if id = "" then event.fillId else id
    | none => event.fillId
  tradeIntentId := event.tradeIntentId
  holdType := .mixedLotOrigin
  reason := "MIXED_LOT_ORIGIN: " ++ event.asset.symbol ++ " fill " ++ event.fillId
  createdAt := event.occurredAt

/-- What holds its order. -/
def mixedHold (event : SettlementEvent) (s : Store) : Store :=
  { s with integrityHolds := s.integrityHolds.createOnce (mixedRecord event) }

theorem closures_nil_of_long (hplan : Planned event (visibleLots s event.asset) plan)
    (hlong : plan.openingDirection ≠ .short) : plan.closures = [] :=
  List.eq_nil_iff_forall_not_mem.2 fun _ hc => hlong (openingDirection_of_closure hplan hc)

theorem lotOutcome_of_mixed (hplan : Planned event (visibleLots s event.asset) plan)
    (hmixed : Mixed (visibleLots s event.asset) plan) (i : Outside) :
    lotOutcome i event s
      = (.error (.integrityViolation "INTEGRITY_VIOLATION: MIXED_LOT_ORIGIN"),
          mixedHold event (mixedLatch event s)) := by
  obtain ⟨hopens, hlong, hadopted⟩ := hmixed
  rw [lotOutcome_of_nil hplan (closures_nil_of_long hplan hlong)]
  unfold openPosition
  rw [if_pos hopens, if_neg hlong, if_pos hadopted]
  unfold mixedLotOrigin
  rfl

/-- The session stopped over a fill beside an adopted lot stays stopped. -/
theorem Resumes.latch (h : Resumes Drawn event outcome s)
    (hplan : Planned event (visibleLots s event.asset) plan)
    (hmixed : Mixed (visibleLots s event.asset) plan) :
    Resumes Drawn event outcome (mixedLatch event s) ∧
      visibleLots (mixedLatch event s) event.asset = visibleLots s event.asset := by
  have hidem : mixedLatch event (mixedLatch event s) = mixedLatch event s := by
    unfold mixedLatch Store.latchFinancialIntegrityBlock
    by_cases hb : s.session.state = .financialIntegrityBlocked
    · rw [if_pos hb, if_pos hb]
    · rw [if_neg hb, if_pos rfl]
  have hsame : visibleLots (mixedLatch event s) event.asset = visibleLots s event.asset ∧
      (mixedLatch event s).convertedLots = s.convertedLots := by
    unfold mixedLatch Store.latchFinancialIntegrityBlock
    split <;> exact ⟨rfl, rfl⟩
  have hfresh : FreshPlan event (mixedLatch event s) := by
    unfold FreshPlan
    rw [hsame.1]
    exact h.fresh
  refine ⟨h.of_outcome hfresh hsame.2 fun i hi => ⟨i, hi, ?_⟩, hsame.1⟩
  have hplan' : Planned event (visibleLots (mixedLatch event s) event.asset) plan := by
    rwa [hsame.1]
  have hmixed' : Mixed (visibleLots (mixedLatch event s) event.asset) plan := by
    rwa [hsame.1]
  rw [lotOutcome_of_mixed hplan hmixed, lotOutcome_of_mixed hplan' hmixed', hidem]

/-- The order held over such a fill is not held twice. -/
theorem Resumes.hold (h : Resumes Drawn event outcome s)
    (hplan : Planned event (visibleLots s event.asset) plan)
    (hmixed : Mixed (visibleLots s event.asset) plan) :
    Resumes Drawn event outcome (mixedHold event s) := by
  have hcomm : mixedLatch event (mixedHold event s) = mixedHold event (mixedLatch event s) := by
    unfold mixedLatch Store.latchFinancialIntegrityBlock mixedHold
    split <;> rfl
  refine h.of_outcome h.fresh rfl fun i hi => ⟨i, hi, ?_⟩
  rw [lotOutcome_of_mixed hplan hmixed, lotOutcome_of_mixed (s := mixedHold event s) hplan hmixed,
    hcomm]
  unfold mixedHold
  simp only [createOnce_createOnce]

/-- A fill that opens a lot, when it is given an identifier. -/
theorem lotOutcome_of_open (hplan : Planned event (visibleLots s event.asset) plan)
    (hopens : 0 < plan.openingQuantity) (hlong : plan.openingDirection ≠ .short)
    (hadopted : ¬ Mixed (visibleLots s event.asset) plan) (i : Outside) :
    lotOutcome i event s
      = andThen (andThen (openedLot event i.uuid plan.openingDirection plan.openingQuantity, s)
          fun l t => once exec (.createLot l event.brokerOrderId) i t) fun _ u =>
            (.ok (some plan.realizedPnl), u) := by
  have hadopted : ¬ ((visibleLots s event.asset).any fun l =>
      l.origin == .adopted && l.status != .closed) = true := fun h =>
    hadopted ⟨hopens, hlong, h⟩
  rw [lotOutcome_of_nil hplan (closures_nil_of_long hplan hlong)]
  unfold openPosition
  rw [if_pos hopens, if_neg hlong, if_neg hadopted]
  have huuid : exec .uuid4 i s = .ok (i.uuid, s) := rfl
  simp only [Prog.bind_eq]
  rw [alone_perform_bind _ huuid, alone_bind, alone_ofExcept]
  cases openedLot event i.uuid plan.openingDirection plan.openingQuantity with
  | error e => rfl
  | ok l =>
      simp only [andThen_ok, alone_bind, alone_perform]
      cases once exec (.createLot l event.brokerOrderId) i s with
      | mk x t => cases x <;> rfl

/-- A store in which a lot was opened. -/
def withLot (s : Store) (l : PositionLot) : Store :=
  { s with positionLots := s.positionLots.createOnce l }

theorem visibleLots_withLot {l : PositionLot} (hadmits : s.positionLots.Admits l)
    (hasset : l.asset = event.asset) (hconverted : l.lotId ∉ s.convertedLots) :
    visibleLots (withLot s l) event.asset = visibleLots s event.asset ++ [l] := by
  unfold visibleLots Store.lotsByAsset withLot
  rw [Table.rows_createOnce hadmits, List.filter_append, List.filter_append]
  simp [hasset, hconverted]

/-- A fill that opened its lot has nothing left to do. -/
theorem Resumes.open (h : Resumes Drawn event outcome s)
    (hplan : Planned event (visibleLots s event.asset) plan) (hopens : 0 < plan.openingQuantity)
    (hlong : plan.openingDirection ≠ .short) (hadopted : ¬ Mixed (visibleLots s event.asset) plan)
    {lotId : String} {l : PositionLot} (hdrawn : Drawn lotId)
    (hl : openedLot event lotId plan.openingDirection plan.openingQuantity = .ok l) {i : Outside}
    {r : Bool} (hx : exec (.createLot l event.brokerOrderId) i s = .ok (r, s')) :
    Resumes Drawn event outcome s' := by
  have hs' : s' = withLot s l := by
    obtain ⟨-, -, hs'⟩ := except_bind_eq_ok.1 hx
    cases hs'
    rfl
  subst hs'
  by_cases hadmits : s.positionLots.Admits l
  · have hfields := PositionLot.make_eq_ok_iff.1 hl
    have hid : l.lotId = lotId := congrArg (·.lotId) hfields
    have hnil : plan.closures = [] := closures_nil_of_long hplan hlong
    have hdone := planSignedLotFill_opened hplan.1 hnil (congrArg (·.originatingFillId) hfields)
      (congrArg (·.positionSide) hfields) (congrArg (·.openedQuantity) hfields)
      (congrArg (·.closures) hfields)
    rw [← visibleLots_withLot hadmits (congrArg (·.asset) hfields)
      (hid ▸ h.unconverted lotId hdrawn)] at hdone
    have hplanned : Planned event (visibleLots (withLot s l) event.asset)
        { plan with openingQuantity := 0 } := by
      refine ⟨hdone, fun c hc => ?_⟩
      rw [show c ∈ plan.closures ↔ c ∈ [] by rw [hnil]] at hc
      cases hc
    refine h.of_outcome (fun plan' hplan' c hc => ?_) rfl fun j hj => ⟨{ uuid := lotId }, hdrawn, ?_⟩
    · rw [hdone, Except.ok.injEq] at hplan'
      subst hplan'
      rw [show c ∈ plan.closures ↔ c ∈ [] by rw [hnil]] at hc
      cases hc
    · -- the run that draws the identifier of this lot creates it
      have hx' : exec (.createLot l event.brokerOrderId) { uuid := lotId } s
          = .ok (r, withLot s l) := hx
      rw [lotOutcome_of_nil hplanned hnil, lotOutcome_of_open hplan hopens hlong hadopted]
      dsimp only
      rw [hl, andThen_ok, once, hx']
      rfl
  · have hsame : withLot s l = s := by
      rw [withLot, Table.createOnce_of_not_admits hadmits]
    rw [hsame]
    exact h

end Writes

/-! ### The identifier that is drawn -/

/-- An identifier that `uuid4` may draw: of no lot that was there, and not that of an adoption. -/
structure NewId (s : Store) (id : String) : Prop where
  required : id ≠ ""
  notAdopted : id.startsWith adoptedLotPrefix = false
  unused : ∀ l ∈ s.positionLots, l.lotId ≠ id
  unconverted : id ∉ s.convertedLots

section Drawn

variable {event : SettlementEvent} {s : Store} {i j : Outside}

instance (id : String) : Decidable (NewId s id) :=
  decidable_of_iff (id ≠ "" ∧ id.startsWith adoptedLotPrefix = false ∧
      (∀ l ∈ s.positionLots.rows, l.lotId ≠ id) ∧ id ∉ s.convertedLots)
    ⟨fun h => ⟨h.1, h.2.1, h.2.2.1, h.2.2.2⟩,
      fun h => ⟨h.required, h.notAdopted, h.unused, h.unconverted⟩⟩

/-- Lots opened under two identifiers pass the same checks. -/
theorem openedLot_of_newId {a b : String} (ha : NewId s a) (hb : NewId s b) (side : PositionSide)
    (quantity : ℚ) :
    (∃ e, openedLot event a side quantity = .error e ∧ openedLot event b side quantity = .error e) ∨
      ∃ l m, openedLot event a side quantity = .ok l ∧ openedLot event b side quantity = .ok m ∧
        l.lotId = a ∧ m.lotId = b ∧ l.originatingFillId = event.fillId ∧
        m.toPositionLotFields = { l.toPositionLotFields with lotId := b } := by
  set fields : String → PositionLotFields := fun id =>
    { lotId := id
      originatingFillId := event.fillId
      asset := event.asset
      positionSide := side
      openedQuantity := quantity
      remainingQuantity := quantity
      acquisitionPrice := event.price
      openedAt := event.occurredAt
      mfePrice := some event.price
      maePrice := some event.price } with hdef
  have hmake : ∀ id, openedLot event id side quantity = PositionLot.make (fields id) := fun _ => rfl
  have hchecks : Checked.checks (fields a) = Checked.checks (fields b) := by
    simp [Checked.checks, hdef, textCheck, bne_iff_ne.2 ha.required, bne_iff_ne.2 hb.required,
      ha.notAdopted, hb.notAdopted]
  rw [hmake, hmake]
  by_cases hvalid : Valid (fields a)
  · have hvalid' : Valid (fields b) := fun c hc => hvalid c (hchecks ▸ hc)
    exact .inr ⟨⟨fields a, hvalid⟩, ⟨fields b, hvalid'⟩, dif_pos hvalid, dif_pos hvalid', rfl, rfl, rfl,
      rfl⟩
  · have hvalid' : ¬ Valid (fields b) := fun h => hvalid fun c hc => h c (hchecks ▸ hc)
    refine .inl ⟨Checked.failure (fields a), dif_neg hvalid, ?_⟩
    rw [PositionLot.make, dif_neg hvalid', Checked.failure, Checked.failure, firstFailure,
      firstFailure, hchecks]

theorem admits_of_newId {l m : PositionLot} (hl : NewId s l.lotId) (hm : NewId s m.lotId)
    (horig : m.originatingFillId = l.originatingFillId) :
    s.positionLots.Admits l ↔ s.positionLots.Admits m := by
  have hiff : ∀ a ∈ s.positionLots, Apart a l ↔ Apart a m := fun a ha => by
    have hal : recordId a ≠ recordId l := hl.unused a ha
    have ham : recordId a ≠ recordId m := hm.unused a ha
    have hunique : uniqueValue l = uniqueValue m := congrArg some horig.symm
    simp [Apart, hal, ham, hunique]
  exact forall₂_congr hiff

theorem sameStore_withLot {l m : PositionLot} (hl : NewId s l.lotId) (hm : NewId s m.lotId)
    (horig : l.originatingFillId = event.fillId)
    (hfields : m.toPositionLotFields = { l.toPositionLotFields with lotId := m.lotId }) :
    SameStore event (withLot s l) (withLot s m) := by
  have horig' : m.originatingFillId = l.originatingFillId := by
    rw [hfields]
  refine ⟨?_, rfl⟩
  by_cases hadmits : s.positionLots.Admits l
  · have hadmits' := (admits_of_newId hl hm horig').1 hadmits
    have hname : nameless event l = nameless event m := by
      rw [nameless, nameless, if_pos horig, if_pos (horig'.trans horig), hfields]
    simp [withLot, Table.rows_createOnce hadmits, Table.rows_createOnce hadmits', hname]
  · have hadmits' := mt (admits_of_newId hl hm horig').2 hadmits
    rw [withLot, withLot, Table.createOnce_of_not_admits hadmits,
      Table.createOnce_of_not_admits hadmits']

/-- Where no closure is left, the identifier that is drawn changes nothing else. -/
theorem sameOutcome_of_nil {plan : SignedLotPlan}
    (hplan : Planned event (visibleLots s event.asset) plan) (hnil : plan.closures = [])
    (hi : NewId s i.uuid) (hj : NewId s j.uuid) :
    SameOutcome event (lotOutcome i event s) (lotOutcome j event s) := by
  by_cases hopens : 0 < plan.openingQuantity
  · by_cases hshort : plan.openingDirection = .short
    · have hall : ∀ k : Outside, lotOutcome k event s = lotOutcome i event s := fun k => by
        rw [lotOutcome_of_nil hplan hnil, lotOutcome_of_nil hplan hnil]
        unfold openPosition
        rw [if_pos hopens, if_pos hshort]
        simp only [Prog.bind_eq, alone_bind, alone_ofExcept]
        rfl
      rw [hall j]
      exact .refl _ _
    · by_cases hmixed : Mixed (visibleLots s event.asset) plan
      · rw [lotOutcome_of_mixed hplan hmixed, lotOutcome_of_mixed hplan hmixed]
        exact .refl _ _
      · rw [lotOutcome_of_open hplan hopens hshort hmixed,
          lotOutcome_of_open hplan hopens hshort hmixed]
        rcases openedLot_of_newId hi hj plan.openingDirection plan.openingQuantity with
          ⟨e, he, he'⟩ | ⟨l, m, hl, hm, hlid, hmid, horig, hfields⟩
        · rw [he, he']
          exact .refl _ _
        · rw [hl, hm]
          have hstore := sameStore_withLot (hlid ▸ hi) (hmid ▸ hj) horig (hmid ▸ hfields)
          cases hheld : checkIntegrityHold s event.brokerOrderId with
          | error e =>
              have hfail : ∀ (k : Outside) (x : PositionLot),
                  once exec (.createLot x event.brokerOrderId) k s = (.error e, s) := fun k x => by
                simp only [once, exec, hheld]
                rfl
              simp only [andThen_ok, hfail, andThen_error]
              exact .refl _ _
          | ok u =>
              have hdone : ∀ (k : Outside) (x : PositionLot),
                  once exec (.createLot x event.brokerOrderId) k s
                    = (.ok (decide (s.positionLots.Admits x)), withLot s x) := fun k x => by
                simp only [once, exec, hheld]
                rfl
              simp only [andThen_ok, hdone]
              exact ⟨rfl, hstore⟩
  · have hall : ∀ k : Outside, lotOutcome k event s = (.ok (some plan.realizedPnl), s) := fun k => by
      rw [lotOutcome_of_nil hplan hnil]
      unfold openPosition
      rw [if_neg hopens]
      rfl
    rw [hall, hall]
    exact .refl _ _

theorem NewId.close {s' : Store} {id : String} {plan : SignedLotPlan} {c : LotClosure}
    {r : Option PositionLot} (h : NewId s id)
    (hplan : Planned event (visibleLots s event.asset) plan) (hc : c ∈ plan.closures)
    (hx : exec (.closeLot c event) i s = .ok (r, s')) : NewId s' id := by
  obtain ⟨l, -, hclosed, -, rfl, -⟩ := closeLot_planned hplan.1 hc hx
  have hmem := (mem_visibleLots.1 (planSignedLotFill_closure hplan.1 hc).1).1
  refine ⟨h.required, h.notAdopted, fun x hx => ?_, h.unconverted⟩
  rcases Table.mem_put_imp hx with rfl | hx
  · rw [hclosed.lotId]
    exact h.unused _ hmem
  · exact h.unused x hx

/-- **The identifier that is drawn changes nothing else.** -/
theorem sameOutcome_of_newId (hfresh : FreshPlan event s) (hi : NewId s i.uuid)
    (hj : NewId s j.uuid) : SameOutcome event (lotOutcome i event s) (lotOutcome j event s) := by
  cases hplan : planSignedLotFill (visibleLots s event.asset) event with
  | error e =>
      rw [alone_projectLot_error hplan, alone_projectLot_error hplan]
      exact .refl _ _
  | ok plan =>
      by_cases hshort : ∃ c ∈ plan.closures, c.lot.positionSide = .short
      · rw [alone_projectLot_short hplan hshort, alone_projectLot_short hplan hshort]
        exact .refl _ _
      · have hplanned : Planned event (visibleLots s event.asset) plan := by
          refine ⟨hplan, fun c hc => ?_⟩
          cases hside : c.lot.positionSide with
          | long => rfl
          | short => exact absurd ⟨c, hc, hside⟩ hshort
        clear hplan hshort
        generalize hcs : plan.closures = cs
        induction cs generalizing s plan with
        | nil => exact sameOutcome_of_nil hplanned hcs hi hj
        | cons c cs ih =>
            have hmem : c ∈ plan.closures := hcs ▸ List.mem_cons_self
            -- the first closure is the same for both
            cases hx : exec (.closeLot c event) i s with
            | error e =>
                have hfail : ∀ k : Outside, lotOutcome k event s = (.error e, s) := fun k => by
                  have hx' : exec (.closeLot c event) k s = .error e := hx
                  rw [alone_projectLot hplanned, carryOut, closing, hcs, alone_forEach_cons,
                    Prog.bind_eq, alone_bind, alone_perform, once, hx']
                  rfl
                rw [hfail, hfail]
                exact .refl _ _
            | ok r =>
                obtain ⟨r, s'⟩ := r
                have hnew := hfresh plan hplanned.1 c hmem
                rw [← alone_projectLot_advance hplanned hcs hnew hx,
                  ← alone_projectLot_advance hplanned hcs hnew hx]
                exact ih (hfresh.advance hplanned hcs hx) (hi.close hplanned hmem hx)
                  (hj.close hplanned hmem hx) _ (planned_advance hplanned hcs hnew hx) rfl

end Drawn

/-! ### Attempts -/

/-- The identifiers that a run may be given. -/
def drawing (s : Store) (o : Op) (i : Outside) : Prop :=
  match o with
  | .uuid4 => NewId s i.uuid
  | _ => True

instance (s : Store) (o : Op) (i : Outside) : Decidable (drawing s o i) := by
  unfold drawing
  split <;> infer_instance

section Attempts

variable {event : SettlementEvent} {outcome : Except Raised (Option ℚ) × Store} {base : Store}

/-- The setting of the attempts at the first stage. -/
abbrev resuming (event : SettlementEvent) (outcome : Except Raised (Option ℚ) × Store)
    (base : Store) : Setting Store Outside Raised Op.Res :=
  undisturbed exec (drawing base) (Resumes (NewId base) event outcome)

/-- What is known while the closures of a plan are applied: what is left of the plan is the plan of
the fill, and the lots that a purchase was planned against are still those. -/
def Underplan (event : SettlementEvent) (lots : List PositionLot) (plan : SignedLotPlan)
    (closures : List LotClosure) (s : Store) : Prop :=
  Planned event (visibleLots s event.asset) { plan with closures := closures } ∧
    (plan.openingDirection ≠ .short → lots = visibleLots s event.asset)

theorem sat_visibleLots :
    Sat (resuming event outcome base) (unconvertedLots .projectLot event.asset) (fun _ => True)
      (fun lots s => lots = visibleLots s event.asset) fun _ _ => True := by
  refine Sat.bind_of (Q := fun lots s => lots = s.lotsByAsset event.asset)
    (Sat.perform (fun _ => stable_undisturbed _) (stable_undisturbed _) (fun _ _ _ _ => trivial)
      fun i s r s' hs _ _ hx => ?_) fun lots => ?_
  · cases hx
    exact ⟨hs, trivial, rfl⟩
  · refine Sat.bind_of (Q := fun converted s => lots = s.lotsByAsset event.asset ∧
      converted = s.convertedLots)
      (Sat.perform (fun _ => stable_undisturbed _) (stable_undisturbed _) (fun _ _ _ _ => trivial)
        fun i s r s' hs hk _ hx => ?_) fun converted => ?_
    · cases hx
      exact ⟨hs, trivial, hk, rfl⟩
    · rintro s - ⟨rfl, rfl⟩
      rfl

theorem sat_closing (lots : List PositionLot) (plan : SignedLotPlan) :
    Sat (resuming event outcome base) (closing event plan.closures)
      (Underplan event lots plan plan.closures) (fun _ => Underplan event lots plan [])
      fun _ _ => True := by
  refine Sat.forEach (fun c cs => ?_) plan.closures
  refine Sat.bind_of (Q := fun _ => Underplan event lots plan cs)
    (Sat.perform (fun _ => stable_undisturbed _) (stable_undisturbed _) (fun _ _ _ _ => trivial)
      fun i s r s' hs hk _ hx => ?_) fun _ _ _ hk => hk
  obtain ⟨hresumes, hrest⟩ := hs.close hk.1 rfl (i := i) hx
  have hshort := openingDirection_of_closure hk.1 List.mem_cons_self
  exact ⟨hresumes, trivial, hrest, fun hlong => absurd hshort hlong⟩

theorem sat_opening (lots : List PositionLot) (plan : SignedLotPlan) :
    Sat (resuming event outcome base) (openPosition lots event plan)
      (Underplan event lots plan []) (fun _ _ => True) fun _ _ => True := by
  unfold openPosition
  split
  · rename_i hopens
    split
    · rename_i hshort
      refine Sat.bind_of (Q := fun b s => oversellLiability event plan.openingQuantity = .ok b ∧
        Underplan event lots plan [] s) (Sat.ofExcept (fun b hb s _ hk => ⟨hb, hk⟩)
          fun _ _ _ _ _ => trivial) fun b => ?_
      refine Sat.bind_of (Q := fun _ _ => True)
        (Sat.perform (fun _ => stable_undisturbed _) (stable_undisturbed _) (fun _ _ _ _ => trivial)
          fun i s r s' hs hk _ hx => ?_) fun _ _ _ _ => trivial
      cases hx
      exact ⟨hs.owe hk.2.1 rfl hopens hshort hk.1, trivial, trivial⟩
    · rename_i hlong
      split
      · -- beside an adopted lot: the session is stopped and the order held
        rename_i hadopted
        have hmixed : ∀ s, Underplan event lots plan [] s →
            Mixed (visibleLots s event.asset) { plan with closures := [] } := fun s hk =>
          ⟨hopens, hlong, hk.2 hlong ▸ hadopted⟩
        refine Sat.bind_of (Q := fun _ => Underplan event lots plan [])
          (Sat.perform (fun _ => stable_undisturbed _) (stable_undisturbed _)
            (fun _ _ _ _ => trivial) fun i s r s' hs hk _ hx => ?_) fun _ => ?_
        · cases hx
          obtain ⟨hresumes, hsame⟩ := hs.latch hk.1 (hmixed s hk)
          have hclosing : Underplan event lots plan [] (mixedLatch event s) := by
            unfold Underplan
            rw [hsame]
            exact hk
          exact ⟨hresumes, trivial, hclosing⟩
        · refine Sat.bind_of (Q := fun _ _ => True)
            (Sat.perform (fun _ => stable_undisturbed _) (stable_undisturbed _)
              (fun _ _ _ _ => trivial) fun i s r s' hs hk _ hx => ?_) fun _ _ _ _ => trivial
          cases hx
          exact ⟨hs.hold hk.1 (hmixed s hk), trivial, trivial⟩
      · rename_i hadopted
        refine Sat.bind_of (Q := fun lotId s => NewId base lotId ∧ Underplan event lots plan [] s)
          (Sat.perform (fun _ => stable_undisturbed _) (stable_undisturbed _)
            (fun _ _ _ _ => trivial) fun i s r s' hs hk hdrawn hx => ?_) fun lotId => ?_
        · cases hx
          exact ⟨hs, trivial, hdrawn, hk⟩
        · refine Sat.bind_of (Q := fun l s =>
            openedLot event lotId plan.openingDirection plan.openingQuantity = .ok l ∧
              NewId base lotId ∧ Underplan event lots plan [] s)
            (Sat.ofExcept (fun l hl s _ hk => ⟨hl, hk⟩) fun _ _ _ _ _ => trivial) fun l => ?_
          refine Sat.bind_of (Q := fun _ _ => True)
            (Sat.perform (fun _ => stable_undisturbed _) (stable_undisturbed _)
              (fun _ _ _ _ => trivial) fun i s r s' hs hk _ hx => ?_) fun _ _ _ _ => trivial
          obtain ⟨hl, hdrawn, hclosing⟩ := hk
          have hmixed : ¬ Mixed (visibleLots s event.asset) { plan with closures := [] } :=
            fun hmixed => hadopted (hclosing.2 hlong ▸ hmixed.2.2)
          exact ⟨hs.open hclosing.1 hopens hlong hmixed hdrawn hl (i := i) hx, trivial, trivial⟩
  · exact fun _ _ _ => trivial

theorem sat_resuming :
    Sat (resuming event outcome base) (projectLot event) (fun _ => True) (fun _ _ => True)
      fun _ _ => True := by
  refine Sat.bind_of sat_visibleLots fun lots => ?_
  refine Sat.bind_of (Q := fun plan s => planSignedLotFill lots event = .ok plan ∧
    lots = visibleLots s event.asset) (Sat.ofExcept (fun plan hplan s _ hk => ⟨hplan, hk⟩)
      fun _ _ _ _ _ => trivial) fun plan => ?_
  refine Sat.bind_of (Q := fun _ => Underplan event lots plan plan.closures)
    (Sat.ofExcept (fun _ hlong s _ hk => ?_) fun _ _ _ _ _ => trivial) fun _ => ?_
  · obtain ⟨hplan, rfl⟩ := hk
    refine ⟨⟨hplan, fun c hc => ?_⟩, fun _ => rfl⟩
    rw [raiseIf_eq_ok_iff] at hlong
    cases hside : c.lot.positionSide with
    | long => rfl
    | short =>
        refine absurd (List.any_eq_true.2 ⟨c, hc, ?_⟩) hlong
        rw [hside]
        rfl
  · refine Sat.bind_of (sat_closing lots plan) fun _ => ?_
    exact Sat.bind_of (sat_opening lots plan) fun _ _ _ _ => trivial

/-- **Stopped anywhere, any number of times, and run again: the outcome of one run.** -/
theorem projectLot_resumes {s t : Store} {i j : Outside}
    (hresumable : Resumable event (visibleLots s event.asset))
    (h : Attempted exec (drawing s) (projectLot event) s t) (hi : NewId s i.uuid)
    (hj : NewId s j.uuid) :
    SameOutcome event (lotOutcome i event t) (lotOutcome j event s) := by
  have hfresh := freshPlan_of_resumable hresumable
  have hresumes : Resumes (NewId s) event (lotOutcome j event s) s :=
    ⟨fun k hk => sameOutcome_of_newId hfresh hk hj, hfresh, fun _ hid => hid.unconverted⟩
  exact (inv_of_attempted h (fun _ _ => trivial) sat_resuming hresumes).outcome i hi

end Attempts

/-! ### Examples -/

/-- The pair of the examples. -/
def coin : AssetIdentity :=
  { symbol := "BTC/USD", assetClass := .crypto, nativeAssetId := "alpaca:BTC/USD" }

/-- The sale of the examples. -/
def saleOfEight : SettlementEvent :=
  ⟨{ settlementEventId := "sale"
     fillId := "sale"
     tradeIntentId := "intent"
     asset := coin
     side := .sell
     executionMode := .live
     quantity := 8
     price := 100
     occurredAt := 3 }, by decide +kernel⟩

/-- A lot of the examples, with what is left of it and what was closed of it. -/
def lotOf (lotId : String) (opened remaining : ℚ) (openedAt : Instant) (closures : Dict ℚ) :
    PositionLotFields :=
  { lotId := lotId
    originatingFillId := "buy " ++ lotId
    asset := coin
    positionSide := .long
    openedQuantity := opened
    remainingQuantity := remaining
    acquisitionPrice := 50
    openedAt := openedAt
    closures := closures }

def newer : PositionLot := ⟨lotOf "newer" 10 10 2 ∅, by decide +kernel⟩

/-- Two lots that the sale does not know. -/
def untouched : Store where
  positionLots := ⟨[⟨lotOf "older" 3 3 1 ∅, by decide +kernel⟩, newer], by decide +kernel⟩

/-- Two lots, the older of them closed in part by the sale, and still open. -/
def halfClosed : Store where
  positionLots := ⟨[⟨lotOf "older" 5 3 1 (AList.singleton "sale" (2 : ℚ)), by decide +kernel⟩,
    newer], by decide +kernel⟩

/-- What is there when the processor stops after the first closure. -/
def stopped (s : Store) : Store :=
  played exec (drawing s) (projectLot saleOfEight) s [.ok {}, .ok {}, .ok {}]

theorem attempted_stopped {s : Store} (h : (play exec (drawing s) (projectLot saleOfEight) s
    [.ok {}, .ok {}, .ok {}]).isSome) :
    Attempted exec (drawing s) (projectLot saleOfEight) s (stopped s) := by
  obtain ⟨log, x, hran⟩ := runs_played h
  exact .single ⟨log, x, hran⟩

theorem projectLot_resumes_untouched :
    SameOutcome saleOfEight (lotOutcome { uuid := "a" } saleOfEight (stopped untouched))
      (lotOutcome { uuid := "b" } saleOfEight untouched) :=
  projectLot_resumes (.inl (by decide +kernel)) (attempted_stopped (by decide +kernel))
    (by decide +kernel) (by decide +kernel)

/-- A lot that the sale knows and that is still open is passed over when the stage resumes. -/
theorem projectLot_resumes_elsewhere :
    ¬ ∀ (event : SettlementEvent) (s t : Store) (i j : Outside),
      Attempted exec (drawing s) (projectLot event) s t → NewId s i.uuid → NewId s j.uuid →
        SameOutcome event (lotOutcome i event t) (lotOutcome j event s) := by
  intro h
  have hsame := h saleOfEight halfClosed (stopped halfClosed) { uuid := "a" } { uuid := "a" }
    (attempted_stopped (by decide +kernel)) (by decide +kernel) (by decide +kernel)
  have hlots := congrArg (List.map fun l : PositionLotFields => l.remainingQuantity) hsame.2.lots
  revert hlots
  decide +kernel

end Settlement

end TradePulse
