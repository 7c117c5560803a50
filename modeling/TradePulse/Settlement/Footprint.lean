/-
**What the settlement processor writes, and where.**

Every transaction writes at most one part of the store, and every stage but the first writes
nothing of the ledger of lots.  Both facts are stated once here: as a footprint of each
transaction with its frame lemma, and as the footprints of the stages.

Main definitions:

* `Op.writes` — the part of the store that a transaction writes.

Main results:

* `exec_frame` — a transaction leaves every other part as it was;
* `uses_projectAttribution`, `uses_projectHolding`, … — the footprints of the stages;
* `uses_processPending` — what a pass uses, given what its stages use;
* `holdingsAfter` — how a transaction changes holdings.
-/

import TradePulse.Settlement.Engine

set_option autoImplicit false

namespace TradePulse

namespace Settlement

open Process Storage

/-- The part of the store that a transaction writes, if it writes. -/
def Op.writes : Op → Option Part
  | .claimIfProcessable _ _ _ _ => some .settlements
  | .closeLot _ _ => some .positionLots
  | .createLiability _ => some .liabilities
  | .createLot _ _ => some .positionLots
  | .latchFinancialIntegrityBlock _ _ => some .session
  | .createHold _ => some .integrityHolds
  | .createAttribution _ => some .tradeAttributions
  | .projectAccounting _ _ _ => some .accounting
  | .deleteHolding _ _ => some .holdings
  | .mutateHolding _ _ _ => some .holdings
  | .createHolding _ _ _ => some .holdings
  | .updateTradeIntent _ _ => some .tradeIntents
  | .createAuditEvent _ => some .auditEvents
  | .checkpoint _ => some .settlements
  | _ => none

/-! ### What each writing transaction did -/

theorem closeLot_ok {s s' : Store} {closure : LotClosure} {event : SettlementEvent}
    {r : Option PositionLot} (h : closeLot s closure event = .ok (r, s')) :
    (s.positionLots.get? closure.lot.lotId = none ∧ r = none ∧ s' = s) ∨
      ∃ current lot, s.positionLots.get? closure.lot.lotId = some current ∧
      closedLot current closure event = .ok lot ∧ r = some lot ∧
      s' = { s with positionLots := s.positionLots.put lot } := by
  unfold closeLot at h
  obtain ⟨-, -, h⟩ := except_bind_eq_ok.1 h
  cases hget : s.positionLots.get? closure.lot.lotId with
  | none =>
      rw [hget] at h
      cases h
      exact .inl ⟨rfl, rfl, rfl⟩
  | some current =>
      rw [hget] at h
      obtain ⟨lot, hlot, h⟩ := except_bind_eq_ok.1 h
      cases h
      exact .inr ⟨current, lot, rfl, hlot, rfl, rfl⟩

theorem claimIfProcessable_ok {s s' : Store} {id : String} {now : Instant} {stale : ℕ}
    {force : Bool} {r : Option SettlementEvent}
    (h : claimIfProcessable s id now stale force = .ok (r, s')) :
    (r = none ∧ s' = s) ∨ ∃ current claimed, s.settlements.get? id = some current ∧
      isSettlementProcessable current now stale force = true ∧
      claimed.toSettlementEventFields =
        { current.toSettlementEventFields with
          status := .processing
          processingOwner := some "settle"
          processingStartedAt := some now } ∧
      r = some claimed ∧ s' = { s with settlements := s.settlements.put claimed } := by
  unfold claimIfProcessable at h
  split at h
  · cases h
    exact .inl ⟨rfl, rfl⟩
  · rename_i current hget
    split at h
    · rename_i hdue
      obtain ⟨claimed, hmake, h⟩ := except_bind_eq_ok.1 h
      cases h
      exact .inr ⟨current, claimed, hget, hdue, SettlementEvent.make_eq_ok_iff.1 hmake, rfl, rfl⟩
    · cases h
      exact .inl ⟨rfl, rfl⟩

theorem checkpoint_ok {s s' : Store} {event : SettlementEvent} {r : Unit}
    (h : checkpoint s event = .ok (r, s')) :
    (event.status = .completed → allFlags event = true) ∧
      project s event event.cashProjected event.tradeProjected false = .ok s ∧
      s' = { s with settlements := s.settlements.put event } := by
  unfold checkpoint at h
  obtain ⟨_, hflags, h⟩ := except_bind_eq_ok.1 h
  obtain ⟨t, ht, h⟩ := except_bind_eq_ok.1 h
  have hts : t = s := project_readOnly ht
  rw [hts] at ht h
  rw [raiseIf_eq_ok_iff] at hflags
  cases h
  refine ⟨fun hc => ?_, ht, rfl⟩
  by_contra hf
  exact hflags ⟨hc, by simpa using hf⟩

theorem mutateHolding_ok {s s' : Store} {holding : Holding} {guardKey : Option String}
    {r : Option Holding} (h : mutateHolding s holding guardKey = .ok (r, s')) :
    (s.holdings.get? (holdingRecordId holding.asset) = none ∧ r = none ∧ s' = s) ∨
      ∃ current h', s.holdings.get? (holdingRecordId holding.asset) = some current ∧
      h'.toHoldingFields = { holding.toHoldingFields with
        currentStop := current.currentStop
        scaledOut := current.scaledOut } ∧
      r = some h' ∧ s' = { s with holdings := s.holdings.put h' } := by
  unfold mutateHolding at h
  obtain ⟨-, -, h⟩ := except_bind_eq_ok.1 h
  cases hget : s.holdings.get? (holdingRecordId holding.asset) with
  | none =>
      rw [hget] at h
      cases h
      exact .inl ⟨rfl, rfl, rfl⟩
  | some current =>
      rw [hget] at h
      obtain ⟨h', hmake, h⟩ := except_bind_eq_ok.1 h
      cases h
      exact .inr ⟨current, h', rfl, Holding.make_eq_ok_iff.1 hmake, rfl, rfl⟩

/-- The lot a fill opens holds what it opened, and nothing closed any of it. -/
theorem openedLot_ok {event : SettlementEvent} {lotId : String} {side : PositionSide}
    {quantity : ℚ} {l : PositionLot} (h : openedLot event lotId side quantity = .ok l) :
    l.lotId = lotId ∧ l.originatingFillId = event.fillId ∧ l.asset = event.asset ∧
      l.positionSide = side ∧ l.openedQuantity = quantity ∧ l.remainingQuantity = quantity ∧
      l.acquisitionPrice = event.price ∧ l.closures = ∅ ∧ l.realizedPnl = 0 ∧
      l.assetFeeQuantities = ∅ := by
  have hf := PositionLot.make_eq_ok_iff.1 h
  exact ⟨congrArg (·.lotId) hf, congrArg (·.originatingFillId) hf, congrArg (·.asset) hf,
    congrArg (·.positionSide) hf, congrArg (·.openedQuantity) hf, congrArg (·.remainingQuantity) hf,
    congrArg (·.acquisitionPrice) hf, congrArg (·.closures) hf, congrArg (·.realizedPnl) hf,
    congrArg (·.assetFeeQuantities) hf⟩

/-- **The frame of a transaction**: every part it does not write stays as it was. -/
theorem exec_frame {o : Op} {i : Outside} {s s' : Store} {r : o.Res}
    (h : exec o i s = .ok (r, s')) (p : Part) (hp : o.writes ≠ some p) : Store.SameAt p s s' := by
  cases o with
  | claimIfProcessable id now stale force =>
      rcases claimIfProcessable_ok h with ⟨-, rfl⟩ | ⟨_, _, -, -, -, -, rfl⟩
      · exact .refl p s'
      · cases p <;> simp_all [Store.SameAt, Op.writes]
  | closeLot closure event =>
      rcases closeLot_ok h with ⟨-, -, rfl⟩ | ⟨_, _, -, -, -, rfl⟩
      · exact .refl p s'
      · cases p <;> simp_all [Store.SameAt, Op.writes]
  | checkpoint event =>
      obtain ⟨-, -, rfl⟩ := checkpoint_ok h
      cases p <;> simp_all [Store.SameAt, Op.writes]
  | mutateHolding openLots holding guardKey =>
      rcases mutateHolding_ok h with ⟨-, -, rfl⟩ | ⟨_, _, -, -, -, rfl⟩
      · exact .refl p s'
      · cases p <;> simp_all [Store.SameAt, Op.writes]
  | projectAccounting event cash trade =>
      obtain ⟨t, ht, h⟩ := except_bind_eq_ok.1 h
      obtain ⟨_, _, rfl⟩ := project_frame ht
      cases h
      cases p <;> simp_all [Store.SameAt, Op.writes]
  | getAdoption lot =>
      obtain ⟨t, ht, h⟩ := except_bind_eq_ok.1 h
      cases h
      exact .refl p s
  | createLot lot guardKey =>
      obtain ⟨-, -, h⟩ := except_bind_eq_ok.1 h
      cases h
      cases p <;> simp_all [Store.SameAt, Op.writes]
  | deleteHolding asset guardKey =>
      obtain ⟨-, -, h⟩ := except_bind_eq_ok.1 h
      cases h
      cases p <;> simp_all [Store.SameAt, Op.writes]
  | createHolding openLots holding guardKey =>
      obtain ⟨-, -, h⟩ := except_bind_eq_ok.1 h
      cases h
      cases p <;> simp_all [Store.SameAt, Op.writes]
  | updateTradeIntent intent guardKey =>
      obtain ⟨-, -, h⟩ := except_bind_eq_ok.1 h
      cases h
      cases p <;> simp_all [Store.SameAt, Op.writes]
  | latchFinancialIntegrityBlock reason now =>
      cases h
      unfold Store.latchFinancialIntegrityBlock
      split
      · exact .refl p s
      · cases p <;> simp_all [Store.SameAt, Op.writes]
  | createLiability l => cases h; cases p <;> simp_all [Store.SameAt, Op.writes]
  | createHold hold => cases h; cases p <;> simp_all [Store.SameAt, Op.writes]
  | createAttribution a => cases h; cases p <;> simp_all [Store.SameAt, Op.writes]
  | createAuditEvent e => cases h; cases p <;> simp_all [Store.SameAt, Op.writes]
  | clock => cases h; exact .refl p s
  | uuid4 => cases h; exact .refl p s
  | leaseLost => cases h; exact .refl p s
  | listByStatuses statuses => cases h; exact .refl p s
  | getHold id => cases h; exact .refl p s
  | lotsByAsset reader asset => cases h; exact .refl p s
  | convertedLots => cases h; exact .refl p s
  | getFill id => cases h; exact .refl p s
  | getTradeIntent id => cases h; exact .refl p s
  | getHolding reader asset => cases h; exact .refl p s
  | fillsByTradeIntent id => cases h; exact .refl p s
  | settlementsByTradeIntent id => cases h; exact .refl p s
  | settlementsByBrokerFill id => cases h; exact .refl p s
  | findLiability fillId => cases h; exact .refl p s
  | sendAlert => cases h; exact .refl p s

/-! ### The footprints of the stages -/

/-- The transaction writes nothing outside the given parts. -/
def Op.WritesIn (parts : List Part) (o : Op) : Prop := ∀ p, o.writes = some p → p ∈ parts

theorem Op.WritesIn.mono {parts parts' : List Part} (h : parts ⊆ parts') {o : Op}
    (ho : o.WritesIn parts) : o.WritesIn parts' := fun p hp => h (ho p hp)

theorem Op.WritesIn.of_none {parts : List Part} {o : Op} (h : o.writes = none) :
    o.WritesIn parts := fun p hp => by
  rw [h] at hp
  cases hp

theorem Op.WritesIn.of_mem {parts : List Part} {o : Op} {p : Part} (h : o.writes = some p)
    (hp : p ∈ parts) : o.WritesIn parts := fun q hq => by
  rw [h] at hq
  cases hq
  exact hp

variable {parts : List Part} {α : Type}

theorem uses_performWrite {o : Op} {p : Part} (ho : o.writes = some p) :
    (perform o).Uses (Op.WritesIn [p]) :=
  (Prog.uses_perform o).2 (.of_mem ho (by simp))

theorem uses_read {o : Op} {f : o.Res → Settle α} (ho : o.writes = none)
    (hf : ∀ r, (f r).Uses (Op.WritesIn parts)) :
    (Prog.bind (perform o) f).Uses (Op.WritesIn parts) :=
  Prog.Uses.bind hf ((Prog.uses_perform o).2 (.of_none ho))

theorem uses_write {o : Op} {p : Part} {f : o.Res → Settle α} (ho : o.writes = some p)
    (hp : p ∈ parts) (hf : ∀ r, (f r).Uses (Op.WritesIn parts)) :
    (Prog.bind (perform o) f).Uses (Op.WritesIn parts) :=
  Prog.Uses.bind hf ((Prog.uses_perform o).2 (.of_mem ho hp))

theorem uses_unconvertedLots (reader : Stage) (asset : AssetIdentity) :
    (unconvertedLots reader asset).Uses (Op.WritesIn parts) :=
  uses_read rfl fun _ => uses_read rfl fun _ => trivial

theorem uses_openingIntentOf (lot : PositionLot) :
    (openingIntentOf lot).Uses (Op.WritesIn parts) := by
  refine uses_read rfl fun r => ?_
  cases r with
  | none => trivial
  | some fill => exact (Prog.uses_perform _).2 (.of_none rfl)

theorem uses_attributeLot (event : SettlementEvent) (lot : PositionLot) (quantity pnl : ℚ) :
    (attributeLot event lot quantity pnl).Uses (Op.WritesIn [.tradeAttributions]) := by
  unfold attributeLot
  split
  · exact uses_read rfl fun _ => uses_write rfl (by simp) fun _ => trivial
  · refine Prog.Uses.bind (fun r => ?_) (uses_openingIntentOf lot)
    cases r with
    | none => trivial
    | some intent => exact uses_write rfl (by simp) fun _ => trivial

theorem uses_projectAttribution (event : SettlementEvent) :
    (projectAttribution event).Uses (Op.WritesIn [.tradeAttributions]) := by
  refine uses_read rfl fun lots => ?_
  dsimp only
  split
  · trivial
  · exact Prog.Uses.bind (fun _ => Prog.Uses.forEach fun c _ => uses_attributeLot event c.1 c.2 _)
      (Prog.uses_ofExcept _)

theorem uses_entryProtectiveLevels (lot : PositionLot) :
    (entryProtectiveLevels lot).Uses (Op.WritesIn parts) := by
  unfold entryProtectiveLevels
  split
  · exact uses_read rfl fun _ => trivial
  · refine Prog.Uses.bind (fun r => ?_) (uses_openingIntentOf lot)
    cases r <;> trivial

theorem uses_projectHolding (event : SettlementEvent) :
    (projectHolding event).Uses (Op.WritesIn [.holdings]) := by
  refine Prog.Uses.bind (fun lots => ?_) (uses_unconvertedLots _ _)
  refine uses_read rfl fun existing => ?_
  split
  · split
    · exact uses_write rfl (by simp) fun _ => trivial
    · trivial
  · refine Prog.Uses.bind (fun levels => ?_) (uses_entryProtectiveLevels _)
    refine Prog.Uses.bind (fun holding => ?_) (Prog.uses_ofExcept _)
    split
    · exact uses_write rfl (by simp) fun _ => trivial
    · exact uses_write rfl (by simp) fun _ => trivial

theorem uses_projectTrade (event : SettlementEvent) :
    (projectTrade event).Uses (Op.WritesIn [.tradeIntents]) := by
  refine uses_read rfl fun intent => ?_
  cases intent with
  | none => trivial
  | some intent =>
      exact uses_read rfl fun _ => uses_read rfl fun _ => uses_write rfl (by simp) fun _ => trivial

theorem uses_refuseHeld (event : SettlementEvent) :
    (refuseHeld event).Uses (Op.WritesIn parts) := by
  unfold refuseHeld
  split
  · trivial
  · refine uses_read rfl fun hold => ?_
    cases hold <;> trivial

theorem uses_duplicateFills (event : SettlementEvent) :
    (duplicateFills event).Uses (Op.WritesIn parts) := by
  unfold duplicateFills
  split
  · trivial
  · split
    · trivial
    · exact uses_read rfl fun _ => trivial

theorem uses_verifyIntegrity (event : SettlementEvent) (checkLots : Bool) :
    (verifyIntegrity event checkLots).Uses (Op.WritesIn parts) := by
  refine Prog.Uses.bind (fun _ => ?_) (uses_refuseHeld event)
  refine Prog.Uses.bind (fun _ => ?_) (uses_unconvertedLots _ _)
  refine uses_read rfl fun _ => ?_
  exact Prog.Uses.bind (fun _ => Prog.uses_ofExcept _) (uses_duplicateFills event)

theorem uses_projectLiabilityHold (event : SettlementEvent) :
    (projectLiabilityHold event).Uses
      (Op.WritesIn [.session, .integrityHolds, .auditEvents]) := by
  refine uses_read rfl fun liability => ?_
  cases liability with
  | none => trivial
  | some liability =>
      exact uses_write rfl (by simp) fun _ => uses_write rfl (by simp) fun _ =>
        uses_write rfl (by simp) fun _ => uses_read rfl fun _ => trivial

theorem uses_mixedLotOrigin (event : SettlementEvent) :
    (mixedLotOrigin event).Uses (Op.WritesIn [.session, .integrityHolds]) :=
  uses_write rfl (by simp) fun _ => uses_write rfl (by simp) fun _ => trivial

theorem uses_openPosition (lots : List PositionLot) (event : SettlementEvent)
    (plan : SignedLotPlan) :
    (openPosition lots event plan).Uses
      (Op.WritesIn [.positionLots, .liabilities, .session, .integrityHolds]) := by
  unfold openPosition
  split
  · split
    · refine Prog.Uses.bind (fun _ => ?_) (Prog.uses_ofExcept _)
      exact uses_write rfl (by simp) fun _ => trivial
    · split
      · exact (uses_mixedLotOrigin event).mono fun _ => Op.WritesIn.mono (by simp)
      · refine uses_read rfl fun _ => ?_
        refine Prog.Uses.bind (fun _ => ?_) (Prog.uses_ofExcept _)
        exact uses_write rfl (by simp) fun _ => trivial
  · trivial

theorem uses_projectLot (event : SettlementEvent) :
    (projectLot event).Uses
      (Op.WritesIn [.positionLots, .liabilities, .session, .integrityHolds]) := by
  refine Prog.Uses.bind (fun lots => ?_) (uses_unconvertedLots _ _)
  refine Prog.Uses.bind (fun plan => ?_) (Prog.uses_ofExcept _)
  refine Prog.Uses.bind (fun _ => ?_) (Prog.uses_ofExcept _)
  refine Prog.Uses.bind (fun _ => ?_) (Prog.Uses.forEach fun closure _ => ?_)
  · refine Prog.Uses.bind (fun _ => ?_) (uses_openPosition lots event plan)
    trivial
  · exact uses_write rfl (by simp) fun _ => trivial

/-- The parts of the store that a stage writes. -/
def stageWrites : Stage → List Part
  | .projectLot => [.positionLots, .liabilities, .session, .integrityHolds]
  | .projectAttribution => [.tradeAttributions]
  | .projectCash => [.accounting]
  | .projectHolding => [.holdings]
  | .projectTrade => [.accounting, .tradeIntents]
  | .verifyIntegrity => []
  | .projectLiabilityHold => [.session, .integrityHolds, .auditEvents]

/-- **The footprints of the stages.** -/
theorem uses_handlers (stage : Stage) (state : SettlementEvent) :
    (handlers stage state).Uses (Op.WritesIn (stageWrites stage)) := by
  have quiet : ∀ {parts : List Part} {p : Settle Unit}, p.Uses (Op.WritesIn parts) →
      (p.bind fun _ => Prog.done (none : Option ℚ)).Uses (Op.WritesIn parts) := fun hp =>
    Prog.Uses.bind (fun _ => Prog.uses_done _) hp
  cases stage with
  | projectLot => exact uses_projectLot state
  | projectAttribution => exact quiet (uses_projectAttribution state)
  | projectCash => exact quiet (uses_performWrite rfl)
  | projectHolding => exact quiet (uses_projectHolding state)
  | projectTrade =>
      refine uses_write rfl (by simp [stageWrites]) fun _ => quiet ?_
      exact (uses_projectTrade state).mono fun _ => Op.WritesIn.mono (by simp [stageWrites])
  | verifyIntegrity => exact quiet (uses_verifyIntegrity state true)
  | projectLiabilityHold => exact quiet (uses_projectLiabilityHold state)

theorem settlements_notMem_stageWrites (stage : Stage) :
    Part.settlements ∉ stageWrites stage := by
  cases stage <;> decide

theorem notMem_stageWrites {stage : Stage} (h : stage ≠ .projectLot) :
    ∀ p ∈ [Part.settlements, .positionLots, .liabilities, .convertedLots, .fills],
      p ∉ stageWrites stage := by
  cases stage with
  | projectLot => exact absurd rfl h
  | _ => decide

/-! ### What a pass uses -/

variable {A : Op → Prop}

theorem uses_runSettlementStages (hstages : ∀ st state, (handlers st state).Uses A)
    (hevents : ∀ o, o.writes = some .settlements → A o) (event : SettlementEvent) :
    (runSettlementStages event handlers fun e => perform (.checkpoint e)).Uses A := by
  refine Prog.Uses.foldEach fun state st _ => ?_
  unfold runStage
  split
  · trivial
  · refine Prog.Uses.bind (fun r => ?_) (hstages st state)
    refine Prog.Uses.bind (fun state' => ?_) (Prog.uses_ofExcept _)
    exact Prog.Uses.bind (fun _ => Prog.uses_done _) ((Prog.uses_perform _).2 (hevents _ rfl))

theorem uses_processEvent (hreads : ∀ o, o.writes = none → A o)
    (hevents : ∀ o, o.writes = some .settlements → A o)
    (hlatch : ∀ reason now, A (.latchFinancialIntegrityBlock reason now))
    (hstages : ∀ st state, (handlers st state).Uses A) (now : Instant) (stale : ℕ) (force : Bool)
    (counts : BatchCounts) (event : SettlementEvent) :
    (processEvent now stale force counts event).Uses A := by
  have one : ∀ {o : Op}, A o → (perform o).Uses A := (Prog.uses_perform _).2
  have hverify : ∀ e, (verifyIntegrity e false).Uses A := by
    intro e
    have hnothing : (verifyIntegrity e false).Uses (Op.WritesIn []) := uses_verifyIntegrity e false
    refine hnothing.mono fun o ho => hreads o ?_
    exact Option.eq_none_iff_forall_not_mem.2 fun p hp => List.not_mem_nil (ho p hp)
  have hattempt : ∀ claimed, (attempt claimed).Uses A := by
    intro claimed
    refine Prog.Uses.bind (fun _ => ?_) (hverify claimed)
    refine Prog.Uses.bind (fun final => ?_) (uses_runSettlementStages hstages hevents claimed)
    refine Prog.Uses.bind (fun done => ?_) (Prog.uses_ofExcept _)
    exact one (hevents (.checkpoint done) rfl)
  refine Prog.Uses.bind (fun lost => ?_) (one (hreads _ rfl))
  split
  · trivial
  · refine Prog.Uses.bind (fun claimed => ?_) (one (hevents _ rfl))
    cases claimed with
    | none => trivial
    | some claimed =>
        refine Prog.Uses.tryCatch (fun exc => ?_) (Prog.Uses.bind (fun _ => Prog.uses_done _)
          (hattempt claimed))
        refine Prog.Uses.bind (fun _ => Prog.uses_done _) ?_
        refine Prog.Uses.bind (fun failed => ?_) (Prog.uses_ofExcept _)
        refine Prog.Uses.bind (fun _ => ?_) (one (hevents _ rfl))
        split
        · refine Prog.Uses.bind (fun _ => ?_) (one (hreads _ rfl))
          refine Prog.Uses.bind (fun _ => ?_) (one (hreads _ rfl))
          exact Prog.Uses.bind (fun _ => Prog.uses_done _) (one (hlatch _ _))
        · trivial

/-- **What a pass uses**, given what its stages use. -/
theorem uses_processPending (hreads : ∀ o, o.writes = none → A o)
    (hevents : ∀ o, o.writes = some .settlements → A o)
    (hlatch : ∀ reason now, A (.latchFinancialIntegrityBlock reason now))
    (hstages : ∀ st state, (handlers st state).Uses A) (args : PassArgs) :
    (processPending args).Uses A := by
  have one : ∀ {o : Op}, A o → (perform o).Uses A := (Prog.uses_perform _).2
  refine Prog.Uses.bind (fun now => ?_) (one (hreads _ rfl))
  refine Prog.Uses.bind (fun events => ?_) (one (hreads _ rfl))
  refine Prog.Uses.bind (fun _ => ?_) (Prog.Uses.foldEach fun counts event _ =>
    uses_processEvent hreads hevents hlatch hstages now _ _ counts event)
  exact Prog.Uses.bind (fun _ => Prog.uses_done _) (one (hreads _ rfl))

/-! ### Holdings -/

/-- How a transaction of settlement changes holdings. -/
inductive HoldingsAfter (s s' : Store) : Op → Prop
  | same {o : Op} (h : s'.holdings = s.holdings) : HoldingsAfter s s' o
  | deleted {asset : AssetIdentity} {guardKey : Option String}
      (h : s'.holdings = s.holdings.delete (holdingRecordId asset)) :
      HoldingsAfter s s' (.deleteHolding asset guardKey)
  | mutated {openLots : List PositionLot} {holding : Holding} {guardKey : Option String}
      (row row' : Holding)
      (hget : s.holdings.get? (holdingRecordId holding.asset) = some row)
      (hrow' : row'.toHoldingFields = { holding.toHoldingFields with
        currentStop := row.currentStop
        scaledOut := row.scaledOut })
      (h : s'.holdings = s.holdings.put row') :
      HoldingsAfter s s' (.mutateHolding openLots holding guardKey)
  | created {openLots : List PositionLot} {holding : Holding} {guardKey : Option String}
      (h : s'.holdings = s.holdings.createOnce holding) :
      HoldingsAfter s s' (.createHolding openLots holding guardKey)

theorem holdingsAfter {o : Op} {i : Outside} {s s' : Store} {r : o.Res}
    (h : exec o i s = .ok (r, s')) : HoldingsAfter s s' o := by
  cases o with
  | deleteHolding asset guardKey =>
      obtain ⟨-, -, h⟩ := except_bind_eq_ok.1 h
      cases h
      exact .deleted rfl
  | mutateHolding openLots holding guardKey =>
      rcases mutateHolding_ok h with ⟨-, -, rfl⟩ | ⟨row, row', hget, hrow', -, rfl⟩
      · exact .same rfl
      · exact .mutated row row' hget hrow' rfl
  | createHolding openLots holding guardKey =>
      obtain ⟨-, -, h⟩ := except_bind_eq_ok.1 h
      cases h
      exact .created rfl
  | _ => exact .same (exec_frame h .holdings (by simp [Op.writes]))

end Settlement

end TradePulse
