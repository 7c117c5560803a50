/-
**The transactions of the settlement processor.**

Between two of its `await`s the processor computes; every `await` is one transaction of the
database, one read of it, or one question to the world outside.  Here are all of them, with what
each does to the store.

Main definitions:

* `Settlement.Op`, `Settlement.Op.Res` — the transactions and the types of their results;
* `Settlement.Outside` — what the world outside answers;
* `Settlement.exec` — what a transaction does.
-/

import TradePulse.Process.Pool
import TradePulse.Settlement.Accounting
import TradePulse.Settlement.Stages

set_option autoImplicit false

namespace TradePulse

open Storage Process

namespace Settlement

/-- Who reads a holding: the stage that projects it, from the open lots it has read, or the one that
compares it with those that it has read, which only matters where `checkLots` is set. -/
inductive HoldingReader
  | projects (openLots : List PositionLot)
  | compares (openLots : List PositionLot) (checkLots : Bool)

/-- The transactions of the processor.  Where several stages make the same read, `reader` says
which of them does; with a projected holding go the open lots that were read for it, which the
transaction does not use. -/
inductive Op
  | clock
  | uuid4
  | leaseLost
  | listByStatuses (statuses : List SettlementStatus)
  | claimIfProcessable (id : String) (now : Instant) (stale : ℕ) (force : Bool)
  | getHold (brokerOrderId : String)
  | lotsByAsset (reader : Stage) (asset : AssetIdentity)
  | convertedLots
  | closeLot (closure : LotClosure) (event : SettlementEvent)
  | createLiability (liability : ShortExposureLiability)
  | createLot (lot : PositionLot) (guardKey : Option String)
  | latchFinancialIntegrityBlock (reason : String) (now : Instant)
  | createHold (hold : IntegrityHold)
  | getAdoption (lot : PositionLot)
  | getFill (id : String)
  | getTradeIntent (id : String)
  | createAttribution (attribution : TradeAttribution)
  /-- Write the missing accounting rows of an event. -/
  | projectAccounting (event : SettlementEvent) (cash trade : Bool)
  | getHolding (reader : HoldingReader) (asset : AssetIdentity)
  | deleteHolding (asset : AssetIdentity) (guardKey : Option String)
  /-- Write a holding over the current one, keeping what only the monitor writes. -/
  | mutateHolding (openLots : List PositionLot) (holding : Holding) (guardKey : Option String)
  | createHolding (openLots : List PositionLot) (holding : Holding) (guardKey : Option String)
  | fillsByTradeIntent (id : String)
  | settlementsByTradeIntent (id : String)
  | updateTradeIntent (intent : TradeIntent) (guardKey : Option String)
  | settlementsByBrokerFill (id : String)
  | findLiability (fillId : String)
  | createAuditEvent (event : AuditEvent)
  | sendAlert
  | checkpoint (event : SettlementEvent)

/-- The type of a transaction's result. -/
@[reducible] def Op.Res : Op → Type
  | .clock => Instant
  | .uuid4 => String
  | .leaseLost => Bool
  | .listByStatuses _ => List SettlementEvent
  | .claimIfProcessable _ _ _ _ => Option SettlementEvent
  | .getHold _ => Option IntegrityHold
  | .lotsByAsset _ _ => List PositionLot
  | .convertedLots => List String
  | .closeLot _ _ => Option PositionLot
  | .createLiability _ => Bool
  | .createLot _ _ => Bool
  | .latchFinancialIntegrityBlock _ _ => Unit
  | .createHold _ => Bool
  | .getAdoption _ => Adoption
  | .getFill _ => Option Fill
  | .getTradeIntent _ => Option TradeIntent
  | .createAttribution _ => Bool
  | .projectAccounting _ _ _ => Unit
  | .getHolding _ _ => Option Holding
  | .deleteHolding _ _ => Bool
  | .mutateHolding _ _ _ => Option Holding
  | .createHolding _ _ _ => Bool
  | .fillsByTradeIntent _ => List Fill
  | .settlementsByTradeIntent _ => List SettlementEvent
  | .updateTradeIntent _ _ => Bool
  | .settlementsByBrokerFill _ => List SettlementEvent
  | .findLiability _ => Option ShortExposureLiability
  | .createAuditEvent _ => Bool
  | .sendAlert => Unit
  | .checkpoint _ => Unit

/-- What the world outside answers. -/
structure Outside where
  now : Instant := 0
  uuid : String := ""
  leaseLost : Bool := false

/-- Programs of the processor. -/
abbrev Settle (α : Type) := Prog Raised Op.Res α

/-- The closure of a lot as `_decide` computes it from the current row. -/
def closedLot (current : PositionLot) (closure : LotClosure) (event : SettlementEvent) :
    Except Raised PositionLot :=
  let extremes :=
    foldPriceExtremum current.positionSide current.mfePrice current.maePrice event.price
  PositionLot.make
    { current.toPositionLotFields with
      remainingQuantity := current.remainingQuantity - closure.quantity
      closures := current.closures.insert event.fillId closure.quantity
      realizedPnl := current.realizedPnl + closure.pnl
      mfePrice := some extremes.1
      maePrice := some extremes.2 }

/-- `position_lots.mutate` with the closure of a lot. -/
def closeLot (s : Store) (closure : LotClosure) (event : SettlementEvent) :
    Except Raised (Option PositionLot × Store) := do
  let _ ← checkIntegrityHold s event.brokerOrderId
  match s.positionLots.get? closure.lot.lotId with
  | none => .ok (none, s)
  | some current => do
      let lot ← closedLot current closure event
      .ok (some lot, { s with positionLots := s.positionLots.put lot })

/-- `settlements.claim_if_processable` with the processor's decision. -/
def claimIfProcessable (s : Store) (id : String) (now : Instant) (stale : ℕ) (force : Bool) :
    Except Raised (Option SettlementEvent × Store) :=
  match s.settlements.get? id with
  | none => .ok (none, s)
  | some current =>
      if isSettlementProcessable current now stale force then do
        let claimed ← SettlementEvent.make
          { current.toSettlementEventFields with
            status := .processing
            processingOwner := some "settle"
            processingStartedAt := some now }
        .ok (some claimed, { s with settlements := s.settlements.put claimed })
      else .ok (none, s)

/-- Every stage of the event is flagged done. -/
def allFlags (event : SettlementEvent) : Bool := settlementStages.all fun st => event.flag st

/-- `_checkpoint`: verify the evidence the event claims, and write the event. -/
def checkpoint (s : Store) (event : SettlementEvent) : Except Raised (Unit × Store) := do
  raiseIf (event.status = .completed ∧ allFlags event = false)
    (.valueError "ACCOUNTING_COMPLETED_PROJECTION_FLAGS_INCOMPLETE")
  let s ← project s event event.cashProjected event.tradeProjected false
  .ok ((), { s with settlements := s.settlements.put event })

/-- `holdings.mutate` with a projected holding: the monitor's fields stay as they are. -/
def mutateHolding (s : Store) (holding : Holding) (guardKey : Option String) :
    Except Raised (Option Holding × Store) := do
  let _ ← checkIntegrityHold s guardKey
  match s.holdings.get? (holdingRecordId holding.asset) with
  | none => .ok (none, s)
  | some current => do
      let h ← Holding.make
        { holding.toHoldingFields with
          currentStop := current.currentStop
          scaledOut := current.scaledOut }
      .ok (some h, { s with holdings := s.holdings.put h })

/-- What a transaction does to the store. -/
def exec : (o : Op) → Outside → Store → Except Raised (o.Res × Store)
  | .clock, i, s => .ok (i.now, s)
  | .uuid4, i, s => .ok (i.uuid, s)
  | .leaseLost, i, s => .ok (i.leaseLost, s)
  | .listByStatuses statuses, _, s =>
      .ok (s.settlements.rows.filter fun e => statuses.contains e.status, s)
  | .claimIfProcessable id now stale force, _, s => claimIfProcessable s id now stale force
  | .getHold id, _, s => .ok (s.integrityHolds.get? id, s)
  | .lotsByAsset _ asset, _, s => .ok (s.lotsByAsset asset, s)
  | .convertedLots, _, s => .ok (s.convertedLots, s)
  | .closeLot closure event, _, s => closeLot s closure event
  | .createLiability l, _, s =>
      .ok (s.shortExposureLiabilities.Admits l,
        { s with shortExposureLiabilities := s.shortExposureLiabilities.createOnce l })
  | .createLot lot guardKey, _, s => do
      let _ ← checkIntegrityHold s guardKey
      .ok (s.positionLots.Admits lot, { s with positionLots := s.positionLots.createOnce lot })
  | .latchFinancialIntegrityBlock reason now, _, s =>
      .ok ((), s.latchFinancialIntegrityBlock reason now)
  | .createHold hold, _, s =>
      .ok (s.integrityHolds.Admits hold,
        { s with integrityHolds := s.integrityHolds.createOnce hold })
  | .getAdoption lot, _, s => do
      let adoption ← adoptionForLot s lot
      .ok (adoption, s)
  | .getFill id, _, s => .ok (s.fills.get? id, s)
  | .getTradeIntent id, _, s => .ok (s.tradeIntents.get? id, s)
  | .createAttribution a, _, s =>
      .ok (s.tradeAttributions.Admits a,
        { s with tradeAttributions := s.tradeAttributions.createOnce a })
  | .projectAccounting event cash trade, _, s => do
      let s ← project s event cash trade true
      .ok ((), s)
  | .getHolding _ asset, _, s => .ok (s.holdings.get? (holdingRecordId asset), s)
  | .deleteHolding asset guardKey, _, s => do
      let _ ← checkIntegrityHold s guardKey
      .ok ((s.holdings.get? (holdingRecordId asset)).isSome,
        { s with holdings := s.holdings.delete (holdingRecordId asset) })
  | .mutateHolding _ holding guardKey, _, s => mutateHolding s holding guardKey
  | .createHolding _ holding guardKey, _, s => do
      let _ ← checkIntegrityHold s guardKey
      .ok (s.holdings.Admits holding, { s with holdings := s.holdings.createOnce holding })
  | .fillsByTradeIntent id, _, s =>
      .ok (s.fills.rows.filter fun f => f.tradeIntentId = id, s)
  | .settlementsByTradeIntent id, _, s =>
      .ok (s.settlements.rows.filter fun e => e.tradeIntentId = id, s)
  | .updateTradeIntent intent guardKey, _, s => do
      let _ ← checkIntegrityHold s guardKey
      .ok ((s.tradeIntents.get? intent.tradeIntentId).isSome,
        { s with tradeIntents := s.tradeIntents.put intent })
  | .settlementsByBrokerFill id, _, s =>
      .ok (s.settlements.rows.filter fun e => e.brokerFillId = some id, s)
  | .findLiability fillId, _, s => .ok (s.shortExposureLiabilities.findByUnique fillId, s)
  | .createAuditEvent event, _, s =>
      .ok (s.auditEvents.Admits event, { s with auditEvents := s.auditEvents.createOnce event })
  | .sendAlert, _, s => .ok ((), s)
  | .checkpoint event, _, s => checkpoint s event

end Settlement

end TradePulse
