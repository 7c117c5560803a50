/-
**Executions of an order become fills** (`execution/fill_attribution.py`).

The poll of an order that was just placed and the recovery of an order whose poll gave up take the
same path: list the broker's executions, keep those that match the order, check their total against
what the order says is filled, and record a fill and a settlement event for each.  An order whose
total is disputed, or could not be checked, is put on hold.

Main definitions:

* `Attribution.Op`, `Attribution.exec` — the transactions and the questions to the broker;
* `validatedFill`, `validatedFills` — which executions are admitted;
* `attributeFills`, `attributeOrderFills` — the procedure.
-/

import TradePulse.Broker.Types
import TradePulse.Persistence.Store
import TradePulse.Process.Pool
import TradePulse.Settlement.Stages
import Mathlib.Data.List.Sort

set_option autoImplicit false

namespace TradePulse

open Storage Process

/-- The store and the broker. -/
abbrev World := Store × Broker

namespace Attribution

/-- The transactions of the procedure, and its questions to the world outside. -/
inductive Op
  | clock
  | getActivities (since : Instant)
  | getOrder (id : String)
  | sendAlert
  | getHold (id : String)
  | pendingHolds
  | deleteHold (id : String)
  | createHold (hold : IntegrityHold)
  | updateHold (hold : IntegrityHold)
  | settlementsByTradeIntent (id : String)
  | blockEvent (id : String)
  | latchFinancialIntegrityBlock (reason : String) (now : Instant)
  | createFill (fill : Fill)
  | recordGrossFill (fill : Fill) (now : Instant)
  | createSettlement (event : SettlementEvent)

@[reducible] def Op.Res : Op → Type
  | .clock => Instant
  | .getActivities _ => List BrokerActivity
  | .getOrder _ => BrokerOrder
  | .sendAlert => Unit
  | .getHold _ => Option IntegrityHold
  | .pendingHolds => List IntegrityHold
  | .deleteHold _ => Bool
  | .createHold _ => Bool
  | .updateHold _ => Bool
  | .settlementsByTradeIntent _ => List SettlementEvent
  | .blockEvent _ => Option SettlementEvent
  | .latchFinancialIntegrityBlock _ _ => Unit
  | .createFill _ => Bool
  | .recordGrossFill _ _ => Unit
  | .createSettlement _ => Bool

/-- What the world outside answers. -/
structure Outside where
  now : Instant := 0
  /-- The order in which the broker lists executions. -/
  activities : List BrokerActivity := []

abbrev Attribute (α : Type) := Prog Raised Op.Res α

/-- `settlements.claim_if_processable` with the decision to block the event. -/
def blockEvent (s : Store) (id : String) : Except Raised (Option SettlementEvent × Store) :=
  match s.settlements.get? id with
  | none => .ok (none, s)
  | some current =>
      if current.status = .pending ∨ current.status = .retryableFailed then do
        let blocked ← SettlementEvent.make
          { current.toSettlementEventFields with
            status := .integrityBlocked
            errorCode := some "INTEGRITY_VIOLATION: order fill quantity disputed"
            nextRetryAt := none
            processingOwner := none
            processingStartedAt := none }
        .ok (some blocked, { s with settlements := s.settlements.put blocked })
      else .ok (none, s)

/-- `record_gross_fill`, without the accounting epochs. -/
def recordGrossFill (s : Store) (fill : Fill) : Except Raised Store := do
  raiseIf ((s.fills.get? fill.fillId).any fun row => row.toFillFields ≠ fill.toFillFields)
    (.valueError "CRYPTO_GROSS_FILL_RECEIPT_CHANGED")
  .ok { s with fills := s.fills.createOnce fill }

/-- What a transaction does. -/
def exec : (o : Op) → Outside → World → Except Raised (o.Res × World)
  | .clock, i, w => .ok (i.now, w)
  | .getActivities since, i, w => .ok (w.2.listing since i.activities, w)
  | .getOrder id, _, w =>
      match w.2.orders.get? id with
      | none => .error ⟨.alpaca, "order not found"⟩
      | some order => .ok (order, w)
  | .sendAlert, _, w => .ok ((), w)
  | .getHold id, _, w => .ok (w.1.integrityHolds.get? id, w)
  | .pendingHolds, _, w =>
      .ok (w.1.integrityHolds.rows.filter fun h => h.holdType = .verificationPending, w)
  | .deleteHold id, _, w => .ok ((w.1.integrityHolds.get? id).isSome,
      ({ w.1 with integrityHolds := w.1.integrityHolds.delete id }, w.2))
  | .createHold hold, _, w => .ok (w.1.integrityHolds.Admits hold,
      ({ w.1 with integrityHolds := w.1.integrityHolds.createOnce hold }, w.2))
  | .updateHold hold, _, w => .ok ((w.1.integrityHolds.get? hold.brokerOrderId).isSome,
      ({ w.1 with integrityHolds := w.1.integrityHolds.put hold }, w.2))
  | .settlementsByTradeIntent id, _, w =>
      .ok (w.1.settlements.rows.filter fun e => e.tradeIntentId = id, w)
  | .blockEvent id, _, w => do
      let (r, s) ← blockEvent w.1 id
      .ok (r, (s, w.2))
  | .latchFinancialIntegrityBlock reason now, _, w =>
      .ok ((), (w.1.latchFinancialIntegrityBlock reason now, w.2))
  | .createFill fill, _, w => .ok (w.1.fills.Admits fill,
      ({ w.1 with fills := w.1.fills.createOnce fill }, w.2))
  | .recordGrossFill fill _, _, w => do
      let s ← recordGrossFill w.1 fill
      .ok ((), (s, w.2))
  | .createSettlement event, _, w => .ok (w.1.settlements.Admits event,
      ({ w.1 with settlements := w.1.settlements.createOnce event }, w.2))

abbrev perform (o : Op) : Attribute o.Res := Prog.perform o

/-! ### Which executions are admitted -/

/-- An execution that was admitted: its quantity, price and time are there. -/
structure ValidatedFill where
  activity : BrokerActivity
  qty : ℚ
  price : ℚ
  transactionTime : Instant

/-- `_validated_fill`: every field of an execution must match the order. -/
def validatedFill (activity : BrokerActivity) (current : TradeIntent) : Option ValidatedFill :=
  if activity.activityId = "" then none
  else if activity.symbol ≠ current.asset.symbol then none
  else if activity.side ≠ some current.side then none
  else do
    let qty ← activity.qty
    if qty ≤ 0 then none
    else do
      let price ← activity.price
      if price ≤ 0 then none
      else do
        let time ← activity.transactionTime
        some ⟨activity, qty, price, time⟩

/-- By time, and by identifier at one time. -/
def ValidatedFill.Before (a b : ValidatedFill) : Prop :=
  a.transactionTime < b.transactionTime ∨
    (a.transactionTime = b.transactionTime ∧ a.activity.activityId ≤ b.activity.activityId)

instance (a b : ValidatedFill) : Decidable (a.Before b) := inferInstanceAs (Decidable (_ ∨ _))

/-- The admitted executions of an order, by time. -/
def validatedFills (activities : List BrokerActivity) (orderId : String) (current : TradeIntent) :
    List ValidatedFill :=
  ((activities.filter fun a => a.orderId = orderId).filterMap fun a =>
    validatedFill a current).insertionSort ValidatedFill.Before

def totalQty (fills : List ValidatedFill) : ℚ := (fills.map fun v => v.qty).sum

/-- `_activity_costs`: a fee that is missing, unreadable or negative counts as none. -/
def activityFee (activity : BrokerActivity) : ℚ :=
  match activity.fee with
  | some (some fee) => if fee < 0 then 0 else fee
  | _ => 0

/-- The fill of an execution. -/
def fillOf (current : TradeIntent) (orderId : String) (v : ValidatedFill) : FillFields where
  fillId := v.activity.activityId
  tradeIntentId := current.tradeIntentId
  orderId := orderId
  asset := current.asset
  side := current.side
  executionMode := current.executionMode
  quantity := v.qty
  price := v.price
  fees := activityFee v.activity
  filledAt := v.transactionTime
  brokerFillId := some v.activity.activityId

/-- The settlement event of an execution. -/
def eventOf (current : TradeIntent) (orderId : String) (v : ValidatedFill) :
    SettlementEventFields where
  settlementEventId := v.activity.activityId
  fillId := v.activity.activityId
  tradeIntentId := current.tradeIntentId
  asset := current.asset
  side := current.side
  executionMode := current.executionMode
  quantity := v.qty
  price := v.price
  occurredAt := v.transactionTime
  fees := activityFee v.activity
  sector := current.sector
  brokerOrderId := some orderId
  brokerFillId := some v.activity.activityId
  clientOrderId := current.clientOrderId

/-! ### The procedure -/

/-- An order whose total could not be checked is put on hold, unless it is on hold already. -/
def holdUnverified (current : TradeIntent) (orderId : String) : Attribute Unit := do
  perform .sendAlert
  match ← perform (.getHold orderId) with
  | some _ => return ()
  | none => do
      let now ← perform .clock
      let _ ← perform (.createHold
        { brokerOrderId := orderId
          tradeIntentId := current.tradeIntentId
          holdType := .verificationPending
          reason := "Could not verify order-level fill-quantity consistency for "
            ++ current.asset.symbol ++ " order " ++ orderId
          createdAt := now })
      return ()

/-- Check a total against the order, read after the executions.  A consistent total clears a hold
that waits for this check; the result is whether the total is disputed. -/
def verifyOrder (current : TradeIntent) (orderId : String) (total : ℚ) : Attribute Bool :=
  Prog.tryCatch
    (do
      let order ← perform (.getOrder orderId)
      if order.filledQty < total then return true
      else
        match ← perform (.getHold orderId) with
        | none => return false
        | some hold =>
            if hold.holdType = .verificationPending then do
              let _ ← perform (.deleteHold orderId)
              return false
            else return false)
    fun e =>
      if e.cls = .alpaca then do
        holdUnverified current orderId
        return false
      else Prog.fail e

/-- Block the events of the order that are not under way, hold the order, and stop trading. -/
def recordDispute (current : TradeIntent) (orderId : String) : Attribute Unit := do
  let events ← perform (.settlementsByTradeIntent current.tradeIntentId)
  Prog.forEach events fun e => do
    let _ ← perform (.blockEvent e.settlementEventId)
    return ()
  let reason := "INTEGRITY_VIOLATION: attributed fill quantity exceeds broker order.filled_qty for "
    ++ current.asset.symbol ++ " order " ++ orderId
  let now ← perform .clock
  let hold : IntegrityHold :=
    { brokerOrderId := orderId
      tradeIntentId := current.tradeIntentId
      holdType := .fillQuantityDisputed
      reason := reason
      createdAt := now }
  let created ← perform (.createHold hold)
  -- a hold that exists is upgraded in place
  let _ ← (if created then return true else perform (.updateHold hold) : Attribute Bool)
  let now ← perform .clock
  perform (.latchFinancialIntegrityBlock reason now)

/-- Record the fill and the settlement event of one execution. -/
def recordFill (current : TradeIntent) (orderId : String) (v : ValidatedFill) :
    Attribute Unit := do
  let fill ← Prog.ofExcept (Fill.make (fillOf current orderId v))
  let _ ← (if fill.asset.assetClass = .crypto then do
      let now ← perform .clock
      perform (.recordGrossFill fill now)
    else do
      let _ ← perform (.createFill fill)
      return () : Attribute Unit)
  let event ← Prog.ofExcept (SettlementEvent.make (eventOf current orderId v))
  let _ ← perform (.createSettlement event)
  return ()

/-- List the executions of an order, check their total, and record them. -/
def attributeFills (current : TradeIntent) (orderId : String) (verifyOrderFilledQty : Bool) :
    Attribute (List ValidatedFill) := do
  let activities ← perform (.getActivities current.createdAt)
  Prog.forEach (activities.filter fun a => a.orderId = orderId) fun a =>
    if (validatedFill a current).isNone then perform .sendAlert else return ()
  let validated := validatedFills activities orderId current
  let disputed ← (if verifyOrderFilledQty then verifyOrder current orderId (totalQty validated)
    else return false : Attribute Bool)
  let _ ← (if disputed then recordDispute current orderId else return () : Attribute Unit)
  Prog.forEach validated (recordFill current orderId)
  return validated

/-- What was attributed: quantity and average price of the same executions. -/
structure AttributedFills where
  quantity : ℚ
  avgPrice : Option ℚ

def AttributedFills.ofFills (fills : List ValidatedFill) : AttributedFills where
  quantity := totalQty fills
  avgPrice :=
    if 0 < totalQty fills then some ((fills.map fun v => v.qty * v.price).sum / totalQty fills)
    else none

/-- `attribute_order_fills`. -/
def attributeOrderFills (current : TradeIntent) (verifyOrderFilledQty : Bool) :
    Attribute AttributedFills :=
  match current.brokerOrderId with
  | none => Prog.fail (.valueError "FILL_ATTRIBUTION_REQUIRES_BROKER_ORDER_ID")
  | some orderId => do
      let fills ← attributeFills current orderId verifyOrderFilledQty
      return .ofFills fills

end Attribution

end TradePulse
