/-
**Recovery of an order whose poll gave up** (`resolve_order_from_broker`).

Attribute whatever executions there are now and, unless the intent is over already, finalize it as
the order stands at the broker.

Main definitions:

* `terminalStatusForOrder` — the intent's status for an order that is over at the broker;
* `Recovery.exec` — the transactions of settlement and of attribution, over store and broker;
* `resolveOrderFromBroker` — the procedure.
-/

import TradePulse.Execution.Attribution
import TradePulse.Process.Parallel
import TradePulse.Settlement.Engine

set_option autoImplicit false

namespace TradePulse

open Storage Process

/-- `TERMINAL_STATUSES`. -/
def TradeIntentStatus.terminal : TradeIntentStatus → Bool
  | filled | rejected | canceled | expired | failed => true
  | _ => false

/-- `TERMINAL_FAILURE_ORDER_STATUSES`, each with the status of the intent. -/
def OrderStatus.failure? : OrderStatus → Option TradeIntentStatus
  | rejected => some .rejected
  | canceled => some .canceled
  | expired => some .expired
  | replaced => some .canceled
  | _ => none

/-- `TERMINAL_ORDER_STATUSES`. -/
def OrderStatus.terminal (status : OrderStatus) : Bool :=
  status == .filled || status == .doneForDay || status.failure?.isSome

/-- `terminal_status_for_order`: the final status that an order's status and what was attributed of
it prove, if they prove one. -/
def terminalStatusForOrder (status : OrderStatus) (attributedQty : ℚ)
    (requestedQuantity : Option ℚ) : Option TradeIntentStatus :=
  if requestedQuantity.any fun q => decide (0 < q) && decide (q ≤ attributedQty) then some .filled
  else
    match status.failure? with
    | some failure => some failure
    | none =>
        if status = .doneForDay then if 0 < attributedQty then some .partiallyFilled else none
        else none

/-- `a or b`, where a price of zero counts as none. -/
def orPrice (a b : Option ℚ) : Option ℚ :=
  match a with
  | some p => if p = 0 then b else some p
  | none => b

namespace Recovery

open Attribution

/-- The transactions of settlement and those of attribution. -/
abbrev Op := Settlement.Op ⊕ Attribution.Op

abbrev Res : Op → Type := ResPar Settlement.Op.Res Attribution.Op.Res

abbrev Recover (α : Type) := Prog Raised Res α

/-- Settlement leaves the broker alone. -/
def settlementExec (o : Settlement.Op) (i : Settlement.Outside) (w : World) :
    Except Raised (o.Res × World) :=
  (Settlement.exec o i w.1).map fun r => (r.1, (r.2, w.2))

theorem settlementExec_ok {o : Settlement.Op} {i : Settlement.Outside} {w w' : World} {r : o.Res} :
    settlementExec o i w = .ok (r, w') ↔
      Settlement.exec o i w.1 = .ok (r, w'.1) ∧ w'.2 = w.2 := by
  obtain ⟨s', b'⟩ := w'
  unfold settlementExec
  cases hx : Settlement.exec o i w.1 with
  | error e => simp [Except.map]
  | ok p =>
      obtain ⟨r', t⟩ := p
      simp only [Except.map, Except.ok.injEq, Prod.mk.injEq]
      constructor
      · rintro ⟨rfl, rfl, rfl⟩
        exact ⟨⟨rfl, rfl⟩, rfl⟩
      · rintro ⟨⟨rfl, rfl⟩, rfl⟩
        exact ⟨rfl, rfl, rfl⟩

/-- What the transactions of both do. -/
def exec : (o : Op) → Settlement.Outside × Attribution.Outside → World →
    Except Raised (Res o × World) :=
  execPar settlementExec Attribution.exec

/-- A transaction of settlement. -/
abbrev settling (o : Settlement.Op) : Recover o.Res := (Prog.perform (.inl o) : Prog _ Res _)

/-- A transaction of attribution. -/
abbrev attributing (o : Attribution.Op) : Recover o.Res := (Prog.perform (.inr o) : Prog _ Res _)

/-- The order as the broker has it, if the broker can be reached. -/
def lookUp (orderId : String) : Recover (Option BrokerOrder) :=
  Prog.tryCatch
    (do
      let order ← attributing (.getOrder orderId)
      return some order)
    fun e => if e.cls = .alpaca then return none else Prog.fail e

/-- A pass of the processor, its summary left aside. -/
def processPending : Recover Unit :=
  ((Settlement.processPending {}).bind fun _ => .done ()).lift Sum.inl

/-- Finalize an intent from its order, if the order proves how it ended. -/
def finalize (intent : TradeIntent) (attributed : AttributedFills) (order : BrokerOrder) :
    Recover Unit :=
  if order.filledQty < attributed.quantity then attributing .sendAlert
  else if order.status.terminal ∧ order.filledQty ≤ attributed.quantity then
    match terminalStatusForOrder order.status attributed.quantity intent.requestedQuantity with
    | none => if order.status = .filled then attributing .sendAlert else return ()
    | some status => do
        let _ ← settling (.updateTradeIntent
          { intent with
            status := status
            filledQuantity := attributed.quantity
            filledAvgPrice := orPrice attributed.avgPrice intent.filledAvgPrice } none)
        processPending
  else if attributed.quantity ≠ intent.filledQuantity then do
    let _ ← settling (.updateTradeIntent
      { intent with
        filledQuantity := attributed.quantity
        filledAvgPrice := orPrice attributed.avgPrice intent.filledAvgPrice
        status := if 0 < attributed.quantity then .partiallyFilled else intent.status } none)
    return ()
  else return ()

/-- `resolve_order_from_broker`. -/
def resolveOrderFromBroker (intent : TradeIntent) : Recover AttributedFills :=
  match intent.brokerOrderId with
  | none => return { quantity := 0, avgPrice := none }
  | some orderId => do
      let attributed ← (attributeOrderFills intent true).lift Sum.inr
      if intent.status.terminal then return attributed
      else
        match ← lookUp orderId with
        | none => return attributed
        | some order => do
            finalize intent attributed order
            return attributed

end Recovery

end TradePulse
