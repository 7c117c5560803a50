/-
**Runs of the settlement processor.**

Passes of the processor over the store, with the rest of the program around them: executions are
recorded with their settlement events, and the tables that settlement does not own change as they
may.  Passes run one after the other, as one supervisor starts them, or side by side, as the
`settle` command and the gateway's own call after a fill do.

Main definitions:

* `External`, `external` — what the rest of the program does;
* `system`, `sequential`, `concurrent` — passes one after the other, and side by side.
-/

import TradePulse.Settlement.PassRule

set_option autoImplicit false

namespace TradePulse

namespace Settlement

open Process Storage

/-- The event that is recorded for a fill: its facts are the fill's, and nothing is settled. -/
def EventOf (f : Fill) (e : SettlementEvent) : Prop :=
  e.fillId = f.fillId ∧ e.tradeIntentId = f.tradeIntentId ∧ e.asset = f.asset ∧ e.side = f.side ∧
    e.executionMode = f.executionMode ∧ e.quantity = f.quantity ∧ e.price = f.price ∧
    e.fees = f.fees ∧ e.occurredAt = f.filledAt ∧ e.brokerOrderId = some f.orderId ∧
    e.brokerFillId = f.brokerFillId ∧ e.status = .pending ∧ e.toSettlementProgress = {}

instance (f : Fill) (e : SettlementEvent) : Decidable (EventOf f e) :=
  inferInstanceAs (Decidable (_ ∧ _))

/-- What the rest of the program does to the store. -/
inductive External
  | recordFill (fill : Fill)
  | recordSettlement (event : SettlementEvent)
  /-- Change the tables that settlement does not own: holds, intents, attributions, the audit
  trail, the session. -/
  | elsewhere (t : Store)

def external : External → Store → Option Store
  | .recordFill fill, s => some { s with fills := s.fills.createOnce fill }
  | .recordSettlement event, s =>
      if (∃ f ∈ s.fills.rows, EventOf f event) ∧
          event.fillId.startsWith adoptionFillPrefix = false then
        some { s with settlements := s.settlements.createOnce event }
      else none
  | .elsewhere t, s =>
      some { t with
        settlements := s.settlements
        positionLots := s.positionLots
        shortExposureLiabilities := s.shortExposureLiabilities
        convertedLots := s.convertedLots
        fills := s.fills
        holdings := s.holdings
        cashLedger := s.cashLedger
        pnlRecords := s.pnlRecords }

theorem mem_settlements_of_external {t : External} {s s' : Store} (ht : external t s = some s') :
    ∀ e ∈ s.settlements, e ∈ s'.settlements := by
  intro e he
  cases t with
  | recordFill fill =>
      cases ht
      exact he
  | elsewhere t =>
      cases ht
      exact he
  | recordSettlement event =>
      simp only [external, Option.ite_none_right_eq_some] at ht
      cases ht.2
      exact Table.mem_createOnce_of_mem he

/-- Passes of the processor, and the rest of the program. -/
def system : System Store Outside Raised PassArgs External Op.Res where
  exec := exec
  call args := (processPending args).bind fun _ => .done ()
  env := external

/-- Passes one after the other. -/
def sequential : Machine (Solo Store Raised Op.Res) (Act Outside Raised PassArgs External) :=
  Solo.machine system

def concurrent : Machine (Pool Store Raised Op.Res) (Act Outside Raised PassArgs External) :=
  Pool.machine system

/-! ### Runs on given data -/

/-- The actions of a run. -/
abbrev Action := Act Outside Raised PassArgs External

/-- An execution of an order for shares. -/
def execution (id : String) (side : Side) (quantity price : ℚ) (filledAt : Instant) :
    Except Raised Fill :=
  Fill.make
    { fillId := id
      tradeIntentId := "intent-" ++ id
      orderId := "order-" ++ id
      asset := { symbol := "AAPL", assetClass := .equity, nativeAssetId := "alpaca:AAPL" }
      side := side
      executionMode := .paper
      quantity := quantity
      price := price
      fees := 0
      filledAt := filledAt
      brokerFillId := some id }

/-- The event of an execution, as it is recorded. -/
def recordedEvent (f : Fill) : Except Raised SettlementEvent :=
  SettlementEvent.make
    { settlementEventId := "settlement-" ++ f.fillId
      fillId := f.fillId
      tradeIntentId := f.tradeIntentId
      asset := f.asset
      side := f.side
      executionMode := f.executionMode
      quantity := f.quantity
      price := f.price
      fees := f.fees
      occurredAt := f.filledAt
      brokerOrderId := some f.orderId
      brokerFillId := f.brokerFillId }

/-- The intent that an execution belongs to. -/
def intentOf (f : Fill) : TradeIntent :=
  { tradeIntentId := f.tradeIntentId
    idempotencyKey := "key-" ++ f.fillId
    correlationId := "correlation-" ++ f.fillId
    asset := f.asset
    side := f.side
    executionMode := f.executionMode
    strategy := "momentum"
    createdAt := f.filledAt
    requestedQuantity := some f.quantity
    status := .submitted
    brokerOrderId := some f.orderId }

/-- The intents that some executions belong to are on record. -/
def ordered (fills : List (Except Raised Fill)) : Action :=
  .env (.elsewhere
    { tradeIntents := fills.foldl (fun t fill => match fill with
        | .ok f => t.createOnce (intentOf f)
        | .error _ => t) default })

/-- Record an execution and its event. -/
def arrival (fill : Except Raised Fill) : List Action :=
  match fill.bind fun f => (recordedEvent f).map fun e => (f, e) with
  | .ok (f, e) => [.env (.recordFill f), .env (.recordSettlement e)]
  | .error _ => []

/-- Let pass `j` perform `n` transactions. -/
def goOn (j n : ℕ) (i : Outside) : List Action := List.replicate n (.run j i)

theorem known_of_safe {σ : Type} {Γ : Setting σ Outside Raised Op.Res} {args : PassArgs}
    (h : Safe Γ (processPending args)) (s : σ) : Known Γ s (system.call args) :=
  ⟨fun _ => True, .const True, trivial, Sat.bind_of h fun _ _ _ _ => trivial⟩

end Settlement

end TradePulse
