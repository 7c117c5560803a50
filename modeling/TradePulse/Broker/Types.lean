/-
**What the broker reports** (`broker/types.py`).

The broker keeps orders, and a list of executions that only ever grows.  A listing of the
executions holds them in some order, each once: the client refuses a page with a missing or a
repeated identity.

Main definitions:

* `BrokerActivity`, `BrokerOrder` — an execution, and an order, as the broker reports it;
* `Broker`, `Broker.listing` — the broker, and what a listing of its executions may return.
-/

import TradePulse.Models.Market
import TradePulse.Storage.Table

set_option autoImplicit false

namespace TradePulse

open Storage

/-- An execution in the broker's list (`AlpacaActivity`).  Any of its fields may be missing. -/
structure BrokerActivity where
  activityId : String
  symbol : String
  side : Option Side
  qty : Option ℚ
  price : Option ℚ
  transactionTime : Option Instant
  /-- The order it belongs to (`raw["order_id"]`). -/
  orderId : String
  /-- The fee it reports, if any; none within where that is not a number. -/
  fee : Option (Option ℚ) := none
  deriving DecidableEq

instance : Record BrokerActivity where
  recordId a := a.activityId
  uniqueValue _ := none

/-- The status of an order in the broker's vocabulary: those this system tells apart, and any other
text (`accepted`, `pending_new`, …). -/
inductive OrderStatus
  | new | partiallyFilled | filled | doneForDay | rejected | canceled | expired | replaced
  | other (text : String)
  deriving DecidableEq

/-- An order (`AlpacaOrderResponse`, with what its raw data is asked for). -/
structure BrokerOrder where
  brokerOrderId : String
  status : OrderStatus
  symbol : String
  side : Option Side
  filledQty : ℚ := 0
  clientOrderId : Option String := none
  orderType : String := "market"
  timeInForce : String := "day"
  qty : Option ℚ := none
  notional : Option ℚ := none
  submittedAt : Option Instant := none
  deriving DecidableEq

instance : Record BrokerOrder where
  recordId o := o.brokerOrderId
  uniqueValue _ := none

/-- The broker. -/
structure Broker where
  activities : Table BrokerActivity := default
  orders : Table BrokerOrder := default

/-- The executions from an instant on. -/
def Broker.since (b : Broker) (t : Instant) : List BrokerActivity :=
  b.activities.rows.filter fun a => a.transactionTime.all fun time => decide (t ≤ time)

/-- A listing of the executions from an instant on, in the order the broker answers in. -/
def Broker.listing (b : Broker) (t : Instant) (answer : List BrokerActivity) :
    List BrokerActivity :=
  if answer.Perm (b.since t) then answer else b.since t

theorem Broker.listing_perm (b : Broker) (t : Instant) (answer : List BrokerActivity) :
    (b.listing t answer).Perm (b.since t) := by
  unfold Broker.listing
  split
  · assumption
  · exact List.Perm.refl _

/-- What the broker says is filled of an order. -/
def Broker.filled (b : Broker) (orderId : String) : ℚ :=
  (b.orders.get? orderId).elim 0 fun order => order.filledQty

/-- The broker after one of its orders has moved on; what is filled never becomes less. -/
def Broker.progress (b : Broker) (order : BrokerOrder) : Option Broker :=
  if b.filled order.brokerOrderId ≤ order.filledQty then
    some { b with orders := (b.orders.createOnce order).put order }
  else none

theorem Broker.filled_progress {b b' : Broker} {order : BrokerOrder}
    (h : b.progress order = some b') (id : String) : b.filled id ≤ b'.filled id := by
  unfold Broker.progress at h
  split at h
  · rename_i hle
    cases h
    simp only [Broker.filled]
    by_cases hid : id = order.brokerOrderId
    · have hmem : ∃ old ∈ b.orders.createOnce order, SameKeys old order := by
        by_cases ha : b.orders.Admits order
        · exact ⟨order, Table.mem_createOnce.2 (.inr ⟨ha, rfl⟩), rfl, rfl⟩
        · simp only [Table.Admits, not_forall] at ha
          obtain ⟨old, hold, hkey⟩ := ha
          refine ⟨old, Table.mem_createOnce_of_mem hold, ?_, rfl⟩
          by_contra hne
          exact hkey ⟨hne, .inl rfl⟩
      obtain ⟨old, hold, hkeys⟩ := hmem
      have hget := Table.get?_put_self hold hkeys
      rw [hid, show order.brokerOrderId = Record.recordId order from rfl, hget]
      exact hle
    · rw [Table.get?_put_of_ne hid, Table.get?_createOnce_of_ne hid]
  · cases h

end TradePulse
