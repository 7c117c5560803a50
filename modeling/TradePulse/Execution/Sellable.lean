/-
**The conservative bound on what may be sold** (`execution/sellable.py`).

The broker's reads are not atomic, so nothing here rebuilds one state of the broker.  The sells
that may still take something away are collected once each, and two bounds are computed from
them: one from the local lots, which reads no positions, and one from the broker's position.  The
smaller is authorized.

Main definitions:

* `sellsOf`, `orderQuantity` — the open sell orders of an instrument, and what such an order asks;
* `orderIdOf`, `memberOf`, `buildPendingSet` — the sells that count, each with its quantities;
* `computeSellable`, `sizeSell` — the two bounds, and what a request gets of them.

Main results:

* `buildPendingSet_ok`, `memberOf_ok` — the members are those of the counted intents and then the
  orders that none of these claims;
* `mem_unclaimed`, `nodup_unclaimed` — what these orders are;
* `computeSellable_ok` — the bounds.
-/

import TradePulse.Broker.Types
import TradePulse.Broker.Symbols
import TradePulse.Storage.OrderedDict
import TradePulse.Execution.Recovery
import Mathlib.Data.List.Sort

set_option autoImplicit false

namespace TradePulse

open Storage

/-- `a or None`: a blank text counts as none. -/
def truthy (s : Option String) : Option String := s.filter fun t => t != ""

theorem truthy_eq_some {s : Option String} {t : String} :
    truthy s = some t ↔ s = some t ∧ t ≠ "" := by
  cases s <;> simp [truthy, Option.filter]
  · grind

/-- `SellableEvidenceError`. -/
def sellableEvidenceError (reason : String) : Raised := ⟨.other, reason⟩

/-- A member of the set of pending sells.  Its key is the broker's order, or the intent before the
broker has one. -/
structure PendingSell where
  key : String
  originalQuantity : ℚ
  tradeIntentId : Option String
  approvedQuantity : Option ℚ
  settledQuantity : ℚ
  deriving DecidableEq

structure SellableInputs where
  brokerQuantity : ℚ
  localLongQuantity : ℚ
  pending : List PendingSell

structure SellableDecision where
  sellable : ℚ
  localBound : ℚ
  brokerBound : ℚ
  deriving DecidableEq

/-! ### The open orders -/

/-- `_order_quantity`: the quantity an order was placed for. -/
def orderQuantity (order : BrokerOrder) : Except Raised ℚ :=
  match order.qty with
  | none => .error (sellableEvidenceError "INVENTORY_EVIDENCE_INVALID")
  | some quantity =>
      if quantity ≤ 0 ∨ quantity < order.filledQty ∨ order.filledQty < 0 then
        .error (sellableEvidenceError "INVENTORY_EVIDENCE_INVALID")
      else .ok quantity

/-- An order that sells the instrument. -/
def sellOf (assetKey : String) (order : BrokerOrder) : Except Raised Bool :=
  if order.side = some .sell then (brokerSymbolAssetKey order.symbol).map fun key => key == assetKey
  else .ok false

/-- `_sells_of`: the orders that sell the instrument, under their ids. -/
def sellsOf (assetKey : String) (orders : List BrokerOrder) :
    Except Raised (OrderedDict String BrokerOrder) := do
  let sells ← orders.filterM (sellOf assetKey)
  return .ofList (sells.map fun order => (order.brokerOrderId, order))

/-- Two reads that agree on the orders, and on the status and the filled quantity of each. -/
def agree (first second : OrderedDict String BrokerOrder) : Bool :=
  (first.keys.all fun id => decide (id ∈ second.keys)) &&
  (second.keys.all fun id => decide (id ∈ first.keys)) &&
  first.entries.all fun e => (second.get? e.1).any fun order =>
    decide (order.status = e.2.status) && decide (order.filledQty = e.2.filledQty)

/-- The client's id of an order, blank where it has none. -/
def BrokerOrder.clientId (order : BrokerOrder) : String := order.clientOrderId.getD ""

/-- The orders under the client's ids; of several with one id the last counts. -/
def byClientId (opens : OrderedDict String BrokerOrder) : OrderedDict String String :=
  .ofList (opens.entries.map fun e => (e.2.clientId, e.1))

/-! ### The sells that count -/

/-- What of an intent is settled. -/
def settledOf (settled : OrderedDict String ℚ) (intent : TradeIntent) : ℚ :=
  (settled.get? intent.tradeIntentId).getD 0

/-- The intents that may still take something away: sells of the instrument that are not both over
and settled. -/
def counted (assetKey : String) (settled : OrderedDict String ℚ) (intents : List TradeIntent) :
    List TradeIntent :=
  intents.filter fun intent =>
    decide (intent.side = .sell) && decide (assetIdentityKey intent.asset = assetKey) &&
      !(intent.status.terminal && decide (intent.filledQuantity ≤ settledOf settled intent))

/-- The broker's order of an intent: the one it recorded, or else the open one with its client id.
Every reader takes a blank id for none. -/
def orderIdOf (opens : OrderedDict String BrokerOrder) (intent : TradeIntent) : Option String :=
  truthy ((truthy intent.brokerOrderId).or
    ((byClientId opens).get? (intent.clientOrderId.getD "")))

/-- The member that an intent is. -/
def memberOf (opens : OrderedDict String BrokerOrder) (quantities : OrderedDict String ℚ)
    (settled : OrderedDict String ℚ) (intent : TradeIntent) : Except Raised PendingSell :=
  match intent.requestedQuantity with
  | none => .error (sellableEvidenceError "INVENTORY_EVIDENCE_INVALID")
  | some requested =>
      if requested ≤ 0 then .error (sellableEvidenceError "INVENTORY_EVIDENCE_INVALID")
      else
        .ok
          { key := (orderIdOf opens intent).getD ("intent:" ++ intent.tradeIntentId)
            originalQuantity :=
              (quantities.get? ((orderIdOf opens intent).getD "")).getD requested
            tradeIntentId := some intent.tradeIntentId
            approvedQuantity := some requested
            settledQuantity := settledOf settled intent }

/-- The orders that no counted intent claims, in the order of their ids. -/
def unclaimed (opens : OrderedDict String BrokerOrder) (members : List TradeIntent) :
    List String :=
  (opens.keys.filter fun id =>
    decide (id ∉ members.map fun intent => (orderIdOf opens intent).getD "")).insertionSort (· ≤ ·)

/-- The member that an order without an intent is. -/
def foreignMember (quantities : OrderedDict String ℚ) (id : String) : PendingSell :=
  { key := id
    originalQuantity := (quantities.get? id).getD 0
    tradeIntentId := none
    approvedQuantity := none
    settledQuantity := 0 }

/-- `build_pending_set`. -/
def buildPendingSet (assetKey : String) (openOrders1 openOrders2 : List BrokerOrder)
    (intents : List TradeIntent) (settled : OrderedDict String ℚ) :
    Except Raised (List PendingSell) := do
  let first ← sellsOf assetKey openOrders1
  let second ← sellsOf assetKey openOrders2
  raiseIf (agree first second = false) (sellableEvidenceError "SELLABLE_SNAPSHOT_UNSTABLE")
  let quantities ← first.mapValues orderQuantity
  let sells := counted assetKey settled intents
  let members ← sells.mapM (memberOf first quantities settled)
  return members ++ (unclaimed first sells).map (foreignMember quantities)

/-! ### The two bounds -/

/-- What a member takes from the local bound. -/
def PendingSell.localQuantity (m : PendingSell) : ℚ :=
  match m.tradeIntentId, m.approvedQuantity with
  | some _, some approved => approved - m.settledQuantity
  | _, _ => m.originalQuantity

/-- `compute_sellable`. -/
def computeSellable (inputs : SellableInputs) : Except Raised SellableDecision :=
  if inputs.brokerQuantity < 0 ∨ inputs.localLongQuantity < 0 then
    .error (sellableEvidenceError "INVENTORY_EVIDENCE_INVALID")
  else
    let localBound := inputs.localLongQuantity - (inputs.pending.map PendingSell.localQuantity).sum
    let brokerBound :=
      inputs.brokerQuantity - (inputs.pending.map PendingSell.originalQuantity).sum
    .ok ⟨max 0 (min localBound brokerBound), localBound, brokerBound⟩

/-- `size_sell`: the quantity that a request gets, and the note on it. -/
def sizeSell (decision : SellableDecision) (requested : ℚ) (protective : Bool) :
    ℚ × Option String :=
  if decision.sellable ≤ 0 then (0, some "INSUFFICIENT_SELLABLE_QUANTITY")
  else if requested ≤ decision.sellable then (requested, none)
  else if protective then (decision.sellable, some "SELLABLE_BELOW_REQUESTED")
  else (0, some "INSUFFICIENT_SELLABLE_QUANTITY")

/-! ### What the functions return -/

section

variable {assetKey : String} {opens : OrderedDict String BrokerOrder}
variable {quantities settled : OrderedDict String ℚ} {intents sells : List TradeIntent}

theorem orderQuantity_ok {order : BrokerOrder} {q : ℚ} (h : orderQuantity order = .ok q) :
    order.qty = some q ∧ 0 < q ∧ 0 ≤ order.filledQty ∧ order.filledQty ≤ q := by
  unfold orderQuantity at h
  cases hq : order.qty with
  | none =>
      rw [hq] at h
      cases h
  | some quantity =>
      simp only [hq] at h
      split at h
      · cases h
      · rename_i hn
        cases h
        simp only [not_or, not_le, not_lt] at hn
        exact ⟨rfl, hn.1, hn.2.2, hn.2.1⟩

theorem get?_byClientId {client id : String} (h : (byClientId opens).get? client = some id) :
    ∃ order, opens.get? id = some order ∧ order.clientId = client := by
  obtain ⟨⟨id', order⟩, hmem, he⟩ := List.mem_map.1 (OrderedDict.mem_of_get?_ofList h)
  simp only [Prod.mk.injEq] at he
  obtain ⟨rfl, rfl⟩ := he
  exact ⟨order, OrderedDict.get?_eq_some_iff.2 hmem, rfl⟩

theorem mem_counted {intent : TradeIntent} :
    intent ∈ counted assetKey settled intents ↔
      intent ∈ intents ∧ intent.side = .sell ∧ assetIdentityKey intent.asset = assetKey ∧
        ¬ (intent.status.terminal = true ∧ intent.filledQuantity ≤ settledOf settled intent) := by
  cases hterm : intent.status.terminal <;> simp [counted, and_assoc, hterm]

theorem orderIdOf_ne_blank {intent : TradeIntent} : orderIdOf opens intent ≠ some "" := by
  intro h
  exact (truthy_eq_some.1 h).2 rfl

theorem memberOf_ok {intent : TradeIntent} {m : PendingSell}
    (h : memberOf opens quantities settled intent = .ok m) :
    ∃ requested, intent.requestedQuantity = some requested ∧ 0 < requested ∧
      m =
        { key := (orderIdOf opens intent).getD ("intent:" ++ intent.tradeIntentId)
          originalQuantity := (quantities.get? ((orderIdOf opens intent).getD "")).getD requested
          tradeIntentId := some intent.tradeIntentId
          approvedQuantity := some requested
          settledQuantity := settledOf settled intent } := by
  unfold memberOf at h
  cases hr : intent.requestedQuantity with
  | none =>
      rw [hr] at h
      cases h
  | some requested =>
      simp only [hr] at h
      split at h
      · cases h
      · rename_i hpos
        cases h
        exact ⟨requested, rfl, not_le.1 hpos, rfl⟩

theorem mem_unclaimed {id : String} :
    id ∈ unclaimed opens sells ↔
      id ∈ opens.keys ∧ ∀ intent ∈ sells, (orderIdOf opens intent).getD "" ≠ id := by
  simp [unclaimed, List.mem_insertionSort]

theorem nodup_unclaimed : (unclaimed opens sells).Nodup :=
  (List.perm_insertionSort _ _).nodup_iff.2 (opens.nodup_keys.filter _)

theorem buildPendingSet_ok {openOrders1 openOrders2 : List BrokerOrder} {pending : List PendingSell}
    (hopens : sellsOf assetKey openOrders1 = .ok opens)
    (h : buildPendingSet assetKey openOrders1 openOrders2 intents settled = .ok pending) :
    ∃ quantities members, opens.mapValues orderQuantity = .ok quantities ∧
      List.Forall₂ (fun intent m => memberOf opens quantities settled intent = .ok m)
        (counted assetKey settled intents) members ∧
      pending = members ++
        (unclaimed opens (counted assetKey settled intents)).map (foreignMember quantities) := by
  obtain ⟨first, hfirst, h⟩ := except_bind_eq_ok.1 h
  obtain rfl : opens = first := by simpa [hopens] using hfirst
  obtain ⟨second, _, h⟩ := except_bind_eq_ok.1 h
  obtain ⟨_, _, h⟩ := except_bind_eq_ok.1 h
  obtain ⟨quantities, hq, h⟩ := except_bind_eq_ok.1 h
  obtain ⟨members, hm, hret⟩ := except_bind_eq_ok.1 h
  cases hret
  exact ⟨quantities, members, hq, forall₂_of_mapM hm, rfl⟩

end

theorem computeSellable_ok {inputs : SellableInputs} {decision : SellableDecision}
    (h : computeSellable inputs = .ok decision) :
    decision.localBound =
        inputs.localLongQuantity - (inputs.pending.map PendingSell.localQuantity).sum ∧
      decision.brokerBound =
        inputs.brokerQuantity - (inputs.pending.map PendingSell.originalQuantity).sum ∧
      decision.sellable = max 0 (min decision.localBound decision.brokerBound) := by
  unfold computeSellable at h
  split at h
  · cases h
  · cases h
    exact ⟨rfl, rfl, rfl⟩

end TradePulse
