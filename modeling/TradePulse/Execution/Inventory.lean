/-
**What is truly free to sell.**

One instrument as it really stands: what was bought and sold of it, what of that is settled and
what the broker's positions already show, and the sell orders that are still out, this system's own
and those somebody else placed.  Positions, orders, settlement and the intents lag each other, each
by any amount.

The local bound reads no positions.  Each own sell takes from it what it has settled (through the
lots) and, while it counts, what it may still take; each foreign order takes its full quantity, as
long as no intent claims it.  So what is sellable is at most what is free, and where an intent does
claim a foreign order, at most that order's quantity more.

Main definitions:

* `OwnSell`, `ForeignSell`, `Inventory` — the state of the instrument;
* `Inventory.held`, `Inventory.positions`, `Inventory.lots`, `Inventory.free` — what follows from it;
* `Consistent` — the reads and the records are of that state;
* `claimedQuantity` — the quantity of the foreign orders that intents claim.

Main results:

* `own_sum_le`, `foreign_sum_le` — what the sells take from the local bound;
* `sellable_le_free_add` — the bound in every consistent state;
* `sellable_le_free` — nothing that is not free is sellable where intents without ids claim nothing;
* `sellable_above_free` — an intent without ids makes more sellable than is free.
-/

import TradePulse.Execution.CountedOnce
import Mathlib.Data.List.Perm.Subperm
import Mathlib.Algebra.Order.BigOperators.Group.List
import Mathlib.Tactic.Linarith

set_option autoImplicit false

namespace TradePulse

open Storage

/-- A sell of this system. -/
structure OwnSell where
  intent : TradeIntent
  approved : ℚ
  /-- What the broker has filled. -/
  filled : ℚ
  settled : ℚ
  /-- What of the fills the positions show. -/
  reflected : ℚ
  live : Bool

/-- A sell order that somebody else placed, as it was read and as it stands. -/
structure ForeignSell where
  order : BrokerOrder
  quantity : ℚ
  filled : ℚ
  reflected : ℚ
  live : Bool

structure Inventory where
  bought : ℚ
  boughtSettled : ℚ
  boughtReflected : ℚ
  sells : List OwnSell
  foreign : List ForeignSell

/-- What an order may still sell. -/
def OwnSell.remainder (s : OwnSell) : ℚ := if s.live then s.approved - s.filled else 0

def ForeignSell.remainder (e : ForeignSell) : ℚ := if e.live then e.quantity - e.filled else 0

namespace Inventory

/-- The true long quantity. -/
def held (inv : Inventory) : ℚ :=
  inv.bought - (inv.sells.map OwnSell.filled).sum - (inv.foreign.map ForeignSell.filled).sum

/-- The long quantity that the positions show. -/
def positions (inv : Inventory) : ℚ :=
  inv.boughtReflected - (inv.sells.map OwnSell.reflected).sum -
    (inv.foreign.map ForeignSell.reflected).sum

/-- The long quantity of the local lots. -/
def lots (inv : Inventory) : ℚ := inv.boughtSettled - (inv.sells.map OwnSell.settled).sum

/-- What is held and no outstanding order may still take. -/
def free (inv : Inventory) : ℚ :=
  inv.held - ((inv.sells.map OwnSell.remainder).sum + (inv.foreign.map ForeignSell.remainder).sum)

/-- The intents of the own sells. -/
def intents (inv : Inventory) : List TradeIntent := inv.sells.map OwnSell.intent

end Inventory

/-- The open orders that were read, the intents and what is settled of them are those of the
inventory. -/
structure Consistent (assetKey : String) (opens : OrderedDict String BrokerOrder)
    (settled : OrderedDict String ℚ) (inv : Inventory) : Prop where
  bought : inv.boughtSettled ≤ inv.bought ∧ inv.boughtReflected ≤ inv.bought
  /-- A sell settles after it filled, and within what was approved. -/
  quantities : ∀ s ∈ inv.sells, 0 ≤ s.settled ∧ s.settled ≤ s.filled ∧ s.filled ≤ s.approved ∧
    0 ≤ s.reflected ∧ s.reflected ≤ s.filled
  recorded : ∀ s ∈ inv.sells, s.intent.side = .sell ∧ assetIdentityKey s.intent.asset = assetKey ∧
    s.intent.requestedQuantity = some s.approved ∧ settledOf settled s.intent = s.settled
  /-- An intent is over only after its order is; its order may be over before. -/
  terminal : ∀ s ∈ inv.sells, s.intent.status.terminal = true →
    s.live = false ∧ s.intent.filledQuantity = s.filled
  /-- A foreign order was read, and has filled since then if at all. -/
  read : ∀ e ∈ inv.foreign, opens.get? e.order.brokerOrderId = some e.order ∧
    Foreign assetKey inv.intents e.order.brokerOrderId e.order ∧ e.order.qty = some e.quantity ∧
    e.order.filledQty ≤ e.filled ∧ e.filled ≤ e.quantity ∧ 0 ≤ e.reflected ∧ e.reflected ≤ e.filled
  distinct : (inv.foreign.map fun e => e.order.brokerOrderId).Nodup
  /-- Every other order that was read has its intent. -/
  complete : ∀ id order, opens.get? id = some order →
    (∃ e ∈ inv.foreign, e.order.brokerOrderId = id) ∨ ¬ Foreign assetKey inv.intents id order

/-- The foreign orders that some counted intent claims. -/
def claimedForeign (assetKey : String) (opens : OrderedDict String BrokerOrder)
    (settled : OrderedDict String ℚ) (inv : Inventory) : List ForeignSell :=
  inv.foreign.filter fun e => decide (e.order.brokerOrderId ∈
    (counted assetKey settled inv.intents).map fun i => (orderIdOf opens i).getD "")

def claimedQuantity (assetKey : String) (opens : OrderedDict String BrokerOrder)
    (settled : OrderedDict String ℚ) (inv : Inventory) : ℚ :=
  ((claimedForeign assetKey opens settled inv).map ForeignSell.quantity).sum

/-! ### What the sells take -/

variable {assetKey : String} {opens : OrderedDict String BrokerOrder}
variable {quantities settled : OrderedDict String ℚ} {inv : Inventory}

/-- What an intent may still take. -/
def reserved (settled : OrderedDict String ℚ) (intent : TradeIntent) : ℚ :=
  intent.requestedQuantity.getD 0 - settledOf settled intent

theorem sum_localQuantity {intents : List TradeIntent} {members : List PendingSell}
    (h : List.Forall₂ (fun i m => memberOf opens quantities settled i = .ok m) intents members) :
    (members.map PendingSell.localQuantity).sum = (intents.map (reserved settled)).sum := by
  induction h with
  | nil => rfl
  | cons hm _ ih =>
      obtain ⟨requested, hreq, _, rfl⟩ := memberOf_ok hm
      rw [List.map_cons, List.sum_cons, List.map_cons, List.sum_cons, ih]
      simp [PendingSell.localQuantity, reserved, hreq]

/-- What the own sells have filled and may still fill is settled or reserved. -/
theorem own_sum_le {sells : List OwnSell}
    (hq : ∀ s ∈ sells, s.settled ≤ s.filled ∧ s.filled ≤ s.approved)
    (hr : ∀ s ∈ sells, s.intent.side = .sell ∧ assetIdentityKey s.intent.asset = assetKey ∧
      s.intent.requestedQuantity = some s.approved ∧ settledOf settled s.intent = s.settled)
    (ht : ∀ s ∈ sells, s.intent.status.terminal = true →
      s.live = false ∧ s.intent.filledQuantity = s.filled) :
    (sells.map OwnSell.filled).sum + (sells.map OwnSell.remainder).sum ≤
      (sells.map OwnSell.settled).sum +
        ((counted assetKey settled (sells.map OwnSell.intent)).map (reserved settled)).sum := by
  induction sells with
  | nil => simp [counted]
  | cons s sells ih =>
      obtain ⟨hside, hasset, hreq, hset⟩ := hr s List.mem_cons_self
      obtain ⟨hsf, hfa⟩ := hq s List.mem_cons_self
      have hrest := ih (fun t h => hq t (List.mem_cons_of_mem s h))
        (fun t h => hr t (List.mem_cons_of_mem s h)) fun t h => ht t (List.mem_cons_of_mem s h)
      have hrem : s.filled + s.remainder ≤ s.approved := by
        unfold OwnSell.remainder
        split <;> linarith
      rw [List.map_cons, List.sum_cons, List.map_cons, List.sum_cons, List.map_cons, List.sum_cons,
        List.map_cons]
      by_cases hover : s.intent.status.terminal = true ∧ s.intent.filledQuantity ≤ s.settled
      · -- over and settled: the order is not out any more, and all its fills are settled
        obtain ⟨hlive, hfilled⟩ := ht s List.mem_cons_self hover.1
        have hcount : counted assetKey settled (s.intent :: sells.map OwnSell.intent) =
            counted assetKey settled (sells.map OwnSell.intent) := by
          simp [counted, hover.1, hover.2, hset]
        have hzero : s.remainder = 0 := by simp [OwnSell.remainder, hlive]
        rw [hcount]
        linarith [hover.2]
      · have hcount : counted assetKey settled (s.intent :: sells.map OwnSell.intent) =
            s.intent :: counted assetKey settled (sells.map OwnSell.intent) := by
          have hmem : s.intent ∈ counted assetKey settled [s.intent] :=
            mem_counted.2 ⟨List.mem_singleton_self _, hside, hasset, hset ▸ hover⟩
          exact List.filter_cons_of_pos (List.mem_filter.1 hmem).2
        rw [hcount, List.map_cons, List.sum_cons]
        have hres : reserved settled s.intent = s.approved - s.settled := by
          simp [reserved, hreq, hset]
        linarith

theorem sum_map_le_of_subset {l u : List String} {f : String → ℚ} (hl : l.Nodup) (hsub : l ⊆ u)
    (hf : ∀ x ∈ u, 0 ≤ f x) : (l.map f).sum ≤ (u.map f).sum := by
  obtain ⟨m, hperm, hsublist⟩ := hl.subperm hsub
  rw [← (hperm.map f).sum_eq]
  refine (hsublist.map f).sum_le_sum fun q hq => ?_
  obtain ⟨x, hx, rfl⟩ := List.mem_map.1 hq
  exact hf x hx

/-- The foreign orders that nobody claims are among the members. -/
theorem foreign_sum_le (hq : opens.mapValues orderQuantity = .ok quantities)
    (hcons : Consistent assetKey opens settled inv) :
    (inv.foreign.map ForeignSell.filled).sum + (inv.foreign.map ForeignSell.remainder).sum ≤
      (((unclaimed opens (counted assetKey settled inv.intents)).map
        (foreignMember quantities)).map PendingSell.localQuantity).sum +
        claimedQuantity assetKey opens settled inv := by
  have hpoint : (inv.foreign.map ForeignSell.filled).sum +
      (inv.foreign.map ForeignSell.remainder).sum ≤ (inv.foreign.map ForeignSell.quantity).sum := by
    rw [← List.sum_map_add]
    refine List.sum_le_sum fun e he => ?_
    obtain ⟨_, _, _, _, hle, _⟩ := hcons.read e he
    unfold ForeignSell.remainder
    split <;> linarith
  -- those that are claimed, and the others
  let claimed : ForeignSell → Bool := fun e => decide (e.order.brokerOrderId ∈
    (counted assetKey settled inv.intents).map fun i => (orderIdOf opens i).getD "")
  have hsplit : (inv.foreign.map ForeignSell.quantity).sum =
      claimedQuantity assetKey opens settled inv +
        ((inv.foreign.filter fun e => !claimed e).map ForeignSell.quantity).sum := by
    rw [← ((List.filter_append_perm claimed inv.foreign).map ForeignSell.quantity).sum_eq,
      List.map_append, List.sum_append]
    rfl
  have hquantity : ∀ e ∈ inv.foreign, e.quantity =
      (foreignMember quantities e.order.brokerOrderId).localQuantity := by
    intro e he
    obtain ⟨hget, _, hqty, _⟩ := hcons.read e he
    obtain ⟨hloc, _⟩ := foreignMember_quantity hq hget
    exact Option.some.inj (hqty.symm.trans hloc)
  have hothers : ((inv.foreign.filter fun e => !claimed e).map ForeignSell.quantity).sum ≤
      ((unclaimed opens (counted assetKey settled inv.intents)).map
        fun id => (foreignMember quantities id).localQuantity).sum := by
    have hmap : (inv.foreign.filter fun e => !claimed e).map ForeignSell.quantity =
        ((inv.foreign.filter fun e => !claimed e).map fun e => e.order.brokerOrderId).map
          fun id => (foreignMember quantities id).localQuantity := by
      rw [List.map_map]
      exact List.map_congr_left fun e he => hquantity e (List.mem_of_mem_filter he)
    rw [hmap]
    refine sum_map_le_of_subset ((List.filter_sublist.map _).nodup hcons.distinct) ?_ ?_
    · intro id hid
      obtain ⟨e, he, rfl⟩ := List.mem_map.1 hid
      obtain ⟨he, hun⟩ := List.mem_filter.1 he
      refine mem_unclaimed.2 ⟨OrderedDict.isSome_get?.1 (by simp [(hcons.read e he).1]), ?_⟩
      intro i hi hid
      have hno : e.order.brokerOrderId ∉
          (counted assetKey settled inv.intents).map fun i => (orderIdOf opens i).getD "" := by
        simpa [claimed] using hun
      exact hno (List.mem_map.2 ⟨i, hi, hid⟩)
    · intro id hid
      obtain ⟨order, hget⟩ := Option.isSome_iff_exists.1
        (OrderedDict.isSome_get?.2 (mem_unclaimed.1 hid).1)
      obtain ⟨q, hqid, _⟩ := quantity_of_open hq hget
      obtain ⟨_, _, hok⟩ := (OrderedDict.get?_mapValues hq).1 hqid
      have hlocal : (foreignMember quantities id).localQuantity = q := by
        simp [foreignMember, PendingSell.localQuantity, hqid]
      rw [hlocal]
      exact (orderQuantity_ok hok).2.1.le
  rw [List.map_map]
  have hcomp : ((unclaimed opens (counted assetKey settled inv.intents)).map
      (PendingSell.localQuantity ∘ foreignMember quantities)).sum =
        ((unclaimed opens (counted assetKey settled inv.intents)).map
          fun id => (foreignMember quantities id).localQuantity).sum := rfl
  rw [hcomp]
  linarith

/-! ### The bound -/

/-- What is sellable is free, up to the foreign orders that intents claim. -/
theorem sellable_le_free_add {openOrders1 openOrders2 : List BrokerOrder}
    {pending : List PendingSell} {decision : SellableDecision}
    (hopens : sellsOf assetKey openOrders1 = .ok opens)
    (hcons : Consistent assetKey opens settled inv)
    (hpending : buildPendingSet assetKey openOrders1 openOrders2 inv.intents settled = .ok pending)
    (hdecision : computeSellable ⟨inv.positions, inv.lots, pending⟩ = .ok decision) :
    decision.sellable ≤ max 0 (inv.free + claimedQuantity assetKey opens settled inv) := by
  obtain ⟨quantities, members, hq, hm, rfl⟩ := buildPendingSet_ok hopens hpending
  obtain ⟨hlocal, _, hsell⟩ := computeSellable_ok hdecision
  have hown := own_sum_le (fun s hs => ⟨(hcons.quantities s hs).2.1, (hcons.quantities s hs).2.2.1⟩)
    hcons.recorded hcons.terminal
  have hforeign := foreign_sum_le hq hcons
  have hbound : decision.localBound ≤ inv.free + claimedQuantity assetKey opens settled inv := by
    rw [hlocal]
    simp only [List.map_append, List.sum_append, sum_localQuantity hm, Inventory.lots,
      Inventory.free, Inventory.held]
    have hintents : inv.intents = inv.sells.map OwnSell.intent := rfl
    rw [hintents] at hforeign ⊢
    linarith [hcons.bought.1]
  rw [hsell]
  exact max_le_max le_rfl ((min_le_left _ _).trans hbound)

/-- Where an intent without ids is counted, no foreign order is the one that the blank id finds; and
where an intent without an order is, no foreign order has a blank id itself. -/
structure NothingClaimed (assetKey : String) (opens : OrderedDict String BrokerOrder)
    (settled : OrderedDict String ℚ) (inv : Inventory) : Prop where
  named : ∀ i ∈ counted assetKey settled inv.intents, Nameless i → ∀ e ∈ inv.foreign,
    (byClientId opens).get? "" ≠ some e.order.brokerOrderId
  proper : ∀ i ∈ counted assetKey settled inv.intents, orderIdOf opens i = none →
    ∀ e ∈ inv.foreign, e.order.brokerOrderId ≠ ""

theorem claimedForeign_eq_nil (hcons : Consistent assetKey opens settled inv)
    (h : NothingClaimed assetKey opens settled inv) :
    claimedForeign assetKey opens settled inv = [] := by
  refine List.filter_eq_nil_iff.2 fun e he hclaimed => ?_
  obtain ⟨hget, hforeign, _⟩ := hcons.read e he
  have hun := foreign_unclaimed hget hforeign (fun i hi hname => h.named i hi hname e he)
    fun i hi hnone => h.proper i hi hnone e he
  obtain ⟨i, hi, hid⟩ := List.mem_map.1 (of_decide_eq_true hclaimed)
  exact (mem_unclaimed.1 hun).2 i hi hid

/-- What is sellable is free, in every state in which no intent without ids claims a foreign
order. -/
theorem sellable_le_free {openOrders1 openOrders2 : List BrokerOrder}
    {pending : List PendingSell} {decision : SellableDecision}
    (hopens : sellsOf assetKey openOrders1 = .ok opens)
    (hcons : Consistent assetKey opens settled inv)
    (hpending : buildPendingSet assetKey openOrders1 openOrders2 inv.intents settled = .ok pending)
    (hdecision : computeSellable ⟨inv.positions, inv.lots, pending⟩ = .ok decision)
    (hclaimed : NothingClaimed assetKey opens settled inv) :
    decision.sellable ≤ max 0 inv.free := by
  have h := sellable_le_free_add hopens hcons hpending hdecision
  have hzero : claimedQuantity assetKey opens settled inv = 0 := by
    simp [claimedQuantity, claimedForeign_eq_nil hcons hclaimed]
  rwa [hzero, add_zero] at h

/-! ### An intent without ids beside a lagging position -/

/-- A sell that is over and settled. -/
def settledSell : TradeIntent :=
  { tradeIntentId := "i1", idempotencyKey := "k1", correlationId := "c", asset := appleShares,
    side := .sell, executionMode := .paper, strategy := "monitor_exit", createdAt := 0,
    requestedQuantity := some 4, status := .filled, filledQuantity := 4,
    brokerOrderId := some "o1", clientOrderId := some "i1" }

/-- Somebody else's order, with the client id that it was given. -/
def foreignSellOf (client : Option String) : BrokerOrder :=
  { foreignSell with clientOrderId := client }

/-- Ten held: fourteen bought and four sold, which the positions do not show yet.  One more sell of
two is approved, and somebody else's order for six is out. -/
def laggingInventory (client : Option String) : Inventory :=
  { bought := 14
    boughtSettled := 14
    boughtReflected := 14
    sells :=
      [ { intent := settledSell, approved := 4, filled := 4, settled := 4, reflected := 0,
          live := false },
        { intent := approvedSell, approved := 2, filled := 0, settled := 0, reflected := 0,
          live := false } ]
    foreign :=
      [ { order := foreignSellOf client, quantity := 6, filled := 0, reflected := 0,
          live := true } ] }

def settledFour : OrderedDict String ℚ := .ofList [("i1", 4)]

def openForeign (client : Option String) : OrderedDict String BrokerOrder :=
  .ofList [("x2", foreignSellOf client)]

theorem laggingInventory_consistent {client : Option String} (h : client ≠ some "i1") :
    Consistent appleKey (openForeign client) settledFour (laggingInventory client) where
  bought := by constructor <;> norm_num [laggingInventory]
  quantities := by
    intro s hs
    simp only [laggingInventory, List.mem_cons, List.not_mem_nil, or_false] at hs
    rcases hs with rfl | rfl <;> norm_num
  recorded := by
    intro s hs
    simp only [laggingInventory, List.mem_cons, List.not_mem_nil, or_false] at hs
    rcases hs with rfl | rfl <;> decide +kernel
  terminal := by
    intro s hs
    simp only [laggingInventory, List.mem_cons, List.not_mem_nil, or_false] at hs
    rcases hs with rfl | rfl <;> decide
  read := by
    intro e he
    simp only [laggingInventory, List.mem_cons, List.not_mem_nil, or_false] at he
    subst he
    refine ⟨rfl, ?_, rfl, by norm_num [foreignSellOf, foreignSell], by norm_num⟩
    intro intent hintent _ _
    simp only [Inventory.intents, laggingInventory, List.map_cons, List.map_nil, List.mem_cons,
      List.not_mem_nil, or_false] at hintent
    rcases hintent with rfl | rfl
    · refine ⟨by simp [settledSell, foreignSellOf, foreignSell], fun hne heq => ?_⟩
      cases client with
      | none => exact hne rfl
      | some c => exact h heq.symm
    · exact ⟨by simp [approvedSell], fun _ heq => by cases heq⟩
  distinct := by simp [laggingInventory]
  complete := by
    intro id order hget
    have hmem := OrderedDict.mem_of_get?_ofList hget
    simp only [List.mem_singleton, Prod.mk.injEq] at hmem
    obtain ⟨rfl, rfl⟩ := hmem
    exact .inl ⟨_, List.mem_singleton_self _, rfl⟩

/-- Without a client id the foreign order is claimed, and eight are sellable where four are free. -/
theorem sellable_above_free :
    ¬ ∀ assetKey openOrders1 openOrders2 opens settled inv pending decision,
      sellsOf assetKey openOrders1 = .ok opens →
      Consistent assetKey opens settled inv →
      buildPendingSet assetKey openOrders1 openOrders2 inv.intents settled = .ok pending →
      computeSellable ⟨inv.positions, inv.lots, pending⟩ = .ok decision →
        decision.sellable ≤ max 0 inv.free := by
  intro h
  have hsell := h appleKey [foreignSellOf none] [foreignSellOf none] (openForeign none)
    settledFour (laggingInventory none) [swallowed] ⟨8, 8, 8⟩ (by decide +kernel)
    (laggingInventory_consistent (by decide)) (by decide +kernel) (by decide +kernel)
  exact absurd hsell (by decide +kernel)

/-- With a client id it is a member of its own, and two are sellable. -/
theorem sellable_le_free_named : (2 : ℚ) ≤ max 0 (laggingInventory (some "web")).free := by
  have hopens : sellsOf appleKey [foreignSellOf (some "web")] = .ok (openForeign (some "web")) := by
    decide +kernel
  have hpending : buildPendingSet appleKey [foreignSellOf (some "web")]
      [foreignSellOf (some "web")] (laggingInventory (some "web")).intents settledFour =
        .ok [ { swallowed with key := "intent:i2", originalQuantity := 2 },
          foreignMember (.ofList [("x2", 6)]) "x2" ] := by
    decide +kernel
  have hdecision : computeSellable ⟨(laggingInventory (some "web")).positions,
      (laggingInventory (some "web")).lots,
      [ { swallowed with key := "intent:i2", originalQuantity := 2 },
        foreignMember (.ofList [("x2", 6)]) "x2" ]⟩ = .ok ⟨2, 2, 6⟩ := by
    decide +kernel
  refine sellable_le_free hopens (laggingInventory_consistent (by decide)) hpending hdecision
    { named := fun i _ _ e he => ?_
      proper := fun i _ _ e he => ?_ }
  · obtain rfl := List.mem_singleton.1 he
    decide +kernel
  · obtain rfl := List.mem_singleton.1 he
    decide

end TradePulse
