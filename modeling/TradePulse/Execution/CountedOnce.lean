/-
**Every order counts exactly once.**

An open order and the intent it was placed for are one member of the set of pending sells.  They
are matched through two ids, either of which may be missing, and a missing client id is looked up
as a blank one.  So an intent that has neither id finds the last order that was read without a
client id, whoever placed that one, and claims it.  This module says exactly when every order and
every intent counts once.

Main definitions:

* `Foreign` — an order that belongs to no intent;
* `CountedOnce` — every open order and every counted intent is one member, with its quantities;
* `Unambiguous` — the condition.

Main results:

* `key_of_one_iff` — when every open order is the key of one member;
* `foreign_claimed` — an intent claims a foreign order only by the blank id;
* `counted_once_iff` — `CountedOnce` holds of a set that was built if and only if the reads and the
  intents are unambiguous;
* `foreign_order_claimed` — an intent without ids claims a foreign order without a client id, which
  is then no member of its own.
-/

import TradePulse.Execution.Sellable

set_option autoImplicit false

namespace TradePulse

open Storage

variable {assetKey : String} {opens : OrderedDict String BrokerOrder}
variable {quantities settled : OrderedDict String ℚ} {intents sells : List TradeIntent}

/-- The key of the member that an intent is. -/
def memberKey (opens : OrderedDict String BrokerOrder) (intent : TradeIntent) : String :=
  (orderIdOf opens intent).getD ("intent:" ++ intent.tradeIntentId)

theorem intentKey_ne_blank (id : String) : "intent:" ++ id ≠ "" := by
  intro h
  have hlen := congrArg String.length h
  simp at hlen

theorem memberKey_ne_blank {intent : TradeIntent} : memberKey opens intent ≠ "" := by
  unfold memberKey
  cases ho : orderIdOf opens intent with
  | none => exact intentKey_ne_blank _
  | some id =>
      intro h
      exact orderIdOf_ne_blank (ho.trans (congrArg some h))

/-- An order that belongs to no intent that sells the instrument: neither its own id nor its client
id, where it has one, is such an intent's. -/
def Foreign (assetKey : String) (intents : List TradeIntent) (id : String) (order : BrokerOrder) :
    Prop :=
  ∀ intent ∈ intents, intent.side = .sell → assetIdentityKey intent.asset = assetKey →
    intent.brokerOrderId ≠ some id ∧
      (order.clientId ≠ "" → intent.clientOrderId ≠ some order.clientId)

/-- An intent without an id of either kind. -/
def Nameless (intent : TradeIntent) : Prop :=
  truthy intent.brokerOrderId = none ∧ intent.clientOrderId.getD "" = ""

/-- Every open order and every counted intent is one member, with its quantities. -/
structure CountedOnce (assetKey : String) (opens : OrderedDict String BrokerOrder)
    (intents : List TradeIntent) (settled : OrderedDict String ℚ) (pending : List PendingSell) :
    Prop where
  /-- Every open order is the key of exactly one member. -/
  orders : ∀ id ∈ opens.keys, pending.countP (fun m => m.key = id) = 1
  /-- A foreign order is a member without an intent, and takes its full quantity from both
  bounds. -/
  foreign : ∀ id order, opens.get? id = some order → Foreign assetKey intents id order →
    ∃ m ∈ pending, m.key = id ∧ m.tradeIntentId = none ∧
      order.qty = some m.localQuantity ∧ order.qty = some m.originalQuantity
  /-- The members with an intent are the counted intents, one each. -/
  intents : List.Forall₂
    (fun intent m => m.tradeIntentId = some intent.tradeIntentId ∧
      ∃ approved, intent.requestedQuantity = some approved ∧
        m.localQuantity = approved - settledOf settled intent ∧ approved ≤ m.originalQuantity)
    (counted assetKey settled intents) (pending.filter fun m => m.tradeIntentId.isSome)

/-- No two intents claim one order, nor one intent an order that is not its own. -/
structure Unambiguous (assetKey : String) (opens : OrderedDict String BrokerOrder)
    (intents : List TradeIntent) (settled : OrderedDict String ℚ) : Prop where
  /-- Two counted intents are never matched to one open order. -/
  single : ∀ id ∈ opens.keys,
    (counted assetKey settled intents).countP (fun i => orderIdOf opens i = some id) ≤ 1
  /-- Where a counted intent has no order, no open order has a blank id or that intent's key. -/
  fresh : ∀ i ∈ counted assetKey settled intents, orderIdOf opens i = none →
    "" ∉ opens.keys ∧ "intent:" ++ i.tradeIntentId ∉ opens.keys
  /-- Where a counted intent has no id at all, the order that the blank id finds is not foreign. -/
  named : ∀ i ∈ counted assetKey settled intents, Nameless i →
    ∀ id order, (byClientId opens).get? "" = some id → opens.get? id = some order →
      ¬ Foreign assetKey intents id order
  /-- An intent's open order was placed for no less than was approved. -/
  covered : ∀ i ∈ counted assetKey settled intents, ∀ id order, orderIdOf opens i = some id →
    opens.get? id = some order →
      ∀ approved ∈ i.requestedQuantity, ∀ q ∈ order.qty, approved ≤ q

/-! ### The keys -/

theorem countP_members {members : List PendingSell}
    (h : List.Forall₂ (fun i m => memberOf opens quantities settled i = .ok m) sells members)
    (id : String) :
    members.countP (fun m => m.key = id) = sells.countP (fun i => memberKey opens i = id) := by
  induction h with
  | nil => rfl
  | cons hm _ ih =>
      obtain ⟨requested, _, _, rfl⟩ := memberOf_ok hm
      rw [List.countP_cons, List.countP_cons, ih]
      rfl

theorem countP_foreign (id : String) :
    ((unclaimed opens sells).map (foreignMember quantities)).countP (fun m => m.key = id) =
      if id ∈ unclaimed opens sells then 1 else 0 := by
  have hcount : ((unclaimed opens sells).map (foreignMember quantities)).countP
      (fun m => m.key = id) = (unclaimed opens sells).count id := by
    rw [List.countP_map, List.count]
    refine List.countP_congr fun a _ => ?_
    show decide (a = id) = true ↔ (a == id) = true
    rw [decide_eq_true_eq, beq_iff_eq]
  rw [hcount]
  split
  · rename_i h
    exact List.count_eq_one_of_mem nodup_unclaimed h
  · rename_i h
    exact List.count_eq_zero_of_not_mem h

/-- When every open order is the key of one member. -/
theorem key_of_one_iff :
    (∀ id ∈ opens.keys, sells.countP (fun i => memberKey opens i = id) +
        (if id ∈ unclaimed opens sells then 1 else 0) = 1) ↔
      (∀ id ∈ opens.keys, sells.countP (fun i => orderIdOf opens i = some id) ≤ 1) ∧
        ∀ i ∈ sells, orderIdOf opens i = none →
          "" ∉ opens.keys ∧ "intent:" ++ i.tradeIntentId ∉ opens.keys := by
  constructor
  · intro h
    refine ⟨fun id hid => ?_, fun i hi hnone => ⟨fun hblank => ?_, fun hkey => ?_⟩⟩
    · have hle : sells.countP (fun i => orderIdOf opens i = some id) ≤
          sells.countP (fun i => memberKey opens i = id) := by
        refine List.countP_mono_left fun i _ hi => ?_
        simp only [decide_eq_true_eq] at hi ⊢
        simp [memberKey, hi]
      have := h id hid
      omega
    · -- a blank id is claimed by an intent without an order, and is no member's key
      have hun : "" ∉ unclaimed opens sells := fun hmem =>
        (mem_unclaimed.1 hmem).2 i hi (by simp [hnone])
      have hzero : sells.countP (fun i => memberKey opens i = "") = 0 := by
        simp [memberKey_ne_blank]
      have := h "" hblank
      rw [hzero, if_neg hun] at this
      omega
    · have hone := h _ hkey
      have hi1 : memberKey opens i = "intent:" ++ i.tradeIntentId := by simp [memberKey, hnone]
      by_cases hun : "intent:" ++ i.tradeIntentId ∈ unclaimed opens sells
      · have hpos : 0 < sells.countP
            (fun j => memberKey opens j = "intent:" ++ i.tradeIntentId) :=
          List.countP_pos_iff.2 ⟨i, hi, by simpa using hi1⟩
        rw [if_pos hun] at hone
        omega
      · -- another intent claims that order, so its key stands twice
        have hclaim : ∃ j ∈ sells, orderIdOf opens j = some ("intent:" ++ i.tradeIntentId) := by
          simp only [mem_unclaimed, hkey, true_and, not_forall, not_not] at hun
          obtain ⟨j, hj, hj'⟩ := hun
          refine ⟨j, hj, ?_⟩
          cases ho : orderIdOf opens j with
          | none =>
              rw [ho] at hj'
              exact absurd hj'.symm (intentKey_ne_blank _)
          | some id =>
              rw [ho] at hj'
              exact congrArg some hj'
        obtain ⟨j, hj, hjid⟩ := hclaim
        rw [List.countP_eq_countP_filter_add _ _ fun x =>
          decide (orderIdOf opens x = some ("intent:" ++ i.tradeIntentId))] at hone
        have h1 : 0 < (sells.filter fun x =>
            decide (orderIdOf opens x = some ("intent:" ++ i.tradeIntentId))).countP
              (fun x => memberKey opens x = "intent:" ++ i.tradeIntentId) :=
          List.countP_pos_iff.2 ⟨j, List.mem_filter.2 ⟨hj, by simpa using hjid⟩, by
            simp [memberKey, hjid]⟩
        have h2 : 0 < (sells.filter fun x =>
            !decide (orderIdOf opens x = some ("intent:" ++ i.tradeIntentId))).countP
              (fun x => memberKey opens x = "intent:" ++ i.tradeIntentId) :=
          List.countP_pos_iff.2 ⟨i, List.mem_filter.2 ⟨hi, by simp [hnone]⟩, by simpa using hi1⟩
        omega
  · rintro ⟨hsingle, hfresh⟩ id hid
    have hkey : ∀ i ∈ sells, memberKey opens i = id ↔ orderIdOf opens i = some id := by
      intro i hi
      unfold memberKey
      cases ho : orderIdOf opens i with
      | none =>
          simp only [Option.getD_none, reduceCtorEq, iff_false]
          rintro rfl
          exact (hfresh i hi ho).2 hid
      | some id' => simp
    have hcount : sells.countP (fun i => memberKey opens i = id) =
        sells.countP (fun i => orderIdOf opens i = some id) :=
      List.countP_congr fun i hi => by simpa using hkey i hi
    have hle := hsingle id hid
    rw [hcount]
    split
    · rename_i hun
      have hzero : sells.countP (fun i => orderIdOf opens i = some id) = 0 := by
        refine List.countP_eq_zero.2 fun i hi ho => ?_
        exact (mem_unclaimed.1 hun).2 i hi (by simp_all)
      omega
    · rename_i hun
      simp only [mem_unclaimed, hid, true_and, not_forall, not_not] at hun
      obtain ⟨i, hi, hid'⟩ := hun
      have hpos : 0 < sells.countP (fun i => orderIdOf opens i = some id) := by
        refine List.countP_pos_iff.2 ⟨i, hi, ?_⟩
        cases ho : orderIdOf opens i with
        | none =>
            rw [ho] at hid'
            obtain rfl : "" = id := hid'
            exact absurd hid (hfresh i hi ho).1
        | some id' => simpa [ho] using hid'
      omega

/-! ### The orders without an intent -/

/-- An intent claims a foreign order only where it has no id, by the blank one. -/
theorem foreign_claimed {i : TradeIntent} {id : String} {order : BrokerOrder}
    (hi : i ∈ counted assetKey settled intents) (hget : opens.get? id = some order)
    (hforeign : Foreign assetKey intents id order) (hid : orderIdOf opens i = some id) :
    Nameless i ∧ (byClientId opens).get? "" = some id := by
  obtain ⟨hmem, hside, hasset, _⟩ := mem_counted.1 hi
  obtain ⟨hown, hclient⟩ := hforeign i hmem hside hasset
  have hor := (truthy_eq_some.1 hid).1
  cases hb : truthy i.brokerOrderId with
  | some b =>
      rw [hb, Option.some_or, Option.some.injEq] at hor
      exact absurd (hor ▸ (truthy_eq_some.1 hb).1) hown
  | none =>
      rw [hb, Option.none_or] at hor
      obtain ⟨order', hget', hcl⟩ := get?_byClientId hor
      obtain rfl : order = order' := by simpa [hget] using hget'
      have hblank : i.clientOrderId.getD "" = "" := by
        by_contra hne
        refine hclient (hcl ▸ hne) ?_
        cases hc : i.clientOrderId with
        | none => simp [hc] at hne
        | some c => rw [hcl, hc, Option.getD_some]
      exact ⟨⟨hb, hblank⟩, hblank ▸ hor⟩

theorem foreign_unclaimed {id : String} {order : BrokerOrder} (hget : opens.get? id = some order)
    (hforeign : Foreign assetKey intents id order)
    (hnamed : ∀ i ∈ counted assetKey settled intents, Nameless i →
      (byClientId opens).get? "" ≠ some id)
    (hfresh : ∀ i ∈ counted assetKey settled intents, orderIdOf opens i = none → id ≠ "") :
    id ∈ unclaimed opens (counted assetKey settled intents) := by
  have hkey : id ∈ opens.keys := OrderedDict.isSome_get?.1 (by simp [hget])
  refine mem_unclaimed.2 ⟨hkey, fun i hi hid => ?_⟩
  cases ho : orderIdOf opens i with
  | none =>
      rw [ho] at hid
      exact hfresh i hi ho hid.symm
  | some id' =>
      obtain rfl : id' = id := by simpa [ho] using hid
      obtain ⟨hname, hblank⟩ := foreign_claimed hi hget hforeign ho
      exact hnamed i hi hname hblank

/-- The quantities are those of the open orders. -/
theorem quantity_of_open (hq : opens.mapValues orderQuantity = .ok quantities) {id : String}
    {order : BrokerOrder} (hget : opens.get? id = some order) :
    ∃ q, quantities.get? id = some q ∧ order.qty = some q := by
  obtain ⟨e, he, hkey, hok⟩ := exists_left_of_forall₂ (OrderedDict.forall₂_mapValues hq).flip
    (OrderedDict.get?_eq_some_iff.1 hget)
  refine ⟨e.2, OrderedDict.get?_eq_some_iff.2 ?_, (orderQuantity_ok hok).1⟩
  rw [show id = e.1 from hkey]
  exact he

theorem quantity_eq_none (hq : opens.mapValues orderQuantity = .ok quantities) {id : String}
    (hget : opens.get? id = none) : quantities.get? id = none := by
  refine Option.eq_none_iff_forall_ne_some.2 fun q hqid => ?_
  obtain ⟨order, horder, _⟩ := (OrderedDict.get?_mapValues hq).1 hqid
  simp [hget] at horder

/-- The member that an unclaimed order is takes the order's quantity from both bounds. -/
theorem foreignMember_quantity {id : String} {order : BrokerOrder}
    (hq : opens.mapValues orderQuantity = .ok quantities) (hget : opens.get? id = some order) :
    order.qty = some (foreignMember quantities id).localQuantity ∧
      order.qty = some (foreignMember quantities id).originalQuantity := by
  obtain ⟨q, hqid, hqty⟩ := quantity_of_open hq hget
  have horig : (foreignMember quantities id).originalQuantity = q := by simp [foreignMember, hqid]
  exact ⟨hqty.trans (congrArg some horig.symm), hqty.trans (congrArg some horig.symm)⟩

/-- When every foreign order is a member of its own. -/
theorem foreign_iff {members : List PendingSell}
    (hq : opens.mapValues orderQuantity = .ok quantities)
    (hm : ∀ m ∈ members, m.tradeIntentId.isSome)
    (hfresh : ∀ i ∈ counted assetKey settled intents, orderIdOf opens i = none →
      "" ∉ opens.keys) :
    (∀ id order, opens.get? id = some order → Foreign assetKey intents id order →
      ∃ m ∈ members ++ (unclaimed opens (counted assetKey settled intents)).map
          (foreignMember quantities),
        m.key = id ∧ m.tradeIntentId = none ∧
          order.qty = some m.localQuantity ∧ order.qty = some m.originalQuantity) ↔
    ∀ i ∈ counted assetKey settled intents, Nameless i →
      ∀ id order, (byClientId opens).get? "" = some id → opens.get? id = some order →
        ¬ Foreign assetKey intents id order := by
  constructor
  · intro h i hi hname id order hblank hget hforeign
    obtain ⟨m, hmem, rfl, hnone, _⟩ := h id order hget hforeign
    rcases List.mem_append.1 hmem with hmem | hmem
    · have := hm m hmem
      simp [hnone] at this
    · obtain ⟨id', hid', rfl⟩ := List.mem_map.1 hmem
      refine (mem_unclaimed.1 hid').2 i hi ?_
      have hor : orderIdOf opens i = truthy (some id') := by
        unfold orderIdOf
        rw [hname.1, hname.2, hblank, Option.none_or]
        rfl
      rw [hor]
      by_cases hne : id' = "" <;> simp [truthy, Option.filter, hne]
  · intro h id order hget hforeign
    have hmem : id ∈ unclaimed opens (counted assetKey settled intents) := by
      refine foreign_unclaimed hget hforeign (fun i hi hname hblank => ?_) fun i hi hnone => ?_
      · exact h i hi hname id order hblank hget hforeign
      · rintro rfl
        exact hfresh i hi hnone (OrderedDict.isSome_get?.1 (by simp [hget]))
    exact ⟨foreignMember quantities id, List.mem_append_right _ (List.mem_map_of_mem hmem), rfl,
      rfl, foreignMember_quantity hq hget⟩

/-! ### The counted intents -/

/-- When every counted intent takes from the broker's bound what was approved for it. -/
theorem intents_iff {members : List PendingSell}
    (hq : opens.mapValues orderQuantity = .ok quantities)
    (hm : List.Forall₂ (fun i m => memberOf opens quantities settled i = .ok m) sells members)
    (hfresh : ∀ i ∈ sells, orderIdOf opens i = none → "" ∉ opens.keys) :
    List.Forall₂
        (fun intent m => m.tradeIntentId = some intent.tradeIntentId ∧
          ∃ approved, intent.requestedQuantity = some approved ∧
            m.localQuantity = approved - settledOf settled intent ∧
            approved ≤ m.originalQuantity) sells members ↔
      ∀ i ∈ sells, ∀ id order, orderIdOf opens i = some id → opens.get? id = some order →
        ∀ approved ∈ i.requestedQuantity, ∀ q ∈ order.qty, approved ≤ q := by
  constructor
  · intro h i hi id order hid hget approved happ q hqty
    obtain ⟨m, _, hok, _, approved', happ', _, hle⟩ :=
      exists_left_of_forall₂ (List.Forall₂.mp (fun _ _ => And.intro) hm h).flip hi
    obtain ⟨requested, hreq, _, rfl⟩ := memberOf_ok hok
    obtain rfl : approved = approved' := by simpa [Option.mem_def.1 happ] using happ'
    obtain ⟨q', hqid, hqty'⟩ := quantity_of_open hq hget
    obtain rfl : q = q' := by simpa [Option.mem_def.1 hqty] using hqty'
    simpa only [hid, Option.getD_some, hqid] using hle
  · intro h
    have hall := (List.forall₂_and_left _ _).2 ⟨fun i hi => And.intro (h i hi) (hfresh i hi), hm⟩
    refine hall.imp fun i m hboth => ?_
    obtain ⟨⟨hcov, hblank⟩, hok⟩ := hboth
    obtain ⟨requested, hreq, _, rfl⟩ := memberOf_ok hok
    refine ⟨rfl, requested, hreq, rfl, ?_⟩
    cases hid : orderIdOf opens i with
    | none =>
        have hnone := quantity_eq_none hq (OrderedDict.get?_eq_none_iff.2 (hblank hid))
        simp [hnone]
    | some id =>
        cases hget : opens.get? id with
        | none => simp [quantity_eq_none hq hget]
        | some order =>
            obtain ⟨q, hqid, hqty⟩ := quantity_of_open hq hget
            simpa [hqid] using hcov id order hid hget requested hreq q hqty

/-! ### The result -/

/-- A set of pending sells that was built counts every open order and every counted intent once, if
and only if the reads and the intents are unambiguous. -/
theorem counted_once_iff {openOrders1 openOrders2 : List BrokerOrder} {pending : List PendingSell}
    (hopens : sellsOf assetKey openOrders1 = .ok opens)
    (h : buildPendingSet assetKey openOrders1 openOrders2 intents settled = .ok pending) :
    CountedOnce assetKey opens intents settled pending ↔
      Unambiguous assetKey opens intents settled := by
  obtain ⟨quantities, members, hq, hm, rfl⟩ := buildPendingSet_ok hopens h
  have hsome : ∀ m ∈ members, m.tradeIntentId.isSome := by
    intro m hmem
    obtain ⟨i, _, hok⟩ := exists_left_of_forall₂ hm hmem
    obtain ⟨_, _, _, rfl⟩ := memberOf_ok hok
    rfl
  have hfilter : (members ++ (unclaimed opens (counted assetKey settled intents)).map
      (foreignMember quantities)).filter (fun m => m.tradeIntentId.isSome) = members := by
    rw [List.filter_append, List.filter_eq_self.2 hsome, List.filter_eq_nil_iff.2, List.append_nil]
    intro m hmem
    obtain ⟨id, _, rfl⟩ := List.mem_map.1 hmem
    simp [foreignMember]
  have hcount : ∀ id, (members ++ (unclaimed opens (counted assetKey settled intents)).map
      (foreignMember quantities)).countP (fun m => m.key = id) =
        (counted assetKey settled intents).countP (fun i => memberKey opens i = id) +
          if id ∈ unclaimed opens (counted assetKey settled intents) then 1 else 0 := by
    intro id
    rw [List.countP_append, countP_members hm, countP_foreign]
  constructor
  · rintro ⟨horders, hforeign, hintents⟩
    simp only [hcount] at horders
    obtain ⟨hsingle, hfresh⟩ := key_of_one_iff.1 horders
    rw [hfilter] at hintents
    exact
      { single := hsingle
        fresh := hfresh
        named := (foreign_iff hq hsome fun i hi hnone => (hfresh i hi hnone).1).1 hforeign
        covered := (intents_iff hq hm fun i hi hnone => (hfresh i hi hnone).1).1 hintents }
  · rintro ⟨hsingle, hfresh, hnamed, hcovered⟩
    refine ⟨?_, ?_, ?_⟩
    · simp only [hcount]
      exact key_of_one_iff.2 ⟨hsingle, hfresh⟩
    · exact (foreign_iff hq hsome fun i hi hnone => (hfresh i hi hnone).1).2 hnamed
    · rw [hfilter]
      exact (intents_iff hq hm fun i hi hnone => (hfresh i hi hnone).1).2 hcovered

/-! ### An intent without ids -/

def appleShares : AssetIdentity :=
  { symbol := "AAPL", assetClass := .equity, nativeAssetId := "alpaca:AAPL" }

def appleKey : String := "equity:default:alpaca:AAPL"

/-- An order that somebody else placed, without a client id. -/
def foreignSell : BrokerOrder :=
  { brokerOrderId := "x2", status := .new, symbol := "AAPL", side := some .sell, qty := some 6 }

/-- A sell that was approved and not submitted yet, so that it has no id of either kind. -/
def approvedSell : TradeIntent :=
  { tradeIntentId := "i2", idempotencyKey := "k2", correlationId := "c", asset := appleShares,
    side := .sell, executionMode := .paper, strategy := "monitor_exit", createdAt := 0,
    requestedQuantity := some 2, status := .riskApproved }

/-- The only member that the two make. -/
def swallowed : PendingSell :=
  { key := "x2", originalQuantity := 6, tradeIntentId := some "i2", approvedQuantity := some 2,
    settledQuantity := 0 }

theorem sellsOf_foreignSell :
    sellsOf appleKey [foreignSell] = .ok (.ofList [("x2", foreignSell)]) := by
  decide +kernel

theorem buildPendingSet_swallowed :
    buildPendingSet appleKey [foreignSell] [foreignSell] [approvedSell] .empty =
      .ok [swallowed] := by
  decide +kernel

theorem foreign_foreignSell : Foreign appleKey [approvedSell] "x2" foreignSell := by
  intro intent hintent _ _
  obtain rfl : intent = approvedSell := by simpa using hintent
  exact ⟨by decide, fun h => absurd rfl h⟩

/-- The order is open and belongs to no intent, and is no member without an intent. -/
theorem foreign_order_claimed :
    ¬ ∀ assetKey openOrders1 openOrders2 intents settled opens pending,
      sellsOf assetKey openOrders1 = .ok opens →
      buildPendingSet assetKey openOrders1 openOrders2 intents settled = .ok pending →
        CountedOnce assetKey opens intents settled pending := by
  intro h
  obtain ⟨m, hm, _, hnone, _⟩ := (h _ _ _ _ _ _ _ sellsOf_foreignSell
    buildPendingSet_swallowed).foreign "x2" foreignSell rfl foreign_foreignSell
  obtain rfl : m = swallowed := by simpa using hm
  cases hnone

/-- The condition fails there, as it has to. -/
theorem counted_once_iff_swallowed :
    ¬ CountedOnce appleKey (.ofList [("x2", foreignSell)]) [approvedSell] .empty [swallowed] := by
  intro h
  have hunambiguous :=
    (counted_once_iff sellsOf_foreignSell buildPendingSet_swallowed).1 h
  refine hunambiguous.named approvedSell ?_ ⟨rfl, rfl⟩ "x2" foreignSell ?_ rfl foreign_foreignSell
  · decide +kernel
  · decide +kernel

end TradePulse
