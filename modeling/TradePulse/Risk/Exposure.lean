/-
**What a portfolio view charges to the sectors** (`build_portfolio_view` of `risk/engine.py`).

The view adds up what the account is exposed to: holdings at their marks, inventory in quarantine,
positions of the broker that stand in for holdings whose fees are still pending, what pending
intents have not filled, executions that are not settled, and positions that nothing here accounts
for.  Each of these is charged to a sector.

Main definitions:

* `ViewSources` — what the view is built from;
* `Charge`, `charges` — what it charges, in the order of the loops;
* `holdingsValue`, `sectorExposure` — what becomes of the charges.

Main results:

* `lookup_sectorExposure` — the exposure of a sector is the sum of what is charged to it;
* `charge_of_holding` — what a holding is worth is charged to the sector it names.
-/

import TradePulse.Dbae.Funding
import TradePulse.Models.Portfolio
import TradePulse.Storage.OrderedDict

set_option autoImplicit false

namespace TradePulse.Risk

open Dbae Storage

/-! ### The sources -/

/-- What the view reads of a position of the broker. -/
structure PositionValue where
  qty : ℚ
  marketValue : ℚ
  deriving DecidableEq

/-- Inventory in quarantine that is still open. -/
structure QuarantinedPosition where
  assetKey : String
  openQuantity : ℚ
  multiplier : ℚ
  referencePrice : ℚ
  lastConfirmedMark : Option ℚ := none
  deriving DecidableEq

/-- `exposure`: at the higher of the last confirmed mark and the current one. -/
def QuarantinedPosition.exposure (r : QuarantinedPosition) (current : ℚ) : ℚ :=
  r.openQuantity * max (r.lastConfirmedMark.getD current) current * r.multiplier

/-- What the view is built from; `pendingKeys` are the assets whose fees are pending, and a mark
price is kept under the key of its asset. -/
structure ViewSources where
  holdings : List Holding := []
  tradeIntents : List StoredIntent := []
  settlements : List SettlementEvent := []
  quarantined : List QuarantinedPosition := []
  pendingKeys : List String := []
  markPrices : Dict ℚ := ∅
  brokerPositions : Option (Dict PositionValue) := none
  accountEquity : Option ℚ := none

/-- What is charged. -/
inductive Source
  | holding (assetKey : String)
  | pendingPosition (assetKey : String)
  | quarantined (assetKey : String)
  | remainder (tradeIntentId : String)
  | unsettled (settlementEventId : String)
  | unmanaged (assetKey : String)
  deriving DecidableEq

/-- The value of the holding of an asset. -/
def Source.Values (assetKey : String) : Source → Prop
  | .holding key => key = assetKey
  | .pendingPosition key => key = assetKey
  | _ => False

structure Charge where
  source : Source
  sector : String
  notional : ℚ
  deriving DecidableEq

/-- `sector or "Other"` -/
def sectorOf : Option String → String
  | some sector => if sector = "" then "Other" else sector
  | none => "Other"

theorem sectorOf_some {sector : String} (h : sector ≠ "") : sectorOf (some sector) = sector :=
  if_neg h

/-! ### The charges -/

namespace ViewSources

variable (v : ViewSources)

def holdingCharge (h : Holding) : Except Raised Charge := do
  let key := assetIdentityKey h.asset
  let mark := (v.markPrices.lookup key).getD h.averagePrice
  let multiplier ← contractMultiplierOf h.asset
  .ok ⟨.holding key, sectorOf h.sector, |h.quantity| * mark * multiplier⟩

/-- The holdings, but for those whose fees are pending. -/
def holdingCharges : Except Raised (List Charge) :=
  (v.holdings.filter fun h => assetIdentityKey h.asset ∉ v.pendingKeys).mapM v.holdingCharge

def quarantinedCharges : List Charge :=
  v.quarantined.map fun r =>
    let confirmed := (r.lastConfirmedMark.filter fun mark => mark ≠ 0).getD r.referencePrice
    ⟨.quarantined r.assetKey, "Quarantined",
      r.exposure ((v.markPrices.lookup r.assetKey).getD confirmed)⟩

/-- `sectors_by_key`: the sector of the last holding of an asset. -/
def pendingSector (key : String) : String :=
  match (v.holdings.filter fun h => assetIdentityKey h.asset = key).getLast? with
  | some h => sectorOf h.sector
  | none => "Other"

/-- Assets whose fees are pending, at what the broker values them. -/
def pendingCharges : List Charge :=
  v.pendingKeys.filterMap fun key =>
    ((v.brokerPositions.getD ∅).lookup key).map fun position =>
      ⟨.pendingPosition key, v.pendingSector key, |position.marketValue|⟩

def eventCharge (e : SettlementEvent) : Except Raised Charge := do
  let multiplier ← contractMultiplierOf e.asset
  .ok ⟨.unsettled e.settlementEventId, sectorOf e.sector, e.quantity * e.price * multiplier⟩

/-- The events of a pending intent that reached no holding yet. -/
def unsettledEvents (r : PendingIntentRemainder) : List SettlementEvent :=
  (eventsOf v.settlements r.row.intent.tradeIntentId).filter fun e => !e.holdingProjected

/-- The events that are charged, of some. -/
def charged (events : List SettlementEvent) : List SettlementEvent :=
  events.filter fun e => assetIdentityKey e.asset ∉ v.pendingKeys

/-- What a pending intent has not filled, if it has a price. -/
def unfilledCharges (r : PendingIntentRemainder) : Except Raised (List Charge) :=
  match r.row.intent.referencePrice with
  | some price =>
      if 0 < r.remainingQty then do
        let multiplier ← contractMultiplierOf r.row.intent.asset
        .ok [⟨.remainder r.row.intent.tradeIntentId, sectorOf r.row.intent.sector,
          r.remainingQty * price * multiplier⟩]
      else .ok []
  | none => .ok []

/-- What a pending intent has not filled, and what it has filled that is not settled. -/
def remainderCharges (r : PendingIntentRemainder) : Except Raised (List Charge) := do
  let unfilled ← unfilledCharges r
  let filled ← (v.charged (v.unsettledEvents r)).mapM eventCharge
  .ok (unfilled ++ filled)

/-- The statuses of an event that is not completed. -/
def unsettledStatuses : List SettlementStatus :=
  [.pending, .processing, .retryableFailed, .terminalFailed, .integrityBlocked]

/-- Every other event that reached no holding yet, whatever became of its intent. -/
def otherEvents (remainders : List PendingIntentRemainder) : List SettlementEvent :=
  let counted := (v.charged (remainders.flatMap v.unsettledEvents)).map fun e => e.settlementEventId
  v.settlements.filter fun e =>
    unsettledStatuses.contains e.status ∧ !e.holdingProjected ∧ e.settlementEventId ∉ counted

/-- What local records account for, of an asset. -/
def localQuantity (remainders : List PendingIntentRemainder) (key : String) : ℚ :=
  ((v.holdings.filter fun h => assetIdentityKey h.asset = key).map fun h => |h.quantity|).sum +
    (((remainders.flatMap v.unsettledEvents ++ v.otherEvents remainders).filter fun e =>
      e.side = .buy ∧ assetIdentityKey e.asset = key).map fun e => e.quantity).sum

/-- `unmanaged_excess` -/
def unmanagedExcess (position : PositionValue) (localQuantity : ℚ) : ℚ :=
  let excess := |position.qty| - localQuantity
  if |position.qty| = 0 ∨ excess ≤ 0 then 0
  else |position.marketValue| / |position.qty| * excess

/-- Positions of the broker beyond what local records account for. -/
def unmanagedCharges (remainders : List PendingIntentRemainder) : List Charge :=
  (v.brokerPositions.getD ∅).entries.filterMap fun entry =>
    let excess := unmanagedExcess entry.2 (v.localQuantity remainders entry.1)
    if entry.2.qty = 0 ∨ entry.1 ∈ v.pendingKeys ∨
        entry.1 ∈ v.quarantined.map (fun r => r.assetKey) ∨ excess ≤ 0 then none
    else some ⟨.unmanaged entry.1, unmanagedSector, excess⟩

/-- Everything the view charges. -/
def charges : Except Raised (List Charge) := do
  raiseIf (v.pendingKeys ≠ [] ∧ (v.brokerPositions.isNone ∨ v.accountEquity.isNone))
    (.valueError "PENDING_CRYPTO_REQUIRES_BROKER_EXPOSURE")
  let held ← v.holdingCharges
  let remainders ← pendingIntentRemainders v.tradeIntents v.settlements
  let reserved ← remainders.mapM v.remainderCharges
  let others ← (v.charged (v.otherEvents remainders)).mapM eventCharge
  .ok (held ++ v.quarantinedCharges ++ v.pendingCharges ++ reserved.flatten ++ others ++
    v.unmanagedCharges remainders)

end ViewSources

/-- `holdings_value` -/
def holdingsValue (charges : List Charge) : ℚ := (charges.map fun c => c.notional).sum

/-- One more charge to its sector. -/
def chargeSector (exposure : Dict ℚ) (c : Charge) : Dict ℚ :=
  exposure.insert c.sector ((exposure.lookup c.sector).getD 0 + c.notional)

/-- `sector_exposure` -/
def sectorExposure (charges : List Charge) : Dict ℚ := charges.foldl chargeSector ∅

/-! ### Where the value of a holding goes -/

theorem lookup_foldl_chargeSector (charges : List Charge) (exposure : Dict ℚ) (sector : String) :
    ((charges.foldl chargeSector exposure).lookup sector).getD 0 =
      (exposure.lookup sector).getD 0 +
        ((charges.filter fun c => c.sector = sector).map fun c => c.notional).sum := by
  induction charges generalizing exposure with
  | nil => simp
  | cons c charges ih =>
      rw [List.foldl_cons, ih]
      by_cases hc : c.sector = sector
      · subst hc
        simp [chargeSector, AList.lookup_insert, add_assoc]
      · have hne : sector ≠ c.sector := fun h => hc h.symm
        simp [chargeSector, AList.lookup_insert_ne hne, hc]

/-- **The exposure of a sector is the sum of what is charged to it.** -/
theorem lookup_sectorExposure (charges : List Charge) (sector : String) :
    ((sectorExposure charges).lookup sector).getD 0 =
      ((charges.filter fun c => c.sector = sector).map fun c => c.notional).sum := by
  rw [sectorExposure, lookup_foldl_chargeSector]
  simp

namespace ViewSources

variable {v : ViewSources}

theorem mem_holdingCharges {cs : List Charge} (h : v.holdingCharges = .ok cs) {c : Charge}
    (hc : c ∈ cs) : ∃ holding ∈ v.holdings,
      c.source = .holding (assetIdentityKey holding.asset) ∧
        c.sector = sectorOf holding.sector := by
  obtain ⟨holding, hmem, hcharge⟩ := exists_left_of_forall₂ (forall₂_of_mapM h) hc
  obtain ⟨multiplier, -, hcharge⟩ := except_bind_eq_ok.1 hcharge
  cases hcharge
  exact ⟨holding, (List.mem_filter.1 hmem).1, rfl, rfl⟩

theorem mem_pendingCharges {c : Charge} (hc : c ∈ v.pendingCharges) :
    ∃ key, c.source = .pendingPosition key ∧ c.sector = v.pendingSector key := by
  obtain ⟨key, -, hcharge⟩ := List.mem_filterMap.1 hc
  obtain ⟨position, -, rfl⟩ := Option.map_eq_some_iff.1 hcharge
  exact ⟨key, rfl, rfl⟩

/-- An asset that is held is charged to a sector that one of its holdings names. -/
theorem pendingSector_eq {key : String} (h : ∃ holding ∈ v.holdings,
      assetIdentityKey holding.asset = key) :
    ∃ holding ∈ v.holdings, assetIdentityKey holding.asset = key ∧
      v.pendingSector key = sectorOf holding.sector := by
  obtain ⟨holding, hmem, hkey⟩ := h
  have hne : (v.holdings.filter fun h => assetIdentityKey h.asset = key) ≠ [] := by
    refine List.ne_nil_of_mem (a := holding) (List.mem_filter.2 ⟨hmem, ?_⟩)
    exact decide_eq_true hkey
  obtain ⟨last, hlast⟩ := Option.isSome_iff_exists.1 (List.getLast?_isSome.2 hne)
  obtain ⟨hheld, hsame⟩ := List.mem_filter.1 (List.mem_of_getLast? hlast)
  refine ⟨last, hheld, of_decide_eq_true hsame, ?_⟩
  rw [pendingSector, hlast]

theorem source_unfilledCharges {r : PendingIntentRemainder} {cs : List Charge}
    (h : unfilledCharges r = .ok cs) {c : Charge} (hc : c ∈ cs) :
    c.source = .remainder r.row.intent.tradeIntentId := by
  unfold unfilledCharges at h
  split at h
  · split at h
    · obtain ⟨multiplier, -, h⟩ := except_bind_eq_ok.1 h
      cases h
      obtain rfl := List.mem_singleton.1 hc
      rfl
    · cases h
      cases hc
  · cases h
    cases hc

theorem source_eventCharge {e : SettlementEvent} {c : Charge} (h : eventCharge e = .ok c) :
    c.source = .unsettled e.settlementEventId := by
  obtain ⟨multiplier, -, h⟩ := except_bind_eq_ok.1 h
  cases h
  rfl

theorem source_eventCharges {es : List SettlementEvent} {cs : List Charge}
    (h : es.mapM eventCharge = .ok cs) {c : Charge} (hc : c ∈ cs) :
    ∃ id, c.source = .unsettled id := by
  obtain ⟨e, -, hcharge⟩ := exists_left_of_forall₂ (forall₂_of_mapM h) hc
  exact ⟨_, source_eventCharge hcharge⟩

/-- What a pending intent is charged for is not the value of a holding. -/
theorem source_remainderCharges {r : PendingIntentRemainder} {cs : List Charge}
    (h : v.remainderCharges r = .ok cs) {c : Charge} (hc : c ∈ cs) (key : String) :
    ¬ c.source.Values key := by
  obtain ⟨unfilled, hunfilled, h⟩ := except_bind_eq_ok.1 h
  obtain ⟨filled, hfilled, h⟩ := except_bind_eq_ok.1 h
  cases h
  rcases List.mem_append.1 hc with hc | hc
  · rw [source_unfilledCharges hunfilled hc]
    exact fun h => h
  · obtain ⟨id, hsource⟩ := source_eventCharges hfilled hc
    rw [hsource]
    exact fun h => h

/-- **What a holding is worth is charged to the sector it names**, at its mark or, while fees are
pending, at the value of the broker. -/
theorem charge_of_holding {cs : List Charge} {key sector : String} (h : v.charges = .ok cs)
    (hsector : sector ≠ "")
    (hheld : ∃ holding ∈ v.holdings, assetIdentityKey holding.asset = key)
    (hnamed : ∀ holding ∈ v.holdings, assetIdentityKey holding.asset = key →
      holding.sector = some sector) {c : Charge} (hc : c ∈ cs) (hvalues : c.source.Values key) :
    c.sector = sector := by
  obtain ⟨_, -, h⟩ := except_bind_eq_ok.1 h
  obtain ⟨held, hholdings, h⟩ := except_bind_eq_ok.1 h
  obtain ⟨remainders, -, h⟩ := except_bind_eq_ok.1 h
  obtain ⟨reserved, hreserved, h⟩ := except_bind_eq_ok.1 h
  obtain ⟨others, hothers, h⟩ := except_bind_eq_ok.1 h
  cases h
  simp only [List.mem_append] at hc
  rcases hc with ((((hc | hc) | hc) | hc) | hc) | hc
  · obtain ⟨holding, hmem, hsource, hname⟩ := mem_holdingCharges hholdings hc
    rw [hsource] at hvalues
    rw [hname, hnamed holding hmem hvalues, sectorOf_some hsector]
  · obtain ⟨r, -, rfl⟩ := List.mem_map.1 hc
    exact absurd hvalues id
  · obtain ⟨key', hsource, hname⟩ := mem_pendingCharges hc
    rw [hsource] at hvalues
    obtain rfl : key' = key := hvalues
    obtain ⟨holding, hmem, hkey, hlast⟩ := pendingSector_eq hheld
    rw [hname, hlast, hnamed holding hmem hkey, sectorOf_some hsector]
  · obtain ⟨cs, hcs, hc⟩ := List.mem_flatten.1 hc
    obtain ⟨r, -, hr⟩ := exists_left_of_forall₂ (forall₂_of_mapM hreserved) hcs
    exact absurd hvalues (source_remainderCharges hr hc key)
  · obtain ⟨id, hsource⟩ := source_eventCharges hothers hc
    rw [hsource] at hvalues
    exact absurd hvalues fun h => h
  · obtain ⟨entry, -, hcharge⟩ := List.mem_filterMap.1 hc
    simp only [Option.ite_none_left_eq_some, Option.some.injEq] at hcharge
    obtain ⟨-, rfl⟩ := hcharge
    exact absurd hvalues id

end ViewSources

end TradePulse.Risk
