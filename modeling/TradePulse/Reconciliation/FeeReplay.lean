/-
**Restating what was derived from an instrument's fills** (`reconciliation/fee_replay.py`).

Once the fees of an instrument are known, its lots are replayed with them, and everything that was
derived from the lots is derived again: the attributions of the sales, their realized values and
those of the intents, the records of profit and loss, and the holding.  One transaction compares
what it derived with what is stored and writes the differences.  The records that it keeps besides,
of the population, of the allocations and of the epochs, are written in the same transaction and may
refuse it.

Main definitions:

* `ReplayPopulation` — what the validation of the broker's feed hands over;
* `checkSources`, `restatedAttribution`, `restatedHolding` — the checks and what is derived again;
* `restate` — everything that is derived again;
* `replayAssetFees` — the transaction.

Main results:

* `replayAssetFees_ok`, `Restatement.write_ok` — what a replay that commits has written;
* `Restated.perm_lotsByAsset`, `Restated.get?_holding` — the lots and the holding afterwards.
-/

import TradePulse.Reconciliation.GenerationFees
import TradePulse.Reconciliation.ReplayDeterminism
import TradePulse.Settlement.Engine
import TradePulse.Storage.Changes

set_option autoImplicit false

namespace TradePulse

open Storage

namespace HistoricalFees

/-! ### What is handed over -/

/-- A fee in cash of the population. -/
structure PopulationCashFee where
  receipt : CashReceipt
  netAmount : ℚ
  createdAt : Instant

/-- What the validation of the broker's feed hands over. -/
structure ReplayPopulation where
  fees : List AssetFee
  cashFees : List PopulationCashFee := []
  /-- What the recorders of the ledger post from the same feed. -/
  posted : List (Recorder × CashReceipt) := []
  openingQuantity : ℚ := 0
  brokerQuantity : ℚ

/-- `AssetFeePending`, an `AssetFeeIntegrityError`. -/
def assetFeePending (reason : String) : Raised := assetFeeIntegrity reason

/-- A row that must be there; `KeyError` where it is not. -/
def found {α : Type} (key : String) : Option α → Except Raised α
  | none => .error ⟨.other, key⟩
  | some a => .ok a

/-- `UNIQUE constraint failed`. -/
def keyTaken : Raised := ⟨.other, "UNIQUE constraint failed"⟩

section

variable (s : Store) (asset : AssetIdentity)

/-- The executions of the instrument that were to be settled. -/
def settlementsOf : List SettlementEvent :=
  s.settlements.rows.filter fun e => assetIdentityKey e.asset = assetIdentityKey asset

/-- A fill of the instrument. -/
def fillOf (fillId : String) : Option Fill :=
  (s.fills.get? fillId).filter fun f => assetIdentityKey f.asset = assetIdentityKey asset

/-- What the lots of the instrument hold. -/
def quantityOf (lots : List PositionLot) : ℚ := Settlement.sumOver lots fun l => l.signedQuantity

/-! ### The checks -/

/-- An execution was settled by every stage, and as its fill says. -/
def checkSource (event : SettlementEvent) : Except Raised Unit := do
  let fill ← found event.fillId (fillOf s asset event.fillId)
  raiseIf (fullySettled event = false) (assetFeePending "ASSET_FEE_SETTLEMENT_PENDING")
  raiseIf (event.quantity ≠ fill.quantity ∨ event.price ≠ fill.price ∨ event.side ≠ fill.side ∨
      event.occurredAt ≠ fill.filledAt ∨ event.tradeIntentId ≠ fill.tradeIntentId ∨
      event.brokerOrderId ≠ some fill.orderId ∨ event.executionMode ≠ fill.executionMode ∨
      event.brokerFillId ≠ fill.brokerFillId ∨ event.brokerFillId.getD "" = "")
    (assetFeeIntegrity "ASSET_FEE_SETTLEMENT_FILL_MISMATCH")
  raiseIf (event.brokerOrderId.bind s.integrityHolds.get?).isSome
    (assetFeePending "ASSET_FEE_ORDER_VERIFICATION_PENDING")

/-- The checks before anything is replayed. -/
def checkSources (p : ReplayPopulation) (now : Instant) : Except Raised Unit := do
  raiseIf ((∃ fee ∈ p.fees, now < fee.occurredAt) ∨ ∃ fee ∈ p.cashFees, now < fee.createdAt)
    (assetFeeIntegrity "ASSET_FEE_FUTURE_TIMESTAMP")
  raiseIf ((∃ e ∈ settlementsOf s asset, fillOf s asset e.fillId = none) ∨
      ∃ f ∈ s.fills.rows, assetIdentityKey f.asset = assetIdentityKey asset ∧
        f.fillId ∉ (settlementsOf s asset).map (·.fillId))
    (assetFeePending "ASSET_FEE_SETTLEMENT_PENDING")
  (settlementsOf s asset).forM (checkSource s asset)
  raiseIf (((s.holdings.get? (holdingRecordId asset)).map (·.quantity)).getD 0
      ≠ quantityOf (s.lotsByAsset asset))
    (assetFeeIntegrity "ASSET_FEE_HOLDING_LOT_MISMATCH")
  raiseIf (p.fees ≠ [] ∧ ∃ b ∈ s.shortExposureLiabilities.rows,
      assetIdentityKey b.asset = assetIdentityKey asset)
    (assetFeeIntegrity "ASSET_FEE_UNSUPPORTED_SHORT_INVENTORY")

/-! ### What is derived again -/

/-- The attributions of the instrument's lots. -/
def attributionsOf : List TradeAttribution :=
  s.tradeAttributions.rows.filter fun a => a.lotId ∈ (s.lotsByAsset asset).map (·.lotId)

/-- The attribution of a closure: the stored one with the quantity and the value of now, or a new
one. -/
def restatedAttribution (now : Instant) (lot : PositionLot) (opening : Fill) (intent : TradeIntent)
    (event : SettlementEvent) (amount : ℚ) : Except Raised TradeAttribution :=
  let pnl := (event.price - lot.acquisitionPrice) * amount
  match (attributionsOf s asset).find? fun a => a.attributionId = attributionId lot event.fillId with
  | some old => do
      raiseIf (old.openingTradeIntentId ≠ opening.tradeIntentId ∨
          old.closingTradeIntentId ≠ event.tradeIntentId ∨ old.entryPrice ≠ lot.acquisitionPrice ∨
          old.exitPrice ≠ event.price ∨ old.lotId ≠ lot.lotId ∨ old.closingFillId ≠ event.fillId ∨
          assetIdentityKey old.asset ≠ assetIdentityKey asset ∨ old.entryAt ≠ lot.openedAt ∨
          old.exitAt ≠ event.occurredAt)
        (assetFeeIntegrity "ASSET_FEE_ATTRIBUTION_SOURCE_MISMATCH")
      return { old with quantity := amount, realizedPnl := pnl }
  | none =>
      let held := Settlement.dayOf event.occurredAt - Settlement.dayOf lot.openedAt
      return { attributionId := attributionId lot event.fillId
               asset := asset
               lotId := lot.lotId
               openingTradeIntentId := intent.tradeIntentId
               closingTradeIntentId := event.tradeIntentId
               closingFillId := event.fillId
               quantity := amount
               entryPrice := lot.acquisitionPrice
               entryAt := lot.openedAt
               exitPrice := event.price
               exitAt := event.occurredAt
               realizedPnl := pnl
               createdAt := now
               exitReason := Settlement.inferExitReason .long intent.stopLoss intent.targetPrice
                 event.price (some held) intent.riskSnapshot.maxHoldDays }

/-- The attributions of one lot, by the identifiers of the closures. -/
def restatedAttributions (now : Instant) (lot : PositionLot) :
    Except Raised (List (String × TradeAttribution)) := do
  let opening ← found lot.originatingFillId (fillOf s asset lot.originatingFillId)
  let intent ← found opening.tradeIntentId (s.tradeIntents.get? opening.tradeIntentId)
  lot.closures.entries.mapM fun closure => do
    let event ← found closure.1 ((settlementsOf s asset).find? fun e => e.fillId = closure.1)
    let attribution ← restatedAttribution s asset now lot opening intent event closure.2
    return (attributionId lot closure.1, attribution)

/-- An execution with the realized value of the replay. -/
def restatedEvent (realized : OrderedDict String ℚ) (event : SettlementEvent) :
    Except Raised SettlementEvent := do
  let pnl ← found event.fillId (realized.get? event.fillId)
  SettlementEvent.make { event.toSettlementEventFields with realizedPnl := some pnl }

/-- An intent with the sum of what its executions realized. -/
def restatedIntent (events : List SettlementEvent) (intentId : String) :
    Except Raised TradeIntent := do
  let intent ← found intentId (s.tradeIntents.get? intentId)
  let own := events.filter fun e => e.tradeIntentId = intentId
  return { intent with realizedPnl := some (own.map fun e => e.realizedPnl.getD 0).sum }

/-- The holding with the quantity and the average price of the lots; its time is that of the replay
where one of these changed. -/
def restatedHolding (now : Instant) (lots : List PositionLot) :
    Option Holding → Except Raised (Option Holding)
  | none =>
      if quantityOf lots = 0 then .ok none
      else .error (assetFeeIntegrity "ASSET_FEE_HOLDING_MISSING")
  | some holding =>
      if quantityOf lots = 0 then .ok none
      else do
        let updated ← Holding.make
          { holding.toHoldingFields with
            quantity := quantityOf lots
            averagePrice :=
              Settlement.sumOver lots (fun l => l.remainingQuantity * l.acquisitionPrice)
                / quantityOf lots }
        if updated.quantity ≠ holding.quantity ∨ updated.averagePrice ≠ holding.averagePrice then
          let stamped ← Holding.make { updated.toHoldingFields with updatedAt := now }
          return some stamped
        else return some updated

/-- A record of profit and loss. -/
def pnlRow (asset : AssetIdentity) (identifier : String) (realized : ℚ) (asOf : Instant) :
    String × PnlRecord :=
  (identifier,
    { recordId := identifier, asset := asset, realized := realized, unrealized := 0, asOf := asOf })

/-- What a fee debited, at the prices of the lots. -/
def feeBasis (lots : List PositionLot) (fee : AssetFee) : ℚ :=
  Settlement.sumOver lots fun l =>
    ((l.assetFeeQuantities.lookup fee.activityId).getD 0) * l.acquisitionPrice

/-- The records of profit and loss: of the closures, of the fees and of the fees in cash. -/
def restatedPnl (p : ReplayPopulation) (lots : List PositionLot)
    (attributions : OrderedDict String TradeAttribution) : OrderedDict String PnlRecord :=
  .ofList
    ((attributions.entries.map fun e =>
        pnlRow asset ("fill:pnl:" ++ e.1) e.2.realizedPnl e.2.exitAt) ++
      (p.fees.map fun fee =>
        pnlRow asset ("asset_fee:pnl:" ++ fee.activityId) (-feeBasis lots fee) fee.occurredAt) ++
      p.cashFees.map fun fee =>
        pnlRow asset ("asset_cash_fee:pnl:" ++ fee.receipt.activityId) fee.netAmount fee.createdAt)

/-- The stored records of the kinds that a replay derives. -/
def pnlOf : List PnlRecord :=
  s.pnlRecords.rows.filter fun r => assetIdentityKey r.asset = assetIdentityKey asset ∧
    (r.recordId.startsWith "fill:pnl:" ∨ r.recordId.startsWith "asset_fee:pnl:" ∨
      r.recordId.startsWith "asset_cash_fee:pnl:")

/-- Everything that is derived again. -/
structure Restatement where
  lots : List PositionLot
  attributions : OrderedDict String TradeAttribution
  events : List SettlementEvent
  intents : List TradeIntent
  holding : Option Holding
  pnl : OrderedDict String PnlRecord

/-- Derive everything again. -/
def restate (p : ReplayPopulation) (now : Instant) : Except Raised Restatement := do
  checkSources s asset p now
  let replayed ← previewFeeReplay (s.lotsByAsset asset) (settlementsOf s asset) p.fees
  let lots := replayed.1
  raiseIf (quantityOf lots + p.openingQuantity ≠ p.brokerQuantity)
    (assetFeeIntegrity "ASSET_FEE_REPLAY_BROKER_QUANTITY_MISMATCH")
  raiseIf (∃ lot ∈ lots, lot.origin = .adopted)
    (assetFeeIntegrity "ASSET_FEE_ADOPTED_LOT_UNSUPPORTED")
  let closures ← lots.mapM (restatedAttributions s asset now)
  let attributions := OrderedDict.ofList closures.flatten
  let events ← (settlementsOf s asset).mapM (restatedEvent replayed.2)
  let intents ← ((settlementsOf s asset).map (·.tradeIntentId)).dedup.mapM
    (restatedIntent s events)
  let holding ← restatedHolding now lots (s.holdings.get? (holdingRecordId asset))
  return { lots := lots
           attributions := attributions
           events := events
           intents := intents
           holding := holding
           pnl := restatedPnl asset p lots attributions }

end

/-! ### The transaction -/

section

variable {α : Type} [Record α]

/-- The changes of rows that are there already. -/
def replacements (t : Table α) (rows : List α) : List (Change α) :=
  rows.map fun r => ⟨Record.recordId r, t.get? (Record.recordId r), some r⟩

/-- The changes from the stored rows to the derived ones. -/
def differences (stored : List α) (derived : OrderedDict String α) : List (Change α) :=
  (stored.map Record.recordId ++ derived.keys).dedup.map fun id =>
    ⟨id, stored.find? fun r => Record.recordId r = id, derived.get? id⟩

end

/-- Post a cash entry once. -/
def postEntry (ledger : Table CashLedgerEntry) (entry : CashLedgerEntry) :
    Except Raised (Table CashLedgerEntry) :=
  match ledger.get? entry.entryId with
  | some old =>
      if old = entry then .ok ledger
      else .error (assetFeeIntegrity "CASH_FEE_LEDGER_RECEIPT_MISMATCH")
  | none => ledger.insert? keyTaken entry

/-- The cash entries of a population. -/
def ReplayPopulation.entries (p : ReplayPopulation) : List CashLedgerEntry :=
  (p.posted.map fun e => e.1.cashEntry e.2) ++
    p.cashFees.map fun fee => Recorder.fee.cashEntry fee.receipt

/-- Write what was derived again. -/
def Restatement.write (r : Restatement) (s : Store) (asset : AssetIdentity)
    (p : ReplayPopulation) : Except Raised Store := do
  let positionLots ← s.positionLots.changeAll keyTaken (replacements s.positionLots r.lots)
  let tradeAttributions ← s.tradeAttributions.changeAll keyTaken
    (differences (attributionsOf s asset) r.attributions)
  let settlements ← s.settlements.changeAll keyTaken (replacements s.settlements r.events)
  let tradeIntents ← s.tradeIntents.changeAll keyTaken (replacements s.tradeIntents r.intents)
  let holdings ← s.holdings.changeAll keyTaken
    [⟨holdingRecordId asset, s.holdings.get? (holdingRecordId asset), r.holding⟩]
  let pnlRecords ← s.pnlRecords.changeAll keyTaken (differences (pnlOf s asset) r.pnl)
  let cashLedger ← p.entries.foldlM postEntry s.cashLedger
  return { s with
    positionLots := positionLots
    tradeAttributions := tradeAttributions
    settlements := settlements
    tradeIntents := tradeIntents
    holdings := holdings
    pnlRecords := pnlRecords
    cashLedger := cashLedger }

/-- `replay_asset_fees`, one transaction.  `population` is what the validation of the feed comes to,
and `records` whether the records of the population, the allocations and the epochs are accepted. -/
def replayAssetFees (s : Store) (asset : AssetIdentity)
    (population : Except Raised ReplayPopulation) (records : Except Raised Unit) (now : Instant) :
    Except Raised Store := do
  let p ← population
  let restated ← restate s asset p now
  records
  restated.write s asset p

/-! ### What a replay that commits has written -/

section

variable {α : Type} [Record α] {t u : Table α} {rows : List α}

theorem map_id_replacements (t : Table α) (rows : List α) :
    (replacements t rows).map (·.id) = rows.map Record.recordId := by
  rw [replacements, List.map_map]
  rfl

/-- Replacements by rows with the keys of stored ones. -/
theorem fits_replacements (h : ∀ r ∈ rows, ∃ a ∈ t, SameKeys a r) :
    ∀ c ∈ replacements t rows, c.Fits t := by
  intro c hc
  obtain ⟨r, hr, rfl⟩ := List.mem_map.1 hc
  obtain ⟨a, ha, hkeys⟩ := h r hr
  have hget : t.get? (Record.recordId r) = some a := Table.get?_eq_some_iff.2 ⟨ha, hkeys.1⟩
  refine ⟨fun _ => rfl, ?_, ?_⟩
  · rintro x ⟨⟩
    rfl
  · rintro x ⟨⟩ b hb
    rw [hget] at hb
    cases hb
    exact hkeys.2

theorem mem_replaced (h : ∀ r ∈ rows, ∃ a ∈ t, SameKeys a r)
    (hids : (rows.map Record.recordId).Nodup)
    (hu : t.changeAll keyTaken (replacements t rows) = .ok u) {a : α} :
    a ∈ u ↔ a ∈ rows ∨ (a ∈ t ∧ Record.recordId a ∉ rows.map Record.recordId) := by
  rw [Table.mem_changeAll (fits_replacements h) (by rwa [map_id_replacements]) hu,
    map_id_replacements]
  simp [replacements]

end

variable {s t : Store} {asset : AssetIdentity} {p : ReplayPopulation} {r : Restatement}
  {records : Except Raised Unit} {population : Except Raised ReplayPopulation} {now : Instant}

/-- Where the parts of a restatement come from. -/
structure Restated (s : Store) (asset : AssetIdentity) (p : ReplayPopulation) (now : Instant)
    (r : Restatement) (realized : OrderedDict String ℚ) : Prop where
  sources : checkSources s asset p now = .ok ()
  lots : previewFeeReplay (s.lotsByAsset asset) (settlementsOf s asset) p.fees
    = .ok (r.lots, realized)
  quantity : quantityOf r.lots + p.openingQuantity = p.brokerQuantity
  filled : ∀ lot ∈ r.lots, lot.origin ≠ .adopted
  attributions : ∃ closures, r.lots.mapM (restatedAttributions s asset now) = .ok closures ∧
    r.attributions = .ofList closures.flatten
  events : (settlementsOf s asset).mapM (restatedEvent realized) = .ok r.events
  intents : ((settlementsOf s asset).map (·.tradeIntentId)).dedup.mapM (restatedIntent s r.events)
    = .ok r.intents
  holding : restatedHolding now r.lots (s.holdings.get? (holdingRecordId asset)) = .ok r.holding
  pnl : r.pnl = restatedPnl asset p r.lots r.attributions

theorem restate_ok (h : restate s asset p now = .ok r) :
    ∃ realized, Restated s asset p now r realized := by
  unfold restate at h
  obtain ⟨⟨⟩, hsources, h⟩ := except_bind_eq_ok.1 h
  obtain ⟨⟨lots, realized⟩, hlots, h⟩ := except_bind_eq_ok.1 h
  obtain ⟨_, hquantity, h⟩ := except_bind_eq_ok.1 h
  obtain ⟨_, hfilled, h⟩ := except_bind_eq_ok.1 h
  obtain ⟨closures, hclosures, h⟩ := except_bind_eq_ok.1 h
  obtain ⟨events, hevents, h⟩ := except_bind_eq_ok.1 h
  obtain ⟨intents, hintents, h⟩ := except_bind_eq_ok.1 h
  obtain ⟨holding, hholding, h⟩ := except_bind_eq_ok.1 h
  rw [raiseIf_eq_ok_iff, not_not] at hquantity
  rw [raiseIf_eq_ok_iff] at hfilled
  cases h
  exact ⟨realized,
    { sources := hsources
      lots := hlots
      quantity := hquantity
      filled := fun lot hlot hadopted => hfilled ⟨lot, hlot, hadopted⟩
      attributions := ⟨closures, hclosures, rfl⟩
      events := hevents
      intents := hintents
      holding := hholding
      pnl := rfl }⟩

/-- What a replay that commits has written: a restatement. -/
theorem replayAssetFees_ok (h : replayAssetFees s asset population records now = .ok t) :
    ∃ p r, population = .ok p ∧ (∃ realized, Restated s asset p now r realized) ∧
      r.write s asset p = .ok t := by
  unfold replayAssetFees at h
  obtain ⟨p, hp, h⟩ := except_bind_eq_ok.1 h
  obtain ⟨r, hr, h⟩ := except_bind_eq_ok.1 h
  obtain ⟨-, -, h⟩ := except_bind_eq_ok.1 h
  exact ⟨p, r, hp, restate_ok hr, h⟩

/-- What is written, table by table. -/
structure Restatement.Wrote (r : Restatement) (s : Store) (asset : AssetIdentity)
    (p : ReplayPopulation) (t : Store) : Prop where
  positionLots :
    s.positionLots.changeAll keyTaken (replacements s.positionLots r.lots) = .ok t.positionLots
  tradeAttributions : s.tradeAttributions.changeAll keyTaken
    (differences (attributionsOf s asset) r.attributions) = .ok t.tradeAttributions
  settlements :
    s.settlements.changeAll keyTaken (replacements s.settlements r.events) = .ok t.settlements
  tradeIntents :
    s.tradeIntents.changeAll keyTaken (replacements s.tradeIntents r.intents) = .ok t.tradeIntents
  holdings : s.holdings.changeAll keyTaken
    [⟨holdingRecordId asset, s.holdings.get? (holdingRecordId asset), r.holding⟩] = .ok t.holdings
  pnlRecords : s.pnlRecords.changeAll keyTaken (differences (pnlOf s asset) r.pnl)
    = .ok t.pnlRecords
  cashLedger : p.entries.foldlM postEntry s.cashLedger = .ok t.cashLedger
  frame : t = { s with
    positionLots := t.positionLots
    tradeAttributions := t.tradeAttributions
    settlements := t.settlements
    tradeIntents := t.tradeIntents
    holdings := t.holdings
    pnlRecords := t.pnlRecords
    cashLedger := t.cashLedger }

theorem Restatement.write_ok (h : r.write s asset p = .ok t) : r.Wrote s asset p t := by
  unfold Restatement.write at h
  obtain ⟨lots, hlots, h⟩ := except_bind_eq_ok.1 h
  obtain ⟨attributions, hattributions, h⟩ := except_bind_eq_ok.1 h
  obtain ⟨events, hevents, h⟩ := except_bind_eq_ok.1 h
  obtain ⟨intents, hintents, h⟩ := except_bind_eq_ok.1 h
  obtain ⟨holdings, hholdings, h⟩ := except_bind_eq_ok.1 h
  obtain ⟨pnl, hpnl, h⟩ := except_bind_eq_ok.1 h
  obtain ⟨ledger, hledger, h⟩ := except_bind_eq_ok.1 h
  cases h
  exact ⟨hlots, hattributions, hevents, hintents, hholdings, hpnl, hledger, rfl⟩

theorem SameSource.keeps {β : Type} {a b : PositionLot} (h : SameSource a b)
    (f : PositionLotFields → β) (hf : ∀ l, f (reopenedFields l) = f l) :
    f a.toPositionLotFields = f b.toPositionLotFields := by
  rw [← hf, ← hf b.toPositionLotFields]
  exact congrArg f h

namespace Restated

variable {realized : OrderedDict String ℚ}

theorem nodup_lotsByAsset (s : Store) (asset : AssetIdentity) :
    ((s.lotsByAsset asset).map (·.lotId)).Nodup := by
  have hall : (s.positionLots.rows.map (·.lotId)).Nodup :=
    List.pairwise_map.2 (s.positionLots.keyed.imp fun hapart => hapart.1)
  exact hall.sublist (List.filter_sublist.map _)

theorem sources_lots (h : Restated s asset p now r realized) :
    HistoricalFees.sources r.lots = HistoricalFees.sources (s.lotsByAsset asset) :=
  sources_replayed (nodup_lotsByAsset s asset) h.lots

theorem map_lotId (h : Restated s asset p now r realized) :
    r.lots.map (·.lotId) = (s.lotsByAsset asset).map (·.lotId) := by
  have hmap := congrArg (List.map (·.lotId)) h.sources_lots
  unfold HistoricalFees.sources at hmap
  rwa [List.map_map, List.map_map] at hmap

theorem exists_stored (h : Restated s asset p now r realized) {l : PositionLot} (hl : l ∈ r.lots) :
    ∃ l₀ ∈ s.lotsByAsset asset, HistoricalFees.SameSource l₀ l :=
  exists_source (h.sources_lots ▸ .refl _) hl

theorem sameKeys (h : Restated s asset p now r realized) :
    ∀ l ∈ r.lots, ∃ l₀ ∈ s.positionLots, SameKeys l₀ l := by
  intro l hl
  obtain ⟨l₀, hl₀, hsame⟩ := h.exists_stored hl
  refine ⟨l₀, (Store.mem_lotsByAsset.1 hl₀).1, hsame.lotId, ?_⟩
  exact hsame.keeps (fun f => some f.originatingFillId) fun _ => rfl

theorem nodup_lots (h : Restated s asset p now r realized) : (r.lots.map (·.lotId)).Nodup :=
  h.map_lotId ▸ nodup_lotsByAsset s asset

theorem asset_lots (h : Restated s asset p now r realized) {l : PositionLot} (hl : l ∈ r.lots) :
    assetIdentityKey l.asset = assetIdentityKey asset := by
  obtain ⟨l₀, hl₀, hsame⟩ := h.exists_stored hl
  rw [← (Store.mem_lotsByAsset.1 hl₀).2]
  exact (hsame.keeps (fun f => assetIdentityKey f.asset) fun _ => rfl).symm

theorem perm_lotsByAsset (h : Restated s asset p now r realized) (hw : r.Wrote s asset p t) :
    (t.lotsByAsset asset).Perm r.lots := by
  refine (List.perm_ext_iff_of_nodup (nodup_lotsByAsset t asset).of_map h.nodup_lots.of_map).2 ?_
  intro l
  rw [Store.mem_lotsByAsset, mem_replaced h.sameKeys h.nodup_lots hw.positionLots]
  constructor
  · rintro ⟨hl | ⟨hl, hother⟩, hkey⟩
    · exact hl
    · refine absurd ?_ hother
      have hid : l.lotId ∈ (s.lotsByAsset asset).map (·.lotId) :=
        List.mem_map_of_mem (Store.mem_lotsByAsset.2 ⟨hl, hkey⟩)
      exact h.map_lotId ▸ hid
  · exact fun hl => ⟨.inl hl, h.asset_lots hl⟩

theorem long (h : Restated s asset p now r realized) {l : PositionLot} (hl : l ∈ r.lots) :
    l.positionSide = .long := by
  obtain ⟨haccepted, -⟩ := previewFeeReplay_ok_iff.1 h.lots
  obtain ⟨l₀, hl₀, hsame⟩ := h.exists_stored hl
  rw [← haccepted.long l₀ hl₀]
  exact (hsame.keeps (fun f => f.positionSide) fun _ => rfl).symm

end Restated

/-! ### The holding -/

/-- A holding as a replay leaves it: quantity and average price of the lots, and the rest as it
was. -/
structure RestatedFrom (lots : List PositionLot) (previous h : Holding) : Prop where
  asset : h.asset = previous.asset
  quantity : h.quantity = quantityOf lots
  averagePrice : h.averagePrice =
    Settlement.sumOver lots (fun l => l.remainingQuantity * l.acquisitionPrice) / quantityOf lots
  levels : h.stopLoss = previous.stopLoss ∧ h.targetPrice = previous.targetPrice
  sector : h.sector = previous.sector
  monitor : h.currentStop = previous.currentStop ∧ h.scaledOut = previous.scaledOut

theorem restatedHolding_ok {lots : List PositionLot} {previous out : Option Holding}
    (h : restatedHolding now lots previous = .ok out) :
    (quantityOf lots = 0 ∧ out = none) ∨
      ∃ holding h', quantityOf lots ≠ 0 ∧ previous = some holding ∧ out = some h' ∧
        RestatedFrom lots holding h' := by
  cases previous with
  | none =>
      simp only [restatedHolding] at h
      split at h
      · rename_i hzero
        cases h
        exact .inl ⟨hzero, rfl⟩
      · cases h
  | some holding =>
      simp only [restatedHolding] at h
      split at h
      · rename_i hzero
        cases h
        exact .inl ⟨hzero, rfl⟩
      · rename_i hne
        right
        obtain ⟨updated, hupdated, h⟩ := except_bind_eq_ok.1 h
        have hfields := Holding.make_eq_ok_iff.1 hupdated
        have hfrom : RestatedFrom lots holding updated :=
          { asset := congrArg (·.asset) hfields
            quantity := congrArg (·.quantity) hfields
            averagePrice := congrArg (·.averagePrice) hfields
            levels := ⟨congrArg (·.stopLoss) hfields, congrArg (·.targetPrice) hfields⟩
            sector := congrArg (·.sector) hfields
            monitor := ⟨congrArg (·.currentStop) hfields, congrArg (·.scaledOut) hfields⟩ }
        split at h
        · obtain ⟨stamped, hstamped, h⟩ := except_bind_eq_ok.1 h
          cases h
          have hstamp := Holding.make_eq_ok_iff.1 hstamped
          refine ⟨holding, stamped, hne, rfl, rfl, ?_⟩
          exact
            { asset := (congrArg (·.asset) hstamp).trans hfrom.asset
              quantity := (congrArg (·.quantity) hstamp).trans hfrom.quantity
              averagePrice := (congrArg (·.averagePrice) hstamp).trans hfrom.averagePrice
              levels := ⟨(congrArg (·.stopLoss) hstamp).trans hfrom.levels.1,
                (congrArg (·.targetPrice) hstamp).trans hfrom.levels.2⟩
              sector := (congrArg (·.sector) hstamp).trans hfrom.sector
              monitor := ⟨(congrArg (·.currentStop) hstamp).trans hfrom.monitor.1,
                (congrArg (·.scaledOut) hstamp).trans hfrom.monitor.2⟩ }
        · cases h
          exact ⟨holding, updated, hne, rfl, rfl, hfrom⟩

theorem Restated.get?_holding {realized : OrderedDict String ℚ}
    (h : Restated s asset p now r realized) (hw : r.Wrote s asset p t) :
    t.holdings.get? (holdingRecordId asset) = r.holding := by
  have hfits : ∀ c ∈ [(⟨holdingRecordId asset, s.holdings.get? (holdingRecordId asset),
      r.holding⟩ : Change Holding)], c.Fits s.holdings := by
    intro c hc
    rw [List.mem_singleton.1 hc]
    refine ⟨fun _ => rfl, fun x hx => ?_, fun _ _ _ _ => rfl⟩
    obtain ⟨-, hnone⟩ | ⟨holding, h', -, hold, hnew, hfrom⟩ := restatedHolding_ok h.holding
    · rw [hnone] at hx
      cases hx
    · rw [hnew] at hx
      cases hx
      obtain ⟨-, hid⟩ := Table.get?_eq_some_iff.1 hold
      exact (congrArg holdingRecordId hfrom.asset).trans hid
  have hmem := fun a : Holding => Table.mem_changeAll (a := a) hfits (by simp) hw.holdings
  refine Option.ext fun a => ?_
  rw [Table.get?_eq_some_iff, hmem]
  simp only [List.mem_singleton, exists_eq_left, List.map_cons, List.map_nil]
  constructor
  · rintro ⟨hnew | ⟨-, hother⟩, hid⟩
    · exact hnew
    · exact absurd hid hother
  · intro hnew
    exact ⟨.inl hnew, (hfits _ List.mem_cons_self).named a hnew⟩

end HistoricalFees

end TradePulse
