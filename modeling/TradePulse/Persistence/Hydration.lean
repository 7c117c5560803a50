/-
**The records of the financial tables, written and read.**

For each of the nine tables: the fields that are written, in the order of the dataclass, and the
function that reads them and builds the record again.

Main definitions:

* `Instrumented` — a record that may have an instrument, which nothing else in it depends on;
* `TradeIntent.fields`, `Fill.fields`, … — what is written;
* `decodeTradeIntent`, `decodeFill`, … — what is read.

Main results:

* `built_mapAsset` — a record stays a built one under another instrument;
* `decodeTradeIntent_encode`, `decodeFill_encode`, … — **a record is read back with every field,
  its instrument without the multiplier that it was built with**.
-/

import TradePulse.Persistence.Payload

set_option autoImplicit false

namespace TradePulse

open Encoding

namespace Stored

/-- A record that may have an instrument: it is normalised and checked without regard to it. -/
class Instrumented (α : Type) extends PostInit α where
  asset : α → Option AssetIdentity
  mapAsset : (AssetIdentity → AssetIdentity) → α → α
  normalize_mapAsset : ∀ str f m, normalize str (mapAsset f m) = mapAsset f (normalize str m)
  checks_mapAsset : ∀ str f m, checks str (mapAsset f m) = checks str m

/-- **A record stays a built one under another instrument.** -/
theorem built_mapAsset {α : Type} [Instrumented α] (str : StrMethods)
    (f : AssetIdentity → AssetIdentity) {m : α} (h : Built str m) :
    Built str (Instrumented.mapAsset f m) := by
  obtain ⟨hnormal, hsound⟩ := (built_iff str).1 h
  refine (built_iff str).2 ⟨?_, ?_⟩
  · rw [Instrumented.normalize_mapAsset, hnormal]
  · intro c hc
    rw [Instrumented.checks_mapAsset] at hc
    exact hsound c hc

/-! ### Intents -/

def TradeIntent.fields (m : TradeIntent) : List (String × Json) :=
  [ ("trade_intent_id", .str m.tradeIntentId),
    ("idempotency_key", .str m.idempotencyKey),
    ("correlation_id", .str m.correlationId),
    ("asset", assetJson m.asset),
    ("side", enumJson m.side),
    ("execution_mode", enumJson m.executionMode),
    ("strategy", .str m.strategy),
    ("created_at", dateJson m.createdAt),
    ("requested_quantity", optionJson decimalJson m.requestedQuantity),
    ("requested_notional", optionJson decimalJson m.requestedNotional),
    ("reference_price", optionJson decimalJson m.referencePrice),
    ("confidence", optionJson .num m.confidence),
    ("risk_snapshot", m.riskSnapshot.toJson id),
    ("status", enumJson m.status),
    ("filled_quantity", decimalJson m.filledQuantity),
    ("filled_avg_price", optionJson decimalJson m.filledAvgPrice),
    ("broker_order_id", optionJson .str m.brokerOrderId),
    ("client_order_id", optionJson .str m.clientOrderId),
    ("reserved_cash", optionJson decimalJson m.reservedCash),
    ("consumed_cash", optionJson decimalJson m.consumedCash),
    ("realized_pnl", optionJson decimalJson m.realizedPnl),
    ("rejection_reason", optionJson .str m.rejectionReason),
    ("sector", optionJson .str m.sector),
    ("stop_loss", optionJson decimalJson m.stopLoss),
    ("target_price", optionJson decimalJson m.targetPrice),
    ("order_type", .str m.orderType),
    ("signal_timestamp", optionJson .str m.signalTimestamp),
    ("submitted_at", optionJson dateJson m.submittedAt) ]

/-- `decode_trade_intent`. -/
def decodeTradeIntent (str : StrMethods) (d : Json) : Except Raised TradeIntent := do
  let tradeIntentId ← read "trade_intent_id" text d
  let idempotencyKey ← read "idempotency_key" text d
  let correlationId ← read "correlation_id" text d
  let asset ← read "asset" (assetIdentity str) d
  let side ← read "side" member d
  let executionMode ← read "execution_mode" member d
  let strategy ← read "strategy" text d
  let createdAt ← read "created_at" datetime d
  let requestedQuantity ← readOr "requested_quantity" .null (orNone decimal) d
  let requestedNotional ← readOr "requested_notional" .null (orNone decimal) d
  let referencePrice ← readOr "reference_price" .null (orNone decimal) d
  let confidence ← readOr "confidence" .null (orNone number) d
  let riskSnapshot ← readOr "risk_snapshot" .null (mapping .ok) d
  let status ← readOr "status" (enumJson TradeIntentStatus.proposed) member d
  let filledQuantity ← readOr "filled_quantity" (.str "0") decimal d
  let filledAvgPrice ← readOr "filled_avg_price" .null (orNone decimal) d
  let brokerOrderId ← readOr "broker_order_id" .null (orNone text) d
  let clientOrderId ← readOr "client_order_id" .null (orNone text) d
  let reservedCash ← readOr "reserved_cash" .null (orNone decimal) d
  let consumedCash ← readOr "consumed_cash" .null (orNone decimal) d
  let realizedPnl ← readOr "realized_pnl" .null (orNone decimal) d
  let rejectionReason ← readOr "rejection_reason" .null (orNone text) d
  let sector ← readOr "sector" .null (orNone text) d
  let stopLoss ← readOr "stop_loss" .null (orNone decimal) d
  let targetPrice ← readOr "target_price" .null (orNone decimal) d
  let orderType ← readOr "order_type" (.str "market") text d
  let signalTimestamp ← readOr "signal_timestamp" .null (orNone text) d
  let submittedAt ← readOr "submitted_at" .null (orNone datetime) d
  build str
    { tradeIntentId, idempotencyKey, correlationId, asset, side, executionMode, strategy, createdAt,
      requestedQuantity, requestedNotional, referencePrice, confidence, riskSnapshot, status,
      filledQuantity, filledAvgPrice, brokerOrderId, clientOrderId, reservedCash, consumedCash,
      realizedPnl, rejectionReason, sector, stopLoss, targetPrice, orderType, signalTimestamp,
      submittedAt }

instance : Instrumented TradeIntent where
  asset m := some m.asset
  mapAsset f m := { m with asset := f m.asset }
  normalize_mapAsset _ _ _ := rfl
  checks_mapAsset _ _ _ := rfl

theorem nodup_tradeIntentFields (m : TradeIntent) : (m.fields.map Prod.fst).Nodup := by
  simp only [TradeIntent.fields, List.map_cons, List.map_nil]
  decide

theorem decodeTradeIntent_encode {str : StrMethods} {m : TradeIntent} (hm : Built str m)
    (ha : Built str m.asset) :
    decodeTradeIntent str (Json.object m.fields) = .ok { m with asset := m.asset.reread } := by
  have hbuild : build str { m with asset := m.asset.reread } = .ok _ :=
    build_of_built str (built_mapAsset str AssetIdentity.reread hm)
  have hget := Json.get?_object (nodup_tradeIntentFields m)
  generalize Json.object m.fields = d at hget
  simp [decodeTradeIntent, read, readOr, hget, TradeIntent.fields, List.lookup_cons,
    assetIdentity_encode ha, hbuild]

/-! ### Fills -/

def Fill.fields (m : Fill) : List (String × Json) :=
  [ ("fill_id", .str m.fillId),
    ("trade_intent_id", .str m.tradeIntentId),
    ("order_id", .str m.orderId),
    ("asset", assetJson m.asset),
    ("side", enumJson m.side),
    ("execution_mode", enumJson m.executionMode),
    ("quantity", decimalJson m.quantity),
    ("price", decimalJson m.price),
    ("fees", decimalJson m.fees),
    ("slippage", decimalJson m.slippage),
    ("filled_at", dateJson m.filledAt),
    ("broker_fill_id", optionJson .str m.brokerFillId),
    ("reference_price", optionJson decimalJson m.referencePrice),
    ("reference_bid", optionJson decimalJson m.referenceBid),
    ("reference_ask", optionJson decimalJson m.referenceAsk),
    ("reference_observed_at", optionJson dateJson m.referenceObservedAt),
    ("submitted_at", optionJson dateJson m.submittedAt),
    ("order_type", optionJson .str m.orderType),
    ("fee_currency", optionJson .str m.feeCurrency),
    ("fee_source", .str m.feeSource) ]

/-- `decode_fill`. -/
def decodeFill (str : StrMethods) (d : Json) : Except Raised Fill := do
  let fillId ← read "fill_id" text d
  let tradeIntentId ← read "trade_intent_id" text d
  let orderId ← read "order_id" text d
  let asset ← read "asset" (assetIdentity str) d
  let side ← read "side" member d
  let executionMode ← read "execution_mode" member d
  let quantity ← read "quantity" decimal d
  let price ← read "price" decimal d
  let fees ← read "fees" decimal d
  let slippage ← read "slippage" decimal d
  let filledAt ← read "filled_at" datetime d
  let brokerFillId ← readOr "broker_fill_id" .null (orNone text) d
  let referencePrice ← readOr "reference_price" .null (orNone decimal) d
  let referenceBid ← readOr "reference_bid" .null (orNone decimal) d
  let referenceAsk ← readOr "reference_ask" .null (orNone decimal) d
  let referenceObservedAt ← readOr "reference_observed_at" .null (orNone datetime) d
  let submittedAt ← readOr "submitted_at" .null (orNone datetime) d
  let orderType ← readOr "order_type" .null (orNone text) d
  let feeCurrency ← readOr "fee_currency" .null (orNone text) d
  let feeSource ← readOr "fee_source" (.str "unavailable") text d
  build str
    { fillId, tradeIntentId, orderId, asset, side, executionMode, quantity, price, fees, slippage,
      filledAt, brokerFillId, referencePrice, referenceBid, referenceAsk, referenceObservedAt,
      submittedAt, orderType, feeCurrency, feeSource }

instance : Instrumented Fill where
  asset m := some m.asset
  mapAsset f m := { m with asset := f m.asset }
  normalize_mapAsset _ _ _ := rfl
  checks_mapAsset _ _ _ := rfl

theorem nodup_fillFields (m : Fill) : (m.fields.map Prod.fst).Nodup := by
  simp only [Fill.fields, List.map_cons, List.map_nil]
  decide

theorem decodeFill_encode {str : StrMethods} {m : Fill} (hm : Built str m)
    (ha : Built str m.asset) :
    decodeFill str (Json.object m.fields) = .ok { m with asset := m.asset.reread } := by
  have hbuild : build str { m with asset := m.asset.reread } = .ok _ :=
    build_of_built str (built_mapAsset str AssetIdentity.reread hm)
  have hget := Json.get?_object (nodup_fillFields m)
  generalize Json.object m.fields = d at hget
  simp [decodeFill, read, readOr, hget, Fill.fields, List.lookup_cons, assetIdentity_encode ha,
    hbuild]

/-! ### Settlement events -/

def SettlementEvent.fields (m : SettlementEvent) : List (String × Json) :=
  [ ("settlement_event_id", .str m.settlementEventId),
    ("fill_id", .str m.fillId),
    ("trade_intent_id", .str m.tradeIntentId),
    ("asset", assetJson m.asset),
    ("side", enumJson m.side),
    ("execution_mode", enumJson m.executionMode),
    ("quantity", decimalJson m.quantity),
    ("price", decimalJson m.price),
    ("occurred_at", dateJson m.occurredAt),
    ("status", enumJson m.status),
    ("fees", decimalJson m.fees),
    ("sector", optionJson .str m.sector),
    ("broker_order_id", optionJson .str m.brokerOrderId),
    ("broker_fill_id", optionJson .str m.brokerFillId),
    ("client_order_id", optionJson .str m.clientOrderId),
    ("lot_projected", .bool m.lotProjected),
    ("attribution_projected", .bool m.attributionProjected),
    ("cash_projected", .bool m.cashProjected),
    ("holding_projected", .bool m.holdingProjected),
    ("trade_projected", .bool m.tradeProjected),
    ("integrity_verified", .bool m.integrityVerified),
    ("liability_hold_projected", .bool m.liabilityHoldProjected),
    ("realized_pnl", optionJson decimalJson m.realizedPnl),
    ("attempt_count", .int m.attemptCount),
    ("error_code", optionJson .str m.errorCode),
    ("next_retry_at", optionJson dateJson m.nextRetryAt),
    ("processing_owner", optionJson .str m.processingOwner),
    ("processing_started_at", optionJson dateJson m.processingStartedAt) ]

/-- `d.get("status") == "completed"`. -/
def isCompleted (d : Json) : Bool :=
  match d.get? "status" with
  | some (.str s) => s == SettlementStatus.completed.value
  | _ => false

/-- `decode_settlement`; an event completed by an older version had no liability to hold. -/
def decodeSettlement (str : StrMethods) (d : Json) : Except Raised SettlementEvent := do
  let settlementEventId ← read "settlement_event_id" text d
  let fillId ← read "fill_id" text d
  let tradeIntentId ← read "trade_intent_id" text d
  let asset ← read "asset" (assetIdentity str) d
  let side ← read "side" member d
  let executionMode ← read "execution_mode" member d
  let quantity ← read "quantity" decimal d
  let price ← read "price" decimal d
  let occurredAt ← read "occurred_at" datetime d
  let status ← readOr "status" (enumJson SettlementStatus.pending) member d
  let fees ← readOr "fees" (.str "0") decimal d
  let sector ← readOr "sector" .null (orNone text) d
  let brokerOrderId ← readOr "broker_order_id" .null (orNone text) d
  let brokerFillId ← readOr "broker_fill_id" .null (orNone text) d
  let clientOrderId ← readOr "client_order_id" .null (orNone text) d
  let lotProjected ← readOr "lot_projected" (.bool false) flag d
  let attributionProjected ← readOr "attribution_projected" (.bool false) flag d
  let cashProjected ← readOr "cash_projected" (.bool false) flag d
  let holdingProjected ← readOr "holding_projected" (.bool false) flag d
  let tradeProjected ← readOr "trade_projected" (.bool false) flag d
  let integrityVerified ← readOr "integrity_verified" (.bool false) flag d
  let liabilityHoldProjected ← readOr "liability_hold_projected" (.bool (isCompleted d)) flag d
  let realizedPnl ← readOr "realized_pnl" .null (orNone decimal) d
  let attemptCount ← readOr "attempt_count" (.int 0) integer d
  let errorCode ← readOr "error_code" .null (orNone text) d
  let nextRetryAt ← readOr "next_retry_at" .null (orNone datetime) d
  let processingOwner ← readOr "processing_owner" .null (orNone text) d
  let processingStartedAt ← readOr "processing_started_at" .null (orNone datetime) d
  build str
    { settlementEventId, fillId, tradeIntentId, asset, side, executionMode, quantity, price,
      occurredAt, status, fees, sector, brokerOrderId, brokerFillId, clientOrderId, lotProjected,
      attributionProjected, cashProjected, holdingProjected, tradeProjected, integrityVerified,
      liabilityHoldProjected, realizedPnl, attemptCount, errorCode, nextRetryAt, processingOwner,
      processingStartedAt }

instance : Instrumented SettlementEvent where
  asset m := some m.asset
  mapAsset f m := { m with asset := f m.asset }
  normalize_mapAsset _ _ _ := rfl
  checks_mapAsset _ _ _ := rfl

theorem nodup_settlementEventFields (m : SettlementEvent) : (m.fields.map Prod.fst).Nodup := by
  simp only [SettlementEvent.fields, List.map_cons, List.map_nil]
  decide

theorem decodeSettlement_encode {str : StrMethods} {m : SettlementEvent} (hm : Built str m)
    (ha : Built str m.asset) :
    decodeSettlement str (Json.object m.fields) = .ok { m with asset := m.asset.reread } := by
  have hbuild : build str { m with asset := m.asset.reread } = .ok _ :=
    build_of_built str (built_mapAsset str AssetIdentity.reread hm)
  have hget := Json.get?_object (nodup_settlementEventFields m)
  generalize Json.object m.fields = d at hget
  simp [decodeSettlement, read, readOr, hget, SettlementEvent.fields, List.lookup_cons,
    assetIdentity_encode ha, hbuild]

/-! ### Holds -/

def IntegrityHold.fields (m : IntegrityHold) : List (String × Json) :=
  [ ("broker_order_id", .str m.brokerOrderId),
    ("trade_intent_id", .str m.tradeIntentId),
    ("hold_type", enumJson m.holdType),
    ("reason", .str m.reason),
    ("created_at", dateJson m.createdAt),
    ("attempt_count", .int m.attemptCount),
    ("next_retry_at", optionJson dateJson m.nextRetryAt) ]

/-- `decode_integrity_hold`. -/
def decodeIntegrityHold (str : StrMethods) (d : Json) : Except Raised IntegrityHold := do
  let brokerOrderId ← read "broker_order_id" text d
  let tradeIntentId ← read "trade_intent_id" text d
  let holdType ← read "hold_type" member d
  let reason ← read "reason" text d
  let createdAt ← read "created_at" datetime d
  let attemptCount ← readOr "attempt_count" (.int 0) integer d
  let nextRetryAt ← readOr "next_retry_at" .null (orNone datetime) d
  build str
    { brokerOrderId, tradeIntentId, holdType, reason, createdAt, attemptCount, nextRetryAt }

instance : Instrumented IntegrityHold where
  asset _ := none
  mapAsset _ m := m
  normalize_mapAsset _ _ _ := rfl
  checks_mapAsset _ _ _ := rfl

theorem nodup_integrityHoldFields (m : IntegrityHold) : (m.fields.map Prod.fst).Nodup := by
  simp only [IntegrityHold.fields, List.map_cons, List.map_nil]
  decide

theorem decodeIntegrityHold_encode {str : StrMethods} {m : IntegrityHold} (hm : Built str m) :
    decodeIntegrityHold str (Json.object m.fields) = .ok m := by
  have hget := Json.get?_object (nodup_integrityHoldFields m)
  generalize Json.object m.fields = d at hget
  simp [decodeIntegrityHold, read, readOr, hget, IntegrityHold.fields, List.lookup_cons, build_of_built str hm]

/-! ### Holdings -/

def Holding.fields (m : Holding) : List (String × Json) :=
  [ ("asset", assetJson m.asset),
    ("quantity", decimalJson m.quantity),
    ("average_price", decimalJson m.averagePrice),
    ("updated_at", dateJson m.updatedAt),
    ("sector", optionJson .str m.sector),
    ("stop_loss", optionJson decimalJson m.stopLoss),
    ("target_price", optionJson decimalJson m.targetPrice),
    ("current_stop", optionJson decimalJson m.currentStop),
    ("scaled_out", .bool m.scaledOut) ]

/-- `decode_holding`. -/
def decodeHolding (str : StrMethods) (d : Json) : Except Raised Holding := do
  let asset ← read "asset" (assetIdentity str) d
  let quantity ← read "quantity" decimal d
  let averagePrice ← read "average_price" decimal d
  let updatedAt ← read "updated_at" datetime d
  let sector ← readOr "sector" .null (orNone text) d
  let stopLoss ← readOr "stop_loss" .null (orNone decimal) d
  let targetPrice ← readOr "target_price" .null (orNone decimal) d
  let currentStop ← readOr "current_stop" .null (orNone decimal) d
  let scaledOut ← readOr "scaled_out" (.bool false) truth d
  build str
    { asset, quantity, averagePrice, updatedAt, sector, stopLoss, targetPrice, currentStop,
      scaledOut }

instance : Instrumented Holding where
  asset m := some m.asset
  mapAsset f m := { m with asset := f m.asset }
  normalize_mapAsset _ _ _ := rfl
  checks_mapAsset _ _ _ := rfl

theorem nodup_holdingFields (m : Holding) : (m.fields.map Prod.fst).Nodup := by
  simp only [Holding.fields, List.map_cons, List.map_nil]
  decide

theorem decodeHolding_encode {str : StrMethods} {m : Holding} (hm : Built str m)
    (ha : Built str m.asset) :
    decodeHolding str (Json.object m.fields) = .ok { m with asset := m.asset.reread } := by
  have hbuild : build str { m with asset := m.asset.reread } = .ok _ :=
    build_of_built str (built_mapAsset str AssetIdentity.reread hm)
  have hget := Json.get?_object (nodup_holdingFields m)
  generalize Json.object m.fields = d at hget
  simp [decodeHolding, read, readOr, hget, Holding.fields, List.lookup_cons,
    assetIdentity_encode ha, hbuild]

/-! ### Lots -/

def PositionLot.fields (m : PositionLot) : List (String × Json) :=
  [ ("lot_id", .str m.lotId),
    ("originating_fill_id", .str m.originatingFillId),
    ("asset", assetJson m.asset),
    ("position_side", enumJson m.positionSide),
    ("opened_quantity", decimalJson m.openedQuantity),
    ("remaining_quantity", decimalJson m.remainingQuantity),
    ("acquisition_price", decimalJson m.acquisitionPrice),
    ("opened_at", dateJson m.openedAt),
    ("closures", m.closures.toJson decimalJson),
    ("realized_pnl", decimalJson m.realizedPnl),
    ("mfe_price", optionJson decimalJson m.mfePrice),
    ("mae_price", optionJson decimalJson m.maePrice),
    ("asset_fee_quantities", m.assetFeeQuantities.toJson decimalJson) ]

/-- `decode_position_lot`. -/
def decodePositionLot (str : StrMethods) (d : Json) : Except Raised PositionLot := do
  let lotId ← read "lot_id" text d
  let originatingFillId ← read "originating_fill_id" text d
  let asset ← read "asset" (assetIdentity str) d
  let positionSide ← read "position_side" member d
  let openedQuantity ← read "opened_quantity" decimal d
  let remainingQuantity ← read "remaining_quantity" decimal d
  let acquisitionPrice ← read "acquisition_price" decimal d
  let openedAt ← read "opened_at" datetime d
  let closures ← readOr "closures" .null (mapping decimal) d
  let realizedPnl ← readOr "realized_pnl" (.str "0") decimal d
  let mfePrice ← readOr "mfe_price" .null (orNone decimal) d
  let maePrice ← readOr "mae_price" .null (orNone decimal) d
  let assetFeeQuantities ← readOr "asset_fee_quantities" (.obj []) (mapping decimal) d
  build str
    { lotId, originatingFillId, asset, positionSide, openedQuantity, remainingQuantity,
      acquisitionPrice, openedAt, closures, realizedPnl, mfePrice, maePrice, assetFeeQuantities }

instance : Instrumented PositionLot where
  asset m := some m.asset
  mapAsset f m := { m with asset := f m.asset }
  normalize_mapAsset _ _ _ := rfl
  checks_mapAsset _ _ _ := rfl

theorem nodup_positionLotFields (m : PositionLot) : (m.fields.map Prod.fst).Nodup := by
  simp only [PositionLot.fields, List.map_cons, List.map_nil]
  decide

theorem decodePositionLot_encode {str : StrMethods} {m : PositionLot} (hm : Built str m)
    (ha : Built str m.asset) :
    decodePositionLot str (Json.object m.fields) = .ok { m with asset := m.asset.reread } := by
  have hbuild : build str { m with asset := m.asset.reread } = .ok _ :=
    build_of_built str (built_mapAsset str AssetIdentity.reread hm)
  have hget := Json.get?_object (nodup_positionLotFields m)
  generalize Json.object m.fields = d at hget
  simp [decodePositionLot, read, readOr, hget, PositionLot.fields, List.lookup_cons,
    assetIdentity_encode ha, hbuild]

/-! ### Attributions -/

def TradeAttribution.fields (m : TradeAttribution) : List (String × Json) :=
  [ ("attribution_id", .str m.attributionId),
    ("asset", assetJson m.asset),
    ("lot_id", .str m.lotId),
    ("opening_trade_intent_id", .str m.openingTradeIntentId),
    ("closing_trade_intent_id", .str m.closingTradeIntentId),
    ("closing_fill_id", .str m.closingFillId),
    ("quantity", decimalJson m.quantity),
    ("entry_price", decimalJson m.entryPrice),
    ("entry_at", dateJson m.entryAt),
    ("exit_price", decimalJson m.exitPrice),
    ("exit_at", dateJson m.exitAt),
    ("realized_pnl", decimalJson m.realizedPnl),
    ("created_at", dateJson m.createdAt),
    ("exit_reason", optionJson .str m.exitReason),
    ("max_favorable_excursion", optionJson decimalJson m.maxFavorableExcursion),
    ("max_adverse_excursion", optionJson decimalJson m.maxAdverseExcursion),
    ("entry_context", m.entryContext.toJson id) ]

/-- `decode_trade_attribution`. -/
def decodeTradeAttribution (str : StrMethods) (d : Json) : Except Raised TradeAttribution := do
  let attributionId ← read "attribution_id" text d
  let asset ← read "asset" (assetIdentity str) d
  let lotId ← read "lot_id" text d
  let openingTradeIntentId ← read "opening_trade_intent_id" text d
  let closingTradeIntentId ← read "closing_trade_intent_id" text d
  let closingFillId ← read "closing_fill_id" text d
  let quantity ← read "quantity" decimal d
  let entryPrice ← read "entry_price" decimal d
  let entryAt ← read "entry_at" datetime d
  let exitPrice ← read "exit_price" decimal d
  let exitAt ← read "exit_at" datetime d
  let realizedPnl ← read "realized_pnl" decimal d
  let createdAt ← read "created_at" datetime d
  let exitReason ← readOr "exit_reason" .null (orNone text) d
  let maxFavorableExcursion ← readOr "max_favorable_excursion" .null (orNone decimal) d
  let maxAdverseExcursion ← readOr "max_adverse_excursion" .null (orNone decimal) d
  let entryContext ← readOr "entry_context" .null (mapping .ok) d
  build str
    { attributionId, asset, lotId, openingTradeIntentId, closingTradeIntentId, closingFillId,
      quantity, entryPrice, entryAt, exitPrice, exitAt, realizedPnl, createdAt, exitReason,
      maxFavorableExcursion, maxAdverseExcursion, entryContext }

instance : Instrumented TradeAttribution where
  asset m := some m.asset
  mapAsset f m := { m with asset := f m.asset }
  normalize_mapAsset _ _ _ := rfl
  checks_mapAsset _ _ _ := rfl

theorem nodup_tradeAttributionFields (m : TradeAttribution) : (m.fields.map Prod.fst).Nodup := by
  simp only [TradeAttribution.fields, List.map_cons, List.map_nil]
  decide

theorem decodeTradeAttribution_encode {str : StrMethods} {m : TradeAttribution} (hm : Built str m)
    (ha : Built str m.asset) :
    decodeTradeAttribution str (Json.object m.fields) = .ok { m with asset := m.asset.reread } := by
  have hbuild : build str { m with asset := m.asset.reread } = .ok _ :=
    build_of_built str (built_mapAsset str AssetIdentity.reread hm)
  have hget := Json.get?_object (nodup_tradeAttributionFields m)
  generalize Json.object m.fields = d at hget
  simp [decodeTradeAttribution, read, readOr, hget, TradeAttribution.fields, List.lookup_cons,
    assetIdentity_encode ha, hbuild]

/-! ### Cash and results -/

def CashLedgerEntry.fields (m : CashLedgerEntry) : List (String × Json) :=
  [ ("entry_id", .str m.entryId),
    ("idempotency_key", .str m.idempotencyKey),
    ("amount", decimalJson m.amount),
    ("currency", .str m.currency),
    ("occurred_at", dateJson m.occurredAt),
    ("reason", .str m.reason) ]

/-- `decode_cash_ledger_entry`. -/
def decodeCashLedgerEntry (str : StrMethods) (d : Json) : Except Raised CashLedgerEntry := do
  let entryId ← read "entry_id" text d
  let idempotencyKey ← read "idempotency_key" text d
  let amount ← read "amount" decimal d
  let currency ← read "currency" text d
  let occurredAt ← read "occurred_at" datetime d
  let reason ← read "reason" text d
  build str
    { entryId, idempotencyKey, amount, currency, occurredAt, reason }

instance : Instrumented CashLedgerEntry where
  asset _ := none
  mapAsset _ m := m
  normalize_mapAsset _ _ _ := rfl
  checks_mapAsset _ _ _ := rfl

theorem nodup_cashLedgerEntryFields (m : CashLedgerEntry) : (m.fields.map Prod.fst).Nodup := by
  simp only [CashLedgerEntry.fields, List.map_cons, List.map_nil]
  decide

theorem decodeCashLedgerEntry_encode {str : StrMethods} {m : CashLedgerEntry} (hm : Built str m) :
    decodeCashLedgerEntry str (Json.object m.fields) = .ok m := by
  have hget := Json.get?_object (nodup_cashLedgerEntryFields m)
  generalize Json.object m.fields = d at hget
  simp [decodeCashLedgerEntry, read, hget, CashLedgerEntry.fields, List.lookup_cons, build_of_built str hm]

def PnlRecord.fields (m : PnlRecord) : List (String × Json) :=
  [ ("record_id", .str m.recordId),
    ("asset", assetJson m.asset),
    ("realized", decimalJson m.realized),
    ("unrealized", decimalJson m.unrealized),
    ("as_of", dateJson m.asOf) ]

/-- `decode_pnl_record`. -/
def decodePnlRecord (str : StrMethods) (d : Json) : Except Raised PnlRecord := do
  let recordId ← read "record_id" text d
  let asset ← read "asset" (assetIdentity str) d
  let realized ← read "realized" decimal d
  let unrealized ← read "unrealized" decimal d
  let asOf ← read "as_of" datetime d
  build str
    { recordId, asset, realized, unrealized, asOf }

instance : Instrumented PnlRecord where
  asset m := some m.asset
  mapAsset f m := { m with asset := f m.asset }
  normalize_mapAsset _ _ _ := rfl
  checks_mapAsset _ _ _ := rfl

theorem nodup_pnlRecordFields (m : PnlRecord) : (m.fields.map Prod.fst).Nodup := by
  simp only [PnlRecord.fields, List.map_cons, List.map_nil]
  decide

theorem decodePnlRecord_encode {str : StrMethods} {m : PnlRecord} (hm : Built str m)
    (ha : Built str m.asset) :
    decodePnlRecord str (Json.object m.fields) = .ok { m with asset := m.asset.reread } := by
  have hbuild : build str { m with asset := m.asset.reread } = .ok _ :=
    build_of_built str (built_mapAsset str AssetIdentity.reread hm)
  have hget := Json.get?_object (nodup_pnlRecordFields m)
  generalize Json.object m.fields = d at hget
  simp [decodePnlRecord, read, hget, PnlRecord.fields, List.lookup_cons,
    assetIdentity_encode ha, hbuild]

end Stored

end TradePulse
