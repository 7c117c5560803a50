/-
**The records of the financial tables, with all their fields.**

Elsewhere a record carries the fields that the procedure at hand reads, and its decimals by their
values.  Here the nine records that the financial tables hold carry every field, as the dataclasses
declare them, and their decimals digit by digit, since this is what is written to a payload.

Building a record normalises it (required texts are stripped, a symbol and a currency are put into
capitals, the multiplier of a contract is copied into the metadata) and then checks it.

Main definitions:

* `PostInit`, `build`, `Built`, `Sound` — normalising and checking (`__post_init__`);
* `Stored.AssetIdentity`, `Stored.contractMultiplierOf` — instruments, and their multipliers;
* `Stored.TradeIntent`, `Stored.Fill`, `Stored.SettlementEvent`, `Stored.PositionLot`,
  `Stored.Holding`, `Stored.TradeAttribution`, `Stored.CashLedgerEntry`, `Stored.PnlRecord`,
  `Stored.IntegrityHold` — the records.

Main results:

* `built_iff` — a record was built exactly when normalising leaves it and its checks pass.
-/

import TradePulse.Encoding.IsoTime
import TradePulse.Encoding.Text
import TradePulse.Encoding.Json
import TradePulse.Models.Market

set_option autoImplicit false

namespace TradePulse

open Encoding

/-! ### Building a record -/

/-- A record that normalises and then checks itself when it is built. -/
class PostInit (α : Type) where
  normalize : StrMethods → α → α
  checks : StrMethods → α → List (Bool × String)
  normalize_normalize : ∀ str a, normalize str (normalize str a) = normalize str a

section Build

variable {α : Type} [PostInit α] (str : StrMethods)

/-- `__post_init__`: the first check that fails raises. -/
def build (a : α) : Except Raised α :=
  let made := PostInit.normalize str a
  match (PostInit.checks str made).find? fun c => !c.1 with
  | some failed => .error (.valueError failed.2)
  | none => .ok made

/-- A record that some arguments were made into. -/
def Built (m : α) : Prop := ∃ a, build str a = .ok m

/-- All the checks of a record pass. -/
def Sound (m : α) : Prop := ∀ c ∈ PostInit.checks str m, c.1 = true

instance (m : α) : Decidable (Sound str m) :=
  inferInstanceAs (Decidable (∀ c ∈ PostInit.checks str m, c.1 = true))

theorem build_eq_ok_iff {a m : α} :
    build str a = .ok m ↔ PostInit.normalize str a = m ∧ Sound str m := by
  have hfind : ∀ l : List (Bool × String),
      (l.find? fun c => !c.1) = none ↔ ∀ c ∈ l, c.1 = true := by
    intro l
    simp [List.find?_eq_none]
  unfold build Sound
  dsimp only
  split
  · rename_i failed hfailed
    refine ⟨fun h => absurd h (by simp), ?_⟩
    rintro ⟨rfl, hsound⟩
    rw [(hfind _).2 hsound] at hfailed
    exact absurd hfailed (by simp)
  · rename_i hnone
    refine ⟨?_, fun h => congrArg Except.ok h.1⟩
    intro h
    obtain rfl : PostInit.normalize str a = m := by simpa using h
    exact ⟨rfl, (hfind _).1 hnone⟩

/-- **A record was built exactly when normalising leaves it and its checks pass.** -/
theorem built_iff {m : α} : Built str m ↔ PostInit.normalize str m = m ∧ Sound str m := by
  constructor
  · rintro ⟨a, ha⟩
    obtain ⟨rfl, hsound⟩ := (build_eq_ok_iff str).1 ha
    exact ⟨PostInit.normalize_normalize str a, hsound⟩
  · exact fun h => ⟨m, (build_eq_ok_iff str).2 h⟩

/-- A record that was built is built from itself. -/
theorem build_of_built {m : α} (h : Built str m) : build str m = .ok m :=
  (build_eq_ok_iff str).2 ((built_iff str).1 h)

end Build

/-- The check of a text that is required when it is there. -/
def optionalTextCheck (s : Option String) (field : String) : Bool × String :=
  (s.all (· != ""), field ++ " is required")

/-- The check of a nonnegative decimal that may be absent. -/
def optionalNonnegativeCheck (q : Option ℚ) (field : String) : Bool × String :=
  (q.all fun x => decide (0 ≤ x), field ++ " must be nonnegative")

namespace Stored

/-! ### Instruments -/

/-- What may be passed for the multiplier of a contract. -/
inductive Multiplier
  | decimal (d : Decimal)
  | text (s : String)
  | int (n : ℤ)
  deriving DecidableEq

/-- `Decimal(str(value))`. -/
def Multiplier.toDecimal (str : StrMethods) : Multiplier → Option Decimal
  | decimal d => some d
  | text s => Decimal.parse (str.strip s).toList
  | int n => some ⟨decide (n < 0), n.natAbs, 0⟩

/-- The text of a decimal. -/
def decimalText (d : Decimal) : String := String.ofList d.toSciString

/-- A financial instrument. -/
structure AssetIdentity where
  symbol : String
  assetClass : AssetClass
  nativeAssetId : String
  venue : Option String := none
  metadata : Mapping String := .empty
  contractMultiplier : Option Multiplier := none
  deriving DecidableEq

namespace AssetIdentity

variable (str : StrMethods)

/-- The metadata with the multiplier in it. -/
def withMultiplier (a : AssetIdentity) : Mapping String :=
  match a.contractMultiplier.bind (Multiplier.toDecimal str) with
  | some d => a.metadata.insert "contract_multiplier" (decimalText d)
  | none => a.metadata

def normalize (a : AssetIdentity) : AssetIdentity :=
  { a with
    symbol := str.upper (str.strip a.symbol)
    nativeAssetId := str.strip a.nativeAssetId
    metadata := a.withMultiplier str }

def checks (a : AssetIdentity) : List (Bool × String) :=
  [ textCheck a.symbol "symbol",
    textCheck a.nativeAssetId "native_asset_id",
    (a.contractMultiplier.all fun c => (c.toDecimal str).isSome,
      "contract_multiplier must be a decimal"),
    (a.contractMultiplier.all fun c => (c.toDecimal str).all fun d => decide (0 < d.toRat),
      "contract_multiplier must be positive") ]

/-- Copying the multiplier into the metadata again changes nothing. -/
theorem withMultiplier_normalize (a : AssetIdentity) :
    (a.normalize str).withMultiplier str = a.withMultiplier str := by
  simp only [withMultiplier, normalize]
  split
  · exact Mapping.insert_insert _ _ _
  · rfl

theorem normalize_normalize (a : AssetIdentity) :
    (a.normalize str).normalize str = a.normalize str := by
  have hsymbol : str.upper (str.strip (str.upper (str.strip a.symbol))) =
      str.upper (str.strip a.symbol) := by
    rw [str.strip_upper, str.upper_upper]
  change AssetIdentity.mk _ _ _ _ _ _ = AssetIdentity.mk _ _ _ _ _ _
  simp only [withMultiplier_normalize str a]
  simp only [normalize, hsymbol, str.strip_strip]

instance : PostInit AssetIdentity := ⟨normalize, checks, normalize_normalize⟩

end AssetIdentity

/-- `contract_multiplier_of`. -/
def contractMultiplierOf (a : AssetIdentity) : Except Raised Decimal :=
  match a.metadata.get? "contract_multiplier" with
  | none =>
      if a.assetClass = .option then .error (.valueError "option contract multiplier missing")
      else .ok ⟨false, 1, 0⟩
  | some s =>
      match Decimal.parse s.toList with
      | some d => .ok d
      | none => .error ⟨.other, "InvalidOperation"⟩

/-! ### Intents, fills and settlement events -/

/-- An instruction to trade.  Its risk snapshot is a free-form object. -/
structure TradeIntent where
  tradeIntentId : String
  idempotencyKey : String
  correlationId : String
  asset : AssetIdentity
  side : Side
  executionMode : ExecutionMode
  strategy : String
  createdAt : DateTime
  requestedQuantity : Option Decimal := none
  requestedNotional : Option Decimal := none
  referencePrice : Option Decimal := none
  confidence : Option ℚ := none
  riskSnapshot : Mapping Json := .empty
  status : TradeIntentStatus := .proposed
  filledQuantity : Decimal := ⟨false, 0, 0⟩
  filledAvgPrice : Option Decimal := none
  brokerOrderId : Option String := none
  clientOrderId : Option String := none
  reservedCash : Option Decimal := none
  consumedCash : Option Decimal := none
  realizedPnl : Option Decimal := none
  rejectionReason : Option String := none
  sector : Option String := none
  stopLoss : Option Decimal := none
  targetPrice : Option Decimal := none
  orderType : String := "market"
  signalTimestamp : Option String := none
  submittedAt : Option DateTime := none

/-- The value of a decimal that may be absent. -/
def rat (d : Option Decimal) : Option ℚ := d.map Decimal.toRat

instance : PostInit TradeIntent where
  normalize str m :=
    { m with
      tradeIntentId := str.strip m.tradeIntentId
      idempotencyKey := str.strip m.idempotencyKey
      correlationId := str.strip m.correlationId
      strategy := str.strip m.strategy
      orderType := str.strip m.orderType }
  checks _ m :=
    [ textCheck m.tradeIntentId "trade_intent_id",
      textCheck m.idempotencyKey "idempotency_key",
      textCheck m.correlationId "correlation_id",
      textCheck m.strategy "strategy",
      textCheck m.orderType "order_type",
      (m.requestedQuantity.isSome || m.requestedNotional.isSome,
        "requested_quantity or requested_notional is required"),
      optionalPositiveCheck (rat m.requestedQuantity) "requested_quantity",
      optionalPositiveCheck (rat m.requestedNotional) "requested_notional",
      optionalPositiveCheck (rat m.referencePrice) "reference_price",
      (m.confidence.all fun c => decide (0 ≤ c ∧ c ≤ 100), "confidence must be between 0 and 100"),
      nonnegativeCheck m.filledQuantity.toRat "filled_quantity",
      optionalPositiveCheck (rat m.filledAvgPrice) "filled_avg_price",
      optionalNonnegativeCheck (rat m.reservedCash) "reserved_cash",
      optionalNonnegativeCheck (rat m.consumedCash) "consumed_cash",
      optionalPositiveCheck (rat m.stopLoss) "stop_loss",
      optionalPositiveCheck (rat m.targetPrice) "target_price" ]
  normalize_normalize str m := by simp only [str.strip_strip]

/-- An execution that filled some of an intent. -/
structure Fill where
  fillId : String
  tradeIntentId : String
  orderId : String
  asset : AssetIdentity
  side : Side
  executionMode : ExecutionMode
  quantity : Decimal
  price : Decimal
  fees : Decimal
  slippage : Decimal
  filledAt : DateTime
  brokerFillId : Option String := none
  referencePrice : Option Decimal := none
  referenceBid : Option Decimal := none
  referenceAsk : Option Decimal := none
  referenceObservedAt : Option DateTime := none
  submittedAt : Option DateTime := none
  orderType : Option String := none
  feeCurrency : Option String := none
  feeSource : String := "unavailable"

/-- The two references stand in the order of a quote. -/
def quoteInOrder (bid ask : Option Decimal) : Bool :=
  bid.all fun b => ask.all fun a => decide (b.toRat ≤ a.toRat)

instance : PostInit Fill where
  normalize str m :=
    { m with
      fillId := str.strip m.fillId
      tradeIntentId := str.strip m.tradeIntentId
      orderId := str.strip m.orderId
      orderType := m.orderType.map str.strip
      feeCurrency := m.feeCurrency.map fun c => str.upper (str.strip c)
      feeSource := str.strip m.feeSource }
  checks _ m :=
    [ textCheck m.fillId "fill_id",
      textCheck m.tradeIntentId "trade_intent_id",
      textCheck m.orderId "order_id",
      positiveCheck m.quantity.toRat "quantity",
      positiveCheck m.price.toRat "price",
      nonnegativeCheck m.fees.toRat "fees",
      nonnegativeCheck m.slippage.toRat "slippage",
      optionalPositiveCheck (rat m.referencePrice) "reference_price",
      optionalPositiveCheck (rat m.referenceBid) "reference_bid",
      optionalPositiveCheck (rat m.referenceAsk) "reference_ask",
      optionalTextCheck m.orderType "order_type",
      optionalTextCheck m.feeCurrency "fee_currency",
      textCheck m.feeSource "fee_source",
      (quoteInOrder m.referenceBid m.referenceAsk,
        "reference_ask cannot be below reference_bid") ]
  normalize_normalize str m := by
    simp only [str.strip_strip, Option.map_map, Function.comp_def, str.strip_upper,
      str.upper_upper]

/-- The journey of a fill through settlement. -/
structure SettlementEvent where
  settlementEventId : String
  fillId : String
  tradeIntentId : String
  asset : AssetIdentity
  side : Side
  executionMode : ExecutionMode
  quantity : Decimal
  price : Decimal
  occurredAt : DateTime
  status : SettlementStatus := .pending
  fees : Decimal := ⟨false, 0, 0⟩
  sector : Option String := none
  brokerOrderId : Option String := none
  brokerFillId : Option String := none
  clientOrderId : Option String := none
  lotProjected : Bool := false
  attributionProjected : Bool := false
  cashProjected : Bool := false
  holdingProjected : Bool := false
  tradeProjected : Bool := false
  integrityVerified : Bool := false
  liabilityHoldProjected : Bool := false
  realizedPnl : Option Decimal := none
  attemptCount : ℤ := 0
  errorCode : Option String := none
  nextRetryAt : Option DateTime := none
  processingOwner : Option String := none
  processingStartedAt : Option DateTime := none

instance : PostInit SettlementEvent where
  normalize str m :=
    { m with
      settlementEventId := str.strip m.settlementEventId
      fillId := str.strip m.fillId
      tradeIntentId := str.strip m.tradeIntentId }
  checks _ m :=
    [ textCheck m.settlementEventId "settlement_event_id",
      textCheck m.fillId "fill_id",
      textCheck m.tradeIntentId "trade_intent_id",
      positiveCheck m.quantity.toRat "quantity",
      positiveCheck m.price.toRat "price",
      nonnegativeCheck m.fees.toRat "fees",
      (decide (0 ≤ m.attemptCount), "attempt_count must be nonnegative"),
      (m.status != .completed || m.integrityVerified,
        "completed settlement must be integrity_verified") ]
  normalize_normalize str m := by simp only [str.strip_strip]

/-- A hold on an order. -/
structure IntegrityHold where
  brokerOrderId : String
  tradeIntentId : String
  holdType : IntegrityHoldType
  reason : String
  createdAt : DateTime
  attemptCount : ℤ := 0
  nextRetryAt : Option DateTime := none

instance : PostInit IntegrityHold where
  normalize str m :=
    { m with
      brokerOrderId := str.strip m.brokerOrderId
      tradeIntentId := str.strip m.tradeIntentId
      reason := str.strip m.reason }
  checks _ m :=
    [ textCheck m.brokerOrderId "broker_order_id",
      textCheck m.tradeIntentId "trade_intent_id",
      textCheck m.reason "reason",
      (decide (0 ≤ m.attemptCount), "attempt_count must be nonnegative") ]
  normalize_normalize str m := by simp only [str.strip_strip]

/-! ### Positions -/

/-- A position. -/
structure Holding where
  asset : AssetIdentity
  quantity : Decimal
  averagePrice : Decimal
  updatedAt : DateTime
  sector : Option String := none
  stopLoss : Option Decimal := none
  targetPrice : Option Decimal := none
  currentStop : Option Decimal := none
  scaledOut : Bool := false

instance : PostInit Holding where
  normalize _ m := m
  checks _ m :=
    [ positiveCheck m.averagePrice.toRat "average_price",
      (m.quantity.toRat != 0, "zero quantity is not an open holding"),
      optionalPositiveCheck (rat m.stopLoss) "stop_loss",
      optionalPositiveCheck (rat m.targetPrice) "target_price",
      optionalPositiveCheck (rat m.currentStop) "current_stop" ]
  normalize_normalize _ _ := rfl

/-- A lot of a position. -/
structure PositionLot where
  lotId : String
  originatingFillId : String
  asset : AssetIdentity
  positionSide : PositionSide
  openedQuantity : Decimal
  remainingQuantity : Decimal
  acquisitionPrice : Decimal
  openedAt : DateTime
  closures : Mapping Decimal := .empty
  realizedPnl : Decimal := ⟨false, 0, 0⟩
  mfePrice : Option Decimal := none
  maePrice : Option Decimal := none
  assetFeeQuantities : Mapping Decimal := .empty

/-- The sum of the values of a dictionary. -/
def total (m : Mapping Decimal) : ℚ := (m.items.map fun x => x.2.toRat).sum

instance : PostInit PositionLot where
  normalize str m :=
    { m with
      lotId := str.strip m.lotId
      originatingFillId := str.strip m.originatingFillId
      assetFeeQuantities := m.assetFeeQuantities.mapKeys str.strip }
  checks _ m :=
    let fees := m.assetFeeQuantities
    let adoptedLot := m.lotId.startsWith "adopted:"
    let adoptedFill := m.originatingFillId.startsWith "adoption:"
    [ textCheck m.lotId "lot_id",
      textCheck m.originatingFillId "originating_fill_id",
      positiveCheck m.openedQuantity.toRat "opened_quantity",
      nonnegativeCheck m.remainingQuantity.toRat "remaining_quantity",
      positiveCheck m.acquisitionPrice.toRat "acquisition_price",
      (fees.items.all fun x => x.1 != "", "asset_fee_id is required"),
      (fees.items.all fun x => decide (0 < x.2.toRat), "asset_fee_quantity must be positive"),
      (fees.items.isEmpty ||
        m.remainingQuantity.toRat + total m.closures + total fees == m.openedQuantity.toRat,
        "asset fee lot quantity is not conserved"),
      optionalPositiveCheck (rat m.mfePrice) "mfe_price",
      optionalPositiveCheck (rat m.maePrice) "mae_price",
      (decide (m.remainingQuantity.toRat ≤ m.openedQuantity.toRat),
        "remaining_quantity cannot exceed opened_quantity"),
      (adoptedLot == adoptedFill &&
          (!adoptedLot || m.lotId.toList.drop 8 == m.originatingFillId.toList.drop 9),
        "an adopted lot is lot_id 'adopted:<id>' with originating_fill_id 'adoption:<id>', "
          ++ "and only then"),
      (!adoptedLot || m.positionSide == .long, "only long positions are adopted") ]
  normalize_normalize str m := by
    simp only [str.strip_strip, Mapping.mapKeys_mapKeys str.strip_strip]

/-- What became of a part of a lot that a fill closed.  Its context is a free-form object. -/
structure TradeAttribution where
  attributionId : String
  asset : AssetIdentity
  lotId : String
  openingTradeIntentId : String
  closingTradeIntentId : String
  closingFillId : String
  quantity : Decimal
  entryPrice : Decimal
  entryAt : DateTime
  exitPrice : Decimal
  exitAt : DateTime
  realizedPnl : Decimal
  createdAt : DateTime
  exitReason : Option String := none
  maxFavorableExcursion : Option Decimal := none
  maxAdverseExcursion : Option Decimal := none
  entryContext : Mapping Json := .empty

/-- `_EXIT_REASONS`. -/
def exitReasons : List String := ["stop_loss", "target_price", "time_stop", "other"]

instance : PostInit TradeAttribution where
  normalize str m :=
    { m with
      attributionId := str.strip m.attributionId
      lotId := str.strip m.lotId
      openingTradeIntentId := str.strip m.openingTradeIntentId
      closingTradeIntentId := str.strip m.closingTradeIntentId
      closingFillId := str.strip m.closingFillId }
  checks _ m :=
    [ textCheck m.attributionId "attribution_id",
      textCheck m.lotId "lot_id",
      textCheck m.openingTradeIntentId "opening_trade_intent_id",
      textCheck m.closingTradeIntentId "closing_trade_intent_id",
      textCheck m.closingFillId "closing_fill_id",
      positiveCheck m.quantity.toRat "quantity",
      positiveCheck m.entryPrice.toRat "entry_price",
      positiveCheck m.exitPrice.toRat "exit_price",
      optionalPositiveCheck (rat m.maxFavorableExcursion) "max_favorable_excursion",
      optionalPositiveCheck (rat m.maxAdverseExcursion) "max_adverse_excursion",
      (m.exitReason.all fun r => exitReasons.contains r,
        "exit_reason must be one of ('stop_loss', 'target_price', 'time_stop', 'other') or None") ]
  normalize_normalize str m := by simp only [str.strip_strip]

/-! ### Accounting rows -/

/-- A movement of cash. -/
structure CashLedgerEntry where
  entryId : String
  idempotencyKey : String
  amount : Decimal
  currency : String
  occurredAt : DateTime
  reason : String

instance : PostInit CashLedgerEntry where
  normalize str m :=
    { m with
      entryId := str.strip m.entryId
      idempotencyKey := str.strip m.idempotencyKey
      currency := str.strip m.currency
      reason := str.strip m.reason }
  checks _ m :=
    [ textCheck m.entryId "entry_id",
      textCheck m.idempotencyKey "idempotency_key",
      textCheck m.currency "currency",
      textCheck m.reason "reason" ]
  normalize_normalize str m := by simp only [str.strip_strip]

/-- A result. -/
structure PnlRecord where
  recordId : String
  asset : AssetIdentity
  realized : Decimal
  unrealized : Decimal
  asOf : DateTime

instance : PostInit PnlRecord where
  normalize str m := { m with recordId := str.strip m.recordId }
  checks _ m := [ textCheck m.recordId "record_id" ]
  normalize_normalize str m := by simp only [str.strip_strip]

end Stored

end TradePulse
