/-
**Lots, holdings and the evidence of executions.**

The position records of `tradepulse/models`: position lots with the quantities that fills closed
of them, holdings, the liability an oversell leaves behind, and the rows that accounting derives.

A lot, a holding and a liability validate themselves when they are built, so the record types
carry the validity of their fields; `make` is the only way to build one, and it raises.

Main definitions:

* `PositionLot`, `PositionLot.status`, `PositionLot.origin`, `PositionLot.signedQuantity`;
* `foldPriceExtremum` — the running price extremes of a lot;
* `Holding`, `ShortExposureLiability`;
* `Fill`, `TradeAttribution`, `CashLedgerEntry`, `PnlRecord`.
-/

import TradePulse.Models.Market
import TradePulse.Storage.Table

set_option autoImplicit false

namespace TradePulse

open Storage

/-! ### Position lots -/

def adoptedLotPrefix : String := "adopted:"
def adoptionFillPrefix : String := "adoption:"

/-- What follows a prefix of a text. -/
def afterPrefix (pre s : String) : String := String.ofList (s.toList.drop pre.length)

/-- The fields of a position lot. -/
structure PositionLotFields where
  lotId : String
  originatingFillId : String
  asset : AssetIdentity
  positionSide : PositionSide
  openedQuantity : ℚ
  remainingQuantity : ℚ
  acquisitionPrice : ℚ
  openedAt : Instant
  /-- For each fill that closed some of this lot, the quantity it closed. -/
  closures : Dict ℚ := ∅
  realizedPnl : ℚ := 0
  mfePrice : Option ℚ := none
  maePrice : Option ℚ := none
  /-- For each asset fee, the units debited from this lot. -/
  assetFeeQuantities : Dict ℚ := ∅
  deriving DecidableEq

/-- The sum of the values of a dictionary. -/
def Dict.total (d : Dict ℚ) : ℚ := (d.entries.map fun e => e.2).sum

instance : Checked PositionLotFields where
  checks l :=
    let fees := l.assetFeeQuantities
    let adoptedLot := l.lotId.startsWith adoptedLotPrefix
    let adoptedFill := l.originatingFillId.startsWith adoptionFillPrefix
    [ textCheck l.lotId "lot_id",
      textCheck l.originatingFillId "originating_fill_id",
      positiveCheck l.openedQuantity "opened_quantity",
      nonnegativeCheck l.remainingQuantity "remaining_quantity",
      positiveCheck l.acquisitionPrice "acquisition_price",
      (fees.entries.all fun e => e.1 != "", "asset_fee_id is required"),
      (fees.entries.all fun e => decide (0 < e.2), "asset_fee_quantity must be positive"),
      (fees.entries.isEmpty || l.remainingQuantity + l.closures.total + fees.total == l.openedQuantity,
        "asset fee lot quantity is not conserved"),
      optionalPositiveCheck l.mfePrice "mfe_price",
      optionalPositiveCheck l.maePrice "mae_price",
      (decide (l.remainingQuantity ≤ l.openedQuantity),
        "remaining_quantity cannot exceed opened_quantity"),
      (adoptedLot == adoptedFill &&
          (!adoptedLot || afterPrefix adoptedLotPrefix l.lotId
            == afterPrefix adoptionFillPrefix l.originatingFillId),
        "an adopted lot is lot_id 'adopted:<id>' with originating_fill_id 'adoption:<id>', "
          ++ "and only then"),
      (!adoptedLot || l.positionSide == .long, "only long positions are adopted") ]

/-- A position lot: fields that pass their checks. -/
structure PositionLot extends PositionLotFields where
  valid : Valid toPositionLotFields

instance : DecidableEq PositionLot := fun l l' =>
  decidable_of_iff (l.toPositionLotFields = l'.toPositionLotFields)
    ⟨fun h => by cases l; cases l'; cases h; rfl, fun h => h ▸ rfl⟩

inductive LotStatus
  | «open» | partiallyClosed | closed
  deriving DecidableEq

inductive LotOrigin
  | fill | adopted
  deriving DecidableEq

namespace PositionLot

/-- Build a lot from its fields. -/
def make (f : PositionLotFields) : Except Raised PositionLot :=
  if h : Valid f then .ok ⟨f, h⟩ else .error (Checked.failure f)

theorem make_eq_ok_iff {f : PositionLotFields} {l : PositionLot} :
    make f = .ok l ↔ l.toPositionLotFields = f := by
  unfold make
  constructor
  · intro h
    split at h
    · cases h
      rfl
    · cases h
  · rintro rfl
    simp [l.valid]

theorem opened_pos (l : PositionLot) : 0 < l.openedQuantity :=
  (positiveCheck_fst _ "opened_quantity").1 (l.valid _ (by simp [Checked.checks]))

theorem remaining_nonneg (l : PositionLot) : 0 ≤ l.remainingQuantity :=
  (nonnegativeCheck_fst _ "remaining_quantity").1 (l.valid _ (by simp [Checked.checks]))

/-- Derived from the immutable identifiers, never stored. -/
def origin (l : PositionLot) : LotOrigin :=
  if l.lotId.startsWith adoptedLotPrefix then .adopted else .fill

/-- The adoption an adopted lot comes from. -/
def adoptionId (l : PositionLot) : Option String :=
  if l.origin = .adopted then some (afterPrefix adoptedLotPrefix l.lotId) else none

def status (l : PositionLot) : LotStatus :=
  if l.remainingQuantity ≤ 0 then .closed
  else if l.remainingQuantity < l.openedQuantity then .partiallyClosed
  else .open

/-- The lot still holds some quantity. -/
def isOpen (l : PositionLot) : Bool := l.status == .open || l.status == .partiallyClosed

def signedQuantity (l : PositionLot) : ℚ :=
  if l.positionSide = .short then -l.remainingQuantity else l.remainingQuantity

theorem isOpen_iff {l : PositionLot} : l.isOpen = true ↔ 0 < l.remainingQuantity := by
  unfold isOpen status
  split
  · rename_i h
    simpa using h
  · rename_i h
    split <;> simpa using h

end PositionLot

instance : Record PositionLot where
  recordId l := l.lotId
  uniqueValue l := some l.originatingFillId

/-- The price extremes of a lot extended by one more price; the favourable side comes first. -/
def foldPriceExtremum (side : PositionSide) (mfePrice maePrice : Option ℚ) (price : ℚ) : ℚ × ℚ :=
  match side with
  | .long => (mfePrice.elim price (max · price), maePrice.elim price (min · price))
  | .short => (mfePrice.elim price (min · price), maePrice.elim price (max · price))

/-! ### Holdings -/

/-- The fields of a holding. -/
structure HoldingFields where
  asset : AssetIdentity
  quantity : ℚ
  averagePrice : ℚ
  updatedAt : Instant
  sector : Option String := none
  stopLoss : Option ℚ := none
  targetPrice : Option ℚ := none
  /-- The monitor's live protective floor; absent until it first triggers. -/
  currentStop : Option ℚ := none
  scaledOut : Bool := false
  deriving DecidableEq

instance : Checked HoldingFields where
  checks h :=
    [ positiveCheck h.averagePrice "average_price",
      (h.quantity != 0, "zero quantity is not an open holding"),
      optionalPositiveCheck h.stopLoss "stop_loss",
      optionalPositiveCheck h.targetPrice "target_price",
      optionalPositiveCheck h.currentStop "current_stop" ]

/-- A holding: fields that pass their checks. -/
structure Holding extends HoldingFields where
  valid : Valid toHoldingFields

/-- The record identifier of an asset's holding. -/
def holdingRecordId (asset : AssetIdentity) : String := assetIdentityKey asset

namespace Holding

/-- Build a holding from its fields. -/
def make (f : HoldingFields) : Except Raised Holding :=
  if h : Valid f then .ok ⟨f, h⟩ else .error (Checked.failure f)

theorem make_eq_ok_iff {f : HoldingFields} {h : Holding} :
    make f = .ok h ↔ h.toHoldingFields = f := by
  unfold make
  constructor
  · intro hm
    split at hm
    · cases hm
      rfl
    · cases hm
  · rintro rfl
    simp [h.valid]

end Holding

instance : Record Holding where
  recordId h := holdingRecordId h.asset
  uniqueValue _ := none

/-! ### Oversells -/

/-- The fields of the liability that an oversell leaves. -/
structure ShortExposureLiabilityFields where
  liabilityId : String
  fillId : String
  brokerOrderId : String
  tradeIntentId : String
  asset : AssetIdentity
  quantity : ℚ
  salePrice : ℚ
  multiplier : ℚ
  proceeds : ℚ
  openedAt : Instant

instance : Checked ShortExposureLiabilityFields where
  checks l :=
    [ textCheck l.liabilityId "liability_id",
      textCheck l.fillId "fill_id",
      textCheck l.brokerOrderId "broker_order_id",
      textCheck l.tradeIntentId "trade_intent_id",
      positiveCheck l.quantity "quantity",
      positiveCheck l.salePrice "sale_price",
      positiveCheck l.multiplier "multiplier",
      positiveCheck l.proceeds "proceeds",
      (l.proceeds == l.quantity * l.salePrice * l.multiplier,
        "proceeds must equal quantity x sale_price x multiplier") ]

/-- The excess of a broker oversell, preserved whole. -/
structure ShortExposureLiability extends ShortExposureLiabilityFields where
  valid : Valid toShortExposureLiabilityFields

namespace ShortExposureLiability

/-- Build a liability from its fields. -/
def make (f : ShortExposureLiabilityFields) : Except Raised ShortExposureLiability :=
  if h : Valid f then .ok ⟨f, h⟩ else .error (Checked.failure f)

theorem make_eq_ok_iff {f : ShortExposureLiabilityFields} {l : ShortExposureLiability} :
    make f = .ok l ↔ l.toShortExposureLiabilityFields = f := by
  unfold make
  constructor
  · intro h
    split at h
    · cases h
      rfl
    · cases h
  · rintro rfl
    simp [l.valid]

end ShortExposureLiability

instance : Record ShortExposureLiability where
  recordId l := l.liabilityId
  uniqueValue l := some l.fillId

/-! ### Fills and what accounting derives from them -/

/-- The fields of an execution reported by the broker.  Slippage and the market references kept
with it are read by nothing here. -/
structure FillFields where
  fillId : String
  tradeIntentId : String
  orderId : String
  asset : AssetIdentity
  side : Side
  executionMode : ExecutionMode
  quantity : ℚ
  price : ℚ
  fees : ℚ
  filledAt : Instant
  brokerFillId : Option String := none
  deriving DecidableEq

instance : Checked FillFields where
  checks f :=
    [ textCheck f.fillId "fill_id",
      textCheck f.tradeIntentId "trade_intent_id",
      textCheck f.orderId "order_id",
      positiveCheck f.quantity "quantity",
      positiveCheck f.price "price",
      nonnegativeCheck f.fees "fees" ]

/-- A fill: fields that pass their checks. -/
structure Fill extends FillFields where
  valid : Valid toFillFields

namespace Fill

/-- Build a fill from its fields. -/
def make (f : FillFields) : Except Raised Fill :=
  if h : Valid f then .ok ⟨f, h⟩ else .error (Checked.failure f)

theorem make_eq_ok_iff {f : FillFields} {l : Fill} :
    make f = .ok l ↔ l.toFillFields = f := by
  unfold make
  constructor
  · intro h
    split at h
    · cases h
      rfl
    · cases h
  · rintro rfl
    simp [l.valid]

theorem quantity_pos (f : Fill) : 0 < f.quantity :=
  (positiveCheck_fst _ "quantity").1 (f.valid _ (by simp [Checked.checks]))

theorem orderId_ne_empty (f : Fill) : f.orderId ≠ "" :=
  (textCheck_fst _ "order_id").1 (f.valid _ (by simp [Checked.checks]))

end Fill

instance : Record Fill where
  recordId f := f.fillId
  uniqueValue f := f.brokerFillId

inductive ExitReason
  | stopLoss | targetPrice | timeStop | other
  deriving DecidableEq

/-- Why a round trip happened and what came of it; the free-form entry context is left out. -/
structure TradeAttribution where
  attributionId : String
  asset : AssetIdentity
  lotId : String
  openingTradeIntentId : String
  closingTradeIntentId : String
  closingFillId : String
  quantity : ℚ
  entryPrice : ℚ
  entryAt : Instant
  exitPrice : ℚ
  exitAt : Instant
  realizedPnl : ℚ
  createdAt : Instant
  exitReason : Option ExitReason := none
  maxFavorableExcursion : Option ℚ := none
  maxAdverseExcursion : Option ℚ := none
  deriving DecidableEq

instance : Record TradeAttribution where
  recordId a := a.attributionId
  uniqueValue _ := none

structure CashLedgerEntry where
  entryId : String
  idempotencyKey : String
  amount : ℚ
  currency : String
  occurredAt : Instant
  reason : String
  deriving DecidableEq

instance : Record CashLedgerEntry where
  recordId e := e.entryId
  uniqueValue e := some e.idempotencyKey

structure PnlRecord where
  recordId : String
  asset : AssetIdentity
  realized : ℚ
  unrealized : ℚ
  asOf : Instant
  deriving DecidableEq

instance : Record PnlRecord where
  recordId r := r.recordId
  uniqueValue _ := none

end TradePulse
