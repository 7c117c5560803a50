/-
**Storing a record again.**

A record read back from its payload is the record that was written, field by field, with an
instrument of the same symbol, class, native identifier, venue, metadata and multiplier.  It need
not be written as the same payload: an instrument that was built with `contract_multiplier` is
written with it, and is read back without it.

Main definitions:

* `FinancialTable`, `FinancialTable.Record` — the nine tables and their records;
* `encodePayload`, `decodePayload`, `hydrate` — writing and reading a record of a table;
* `AssetIdentity.Alike`, `SameRecord` — how records are compared;
* `StoredAgain` — the record read back is the same and is written as the same payload.

Main results:

* `hydrate_sameRecord` — every record is read back as the same;
* `stored_again_iff` — **it is written as the same payload exactly when its instrument was built
  without `contract_multiplier`**.
-/

import TradePulse.Persistence.Hydration

set_option autoImplicit false

namespace TradePulse

open Encoding

namespace Stored

open Instrumented

/-! ### Tables -/

/-- A record of a financial table. -/
class Persisted (α : Type) extends Instrumented α where
  fields : α → List (String × Json)
  decode : StrMethods → Json → Except Raised α
  asset_mapAsset : ∀ f m, asset (mapAsset f m) = (asset m).map f
  mapAsset_of_fixed : ∀ f m, (∀ a ∈ asset m, f a = a) → mapAsset f m = m
  get?_asset : ∀ m, ∀ a ∈ asset m, (Json.object (fields m)).get? "asset" = some (assetJson a)
  decode_encode : ∀ str m, Built str m → (∀ a ∈ asset m, Built str a) →
    decode str (Json.object (fields m)) = .ok (mapAsset AssetIdentity.reread m)

instance : Persisted TradeIntent where
  fields := TradeIntent.fields
  decode := decodeTradeIntent
  asset_mapAsset _ _ := rfl
  mapAsset_of_fixed f m h := congrArg (fun a => { m with asset := a }) (h m.asset rfl)
  get?_asset m a ha := by
    obtain rfl : m.asset = a := Option.some_inj.1 ha
    exact Json.get?_object (nodup_tradeIntentFields m) "asset"
  decode_encode _ m hm ha := decodeTradeIntent_encode hm (ha m.asset rfl)

instance : Persisted Fill where
  fields := Fill.fields
  decode := decodeFill
  asset_mapAsset _ _ := rfl
  mapAsset_of_fixed f m h := congrArg (fun a => { m with asset := a }) (h m.asset rfl)
  get?_asset m a ha := by
    obtain rfl : m.asset = a := Option.some_inj.1 ha
    exact Json.get?_object (nodup_fillFields m) "asset"
  decode_encode _ m hm ha := decodeFill_encode hm (ha m.asset rfl)

instance : Persisted SettlementEvent where
  fields := SettlementEvent.fields
  decode := decodeSettlement
  asset_mapAsset _ _ := rfl
  mapAsset_of_fixed f m h := congrArg (fun a => { m with asset := a }) (h m.asset rfl)
  get?_asset m a ha := by
    obtain rfl : m.asset = a := Option.some_inj.1 ha
    exact Json.get?_object (nodup_settlementEventFields m) "asset"
  decode_encode _ m hm ha := decodeSettlement_encode hm (ha m.asset rfl)

instance : Persisted PositionLot where
  fields := PositionLot.fields
  decode := decodePositionLot
  asset_mapAsset _ _ := rfl
  mapAsset_of_fixed f m h := congrArg (fun a => { m with asset := a }) (h m.asset rfl)
  get?_asset m a ha := by
    obtain rfl : m.asset = a := Option.some_inj.1 ha
    exact Json.get?_object (nodup_positionLotFields m) "asset"
  decode_encode _ m hm ha := decodePositionLot_encode hm (ha m.asset rfl)

instance : Persisted Holding where
  fields := Holding.fields
  decode := decodeHolding
  asset_mapAsset _ _ := rfl
  mapAsset_of_fixed f m h := congrArg (fun a => { m with asset := a }) (h m.asset rfl)
  get?_asset m a ha := by
    obtain rfl : m.asset = a := Option.some_inj.1 ha
    exact Json.get?_object (nodup_holdingFields m) "asset"
  decode_encode _ m hm ha := decodeHolding_encode hm (ha m.asset rfl)

instance : Persisted TradeAttribution where
  fields := TradeAttribution.fields
  decode := decodeTradeAttribution
  asset_mapAsset _ _ := rfl
  mapAsset_of_fixed f m h := congrArg (fun a => { m with asset := a }) (h m.asset rfl)
  get?_asset m a ha := by
    obtain rfl : m.asset = a := Option.some_inj.1 ha
    exact Json.get?_object (nodup_tradeAttributionFields m) "asset"
  decode_encode _ m hm ha := decodeTradeAttribution_encode hm (ha m.asset rfl)

instance : Persisted CashLedgerEntry where
  fields := CashLedgerEntry.fields
  decode := decodeCashLedgerEntry
  asset_mapAsset _ _ := rfl
  mapAsset_of_fixed _ _ _ := rfl
  get?_asset _ _ ha := by cases ha
  decode_encode _ _ hm _ := decodeCashLedgerEntry_encode hm

instance : Persisted PnlRecord where
  fields := PnlRecord.fields
  decode := decodePnlRecord
  asset_mapAsset _ _ := rfl
  mapAsset_of_fixed f m h := congrArg (fun a => { m with asset := a }) (h m.asset rfl)
  get?_asset m a ha := by
    obtain rfl : m.asset = a := Option.some_inj.1 ha
    exact Json.get?_object (nodup_pnlRecordFields m) "asset"
  decode_encode _ m hm ha := decodePnlRecord_encode hm (ha m.asset rfl)

instance : Persisted IntegrityHold where
  fields := IntegrityHold.fields
  decode := decodeIntegrityHold
  asset_mapAsset _ _ := rfl
  mapAsset_of_fixed _ _ _ := rfl
  get?_asset _ _ ha := by cases ha
  decode_encode _ _ hm _ := decodeIntegrityHold_encode hm

/-- The financial tables. -/
inductive FinancialTable
  | tradeIntents | fills | settlements | positionLots | holdings | tradeAttributions | cashLedger
  | pnlRecords | integrityHolds

def FinancialTable.Record : FinancialTable → Type
  | tradeIntents => TradeIntent
  | fills => Fill
  | settlements => SettlementEvent
  | positionLots => PositionLot
  | holdings => Holding
  | tradeAttributions => TradeAttribution
  | cashLedger => CashLedgerEntry
  | pnlRecords => PnlRecord
  | integrityHolds => IntegrityHold

instance : (t : FinancialTable) → Persisted t.Record
  | .tradeIntents => inferInstanceAs (Persisted TradeIntent)
  | .fills => inferInstanceAs (Persisted Fill)
  | .settlements => inferInstanceAs (Persisted SettlementEvent)
  | .positionLots => inferInstanceAs (Persisted PositionLot)
  | .holdings => inferInstanceAs (Persisted Holding)
  | .tradeAttributions => inferInstanceAs (Persisted TradeAttribution)
  | .cashLedger => inferInstanceAs (Persisted CashLedgerEntry)
  | .pnlRecords => inferInstanceAs (Persisted PnlRecord)
  | .integrityHolds => inferInstanceAs (Persisted IntegrityHold)

/-! ### Payloads -/

/-- `encode_payload`: the tree whose text is stored. -/
def encodePayload {α : Type} [Persisted α] (m : α) : Json := Json.object (Persisted.fields m)

/-- `decode_payload`. -/
def decodePayload : Json → Except Raised Json
  | .obj items => .ok (.obj items)
  | _ => .error (.valueError "persisted payload must decode to an object")

/-- `hydrate`. -/
def hydrate (str : StrMethods) (t : FinancialTable) (payload : Json) : Except Raised t.Record :=
  Persisted.decode str payload

/-! ### Comparing records -/

/-- Instruments that agree in all that is read of them. -/
structure AssetIdentity.Alike (a b : AssetIdentity) : Prop where
  symbol : a.symbol = b.symbol
  assetClass : a.assetClass = b.assetClass
  nativeAssetId : a.nativeAssetId = b.nativeAssetId
  venue : a.venue = b.venue
  metadata : a.metadata = b.metadata
  multiplier : contractMultiplierOf a = contractMultiplierOf b

theorem AssetIdentity.alike_reread (a : AssetIdentity) : a.reread.Alike a :=
  ⟨rfl, rfl, rfl, rfl, rfl, rfl⟩

/-- The second record is the first one with an instrument that is alike. -/
def SameRecord {α : Type} [Instrumented α] (m h : α) : Prop :=
  ∃ f : AssetIdentity → AssetIdentity, (∀ a ∈ asset m, (f a).Alike a) ∧ h = mapAsset f m

/-- The record read back is the same, and is written as the same payload. -/
def StoredAgain (str : StrMethods) (t : FinancialTable) (m : t.Record) : Prop :=
  ∃ payload h, decodePayload (encodePayload m) = .ok payload ∧ hydrate str t payload = .ok h ∧
    SameRecord m h ∧ decodePayload (encodePayload h) = decodePayload (encodePayload m)

/-! ### Reading a record back -/

section Reading

variable {α : Type} [Persisted α]

@[simp] theorem decodePayload_encodePayload (m : α) :
    decodePayload (encodePayload m) = .ok (encodePayload m) := rfl

/-- **Every record is read back as the same.** -/
theorem hydrate_sameRecord {str : StrMethods} {t : FinancialTable} {m : t.Record}
    (hm : Built str m) (ha : ∀ a ∈ asset m, Built str a) :
    hydrate str t (encodePayload m) = .ok (mapAsset AssetIdentity.reread m) ∧
      SameRecord m (mapAsset AssetIdentity.reread m) :=
  ⟨Persisted.decode_encode str m hm ha, AssetIdentity.reread, fun a _ => a.alike_reread, rfl⟩

theorem multiplierJson_ne_null (c : Multiplier) : multiplierJson c ≠ .null := by
  intro h
  cases c <;> cases h

/-- What is written of an instrument shows whether a multiplier was passed. -/
theorem assetJson_reread_iff (a : AssetIdentity) :
    assetJson a.reread = assetJson a ↔ a.contractMultiplier = none := by
  constructor
  · intro h
    have hfield := congrArg (Json.get? "contract_multiplier") h
    rw [get?_assetJson, get?_assetJson] at hfield
    simp only [assetFields, List.lookup_cons, String.reduceBEq, AssetIdentity.reread,
      Option.some.injEq] at hfield
    cases hc : a.contractMultiplier with
    | none => rfl
    | some c =>
        rw [hc] at hfield
        exact absurd hfield.symm (multiplierJson_ne_null c)
  · intro h
    have hsame : a.reread = a := by
      cases a
      simp_all [AssetIdentity.reread]
    rw [hsame]

/-- A record read back is written as the same payload when no multiplier was passed, and only
then. -/
theorem encodePayload_reread_iff (m : α) :
    encodePayload (mapAsset AssetIdentity.reread m) = encodePayload m ↔
      ∀ a ∈ asset m, a.contractMultiplier = none := by
  constructor
  · intro h a ha
    have hreread : a.reread ∈ asset (mapAsset AssetIdentity.reread m) := by
      rw [Persisted.asset_mapAsset, Option.mem_def.1 ha]
      rfl
    have hfield := congrArg (Json.get? "asset") h
    simp only [encodePayload, Persisted.get?_asset _ _ ha, Persisted.get?_asset _ _ hreread,
      Option.some.injEq] at hfield
    exact (assetJson_reread_iff a).1 hfield
  · intro h
    rw [Persisted.mapAsset_of_fixed]
    intro a ha
    cases a
    simp_all [AssetIdentity.reread]

end Reading

theorem storedAgain_iff {str : StrMethods} {t : FinancialTable} {m : t.Record}
    (hm : Built str m) (ha : ∀ a ∈ asset m, Built str a) :
    StoredAgain str t m ↔ ∀ a ∈ asset m, a.contractMultiplier = none := by
  obtain ⟨hread, hsame⟩ := hydrate_sameRecord hm ha
  rw [← encodePayload_reread_iff]
  constructor
  · rintro ⟨payload, h, hpayload, hhydrate, -, hagain⟩
    obtain rfl : encodePayload m = payload := by simpa using hpayload
    rw [hread] at hhydrate
    obtain rfl := Except.ok.inj hhydrate
    simpa using hagain
  · intro h
    exact ⟨_, _, rfl, hread, hsame, by simpa using h⟩

section Runs

private def tradingDay : DateTime := ⟨⟨2026, 10, 29, 14, 30, 0, 0⟩, by decide⟩

/-- A pair, with its venue and what is known about it. -/
private def storedPair : AssetIdentity :=
  { symbol := "BTC/USD"
    assetClass := .crypto
    nativeAssetId := "alpaca:BTC/USD"
    venue := some "alpaca"
    metadata := Mapping.empty.insert "sector" "crypto" }

/-- A lot that two sales and a fee have taken from. -/
private def closedLot : PositionLot :=
  { lotId := "lot:fill-1"
    originatingFillId := "fill-1"
    asset := storedPair
    positionSide := .long
    openedQuantity := ⟨false, 3, 0⟩
    remainingQuantity := ⟨false, 149, -2⟩
    acquisitionPrice := ⟨false, 6400025, -2⟩
    openedAt := tradingDay
    closures := (Mapping.empty.insert "fill-2" ⟨false, 1, 0⟩).insert "fill-3" ⟨false, 5, -1⟩
    realizedPnl := ⟨true, 125, -1⟩
    mfePrice := some ⟨false, 65000, 0⟩
    maePrice := some ⟨false, 630005, -1⟩
    assetFeeQuantities := Mapping.empty.insert "fee-1" ⟨false, 1, -2⟩ }

/-- An option as it is adopted: its multiplier is passed, and copied into the metadata. -/
private def adoptedOption : AssetIdentity :=
  { symbol := "SPY261218C00600000"
    assetClass := .option
    nativeAssetId := "alpaca:SPY261218C00600000"
    metadata := Mapping.empty.insert "contract_multiplier" "100"
    contractMultiplier := some (.decimal ⟨false, 100, 0⟩) }

/-- The lot of an adopted option. -/
private def adoptedLot : PositionLot :=
  { lotId := "adopted:1"
    originatingFillId := "adoption:1"
    asset := adoptedOption
    positionSide := .long
    openedQuantity := ⟨false, 2, 0⟩
    remainingQuantity := ⟨false, 2, 0⟩
    acquisitionPrice := ⟨false, 31, -1⟩
    openedAt := tradingDay }

end Runs

end Stored

end TradePulse
