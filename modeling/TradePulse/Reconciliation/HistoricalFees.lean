/-
**Replaying an instrument's history with its fees** (`reconciliation/historical_fees.py`).

A fee in units of the asset itself may be known only long after the fill that it belongs to.  The
lots of the instrument are then rebuilt from their sources: the purchases, the sales and the fees,
in the order in which they happened.  A fee debits the oldest lots; a sale closes lots as a live
settlement does.

Main definitions:

* `FeeReceipt`, `AssetFee`, `parseAssetFee` — a fee and the receipt that proves it;
* `Occurrence`, `chronology` — what happened to the instrument, in order;
* `applyFee`, `applyFill` — what one of them does to the lots;
* `previewFeeReplay` — the whole replay, with its checks;
* `Accepted` — what the checks ask.

Main results:

* `checkReplay_ok_iff`, `previewFeeReplay_ok_iff` — when a replay is accepted.
-/

import TradePulse.Reconciliation.Activities
import TradePulse.Settlement.Accounting
import TradePulse.Settlement.Lots

set_option autoImplicit false

namespace TradePulse

open Storage

namespace HistoricalFees

/-! ### Receipts -/

/-- The activity that reports a fee, with the fields that only fees need. -/
structure FeeReceipt extends RawActivity where
  status : String := ""
  description : String := ""
  createdAt : Option Instant := none
  deriving DecidableEq

/-- A fee in units of the asset. -/
structure AssetFee where
  activityId : String
  asset : AssetIdentity
  quantity : ℚ
  occurredAt : Instant
  receipt : FeeReceipt
  deriving DecidableEq

/-- `AssetFeeIntegrityError`, which is a `ValueError`. -/
def assetFeeIntegrity (reason : String) : Raised := .valueError reason

/-- A number of a receipt must be there and must not be a float. -/
def heldExactly (name : String) : RawNumber → Except Raised Unit
  | .missing => .error ⟨.other, name⟩
  | .inexact _ => .error (assetFeeIntegrity "ASSET_FEE_INEXACT_NUMERIC_RECEIPT")
  | _ => .ok ()

/-- `decimal_value`. -/
def decimalValue (name : String) : RawNumber → Except Raised ℚ
  | .exact q => .ok q
  | .inexact q => .ok q
  | _ => .error (.valueError (name ++ " must be a decimal"))

/-- A pair of two named coins, quoted in dollars. -/
def isUsdPair (symbol : List Char) : Bool :=
  match symbol.splitOn '/' with
  | [base, quote] => !base.isEmpty && quote == "USD".toList
  | _ => false

/-- `parse_asset_fee`. -/
def parseAssetFee (raw : FeeReceipt) : Except Raised AssetFee := do
  raiseIf (raw.activityType ≠ "CFEE" ∨ raw.status ≠ "executed" ∨
      raw.description ≠ "Coin Pair Transaction Fee (Non USD)")
    (assetFeeIntegrity "ASSET_FEE_UNSUPPORTED_RECEIPT")
  raiseIf (raw.id = "") (.valueError "asset_fee_id is required")
  heldExactly "qty" raw.qty
  heldExactly "net_amount" raw.netAmount
  let qty ← decimalValue "asset_fee_quantity" raw.qty
  raiseIf (-qty ≤ 0) (assetFeeIntegrity "ASSET_FEE_UNSUPPORTED_DEBIT")
  let netAmount ← decimalValue "asset_fee_net_amount" raw.netAmount
  raiseIf (netAmount ≠ 0) (assetFeeIntegrity "ASSET_FEE_UNSUPPORTED_DEBIT")
  raiseIf (raw.symbol = "") (.valueError "asset_fee_symbol is required")
  let symbol := normalizeAlpacaSymbol raw.symbol.toList .crypto
  raiseIf (isUsdPair symbol = false) (assetFeeIntegrity "ASSET_FEE_IDENTITY_INVALID")
  match raw.createdAt with
  | none => .error (.valueError "asset_fee_created_at must be timezone-aware")
  | some occurredAt =>
      return { activityId := raw.id
               asset := { symbol := String.ofList symbol
                          assetClass := .crypto
                          nativeAssetId := "alpaca:" ++ String.ofList symbol }
               quantity := -qty
               occurredAt := occurredAt
               receipt := raw }

/-! ### The chronology -/

/-- What happens to an instrument: an execution or a fee. -/
inductive Occurrence
  | fill (event : SettlementEvent)
  | fee (receipt : AssetFee)

namespace Occurrence

def time : Occurrence → Instant
  | .fill event => event.occurredAt
  | .fee receipt => receipt.occurredAt

/-- The broker's identifier of the activity. -/
def activityId : Occurrence → String
  | .fill event => event.brokerFillId.getD ""
  | .fee receipt => receipt.activityId

/-- By time, and at one time by activity. -/
def NotAfter (a b : Occurrence) : Prop :=
  a.time < b.time ∨ (a.time = b.time ∧ a.activityId ≤ b.activityId)

instance : DecidableRel NotAfter := fun a b =>
  inferInstanceAs (Decidable (a.time < b.time ∨ (a.time = b.time ∧ a.activityId ≤ b.activityId)))

end Occurrence

/-- The executions and then the fees, sorted; what ties stays in this order. -/
def chronology (settlements : List SettlementEvent) (fees : List AssetFee) : List Occurrence :=
  (settlements.map Occurrence.fill ++ fees.map Occurrence.fee).insertionSort Occurrence.NotAfter

/-! ### The replay -/

/-- The lots so far, by identifier, and the realized value of each execution so far. -/
structure Replay where
  current : OrderedDict String PositionLot := .empty
  realized : OrderedDict String ℚ := .empty

/-- A lot as its purchase left it. -/
def reopenedFields (lot : PositionLotFields) : PositionLotFields :=
  { lot with
    remainingQuantity := lot.openedQuantity
    closures := ∅
    realizedPnl := 0
    assetFeeQuantities := ∅ }

/-- A lot after units of it were debited for a fee. -/
def debitedFields (fee : AssetFee) (lot : PositionLot) (amount : ℚ) : PositionLotFields :=
  { lot.toPositionLotFields with
    remainingQuantity := lot.remainingQuantity - amount
    assetFeeQuantities := lot.assetFeeQuantities.insert fee.activityId amount }

/-- A lot after a sale closed units of it. -/
def soldFields (event : SettlementEvent) (lot : PositionLot) (quantity pnl : ℚ) :
    PositionLotFields :=
  { lot.toPositionLotFields with
    remainingQuantity := lot.remainingQuantity - quantity
    closures := lot.closures.insert event.fillId quantity
    realizedPnl := lot.realizedPnl + pnl }

/-- Debit a fee from lots in the given order; what none of them covers is left. -/
def debitLots (fee : AssetFee) :
    List PositionLot → ℚ → OrderedDict String PositionLot →
      Except Raised (ℚ × OrderedDict String PositionLot)
  | [], remaining, current => .ok (remaining, current)
  | lot :: lots, remaining, current =>
      let amount := min remaining lot.remainingQuantity
      if amount ≤ 0 then debitLots fee lots remaining current
      else do
        let debited ← PositionLot.make (debitedFields fee lot amount)
        debitLots fee lots (remaining - amount) (current.insert lot.lotId debited)

/-- The order in which a fee debits lots: oldest first, equally old ones by identifier. -/
def feeOrder (a b : PositionLot) : Prop :=
  a.openedAt < b.openedAt ∨ (a.openedAt = b.openedAt ∧ a.lotId ≤ b.lotId)

instance : DecidableRel feeOrder := fun a b =>
  inferInstanceAs (Decidable (a.openedAt < b.openedAt ∨ (a.openedAt = b.openedAt ∧ a.lotId ≤ b.lotId)))

def applyFee (fee : AssetFee) (state : Replay) : Except Raised Replay := do
  let debited ← debitLots fee (state.current.values.insertionSort feeOrder) fee.quantity state.current
  raiseIf (debited.1 ≠ 0) (assetFeeIntegrity "ASSET_FEE_INSUFFICIENT_HISTORICAL_INVENTORY")
  return { state with current := debited.2 }

/-- Apply the planned closures of a sale. -/
def closeLots (event : SettlementEvent) :
    List LotClosure → OrderedDict String PositionLot → Except Raised (OrderedDict String PositionLot)
  | [], current => .ok current
  | closure :: closures, current => do
      let lot ← PositionLot.make (soldFields event closure.lot closure.quantity closure.pnl)
      closeLots event closures (current.insert closure.lot.lotId lot)

/-- What an execution does; `origins` finds the lot that a purchase opened. -/
def applyFill (origins : String → Option PositionLot) (event : SettlementEvent) (state : Replay) :
    Except Raised Replay :=
  if event.side = .buy then
    match origins event.fillId with
    | none => .error (assetFeeIntegrity "ASSET_FEE_OPENING_EVIDENCE_MISSING")
    | some lot => do
        let opened ← PositionLot.make (reopenedFields lot.toPositionLotFields)
        return { current := state.current.insert lot.lotId opened
                 realized := state.realized.insert event.fillId 0 }
  else do
    let plan ← planSignedLotFill state.current.values event
    raiseIf (plan.openingQuantity ≠ 0) (assetFeeIntegrity "ASSET_FEE_REPLAY_OVERSELL")
    let current ← closeLots event plan.closures state.current
    return { current := current, realized := state.realized.insert event.fillId plan.realizedPnl }

/-- One turn of the replay. -/
def replayOne (origins : String → Option PositionLot) (state : Replay) :
    Occurrence → Except Raised Replay
  | .fill event => applyFill origins event state
  | .fee fee => applyFee fee state

/-- The executions as their stages left them. -/
def fullySettled (event : SettlementEvent) : Bool :=
  event.status == .completed && event.integrityVerified && event.lotProjected &&
    event.holdingProjected && event.attributionProjected && event.tradeProjected &&
    event.cashProjected

/-- A lot and the purchase that opened it agree. -/
def opensLot (lot : PositionLot) (event : SettlementEvent) : Bool :=
  event.side == .buy && event.quantity == lot.openedQuantity &&
    event.price == lot.acquisitionPrice && event.occurredAt == lot.openedAt

/-- The checks of one lot before the replay. -/
def checkLot (settlements : List SettlementEvent) (lot : PositionLot) : Except Raised Unit := do
  raiseIf (((settlements.find? fun e => e.fillId = lot.originatingFillId).any
      (opensLot lot)) = false)
    (assetFeeIntegrity "ASSET_FEE_OPENING_EVIDENCE_INVALID")
  raiseIf (¬ lot.Conserved) (assetFeeIntegrity "ASSET_FEE_PRE_REPLAY_CONSERVATION_FAILED")

/-- The checks before the replay. -/
def checkReplay (lots : List PositionLot) (settlements : List SettlementEvent)
    (fees : List AssetFee) : Except Raised Unit :=
  match lots with
  | [] => .error (assetFeeIntegrity "ASSET_FEE_NO_LOCAL_LOTS")
  | first :: _ => do
      let key := assetIdentityKey first.asset
      raiseIf (∃ asset ∈ lots.map (·.asset) ++ settlements.map (·.asset) ++ fees.map (·.asset),
          assetIdentityKey asset ≠ key)
        (assetFeeIntegrity "ASSET_FEE_REPLAY_MIXED_ASSETS")
      raiseIf (∃ lot ∈ lots, lot.positionSide ≠ .long)
        (assetFeeIntegrity "ASSET_FEE_UNSUPPORTED_SHORT_INVENTORY")
      raiseIf (¬ (fees.map (·.activityId)).Nodup) (assetFeeIntegrity "ASSET_FEE_DUPLICATE_RECEIPT")
      fees.forM fun fee => do
        let parsed ← parseAssetFee fee.receipt
        raiseIf (parsed ≠ fee) (assetFeeIntegrity "ASSET_FEE_RECEIPT_FIELDS_MISMATCH")
      raiseIf (∃ lot ∈ lots, ∃ id ∈ lot.assetFeeQuantities.keys, id ∉ fees.map (·.activityId))
        (assetFeeIntegrity "ASSET_FEE_REPLAY_RECEIPT_MISSING")
      raiseIf (¬ (settlements.map (·.fillId)).Nodup) (assetFeeIntegrity "ASSET_FEE_DUPLICATE_FILL")
      raiseIf (∃ lot ∈ lots, lot.origin = .adopted)
        (assetFeeIntegrity "ASSET_FEE_ADOPTED_LOT_UNSUPPORTED")
      raiseIf (¬ (lots.map (·.originatingFillId)).Nodup)
        (assetFeeIntegrity "ASSET_FEE_DUPLICATE_OPENING")
      raiseIf (∃ event ∈ settlements, fullySettled event = false)
        (assetFeeIntegrity "ASSET_FEE_REPLAY_UNSETTLED_EVENT")
      lots.forM (checkLot settlements)
      raiseIf (∃ event ∈ settlements, event.brokerFillId.getD "" = "")
        (assetFeeIntegrity "ASSET_FEE_BROKER_ACTIVITY_ID_MISSING")

/-- The lot that an execution opened. -/
def originOf (lots : List PositionLot) (fillId : String) : Option PositionLot :=
  lots.find? fun lot => lot.originatingFillId = fillId

/-- A lot of the replay; `KeyError` where it never opened. -/
def replayedLot (state : Replay) (lotId : String) : Except Raised PositionLot :=
  match state.current.get? lotId with
  | none => .error ⟨.other, lotId⟩
  | some lot => .ok lot

/-- `preview_fee_replay`. -/
def previewFeeReplay (lots : List PositionLot) (settlements : List SettlementEvent)
    (fees : List AssetFee) : Except Raised (List PositionLot × OrderedDict String ℚ) := do
  checkReplay lots settlements fees
  let final ← (chronology settlements fees).foldlM (replayOne (originOf lots)) {}
  let replayed ← (lots.map (·.lotId)).mapM (replayedLot final)
  return (replayed, final.realized)

/-! ### What is accepted -/

/-- What the checks before a replay ask. -/
structure Accepted (lots : List PositionLot) (settlements : List SettlementEvent)
    (fees : List AssetFee) : Prop where
  nonempty : lots ≠ []
  oneAsset : ∃ key, ∀ asset ∈ lots.map (·.asset) ++ settlements.map (·.asset) ++ fees.map (·.asset),
    assetIdentityKey asset = key
  long : ∀ lot ∈ lots, lot.positionSide = .long
  receipts : (fees.map (·.activityId)).Nodup
  parsed : ∀ fee ∈ fees, parseAssetFee fee.receipt = .ok fee
  known : ∀ lot ∈ lots, ∀ id ∈ lot.assetFeeQuantities.keys, id ∈ fees.map (·.activityId)
  fills : (settlements.map (·.fillId)).Nodup
  filled : ∀ lot ∈ lots, lot.origin ≠ .adopted
  openings : (lots.map (·.originatingFillId)).Nodup
  settled : ∀ event ∈ settlements, fullySettled event = true
  opened : ∀ lot ∈ lots, ∃ event ∈ settlements, event.fillId = lot.originatingFillId ∧
    opensLot lot event = true
  conserved : ∀ lot ∈ lots, lot.Conserved
  identified : ∀ event ∈ settlements, event.brokerFillId.getD "" ≠ ""

theorem exists_ok_of_any {ε α : Type} {x : Except ε α} {P : α → Prop} [DecidablePred P]
    (h : (x.toOption.any fun a => decide (P a)) = true) : ∃ a, x = .ok a ∧ P a := by
  cases x with
  | error e => cases h
  | ok a => exact ⟨a, rfl, of_decide_eq_true h⟩

theorem forM_eq_ok_iff {ε α : Type} {f : α → Except ε Unit} {l : List α} {u : Unit} :
    l.forM f = .ok u ↔ ∀ a ∈ l, f a = .ok () := by
  induction l with
  | nil => exact ⟨fun _ a ha => (List.not_mem_nil ha).elim, fun _ => rfl⟩
  | cons a l ih =>
      change (f a >>= fun _ => l.forM f) = .ok u ↔ _
      rw [except_bind_eq_ok, List.forall_mem_cons]
      constructor
      · rintro ⟨u', ha, hl⟩
        exact ⟨ha, ih.1 hl⟩
      · rintro ⟨ha, hl⟩
        exact ⟨(), ha, ih.2 hl⟩

theorem mem_of_fillId {settlements : List SettlementEvent} {a b : SettlementEvent}
    (hnodup : (settlements.map (·.fillId)).Nodup) (ha : a ∈ settlements) (hb : b ∈ settlements)
    (h : a.fillId = b.fillId) : a = b :=
  List.inj_on_of_nodup_map hnodup ha hb h

theorem checkLot_ok_iff {settlements : List SettlementEvent} {lot : PositionLot} {u : Unit}
    (hnodup : (settlements.map (·.fillId)).Nodup) :
    checkLot settlements lot = .ok u ↔
      (∃ event ∈ settlements, event.fillId = lot.originatingFillId ∧ opensLot lot event = true) ∧
        lot.Conserved := by
  unfold checkLot
  simp only [except_bind_eq_ok, raiseIf_eq_ok_iff, exists_const, Bool.not_eq_false, not_not]
  refine and_congr_left fun _ => ?_
  rw [Option.any_eq_true]
  constructor
  · rintro ⟨event, hfind, hopens⟩
    exact ⟨event, List.mem_of_find?_eq_some hfind, by simpa using List.find?_some hfind, hopens⟩
  · rintro ⟨event, hmem, hfill, hopens⟩
    obtain ⟨found, hfound⟩ :
        ∃ found, settlements.find? (fun e => e.fillId = lot.originatingFillId) = some found :=
      Option.isSome_iff_exists.1 (List.find?_isSome.2 ⟨event, hmem, by simpa using hfill⟩)
    have hid : found.fillId = lot.originatingFillId := by simpa using List.find?_some hfound
    have hsame := mem_of_fillId hnodup (List.mem_of_find?_eq_some hfound) hmem (hid.trans hfill.symm)
    exact ⟨found, hfound, hsame ▸ hopens⟩

/-- The checks before a replay pass exactly where what they ask holds. -/
theorem checkReplay_ok_iff {lots : List PositionLot} {settlements : List SettlementEvent}
    {fees : List AssetFee} {u : Unit} :
    checkReplay lots settlements fees = .ok u ↔ Accepted lots settlements fees := by
  cases lots with
  | nil =>
      constructor
      · intro h
        cases h
      · intro h
        exact (h.nonempty rfl).elim
  | cons first lots =>
      unfold checkReplay
      simp only [except_bind_eq_ok, raiseIf_eq_ok_iff, exists_const, forM_eq_ok_iff, not_not,
        not_exists, not_and, ne_eq, Bool.not_eq_false, exists_eq_right]
      constructor
      · rintro ⟨hasset, hlong, hreceipts, hparsed, hknown, hfills, hfilled, hopenings, hsettled,
          hlots, hidentified⟩
        exact
          { nonempty := List.cons_ne_nil _ _
            oneAsset := ⟨_, hasset⟩
            long := hlong
            receipts := hreceipts
            parsed := hparsed
            known := hknown
            fills := hfills
            filled := hfilled
            openings := hopenings
            settled := hsettled
            opened := fun lot hlot => ((checkLot_ok_iff hfills).1 (hlots lot hlot)).1
            conserved := fun lot hlot => ((checkLot_ok_iff hfills).1 (hlots lot hlot)).2
            identified := hidentified }
      · intro h
        obtain ⟨key, hkey⟩ := h.oneAsset
        have hfirst : assetIdentityKey first.asset = key := hkey _ (by simp)
        exact ⟨fun asset hmem => (hkey asset hmem).trans hfirst.symm, h.long, h.receipts, h.parsed,
          h.known, h.fills, h.filled, h.openings, h.settled,
          fun lot hlot => (checkLot_ok_iff h.fills).2 ⟨h.opened lot hlot, h.conserved lot hlot⟩,
          h.identified⟩

/-- A replay that is accepted: its checks passed, every turn succeeded, and every lot opened. -/
theorem previewFeeReplay_ok_iff {lots out : List PositionLot} {settlements : List SettlementEvent}
    {fees : List AssetFee} {realized : OrderedDict String ℚ} :
    previewFeeReplay lots settlements fees = .ok (out, realized) ↔
      Accepted lots settlements fees ∧
        ∃ final, (chronology settlements fees).foldlM (replayOne (originOf lots)) {} = .ok final ∧
          (lots.map (·.lotId)).mapM (replayedLot final) = .ok out ∧ final.realized = realized := by
  unfold previewFeeReplay
  simp only [except_bind_eq_ok, checkReplay_ok_iff, exists_const]
  refine and_congr_right fun _ => exists_congr fun final => and_congr_right fun _ => ?_
  constructor
  · rintro ⟨out', hout, h⟩
    cases h
    exact ⟨hout, rfl⟩
  · rintro ⟨hout, rfl⟩
    exact ⟨out, hout, rfl⟩

end HistoricalFees

end TradePulse
