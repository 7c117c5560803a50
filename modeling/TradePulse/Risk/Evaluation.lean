/-
**The risk engine** (`risk/engine.py`): `evaluate_risk` and the limits, options and snapshot it
reads.

A decision refuses a request with its reasons, or approves a quantity of it.  A purchase passes the
quote checks and the account's gates and is then sized: the requested quantity is cut by one cap
after another, each in its own way, and the result must still be worth an order.

The decimals of a reason are kept as numbers instead of being formatted into its text, and a decimal
that may not be finite is a `RegimeMultiplier`.

Main definitions:

* `EntryLimits` — the limits of a risk profile that sizing reads, with the check they pass when a
  profile is built;
* `RiskCheckInput`, `PortfolioSnapshot`, `RiskEvalOptions`, `RiskDecision` — the arguments and the
  result;
* `marketReasons`, `gateReasons` — the checks made before sizing;
* `capByRisk`, `capByPosition`, `capBySector`, `capByExposure`, `capByCash` — the caps, in order;
* `evaluateRisk` — the whole decision.
-/

import Mathlib.Data.Rat.Floor
import TradePulse.Models.Market
import TradePulse.Models.Stored

set_option autoImplicit false

namespace TradePulse

/-! ### Limits -/

/-- The limits that sizing reads, before they are checked. -/
structure EntryLimitFields extends RiskLimits where
  maxPositionPct : ℚ
  maxSectorPct : ℚ
  minConfidence : ℚ
  stopLossPct : ℚ
  maxDailyTrades : ℤ
  maxOpenPositions : ℤ
  maxDailyLossPct : ℚ
  spreadLimitPct : ℚ
  slippageLimitPct : ℚ
  maxRiskPerTradePct : ℚ
  maxTotalExposurePct : ℚ
  maxSimultaneousOrders : ℤ
  minLotNotional : ℚ := 1
  minPositionSizeMultiplier : ℚ := 1 / 2
  optionsSpreadLimitPct : Option ℚ := none
  optionsSlippageLimitPct : Option ℚ := none
  maxOpenRiskPct : ℚ := 0
  maxEntriesPerSymbolPerDay : ℤ := 0
  maxCostToRiskPct : ℚ := 0
  deriving DecidableEq

@[simp] theorem optionalNonnegativeCheck_fst (q : Option ℚ) (field : String) :
    (optionalNonnegativeCheck q field).1 = true ↔ ∀ x ∈ q, 0 ≤ x := by
  cases q <;> simp [optionalNonnegativeCheck]

/-- The check of a count that is at least one. -/
def atLeastOneCheck (n : ℤ) (text : String) : Bool × String := (decide (1 ≤ n), text)

instance : Checked EntryLimitFields where
  checks l :=
    [ nonnegativeCheck l.maxPositionPct "max_position_pct",
      nonnegativeCheck l.maxSectorPct "max_sector_pct",
      nonnegativeCheck l.minConfidence "min_confidence",
      nonnegativeCheck l.stopLossPct "stop_loss_pct",
      nonnegativeCheck l.maxDailyLossPct "max_daily_loss_pct",
      nonnegativeCheck l.spreadLimitPct "spread_limit_pct",
      nonnegativeCheck l.slippageLimitPct "slippage_limit_pct",
      nonnegativeCheck l.maxRiskPerTradePct "max_risk_per_trade_pct",
      nonnegativeCheck l.maxTotalExposurePct "max_total_exposure_pct",
      nonnegativeCheck l.minLotNotional "min_lot_notional",
      nonnegativeCheck l.breakEvenTriggerPct "break_even_trigger_pct",
      nonnegativeCheck l.trailingAtrMultiplier "trailing_atr_multiplier",
      optionalNonnegativeCheck l.optionsSpreadLimitPct "options_spread_limit_pct",
      optionalNonnegativeCheck l.optionsSlippageLimitPct "options_slippage_limit_pct",
      atLeastOneCheck l.maxDailyTrades "max_daily_trades must be at least 1",
      atLeastOneCheck l.maxOpenPositions "max_open_positions must be at least 1",
      atLeastOneCheck l.maxSimultaneousOrders "max_simultaneous_orders must be at least 1",
      (decide (0 ≤ l.minConfidence ∧ l.minConfidence ≤ 100),
        "min_confidence must be between 0 and 100"),
      (decide (0 < l.minPositionSizeMultiplier ∧ l.minPositionSizeMultiplier ≤ 1),
        "min_position_size_multiplier must be between 0 (exclusive) and 1 (inclusive)"),
      positiveCheck l.maxOpenRiskPct "max_open_risk_pct",
      positiveCheck l.maxCostToRiskPct "max_cost_to_risk_pct",
      atLeastOneCheck l.maxEntriesPerSymbolPerDay
        "max_entries_per_symbol_per_day must be an integer of at least 1" ]

/-- The limits that sizing reads: fields that pass their checks. -/
structure EntryLimits extends EntryLimitFields where
  valid : Valid toEntryLimitFields

namespace EntryLimits

/-- What the checks of the limits guarantee of the ones a cap multiplies by. -/
theorem nonneg (l : EntryLimits) :
    0 ≤ l.maxPositionPct ∧ 0 ≤ l.maxSectorPct ∧ 0 ≤ l.maxRiskPerTradePct ∧
      0 ≤ l.maxTotalExposurePct ∧ 0 < l.maxOpenRiskPct ∧ 0 < l.maxCostToRiskPct ∧
      0 ≤ l.slippageLimitPct ∧ (∀ x ∈ l.optionsSlippageLimitPct, 0 ≤ x) := by
  have h := l.valid
  simp only [Valid, Checked.checks, List.forall_mem_cons, nonnegativeCheck_fst, positiveCheck_fst,
    optionalNonnegativeCheck_fst] at h
  tauto

theorem minLotNotional_nonneg (l : EntryLimits) : 0 ≤ l.minLotNotional := by
  have h := l.valid
  simp only [Valid, Checked.checks, List.forall_mem_cons, nonnegativeCheck_fst] at h
  tauto

theorem minPositionSizeMultiplier_mem (l : EntryLimits) :
    0 < l.minPositionSizeMultiplier ∧ l.minPositionSizeMultiplier ≤ 1 := by
  have h := l.valid
  simp only [Valid, Checked.checks, List.forall_mem_cons, decide_eq_true_eq] at h
  tauto

/-- The largest quoted spread, in per cent of the mid price, for a purchase of this class. -/
def spreadLimitFor (l : EntryLimits) (assetClass : AssetClass) : ℚ :=
  if assetClass = .option then l.optionsSpreadLimitPct.getD l.spreadLimitPct else l.spreadLimitPct

/-- The largest estimated slippage, in per cent, for a purchase of this class. -/
def slippageLimitFor (l : EntryLimits) (assetClass : AssetClass) : ℚ :=
  if assetClass = .option then l.optionsSlippageLimitPct.getD l.slippageLimitPct
  else l.slippageLimitPct

theorem slippageLimitFor_nonneg (l : EntryLimits) (assetClass : AssetClass) :
    0 ≤ l.slippageLimitFor assetClass := by
  obtain ⟨-, -, -, -, -, -, hshared, hoption⟩ := l.nonneg
  unfold slippageLimitFor
  split
  · cases h : l.optionsSlippageLimitPct with
    | none => simpa using hshared
    | some x => simpa using hoption x (by simp [h])
  · exact hshared

end EntryLimits

namespace Risk

/-! ### Arguments and result -/

/-- A multiplier that a caller supplies: a decimal, which may not be finite. -/
inductive RegimeMultiplier
  | finite (value : ℚ)
  | notFinite
  deriving DecidableEq

/-- The engine accepts finite multipliers between zero and one. -/
def RegimeMultiplier.InRange : RegimeMultiplier → Prop
  | finite value => 0 ≤ value ∧ value ≤ 1
  | notFinite => False

instance (m : RegimeMultiplier) : Decidable m.InRange := by
  cases m <;> unfold RegimeMultiplier.InRange <;> infer_instance

structure RiskCheckInput where
  symbol : String
  assetClass : AssetClass
  side : Side
  requestedQuantity : ℚ
  price : ℚ
  confidence : Option ℚ := none
  stopLoss : Option ℚ := none
  sector : String := "Other"
  contractMultiplier : ℚ := 1
  regimeMultiplier : Option RegimeMultiplier := none
  deriving DecidableEq

structure RiskEvalOptions where
  killSwitch : Bool := false
  protectiveExit : Bool := false
  bid : Option ℚ := none
  ask : Option ℚ := none
  estimatedSlippagePct : Option ℚ := none
  maxDrawdownBreached : Bool := false
  skipMarketDataChecks : Bool := false
  heldQuantity : ℚ := 0
  heldNotional : ℚ := 0
  availableCash : Option ℚ := none
  estimatedFees : ℚ := 0
  openRisk : ℚ := 0
  symbolEntriesToday : ℤ := 0
  candidateHoldsSlot : Bool := false
  deriving DecidableEq

/-- The part of a portfolio snapshot that the engine reads. -/
structure PortfolioSnapshot where
  totalEquity : ℚ
  holdingsValue : ℚ
  sectorExposure : Dict ℚ := ∅
  openPositions : ℤ := 0
  outstandingOrders : ℤ := 0
  tradesToday : ℤ := 0
  dailyPnlPct : ℚ := 0

/-- The exposure recorded for a sector, zero when there is none. -/
def PortfolioSnapshot.exposureOf (snapshot : PortfolioSnapshot) (sector : String) : ℚ :=
  (snapshot.sectorExposure.lookup sector).getD 0

/-- The cap that a reason names. -/
inductive CapName
  | riskBasedSizing | maxOpenRisk | maxPositionPct | maxSectorPct | maxTotalExposure | availableCash
  deriving DecidableEq

/-- A reason of a decision, with the numbers of its text. -/
inductive RiskReason
  | killSwitchActive
  | noQuoteDataForSpreadCheck
  | spreadExceedsLimit (spreadPct limit : ℚ)
  | noSlippageEstimate
  | slippageExceedsLimit (estimatedPct limit : ℚ)
  | maxDrawdownBreached
  | costExceedsRiskFraction (costPct limit riskPct : ℚ)
  | protectiveExit
  | insufficientPositionToSell (held requested : ℚ)
  | confidenceBelowMin (confidence minimum : ℚ)
  | invalidRegimeMultiplier (multiplier : RegimeMultiplier)
  | maxDailyTradesReached (trades limit : ℤ)
  | maxOpenPositionsReached (positions limit : ℤ)
  | maxDailyLossExceeded (pnlPct limit : ℚ)
  | maxEntriesPerSymbolReached (entries limit : ℤ)
  | maxSimultaneousOrdersReached (orders limit : ℤ)
  | riskBudgetScaledByConfidence (multiplier : ℚ)
  | riskBudgetScaledByRegime (multiplier : ℚ)
  | positionCapped (quantity : ℚ) (cap : CapName)
  | insufficientCapacityForMinimumLot
  | ok
  deriving DecidableEq

structure RiskDecision where
  approved : Bool
  approvedQuantity : ℚ
  reasons : List RiskReason
  deriving DecidableEq

/-- A refusal: zero units. -/
def RiskDecision.denied (reasons : List RiskReason) : RiskDecision := ⟨false, 0, reasons⟩

/-! ### Rounding, minima and multipliers -/

/-- Units of the finest quantity of a class in one unit. -/
def precision : AssetClass → ℚ
  | .crypto => 100000000
  | .option => 1
  | _ => 1000

/-- `_round_qty`: rounded down to the precision of the class, and never below zero. -/
def roundQty (qty : ℚ) (assetClass : AssetClass) : ℚ :=
  (⌊max qty 0 * precision assetClass⌋ : ℚ) / precision assetClass

/-- `_minimum_quantity` -/
def minimumQuantity : AssetClass → ℚ
  | .crypto => 1 / 100000000
  | .option => 1
  | _ => 1 / 1000

/-- `_confidence_multiplier` -/
def confidenceMultiplier (confidence : Option ℚ) (minConfidence floorMultiplier : ℚ) : ℚ :=
  match confidence with
  | none => 1
  | some confidence =>
      let span := 100 - minConfidence
      if span ≤ 0 ∨ 100 ≤ confidence then 1
      else floorMultiplier + (1 - floorMultiplier) * ((confidence - minConfidence) / span)

/-- The taker fee of each side, in per cent of the notional. -/
def feePctPerSide : AssetClass → ℚ
  | .crypto => 1 / 4
  | _ => 0

/-- The sector of broker inventory that no local holding accounts for. -/
def unmanagedSector : String := "Unmanaged"

/-! ### The quote checks -/

section Checks

variable (intent : RiskCheckInput) (limits : EntryLimits) (opts : RiskEvalOptions)

/-- The quoted spread in per cent of the mid price, when there is a positive mid price. -/
def spreadPct (bid ask : ℚ) : Option ℚ :=
  let mid := (bid + ask) / 2
  if 0 < mid then some ((ask - bid) / mid * 100) else none

def spreadReasons : List RiskReason :=
  let limit := limits.spreadLimitFor intent.assetClass
  if intent.side = .buy ∧ limit ≠ 0 ∧ !opts.skipMarketDataChecks then
    match opts.bid, opts.ask with
    | some bid, some ask =>
        match spreadPct bid ask with
        | some pct => if limit < pct then [.spreadExceedsLimit pct limit] else []
        | none => []
    | _, _ => [.noQuoteDataForSpreadCheck]
  else []

def slippageReasons : List RiskReason :=
  let limit := limits.slippageLimitFor intent.assetClass
  if intent.side = .buy ∧ limit ≠ 0 ∧ !opts.skipMarketDataChecks then
    match opts.estimatedSlippagePct with
    | none => [.noSlippageEstimate]
    | some pct => if limit < pct then [.slippageExceedsLimit pct limit] else []
  else []

def drawdownReasons : List RiskReason :=
  if intent.side = .buy ∧ !opts.protectiveExit ∧ opts.maxDrawdownBreached then
    [.maxDrawdownBreached]
  else []

/-- The cost rule: the spread and a fee for each side, against the risk of the trade. -/
def costReasons : List RiskReason :=
  match intent.stopLoss, opts.bid, opts.ask with
  | some stop, some bid, some ask =>
      if intent.side = .buy ∧ !opts.protectiveExit ∧ 0 < intent.price ∧ stop < intent.price ∧
          !opts.skipMarketDataChecks then
        match spreadPct bid ask with
        | some pct =>
            let cost := pct + 2 * feePctPerSide intent.assetClass
            let risk := (intent.price - stop) / intent.price * 100
            if limits.maxCostToRiskPct / 100 * risk < cost then
              [.costExceedsRiskFraction cost limits.maxCostToRiskPct risk]
            else []
        | none => []
      else []
  | _, _, _ => []

/-- The reasons found before the side and the snapshot are looked at. -/
def marketReasons : List RiskReason :=
  spreadReasons intent limits opts ++ slippageReasons intent limits opts ++
    drawdownReasons intent opts ++ costReasons intent limits opts

/-! ### The account's gates -/

/-- A reason, when a condition holds. -/
def reasonIf (p : Prop) [Decidable p] (reason : RiskReason) : List RiskReason :=
  if p then [reason] else []

variable (snapshot : PortfolioSnapshot)

def gateReasons : List RiskReason :=
  (match intent.confidence with
    | some c => reasonIf (c < limits.minConfidence) (.confidenceBelowMin c limits.minConfidence)
    | none => []) ++
  (match intent.regimeMultiplier with
    | some m => reasonIf (¬ m.InRange) (.invalidRegimeMultiplier m)
    | none => []) ++
  reasonIf (limits.maxDailyTrades ≤ snapshot.tradesToday)
    (.maxDailyTradesReached snapshot.tradesToday limits.maxDailyTrades) ++
  reasonIf (limits.maxOpenPositions ≤ snapshot.openPositions ∧ !opts.candidateHoldsSlot)
    (.maxOpenPositionsReached snapshot.openPositions limits.maxOpenPositions) ++
  reasonIf (snapshot.dailyPnlPct ≤ -limits.maxDailyLossPct)
    (.maxDailyLossExceeded snapshot.dailyPnlPct limits.maxDailyLossPct) ++
  reasonIf (limits.maxEntriesPerSymbolPerDay ≤ opts.symbolEntriesToday)
    (.maxEntriesPerSymbolReached opts.symbolEntriesToday limits.maxEntriesPerSymbolPerDay) ++
  reasonIf (limits.maxSimultaneousOrders ≠ 0 ∧
      limits.maxSimultaneousOrders ≤ snapshot.outstandingOrders)
    (.maxSimultaneousOrdersReached snapshot.outstandingOrders limits.maxSimultaneousOrders)

end Checks

/-! ### The caps -/

/-- The quantity still approved, and the reasons so far. -/
structure SizingState where
  approved : ℚ
  reasons : List RiskReason
  deriving DecidableEq

/-- Cut to a smaller quantity, naming the cap; a quantity that is not smaller changes nothing. -/
def SizingState.capTo (s : SizingState) (quantity : ℚ) (cap : CapName) : SizingState :=
  if quantity < s.approved then ⟨quantity, s.reasons ++ [.positionCapped quantity cap]⟩ else s

/-- Dollar notional of one unit. -/
def RiskCheckInput.notionalPerUnit (intent : RiskCheckInput) : ℚ :=
  intent.price * intent.contractMultiplier

section Caps

variable (intent : RiskCheckInput) (snapshot : PortfolioSnapshot) (limits : EntryLimits)
  (opts : RiskEvalOptions)

/-- The risk budget of one trade: a fraction of equity, scaled by confidence and by regime. -/
def riskBudget : ℚ :=
  let budget := limits.maxRiskPerTradePct / 100 * snapshot.totalEquity
  let byConfidence :=
    confidenceMultiplier intent.confidence limits.minConfidence limits.minPositionSizeMultiplier
  let budget := if byConfidence < 1 then budget * byConfidence else budget
  match intent.regimeMultiplier with
  | some (.finite m) => if m < 1 then budget * m else budget
  | _ => budget

/-- The reasons of a scaled budget. -/
def budgetReasons : List RiskReason :=
  let byConfidence :=
    confidenceMultiplier intent.confidence limits.minConfidence limits.minPositionSizeMultiplier
  reasonIf (byConfidence < 1) (.riskBudgetScaledByConfidence byConfidence) ++
  match intent.regimeMultiplier with
  | some (.finite m) => reasonIf (m < 1) (.riskBudgetScaledByRegime m)
  | _ => []

/-- What is left of the risk that all open positions together may carry. -/
def remainingRisk : ℚ := limits.maxOpenRiskPct / 100 * snapshot.totalEquity - opts.openRisk

/-- What one unit loses at its stop. -/
def RiskCheckInput.unitRisk (stop : ℚ) : ℚ := |intent.price - stop| * intent.contractMultiplier

/-- Risk-based sizing, then the combined open risk.  A stop that is not positive, or a limit of
zero, switches both off. -/
def capByRisk (s : SizingState) : SizingState :=
  match intent.stopLoss with
  | none => s
  | some stop =>
      if 0 < stop ∧ limits.maxRiskPerTradePct ≠ 0 then
        let s : SizingState := ⟨s.approved, s.reasons ++ budgetReasons intent limits⟩
        let unitRisk := intent.unitRisk stop
        if 0 < unitRisk then
          let s := s.capTo (roundQty (riskBudget intent snapshot limits / unitRisk)
            intent.assetClass) .riskBasedSizing
          s.capTo (roundQty (max (remainingRisk snapshot limits opts) 0 / unitRisk)
            intent.assetClass) .maxOpenRisk
        else s
      else s

/-- The remaining notional of the whole position. -/
def positionHeadroom : ℚ :=
  limits.maxPositionPct / 100 * snapshot.totalEquity - opts.heldNotional

/-- The position cap.  It divides by the notional of a unit unguarded, so that a unit without
notional raises when the headroom is negative. -/
def capByPosition (s : SizingState) : Except Raised SizingState :=
  let headroom := positionHeadroom snapshot limits opts
  if headroom < s.approved * intent.notionalPerUnit then
    if intent.notionalPerUnit = 0 then .error ⟨.other, "DivisionUndefined"⟩
    else
      let quantity := roundQty (max headroom 0 / intent.notionalPerUnit) intent.assetClass
      .ok ⟨quantity, s.reasons ++ [.positionCapped quantity .maxPositionPct]⟩
  else .ok s

/-- When a quantity exceeds a headroom, cut it to the headroom rounded down, if that is less. -/
def capByHeadroom (exceeds : Prop) [Decidable exceeds] (headroom : ℚ) (cap : CapName)
    (s : SizingState) : SizingState :=
  if exceeds then
    s.capTo (if 0 < intent.notionalPerUnit then
        roundQty (headroom / intent.notionalPerUnit) intent.assetClass else 0) cap
  else s

/-- The remaining notional of the sector, unmanaged inventory counted against every sector. -/
def sectorHeadroom : ℚ :=
  let current := snapshot.exposureOf intent.sector
  let current := if intent.sector ≠ unmanagedSector then
    current + snapshot.exposureOf unmanagedSector else current
  limits.maxSectorPct / 100 * snapshot.totalEquity - current

def capBySector (s : SizingState) : SizingState :=
  let headroom := sectorHeadroom intent snapshot limits
  capByHeadroom intent (headroom < s.approved * intent.notionalPerUnit) headroom .maxSectorPct s

/-- The remaining notional of the whole account. -/
def exposureHeadroom : ℚ :=
  limits.maxTotalExposurePct / 100 * snapshot.totalEquity - snapshot.holdingsValue

/-- The exposure cap; a limit of zero switches it off. -/
def capByExposure (s : SizingState) : SizingState :=
  if limits.maxTotalExposurePct ≠ 0 then
    let headroom := exposureHeadroom snapshot limits
    capByHeadroom intent (headroom < s.approved * intent.notionalPerUnit) headroom
      .maxTotalExposure s
  else s

/-- The cash that may be spent: a buffer of one per cent stays. -/
def bufferedCash (cash : ℚ) : ℚ := cash * (1 - 1 / 100)

structure CashCheck where
  approved : Bool
  maxAffordableNotional : ℚ

/-- `check_cash_sufficiency` -/
def checkCashSufficiency (cash notional fees : ℚ) : CashCheck :=
  ⟨!decide (bufferedCash cash < notional + fees), max 0 (bufferedCash cash - fees)⟩

def capByCash (s : SizingState) : SizingState :=
  match opts.availableCash with
  | none => s
  | some cash =>
      let check := checkCashSufficiency cash (s.approved * intent.notionalPerUnit)
        opts.estimatedFees
      capByHeadroom intent (¬ check.approved) check.maxAffordableNotional .availableCash s

/-- The sizing block.  It is skipped when there is no equity or no price. -/
def sizing : Except Raised SizingState := do
  let start : SizingState := ⟨intent.requestedQuantity, []⟩
  if 0 < snapshot.totalEquity ∧ 0 < intent.price then
    let s ← capByPosition intent snapshot limits opts
      (capByRisk intent snapshot limits opts start)
    .ok (capByCash intent opts
      (capByExposure intent snapshot limits (capBySector intent snapshot limits s)))
  else .ok start

/-- The quantity is not worth an order. -/
def BelowMinimumLot (quantity : ℚ) : Prop :=
  quantity < minimumQuantity intent.assetClass ∨
    (0 < intent.notionalPerUnit ∧ quantity * intent.notionalPerUnit < limits.minLotNotional)

instance (quantity : ℚ) : Decidable (BelowMinimumLot intent limits quantity) :=
  inferInstanceAs (Decidable (_ ∨ _))

/-- The decision on a sized quantity. -/
def concludeSizing (s : SizingState) : RiskDecision :=
  if BelowMinimumLot intent limits s.approved then
    .denied (s.reasons ++ [.insufficientCapacityForMinimumLot])
  else
    ⟨true, max 0 s.approved,
      if intent.requestedQuantity ≤ s.approved then s.reasons ++ [.ok] else s.reasons⟩

/-! ### The decision -/

/-- A purchase that is not protective, against a snapshot: the gates, then the caps. -/
def evaluateEntry : Except Raised RiskDecision :=
  let reasons := marketReasons intent limits opts ++ gateReasons intent limits opts snapshot
  if reasons ≠ [] then .ok (.denied reasons)
  else do
    let s ← sizing intent snapshot limits opts
    .ok (concludeSizing intent limits s)

end Caps

/-- `evaluate_risk` -/
def evaluateRisk (intent : RiskCheckInput) (snapshot : Option PortfolioSnapshot)
    (limits : EntryLimits) (opts : RiskEvalOptions) : Except Raised RiskDecision :=
  if opts.killSwitch ∧ !opts.protectiveExit then .ok (.denied [.killSwitchActive])
  else if opts.protectiveExit then
    if marketReasons intent limits opts ≠ [] then .ok (.denied (marketReasons intent limits opts))
    else .ok ⟨true, intent.requestedQuantity, [.protectiveExit]⟩
  else
    match intent.side with
    | .sell =>
        if opts.heldQuantity < intent.requestedQuantity then
          .ok (.denied [.insufficientPositionToSell opts.heldQuantity intent.requestedQuantity])
        else .ok ⟨true, intent.requestedQuantity, [.ok]⟩
    | .buy =>
        match snapshot with
        | none => .error (.valueError
            "RISK_SNAPSHOT_REQUIRED: new exposure is evaluated against a portfolio snapshot")
        | some snapshot => evaluateEntry intent snapshot limits opts

end Risk

end TradePulse
