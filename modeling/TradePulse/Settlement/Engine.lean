/-
**The settlement processor** (`settlement/engine.py`).

Each stage is a program over the transactions of `TradePulse/Settlement/Transactions.lean`, and
`processPending` claims the events that are due, runs the stages of each and records the outcome.

Main definitions:

* `projectLot`, `projectAttribution`, `projectHolding`, `projectTrade`, `verifyIntegrity`,
  `projectLiabilityHold` — the stages;
* `handlers` — which program runs in which stage;
* `processPending` — one pass of the processor.
-/

import TradePulse.Settlement.Transactions

set_option autoImplicit false

namespace TradePulse

namespace Settlement

open Process

/-- Perform a transaction. -/
abbrev perform (o : Op) : Settle o.Res := Prog.perform o

/-! ### Lots -/

/-- The lots of an instrument that were not converted into a liability. -/
def unconvertedLots (reader : Stage) (asset : AssetIdentity) : Settle (List PositionLot) := do
  let lots ← perform (.lotsByAsset reader asset)
  let converted ← perform .convertedLots
  return lots.filter fun l => !converted.contains l.lotId

/-- The liability of an oversell. -/
def oversellLiability (event : SettlementEvent) (quantity : ℚ) :
    Except Raised ShortExposureLiability := do
  let brokerOrderId := event.brokerOrderId.getD ""
  raiseIf (brokerOrderId = "")
    (.integrityViolation "INTEGRITY_VIOLATION: oversell without a broker order ID")
  let multiplier ← contractMultiplierOf event.asset
  ShortExposureLiability.make
    { liabilityId := "liability:" ++ event.fillId
      fillId := event.fillId
      brokerOrderId := brokerOrderId
      tradeIntentId := event.tradeIntentId
      asset := event.asset
      quantity := quantity
      salePrice := event.price
      multiplier := multiplier
      proceeds := quantity * event.price * multiplier
      openedAt := event.occurredAt }

/-- The lot a fill opens. -/
def openedLot (event : SettlementEvent) (lotId : String) (side : PositionSide) (quantity : ℚ) :
    Except Raised PositionLot :=
  PositionLot.make
    { lotId := lotId
      originatingFillId := event.fillId
      asset := event.asset
      positionSide := side
      openedQuantity := quantity
      remainingQuantity := quantity
      acquisitionPrice := event.price
      openedAt := event.occurredAt
      mfePrice := some event.price
      maePrice := some event.price }

/-- An open adopted lot and a strategy fill may not meet in one instrument. -/
def mixedLotOrigin (event : SettlementEvent) : Settle Unit := do
  let reason := "MIXED_LOT_ORIGIN: " ++ event.asset.symbol ++ " fill " ++ event.fillId
  let _ ← perform (.latchFinancialIntegrityBlock reason event.occurredAt)
  -- `event.broker_order_id or event.fill_id`: an empty order identifier counts as none
  let key := match event.brokerOrderId with
    | some id => if id = "" then event.fillId else id
    | none => event.fillId
  let _ ← perform (.createHold
    { brokerOrderId := key
      tradeIntentId := event.tradeIntentId
      holdType := .mixedLotOrigin
      reason := reason
      createdAt := event.occurredAt })
  Prog.fail (.integrityViolation "INTEGRITY_VIOLATION: MIXED_LOT_ORIGIN")

/-- What a plan opens: a liability for an oversell, a lot otherwise. -/
def openPosition (lots : List PositionLot) (event : SettlementEvent) (plan : SignedLotPlan) :
    Settle Unit :=
  if 0 < plan.openingQuantity then
    if plan.openingDirection = .short then do
      let liability ← Prog.ofExcept (oversellLiability event plan.openingQuantity)
      let _ ← perform (.createLiability liability)
      return ()
    else if lots.any fun l => l.origin == .adopted && l.status != .closed then
      mixedLotOrigin event
    else do
      let lotId ← perform .uuid4
      let lot ← Prog.ofExcept (openedLot event lotId plan.openingDirection plan.openingQuantity)
      let _ ← perform (.createLot lot event.brokerOrderId)
      return ()
  else pure ()

/-- `_project_lot`: plan the fill, apply its closures one by one, open what is left. -/
def projectLot (event : SettlementEvent) : Settle (Option ℚ) := do
  let lots ← unconvertedLots .projectLot event.asset
  let plan ← Prog.ofExcept (planSignedLotFill lots event)
  let _ ← Prog.ofExcept (raiseIf (plan.closures.any fun c => c.lot.positionSide == .short)
    (.integrityViolation "INTEGRITY_VIOLATION: UNSUPPORTED_SHORT_LOT"))
  Prog.forEach plan.closures fun closure => do
    let _ ← perform (.closeLot closure event)
    return ()
  openPosition lots event plan
  return some plan.realizedPnl

/-! ### Attributions -/

/-- Why a position was closed, from the protective levels of its opening. -/
def inferExitReason (side : PositionSide) (stopLoss targetPrice : Option ℚ) (exitPrice : ℚ)
    (heldDays maxHoldDays : Option ℤ) : Option ExitReason :=
  let timeStopEligible := maxHoldDays.any (fun d => decide (0 < d)) && heldDays.isSome
  if stopLoss.isNone && targetPrice.isNone && !timeStopEligible then none
  else
    let isLong := side == .long
    let stopHit := stopLoss.any fun stop =>
      if isLong then decide (exitPrice ≤ stop) else decide (stop ≤ exitPrice)
    let targetHit := targetPrice.any fun target =>
      if isLong then decide (target ≤ exitPrice) else decide (exitPrice ≤ target)
    let timeHit := maxHoldDays.any fun d =>
      decide (0 < d) && heldDays.any fun held => decide (d ≤ held)
    if stopHit then some .stopLoss
    else if targetHit then some .targetPrice
    else if timeHit then some .timeStop
    else some .other

/-- The day of an instant, counted from the epoch. -/
def dayOf (t : Instant) : ℤ := t / 86400000000

/-- The attribution of one lot that an event closed. -/
def attributionOf (event : SettlementEvent) (lot : PositionLot) (quantity pnl : ℚ)
    (openingTradeIntentId : String) (exitReason : Option ExitReason) : TradeAttribution where
  attributionId := attributionId lot event.fillId
  asset := event.asset
  lotId := lot.lotId
  openingTradeIntentId := openingTradeIntentId
  closingTradeIntentId := event.tradeIntentId
  closingFillId := event.fillId
  quantity := quantity
  entryPrice := lot.acquisitionPrice
  entryAt := lot.openedAt
  exitPrice := event.price
  exitAt := event.occurredAt
  realizedPnl := pnl
  createdAt := event.occurredAt
  exitReason := exitReason
  maxFavorableExcursion := lot.mfePrice
  maxAdverseExcursion := lot.maePrice

/-- The intent whose fill opened a lot. -/
def openingIntentOf (lot : PositionLot) : Settle (Option TradeIntent) := do
  match ← perform (.getFill lot.originatingFillId) with
  | none => return none
  | some fill => perform (.getTradeIntent fill.tradeIntentId)

/-- Record the attribution of one closed lot; a lot whose opening intent is unknown is skipped. -/
def attributeLot (event : SettlementEvent) (lot : PositionLot) (quantity pnl : ℚ) :
    Settle Unit :=
  if lot.origin = .adopted then do
    let adoption ← perform (.getAdoption lot)
    let reason := inferExitReason lot.positionSide (some adoption.stopLoss) none event.price
      none none
    let _ ← perform (.createAttribution
      (attributionOf event lot quantity pnl lot.originatingFillId reason))
    return ()
  else do
    match ← openingIntentOf lot with
    | none => return ()
    | some intent => do
        let held := dayOf event.occurredAt - dayOf lot.openedAt
        let reason := inferExitReason lot.positionSide intent.stopLoss intent.targetPrice
          event.price (some held) intent.riskSnapshot.maxHoldDays
        let _ ← perform (.createAttribution
          (attributionOf event lot quantity pnl intent.tradeIntentId reason))
        return ()

/-- `_project_attribution`: one record for each lot this event closed some of. -/
def projectAttribution (event : SettlementEvent) : Settle Unit := do
  let lots ← perform (.lotsByAsset .projectAttribution event.asset)
  let closed := lots.filterMap fun l =>
    (l.closures.lookup event.fillId).map fun quantity => (l, quantity)
  if closed.isEmpty then return ()
  else do
    let multiplier ← Prog.ofExcept (contractMultiplierOf event.asset)
    Prog.forEach closed fun c =>
      attributeLot event c.1 c.2 (closurePnl c.1 event.price c.2 multiplier)

/-! ### Holdings -/

/-- The sum of a quantity over lots. -/
def sumOver (lots : List PositionLot) (f : PositionLot → ℚ) : ℚ := (lots.map f).sum

/-- The average price of open lots, weighted by what remains of them. -/
def averagePrice (lots : List PositionLot) : ℚ :=
  sumOver lots (fun l => l.remainingQuantity * l.acquisitionPrice)
    / sumOver lots fun l => l.remainingQuantity

/-- The oldest of several lots; of equally old ones, the first. -/
def oldestLot : List PositionLot → Option PositionLot
  | [] => none
  | l :: ls => some (ls.foldl (fun best lot => if lot.openedAt < best.openedAt then lot else best) l)

/-- `_entry_protective_levels`: the levels chosen at the entry that opened a lot. -/
def entryProtectiveLevels (lot : PositionLot) : Settle (Option ℚ × Option ℚ) :=
  if lot.origin = .adopted then do
    let adoption ← perform (.getAdoption lot)
    return (some adoption.stopLoss, none)
  else do
    match ← openingIntentOf lot with
    | none => return (none, none)
    | some intent => return (intent.stopLoss, intent.targetPrice)

/-- `_project_holding`: the holding of an instrument as its open lots add up. -/
def projectHolding (event : SettlementEvent) : Settle Unit := do
  let lots ← unconvertedLots .projectHolding event.asset
  let openLots := lots.filter fun l => l.isOpen
  let existing ← perform (.getHolding (.projects openLots) event.asset)
  match oldestLot openLots with
  | none =>
      if existing.isSome then do
        let _ ← perform (.deleteHolding event.asset event.brokerOrderId)
        return ()
      else return ()
  | some oldest => do
      let levels ← entryProtectiveLevels oldest
      let holding ← Prog.ofExcept (Holding.make
        { asset := event.asset
          quantity := sumOver openLots fun l => l.signedQuantity
          averagePrice := averagePrice openLots
          updatedAt := event.occurredAt
          sector := event.sector
          stopLoss := levels.1
          targetPrice := levels.2 })
      if existing.isSome then do
        let _ ← perform (.mutateHolding openLots holding event.brokerOrderId)
        return ()
      else do
        let _ ← perform (.createHolding openLots holding event.brokerOrderId)
        return ()

/-! ### Trade intents -/

/-- `_project_trade`: the intent's fills and profits, summed afresh. -/
def projectTrade (event : SettlementEvent) : Settle Unit := do
  match ← perform (.getTradeIntent event.tradeIntentId) with
  | none => return ()
  | some intent => do
      let fills ← perform (.fillsByTradeIntent event.tradeIntentId)
      let cumulativeQty := (fills.map fun f => f.quantity).sum
      let totalNotional := (fills.map fun f => f.quantity * f.price).sum
      let ownEvents ← perform (.settlementsByTradeIntent event.tradeIntentId)
      let _ ← perform (.updateTradeIntent
        { intent with
          filledQuantity := cumulativeQty
          filledAvgPrice := if 0 < cumulativeQty then some (totalNotional / cumulativeQty) else none
          realizedPnl := some (ownEvents.map fun e => e.realizedPnl.getD 0).sum }
        event.brokerOrderId)
      return ()

/-! ### Integrity -/

/-- The text of the exception that an order-level hold raises. -/
def heldText (hold : IntegrityHold) (brokerOrderId : String) : String :=
  (if hold.holdType = .fillQuantityDisputed then "INTEGRITY_VIOLATION" else "VERIFICATION_PENDING")
    ++ ": order-level integrity hold (" ++ hold.holdType.value ++ ") active for " ++ brokerOrderId

/-- The order of an event must not be held. -/
def refuseHeld (event : SettlementEvent) : Settle Unit :=
  match event.brokerOrderId with
  | none => return ()
  | some id => do
      match ← perform (.getHold id) with
      | none => return ()
      | some hold => Prog.fail (.integrityViolation (heldText hold id))

/-- Another event that already completed this event's broker fill. -/
def duplicateFills (event : SettlementEvent) : Settle (List SettlementEvent) :=
  match event.brokerFillId with
  | none => return []
  | some id =>
      if id = "" then return []
      else do
        let rows ← perform (.settlementsByBrokerFill id)
        return rows.filter fun e =>
          e.settlementEventId ≠ event.settlementEventId && e.status == .completed

/-- The error of a holding that does not have the quantity of the lots. -/
def holdingMismatch (event : SettlementEvent) (checkLots : Bool) (openLots : List PositionLot)
    (holding : Option Holding) : List String :=
  let lotQty := sumOver openLots fun l => l.signedQuantity
  let holdingQty := (holding.map fun h => h.quantity).getD 0
  if checkLots && lotQty != holdingQty then
    ["HOLDING_LOT_MISMATCH: for " ++ event.asset.symbol]
  else []

/-- `_verify_integrity`: holdings and lots agree, and no broker fill is settled twice. -/
def verifyIntegrity (event : SettlementEvent) (checkLots : Bool) : Settle Unit := do
  refuseHeld event
  let lots ← unconvertedLots .verifyIntegrity event.asset
  let openLots := lots.filter fun l => l.isOpen
  let holding ← perform (.getHolding (.compares openLots checkLots) event.asset)
  let mismatch := holdingMismatch event checkLots openLots holding
  let duplicates ← duplicateFills event
  let duplicate := if duplicates.isEmpty then [] else
    ["DUPLICATE_BROKER_FILL: " ++ event.brokerFillId.getD "" ++ " already completed"]
  let errors := mismatch ++ duplicate
  Prog.ofExcept (raiseIf (errors ≠ [])
    (.integrityViolation ("INTEGRITY_VIOLATION: " ++ "; ".intercalate errors)))

/-- `_project_liability_hold`: an oversell stops trading and holds its order. -/
def projectLiabilityHold (event : SettlementEvent) : Settle Unit := do
  match ← perform (.findLiability event.fillId) with
  | none => return ()
  | some liability => do
      let reason := "UNSUPPORTED_SHORT_POSITION: " ++ liability.liabilityId
      let _ ← perform (.latchFinancialIntegrityBlock reason event.occurredAt)
      let _ ← perform (.createHold
        { brokerOrderId := liability.brokerOrderId
          tradeIntentId := liability.tradeIntentId
          holdType := .shortExposure
          reason := reason
          createdAt := event.occurredAt })
      let _ ← perform (.createAuditEvent
        { eventId := "unsupported_short_position:" ++ liability.liabilityId
          eventType := "unsupported_short_position"
          entityId := liability.liabilityId
          occurredAt := event.occurredAt })
      let _ ← perform .sendAlert
      return ()

/-! ### One pass -/

/-- The program of each stage. -/
def handlers (stage : Stage) (state : SettlementEvent) : Settle (Option ℚ) :=
  match stage with
  | .projectLot => projectLot state
  | .projectAttribution => do
      projectAttribution state
      return none
  | .projectCash => do
      let _ ← perform (.projectAccounting state true false)
      return none
  | .projectHolding => do
      projectHolding state
      return none
  | .projectTrade => do
      let _ ← perform (.projectAccounting state false true)
      projectTrade state
      return none
  | .verifyIntegrity => do
      verifyIntegrity state true
      return none
  | .projectLiabilityHold => do
      projectLiabilityHold state
      return none

structure SettlementBatchSummary where
  ok : Bool
  processed : ℕ
  completed : ℕ
  failed : ℕ
  pending : ℕ
  retryableFailed : ℕ
  integrityBlocked : ℕ
  terminalFailed : ℕ
  deriving DecidableEq

/-- The counters of a pass. -/
structure BatchCounts where
  completed : ℕ := 0
  failed : ℕ := 0
  retryableFailed : ℕ := 0
  integrityBlocked : ℕ := 0
  terminalFailed : ℕ := 0

def BatchCounts.fail (c : BatchCounts) (status : SettlementStatus) : BatchCounts :=
  let c := { c with failed := c.failed + 1 }
  match status with
  | .retryableFailed => { c with retryableFailed := c.retryableFailed + 1 }
  | .integrityBlocked => { c with integrityBlocked := c.integrityBlocked + 1 }
  | .terminalFailed => { c with terminalFailed := c.terminalFailed + 1 }
  | _ => c

/-- The event of an attempt that went through all stages. -/
def doneEvent (event : SettlementEvent) : Except Raised SettlementEvent :=
  SettlementEvent.make
    { event.toSettlementEventFields with
      status := .completed
      processingOwner := none
      processingStartedAt := none
      errorCode := none
      nextRetryAt := none }

/-- The event of an attempt that failed: the event as it was claimed, with the outcome. -/
def failedEvent (claimed : SettlementEvent) (failure : ClassifiedFailure) :
    Except Raised SettlementEvent :=
  SettlementEvent.make
    { claimed.toSettlementEventFields with
      status := failure.status
      attemptCount := failure.attemptCount
      errorCode := some (String.ofList (failure.error.toList.take 200))
      nextRetryAt := failure.nextRetryAt
      processingOwner := none
      processingStartedAt := none }

/-- One attempt at a claimed event. -/
def attempt (claimed : SettlementEvent) : Settle Unit := do
  verifyIntegrity claimed false
  let finalState ← runSettlementStages claimed handlers fun e => perform (.checkpoint e)
  let done ← Prog.ofExcept (doneEvent finalState)
  perform (.checkpoint done)

/-- Record the failure of an attempt; a failure for good also stops trading. -/
def recordFailure (event claimed : SettlementEvent) (exc : Raised) (now : Instant) :
    Settle SettlementStatus := do
  let failure := classifySettlementFailure event.attemptCount exc now
  let failed ← Prog.ofExcept (failedEvent claimed failure)
  perform (.checkpoint failed)
  if failure.status = .integrityBlocked ∨ failure.status = .terminalFailed then do
    let reason := if failure.status = .integrityBlocked
      then "Settlement integrity blocked: " ++ failure.error
      else "Settlement permanently failed for a real broker fill: " ++ failure.error
    perform .sendAlert
    let clock ← perform .clock
    perform (.latchFinancialIntegrityBlock reason clock)
    return failure.status
  else return failure.status

/-- Claim one due event and attempt it. -/
def processEvent (now : Instant) (stale : ℕ) (force : Bool) (counts : BatchCounts)
    (event : SettlementEvent) : Settle BatchCounts := do
  if ← perform .leaseLost then return counts
  else
    match ← perform (.claimIfProcessable event.settlementEventId now stale force) with
    | none => return counts
    | some claimed =>
        Prog.tryCatch
          (do
            attempt claimed
            return { counts with completed := counts.completed + 1 })
          fun exc => do
            let status ← recordFailure event claimed exc now
            return counts.fail status

/-- The events due at an instant, oldest first. -/
def dueEvents (events : List SettlementEvent) (now : Instant) (stale : ℕ) (force : Bool)
    (limit : ℕ) : List SettlementEvent :=
  ((events.filter fun e => isSettlementProcessable e now stale force).insertionSort
    fun a b => a.occurredAt ≤ b.occurredAt).take limit

/-- The arguments of a pass. -/
structure PassArgs where
  limit : ℕ := 100
  staleLeaseSeconds : ℕ := 120
  forceRetry : Bool := false

/-- `process_pending`: one pass over the events that are due. -/
def processPending (args : PassArgs) : Settle SettlementBatchSummary := do
  let now ← perform .clock
  let events ← perform (.listByStatuses [.pending, .retryableFailed, .processing])
  let due := dueEvents events now args.staleLeaseSeconds args.forceRetry args.limit
  let counts ← Prog.foldEach due {} (processEvent now args.staleLeaseSeconds args.forceRetry)
  let unresolved ← perform (.listByStatuses
    [.pending, .processing, .retryableFailed, .integrityBlocked, .terminalFailed])
  return { ok := unresolved.isEmpty
           processed := due.length
           completed := counts.completed
           failed := counts.failed
           pending := (unresolved.filter fun e =>
             e.status == .pending || e.status == .processing).length
           retryableFailed := counts.retryableFailed
           integrityBlocked := counts.integrityBlocked
           terminalFailed := counts.terminalFailed }

end Settlement

end TradePulse
