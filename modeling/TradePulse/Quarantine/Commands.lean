/-
**The quarantine commands** (`quarantine/resolve.py`, `legacy.py`, `fees.py`).

`resolve` takes one broker execution against the open records of its instrument, the oldest first;
`adopt-legacy-lot` turns a legacy short lot into a liability.  Each makes its checks, asks the broker,
and then writes in one transaction, which makes the checks again.  The fee replay inserts allocations
of fees.  A transaction that raises leaves every table as it was.

Main definitions:

* `VerifiedFill`, `verifiedFill` — an activity that is a usable execution;
* `preflight`, `coverRecords`, `resolve` — the checks and the transaction of `resolve`;
* `loadLot`, `adopt` — the checks and the transaction of `adopt-legacy-lot`;
* `resolveFromActivity`, `adoptLegacyLot` — the commands;
* `system`, `concurrent` — the commands side by side with passes of the settlement processor.
-/

import TradePulse.Broker.Symbols
import TradePulse.Process.Parallel
import TradePulse.Quarantine.Records
import TradePulse.Settlement.Runs

set_option autoImplicit false

namespace TradePulse

namespace Quarantine

open Storage Process

/-! ### Activities -/

/-- An activity with the digest of its raw data, and with the date in it, if there is one. -/
structure Activity extends AlpacaActivity where
  rawSha256 : String
  rawDate : Option ℤ := none

/-- An execution all of whose facts are there, and whose quantity and price are positive. -/
structure VerifiedFill where
  activityId : String
  assetKey : String
  side : Side
  qty : ℚ
  price : ℚ
  transactionTime : Instant
  orderId : String
  rawSha256 : String
  qty_pos : 0 < qty
  price_pos : 0 < price

/-- `ResolveRefused`, which is a `ValueError`. -/
abbrev resolveRefused (reason : String) : Raised := .valueError reason

/-- `_find`: the one activity with the given id. -/
def findActivity (activities : List Activity) (activityId : String) : Except Raised Activity :=
  match activities.filter fun a => a.activityId = activityId with
  | [] => .error (resolveRefused "ACTIVITY_NOT_FOUND")
  | [a] => .ok a
  | _ => .error (resolveRefused "ACTIVITY_AMBIGUOUS")

/-- The facts of an execution, if they are all there. -/
def verifiedFill (a : Activity) : Except Raised VerifiedFill := do
  raiseIf (a.activityType ≠ "FILL") (resolveRefused "ACTIVITY_NOT_FILL")
  match a.side, a.qty, a.price, a.transactionTime with
  | some side, some qty, some price, some time =>
      if h : 0 < qty ∧ 0 < price then do
        let key ← brokerSymbolAssetKey a.symbol
        return { activityId := a.activityId
                 assetKey := key
                 side := side
                 qty := qty
                 price := price
                 transactionTime := time
                 orderId := a.orderId
                 rawSha256 := a.rawSha256
                 qty_pos := h.1
                 price_pos := h.2 }
      else .error (resolveRefused "ACTIVITY_UNPARSABLE")
  | _, _, _, _ => .error (resolveRefused "ACTIVITY_UNPARSABLE")

/-- `HARMLESS_ACTIVITY_TYPES`. -/
def harmlessActivityTypes : List String :=
  ["FILL", "FEE", "CFEE", "PTC", "PTR", "JNLC", "ACATC", "CSD", "CSW", "TRANS", "INT", "INTNRA",
    "INTTW"]

/-- `_activity_date`. -/
def activityDate (a : Activity) : Option ℤ :=
  match a.transactionTime with
  | some time => some (Settlement.dayOf time)
  | none => a.rawDate

/-- `corporate_action_blocks`: the first activity on the instrument, on or after the date, that is
not known to be harmless.  An activity without a date counts. -/
def corporateActionBlocks (assetKey : String) (since : Instant) :
    List Activity → Except Raised (Option String)
  | [] => .ok none
  | a :: activities =>
      if a.symbol = "" then corporateActionBlocks assetKey since activities
      else do
        let key ← brokerSymbolAssetKey a.symbol
        if key ≠ assetKey ∨ harmlessActivityTypes.contains a.activityType ∨
            (activityDate a).any (fun day => day < Settlement.dayOf since) then
          corporateActionBlocks assetKey since activities
        else return some (a.activityType ++ " " ++ a.activityId)

/-! ### Resolving -/

/-- `execution_cash`: a sale credits, a cover debits. -/
def executionCash (e : QuarantineExecution) : Except Raised CashLedgerEntry := do
  let multiplier ← contractMultiplierOf e.asset
  let notional := e.quantity * e.price * multiplier
  return { entryId := "fill:cash:" ++ e.activityId
           idempotencyKey := "fill:cash:" ++ e.activityId
           amount := if e.side = .sell then notional else -notional
           currency := "USD"
           occurredAt := e.executedAt
           reason := "quarantine execution cash; accounting-v1" }

/-- The checks of `resolve` against the database: the open records, and when the oldest of them was
opened. -/
def preflight (b : Books) (v : VerifiedFill) : Except Raised (List OpenRecord × Instant) := do
  raiseIf ((b.quarantineExecutions.get? v.activityId).isSome ∨
      ∃ r ∈ b.quarantineResolutions.rows, r.activityId = v.activityId)
    (resolveRefused "ACTIVITY_ALREADY_USED")
  raiseIf ((b.unresolvedBrokerExecutions.get? v.activityId).any fun u => u.rawSha256 ≠ v.rawSha256)
    (resolveRefused "BROKER_EVIDENCE_CHANGED")
  raiseIf ((∃ f ∈ b.store.fills.rows, f.fillId = v.activityId ∨ f.brokerFillId = some v.activityId) ∨
      (v.orderId ≠ "" ∧
        ((∃ i ∈ b.store.tradeIntents.rows, i.brokerOrderId = some v.orderId) ∨
          ∃ o ∈ b.orders, o.recordId = v.orderId ∨ o.brokerOrderId = some v.orderId)))
    (resolveRefused "ACTIVITY_HAS_TRADEPULSE_INTENT")
  match openRecords b v.assetKey with
  | [] => .error (resolveRefused "NO_OPEN_QUARANTINED_RECORD")
  | first :: rest => do
      raiseIf (∃ r ∈ rest, r.sign ≠ first.sign) (resolveRefused "QUARANTINE_MIXED_RECORDS")
      raiseIf (¬ (first.sign < 0 ↔ v.side = .buy)) (resolveRefused "WRONG_SIDE")
      raiseIf (v.transactionTime ≤ first.openedAt) (resolveRefused "ACTIVITY_BEFORE_RECORD")
      raiseIf (0 < first.sign ∧ ((first :: rest).map (·.quantity)).sum < v.qty)
        (resolveRefused "SALE_EXCEEDS_UNMANAGED_INVENTORY")
      return (first :: rest, first.openedAt)

/-- The execution that a verified activity is stored as. -/
def executionOf (v : VerifiedFill) (first : OpenRecord) : Except Raised QuarantineExecution :=
  checkRecord
    { activityId := v.activityId
      kind := if first.sign < 0 then .liabilityCover else .unmanagedSale
      asset := first.asset
      side := v.side
      quantity := v.qty
      price := v.price
      executedAt := v.transactionTime
      rawSha256 := v.rawSha256 }

/-- The resolution of a part of a record. -/
def resolutionOf (e : QuarantineExecution) (r : OpenRecord) (covered : ℚ) (now : Instant) :
    QuarantineResolution :=
  let move := if r.sign < 0 then r.referencePrice - e.price else e.price - r.referencePrice
  { recordId := r.recordId
    activityId := e.activityId
    quantity := covered
    price := e.price
    realizedPnl := covered * move * r.multiplier
    resolvedAt := now }

/-- Recognise what a resolution takes with it of the opening fees of its record. -/
def recognizeOpening (b : Books) (e : QuarantineExecution) (r : OpenRecord) (covered : ℚ)
    (now : Instant) : Except Raised Books := do
  let unrecognized := b.unrecognized r.recordId .opening
  if unrecognized.value ≠ 0 then do
    let recognition ← recognizeAtResolution r.recordId .opening r.quantity covered unrecognized
      e.activityId now
    let recognitions ← insertRow b.quarantineFeeRecognitions recognition
    return { b with quarantineFeeRecognitions := recognitions }
  else return b

/-- Take a part of one record. -/
def coverRecord (b : Books) (e : QuarantineExecution) (r : OpenRecord) (covered : ℚ) (now : Instant) :
    Except Raised (QuarantineResolution × Books) := do
  let resolution ← checkRecord (resolutionOf e r covered now)
  let resolutions ← insertRow b.quarantineResolutions resolution
  let b ← recognizeOpening { b with quarantineResolutions := resolutions } e r covered now
  return (resolution, b)

/-- Take what remains of an execution from the records, in their order. -/
def coverRecords (e : QuarantineExecution) (now : Instant) :
    List OpenRecord → ℚ → Books → Except Raised ((List QuarantineResolution × ℚ) × Books)
  | [], remaining, b => .ok (([], remaining), b)
  | r :: records, remaining, b =>
      if remaining ≤ 0 then .ok (([], remaining), b)
      else do
        let covered := min remaining r.quantity
        let (resolution, b) ← coverRecord b e r covered now
        let ((resolutions, remaining), b) ← coverRecords e now records (remaining - covered) b
        return ((resolution :: resolutions, remaining), b)

/-- The surplus of an execution, where something remains of it. -/
def insertSurplus (b : Books) (e : QuarantineExecution) (current : List OpenRecord)
    (remaining : ℚ) : Except Raised (Option UnmanagedLongInventory × Books) :=
  if 0 < remaining then
    match current with
    | [] => .error ⟨.other, "list index out of range"⟩
    | first :: _ => do
        let surplus ← checkRecord
          { recordId := "unmanaged:" ++ e.activityId
            coverActivityId := e.activityId
            asset := e.asset
            quantity := remaining
            costPrice := e.price
            multiplier := first.multiplier
            openedAt := e.executedAt }
        let inventory ← insertRow b.unmanagedLongInventory surplus
        return (some surplus, { b with unmanagedLongInventory := inventory })
  else .ok (none, b)

/-- An execution on record as unresolved is now explained. -/
def explainUnresolved (b : Books) (e : QuarantineExecution) (now : Instant) : Except Raised Books :=
  if (b.unresolvedBrokerExecutions.get? e.activityId).isSome ∧
      (b.unresolvedExecutionOutcomes.get? e.activityId).isNone then do
    let outcomes ← insertRow b.unresolvedExecutionOutcomes
      { activityId := e.activityId
        outcome := .quarantineExecution
        matchedRecordId := e.activityId
        resolvedAt := now }
    return { b with unresolvedExecutionOutcomes := outcomes }
  else .ok b

def insertAuditEvent (b : Books) (event : AuditEvent) : Except Raised Books := do
  let auditEvents ← insertRow b.store.auditEvents event
  return { b with store := { b.store with auditEvents := auditEvents } }

/-- The execution and its cash. -/
def insertExecution (b : Books) (e : QuarantineExecution) : Except Raised Books := do
  let cash ← executionCash e
  let executions ← insertRow b.quarantineExecutions e
  let cashLedger ← insertRow b.store.cashLedger cash
  return { b with
    quarantineExecutions := executions
    store := { b.store with cashLedger := cashLedger } }

/-- What `resolve` reports. -/
structure ResolveResult where
  resolved : List QuarantineResolution
  surplus : Option UnmanagedLongInventory

/-- The transaction of `resolve`. -/
def resolve (v : VerifiedFill) (e : QuarantineExecution) (now : Instant) (b : Books) :
    Except Raised (ResolveResult × Books) := do
  let (current, _) ← preflight b v
  let b ← insertExecution b e
  let ((resolutions, remaining), b) ← coverRecords e now current e.quantity b
  let (surplus, b) ← insertSurplus b e current remaining
  let b ← explainUnresolved b e now
  let b ← insertAuditEvent b
    { eventId := "quarantine_resolve:" ++ e.activityId
      eventType := "quarantine_resolve"
      entityId := e.activityId
      occurredAt := now }
  return ({ resolved := resolutions, surplus := surplus }, b)

/-! ### Adopting a legacy short lot -/

/-- `AdoptRefused`, which is a `ValueError`. -/
abbrev adoptRefused (reason : String) : Raised := .valueError reason

/-- The database is bound to a verification generation, or is a preserved soak database. -/
def evidenceDatabase (b : Books) : Prop :=
  b.generationId.isSome ∨ ∃ name ∈ b.databaseFiles, "/data/soaks/".toList <:+: name.toList

instance (b : Books) : Decidable (evidenceDatabase b) := inferInstanceAs (Decidable (_ ∨ _))

/-- The preconditions of an adoption: the lot, and the fill that opened it. -/
def loadLot (b : Books) (lotId : String) : Except Raised (PositionLot × Fill) := do
  raiseIf (evidenceDatabase b) (adoptRefused "EVIDENCE_DATABASE")
  match b.store.positionLots.get? lotId with
  | none => .error (adoptRefused "LOT_NOT_FOUND")
  | some lot => do
      raiseIf (lot.lotId ∈ b.store.convertedLots) (adoptRefused "LOT_ALREADY_CONVERTED")
      raiseIf (lot.positionSide ≠ .short) (adoptRefused "LOT_NOT_SHORT")
      raiseIf (lot.closures.entries ≠ [] ∨ lot.assetFeeQuantities.entries ≠ [] ∨
        lot.remainingQuantity ≠ lot.openedQuantity) (adoptRefused "LOT_HAS_CLOSURES")
      match b.store.fills.get? lot.originatingFillId with
      | none => .error (adoptRefused "FILL_NOT_FOUND")
      | some fill => do
          raiseIf (fill.side ≠ .sell) (adoptRefused "FILL_NOT_SELL")
          let closed := b.store.positionLots.sum fun l =>
            if l.positionSide = .long then (l.closures.lookup fill.fillId).getD 0 else 0
          raiseIf (lot.openedQuantity ≠ fill.quantity - closed) (adoptRefused "LOT_QUANTITY_MISMATCH")
          raiseIf (b.store.shortExposureLiabilities.findByUnique fill.fillId).isSome
            (adoptRefused "LIABILITY_EXISTS")
          return (lot, fill)

/-- The liability that a legacy lot becomes. -/
def adoptedLiability (lot : PositionLot) (fill : Fill) : Except Raised ShortExposureLiability := do
  let multiplier ← contractMultiplierOf lot.asset
  ShortExposureLiability.make
    { liabilityId := "liability:" ++ fill.fillId
      fillId := fill.fillId
      brokerOrderId := fill.orderId
      tradeIntentId := fill.tradeIntentId
      asset := lot.asset
      quantity := lot.openedQuantity
      salePrice := fill.price
      multiplier := multiplier
      proceeds := lot.openedQuantity * fill.price * multiplier
      openedAt := fill.filledAt }

/-- The tables after an adoption; the holding goes with the last lot that it was the view of. -/
def adopted (s : Store) (lot : PositionLot) (liability : ShortExposureLiability) (now : Instant)
    (liabilities : Table ShortExposureLiability) (auditEvents : Table AuditEvent) : Store :=
  let converted := s.convertedLots ++ [lot.lotId]
  let remaining := s.positionLots.rows.filter fun l =>
    decide (assetIdentityKey l.asset = assetIdentityKey lot.asset) && l.isOpen &&
      !converted.contains l.lotId
  { s with
    shortExposureLiabilities := liabilities
    convertedLots := converted
    integrityHolds := s.integrityHolds.createOnce
      { brokerOrderId := liability.brokerOrderId
        tradeIntentId := liability.tradeIntentId
        holdType := .shortExposure
        reason := "UNSUPPORTED_SHORT_POSITION: " ++ liability.liabilityId
        createdAt := now }
    holdings := if remaining.isEmpty then s.holdings.delete (assetIdentityKey lot.asset)
      else s.holdings
    auditEvents := auditEvents }

/-- The transaction of `adopt-legacy-lot`, for a lot and the liability that were read and built
before it. -/
def adopt (lotId : String) (seen : PositionLot) (liability : ShortExposureLiability)
    (activityId digest : String) (now : Instant) (b : Books) : Except Raised (Unit × Books) := do
  let (current, _) ← loadLot b lotId
  raiseIf (current ≠ seen) (adoptRefused "LOT_CHANGED")
  raiseIf ((b.unresolvedBrokerExecutions.get? activityId).any fun u => u.rawSha256 ≠ digest)
    (adoptRefused "BROKER_EVIDENCE_CHANGED")
  let liabilities ← insertRow b.store.shortExposureLiabilities liability
  let auditEvents ← insertRow b.store.auditEvents
    { eventId := "legacy_lot_conversion:" ++ current.lotId
      eventType := "legacy_lot_conversion"
      entityId := current.lotId
      occurredAt := now }
  return ((), { b with store := adopted b.store current liability now liabilities auditEvents })

/-! ### The commands -/

/-- The transactions and questions of the commands. -/
inductive Op
  /-- `lease.verify()`. -/
  | verifyLease
  /-- The broker's activities: executions only, or all since an instant. -/
  | getActivities (since : Option Instant)
  | preflight (v : VerifiedFill)
  | resolve (v : VerifiedFill) (e : QuarantineExecution) (now : Instant)
  | loadLot (lotId : String)
  | adopt (lotId : String) (seen : PositionLot) (liability : ShortExposureLiability)
      (activityId digest : String) (now : Instant)
  | insertAllocations (shares : List QuarantineFeeAllocation)

@[reducible] def Op.Res : Op → Type
  | .verifyLease => Unit
  | .getActivities _ => List Activity
  | .preflight _ => List OpenRecord × Instant
  | .resolve _ _ _ => ResolveResult
  | .loadLot _ => PositionLot × Fill
  | .adopt _ _ _ _ _ _ => Unit
  | .insertAllocations _ => Unit

/-- What the world outside answers. -/
structure Outside where
  leaseHeld : Bool := true
  activities : List Activity := []

/-- What a transaction does. -/
def exec : (o : Op) → Outside → Books → Except Raised (o.Res × Books)
  | .verifyLease, i, b =>
      if i.leaseHeld then .ok ((), b) else .error ⟨.other, "account lease is no longer held"⟩
  | .getActivities _, i, b => .ok (i.activities, b)
  | .preflight v, _, b => (preflight b v).map fun r => (r, b)
  | .resolve v e now, _, b => resolve v e now b
  | .loadLot lotId, _, b => (loadLot b lotId).map fun r => (r, b)
  | .adopt lotId seen liability activityId digest now, _, b =>
      adopt lotId seen liability activityId digest now b
  | .insertAllocations shares, _, b => (insertAllocations b shares).map fun b' => ((), b')

/-- Programs of the commands. -/
abbrev Command (α : Type) := Prog Raised Op.Res α

abbrev perform (o : Op) : Command o.Res := Prog.perform o

/-- `resolve_from_activity`. -/
def resolveFromActivity (activityId reason : String) (now : Instant) : Command ResolveResult := do
  Prog.ofExcept (raiseIf (strip reason.toList = []) (resolveRefused "REASON_REQUIRED"))
  perform .verifyLease
  let activities ← perform (.getActivities none)
  let activity ← Prog.ofExcept (findActivity activities activityId)
  let v ← Prog.ofExcept (verifiedFill activity)
  let (records, oldest) ← perform (.preflight v)
  let since ← perform (.getActivities (some oldest))
  let blocked ← Prog.ofExcept (corporateActionBlocks v.assetKey oldest since)
  match blocked, records with
  | some text, _ => Prog.fail (resolveRefused ("CORPORATE_ACTION: " ++ text))
  | none, [] => Prog.fail ⟨.other, "list index out of range"⟩
  | none, first :: _ => do
      perform .verifyLease
      let execution ← Prog.ofExcept (executionOf v first)
      perform (.resolve v execution now)

/-- `adopt_legacy_lot`. -/
def adoptLegacyLot (lotId reason : String) (now : Instant) : Command Unit := do
  Prog.ofExcept (raiseIf (strip reason.toList = []) (adoptRefused "REASON_REQUIRED"))
  perform .verifyLease
  let (lot, fill) ← perform (.loadLot lotId)
  match fill.brokerFillId with
  | none => Prog.fail (adoptRefused "FILL_ACTIVITY_MISSING")
  | some activityId => do
      Prog.ofExcept (raiseIf (activityId = "") (adoptRefused "FILL_ACTIVITY_MISSING"))
      let activities ← perform (.getActivities none)
      match activities.filter fun a => a.activityId = activityId with
      | [activity] => do
          Prog.ofExcept (raiseIf (activity.side ≠ some fill.side ∨
            activity.qty ≠ some fill.quantity ∨ activity.price ≠ some fill.price)
            (adoptRefused "BROKER_EVIDENCE_CHANGED"))
          perform .verifyLease
          let liability ← Prog.ofExcept (adoptedLiability lot fill)
          perform (.adopt lotId lot liability activityId activity.rawSha256 now)
      | _ => Prog.fail (adoptRefused "FILL_ACTIVITY_MISSING")

/-- `record_allocations`. -/
def recordAllocations (shares : List QuarantineFeeAllocation) : Command Unit :=
  perform (.insertAllocations shares)

/-- The calls. -/
inductive Call
  | resolve (activityId reason : String) (now : Instant)
  | adoptLegacyLot (lotId reason : String) (now : Instant)
  | recordAllocations (shares : List QuarantineFeeAllocation)

/-- A call, for its effect. -/
def Call.program : Call → Command Unit
  | .resolve activityId reason now =>
      (resolveFromActivity activityId reason now).bind fun _ => .done ()
  | .adoptLegacyLot lotId reason now => Quarantine.adoptLegacyLot lotId reason now
  | .recordAllocations shares => Quarantine.recordAllocations shares

/-! ### Commands and passes side by side -/

/-- What the rest of the program does. -/
inductive External
  | recordFill (fill : Fill)
  | storeIntent (intent : TradeIntent)
  /-- Anything else happens in the database: the tables of the quarantine, the fills, the intents and
  the cash ledger stay as they are. -/
  | elsewhere (t : Store) (orders : List OrderRow) (unresolved : Table UnresolvedExecution)
      (outcomes : Table UnresolvedExecutionOutcome)

def external : External → Books → Option Books
  | .recordFill fill, b =>
      some { b with store := { b.store with fills := b.store.fills.createOnce fill } }
  | .storeIntent intent, b =>
      some { b with store := { b.store with tradeIntents := b.store.tradeIntents.upsert intent } }
  | .elsewhere t orders unresolved outcomes, b =>
      some { b with
        store := { t with
          shortExposureLiabilities := b.store.shortExposureLiabilities
          convertedLots := b.store.convertedLots
          fills := b.store.fills
          tradeIntents := b.store.tradeIntents
          cashLedger := b.store.cashLedger }
        orders := orders
        unresolvedBrokerExecutions := unresolved
        unresolvedExecutionOutcomes := outcomes }

/-- The settlement processor, over the whole database. -/
def settlementExec (o : Settlement.Op) (i : Settlement.Outside) (b : Books) :
    Except Raised (o.Res × Books) :=
  (Settlement.exec o i b.store).map fun r => (r.1, { b with store := r.2 })

def settlementSystem : System Books Settlement.Outside Raised Settlement.PassArgs Empty
    Settlement.Op.Res where
  exec := settlementExec
  call args := (Settlement.processPending args).bind fun _ => .done ()
  env t := nomatch t

def commandSystem : System Books Outside Raised Call External Op.Res where
  exec := exec
  call := Call.program
  env := external

/-- Passes of the processor and quarantine commands. -/
def system : System Books (Settlement.Outside × Outside) Raised (Settlement.PassArgs ⊕ Call)
    (Empty ⊕ External) (ResPar Settlement.Op.Res Op.Res) :=
  settlementSystem.par commandSystem

/-- All of them side by side. -/
def concurrent : Machine (Process.Pool Books Raised (ResPar Settlement.Op.Res Op.Res))
    (Act (Settlement.Outside × Outside) Raised (Settlement.PassArgs ⊕ Call) (Empty ⊕ External)) :=
  Process.Pool.machine system

end Quarantine

end TradePulse
