/-
**The store and its repositories.**

The database of `tradepulse/persistence`: one table for each kind of record.  A write transaction
runs alone (`BEGIN IMMEDIATE`), so a repository method is a function on stores that either returns
a result with the store after it or raises and leaves the store as it was.

A paginated listing is one read here, and rows are listed in the order of their insertion.

Main definitions:

* `Store`, `Part`, `Store.SameAt` — the tables, and two stores that agree on one of them;
* `checkIntegrityHold` — the guard that refuses a write while an order is held;
* `Store.latchFinancialIntegrityBlock` — the session transition that stops trading.
-/

import TradePulse.Models.Settlement

set_option autoImplicit false

namespace TradePulse

open Storage

/-- The tables of the database. -/
structure Store where
  settlements : Table SettlementEvent := default
  positionLots : Table PositionLot := default
  shortExposureLiabilities : Table ShortExposureLiability := default
  /-- Lots that were converted to a liability (`legacy_lot_conversions`). -/
  convertedLots : List String := []
  holdings : Table Holding := default
  integrityHolds : Table IntegrityHold := default
  fills : Table Fill := default
  tradeIntents : Table TradeIntent := default
  tradeAttributions : Table TradeAttribution := default
  cashLedger : Table CashLedgerEntry := default
  pnlRecords : Table PnlRecord := default
  positionAdoptions : Table Adoption := default
  auditEvents : Table AuditEvent := default
  session : TradingSession := {}

/-- A write guarded by a broker order is refused while that order is held. -/
def checkIntegrityHold (s : Store) (guardKey : Option String) : Except Raised Unit :=
  match guardKey.bind s.integrityHolds.get? with
  | none => .ok ()
  | some hold =>
      let head := if hold.holdType = .fillQuantityDisputed then "INTEGRITY_VIOLATION"
        else "VERIFICATION_PENDING"
      .error ⟨.repositoryIntegrityHold, head ++ ": order-level integrity hold ("
        ++ hold.holdType.value ++ ") active for " ++ hold.brokerOrderId⟩

namespace Store

/-- The lots of one instrument, of any status (`list_all_by_asset`). -/
def lotsByAsset (s : Store) (asset : AssetIdentity) : List PositionLot :=
  s.positionLots.rows.filter fun l => assetIdentityKey l.asset = assetIdentityKey asset

theorem mem_lotsByAsset {s : Store} {asset : AssetIdentity} {l : PositionLot} :
    l ∈ s.lotsByAsset asset ↔
      l ∈ s.positionLots ∧ assetIdentityKey l.asset = assetIdentityKey asset := by
  simp [lotsByAsset, Table.mem_def]

/-- Transition the session into the financial-integrity block, once. -/
def latchFinancialIntegrityBlock (s : Store) (reason : String) (now : Instant) : Store :=
  if s.session.state = .financialIntegrityBlocked then s
  else
    { s with session :=
      { state := .financialIntegrityBlocked
        tradingActive := false
        updatedAt := now
        financialIntegrityReason := some reason
        financialIntegrityManualReenableRequired := true } }

end Store

/-- The parts of the store that transactions write separately. -/
inductive Part
  | settlements | positionLots | liabilities | convertedLots | holdings | integrityHolds | fills
  | tradeIntents | tradeAttributions | accounting | positionAdoptions | auditEvents | session
  deriving DecidableEq

/-- Two stores agree on a part. -/
def Store.SameAt (p : Part) (s s' : Store) : Prop :=
  match p with
  | .settlements => s'.settlements = s.settlements
  | .positionLots => s'.positionLots = s.positionLots
  | .liabilities => s'.shortExposureLiabilities = s.shortExposureLiabilities
  | .convertedLots => s'.convertedLots = s.convertedLots
  | .holdings => s'.holdings = s.holdings
  | .integrityHolds => s'.integrityHolds = s.integrityHolds
  | .fills => s'.fills = s.fills
  | .tradeIntents => s'.tradeIntents = s.tradeIntents
  | .tradeAttributions => s'.tradeAttributions = s.tradeAttributions
  | .accounting => s'.cashLedger = s.cashLedger ∧ s'.pnlRecords = s.pnlRecords
  | .positionAdoptions => s'.positionAdoptions = s.positionAdoptions
  | .auditEvents => s'.auditEvents = s.auditEvents
  | .session => s'.session = s.session

@[simp] theorem Store.SameAt.refl (p : Part) (s : Store) : Store.SameAt p s s := by
  cases p <;> simp [Store.SameAt]

end TradePulse
