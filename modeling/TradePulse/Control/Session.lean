/-
**The trading session and its transitions** (`risk/session.py`, `session_commands.py`).

There is one session.  Operators and guards change it by transactions that read it again, decide,
and write the new session together with an entry of the audit trail, or write nothing at all.

Main definitions:

* `executionSessionDecision` — whether the session lets an order through;
* `Transition`, `Transition.decide` — the transitions, and what each decides from the session it
  finds;
* `transitionSession` — the transaction.
-/

import TradePulse.Models.Settlement

set_option autoImplicit false

namespace TradePulse

open Storage

def SessionState.value : SessionState → String
  | disabled => "disabled"
  | active => "active"
  | riskStopped => "risk_stopped"
  | systemDegraded => "system_degraded"
  | brokerUnavailable => "broker_unavailable"
  | marketClosed => "market_closed"
  | manuallyStopped => "manually_stopped"
  | financialIntegrityBlocked => "financial_integrity_blocked"

/-- Asset classes that trade without a session close. -/
def isContinuousMarket (assetClass : AssetClass) : Bool := assetClass == .crypto

structure SessionDecision where
  allowed : Bool
  reason : String
  deriving DecidableEq

/-- `execution_session_decision`.  A protective exit is never stopped by the session. -/
def executionSessionDecision (session : TradingSession) (_side : Side) (assetClass : AssetClass)
    (protectiveExit : Bool) : SessionDecision :=
  if protectiveExit then ⟨true, "PROTECTIVE_EXIT_ALLOWED"⟩
  else if session.state = .financialIntegrityBlocked ∨
      session.financialIntegrityManualReenableRequired then
    ⟨false, "FINANCIAL_INTEGRITY_BLOCKED"⟩
  else if session.state = .riskStopped ∨ session.killSwitchResetRequired then
    ⟨false, "KILL_SWITCH_ACTIVE"⟩
  else if session.tradingActive ∧ session.state = .marketClosed ∧ isContinuousMarket assetClass then
    ⟨true, "CONTINUOUS_ASSET_SESSION"⟩
  else if session.state ≠ .active ∨ session.tradingActive = false then
    ⟨false, "TRADING_SESSION_NOT_ACTIVE (" ++ session.state.value ++ ")"⟩
  else ⟨true, "ACTIVE"⟩

/-! ### The database -/

inductive Severity
  | info | warning | critical
  deriving DecidableEq

/-- An entry of the audit trail, with its texts. -/
structure AuditEntry where
  eventId : String
  eventType : String
  severity : Severity
  message : String
  occurredAt : Instant
  entityType : String
  entityId : String
  details : List (String × String) := []
  deriving DecidableEq

instance : Record AuditEntry where
  recordId e := e.eventId
  uniqueValue _ := none

/-- The record of a valuation; what it says is left aside. -/
structure ValuationRecord where
  recordId : String
  occurredAt : Instant
  deriving DecidableEq

instance : Record ValuationRecord where
  recordId r := r.recordId
  uniqueValue _ := none

/-- What the session's transitions read and write; `E` is the rest of the database, which the
unlock proof judges. -/
structure Database (E : Type) where
  session : Option TradingSession := none
  integrityHolds : Table IntegrityHold := default
  auditEvents : Table AuditEntry := default
  reconciliationRecords : Table ValuationRecord := default
  evidence : E

/-- `load_session`: before its first transition the session is disabled. -/
def Database.loadSession {E : Type} (db : Database E) : TradingSession :=
  db.session.getD { state := .disabled, tradingActive := false }

/-- What `unlock_proof` finds: open issues, and a digest of the financial evidence. -/
structure UnlockProof where
  issues : List String
  digest : String
  accountIdentityDigest : Option String := none
  deriving DecidableEq

/-- How the database is judged: `unlock_proof` and `released_short_exposure_holds`. -/
structure Judge (E : Type) where
  unlockProof : Database E → UnlockProof
  releasedShortExposureHolds : Database E → List String

/-! ### Transitions -/

/-- An entry of the audit trail about the session. -/
def sessionEntry (eventId : String) (severity : Severity) (message : String) (now : Instant)
    (details : List (String × String)) : AuditEntry where
  eventId := eventId
  eventType := "session_transition"
  severity := severity
  message := message
  occurredAt := now
  entityType := "trading_session"
  entityId := "session"
  details := details

/-- `_START_HARD_BLOCKED_STATES`. -/
def SessionState.startHardBlocked : SessionState → Bool
  | riskStopped | financialIntegrityBlocked | systemDegraded | marketClosed => true
  | _ => false

/-- `_STOP_PRESERVED_STATES`. -/
def SessionState.stopPreserved : SessionState → Bool
  | riskStopped | financialIntegrityBlocked => true
  | _ => false

/-- What `reset-integrity` puts on record about the check it made. -/
structure ResetEvidence where
  reconciliationStatus : String
  positionsChecked : ℕ
  equityReconciliationStatus : String
  deriving DecidableEq

/-- The transitions, each with what its closure has captured. -/
inductive Transition
  | start (now : Instant)
  | stop (now : Instant)
  | resetRisk (now : Instant)
  | resetIntegrity (now : Instant) (digest : String) (receipt : ValuationRecord)
      (evidence : ResetEvidence)
  | syncMarketSession (isOpen : Bool) (now : Instant)
  | latchRiskStop (reason : String) (now : Instant)
  | latchFinancialIntegrityBlock (reason : String) (now : Instant)

namespace Transition

/-- The decision of a transition about the session it finds: nothing, or a new session and the
entry of the audit trail. -/
def decide (eventId : String) : Transition → TradingSession → Option (TradingSession × AuditEntry)
  | start now, session =>
      if session.state.startHardBlocked ∨ session.state = .active then none
      else some
        ({ state := .active, tradingActive := true, updatedAt := now },
          sessionEntry eventId .info (session.state.value ++ " -> active via start") now
            [("action", "start"), ("previous_state", session.state.value),
              ("new_state", "active")])
  | stop now, session =>
      if session.state.stopPreserved then none
      else if (session.state = .disabled ∨ session.state = .manuallyStopped) ∧
          session.tradingActive = false then none
      else some
        ({ state := .manuallyStopped, tradingActive := false, updatedAt := now },
          sessionEntry eventId .info (session.state.value ++ " -> manually_stopped via stop") now
            [("action", "stop"), ("previous_state", session.state.value),
              ("new_state", "manually_stopped")])
  | resetRisk now, session =>
      if session.state ≠ .riskStopped then none
      else some
        ({ state := .manuallyStopped, tradingActive := false, updatedAt := now },
          sessionEntry eventId .info "risk_stopped -> manually_stopped via reset-risk" now
            [("action", "reset_risk"), ("previous_state", "risk_stopped"),
              ("new_state", "manually_stopped"), ("reason", session.killSwitchReason.getD "")])
  | resetIntegrity now digest receipt evidence, session =>
      if session.state ≠ .financialIntegrityBlocked then none
      else some
        ({ state := .manuallyStopped, tradingActive := false, updatedAt := now },
          sessionEntry eventId .info
            "financial_integrity_blocked cleared after independently verified accounting" now
            [("action", "reset_integrity"), ("previous_state", "financial_integrity_blocked"),
              ("new_state", "manually_stopped"),
              ("reason", session.financialIntegrityReason.getD ""),
              ("reconciliation_status", evidence.reconciliationStatus),
              ("positions_checked", toString evidence.positionsChecked),
              ("accounting_drift_detected", "False"), ("missed_fills_detected", "False"),
              ("equity_reconciliation_status", evidence.equityReconciliationStatus),
              ("valuation_record_id", receipt.recordId), ("financial_evidence_sha256", digest)])
  | syncMarketSession isOpen now, session =>
      let target : Option SessionState :=
        if session.state = .active ∧ isOpen = false then some .marketClosed
        else if session.state = .marketClosed ∧ isOpen then some .active
        else none
      target.map fun target =>
        ({ state := target, tradingActive := session.tradingActive, updatedAt := now },
          sessionEntry eventId .info
            (session.state.value ++ " -> " ++ target.value ++ ": Alpaca market clock") now
            [("action", "sync_market_session"), ("previous_state", session.state.value),
              ("new_state", target.value)])
  | latchRiskStop reason now, session =>
      if session.state = .riskStopped ∨ session.state = .financialIntegrityBlocked then none
      else some
        ({ state := .riskStopped, tradingActive := false, updatedAt := now
           killSwitchReason := some reason, killSwitchAt := some now
           killSwitchResetRequired := true },
          sessionEntry eventId .critical (session.state.value ++ " -> risk_stopped: " ++ reason) now
            [("action", "latch_risk_stop"), ("previous_state", session.state.value),
              ("new_state", "risk_stopped"), ("reason", reason)])
  | latchFinancialIntegrityBlock reason now, session =>
      if session.state = .financialIntegrityBlocked then none
      else some
        ({ state := .financialIntegrityBlocked, tradingActive := false, updatedAt := now
           financialIntegrityReason := some reason
           financialIntegrityManualReenableRequired := true },
          sessionEntry eventId .critical
            (session.state.value ++ " -> financial_integrity_blocked: " ++ reason) now
            [("action", "latch_integrity_block"), ("previous_state", session.state.value),
              ("new_state", "financial_integrity_blocked"), ("reason", reason)])

end Transition

section Transaction

variable {E : Type} (judge : Judge E)

/-- `require_unlock_proof`: judged in the transaction itself. -/
def requireUnlockProof (db : Database E) (digest : String) : Except Raised Unit :=
  let proof := judge.unlockProof db
  raiseIf (proof.issues ≠ [] ∨ proof.digest ≠ digest) (.valueError "RESET_UNLOCK_PROOF_CHANGED")

/-- The holds without those that are released, each of which must be for short exposure. -/
def releaseHolds (holds : Table IntegrityHold) (ids : List String) : Table IntegrityHold :=
  ids.foldl (fun t id =>
    if (t.get? id).any fun hold => hold.holdType = .shortExposure then t.delete id else t) holds

/-- An insert that fails where the key is taken. -/
def insertRow {α : Type} [Record α] (t : Table α) (row : α) : Except Raised (Table α) :=
  if t.Admits row then .ok (t.createOnce row)
  else .error ⟨.other, "UNIQUE constraint failed"⟩

/-- `validate_write` of `reset-integrity`; the other transitions have none. -/
def validateWrite (db : Database E) : Transition → Except Raised (Database E)
  | .resetIntegrity _ digest receipt _ => do
      requireUnlockProof judge db digest
      let records ← insertRow db.reconciliationRecords receipt
      .ok { db with
        integrityHolds := releaseHolds db.integrityHolds (judge.releasedShortExposureHolds db)
        reconciliationRecords := records }
  | _ => .ok db

/-- `transition_session`: decide about the session as it is now, and write it together with its
entry of the audit trail.  Whatever raises rolls the transaction back. -/
def transitionSession (t : Transition) (eventId : String) (db : Database E) :
    Except Raised (Option TradingSession × Database E) :=
  match t.decide eventId db.loadSession with
  | none => .ok (none, db)
  | some (session, entry) => do
      let db ← validateWrite judge db t
      let entries ← insertRow db.auditEvents entry
      .ok (some session, { db with session := some session, auditEvents := entries })

end Transaction

end TradePulse
