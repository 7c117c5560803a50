/-
**The commands of the control plane** (`session_commands.py`, `risk/session.py`).

Each command first reads the session to refuse early, then asks the broker or checks the books, and
only then runs its transaction, which decides again.  Commands of operators, the market clock and
the two latches run side by side, over a database that everything else changes as well.

Main definitions:

* `Control.Op`, `Control.exec` — the reads, the questions to the world outside, and the transaction;
* `runStart`, `runStop`, `runResetRisk`, `runResetIntegrity`, `syncMarketSession`,
  `latchRiskStop`, `latchFinancialIntegrityBlock` — the commands;
* `Control.system` — the commands and the rest of the program.
-/

import TradePulse.Control.Session
import TradePulse.Process.Pool

set_option autoImplicit false

namespace TradePulse

open Storage Process

namespace Control

/-- What a reconciliation run reports. -/
structure ReconciliationSummary where
  status : String := "ok"
  positionsChecked : ℕ := 0
  accountingDriftDetected : Bool := false
  missedFillsDetected : Bool := false

/-- A marked snapshot of the account: whether it matches, and its record. -/
structure MarkedSnapshot where
  matched : Bool := false
  equityReconciliationStatus : String := ""
  receipt : ValuationRecord := { recordId := "", occurredAt := 0 }

/-- The steps of the commands. -/
inductive Op
  | clock
  | loadSession
  | getAccount
  | getClock
  /-- Compare the broker's clock with the calendar, and record a disagreement. -/
  | observeClockAgainstCalendar (isOpen : Bool) (now : Instant)
  | openUnresolved
  | resetGateIssues
  | runReconciliation
  | unlockProof
  /-- The broker's account and positions; the result is the digest of the account's identity. -/
  | observeBrokerValuation
  | markedSnapshot
  | recordValuation (record : ValuationRecord)
  | transition (t : Transition)

@[reducible] def Op.Res : Op → Type
  | .clock => Instant
  | .loadSession => TradingSession
  | .getAccount => Unit
  | .getClock => Bool
  | .observeClockAgainstCalendar _ _ => Unit
  | .openUnresolved => List String
  | .resetGateIssues => List String
  | .runReconciliation => ReconciliationSummary
  | .unlockProof => UnlockProof
  | .observeBrokerValuation => String
  | .markedSnapshot => MarkedSnapshot
  | .recordValuation _ => Unit
  | .transition _ => Option TradingSession

/-- What the world outside answers. -/
structure Outside where
  now : Instant := 0
  uuid : String := ""
  isOpen : Bool := false
  /-- The clock and the calendar have begun to disagree. -/
  disagreement : Bool := false
  openUnresolved : List String := []
  resetGateIssues : List String := []
  summary : ReconciliationSummary := {}
  accountIdentityDigest : String := ""
  snapshot : MarkedSnapshot := {}

abbrev Steps (α : Type) := Prog Raised Op.Res α

/-- The entry about a disagreement of clock and calendar. -/
def disagreementEntry (isOpen : Bool) (now : Instant) : AuditEntry where
  eventId := "calendar_clock_disagreement:" ++ toString now
  eventType := "calendar_clock_disagreement"
  severity := .critical
  message := "CALENDAR_CLOCK_DISAGREEMENT: the broker clock says "
    ++ (if isOpen then "open" else "closed") ++ " against the market calendar. "
    ++ "New stock and option entries are blocked until they agree."
  occurredAt := now
  entityType := "market_calendar"
  entityId := "clock"
  details := [("clock_is_open", toString isOpen)]

section

variable {E : Type} (judge : Judge E)

def exec : (o : Op) → Outside → Database E → Except Raised (o.Res × Database E)
  | .clock, i, db => .ok (i.now, db)
  | .loadSession, _, db => .ok (db.loadSession, db)
  | .getAccount, _, db => .ok ((), db)
  | .getClock, i, db => .ok (i.isOpen, db)
  | .observeClockAgainstCalendar isOpen now, i, db => .ok ((),
      if i.disagreement then
        { db with auditEvents := db.auditEvents.createOnce (disagreementEntry isOpen now) }
      else db)
  | .openUnresolved, i, db => .ok (i.openUnresolved, db)
  | .resetGateIssues, i, db => .ok (i.resetGateIssues, db)
  | .runReconciliation, i, db => .ok (i.summary, db)
  | .unlockProof, _, db => .ok (judge.unlockProof db, db)
  | .observeBrokerValuation, i, db => .ok (i.accountIdentityDigest, db)
  | .markedSnapshot, i, db => .ok (i.snapshot, db)
  | .recordValuation record, _, db => .ok ((),
      { db with reconciliationRecords := db.reconciliationRecords.createOnce record })
  | .transition t, i, db => transitionSession judge t i.uuid db

end

/-! ### The commands -/

abbrev perform (o : Op) : Steps o.Res := Prog.perform o

/-- `run_start`. -/
def runStart : Steps Unit := do
  let current ← perform .loadSession
  if current.state.startHardBlocked then return ()
  else if current.state = .active then return ()
  else
    -- a broker that cannot be reached refuses the start, whatever the error is
    let reachable ← Prog.tryCatch (do
        perform .getAccount
        return true) fun e => if e.cls = .alpaca then return false else Prog.fail e
    if reachable then do
      let now ← perform .clock
      let _ ← perform (.transition (.start now))
      return ()
    else return ()

/-- `run_stop`. -/
def runStop : Steps Unit := do
  let now ← perform .clock
  match ← perform (.transition (.stop now)) with
  | none => do
      let _ ← perform .loadSession
      return ()
  | some _ => return ()

/-- `run_reset_risk`. -/
def runResetRisk : Steps Unit := do
  let now ← perform .clock
  let _ ← perform (.transition (.resetRisk now))
  return ()

/-- The part of `run_reset_integrity` that verifies the books, if they can be verified: the digest
of the evidence, the record of the valuation, and what goes on record about the check. -/
def verifyBooks : Steps (Option (String × ValuationRecord × ResetEvidence)) := do
  let summary ← perform .runReconciliation
  if summary.status ≠ "ok" ∨ summary.accountingDriftDetected ∨ summary.missedFillsDetected then
    return none
  else
    -- read before the observations: whatever changes during them changes the digest
    let proof ← perform .unlockProof
    if proof.issues ≠ [] then return none
    else
      let identity ← perform .observeBrokerValuation
      if proof.accountIdentityDigest.any fun digest => decide (digest ≠ identity) then
        Prog.fail (.valueError "RESET_BROKER_ACCOUNT_IDENTITY_CHANGED")
      else
        let snapshot ← perform .markedSnapshot
        if snapshot.matched then
          return some (proof.digest, snapshot.receipt,
            { reconciliationStatus := summary.status
              positionsChecked := summary.positionsChecked
              equityReconciliationStatus := snapshot.equityReconciliationStatus })
        else do
          perform (.recordValuation snapshot.receipt)
          return none

/-- `run_reset_integrity`. -/
def runResetIntegrity (force : Bool) : Steps Unit := do
  let current ← perform .loadSession
  if current.state ≠ .financialIntegrityBlocked then return ()
  else if force then return ()
  else
    let unresolved ← perform .openUnresolved
    if unresolved ≠ [] then return ()
    else
      let issues ← perform .resetGateIssues
      if issues ≠ [] then return ()
      else
        match ← Prog.tryCatch verifyBooks fun _ => return none with
        | none => return ()
        | some (digest, receipt, evidence) => do
            let now ← perform .clock
            let _ ← Prog.tryCatch (perform (.transition (.resetIntegrity now digest receipt evidence)))
              fun _ => return none
            return ()

/-- `sync_market_session`. -/
def syncMarketSession : Steps Unit := do
  let answer ← Prog.tryCatch (do
      let isOpen ← perform .getClock
      return some isOpen) fun e => if e.cls = .alpaca then return none else Prog.fail e
  match answer with
  | none => return ()
  | some isOpen => do
      let now ← perform .clock
      perform (.observeClockAgainstCalendar isOpen now)
      let _ ← perform (.transition (.syncMarketSession isOpen now))
      return ()

/-- `latch_risk_stop`. -/
def latchRiskStop (reason : String) : Steps Unit := do
  let now ← perform .clock
  let _ ← perform (.transition (.latchRiskStop reason now))
  return ()

/-- `latch_financial_integrity_block`. -/
def latchFinancialIntegrityBlock (reason : String) : Steps Unit := do
  let now ← perform .clock
  let _ ← perform (.transition (.latchFinancialIntegrityBlock reason now))
  return ()

/-- The commands. -/
inductive Command
  | start | stop | resetRisk
  | resetIntegrity (force : Bool)
  | syncMarketSession
  | latchRiskStop (reason : String)
  | latchFinancialIntegrityBlock (reason : String)

def Command.steps : Command → Steps Unit
  | .start => runStart
  | .stop => runStop
  | .resetRisk => runResetRisk
  | .resetIntegrity force => runResetIntegrity force
  | .syncMarketSession => Control.syncMarketSession
  | .latchRiskStop reason => Control.latchRiskStop reason
  | .latchFinancialIntegrityBlock reason => Control.latchFinancialIntegrityBlock reason

/-- The commands, and the rest of the program: it changes everything but the session. -/
def system {E : Type} (judge : Judge E) :
    System (Database E) Outside Raised Command (Database E) Op.Res where
  exec := exec judge
  call := Command.steps
  env db' db := some { db' with session := db.session }

/-- Commands side by side. -/
def commands {E : Type} (judge : Judge E) :
    Machine (Pool (Database E) Raised Op.Res) (Act Outside Raised Command (Database E)) :=
  Pool.machine (system judge)

end Control

end TradePulse
