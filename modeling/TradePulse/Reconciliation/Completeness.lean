/-
**Bootstrap, record pass and completeness pass** (`bootstrap.py`, `unresolved.py`,
`completeness.py`).

The three procedures that write the fill cursor and what goes with it, each between its reads of
the broker and its transactions.  A read of the broker's activities that is not proven complete
raises.  The completeness pass classifies what turned up late, proves P1 against the positions
(a full pass from inception, and cash with it; an incremental one from the latest baseline), puts
its result on record, blocks the session for a failure that the latest result had already, and
after a full pass without failures records a new baseline.

Alerts are left aside.

Main definitions:

* `History.Op`, `History.exec` — reads, questions to the broker, and transactions;
* `bootstrapFillCursor`, `recordPass`, `completenessPass` — the procedures;
* `latestP1`, `baselineOf` — the latest result, and the baseline that a pass starts from;
* `History.Call`, `History.Ran` — calls one after the other.
-/

import TradePulse.Reconciliation.FillCursor
import TradePulse.Process.Sequential

set_option autoImplicit false

namespace TradePulse

open Storage Process

/-! ### What is on record -/

/-- `_records`: the records of the history about a subject, in the order they were written. -/
def historyRecords (s : HistoryStore) (subject : String) : List ReconciliationRecord :=
  s.reconciliationRecords.rows.filter fun r =>
    decide (r.reconciliationType = "activity_history") && decide (r.subjectId = subject)

/-- The mark of a pass whose reads were not proven complete (`UNPROVEN_ALL`). -/
def unprovenAll : String := "*"

/-- The failures of a result. -/
def ReconciliationRecord.failures (r : ReconciliationRecord) : List String :=
  match r.actual with
  | .p1 failures _ _ _ => failures
  | _ => []

/-- The latest result of a pass. -/
def latestP1 (s : HistoryStore) : Option ReconciliationRecord := (historyRecords s "p1").getLast?

/-- The assets that failed in the latest result. -/
def previousFailures (s : HistoryStore) : List String :=
  match latestP1 s with
  | none => []
  | some r => r.failures.filter fun key => key != unprovenAll

/-- `_baseline`: the latest baseline on record, or else the bootstrap's. -/
def baselineOf (s : HistoryStore) : Option (String × Quantities) :=
  match (historyRecords s "baseline").getLast? with
  | some r =>
      match r.actual with
      | .baseline boundary quantities => some (boundary, quantities)
      | _ => none
  | none => s.fillCursorBootstrap.rows.head?.map fun b => (b.boundaryActivityId, b.positionResults)

/-- `history_unproven`. -/
def historyUnproven (s : HistoryStore) (assetKey : String) : Bool :=
  (latestP1 s).any fun r => r.failures.contains assetKey || r.failures.contains unprovenAll

/-- Put a record into the table of reconciliation records, unless its id is taken. -/
def HistoryStore.createRecord (s : HistoryStore) (record : ReconciliationRecord) : HistoryStore :=
  { s with reconciliationRecords := s.reconciliationRecords.createOnce record }

/-- `latch_financial_integrity_block`; its entry of the audit trail is left aside. -/
def HistoryStore.latch (s : HistoryStore) (reason : String) (now : Instant) : HistoryStore :=
  match (Transition.latchFinancialIntegrityBlock reason now).decide "" s.session with
  | none => s
  | some (session, _) => { s with session := session }

/-! ### Operations -/

/-- The account, as the broker shows it. -/
structure AccountView where
  accountNumber : String
  cash : ℚ
  /-- The day it was created. -/
  createdAt : Option ℤ
  deriving DecidableEq

namespace History

/-- What is asked of the activities. -/
inductive Query
  | all
  | after (id : String)
  | overlap (id : String) (days : ℕ)
  deriving DecidableEq

inductive Op
  | fillCursor
  | baseline
  | uuid
  | readActivities (q : Query)
  | getPositions
  | getAccount
  | previousFailures
  | createRecord (record : ReconciliationRecord)
  | classifyLate (raws : List RawActivity) (cursor passId : String) (now : Instant)
  | latch (reason : String) (now : Instant)
  | recordPass (activities : List AlpacaActivity) (passId : String) (now : Instant)
  | evidenceDatabase
  | findBootstrap (accountKey : String)
  | bootstrap (raws : List RawActivity) (accountKey reason : String) (brokerCash cash : ℚ)
      (now : Instant)

@[reducible] def Op.Res : Op → Type
  | .fillCursor => Option String
  | .baseline => Option (String × Quantities)
  | .uuid => String
  | .readActivities _ => List RawActivity
  | .getPositions => List (String × ℚ)
  | .getAccount => AccountView
  | .previousFailures => List String
  | .createRecord _ => Unit
  | .classifyLate _ _ _ _ => List (String × Bool)
  | .latch _ _ => Unit
  | .recordPass _ _ _ => PassResult
  | .evidenceDatabase => Bool
  | .findBootstrap _ => Bool
  | .bootstrap _ _ _ _ _ _ => Unit

/-- What the broker answers, and whether its pages prove the answer complete. -/
structure Outside where
  uuid : String := ""
  activities : List RawActivity := []
  proven : Bool := true
  positions : List (String × ℚ) := []
  account : AccountView := ⟨"", 0, none⟩

def exec : (o : Op) → Outside → HistoryStore → Except Raised (o.Res × HistoryStore)
  | .fillCursor, _, s => .ok (s.cursor, s)
  | .baseline, _, s => .ok (baselineOf s, s)
  | .uuid, i, s => .ok (i.uuid, s)
  | .readActivities _, i, s =>
      if i.proven then .ok (i.activities, s)
      else .error (fillHistoryIncomplete "ACTIVITY_PAGE_UNPROVEN")
  | .getPositions, i, s => .ok (i.positions, s)
  | .getAccount, i, s => .ok (i.account, s)
  | .previousFailures, _, s => .ok (TradePulse.previousFailures s, s)
  | .createRecord record, _, s => .ok ((), s.createRecord record)
  | .classifyLate raws cursor passId now, _, s => TradePulse.classifyLate cursor passId now s raws
  | .latch reason now, _, s => .ok ((), s.latch reason now)
  | .recordPass activities passId now, _, s => recordPassWrite activities passId now s
  | .evidenceDatabase, _, s => .ok (s.generationId.isSome, s)
  | .findBootstrap accountKey, _, s => .ok ((s.fillCursorBootstrap.findByUnique accountKey).isSome, s)
  | .bootstrap raws accountKey reason brokerCash cash now, _, s => do
      let s' ← bootstrapWrite raws accountKey reason brokerCash cash now s
      .ok ((), s')

abbrev Steps (α : Type) := Prog Raised Op.Res α

abbrev perform (o : Op) : Steps o.Res := Prog.perform o

/-! ### The procedures -/

/-- The positions, by asset. -/
def positionsOf : List (String × ℚ) → Except Raised Quantities
  | positions => do
      let entries ← positions.mapM fun p => (brokerSymbolAssetKey p.1).map fun key => (key, p.2)
      return .ofList entries

/-- `bootstrap_fill_cursor`, for a lease that is held and is for the account `accountNumber`. -/
def bootstrapFillCursor (accountKey accountNumber reason : String) (now : Instant) : Steps Unit := do
  if strip reason.toList = [] then Prog.fail (fillHistoryIncomplete "BOOTSTRAP_REASON_REQUIRED")
  else if ← perform .evidenceDatabase then
    Prog.fail (fillHistoryIncomplete "BOOTSTRAP_REFUSED_EVIDENCE_DATABASE")
  else if ← perform (.findBootstrap accountKey) then
    Prog.fail (fillHistoryIncomplete "FILL_CURSOR_ALREADY_BOOTSTRAPPED")
  else
    let account ← perform .getAccount
    if account.accountNumber ≠ accountNumber then
      Prog.fail (fillHistoryIncomplete "BOOTSTRAP_ACCOUNT_MISMATCH")
    else
      let positions ← perform .getPositions
      let raws ← perform (.readActivities .all)
      Prog.ofExcept (checkInception raws account.createdAt)
      let quantities ← Prog.ofExcept (positionsOf positions)
      match ← Prog.ofExcept (checkConservation raws quantities) with
      | key :: _ => Prog.fail (fillHistoryIncomplete ("FILL_HISTORY_INCOMPLETE:" ++ key))
      | [] =>
          let cash ← Prog.ofExcept (historyCash raws)
          if cash ≠ account.cash then
            Prog.fail (fillHistoryIncomplete "FILL_HISTORY_INCOMPLETE:cash")
          else perform (.bootstrap raws accountKey reason account.cash cash now)

/-- `record_pass`. -/
def recordPass (activities : List AlpacaActivity) (pageProven : Bool) (passId : String)
    (now : Instant) : Steps PassResult :=
  if pageProven then perform (.recordPass activities passId now) else return ⟨none, []⟩

structure CompletenessResult where
  lateActivityIds : List String
  p1Failures : List String
  deriving DecidableEq

/-- What a pass has read: everything to look at for late activities, and the part that the proof of
P1 is about. -/
structure Reads where
  reads : List RawActivity
  proof : List RawActivity

def readHistory (full : Bool) (boundary cursor : String) (overlapDays : ℕ) : Steps Reads :=
  if full then do
    let history ← perform (.readActivities .all)
    return ⟨history, history⟩
  else do
    let after ← perform (.readActivities (.after boundary))
    let sinceBaseline := after.filter fun raw => decide (boundary < raw.id)
    let overlap ← perform (.readActivities (.overlap cursor overlapDays))
    let reads := OrderedDict.ofList ((overlap ++ sinceBaseline).map fun raw => (raw.id, raw))
    return ⟨reads.entries.map Prod.snd, sinceBaseline⟩

/-- The reads of a pass, if its pages are proven. -/
def provenReads (full : Bool) (boundary cursor : String) (overlapDays : ℕ) : Steps (Option Reads) :=
  Prog.tryCatch
    (do
      let reads ← readHistory full boundary cursor overlapDays
      return some reads)
    fun e => if e.cls = .fillHistoryIncomplete then return none else Prog.fail e

/-- The record of a pass's result. -/
def p1Record (outcome : ReconciliationOutcome) (failures : List String) (full : Bool)
    (cursor passId : String) (now : Instant) : ReconciliationRecord where
  recordId := "activity_history:p1:" ++ passId
  reconciliationType := "activity_history"
  subjectId := "p1"
  outcome := outcome
  actual := .p1 failures full cursor passId
  occurredAt := now

/-- The record of a baseline, under the id of its boundary. -/
def baselineRecord (boundary : String) (quantities : Quantities) (now : Instant) :
    ReconciliationRecord where
  recordId := "activity_history:baseline:" ++ boundary
  reconciliationType := "activity_history"
  subjectId := "baseline"
  outcome := .matched
  actual := .baseline boundary quantities
  occurredAt := now

/-- The cash that a history adds up to, if it proves any. -/
def provenCash (raws : List RawActivity) : Except Raised (Option ℚ) :=
  match historyCash raws with
  | .ok cash => .ok (some cash)
  | .error e => if e.cls = .fillHistoryIncomplete then .ok none else .error e

/-- The failures of a pass: the assets of which P1 does not hold and, in a full pass, cash. -/
def failuresOf (full : Bool) (proof : List RawActivity) (positions baseline : Quantities) :
    Steps (List String) := do
  if full then
    let failures ← Prog.ofExcept (conservationFailures proof positions .empty)
    let account ← perform .getAccount
    let cash ← Prog.ofExcept (provenCash proof)
    return if cash = some account.cash then failures else failures ++ ["cash"]
  else Prog.ofExcept (conservationFailures proof positions baseline)

/-- Block the session for the failures that the latest result had already. -/
def latchPersisting (failures previous : List String) (now : Instant) : Steps Unit :=
  Prog.forEach failures fun key =>
    if key ∈ previous then perform (.latch ("FILL_HISTORY_INCOMPLETE:" ++ key) now) else return ()

/-- Record a new baseline after a full pass without failures. -/
def recordBaseline (full : Bool) (failures : List String) (history : List RawActivity)
    (now : Instant) : Steps Unit :=
  match full, failures, history.getLast? with
  | true, [], some last => do
      let quantities ← Prog.ofExcept (historyQuantities history)
      perform (.createRecord (baselineRecord last.id quantities now))
  | _, _, _ => return ()

/-- `completeness_pass`, from its reads on. -/
def judgeHistory (now : Instant) (full : Bool) (cursor passId : String) (baseline : Quantities)
    (r : Reads) : Steps CompletenessResult := do
  let late ← perform (.classifyLate r.reads cursor passId now)
  Prog.forEach late fun l =>
    if l.2 then perform (.latch ("UNRESOLVED_BROKER_EXECUTION: " ++ l.1) now) else return ()
  let positions ← perform .getPositions
  let quantities ← Prog.ofExcept (positionsOf positions)
  let failures ← failuresOf full r.proof quantities baseline
  let previous ← perform .previousFailures
  perform (.createRecord (p1Record (if failures = [] then .matched else .driftDetected) failures full
    cursor passId now))
  latchPersisting failures previous now
  recordBaseline full failures r.proof now
  return ⟨late.map Prod.fst, failures⟩

/-- `completeness_pass`. -/
def completenessPass (now : Instant) (full : Bool) (overlapDays : ℕ) : Steps CompletenessResult := do
  let cursor ← perform .fillCursor
  let baseline ← perform .baseline
  match cursor, baseline with
  | some cursor, some (boundary, quantities) => do
      let passId ← perform .uuid
      match ← provenReads full boundary cursor overlapDays with
      | some reads => judgeHistory now full cursor passId quantities reads
      | none => do
          -- an unproven read proves nothing: every asset is unproven until a pass completes
          perform (.createRecord
            (p1Record .incompleteEvidence [unprovenAll] false cursor passId now))
          return ⟨[], [unprovenAll]⟩
  | _, _ => return ⟨[], []⟩

/-! ### Calls one after the other -/

/-- The calls. -/
inductive Call
  | bootstrap (accountKey accountNumber reason : String) (now : Instant)
  | recordPass (activities : List AlpacaActivity) (pageProven : Bool) (passId : String)
      (now : Instant)
  | completeness (now : Instant) (full : Bool) (overlapDays : ℕ)

@[reducible] def Call.Result : Call → Type
  | .bootstrap _ _ _ _ => Unit
  | .recordPass _ _ _ _ => PassResult
  | .completeness _ _ _ => CompletenessResult

def Call.steps : (c : Call) → Steps c.Result
  | .bootstrap accountKey accountNumber reason now =>
      bootstrapFillCursor accountKey accountNumber reason now
  | .recordPass activities pageProven passId now =>
      History.recordPass activities pageProven passId now
  | .completeness now full overlapDays => completenessPass now full overlapDays

/-- Whatever the world outside answers. -/
abbrev anyAnswer : Op → Outside → Prop := fun _ _ => True

/-- A call ran to its end, or to where it raised or crashed. -/
def Ran (world : Op → Outside → Prop) (c : Call) (s : HistoryStore) (log : List Op)
    (x : Ending Raised c.Result) (t : HistoryStore) : Prop :=
  Runs exec world c.steps s log x t

end History

end TradePulse
