/-
**The calendar cross-check, and the status it confers.**

A check of one broker and venue is a series of immutable events: `started`, before the broker is
asked, `fetched`, with the answer, and then `completed`, in one transaction with a row for each day
of the answer, or `failed`.  A sweep fails the checks that have not ended for more than ten minutes.
Only completed checks confer anything.  The status of a day is derived from their rows whenever it
is asked for.

Checks and sweeps run side by side as calls of a pool.  The broker may take any time to answer and
may answer anything; every call may raise or crash at any operation.  A digest is what it was taken
of.  The event of a completed check also shows the calendar that the answer was compared with, which
its payload does not keep.

Main definitions:

* `CheckEvent`, `CheckDate`, `Evidence` — the two tables, and the clock;
* `runCheck`, `closeInterrupted`, `checks` — the calls and the pool that runs them;
* `CalendarGate.status` — the status of a venue and day.
-/

import TradePulse.Calendar.Sessions
import TradePulse.Process.Pool
import TradePulse.Storage.Changes
import Mathlib.Data.Prod.Lex
import Mathlib.Data.String.Basic

set_option autoImplicit false

namespace TradePulse

namespace Calendar

open Process Storage

def CHECK_DAYS : ℤ := 30
def FRESH_SESSIONS : ℤ := 3
def INTERRUPTED_AFTER : ℤ := seconds 600

/-! ### Events and rows -/

/-- What every event of a check says. -/
structure CheckBase where
  checkId : String
  broker : String
  venue : Venue
  rangeStart : Day
  rangeEnd : Day

/-- What a completed check says: the answer, when it was received, how many days got a row, and the
calendar it was compared with. -/
structure Completion where
  receivedAt : Instant
  response : List BrokerSession
  dates : ℕ
  calendar : MarketCalendar

inductive Failure
  | fetchFailed (error : Raised)
  | responseInvalid (error : ResponseDuplicateDate)
  | interrupted

def Failure.reason : Failure → String
  | fetchFailed _ => "fetch_failed"
  | responseInvalid _ => "response_invalid"
  | interrupted => "interrupted"

inductive Details
  | started (startedAt : Instant)
  | fetched (receivedAt : Instant) (response : List BrokerSession)
  | completed (completion : Completion)
  | failed (failure : Failure)

namespace Details

def event : Details → String
  | started _ => "started"
  | fetched _ _ => "fetched"
  | completed _ => "completed"
  | failed _ => "failed"

def isStarted : Details → Bool
  | started _ => true
  | _ => false

def isCompleted : Details → Bool
  | completed _ => true
  | _ => false

/-- `event IN ('completed','failed')`. -/
def isTerminal : Details → Bool
  | completed _ => true
  | failed _ => true
  | _ => false

end Details

/-- A row of `calendar_check_events`. -/
structure CheckEvent extends CheckBase where
  details : Details
  createdAt : Instant

/-- Its key stands for `UNIQUE(check_id, event)` as well. -/
instance : Record CheckEvent where
  recordId e := e.checkId ++ "|" ++ e.details.event
  uniqueValue _ := none

/-- A row of `calendar_check_dates`. -/
structure CheckDate where
  checkId : String
  broker : String
  venue : Venue
  payload : DateResult
  checkedAt : Instant
  createdAt : Instant

namespace CheckDate

def date (d : CheckDate) : Day := d.payload.date
def result (d : CheckDate) : Verdict := d.payload.result

end CheckDate

/-- Its key stands for `UNIQUE(check_id, broker, venue, date)` as well. -/
instance : Record CheckDate where
  recordId d := d.checkId ++ "|" ++ d.broker ++ "|" ++ d.venue.value ++ "|" ++ toString d.date
  uniqueValue _ := none

/-- The row of a check for one result. -/
def dateRow (base : CheckBase) (receivedAt : Instant) (row : DateResult) : CheckDate where
  checkId := base.checkId
  broker := base.broker
  venue := base.venue
  payload := row
  checkedAt := receivedAt
  createdAt := receivedAt

def dateRows (base : CheckBase) (receivedAt : Instant) (rows : List DateResult) : List CheckDate :=
  rows.map (dateRow base receivedAt)

/-- The tables, and what the clock shows. -/
structure Evidence where
  calendarCheckEvents : Table CheckEvent := default
  calendarCheckDates : Table CheckDate := default
  clock : Instant

/-! ### Writing -/

def constraintFailed : Raised := ⟨.other, "UNIQUE constraint failed"⟩

/-- `_event`, under the trigger `calendar_one_terminal_event`. -/
def insertEvent (t : Table CheckEvent) (e : CheckEvent) : Except Raised (Table CheckEvent) := do
  raiseIf (e.details.isTerminal = true ∧
    ∃ a ∈ t.rows, a.checkId = e.checkId ∧ a.details.isTerminal = true)
    ⟨.other, "calendar check already ended"⟩
  t.insert? constraintFailed e

/-- One row, under the trigger `calendar_rows_need_completed_calendar_check_dates`. -/
def insertDate (events : Table CheckEvent) (t : Table CheckDate) (d : CheckDate) :
    Except Raised (Table CheckDate) := do
  raiseIf (¬ ∃ a ∈ events.rows, a.checkId = d.checkId ∧ a.details.isCompleted = true)
    ⟨.other, "calendar_check_dates rows need a completed check"⟩
  t.insert? constraintFailed d

/-- `complete`: the event and the rows, in one transaction. -/
def complete (s : Evidence) (e : CheckEvent) (rows : List CheckDate) : Except Raised Evidence := do
  let events ← insertEvent s.calendarCheckEvents e
  let dates ← rows.foldlM (insertDate events) s.calendarCheckDates
  return { s with calendarCheckEvents := events, calendarCheckDates := dates }

/-- The checks that were started and have not ended. -/
def unended (t : Table CheckEvent) : List CheckEvent :=
  t.rows.filter fun e =>
    e.details.isStarted = true ∧
      ¬ ∃ a ∈ t.rows, a.checkId = e.checkId ∧ a.details.isTerminal = true

/-- Fail one check, if it has gone on for too long. -/
def closeOne (now : Instant) (x : List String × Table CheckEvent) (e : CheckEvent) :
    Except Raised (List String × Table CheckEvent) :=
  if now - e.createdAt > INTERRUPTED_AFTER then do
    let events ← insertEvent x.2 ⟨e.toCheckBase, .failed .interrupted, now⟩
    return (x.1 ++ [e.checkId], events)
  else return x

/-- `close`, the transaction of a sweep. -/
def close (now : Instant) (s : Evidence) : Except Raised (List String × Evidence) := do
  let (closed, events) ←
    (unended s.calendarCheckEvents).foldlM (closeOne now) ([], s.calendarCheckEvents)
  return (closed, { s with calendarCheckEvents := events })

/-! ### Calls -/

inductive Op
  | clock
  | insertEvent (e : CheckEvent)
  | getCalendar (broker : String) (start stop : Day)
  | complete (e : CheckEvent) (rows : List CheckDate)
  | close (now : Instant)

def Op.Res : Op → Type
  | clock => Instant
  | insertEvent _ => Unit
  | getCalendar _ _ _ => List BrokerSession
  | complete _ _ => Unit
  | close _ => List String

/-- What an operation does; `answer` is what the broker answers. -/
def exec : (o : Op) → List BrokerSession → Evidence → Except Raised (o.Res × Evidence)
  | .clock, _, s => .ok (s.clock, s)
  | .insertEvent e, _, s => do
      let events ← insertEvent s.calendarCheckEvents e
      return ((), { s with calendarCheckEvents := events })
  | .getCalendar _ _ _, answer, s => .ok (answer, s)
  | .complete e rows, _, s => do
      let s' ← complete s e rows
      return ((), s')
  | .close now, _, s => close now s

abbrev Check (α : Type) := Prog Raised Op.Res α

/-- What a check is asked to do; `clocked` says whether it was given a clock of its own. -/
structure CheckAsk where
  checkId : String
  broker : String
  venue : Venue
  calendar : MarketCalendar
  clocked : Bool := false

inductive CheckResult
  | completed (checkId : String) (contested : List Day)
  | failed (checkId : String) (reason : String)

section Calls

variable (ny : NewYork)

def CheckAsk.base (a : CheckAsk) (now : Instant) : CheckBase where
  checkId := a.checkId
  broker := a.broker
  venue := a.venue
  rangeStart := ny.nyDate now
  rangeEnd := ny.nyDate now + CHECK_DAYS

/-- The answer of the broker, or the exception it raised. -/
def fetch (base : CheckBase) : Check (Except Raised (List BrokerSession)) :=
  Prog.tryCatch
    (do
      let sessions ← Prog.perform (Op.getCalendar base.broker base.rangeStart base.rangeEnd)
      return .ok sessions)
    fun e => .done (.error e)

/-- `clock() if clock is not None else now`. -/
def CheckAsk.receivedAt (a : CheckAsk) (now : Instant) : Check Instant :=
  match a.clocked with
  | true => Prog.perform Op.clock
  | false => Prog.done now

/-- What follows the answer. -/
def record (a : CheckAsk) (base : CheckBase) (receivedAt : Instant)
    (sessions : List BrokerSession) : Check CheckResult := do
  Prog.perform (Op.insertEvent ⟨base, .fetched receivedAt sessions, receivedAt⟩)
  match compare ny a.calendar base.venue sessions with
  | .error invalid => do
      Prog.perform (Op.insertEvent ⟨base, .failed (.responseInvalid invalid), receivedAt⟩)
      return .failed base.checkId (Failure.responseInvalid invalid).reason
  | .ok rows => do
      Prog.perform (Op.complete
        ⟨base, .completed ⟨receivedAt, sessions, rows.length, a.calendar⟩, receivedAt⟩
        (dateRows base receivedAt rows))
      return .completed base.checkId
        ((rows.filter fun row => row.result = .contested).map fun row => row.date)

/-- One check of one broker and venue, through the full lifecycle.  `now` is read by the caller. -/
def runCheck (a : CheckAsk) : Check CheckResult := do
  let now ← Prog.perform Op.clock
  let base := a.base ny now
  Prog.perform (Op.insertEvent ⟨base, .started now, now⟩)
  match ← fetch base with
  | .error e => do
      Prog.perform (Op.insertEvent ⟨base, .failed (.fetchFailed e), now⟩)
      return .failed base.checkId (Failure.fetchFailed e).reason
  | .ok sessions => do
      let receivedAt ← a.receivedAt now
      record ny a base receivedAt sessions

/-- A check with no terminal event for more than 10 minutes gets `failed`.  `now` is read by the
caller. -/
def closeInterrupted : Check (List String) := do
  let now ← Prog.perform Op.clock
  Prog.perform (Op.close now)

inductive Call
  | runCheck (a : CheckAsk)
  | closeInterrupted

/-- The calls, and a clock that never goes back. -/
def checks : System Evidence (List BrokerSession) Raised Call Instant Op.Res where
  exec := exec
  call
    | .runCheck a => (runCheck ny a).bind fun _ => .done ()
    | .closeInterrupted => closeInterrupted.bind fun _ => .done ()
  env t s := if s.clock ≤ t then some { s with clock := t } else none

end Calls

/-! ### The gate -/

inductive Status
  | verified | contested | unverified | beyondHorizon
  deriving DecidableEq

/-- The calendar plus its evidence. -/
structure CalendarGate where
  calendar : MarketCalendar
  brokers : List String

/-- `ORDER BY d.checked_at, d.created_at, d.record_id`. -/
def CheckDate.stamp (d : CheckDate) : Instant ×ₗ Instant ×ₗ String :=
  toLex (d.checkedAt, toLex (d.createdAt, Record.recordId d))

/-- The rows of a venue and day that come from completed checks, in the order of the question. -/
def Evidence.found (s : Evidence) (venue : Venue) (day : Day) : List CheckDate :=
  byStamp CheckDate.stamp (s.calendarCheckDates.rows.filter fun d =>
    d.venue = venue ∧ d.date = day ∧
      ∃ e ∈ s.calendarCheckEvents.rows, e.checkId = d.checkId ∧ e.details.isCompleted = true)

/-- What the loop over the rows remembers. -/
structure Tally where
  latest : Dict (Verdict × Instant) := ∅
  agreedFresh : List String := []

namespace CalendarGate

variable (ny : NewYork) (g : CalendarGate)

/-- Within the last 3 NYSE sessions. -/
def fresh (checkedAt now : Instant) : Bool :=
  ny.nyDate checkedAt ≤ ny.nyDate now ∧
    g.calendar.sessionsAfterCount (ny.nyDate checkedAt) (ny.nyDate now) ≤ FRESH_SESSIONS

def tally (now : Instant) (t : Tally) (d : CheckDate) : Tally :=
  if d.broker ∈ g.brokers then
    { latest := t.latest.insert d.broker (d.result, d.checkedAt)
      agreedFresh :=
        if d.result = .agreed ∧ g.fresh ny d.checkedAt now = true then d.broker :: t.agreedFresh
        else t.agreedFresh }
  else t

/-- The status of a venue and day; a question is one read of the rows. -/
def status (venue : Venue) (day : Day) (now : Instant) (s : Evidence) : Status :=
  if venue = .crypto then .verified
  else if ¬ g.calendar.WithinHorizon day then .beyondHorizon
  else if g.brokers = [] then .unverified
  else
    let t := (s.found venue day).foldl (g.tally ny now) {}
    if t.latest.entries.any fun x => x.2.1 = .contested then .contested
    else if g.brokers.all fun broker =>
      broker ∈ t.agreedFresh ∧ (t.latest.lookup broker).any fun x => x.1 = .agreed then .verified
    else .unverified

end CalendarGate

end Calendar

end TradePulse
