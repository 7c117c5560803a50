/-
**The baseline of a session, and the entries it admits** (`dbae/baseline.py`; `_authorize_entry`,
`_baseline_capture_due`, `_record_band` and `_write_band_change` of `execution/gateway.py`).

The baseline of a session is the equity at the close of the trading day before, as the daily bars of
the broker report it, and it must agree with the equity that the account shows.  The first entry of
the session captures it in a table to which rows are only appended; every later one reads it, also
after a restart.  The band of an entry is that of the lower of this baseline and the current equity.

Any number of entries run side by side.  Each step of the store may fail, and an entry may end
between any two of them.

Main definitions:

* `MarketCalendar.sessionsBetween`, `sessionDateFor`, `previousTradingDate` — the session of an
  instant and the trading day before it;
* `SessionBaseline`, `BaselineRow` — a baseline, and a row of the table, which may be damaged;
* `loadOrCaptureBaseline` — the baseline of the current session, or the check that failed;
* `writeBandChange` — the entry of the audit trail when the band is another than before;
* `entries` — the calls, side by side; `decisions` is a history that no code reads.

Main results:

* `decode_encode` — what is stored is read back;
* `bandFor_mono`, `unlocks_mono` — a lower equity has no higher band and unlocks no more.
-/

import TradePulse.Calendar.Checks
import TradePulse.Execution.EntrySizing
import TradePulse.Process.Pool
import TradePulse.Storage.Numbering

set_option autoImplicit false

namespace TradePulse

open Process Storage

namespace Calendar.MarketCalendar

variable (ny : NewYork) (cal : MarketCalendar)

/-- `sessions_between`, inclusive of both ends. -/
def sessionsBetween (venue : Venue) (start stop : Day) : Except HorizonExceeded (List Session) :=
  if venue = .crypto then
    .ok ((List.range (stop - start + 1).toNat).map fun n =>
      ⟨venue, start + n, midnight (start + n), midnight (start + n + 1), false⟩)
  else do
    cal.require start
    cal.require stop
    return (cal.equity.filter fun h => start ≤ h.date ∧ h.date ≤ stop).filterMap fun h =>
      cal.librarySession ny venue h.date

end Calendar.MarketCalendar

namespace Dbae

open Calendar Record

/-! ### Bands, in their order -/

/-- The place of a band among the bands. -/
def Band.rank : Band → ℕ
  | belowMinimum => 0
  | micro => 1
  | microPlus => 2
  | fractional => 3
  | standard => 4
  | full => 5

/-- The number of edges that an equity has reached. -/
theorem rank_bandFor (equity : ℚ) :
    (bandFor equity).rank = bandThresholds.countP fun edge => edge.2 ≤ equity := by
  have hedge : ∀ x y : ℚ, x ≤ y → y ≤ equity → x ≤ equity := fun _ _ => le_trans
  have h₁ := hedge 20 50 (by norm_num)
  have h₂ := hedge 50 100 (by norm_num)
  have h₃ := hedge 100 500 (by norm_num)
  have h₄ := hedge 500 2000 (by norm_num)
  simp only [bandFor, bandThresholds, List.foldl_cons, List.foldl_nil, List.countP_cons,
    List.countP_nil, decide_eq_true_eq]
  by_cases h2000 : (2000 : ℚ) ≤ equity
  · simp [h2000, h₁, h₂, h₃, h₄, Band.rank]
  · by_cases h500 : (500 : ℚ) ≤ equity
    · simp [h2000, h500, h₁, h₂, h₃, Band.rank]
    · by_cases h100 : (100 : ℚ) ≤ equity
      · simp [h2000, h500, h100, h₁, h₂, Band.rank]
      · by_cases h50 : (50 : ℚ) ≤ equity
        · simp [h2000, h500, h100, h50, h₁, Band.rank]
        · by_cases h20 : (20 : ℚ) ≤ equity
          · simp [h2000, h500, h100, h50, h20, Band.rank]
          · simp [h2000, h500, h100, h50, h20, Band.rank]

/-- **A lower equity has no higher band.** -/
theorem bandFor_mono {x y : ℚ} (h : x ≤ y) : (bandFor x).rank ≤ (bandFor y).rank := by
  rw [rank_bandFor, rank_bandFor]
  refine List.countP_mono_left fun edge _ hedge => ?_
  simp only [decide_eq_true_eq] at hedge ⊢
  exact hedge.trans h

/-- **A lower band unlocks no more.** -/
theorem unlocks_mono {a b : Band} {assetClass : AssetClass} (h : a.rank ≤ b.rank)
    (ha : classUnlocked a assetClass = true) : classUnlocked b assetClass = true := by
  cases assetClass <;> cases a <;> cases b <;> simp_all [classUnlocked, unlocks, Band.rank]

/-! ### The session of an instant -/

def SESSION_SEARCH_DAYS : ℤ := 14

def AGREEMENT_TOLERANCE : ℚ := 1 / 100

inductive SearchError
  /-- `CalendarHorizonExceeded`. -/
  | beyondHorizon (e : HorizonExceeded)
  /-- `NO_RECENT_SESSION`. -/
  | noRecentSession (day : Day)
  deriving DecidableEq

section Search

variable (ny : NewYork) (cal : MarketCalendar)

/-- `_latest_session_on_or_before`. -/
def latestSessionOnOrBefore (day : Day) : Except SearchError Day :=
  match cal.sessionsBetween ny .usEquity (day - SESSION_SEARCH_DAYS) day with
  | .error e => .error (.beyondHorizon e)
  | .ok sessions =>
      match sessions.getLast? with
      | none => .error (.noRecentSession day)
      | some session => .ok session.date

/-- The New York date if it is a session, otherwise the most recent session before it. -/
def sessionDateFor (now : Instant) : Except SearchError Day :=
  latestSessionOnOrBefore ny cal (ny.nyDate now)

/-- The latest session strictly before a day. -/
def previousTradingDate (sessionDate : Day) : Except SearchError Day :=
  latestSessionOnOrBefore ny cal (sessionDate - 1)

end Search

/-! ### Baselines and their rows -/

/-- The source of a baseline: the daily bars of the portfolio's history. -/
def SOURCE : String := "portfolio_history"

structure SessionBaseline where
  sessionDate : Day
  /-- The date of the bar that was used. -/
  previousTradingDate : Day
  previousCloseEquity : ℚ
  lastEquity : ℚ
  capturedAt : Instant
  deriving DecidableEq

/-- What a row holds; `none` where an entry is missing or is not of its kind. -/
structure BaselinePayload where
  source : Option String
  sessionDate : Option Day
  previousTradingDate : Option Day
  previousCloseEquity : Option ℚ
  lastEquity : Option ℚ
  capturedAt : Option Instant
  deriving DecidableEq

/-- `decode_session_baseline`; `none` for each of its exceptions. -/
def decodeSessionBaseline (payload : BaselinePayload) : Option SessionBaseline := do
  let source ← payload.source
  if source ≠ SOURCE then none
  else
    let sessionDate ← payload.sessionDate
    let previous ← payload.previousTradingDate
    let close ← payload.previousCloseEquity
    let lastEquity ← payload.lastEquity
    let capturedAt ← payload.capturedAt
    some ⟨sessionDate, previous, close, lastEquity, capturedAt⟩

/-- What is written for a baseline. -/
def SessionBaseline.encode (b : SessionBaseline) : BaselinePayload :=
  ⟨some SOURCE, some b.sessionDate, some b.previousTradingDate, some b.previousCloseEquity,
    some b.lastEquity, some b.capturedAt⟩

/-- **What is stored is read back.** -/
@[simp] theorem decode_encode (b : SessionBaseline) : decodeSessionBaseline b.encode = some b := by
  simp [decodeSessionBaseline, SessionBaseline.encode]

structure BaselineRow where
  /-- The day that the key of the row names. -/
  key : Day
  payload : BaselinePayload
  deriving DecidableEq

instance : Record BaselineRow where
  recordId r := toString r.key
  uniqueValue _ := none

/-- `BaselineRefusal`, by the check that failed, or the baseline. -/
inductive BaselineOutcome
  | verified (baseline : SessionBaseline)
  | refused (check : String)
  deriving DecidableEq

def BaselineOutcome.baseline : BaselineOutcome → Option SessionBaseline
  | verified b => some b
  | refused _ => none

/-! ### The audit trail -/

/-- What is known of a bar that was refused. -/
structure RefusalEvidence where
  previousTradingDate : Option Day := none
  lastEquity : Option ℚ := none
  bars : Option ℕ := none
  previousCloseEquity : Option ℚ := none
  difference : Option ℚ := none
  deriving DecidableEq

structure BandChange where
  oldBand : Option Band
  newBand : Band
  bandEquity : ℚ
  currentEquity : ℚ
  previousCloseEquity : ℚ
  sessionDate : Day
  unlockedClasses : List AssetClass
  tradeIntentId : String
  sequence : ℕ
  deriving DecidableEq

inductive AuditDetails
  /-- `dbae_session_baseline_unverified`. -/
  | unverified (sessionDate : Day) (check : String) (evidence : RefusalEvidence)
  /-- `dbae_session_baseline_captured`. -/
  | captured (baseline : SessionBaseline) (difference : ℚ)
  /-- `dbae_band_changed`. -/
  | bandChanged (change : BandChange)
  /-- An event of another kind. -/
  | other
  deriving DecidableEq

/-- An entry of the audit trail. -/
structure AuditRow where
  eventId : String
  details : AuditDetails
  occurredAt : Instant
  deriving DecidableEq

instance : Record AuditRow where
  recordId r := r.eventId
  uniqueValue _ := none

def UNVERIFIED_ID_PREFIX : String := "dbae_baseline_unverified:"

def CAPTURED_ID_PREFIX : String := "dbae_baseline_captured:"

def BAND_CHANGE_ID_PREFIX : String := "dbae_band_changed:"

def unverifiedId (day : Day) (check : String) : String :=
  UNVERIFIED_ID_PREFIX ++ toString day ++ ":" ++ check

def capturedId (day : Day) : String := CAPTURED_ID_PREFIX ++ toString day

/-- The event of a refusal. -/
def unverifiedRow (day : Day) (check : String) (now : Instant) (evidence : RefusalEvidence) :
    AuditRow :=
  ⟨unverifiedId day check, .unverified day check evidence, now⟩

/-- `_record_captured`. -/
def capturedRow (b : SessionBaseline) : AuditRow :=
  ⟨capturedId b.sessionDate, .captured b |b.previousCloseEquity - b.lastEquity|, b.capturedAt⟩

def bandChangeRow (change : BandChange) (now : Instant) : AuditRow :=
  ⟨numbered BAND_CHANGE_ID_PREFIX 12 change.sequence, .bandChanged change, now⟩

/-- An event that none of the steps modelled here writes. -/
def Foreign (id : String) : Prop :=
  ¬ UNVERIFIED_ID_PREFIX.toList <+: id.toList ∧ ¬ CAPTURED_ID_PREFIX.toList <+: id.toList ∧
    ¬ BAND_CHANGE_ID_PREFIX.toList <+: id.toList

instance (id : String) : Decidable (Foreign id) := inferInstanceAs (Decidable (_ ∧ _ ∧ _))

/-! ### Steps of the store -/

/-- An exception, by the handlers that catch it. -/
inductive Fault
  /-- `DatabaseError`. -/
  | database (text : String)
  /-- `AlpacaError`, `AlpacaDataIntegrityError`, `httpx.HTTPError` or `ValueError`. -/
  | readFailed (text : String)
  | other (text : String)
  deriving DecidableEq

/-- A daily bar; `none` is an equity that is not finite. -/
structure DailyEquityBar where
  tradingDate : Day
  equity : Option ℚ
  deriving DecidableEq

/-- An entry that is judged. -/
structure EntryCall where
  gate : CalendarGate
  limits : EntryLimits
  request : Execution.EntryRequest
  account : AccountEvidence
  asset : Option AssetTradingCapabilities := none
  /-- `none` also stands for an equity that is not finite. -/
  lastEquity : Option ℚ := none
  tradeIntentId : String

def EntryCall.now (c : EntryCall) : Instant := c.request.now

/-- How an entry was judged. -/
structure EntryDecision where
  outcome : BaselineOutcome
  currentEquity : Option ℚ
  assetClass : AssetClass
  policy : ExecutionPolicy
  deriving DecidableEq

/-- What the entries share.  `decisions` is a history that no code reads. -/
structure SessionStore where
  baselines : Table BaselineRow := default
  auditEvents : Table AuditRow := default
  calendar : Evidence := { clock := 0 }
  decisions : List EntryDecision := []

inductive EntryOp
  | getBaseline (key : Day)
  | runDailyChecks
  | status (gate : CalendarGate) (day : Day) (now : Instant)
  | dailyEquityBars
  | createBaseline (row : BaselineRow)
  | createEvent (row : AuditRow)
  | lastBandChange
  /-- Not a step of the code: the decision joins the history. -/
  | decided (d : EntryDecision)

def EntryOp.Res : EntryOp → Type
  | getBaseline _ => Option BaselinePayload
  | runDailyChecks => Unit
  | status _ _ _ => Status
  | dailyEquityBars => List DailyEquityBar
  | createBaseline _ => Bool
  | createEvent _ => Bool
  | lastBandChange => Option AuditRow
  | decided _ => Unit

/-- What the world outside answers: the evidence after the daily checks, and the daily bars. -/
structure Answers where
  calendar : Evidence := { clock := 0 }
  bars : List DailyEquityBar := []

section Programs

variable (ny : NewYork)

def EntryOp.exec : (o : EntryOp) → Answers → SessionStore → Except Fault (o.Res × SessionStore)
  | .getBaseline key, _, s => .ok ((s.baselines.get? (toString key)).map (·.payload), s)
  | .runDailyChecks, answers, s => .ok ((), { s with calendar := answers.calendar })
  | .status gate day now, _, s => .ok (gate.status ny .usEquity day now s.calendar, s)
  | .dailyEquityBars, answers, s => .ok (answers.bars, s)
  | .createBaseline row, _, s =>
      .ok (decide (s.baselines.Admits row), { s with baselines := s.baselines.createOnce row })
  | .createEvent row, _, s =>
      .ok (decide (s.auditEvents.Admits row),
        { s with auditEvents := s.auditEvents.createOnce row })
  | .lastBandChange, _, s => .ok (lastByIdPrefix s.auditEvents BAND_CHANGE_ID_PREFIX, s)
  | .decided d, _, s => .ok ((), { s with decisions := s.decisions ++ [d] })

abbrev Entry (α : Type) := Prog Fault EntryOp.Res α

/-! ### The baseline of the current session -/

/-- `_refuse`: no row, and one event for each day and check. -/
def refuse (day : Day) (check : String) (now : Instant) (evidence : RefusalEvidence) :
    Entry BaselineOutcome := do
  let _ ← Prog.perform (EntryOp.createEvent (unverifiedRow day check now evidence))
  return .refused check

/-- `_record_captured`: written on every path that returns a baseline. -/
def recordCaptured (b : SessionBaseline) : Entry BaselineOutcome := do
  let _ ← Prog.perform (EntryOp.createEvent (capturedRow b))
  return .verified b

/-- `_stored_baseline`: a row that cannot be decoded is never replaced. -/
def storedBaseline (payload : BaselinePayload) (day : Day) (now : Instant) :
    Entry BaselineOutcome :=
  match decodeSessionBaseline payload with
  | none => refuse day "baseline_corrupt" now {}
  | some b =>
      if b.sessionDate ≠ day then refuse day "baseline_corrupt" now {} else recordCaptured b

/-- `_read_bars`: `none` when the read fails. -/
def readBars : Entry (Option (List DailyEquityBar)) :=
  Prog.tryCatch
    (do
      let bars ← Prog.perform EntryOp.dailyEquityBars
      return some bars)
    fun e =>
      match e with
      | .readFailed _ => .done none
      | e => .fail e

/-- The close of the trading day before, from the bars: exactly one bar of that day, which agrees
with the equity that the account shows.  Otherwise the check that failed. -/
def judgeBars (previous : Day) (lastEquity : ℚ) (bars : List DailyEquityBar) :
    Except (String × RefusalEvidence) ℚ :=
  let evidence : RefusalEvidence :=
    { previousTradingDate := some previous, lastEquity := some lastEquity, bars := bars.length }
  match bars.filter fun bar => bar.tradingDate = previous with
  | [] => .error ("previous_bar_missing", evidence)
  | [bar] =>
      match bar.equity with
      | none => .error ("previous_bar_invalid", evidence)
      | some close =>
          if close < 0 then .error ("previous_bar_invalid", evidence)
          else if |close - lastEquity| > AGREEMENT_TOLERANCE then
            .error ("last_equity_disagrees", { evidence with
              previousCloseEquity := some close, difference := some |close - lastEquity| })
          else .ok close
  | _ :: _ :: _ => .error ("previous_bar_ambiguous", evidence)

/-- A baseline joins the table, unless another caller captured the session first: then that row is
the baseline. -/
def insertBaseline (b : SessionBaseline) : Entry BaselineOutcome := do
  match ← Prog.perform (EntryOp.createBaseline ⟨b.sessionDate, b.encode⟩) with
  | true => recordCaptured b
  | false => do
      match ← Prog.perform (EntryOp.getBaseline b.sessionDate) with
      | none => .fail (.other "dbae_session_baselines: neither inserted nor present")
      | some winner => storedBaseline winner b.sessionDate b.capturedAt

def statusValue : Status → String
  | .verified => "verified"
  | .contested => "contested"
  | .unverified => "unverified"
  | .beyondHorizon => "beyond_horizon"

/-- The first use of a session, once the calendar has placed it. -/
def captureBaseline (gate : CalendarGate) (lastEquity : Option ℚ) (now : Instant)
    (day previous : Day) : Entry BaselineOutcome := do
  let status : Status ← Prog.perform (EntryOp.status gate day now)
  if status ≠ .verified then refuse day ("calendar_" ++ statusValue status) now {}
  else
    match lastEquity with
    | none => refuse day "last_equity_unknown" now { previousTradingDate := some previous }
    | some lastEquity => do
        match ← readBars with
        | none => refuse day "history_unavailable" now { previousTradingDate := some previous }
        | some bars =>
            match judgeBars previous lastEquity bars with
            | .error (check, evidence) => refuse day check now evidence
            | .ok close => insertBaseline ⟨day, previous, close, lastEquity, now⟩

/-- The session of an instant, and the trading day before it. -/
def placeSession (cal : MarketCalendar) (now : Instant) : Except SearchError (Day × Day) := do
  let day ← sessionDateFor ny cal now
  let previous ← previousTradingDate ny cal day
  return (day, previous)

/-- The verified baseline of the current session, or the refusal naming the first check that
failed. -/
def loadOrCaptureBaseline (gate : CalendarGate) (lastEquity : Option ℚ) (now : Instant) :
    Entry BaselineOutcome :=
  match placeSession ny gate.calendar now with
  | .error (.beyondHorizon _) => refuse (ny.nyDate now) "calendar_beyond_horizon" now {}
  | .error (.noRecentSession _) => refuse (ny.nyDate now) "calendar_no_recent_session" now {}
  | .ok (day, previous) => do
      match ← Prog.perform (EntryOp.getBaseline day) with
      | some stored => storedBaseline stored day now
      | none => captureBaseline gate lastEquity now day previous

/-! ### An entry -/

/-- `_baseline_capture_due`. -/
def baselineCaptureDue (gate : CalendarGate) (now : Instant) : Entry Bool :=
  match sessionDateFor ny gate.calendar now with
  | .error _ => .done false
  | .ok day => do
      let stored ← Prog.perform (EntryOp.getBaseline day)
      return stored.isNone

/-- The baseline step of an entry; a store that cannot be read is unknown evidence. -/
def entryBaseline (c : EntryCall) : Entry BaselineOutcome :=
  Prog.tryCatch
    (do
      if ← baselineCaptureDue ny c.gate c.now then Prog.perform EntryOp.runDailyChecks
      loadOrCaptureBaseline ny c.gate c.lastEquity c.now)
    fun e =>
      match e with
      | .database _ => .done (.refused "baseline_store_unavailable")
      | e => .fail e

/-- The classes of assets that a band unlocks. -/
def unlockedClasses (band : Band) : List AssetClass :=
  [AssetClass.equity, AssetClass.crypto, AssetClass.option].filter (classUnlocked band)

/-- The change to a band, after the change with a number. -/
def bandChange (c : EntryCall) (b : SessionBaseline) (band : Band) (equity current : ℚ)
    (old : Option Band) (n : ℕ) : BandChange :=
  ⟨old, band, equity, current, b.previousCloseEquity, b.sessionDate, unlockedClasses band,
    c.tradeIntentId, n + 1⟩

/-- `_write_band_change`: two writers that race for one number collide. -/
def writeBandChange (c : EntryCall) (b : SessionBaseline) (band : Band) (equity current : ℚ) :
    Entry Unit := do
  match ← Prog.perform EntryOp.lastBandChange with
  | none => do
      let _ ← Prog.perform
        (EntryOp.createEvent (bandChangeRow (bandChange c b band equity current none 0) c.now))
  | some row =>
      match row.details with
      | .bandChanged change =>
          if change.newBand = band then return ()
          else
            match numberOf BAND_CHANGE_ID_PREFIX row.eventId with
            | none => .fail (.other "invalid literal for int()")
            | some n => do
                let _ ← Prog.perform (EntryOp.createEvent (bandChangeRow
                  (bandChange c b band equity current (some change.newBand) n) c.now))
      | _ => .fail (.other "new_band")

/-- `_record_band`: audit only. -/
def recordBand (c : EntryCall) (b : SessionBaseline) (band : Band) (equity current : ℚ) :
    Entry Unit :=
  Prog.tryCatch (writeBandChange c b band equity current) fun e =>
    match e with
    | .database _ => .done ()
    | e => .fail e

/-- How an entry is judged on the outcome of the baseline step. -/
def judgeEntry (c : EntryCall) (outcome : BaselineOutcome) : EntryDecision :=
  let equity := Execution.bandEquity c.account.equity
    (outcome.baseline.map (·.previousCloseEquity))
  let asset := c.asset.getD { receivedAt := c.now }
  ⟨outcome, c.account.equity, c.request.asset.assetClass,
    evaluateEntryPolicy c.account equity asset (Execution.proposal c.limits c.request)⟩

/-- The band of an entry, where it was judged on a baseline and on fresh evidence. -/
def recordDecision (c : EntryCall) (d : EntryDecision) : Entry Unit :=
  match d.outcome, d.policy.bandEquity, d.currentEquity with
  | .verified b, some equity, some current =>
      if evidenceFresh c.account.receivedAt c.now then
        recordBand c b d.policy.band equity current
      else .done ()
  | _, _, _ => .done ()

/-- The steps of `_authorize_entry` up to the policy.  Account evidence that is stale or unusable is
refused before the baseline step reads or writes anything. -/
def authorizeBand (c : EntryCall) : Entry Unit :=
  if coreAccountReasons c.account c.now ≠ [] then .done ()
  else do
    let outcome ← entryBaseline ny c
    Prog.perform (EntryOp.decided (judgeEntry c outcome))
    recordDecision c (judgeEntry c outcome)

/-- What happens beside the entries. -/
inductive Beside
  | calendar (evidence : Evidence)
  /-- Another event is written to the audit trail. -/
  | event (id : String) (now : Instant)

def entries : System SessionStore Answers Fault EntryCall Beside EntryOp.Res where
  exec := EntryOp.exec ny
  call := authorizeBand ny
  env
    | .calendar evidence, s => some { s with calendar := evidence }
    | .event id now, s =>
        if Foreign id then
          some { s with auditEvents := s.auditEvents.createOnce ⟨id, .other, now⟩ }
        else none

end Programs

end Dbae

end TradePulse
