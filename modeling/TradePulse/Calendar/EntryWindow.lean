/-
**When an entry may be made** (`calendar/disagreement.py`; `entry_window_open`,
`CalendarGate.instrument_close` of `calendar/checks.py`; `is_regular_hours`, `venue_for` of
`calendar/__init__.py`).

Each reading of the broker's clock is compared with the calendar.  The monitor remembers whether the
two disagree now, since when the clock has been closed inside a session, and on which days they ever
disagreed.  A clock that is open outside a session disagrees at once; one that is closed inside a
session is given five minutes.

An entry is then allowed by the calendar, its evidence, the clock and the monitor together.  The
evidence is read twice, and may have changed in between.

Main definitions:

* `ClockCalendarMonitor.observe`, `monitorAfter` — one reading, and a history of readings;
* `Disputed` — the clock and the calendar disagree, in terms of the history alone;
* `CalendarGate.instrumentClose` — the verified close of an instrument;
* `entryWindowOpen` — whether an entry may be made.

Main results:

* `Remembers.after` — what the monitor knows after any history;
* `entry_window_iff` — **the window is open exactly on verified evidence, while clock and calendar
  do not disagree, in a regular session with an open clock or within the verified hours of an option
  on a day without any disagreement**.
-/

import TradePulse.Calendar.Lifecycle
import Mathlib.Data.List.DropRight

set_option autoImplicit false

namespace TradePulse

namespace Calendar

open Process Storage

/-! ### The monitor -/

/-- `is_regular_hours`. -/
def MarketCalendar.isRegularHours (ny : NewYork) (cal : MarketCalendar) (venue : Venue)
    (t : Instant) : Except HorizonExceeded Bool :=
  if venue = .crypto then .ok true
  else do
    let session ← cal.session ny venue (ny.nyDate t)
    return session.any fun s => decide (s.openAt ≤ t ∧ t < s.closeAt)

def GRACE : ℤ := seconds 300

/-- A reading of the broker's clock. -/
structure Reading where
  calendar : MarketCalendar
  clockIsOpen : Bool
  now : Instant

/-- The state of a `ClockCalendarMonitor`. -/
structure ClockCalendarMonitor where
  active : Bool := false
  episodeStartedAt : Option Instant := none
  closedSince : Option Instant := none
  episodeDays : List Day := []
  deriving DecidableEq

section Monitor

variable (ny : NewYork)

/-- Whether the calendar has a session now; beyond the horizon it has none. -/
def Reading.inSession (r : Reading) : Bool :=
  match r.calendar.isRegularHours ny .usEquity r.now with
  | .ok inSession => inSession
  | .error _ => false

/-- `observe`: the monitor after a reading, and whether the reading starts an episode. -/
def ClockCalendarMonitor.observe (m : ClockCalendarMonitor) (r : Reading) :
    Bool × ClockCalendarMonitor :=
  let (closedSince, disagree) :=
    if r.clockIsOpen && !r.inSession ny then (none, true)
    else if !r.clockIsOpen && r.inSession ny then
      let since := m.closedSince.getD r.now
      (some since, decide (r.now - since > GRACE))
    else (none, false)
  let started := disagree && !m.active
  (started,
    { active := disagree
      episodeStartedAt := if started then some r.now else m.episodeStartedAt
      closedSince := closedSince
      episodeDays :=
        if disagree then m.episodeDays.insert (ny.nyDate r.now) else m.episodeDays })

/-- `episode_on`. -/
def ClockCalendarMonitor.episodeOn (m : ClockCalendarMonitor) (day : Day) : Bool :=
  day ∈ m.episodeDays

/-- The monitor after a history of readings, the latest last. -/
def monitorAfter (rs : List Reading) : ClockCalendarMonitor :=
  rs.foldl (fun m r => (m.observe ny r).2) {}

/-! ### What a history says -/

def Reading.openOutside (r : Reading) : Bool := r.clockIsOpen && !r.inSession ny

def Reading.closedInside (r : Reading) : Bool := !r.clockIsOpen && r.inSession ny

/-- The readings at the end of a history that found the clock closed inside a session. -/
def closedStretch (rs : List Reading) : List Reading := rs.rtakeWhile (Reading.closedInside ny)

/-- The clock and the calendar disagree: the last reading found the clock open outside a session,
or closed inside one for longer than the grace period. -/
def Disputed (rs : List Reading) : Prop :=
  ∃ last, rs.getLast? = some last ∧ (last.openOutside ny = true ∨
    ∃ first, (closedStretch ny rs).head? = some first ∧ last.now - first.now > GRACE)

/-- A reading that left the two in disagreement on a day. -/
def DisputedOn (rs : List Reading) (day : Day) : Prop :=
  ∃ earlier r, earlier ++ [r] <+: rs ∧ Disputed ny (earlier ++ [r]) ∧ ny.nyDate r.now = day

/-- What the monitor knows of a history. -/
structure Remembers (rs : List Reading) (m : ClockCalendarMonitor) : Prop where
  active : m.active = true ↔ Disputed ny rs
  closedSince : m.closedSince = (closedStretch ny rs).head?.map (·.now)
  episodeDays : ∀ day, day ∈ m.episodeDays ↔ DisputedOn ny rs day

variable {ny} {rs : List Reading} {r : Reading} {m : ClockCalendarMonitor} {day : Day}

theorem closedStretch_concat_of_closed (h : r.closedInside ny = true) :
    closedStretch ny (rs ++ [r]) = closedStretch ny rs ++ [r] := by
  rw [closedStretch, List.rtakeWhile_concat_pos _ _ _ h]
  rfl

theorem closedStretch_concat_of_not (h : r.closedInside ny = false) :
    closedStretch ny (rs ++ [r]) = [] :=
  List.rtakeWhile_concat_neg _ _ _ (by simp [h])

theorem disputedOn_concat : DisputedOn ny (rs ++ [r]) day ↔
    DisputedOn ny rs day ∨ (Disputed ny (rs ++ [r]) ∧ ny.nyDate r.now = day) := by
  constructor
  · rintro ⟨earlier, r', hprefix, hdisputed, hday⟩
    rcases List.prefix_concat_iff.1 hprefix with heq | hprefix
    · obtain ⟨rfl, hr⟩ := List.append_inj' heq rfl
      obtain rfl : r' = r := by simpa using hr
      exact .inr ⟨hdisputed, hday⟩
    · exact .inl ⟨earlier, r', hprefix, hdisputed, hday⟩
  · rintro (⟨earlier, r', hprefix, hdisputed, hday⟩ | ⟨hdisputed, hday⟩)
    · exact ⟨earlier, r', hprefix.trans (List.prefix_append _ _), hdisputed, hday⟩
    · exact ⟨rs, r, List.prefix_rfl, hdisputed, hday⟩

theorem disputed_concat : Disputed ny (rs ++ [r]) ↔ r.openOutside ny = true ∨
    (r.closedInside ny = true ∧
      r.now - ((closedStretch ny rs).head?.map (·.now)).getD r.now > GRACE) := by
  have hlast : (rs ++ [r]).getLast? = some r := by simp
  simp only [Disputed, hlast, Option.some.injEq, exists_eq_left']
  refine or_congr_right ?_
  cases hclosed : r.closedInside ny with
  | false => simp [closedStretch_concat_of_not hclosed]
  | true =>
      rw [closedStretch_concat_of_closed hclosed]
      cases hstretch : closedStretch ny rs with
      | nil => simp
      | cons first rest => simp

/-- Before the first reading there is nothing to know. -/
theorem Remembers.start : Remembers ny [] {} where
  active := by simp [Disputed]
  closedSince := by simp [closedStretch]
  episodeDays day := by
    refine ⟨fun h => absurd h List.not_mem_nil, ?_⟩
    rintro ⟨earlier, r, hprefix, -⟩
    simp at hprefix

/-- **One reading.** -/
theorem Remembers.observe (h : Remembers ny rs m) (r : Reading) :
    Remembers ny (rs ++ [r]) (m.observe ny r).2 := by
  have hopen : r.openOutside ny = (r.clockIsOpen && !r.inSession ny) := rfl
  have hclosed : r.closedInside ny = (!r.clockIsOpen && r.inSession ny) := rfl
  -- what the reading says of the disagreement, and the stretch it leaves
  have key : ((m.observe ny r).2.active = true ↔ Disputed ny (rs ++ [r])) ∧
      (m.observe ny r).2.closedSince = (closedStretch ny (rs ++ [r])).head?.map (·.now) := by
    rw [disputed_concat, ← h.closedSince]
    simp only [ClockCalendarMonitor.observe, ← hopen, ← hclosed]
    by_cases ho : r.openOutside ny = true
    · have hc : r.closedInside ny = false := by
        rw [hopen, Bool.and_eq_true] at ho
        rw [hclosed, ho.1]
        rfl
      rw [closedStretch_concat_of_not hc]
      simp [ho]
    · by_cases hc : r.closedInside ny = true
      · rw [closedStretch_concat_of_closed hc]
        refine ⟨by simp [ho, hc], ?_⟩
        simp only [ho, hc, if_true, if_false, Bool.false_eq_true, h.closedSince]
        cases closedStretch ny rs <;> rfl
      · rw [closedStretch_concat_of_not (by simpa using hc)]
        simp [ho, hc]
  refine ⟨key.1, key.2, fun day => ?_⟩
  rw [disputedOn_concat, ← h.episodeDays day, ← key.1]
  have hdays : (m.observe ny r).2.episodeDays =
      if (m.observe ny r).2.active then m.episodeDays.insert (ny.nyDate r.now)
      else m.episodeDays := rfl
  rw [hdays]
  by_cases hactive : (m.observe ny r).2.active = true
  · rw [if_pos hactive, List.mem_insert_iff]
    simp only [hactive, true_and]
    rw [or_comm, eq_comm (a := day)]
  · rw [if_neg hactive]
    simp [hactive]

/-- **What the monitor knows after any history.** -/
theorem Remembers.after (rs : List Reading) : Remembers ny rs (monitorAfter ny rs) := by
  induction rs using List.reverseRecOn with
  | nil => exact Remembers.start
  | append_singleton rs r ih =>
      rw [monitorAfter, List.foldl_append]
      exact ih.observe r

end Monitor

/-! ### The window -/

/-- `venue_for`. -/
def venueFor (asset : AssetIdentity) : Venue :=
  match asset.assetClass with
  | .crypto => .crypto
  | .option => .usOption
  | _ => .usEquity

structure BrokerClock where
  isOpen : Bool
  nextOpen : Option Instant := none
  deriving DecidableEq

/-- A row of `instrument_hours` that comes from a completed check. -/
structure InstrumentHours where
  broker : String
  instrumentKey : String
  date : Day
  closeAt : Instant
  checkedAt : Instant
  createdAt : Instant
  deriving DecidableEq

/-- `ORDER BY h.checked_at DESC, h.created_at DESC LIMIT 1`. -/
def latestHours (broker key : String) (day : Day) (rows : List InstrumentHours) :
    Option InstrumentHours :=
  latest (fun h => h.broker = broker ∧ h.instrumentKey = key ∧ h.date = day)
    (byStamp (fun h => (toLex (h.checkedAt, h.createdAt) : Instant ×ₗ Instant)) rows)

/-- The session of a day, if the day is within the horizon. -/
def MarketCalendar.sessionWithin (ny : NewYork) (cal : MarketCalendar) (venue : Venue)
    (day : Day) : Option Session :=
  match cal.session ny venue day with
  | .ok session => session
  | .error _ => none

/-- `instrument_close`: the close of the instrument's own fresh hours, if they are valid. -/
def CalendarGate.instrumentClose (ny : NewYork) (g : CalendarGate) (broker : String)
    (asset : AssetIdentity) (t : Instant) (s : Evidence) (hours : List InstrumentHours) :
    Option Instant :=
  match g.calendar.sessionWithin ny .usOption (ny.nyDate t) with
  | none => none
  | some session =>
      if g.status ny .usOption (ny.nyDate t) t s ≠ .verified then none
      else
        match latestHours broker (assetIdentityKey asset) (ny.nyDate t) hours with
        | none => none
        | some row =>
            if !g.fresh ny row.checkedAt t || decide (row.closeAt ≤ t) ||
                decide (row.closeAt < session.closeAt) then none
            else some row.closeAt

inductive WindowBasis
  | venueRegularSession | verifiedInstrumentHours | continuous
  deriving DecidableEq

/-- `EntryWindow`: open on some basis, or closed for a reason. -/
inductive EntryWindow
  | opened (basis : WindowBasis)
  | closed (reason : String)
  deriving DecidableEq

/-- The longest known late close of an option. -/
def LATE_CLOSE_WINDOW : ℤ := seconds 900

def statusReason : Status → String
  | .contested => "CALENDAR_DATE_CONTESTED"
  | .unverified => "CALENDAR_UNVERIFIED"
  | .beyondHorizon => "CALENDAR_HORIZON_EXCEEDED"
  | .verified => ""

section Window

variable (ny : NewYork) (g : CalendarGate) (broker : String) (asset : AssetIdentity) (t : Instant)
  (clock : BrokerClock) (m : ClockCalendarMonitor) (s s' : Evidence) (hours : List InstrumentHours)

/-- The reason of a window that no session opens. -/
def closedReason : String :=
  if !clock.isOpen then
    if venueFor asset = .usOption then "OPTION_MARKET_CLOSED" else "EQUITY_MARKET_CLOSED"
  else "CALENDAR_SESSION_CLOSED"

/-- After the close of an option's session, by the hours of the instrument; `s'` is the evidence
that this step reads. -/
def afterClose (session : Session) : EntryWindow :=
  if (g.instrumentClose ny broker asset t s' hours).isSome && !clock.isOpen &&
      clock.nextOpen.any (fun next => decide (t < next)) && !m.episodeOn (ny.nyDate t) then
    .opened .verifiedInstrumentHours
  else if t < session.closeAt + LATE_CLOSE_WINDOW then .closed "OPTION_INSTRUMENT_HOURS_UNVERIFIED"
  else .closed (closedReason asset clock)

/-- `entry_window_open`; `s` is the evidence at the first read. -/
def entryWindowOpen : EntryWindow :=
  if venueFor asset = .crypto then .opened .continuous
  else
    let status := g.status ny (venueFor asset) (ny.nyDate t) t s
    if status ≠ .verified then .closed (statusReason status)
    else if m.active then .closed "CALENDAR_CLOCK_DISAGREEMENT"
    else
      match g.calendar.sessionWithin ny (venueFor asset) (ny.nyDate t) with
      | none => .closed (closedReason asset clock)
      | some session =>
          if decide (session.openAt ≤ t ∧ t < session.closeAt) && clock.isOpen then
            .opened .venueRegularSession
          else if venueFor asset = .usOption ∧ session.closeAt ≤ t then
            afterClose ny g broker asset t clock m s' hours session
          else .closed (closedReason asset clock)

end Window

section Window

variable {ny : NewYork} {g : CalendarGate} {broker : String} {asset : AssetIdentity} {t : Instant}
  {clock : BrokerClock} {s s' : Evidence} {hours : List InstrumentHours}

/-- The hours of an option that an entry after its session relies on. -/
def HoursVerified (ny : NewYork) (g : CalendarGate) (broker : String) (asset : AssetIdentity)
    (t : Instant) (s : Evidence) (hours : List InstrumentHours) (session : Session) : Prop :=
  g.status ny .usOption (ny.nyDate t) t s = .verified ∧
    ∃ row, latestHours broker (assetIdentityKey asset) (ny.nyDate t) hours = some row ∧
      g.fresh ny row.checkedAt t = true ∧ t < row.closeAt ∧ session.closeAt ≤ row.closeAt

theorem sessionWithin_eq_some_iff {venue : Venue} {day : Day} {session : Session} :
    g.calendar.sessionWithin ny venue day = some session ↔
      g.calendar.session ny venue day = .ok (some session) := by
  unfold MarketCalendar.sessionWithin
  cases g.calendar.session ny venue day with
  | error e => simp
  | ok found => simp

theorem instrumentClose_isSome_iff {session : Session}
    (hsession : g.calendar.session ny .usOption (ny.nyDate t) = .ok (some session)) :
    (g.instrumentClose ny broker asset t s hours).isSome = true ↔
      HoursVerified ny g broker asset t s hours session := by
  unfold CalendarGate.instrumentClose HoursVerified
  rw [sessionWithin_eq_some_iff.2 hsession]
  dsimp only
  by_cases hstatus : g.status ny .usOption (ny.nyDate t) t s = .verified
  · rw [if_neg (not_not.2 hstatus)]
    cases latestHours broker (assetIdentityKey asset) (ny.nyDate t) hours with
    | none => simp
    | some row =>
        simp only [hstatus, true_and, Option.some.injEq, exists_eq_left']
        by_cases hvalid : g.fresh ny row.checkedAt t = true ∧ t < row.closeAt ∧
            session.closeAt ≤ row.closeAt
        · have hlate := not_le.2 hvalid.2.1
          have hearly := not_lt.2 hvalid.2.2
          simp [hvalid, hlate, hearly]
        · have hinvalid : (!g.fresh ny row.checkedAt t || decide (row.closeAt ≤ t) ||
              decide (row.closeAt < session.closeAt)) = true := by
            by_contra hnone
            simp only [Bool.or_eq_true, Bool.not_eq_true', decide_eq_true_eq, not_or,
              Bool.not_eq_false, not_le, not_lt] at hnone
            exact hvalid ⟨hnone.1.1, hnone.1.2, hnone.2⟩
          rw [if_pos hinvalid]
          simp [hvalid]
  · rw [if_pos hstatus]
    simp [hstatus]

/-- **When an entry may be made**, in terms of the history of the clock's readings and of the
evidence. -/
theorem entry_window_iff (rs : List Reading) (hvenue : venueFor asset ≠ .crypto) :
    (∃ basis, entryWindowOpen ny g broker asset t clock (monitorAfter ny rs) s s' hours =
        .opened basis) ↔
      g.status ny (venueFor asset) (ny.nyDate t) t s = .verified ∧ ¬ Disputed ny rs ∧
        ∃ session, g.calendar.session ny (venueFor asset) (ny.nyDate t) = .ok (some session) ∧
          ((session.openAt ≤ t ∧ t < session.closeAt ∧ clock.isOpen = true) ∨
            (venueFor asset = .usOption ∧ session.closeAt ≤ t ∧ clock.isOpen = false ∧
              (∃ next, clock.nextOpen = some next ∧ t < next) ∧
              ¬ DisputedOn ny rs (ny.nyDate t) ∧
              HoursVerified ny g broker asset t s' hours session)) := by
  have hremembers : Remembers ny rs (monitorAfter ny rs) := Remembers.after rs
  unfold entryWindowOpen
  rw [if_neg hvenue]
  by_cases hstatus : g.status ny (venueFor asset) (ny.nyDate t) t s = .verified
  swap
  · simp [hstatus]
  simp only [hstatus, ne_eq, not_true_eq_false, if_false, true_and]
  by_cases hactive : (monitorAfter ny rs).active = true
  · have hdisputed := hremembers.active.1 hactive
    simp [hactive, hdisputed]
  have hagreed : ¬ Disputed ny rs := fun h => hactive (hremembers.active.2 h)
  simp only [hactive, hagreed, not_false_eq_true, true_and, if_false, Bool.false_eq_true]
  cases hsession : g.calendar.sessionWithin ny (venueFor asset) (ny.nyDate t) with
  | none =>
      have hnone : ∀ session,
          g.calendar.session ny (venueFor asset) (ny.nyDate t) ≠ .ok (some session) := by
        intro session h
        rw [sessionWithin_eq_some_iff.2 h] at hsession
        cases hsession
      simp [hnone]
  | some session =>
      have hok := sessionWithin_eq_some_iff.1 hsession
      simp only [hok, Except.ok.injEq, Option.some.injEq, exists_eq_left']
      by_cases hregular : (session.openAt ≤ t ∧ t < session.closeAt) ∧ clock.isOpen = true
      · simp [hregular]
      · have hregular' : (decide (session.openAt ≤ t ∧ t < session.closeAt) && clock.isOpen) =
            false := by
          rw [← Bool.not_eq_true, Bool.and_eq_true, decide_eq_true_eq]
          exact hregular
        have hnot : ¬ (session.openAt ≤ t ∧ t < session.closeAt ∧ clock.isOpen = true) :=
          fun h => hregular ⟨⟨h.1, h.2.1⟩, h.2.2⟩
        simp only [hregular', Bool.false_eq_true, if_false, hnot, false_or]
        by_cases hafter : venueFor asset = .usOption ∧ session.closeAt ≤ t
        swap
        · rw [if_neg hafter]
          simp only [reduceCtorEq, exists_false, false_iff]
          exact fun h => hafter ⟨h.1, h.2.1⟩
        rw [if_pos hafter]
        have hdays : (monitorAfter ny rs).episodeOn (ny.nyDate t) = true ↔
            DisputedOn ny rs (ny.nyDate t) := by
          rw [ClockCalendarMonitor.episodeOn, decide_eq_true_eq]
          exact hremembers.episodeDays _
        rw [hafter.1] at hok
        have hhours : (g.instrumentClose ny broker asset t s' hours).isSome = true ↔
            HoursVerified ny g broker asset t s' hours session :=
          instrumentClose_isSome_iff hok
        unfold afterClose
        by_cases hall : (g.instrumentClose ny broker asset t s' hours).isSome = true ∧
            clock.isOpen = false ∧ (∃ next, clock.nextOpen = some next ∧ t < next) ∧
            ¬ DisputedOn ny rs (ny.nyDate t)
        · obtain ⟨hclose, hclosed, ⟨next, hnext, hlater⟩, hday⟩ := hall
          have hepisode : (monitorAfter ny rs).episodeOn (ny.nyDate t) = false := by
            rw [← Bool.not_eq_true, hdays]
            exact hday
          simp [hclose, hclosed, hnext, hlater, hepisode, hafter, hday, hhours.1 hclose]
        · have hrefused : ((g.instrumentClose ny broker asset t s' hours).isSome && !clock.isOpen &&
              clock.nextOpen.any (fun next => decide (t < next)) &&
              !(monitorAfter ny rs).episodeOn (ny.nyDate t)) = false := by
            by_contra h
            simp only [Bool.not_eq_false, Bool.and_eq_true, Bool.not_eq_true',
              Option.any_eq_true, decide_eq_true_eq] at h
            obtain ⟨⟨⟨hclose, hclosed⟩, next, hnext, hlater⟩, hepisode⟩ := h
            refine hall ⟨hclose, hclosed, ⟨next, hnext, hlater⟩, ?_⟩
            rw [← hdays, hepisode]
            exact Bool.false_ne_true
          rw [hrefused, if_neg Bool.false_ne_true]
          constructor
          · rintro ⟨basis, h⟩
            split at h <;> cases h
          · rintro ⟨-, -, hclosed, hnext, hday, hverified⟩
            exact absurd ⟨hhours.2 hverified, hclosed, hnext, hday⟩ hall

end Window

/-- The evidence after one check that agreed. -/
def afterCheck : Evidence :=
  (((Pool.machine (checks winter)).run ⟨{ clock := winter.nyTime tuesday 480 }, []⟩
    (wholeCheck 0 960 "a")).map (·.store)).getD { clock := 0 }

/-- The clock is closed from ten on for six minutes, and open again after another. -/
def reopened : List Reading :=
  [⟨week, false, winter.nyTime tuesday 600⟩, ⟨week, false, winter.nyTime tuesday 606⟩,
    ⟨week, true, winter.nyTime tuesday 607⟩]

def sampleShare : AssetIdentity := ⟨"ACME", .equity, "ACME", none, none⟩

/-- While the clock has been closed for too long no entry is made, and afterwards it is. -/
theorem entry_window_iff_reopened :
    entryWindowOpen winter oneBroker "alpaca" sampleShare (winter.nyTime tuesday 606) ⟨true, none⟩
        (monitorAfter winter (reopened.take 2)) afterCheck afterCheck [] =
      .closed "CALENDAR_CLOCK_DISAGREEMENT" ∧
    (∃ basis, entryWindowOpen winter oneBroker "alpaca" sampleShare (winter.nyTime tuesday 608)
      ⟨true, none⟩ (monitorAfter winter reopened) afterCheck afterCheck [] = .opened basis) ∧
    oneBroker.status winter .usEquity tuesday (winter.nyTime tuesday 608) afterCheck = .verified ∧
    ¬ Disputed winter reopened := by
  have hopened : entryWindowOpen winter oneBroker "alpaca" sampleShare (winter.nyTime tuesday 608)
      ⟨true, none⟩ (monitorAfter winter reopened) afterCheck afterCheck [] =
        .opened .venueRegularSession := by
    decide +kernel
  obtain ⟨hstatus, hagreed, -⟩ := (entry_window_iff reopened (by decide)).1 ⟨_, hopened⟩
  exact ⟨by decide +kernel, ⟨_, hopened⟩, hstatus, hagreed⟩

end Calendar

end TradePulse
