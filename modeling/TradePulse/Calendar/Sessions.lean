/-
**The market calendar, and the comparison of a broker's answer with it.**

The sessions of each venue come from one build of a library, which knows the equity sessions of a
window of days; options close at an hour of their own, and crypto never closes.  A day outside the
window is never extrapolated.  A check compares what a broker reports with the calendar, day by day
from the first to the last session of the answer.

A day is a number of days since the epoch.  The clock of New York is a parameter: the day it shows
at an instant, which does not go back, and the instant at which it shows an hour.

Main definitions:

* `MarketCalendar`, `MarketCalendar.session` — the calendar and its sessions;
* `compare` — one result for each day of the answer;
* `Covers`, `Agrees` — what an answer says of a day, in terms of the answer alone.

Main results:

* `filter_compare` — **a comparison has one result for each day that the answer covers and none for
  the others, and the result is that of `Agrees`**;
* `pairwise_compare` — its results are in the order of their days;
* `sessionsAfterCount_anti` — the fewer sessions have passed, the later one starts to count.
-/

import TradePulse.Models.Market
import TradePulse.Storage.Journal
import Mathlib

set_option autoImplicit false

namespace TradePulse

namespace Calendar

/-- Days since the epoch. -/
abbrev Day := ℤ

/-- The clock of New York. -/
structure NewYork where
  /-- `ny_date`: the day at an instant. -/
  nyDate : Instant → Day
  /-- `ny_time`: the instant at which the clock shows so many minutes after midnight of a day. -/
  nyTime : Day → ℕ → Instant
  nyDate_mono : Monotone nyDate

inductive Venue
  | usEquity | usOption | crypto
  deriving DecidableEq

def Venue.value : Venue → String
  | usEquity => "us_equity"
  | usOption => "us_option"
  | crypto => "crypto"

/-- A session of the calendar. -/
structure Session where
  venue : Venue
  date : Day
  openAt : Instant
  closeAt : Instant
  earlyClose : Bool
  deriving DecidableEq

/-- One session as a broker reports it. -/
structure BrokerSession where
  venue : Venue
  date : Day
  openAt : Instant
  closeAt : Instant
  source : String
  deriving DecidableEq

/-- The hours of one equity session of the library. -/
structure EquityHours where
  date : Day
  openAt : Instant
  closeAt : Instant
  deriving DecidableEq

/-- Sessions for each venue from one library build; the equity sessions are kept by day. -/
structure MarketCalendar where
  equity : List EquityHours
  first : Day
  last : Day
  optionCloseFromEquity : Bool := false
  sorted : equity.Pairwise fun a b => a.date < b.date

/-- A day outside the library's window. -/
structure HorizonExceeded where
  day : Day
  first : Day
  last : Day
  deriving DecidableEq

/-- 16:00 and 13:00, in minutes after midnight. -/
def OPTION_CLOSE : ℕ := 16 * 60
def OPTION_EARLY_CLOSE : ℕ := 13 * 60

/-- Midnight UTC of a day. -/
def midnight (day : Day) : Instant := day * seconds 86400

namespace MarketCalendar

variable (ny : NewYork) (cal : MarketCalendar)

def WithinHorizon (day : Day) : Prop := cal.first ≤ day ∧ day ≤ cal.last

instance (day : Day) : Decidable (cal.WithinHorizon day) := inferInstanceAs (Decidable (_ ∧ _))

/-- `_require`. -/
def require (day : Day) : Except HorizonExceeded Unit :=
  if day < cal.first ∨ day > cal.last then .error ⟨day, cal.first, cal.last⟩ else .ok ()

/-- The session of a day of the library, for a venue that closes. -/
def librarySession (venue : Venue) (day : Day) : Option Session :=
  (cal.equity.find? fun h => h.date = day).map fun hours =>
    let early := decide (hours.closeAt < ny.nyTime day OPTION_CLOSE)
    let closeAt :=
      if venue = .usOption ∧ cal.optionCloseFromEquity = false then
        ny.nyTime day (if early then OPTION_EARLY_CLOSE else OPTION_CLOSE)
      else hours.closeAt
    ⟨venue, day, hours.openAt, closeAt, early⟩

def session (venue : Venue) (day : Day) : Except HorizonExceeded (Option Session) :=
  if venue = .crypto then
    .ok (some ⟨venue, day, midnight day, midnight (day + 1), false⟩)
  else do
    cal.require day
    return cal.librarySession ny venue day

/-- `bisect_right` on the days of the equity sessions. -/
def bisectRight (day : Day) : ℕ := cal.equity.countP fun h => h.date ≤ day

/-- Equity sessions with a date in (after, through]. -/
def sessionsAfterCount (after through : Day) : ℤ :=
  (cal.bisectRight through : ℤ) - cal.bisectRight after

variable {ny cal} {venue : Venue} {day : Day}

theorem session_within (hvenue : venue ≠ .crypto) (h : cal.WithinHorizon day) :
    cal.session ny venue day = .ok (cal.librarySession ny venue day) := by
  have hin : ¬ (day < cal.first ∨ day > cal.last) := by
    rintro (hlt | hlt)
    · exact absurd h.1 (not_le.2 hlt)
    · exact absurd h.2 (not_le.2 hlt)
  rw [session, if_neg hvenue, require, if_neg hin]
  rfl

theorem session_beyond (hvenue : venue ≠ .crypto) (h : ¬ cal.WithinHorizon day) :
    cal.session ny venue day = .error ⟨day, cal.first, cal.last⟩ := by
  have hout : day < cal.first ∨ day > cal.last := by
    by_contra hin
    push Not at hin
    exact h hin
  rw [session, if_neg hvenue, require, if_pos hout]
  rfl

theorem bisectRight_mono : Monotone cal.bisectRight := by
  intro day day' hle
  refine List.countP_mono_left fun hours _ hday => ?_
  simp only [decide_eq_true_eq] at hday ⊢
  exact hday.trans hle

theorem sessionsAfterCount_anti (through : Day) :
    Antitone fun after => cal.sessionsAfterCount after through := by
  intro after after' hle
  have hcount : cal.bisectRight after ≤ cal.bisectRight after' := bisectRight_mono hle
  simp only [sessionsAfterCount]
  omega

end MarketCalendar

/-! ### Comparing an answer with the calendar -/

inductive Verdict
  | agreed | contested
  deriving DecidableEq

/-- What a check found on one day. -/
structure DateResult where
  date : Day
  result : Verdict
  brokerHours : Option (Instant × Instant)
  calendarHours : Option (Instant × Instant)
  deriving DecidableEq

/-- `CALENDAR_RESPONSE_DUPLICATE_DATE`. -/
structure ResponseDuplicateDate where
  venue : Venue
  deriving DecidableEq

def hoursOf (library : Option Session) : Option (Instant × Instant) :=
  library.map fun s => (s.openAt, s.closeAt)

def reportedHours (reported : Option BrokerSession) : Option (Instant × Instant) :=
  reported.map fun s => (s.openAt, s.closeAt)

/-- Both have no session, or both have one with the same hours. -/
def agreed (library : Option Session) (reported : Option BrokerSession) : Bool :=
  match library, reported with
  | none, none => true
  | some l, some r => (l.openAt, l.closeAt) = (r.openAt, r.closeAt)
  | _, _ => false

def dateResult (day : Day) (library : Option Session) (reported : Option BrokerSession) :
    DateResult where
  date := day
  result := if agreed library reported then .agreed else .contested
  brokerHours := reportedHours reported
  calendarHours := hoursOf library

section Compare

variable (ny : NewYork) (cal : MarketCalendar) (venue : Venue)

/-- The results of a number of days from a day on; nothing past the library window is verified. -/
def compareDays (byDay : Day → Option BrokerSession) : ℕ → Day → List DateResult
  | 0, _ => []
  | n + 1, day =>
      match cal.session ny venue day with
      | .error _ => []
      | .ok library => dateResult day library (byDay day) :: compareDays byDay n (day + 1)

/-- The sessions of a venue in an answer, by day. -/
def mine (sessions : List BrokerSession) : List BrokerSession :=
  Storage.byStamp (fun s => s.date) (sessions.filter fun s => s.venue = venue)

/-- One result per date in the response's coverage. -/
def compare (sessions : List BrokerSession) : Except ResponseDuplicateDate (List DateResult) :=
  match (mine venue sessions).head?, (mine venue sessions).getLast? with
  | some head, some last =>
      if ¬ ((mine venue sessions).map (·.date)).Nodup then .error ⟨venue⟩
      else .ok (compareDays ny cal venue
        (fun day => (mine venue sessions).find? fun s => s.date = day)
        (last.date - head.date + 1).toNat head.date)
  | _, _ => .ok []

end Compare

/-! ### What an answer says of a day -/

/-- The day lies between the first and the last session of the venue in the answer, which begins
within the window of the calendar, and the window has not ended before the day. -/
def Covers (cal : MarketCalendar) (venue : Venue) (response : List BrokerSession) (day : Day) :
    Prop :=
  (∃ s ∈ response, s.venue = venue ∧ s.date ≤ day) ∧
    (∃ s ∈ response, s.venue = venue ∧ day ≤ s.date) ∧
    (∀ s ∈ response, s.venue = venue → cal.first ≤ s.date) ∧ day ≤ cal.last

instance (cal : MarketCalendar) (venue : Venue) (response : List BrokerSession) (day : Day) :
    Decidable (Covers cal venue response day) :=
  inferInstanceAs (Decidable (_ ∧ _ ∧ _ ∧ _))

/-- The answer reports the hours of the library on a day, or no session where there is none. -/
def Agrees (ny : NewYork) (cal : MarketCalendar) (venue : Venue) (response : List BrokerSession)
    (day : Day) : Prop :=
  match cal.librarySession ny venue day with
  | none => ∀ s ∈ response, s.venue = venue → s.date ≠ day
  | some library =>
      ∃ s ∈ response, s.venue = venue ∧ s.date = day ∧ s.openAt = library.openAt ∧
        s.closeAt = library.closeAt

instance (ny : NewYork) (cal : MarketCalendar) (venue : Venue) (response : List BrokerSession)
    (day : Day) : Decidable (Agrees ny cal venue response day) :=
  match h : cal.librarySession ny venue day with
  | none => decidable_of_iff (∀ s ∈ response, s.venue = venue → s.date ≠ day) (by rw [Agrees, h])
  | some library =>
      decidable_of_iff (∃ s ∈ response, s.venue = venue ∧ s.date = day ∧
        s.openAt = library.openAt ∧ s.closeAt = library.closeAt) (by rw [Agrees, h])

section Coverage

variable {ny : NewYork} {cal : MarketCalendar} {venue : Venue} {sessions : List BrokerSession}
  {rows : List DateResult} {day : Day}

theorem mem_mine {s : BrokerSession} :
    s ∈ mine venue sessions ↔ s ∈ sessions ∧ s.venue = venue := by
  simp [mine]

theorem head_le {head s : BrokerSession} (hhead : (mine venue sessions).head? = some head)
    (hs : s ∈ mine venue sessions) : head.date ≤ s.date := by
  obtain ⟨rest, hmine⟩ := List.head?_eq_some_iff.1 hhead
  have hsorted : (mine venue sessions).Pairwise fun a b => a.date ≤ b.date :=
    Storage.pairwise_byStamp
  rw [hmine] at hs hsorted
  rcases List.mem_cons.1 hs with rfl | hs
  · exact le_rfl
  · exact (List.pairwise_cons.1 hsorted).1 s hs

theorem le_last {last s : BrokerSession} (hlast : (mine venue sessions).getLast? = some last)
    (hs : s ∈ mine venue sessions) : s.date ≤ last.date := by
  obtain ⟨rest, hmine⟩ := List.getLast?_eq_some_iff.1 hlast
  have hsorted : (mine venue sessions).Pairwise fun a b => a.date ≤ b.date :=
    Storage.pairwise_byStamp
  rw [hmine] at hs hsorted
  rcases List.mem_append.1 hs with hs | hs
  · exact (List.pairwise_append.1 hsorted).2.2 s hs last (by simp)
  · rw [List.mem_singleton.1 hs]

/-- What an answer covers, by its first and last sessions. -/
theorem covers_iff {head last : BrokerSession} (hhead : (mine venue sessions).head? = some head)
    (hlast : (mine venue sessions).getLast? = some last) :
    Covers cal venue sessions day ↔
      head.date ≤ day ∧ day ≤ last.date ∧ cal.first ≤ head.date ∧ day ≤ cal.last := by
  have hmem : head ∈ mine venue sessions := List.mem_of_head? hhead
  have hmem' : last ∈ mine venue sessions := List.mem_of_getLast? hlast
  obtain ⟨hin, hvenue⟩ := mem_mine.1 hmem
  obtain ⟨hin', hvenue'⟩ := mem_mine.1 hmem'
  constructor
  · rintro ⟨⟨s, hs, hsv, hle⟩, ⟨t, ht, htv, hge⟩, hfirst, hwindow⟩
    exact ⟨(head_le hhead (mem_mine.2 ⟨hs, hsv⟩)).trans hle,
      hge.trans (le_last hlast (mem_mine.2 ⟨ht, htv⟩)), hfirst head hin hvenue, hwindow⟩
  · rintro ⟨hle, hge, hfirst, hwindow⟩
    exact ⟨⟨head, hin, hvenue, hle⟩, ⟨last, hin', hvenue', hge⟩,
      fun s hs hsv => hfirst.trans (head_le hhead (mem_mine.2 ⟨hs, hsv⟩)), hwindow⟩

theorem filter_compareDays (hvenue : venue ≠ .crypto) (byDay : Day → Option BrokerSession) (n : ℕ)
    (start : Day) :
    (compareDays ny cal venue byDay n start).filter (fun r => r.date = day) =
      if start ≤ day ∧ day < start + n ∧ cal.first ≤ start ∧ day ≤ cal.last then
        [dateResult day (cal.librarySession ny venue day) (byDay day)]
      else [] := by
  induction n generalizing start with
  | zero =>
      rw [if_neg, compareDays, List.filter_nil]
      simp only [Day]
      omega
  | succ n ih =>
      by_cases hin : cal.WithinHorizon start
      · simp only [compareDays, MarketCalendar.session_within hvenue hin]
        obtain ⟨hfirst, hlast⟩ := hin
        by_cases hday : start = day
        · -- the other results are of later days
          subst hday
          rw [List.filter_cons_of_pos (by simp [dateResult]), ih, if_neg, if_pos]
          · simp only [Day] at hfirst hlast ⊢
            omega
          · simp only [Day]
            omega
        · rw [List.filter_cons_of_neg (by simp [dateResult, hday]), ih]
          refine if_congr ?_ rfl rfl
          simp only [Day] at hfirst hlast hday ⊢
          omega
      · simp only [compareDays, MarketCalendar.session_beyond hvenue hin]
        rw [if_neg, List.filter_nil]
        rintro ⟨hle, -, hfirst, hlast⟩
        exact hin ⟨hfirst, hle.trans hlast⟩

theorem pairwise_compareDays (byDay : Day → Option BrokerSession) (n : ℕ) (start : Day) :
    (∀ r ∈ compareDays ny cal venue byDay n start, start ≤ r.date) ∧
      (compareDays ny cal venue byDay n start).Pairwise fun a b => a.date < b.date := by
  induction n generalizing start with
  | zero => exact ⟨by simp [compareDays], .nil⟩
  | succ n ih =>
      simp only [compareDays]
      split
      · exact ⟨by simp, .nil⟩
      · obtain ⟨hfrom, hrest⟩ := ih (start + 1)
        refine ⟨fun r hr => ?_, List.pairwise_cons.2 ⟨fun r hr => ?_, hrest⟩⟩
        · rcases List.mem_cons.1 hr with rfl | hr
          · exact le_rfl
          · exact (Int.le_of_lt (Int.lt_succ start)).trans (hfrom r hr)
        · exact Int.lt_of_add_one_le (hfrom r hr)

theorem pairwise_compare (h : compare ny cal venue sessions = .ok rows) :
    rows.Pairwise fun a b => a.date < b.date := by
  unfold compare at h
  split at h
  · split at h
    · cases h
    · obtain rfl := Except.ok.inj h
      exact (pairwise_compareDays _ _ _).2
  · obtain rfl := Except.ok.inj h
    exact .nil

/-- Where the days of an answer are distinct, what it reports of a day is what `Agrees` asks for. -/
theorem agreed_iff (hnodup : ((mine venue sessions).map (·.date)).Nodup) :
    agreed (cal.librarySession ny venue day)
        ((mine venue sessions).find? fun s => s.date = day) = true ↔
      Agrees ny cal venue sessions day := by
  rw [Agrees]
  cases hfind : (mine venue sessions).find? fun s => s.date = day with
  | none =>
      have hnone : ∀ s ∈ sessions, s.venue = venue → s.date ≠ day := by
        intro s hs hsv hday
        have := List.find?_eq_none.1 hfind s (mem_mine.2 ⟨hs, hsv⟩)
        exact this (by simpa using hday)
      cases hlib : cal.librarySession ny venue day with
      | none => simpa [agreed] using hnone
      | some library =>
          refine iff_of_false (by simp [agreed]) ?_
          rintro ⟨s, hs, hsv, hday, -⟩
          exact hnone s hs hsv hday
  | some s =>
      have hmem := List.mem_of_find?_eq_some hfind
      have hday : s.date = day := by simpa using List.find?_some hfind
      obtain ⟨hs, hsv⟩ := mem_mine.1 hmem
      cases hlib : cal.librarySession ny venue day with
      | none =>
          refine iff_of_false (by simp [agreed]) fun h => ?_
          exact h s hs hsv hday
      | some library =>
          simp only [agreed, decide_eq_true_eq, Prod.mk.injEq]
          constructor
          · rintro ⟨hopen, hclose⟩
            exact ⟨s, hs, hsv, hday, hopen.symm, hclose.symm⟩
          · rintro ⟨t, ht, htv, htday, hopen, hclose⟩
            -- one session a day
            obtain rfl : t = s :=
              List.inj_on_of_nodup_map hnodup (mem_mine.2 ⟨ht, htv⟩) hmem (htday.trans hday.symm)
            exact ⟨hopen.symm, hclose.symm⟩

/-- **A comparison has one result for each day that the answer covers.** -/
theorem filter_compare (hvenue : venue ≠ .crypto) (h : compare ny cal venue sessions = .ok rows) :
    (Covers cal venue sessions day →
      ∃ r, rows.filter (fun r => r.date = day) = [r] ∧
        (r.result = .agreed ↔ Agrees ny cal venue sessions day)) ∧
    (¬ Covers cal venue sessions day → rows.filter (fun r => r.date = day) = []) := by
  unfold compare at h
  split at h
  · rename_i head last hhead hlast
    split at h
    · cases h
    · rename_i hdup
      obtain rfl := Except.ok.inj h
      rw [not_not] at hdup
      have hspan : head.date ≤ last.date := head_le hhead (List.mem_of_getLast? hlast)
      rw [filter_compareDays hvenue, covers_iff hhead hlast]
      constructor
      · intro hcovers
        refine ⟨_, if_pos ?_, ?_⟩
        · simp only [Day] at hcovers ⊢
          omega
        · rw [← agreed_iff hdup]
          simp [dateResult]
      · intro hcovers
        rw [if_neg]
        simp only [Day] at hcovers hspan ⊢
        omega
  · rename_i hempty
    obtain rfl := Except.ok.inj h
    refine ⟨fun hcovers => ?_, fun _ => rfl⟩
    -- the venue has no session in the answer
    obtain ⟨⟨s, hs, hsv, -⟩, -⟩ := hcovers
    have hmem : s ∈ mine venue sessions := mem_mine.2 ⟨hs, hsv⟩
    cases hmine : mine venue sessions with
    | nil =>
        rw [hmine] at hmem
        cases hmem
    | cons head rest =>
        have hlast : (mine venue sessions).getLast? = some ((head :: rest).getLast (by simp)) := by
          rw [hmine, List.getLast?_eq_some_getLast]
        exact absurd hlast (hempty head _ (by rw [hmine]; rfl))

end Coverage

end Calendar

end TradePulse
