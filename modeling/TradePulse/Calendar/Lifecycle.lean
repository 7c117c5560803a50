/-
**Calendar evidence, from the first event of a check to the status of a day.**

A check ends once, and the rows of the days are exactly those that the completed checks stand for,
in the order in which the checks completed: this holds in every run.  The gate reads the rows in
another order, that of their stamps, and a stamp is the time at which a check was started, unless
the check was given a clock.  The two orders agree as long as no check completes after one of the
same broker, venue and day that is stamped later.

Main definitions:

* `Evidence.latestCheck` — the check of a broker and venue that covers a day and completed last;
* `EndsOnce`, `FromCompleted` — the two properties of every run;
* `InOrder`, `Timely` — the conditions on completions and on questions;
* `Answers` — the status of a day follows the checks that completed last.

Main results:

* `Consistent.exec` — every operation keeps one ending for each check, and its rows;
* `calendar_evidence` — **every check ends once, rows come from completed checks, and where checks
  complete in the order of their stamps the status follows the ones that completed last**;
* `calendar_overtaken` — a check that answers slowly is overtaken by its successor.
-/

import TradePulse.Calendar.Checks

set_option autoImplicit false

namespace TradePulse

namespace Calendar

open Process Storage

/-! ### What the events stand for -/

/-- The rows of a completed check. -/
def CheckEvent.dates (ny : NewYork) (e : CheckEvent) : List CheckDate :=
  match e.details with
  | .completed c =>
      match compare ny c.calendar e.venue c.response with
      | .ok rows => dateRows e.toCheckBase c.receivedAt rows
      | .error _ => []
  | _ => []

/-- A completed check whose answer covers a day. -/
def CheckEvent.CoversDay (e : CheckEvent) (day : Day) : Prop :=
  match e.details with
  | .completed c => Covers c.calendar e.venue c.response day
  | _ => False

instance (e : CheckEvent) (day : Day) : Decidable (e.CoversDay day) :=
  match h : e.details with
  | .completed c =>
      decidable_of_iff (Covers c.calendar e.venue c.response day) (by rw [CheckEvent.CoversDay, h])
  | .started _ => isFalse (by rw [CheckEvent.CoversDay, h]; exact id)
  | .fetched _ _ => isFalse (by rw [CheckEvent.CoversDay, h]; exact id)
  | .failed _ => isFalse (by rw [CheckEvent.CoversDay, h]; exact id)

/-- The check of a broker and venue that covers a day and completed last. -/
def Evidence.latestCheck (s : Evidence) (broker : String) (venue : Venue) (day : Day) :
    Option CheckEvent :=
  latest (fun e => e.broker = broker ∧ e.venue = venue ∧ e.CoversDay day)
    s.calendarCheckEvents.rows

/-- Rows of one broker, venue and day. -/
def SameDay (a b : CheckDate) : Prop := a.broker = b.broker ∧ a.venue = b.venue ∧ a.date = b.date

instance (a b : CheckDate) : Decidable (SameDay a b) := inferInstanceAs (Decidable (_ ∧ _ ∧ _))

/-- One ending for each check, rows that completed checks stand for, one check after the other, and
completed checks that were compared. -/
structure Consistent (ny : NewYork) (events : List CheckEvent) (dates : List CheckDate) : Prop where
  once : events.Pairwise fun a b => a.checkId = b.checkId →
    a.details.isTerminal = true → b.details.isTerminal = false
  derived : dates = events.flatMap (CheckEvent.dates ny)
  compared : ∀ e ∈ events, ∀ c, e.details = .completed c →
    ∃ rows, compare ny c.calendar e.venue c.response = .ok rows

/-- The rows of one broker, venue and day were written in the order of their stamps. -/
def Ordered (dates : List CheckDate) : Prop :=
  dates.Pairwise fun a b => SameDay a b → a.stamp < b.stamp

/-! ### What an operation keeps -/

section Keeping

variable {ny : NewYork} {t t' : Table CheckEvent} {e : CheckEvent} {dates : List CheckDate}
  {s s' : Evidence}

theorem insertEvent_ok (h : insertEvent t e = .ok t') :
    t'.rows = t.rows ++ [e] ∧ (e.details.isTerminal = true →
      ∀ a ∈ t.rows, a.checkId = e.checkId → a.details.isTerminal = false) := by
  obtain ⟨_, hraise, hinsert⟩ := except_bind_eq_ok.1 h
  obtain ⟨hadmits, rfl⟩ := Table.insert?_eq_ok_iff.1 hinsert
  refine ⟨Table.rows_createOnce hadmits, fun hterminal a ha hid => ?_⟩
  by_contra hended
  exact raiseIf_eq_ok_iff.1 hraise ⟨hterminal, a, ha, hid, by simpa using hended⟩

/-- An event keeps one ending for each check, whatever it is. -/
theorem once_append {events : List CheckEvent}
    (h : events.Pairwise fun a b => a.checkId = b.checkId →
      a.details.isTerminal = true → b.details.isTerminal = false)
    (hnew : e.details.isTerminal = true →
      ∀ a ∈ events, a.checkId = e.checkId → a.details.isTerminal = false) :
    (events ++ [e]).Pairwise fun a b => a.checkId = b.checkId →
      a.details.isTerminal = true → b.details.isTerminal = false := by
  refine List.pairwise_append.2 ⟨h, List.pairwise_singleton _ _, fun a ha b hb hid hterminal => ?_⟩
  obtain rfl := List.mem_singleton.1 hb
  by_contra hended
  rw [hnew (by simpa using hended) a ha hid] at hterminal
  cases hterminal

theorem dates_eq_nil (h : e.details.isCompleted = false) : e.dates ny = [] := by
  unfold CheckEvent.dates
  split
  · rename_i c hdetails
    rw [hdetails] at h
    cases h
  · rfl

theorem Consistent.insertEvent (hc : Consistent ny t.rows dates)
    (hcompleted : e.details.isCompleted = false) (h : insertEvent t e = .ok t') :
    Consistent ny t'.rows dates := by
  obtain ⟨hrows, hnew⟩ := insertEvent_ok h
  rw [hrows]
  refine ⟨once_append hc.once hnew, ?_, fun a ha c hdetails => ?_⟩
  · rw [List.flatMap_append, ← hc.derived, List.flatMap_singleton, dates_eq_nil hcompleted,
      List.append_nil]
  · rcases List.mem_append.1 ha with ha | ha
    · exact hc.compared a ha c hdetails
    · obtain rfl := List.mem_singleton.1 ha
      rw [hdetails] at hcompleted
      cases hcompleted

theorem Consistent.closeOne {now : Instant} {x x' : List String × Table CheckEvent}
    (hc : Consistent ny x.2.rows dates) (h : closeOne now x e = .ok x') :
    Consistent ny x'.2.rows dates := by
  unfold Calendar.closeOne at h
  split at h
  · obtain ⟨events, hinsert, hret⟩ := except_bind_eq_ok.1 h
    obtain rfl := Except.ok.inj hret
    exact hc.insertEvent rfl hinsert
  · obtain rfl := Except.ok.inj h
    exact hc

theorem Consistent.closeAll {now : Instant} {running : List CheckEvent}
    {x x' : List String × Table CheckEvent} (hc : Consistent ny x.2.rows dates)
    (h : running.foldlM (Calendar.closeOne now) x = .ok x') : Consistent ny x'.2.rows dates := by
  induction running generalizing x with
  | nil =>
      obtain rfl := Except.ok.inj h
      exact hc
  | cons e rest ih =>
      rw [List.foldlM_cons] at h
      obtain ⟨y, hone, hrest⟩ := except_bind_eq_ok.1 h
      exact ih (hc.closeOne hone) hrest

theorem foldlM_insertDate {events : Table CheckEvent} {rows : List CheckDate}
    {d d' : Table CheckDate} (h : rows.foldlM (insertDate events) d = .ok d') :
    d'.rows = d.rows ++ rows := by
  induction rows generalizing d with
  | nil =>
      obtain rfl := Except.ok.inj h
      rw [List.append_nil]
  | cons row rest ih =>
      rw [List.foldlM_cons] at h
      obtain ⟨d₁, hone, hrest⟩ := except_bind_eq_ok.1 h
      obtain ⟨_, -, hinsert⟩ := except_bind_eq_ok.1 hone
      obtain ⟨hadmits, rfl⟩ := Table.insert?_eq_ok_iff.1 hinsert
      rw [ih hrest, Table.rows_createOnce hadmits, List.append_assoc]
      rfl

/-- A completed check goes with the rows that it stands for. -/
def Proper (ny : NewYork) : Op → Prop
  | .insertEvent e => e.details.isCompleted = false
  | .complete e rows => rows = e.dates ny ∧ ∃ c, e.details = .completed c ∧
      ∃ results, compare ny c.calendar e.venue c.response = .ok results
  | _ => True

/-- **Every operation keeps one ending for each check, and its rows.** -/
theorem Consistent.exec {o : Op} {answer : List BrokerSession} {r : o.Res}
    (hc : Consistent ny s.calendarCheckEvents.rows s.calendarCheckDates.rows) (ho : Proper ny o)
    (h : exec o answer s = .ok (r, s')) :
    Consistent ny s'.calendarCheckEvents.rows s'.calendarCheckDates.rows := by
  cases o with
  | clock =>
      cases h
      exact hc
  | getCalendar broker start stop =>
      cases h
      exact hc
  | insertEvent e =>
      obtain ⟨events, hinsert, hret⟩ := except_bind_eq_ok.1 h
      cases hret
      exact hc.insertEvent ho hinsert
  | close now =>
      obtain ⟨x, hall, hret⟩ := except_bind_eq_ok.1 h
      cases hret
      have hstart : Consistent ny
          (([], s.calendarCheckEvents) : List String × Table CheckEvent).2.rows
          s.calendarCheckDates.rows := hc
      exact hstart.closeAll hall
  | complete e rows =>
      obtain ⟨s₁, hcomplete, hret⟩ := except_bind_eq_ok.1 h
      cases hret
      obtain ⟨events, hinsert, hrest⟩ := except_bind_eq_ok.1 hcomplete
      obtain ⟨dates, hdates, hret⟩ := except_bind_eq_ok.1 hrest
      cases hret
      obtain ⟨rfl, c, hdetails, results, hcompare⟩ := ho
      obtain ⟨hrows, hnew⟩ := insertEvent_ok hinsert
      rw [foldlM_insertDate hdates, hrows]
      refine ⟨once_append hc.once hnew, ?_, fun a ha c' hdetails' => ?_⟩
      · rw [List.flatMap_append, ← hc.derived, List.flatMap_singleton]
      · rcases List.mem_append.1 ha with ha | ha
        · exact hc.compared a ha c' hdetails'
        · obtain rfl := List.mem_singleton.1 ha
          rw [hdetails] at hdetails'
          obtain rfl := Details.completed.inj hdetails'
          exact ⟨results, hcompare⟩

theorem pairwise_dates (ny : NewYork) (e : CheckEvent) :
    (e.dates ny).Pairwise fun a b => a.date < b.date := by
  unfold CheckEvent.dates
  split
  · split
    · rename_i rows hcompare
      exact List.pairwise_map.2 (pairwise_compare hcompare)
    · exact .nil
  · exact .nil

/-- A check that completes is stamped after the rows that its own join. -/
def InOrder : Op → List BrokerSession → Evidence → Prop
  | .complete _ rows, _, s =>
      ∀ d ∈ rows, ∀ old ∈ s.calendarCheckDates.rows, SameDay old d → old.stamp < d.stamp
  | _, _, _ => True

instance (o : Op) (answer : List BrokerSession) (s : Evidence) : Decidable (InOrder o answer s) :=
  match o with
  | .complete _ rows => inferInstanceAs (Decidable (∀ d ∈ rows, ∀ old ∈ s.calendarCheckDates.rows,
      SameDay old d → old.stamp < d.stamp))
  | .clock => isTrue trivial
  | .insertEvent _ => isTrue trivial
  | .getCalendar _ _ _ => isTrue trivial
  | .close _ => isTrue trivial

theorem Ordered.exec {o : Op} {answer : List BrokerSession} {r : o.Res}
    (hord : Ordered s.calendarCheckDates.rows) (ho : Proper ny o) (hin : InOrder o answer s)
    (h : exec o answer s = .ok (r, s')) : Ordered s'.calendarCheckDates.rows := by
  cases o with
  | clock =>
      cases h
      exact hord
  | getCalendar broker start stop =>
      cases h
      exact hord
  | insertEvent e =>
      obtain ⟨events, -, hret⟩ := except_bind_eq_ok.1 h
      cases hret
      exact hord
  | close now =>
      obtain ⟨x, -, hret⟩ := except_bind_eq_ok.1 h
      cases hret
      exact hord
  | complete e rows =>
      obtain ⟨s₁, hcomplete, hret⟩ := except_bind_eq_ok.1 h
      cases hret
      obtain ⟨events, -, hrest⟩ := except_bind_eq_ok.1 hcomplete
      obtain ⟨dates, hdates, hret⟩ := except_bind_eq_ok.1 hrest
      cases hret
      obtain ⟨rfl, -⟩ := ho
      rw [foldlM_insertDate hdates]
      refine List.pairwise_append.2 ⟨hord, ?_, fun a ha b hb hsame => hin b hb a ha hsame⟩
      -- one check has one row for each day
      exact (pairwise_dates ny e).imp fun hlt hsame => absurd hsame.2.2 (ne_of_lt hlt)

end Keeping

/-! ### What the calls do -/

section Running

variable {ny : NewYork}

theorem dates_completed {base : CheckBase} {receivedAt : Instant} {a : CheckAsk}
    {sessions : List BrokerSession} {rows : List DateResult}
    (h : compare ny a.calendar base.venue sessions = .ok rows) :
    CheckEvent.dates ny
        ⟨base, .completed ⟨receivedAt, sessions, rows.length, a.calendar⟩, receivedAt⟩ =
      dateRows base receivedAt rows := by
  simp only [CheckEvent.dates, h]

theorem uses_record (a : CheckAsk) (base : CheckBase) (receivedAt : Instant)
    (sessions : List BrokerSession) : (record ny a base receivedAt sessions).Uses (Proper ny) := by
  refine Prog.Uses.bind (fun _ => ?_) ((Prog.uses_perform _).2 rfl)
  split
  · exact Prog.Uses.bind (fun _ => Prog.uses_done _) ((Prog.uses_perform _).2 rfl)
  · rename_i rows hcompare
    refine Prog.Uses.bind (fun _ => Prog.uses_done _) ((Prog.uses_perform _).2 ?_)
    exact ⟨(dates_completed hcompare).symm, _, rfl, rows, hcompare⟩

theorem uses_receivedAt (a : CheckAsk) (now : Instant) : (a.receivedAt now).Uses (Proper ny) := by
  unfold CheckAsk.receivedAt
  cases a.clocked with
  | true => exact (Prog.uses_perform Op.clock).2 trivial
  | false => exact Prog.uses_done now

theorem uses_runCheck (a : CheckAsk) : (runCheck ny a).Uses (Proper ny) := by
  refine Prog.Uses.bind (fun now => ?_) ((Prog.uses_perform _).2 trivial)
  refine Prog.Uses.bind (fun _ => ?_) ((Prog.uses_perform _).2 rfl)
  refine Prog.Uses.bind (fun answer => ?_) ?_
  · cases answer with
    | error e => exact Prog.Uses.bind (fun _ => Prog.uses_done _) ((Prog.uses_perform _).2 rfl)
    | ok sessions =>
        exact Prog.Uses.bind (fun receivedAt => uses_record a _ receivedAt sessions)
          (uses_receivedAt a now)
  · exact Prog.Uses.tryCatch (fun _ => Prog.uses_done _)
      (Prog.Uses.bind (fun _ => Prog.uses_done _) ((Prog.uses_perform _).2 trivial))

theorem uses_call (c : Call) : ((checks ny).call c).Uses (Proper ny) := by
  cases c with
  | runCheck a => exact Prog.Uses.bind (fun _ => Prog.uses_done _) (uses_runCheck a)
  | closeInterrupted =>
      refine Prog.Uses.bind (fun _ => Prog.uses_done _) ?_
      exact Prog.Uses.bind (fun now => (Prog.uses_perform (Op.close now)).2 trivial)
        ((Prog.uses_perform _).2 trivial)

/-- The setting in which an invariant is all that the calls know. -/
def keeping (I : Evidence → Prop) (cond : Op → List BrokerSession → Evidence → Prop) :
    Setting Evidence (List BrokerSession) Raised Op.Res where
  exec := exec
  inv := I
  rely _ _ := True
  cond := cond
  guar _ _ _ := True

theorem sound_keeping {I : Evidence → Prop} {cond : Op → List BrokerSession → Evidence → Prop}
    (hop : ∀ o answer s r s', Proper ny o → I s → cond o answer s →
      exec o answer s = .ok (r, s') → I s')
    (hclock : ∀ s t, I s → I { s with clock := t }) :
    Pool.Sound (checks ny) (keeping I cond) where
  exec := rfl
  guar _ _ _ _ _ _ := trivial
  env t s s' hs h := by
    simp only [checks] at h
    split at h
    · obtain rfl := Option.some.inj h
      exact ⟨hclock s t hs, trivial⟩
    · cases h
  call c s _ := by
    refine ⟨fun _ => True, .const True, trivial, ?_⟩
    exact Sat.of_uses (.const True) (fun o answer s r s' ho hs _ hcond h =>
      ⟨hop o answer s r s' ho hs hcond h, trivial, trivial⟩) (uses_call c)

end Running
/-! ### The rows of a broker, venue and day -/

section Rows

variable {ny : NewYork} {s : Evidence} {e : CheckEvent} {d : CheckDate} {broker : String}
  {venue : Venue} {day : Day}

/-- A row of a broker, venue and day. -/
def OfDay (broker : String) (venue : Venue) (day : Day) (d : CheckDate) : Bool :=
  d.broker = broker ∧ d.venue = venue ∧ d.date = day

theorem mem_dates (h : d ∈ e.dates ny) :
    e.details.isCompleted = true ∧ d.checkId = e.checkId ∧ d.broker = e.broker ∧
      d.venue = e.venue := by
  unfold CheckEvent.dates at h
  split at h
  · rename_i c hdetails
    split at h
    · obtain ⟨row, -, rfl⟩ := List.mem_map.1 h
      exact ⟨by rw [hdetails]; rfl, rfl, rfl, rfl⟩
    · cases h
  · cases h

theorem dates_eq {c : Completion} {rows : List DateResult} (hdetails : e.details = .completed c)
    (hcompare : compare ny c.calendar e.venue c.response = .ok rows) :
    e.dates ny = dateRows e.toCheckBase c.receivedAt rows := by
  simp only [CheckEvent.dates, hdetails, hcompare]

theorem filter_dateRows (base : CheckBase) (receivedAt : Instant) (rows : List DateResult) :
    (dateRows base receivedAt rows).filter (OfDay base.broker base.venue day) =
      dateRows base receivedAt (rows.filter fun r => r.date = day) := by
  rw [dateRows, List.filter_map, dateRows]
  congr 1
  refine List.filter_congr fun r _ => ?_
  simp [OfDay, CheckDate.date, dateRow]

/-- A check that covers a day has one row for it, which says whether broker and library agree. -/
theorem latest_dates_covers (hvenue : e.venue ≠ .crypto) (hcovers : e.CoversDay day)
    (hcompared : ∀ c, e.details = .completed c →
      ∃ rows, compare ny c.calendar e.venue c.response = .ok rows) :
    ∃ d c, latest (OfDay e.broker e.venue day) (e.dates ny) = some d ∧
      e.details = .completed c ∧ d.checkedAt = c.receivedAt ∧
      (d.result = .agreed ↔ Agrees ny c.calendar e.venue c.response day) := by
  unfold CheckEvent.CoversDay at hcovers
  split at hcovers
  · rename_i c hdetails
    obtain ⟨rows, hcompare⟩ := hcompared c hdetails
    obtain ⟨r, hrow, hresult⟩ := (filter_compare hvenue hcompare).1 hcovers
    have hdates : (e.dates ny).filter (OfDay e.broker e.venue day) =
        dateRows e.toCheckBase c.receivedAt [r] := by
      rw [dates_eq hdetails hcompare, filter_dateRows, hrow]
    refine ⟨dateRow e.toCheckBase c.receivedAt r, c, ?_, hdetails, rfl, hresult⟩
    rw [← latest_filter, hdates, dateRows, List.map_singleton, latest_singleton, if_pos]
    have hmem : r ∈ rows.filter fun r => r.date = day := by
      rw [hrow]
      exact List.mem_singleton_self r
    simpa [OfDay, CheckDate.date, dateRow] using (List.mem_filter.1 hmem).2
  · exact hcovers.elim

/-- A check that does not cover a day has no row for it. -/
theorem latest_dates_none (hvenue : venue ≠ .crypto)
    (hother : ¬ (e.broker = broker ∧ e.venue = venue ∧ e.CoversDay day)) :
    latest (OfDay broker venue day) (e.dates ny) = none := by
  refine latest_eq_none_iff.2 fun d hd => ?_
  by_contra hof
  obtain ⟨hbroker, hdvenue, hday⟩ : d.broker = broker ∧ d.venue = venue ∧ d.date = day := by
    simpa [OfDay] using hof
  obtain ⟨hcompleted, -, hdb, hdv⟩ := mem_dates hd
  refine hother ⟨hdb.symm.trans hbroker, hdv.symm.trans hdvenue, ?_⟩
  have hevenue : e.venue ≠ .crypto := by rwa [← hdv, hdvenue]
  unfold CheckEvent.CoversDay
  split
  · rename_i c hdetails
    by_contra hcovers
    cases hcompare : compare ny c.calendar e.venue c.response with
    | error invalid =>
        simp only [CheckEvent.dates, hdetails, hcompare] at hd
        cases hd
    | ok rows =>
        rw [dates_eq hdetails hcompare] at hd
        obtain ⟨r, hr, rfl⟩ := List.mem_map.1 hd
        -- a result of that day is covered
        have hnone := (filter_compare hevenue hcompare).2 hcovers
        have hmem : r ∈ rows.filter fun r => r.date = day :=
          List.mem_filter.2 ⟨hr, by simpa [CheckDate.date, dateRow] using hday⟩
        rw [hnone] at hmem
        cases hmem
  · rename_i hnot
    cases hdetails : e.details with
    | completed c => exact hnot c hdetails
    | _ =>
        rw [hdetails] at hcompleted
        cases hcompleted

variable (hc : Consistent ny s.calendarCheckEvents.rows s.calendarCheckDates.rows)
include hc

theorem Consistent.completed (hd : d ∈ s.calendarCheckDates.rows) :
    ∃ e ∈ s.calendarCheckEvents.rows, e.checkId = d.checkId ∧ e.broker = d.broker ∧
      e.venue = d.venue ∧ e.details.isCompleted = true := by
  rw [hc.derived] at hd
  obtain ⟨e, he, hde⟩ := List.mem_flatMap.1 hd
  obtain ⟨hcompleted, hid, hbroker, hvenue⟩ := mem_dates hde
  exact ⟨e, he, hid.symm, hbroker.symm, hvenue.symm, hcompleted⟩

theorem Consistent.latest_row (hvenue : venue ≠ .crypto) :
    latest (OfDay broker venue day) s.calendarCheckDates.rows =
      (s.latestCheck broker venue day).bind fun e =>
        latest (OfDay broker venue day) (e.dates ny) := by
  rw [hc.derived, latest_flatMap, Evidence.latestCheck]
  congr 1
  refine latest_congr fun e he => ?_
  by_cases hcovers : e.broker = broker ∧ e.venue = venue ∧ e.CoversDay day
  · obtain ⟨rfl, rfl, hday⟩ := hcovers
    obtain ⟨d, -, hlatest, -⟩ := latest_dates_covers hvenue hday (hc.compared e he)
    rw [hlatest]
    simp [hday]
  · rw [latest_dates_none hvenue hcovers]
    simpa using hcovers

theorem Consistent.found_eq : s.found venue day = byStamp CheckDate.stamp
    (s.calendarCheckDates.rows.filter fun d => d.venue = venue ∧ d.date = day) := by
  rw [Evidence.found]
  congr 1
  refine List.filter_congr fun d hd => ?_
  obtain ⟨e, he, hid, -, -, hcompleted⟩ := hc.completed hd
  have hexists : ∃ e ∈ s.calendarCheckEvents.rows, e.checkId = d.checkId ∧
      e.details.isCompleted = true := ⟨e, he, hid, hcompleted⟩
  simp only [hexists, and_true]

/-- **The row that a question finds last is that of the check that completed last.** -/
theorem Consistent.latest_found (hord : Ordered s.calendarCheckDates.rows)
    (hvenue : venue ≠ .crypto) :
    latest (fun d => d.broker = broker) (s.found venue day) =
      (s.latestCheck broker venue day).bind fun e =>
        latest (OfDay broker venue day) (e.dates ny) := by
  rw [hc.found_eq, latest_byStamp, latest_of_filter, ← hc.latest_row hvenue]
  · refine latest_congr fun d _ => ?_
    simp only [OfDay, Bool.and_eq_decide, decide_eq_true_eq]
    congr 1
    exact propext ⟨fun h => ⟨h.2, h.1⟩, fun h => ⟨h.2, h.1⟩⟩
  · rw [List.filter_filter]
    refine (hord.filter _).imp_of_mem fun {a b} ha hb hlt => hlt ?_
    simp only [List.mem_filter, Bool.and_eq_true, decide_eq_true_eq] at ha hb
    exact ⟨ha.2.1.trans hb.2.1.symm, ha.2.2.1.trans hb.2.2.1.symm, ha.2.2.2.trans hb.2.2.2.symm⟩

end Rows

/-! ### The loop over the rows -/

section Loop

variable {ny : NewYork} {g : CalendarGate} {now : Instant} {rows : List CheckDate} {broker : String}

theorem latest_tally (t : Tally) : (rows.foldl (g.tally ny now) t).latest =
    rows.foldl (fun l d => if decide (d.broker ∈ g.brokers) then
      l.insert d.broker (d.result, d.checkedAt) else l) t.latest := by
  induction rows generalizing t with
  | nil => rfl
  | cons d rest ih =>
      rw [List.foldl_cons, List.foldl_cons, ih]
      congr 1
      unfold CalendarGate.tally
      by_cases hd : d.broker ∈ g.brokers <;> simp [hd]

theorem lookup_tally (hbroker : broker ∈ g.brokers) :
    (rows.foldl (g.tally ny now) {}).latest.lookup broker =
      (latest (fun d => d.broker = broker) rows).map fun d => (d.result, d.checkedAt) := by
  rw [latest_tally, lookup_foldl_insert, AList.lookup_empty, Option.or_none]
  congr 1
  refine latest_congr fun d _ => ?_
  by_cases hd : d.broker = broker
  · simp [hd, hbroker]
  · simp [hd]

theorem of_mem_agreedFresh (h : broker ∈ (rows.foldl (g.tally ny now) {}).agreedFresh) :
    ∃ d ∈ rows, d.broker = broker ∧ d.result = .agreed ∧ g.fresh ny d.checkedAt now = true := by
  induction rows using List.reverseRecOn with
  | nil => cases h
  | append_singleton rest d ih =>
      rw [List.foldl_append, List.foldl_cons, List.foldl_nil, CalendarGate.tally] at h
      split at h
      · split at h
        · rename_i hfresh
          rcases List.mem_cons.1 h with rfl | h
          · exact ⟨d, by simp, rfl, hfresh.1, hfresh.2⟩
          · obtain ⟨d', hd', hrest⟩ := ih h
            exact ⟨d', List.mem_append_left _ hd', hrest⟩
        · obtain ⟨d', hd', hrest⟩ := ih h
          exact ⟨d', List.mem_append_left _ hd', hrest⟩
      · obtain ⟨d', hd', hrest⟩ := ih h
        exact ⟨d', List.mem_append_left _ hd', hrest⟩

end Loop
/-! ### What the status of a day says -/

/-- Each check ends with at most one of `completed` and `failed`. -/
def EndsOnce (s : Evidence) : Prop :=
  ∀ a ∈ s.calendarCheckEvents.rows, ∀ b ∈ s.calendarCheckEvents.rows, a.checkId = b.checkId →
    a.details.isTerminal = true → b.details.isTerminal = true → a = b

/-- Date rows exist only for completed checks. -/
def FromCompleted (s : Evidence) : Prop :=
  ∀ d ∈ s.calendarCheckDates.rows, ∃ e ∈ s.calendarCheckEvents.rows, e.checkId = d.checkId ∧
    e.broker = d.broker ∧ e.venue = d.venue ∧ e.details.isCompleted = true

/-- No row of a connected broker is of a later date than the question where an earlier row of the
broker is fresh. -/
def Timely (ny : NewYork) (g : CalendarGate) (venue : Venue) (day : Day) (now : Instant)
    (s : Evidence) : Prop :=
  ∀ broker ∈ g.brokers, ∀ d ∈ s.calendarCheckDates.rows, ∀ d' ∈ s.calendarCheckDates.rows,
    OfDay broker venue day d = true → OfDay broker venue day d' = true → d.result = .agreed →
      g.fresh ny d.checkedAt now = true → ny.nyDate d'.checkedAt ≤ ny.nyDate now

/-- The status of a venue and day follows the checks that completed last. -/
structure Answers (ny : NewYork) (s : Evidence) : Prop where
  verified : ∀ (g : CalendarGate) (venue : Venue) (day : Day) (now : Instant), venue ≠ .crypto →
    g.calendar.WithinHorizon day → Timely ny g venue day now s →
      g.status ny venue day now s = .verified → ∀ broker ∈ g.brokers,
        ∃ e c, s.latestCheck broker venue day = some e ∧ e.details = .completed c ∧
          Agrees ny c.calendar venue c.response day ∧ g.fresh ny c.receivedAt now = true
  contested : ∀ (g : CalendarGate) (venue : Venue) (day : Day) (now : Instant), venue ≠ .crypto →
    g.calendar.WithinHorizon day → ∀ broker ∈ g.brokers, ∀ e c,
      s.latestCheck broker venue day = some e → e.details = .completed c →
        ¬ Agrees ny c.calendar venue c.response day → g.status ny venue day now s = .contested

section Status

variable {ny : NewYork} {s : Evidence}

theorem Consistent.endsOnce
    (hc : Consistent ny s.calendarCheckEvents.rows s.calendarCheckDates.rows) : EndsOnce s := by
  intro a ha b hb hid hta htb
  by_contra hne
  have : Std.Symm fun a b : CheckEvent => a.checkId = b.checkId →
      ¬ (a.details.isTerminal = true ∧ b.details.isTerminal = true) :=
    ⟨fun a b h hid hterminal => h hid.symm hterminal.symm⟩
  have hapart : s.calendarCheckEvents.rows.Pairwise fun a b => a.checkId = b.checkId →
      ¬ (a.details.isTerminal = true ∧ b.details.isTerminal = true) := by
    refine hc.once.imp fun hpair hid hterminal => ?_
    rw [hpair hid hterminal.1] at hterminal
    exact absurd hterminal.2 (by simp)
  exact hapart.forall ha hb hne hid ⟨hta, htb⟩

theorem Consistent.last_row
    (hc : Consistent ny s.calendarCheckEvents.rows s.calendarCheckDates.rows)
    (hord : Ordered s.calendarCheckDates.rows) {broker : String} {venue : Venue} {day : Day}
    (hvenue : venue ≠ .crypto) {e : CheckEvent} (he : s.latestCheck broker venue day = some e) :
    ∃ d c, latest (fun d => d.broker = broker) (s.found venue day) = some d ∧
      e.details = .completed c ∧ d.checkedAt = c.receivedAt ∧
      (d.result = .agreed ↔ Agrees ny c.calendar venue c.response day) := by
  obtain ⟨hmem, hcovers⟩ := mem_of_latest he
  obtain ⟨rfl, rfl, hday⟩ : e.broker = broker ∧ e.venue = venue ∧ e.CoversDay day := by
    simpa using hcovers
  obtain ⟨d, c, hlatest, hdetails, hat, hresult⟩ :=
    latest_dates_covers hvenue hday (hc.compared e hmem)
  exact ⟨d, c, by rw [hc.latest_found hord hvenue, he, Option.bind_some, hlatest], hdetails, hat,
    hresult⟩

theorem Consistent.of_found
    (hc : Consistent ny s.calendarCheckEvents.rows s.calendarCheckDates.rows) {venue : Venue}
    {day : Day} {d : CheckDate} (hd : d ∈ s.found venue day) :
    d ∈ s.calendarCheckDates.rows ∧ OfDay d.broker venue day d = true := by
  rw [hc.found_eq, mem_byStamp, List.mem_filter] at hd
  exact ⟨hd.1, by simpa [OfDay] using hd.2⟩

/-- A row that is stamped later is fresh where an earlier one is, if it is not of a later date than
the question. -/
theorem fresh_of_le {g : CalendarGate} {checkedAt checkedAt' now : Instant}
    (hle : checkedAt ≤ checkedAt') (hfresh : g.fresh ny checkedAt now = true)
    (hdate : ny.nyDate checkedAt' ≤ ny.nyDate now) : g.fresh ny checkedAt' now = true := by
  simp only [CalendarGate.fresh, decide_eq_true_eq] at hfresh ⊢
  have hcount : g.calendar.sessionsAfterCount (ny.nyDate checkedAt') (ny.nyDate now) ≤
      g.calendar.sessionsAfterCount (ny.nyDate checkedAt) (ny.nyDate now) :=
    MarketCalendar.sessionsAfterCount_anti _ (ny.nyDate_mono hle)
  exact ⟨hdate, hcount.trans hfresh.2⟩

theorem checkedAt_le {a b : CheckDate} (h : a.stamp ≤ b.stamp) : a.checkedAt ≤ b.checkedAt := by
  rcases Prod.Lex.le_iff.1 h with hlt | ⟨heq, -⟩
  · exact hlt.le
  · exact heq.le

theorem Consistent.answers
    (hc : Consistent ny s.calendarCheckEvents.rows s.calendarCheckDates.rows)
    (hord : Ordered s.calendarCheckDates.rows) : Answers ny s where
  verified g venue day now hvenue hwithin htimely hstatus broker hbroker := by
    unfold CalendarGate.status at hstatus
    rw [if_neg hvenue, if_neg (not_not.2 hwithin)] at hstatus
    split at hstatus
    · cases hstatus
    dsimp only at hstatus
    split at hstatus
    · cases hstatus
    split at hstatus
    · rename_i hall
      have hone := List.all_eq_true.1 hall broker hbroker
      simp only [decide_eq_true_eq] at hone
      obtain ⟨hagreed, hlast⟩ := hone
      obtain ⟨d₀, hd₀, hb₀, hresult₀, hfresh₀⟩ := of_mem_agreedFresh hagreed
      rw [lookup_tally hbroker] at hlast
      cases hlatest : latest (fun d => d.broker = broker) (s.found venue day) with
      | none =>
          rw [hlatest] at hlast
          cases hlast
      | some d =>
          rw [hlatest] at hlast
          have hresult : d.result = .agreed := by simpa using hlast
          cases he : s.latestCheck broker venue day with
          | none =>
              rw [hc.latest_found hord hvenue, he] at hlatest
              cases hlatest
          | some e =>
              obtain ⟨d', c, hlatest', hdetails, hat, hagree⟩ := hc.last_row hord hvenue he
              rw [hlatest] at hlatest'
              obtain rfl := Option.some.inj hlatest'
              -- the last row is stamped no earlier than the one that was found fresh
              obtain ⟨hmem, hof⟩ := mem_of_latest hlatest
              have hb : d.broker = broker := by simpa using hof
              obtain ⟨hin, hday⟩ := hc.of_found hmem
              obtain ⟨hin₀, hday₀⟩ := hc.of_found hd₀
              rw [hb] at hday
              rw [hb₀] at hday₀
              have hle : d₀.checkedAt ≤ d.checkedAt := by
                rw [hc.found_eq] at hlatest hd₀
                exact checkedAt_le
                  (le_of_latest_byStamp hlatest (mem_byStamp.1 hd₀) (by simpa using hb₀))
              have hdate := htimely broker hbroker d₀ hin₀ d hin hday₀ hday hresult₀ hfresh₀
              exact ⟨e, c, rfl, hdetails, hagree.1 hresult, hat ▸ fresh_of_le hle hfresh₀ hdate⟩
    · cases hstatus
  contested g venue day now hvenue hwithin broker hbroker e c he hdetails hdisagree := by
    obtain ⟨d, c', hlatest, hdetails', -, hagree⟩ := hc.last_row hord hvenue he
    obtain rfl : c = c' := Details.completed.inj (hdetails.symm.trans hdetails')
    have hresult : d.result = .contested := by
      cases hr : d.result with
      | contested => rfl
      | agreed => exact absurd (hagree.1 hr) hdisagree
    have hlookup : ((s.found venue day).foldl (g.tally ny now) {}).latest.lookup broker =
        some (d.result, d.checkedAt) := by
      rw [lookup_tally hbroker, hlatest, Option.map_some]
    have hsome : g.brokers ≠ [] := List.ne_nil_of_mem hbroker
    unfold CalendarGate.status
    rw [if_neg hvenue, if_neg (not_not.2 hwithin), if_neg hsome]
    refine if_pos (List.any_eq_true.2
      ⟨⟨broker, (d.result, d.checkedAt)⟩, ?_, by simpa using hresult⟩)
    exact AList.mem_lookup_iff.1 hlookup

end Status

/-! ### Every run -/

/-- **Every check ends once and rows come from completed checks; and where checks complete in the
order of their stamps, the status of a day follows the checks that completed last.** -/
theorem calendar_evidence (ny : NewYork) (start : Instant) :
    (∀ w, (Pool.machine (checks ny)).Reaches (fun _ _ => True) ⟨{ clock := start }, []⟩ w →
      EndsOnce w.store ∧ FromCompleted w.store) ∧
    ∀ w, (Pool.machine (checks ny)).Reaches (Pool.Meets InOrder) ⟨{ clock := start }, []⟩ w →
      Answers ny w.store := by
  have hstart : Consistent ny ([] : List CheckEvent) [] := by
    refine ⟨.nil, rfl, fun e he => ?_⟩
    cases he
  constructor
  · intro w hw
    let I : Evidence → Prop := fun s =>
      Consistent ny s.calendarCheckEvents.rows s.calendarCheckDates.rows
    have hsound : Pool.Sound (checks ny) (keeping I fun _ _ _ => True) :=
      sound_keeping (fun o answer s r s' ho hs _ h => Consistent.exec hs ho h) fun s t hs => hs
    have hinit : I { clock := start } := hstart
    have hgood := hsound.good (Pool.good_init hinit)
      (hw.mono fun _ _ _ => Pool.meets_of_forall fun _ _ _ => trivial)
    exact ⟨hgood.1.endsOnce, fun d hd => hgood.1.completed hd⟩
  · intro w hw
    let I : Evidence → Prop := fun s =>
      Consistent ny s.calendarCheckEvents.rows s.calendarCheckDates.rows ∧
        Ordered s.calendarCheckDates.rows
    have hsound : Pool.Sound (checks ny) (keeping I InOrder) :=
      sound_keeping (fun o answer s r s' ho hs hin h =>
        ⟨Consistent.exec hs.1 ho h, Ordered.exec hs.2 ho hin h⟩) fun s t hs => hs
    have hinit : I { clock := start } := ⟨hstart, .nil⟩
    have hgood := hsound.good (Pool.good_init hinit) hw
    exact hgood.1.1.answers hgood.1.2

/-- The clock of New York in winter, five hours behind UTC. -/
def winter : NewYork where
  nyDate t := (t - seconds 18000) / seconds 86400
  nyTime day minutes := midnight day + seconds (60 * minutes) + seconds 18000
  nyDate_mono := by
    intro t t' hle
    exact Int.ediv_le_ediv (by decide) (Int.sub_le_sub_right hle _)

/-- Tuesday, 5 January 2027, and the sessions of the days around it. -/
def tuesday : Day := 20823

def week : MarketCalendar where
  equity := [⟨20822, winter.nyTime 20822 570, winter.nyTime 20822 960⟩,
    ⟨20823, winter.nyTime 20823 570, winter.nyTime 20823 960⟩,
    ⟨20824, winter.nyTime 20824 570, winter.nyTime 20824 960⟩]
  first := 20800
  last := 20900
  sorted := by decide

/-- An answer with one session, which ends at some minute of the day. -/
def answering (minutes : ℕ) : List BrokerSession :=
  [⟨.usEquity, tuesday, winter.nyTime tuesday 570, winter.nyTime tuesday minutes,
    "alpaca:/v2/calendar"⟩]

/-- The gate of one connected broker. -/
def oneBroker : CalendarGate := ⟨week, ["alpaca"]⟩

def askAs (checkId : String) : Call := .runCheck ⟨checkId, "alpaca", .usEquity, week, false⟩

/-- A check from its start to its end. -/
def wholeCheck (j minutes : ℕ) (checkId : String) :
    List (Act (List BrokerSession) Raised Call Instant) :=
  [.start (askAs checkId), .run j [], .run j [], .run j (answering minutes), .run j [], .run j []]

/-- A check that contests its day, and one that agrees with it a minute later. -/
theorem calendar_evidence_again : ∃ w,
    (Pool.machine (checks winter)).Reaches (Pool.Meets InOrder)
      ⟨{ clock := winter.nyTime tuesday 480 }, []⟩ w ∧
    (w.store.calendarCheckDates.rows.map (·.result) = [.contested, .agreed] ∧
      oneBroker.status winter .usEquity tuesday w.store.clock w.store = .verified) ∧
    EndsOnce w.store ∧ Answers winter w.store := by
  have hrun : ((Pool.machine (checks winter)).runUnder (Pool.Meets InOrder)
      ⟨{ clock := winter.nyTime tuesday 480 }, []⟩
      (wholeCheck 0 780 "a" ++ [.env (winter.nyTime tuesday 481)] ++ wholeCheck 1 960 "b")).any
        (fun w => decide (w.store.calendarCheckDates.rows.map (·.result) = [.contested, .agreed] ∧
          oneBroker.status winter .usEquity tuesday w.store.clock w.store = .verified)) =
      true := by
    decide +kernel
  obtain ⟨w, hreaches, hstatus⟩ := Machine.exists_of_runUnder hrun
  have hevidence := calendar_evidence winter (winter.nyTime tuesday 480)
  exact ⟨w, hreaches, hstatus, (hevidence.1 w (hreaches.mono fun _ _ _ => trivial)).1,
    hevidence.2 w hreaches⟩

/-- A completed check that does not agree with the library on a day. -/
def CheckEvent.Disagrees (ny : NewYork) (e : CheckEvent) (day : Day) : Prop :=
  match e.details with
  | .completed c => ¬ Agrees ny c.calendar e.venue c.response day
  | _ => False

instance (ny : NewYork) (e : CheckEvent) (day : Day) : Decidable (e.Disagrees ny day) :=
  match h : e.details with
  | .completed c =>
      decidable_of_iff (¬ Agrees ny c.calendar e.venue c.response day)
        (by rw [CheckEvent.Disagrees, h])
  | .started _ => isFalse (by rw [CheckEvent.Disagrees, h]; exact id)
  | .fetched _ _ => isFalse (by rw [CheckEvent.Disagrees, h]; exact id)
  | .failed _ => isFalse (by rw [CheckEvent.Disagrees, h]; exact id)

/-- A check is started, and waits for its answer while another one is started a minute later and
completes. -/
def overtaken : List (Act (List BrokerSession) Raised Call Instant) :=
  List.flatten
    [ [.start (askAs "slow"), .run 0 [], .run 0 [], .env (winter.nyTime tuesday 481)],
      wholeCheck 1 960 "quick",
      [.env (winter.nyTime tuesday 490), .run 0 (answering 780), .run 0 [], .run 0 []] ]

/-- **A check that answers slowly is overtaken by its successor**: the one that completed last found
that the broker closes at 13:00, and the day is verified. -/
theorem calendar_overtaken : ∃ w,
    (Pool.machine (checks winter)).Reaches (fun _ _ => True)
      ⟨{ clock := winter.nyTime tuesday 480 }, []⟩ w ∧
    oneBroker.status winter .usEquity tuesday w.store.clock w.store = .verified ∧
    ∃ e, w.store.latestCheck "alpaca" .usEquity tuesday = some e ∧
      e.Disagrees winter tuesday := by
  have hrun : ((Pool.machine (checks winter)).run
      ⟨{ clock := winter.nyTime tuesday 480 }, []⟩ overtaken).any (fun w =>
        decide (oneBroker.status winter .usEquity tuesday w.store.clock w.store = .verified ∧
          (w.store.latestCheck "alpaca" .usEquity tuesday).any
            (fun e => decide (e.Disagrees winter tuesday)) = true)) = true := by
    decide +kernel
  obtain ⟨w, hreaches, hstatus, hlast⟩ := Machine.exists_of_run hrun
  obtain ⟨e, he, hdisagrees⟩ := (Option.any_eq_true _ _).1 hlast
  exact ⟨w, hreaches, hstatus, e, he, of_decide_eq_true hdisagrees⟩

end Calendar

end TradePulse
