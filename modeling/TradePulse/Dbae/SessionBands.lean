/-
**One baseline for each session, and the bands below it.**

The row of a session is written once, by whichever entry gets there first, and nobody replaces it.
An entry that returns a baseline has read it from this row or has written the row, and it has made
sure that the event of the capture is in the audit trail, so that an entry that ended between the
two is repaired by the next.  This holds in every run of any number of entries, whatever fails.

The band of an entry is at most that of the baseline.  So a deposit, a gain within the session or a
restart unlocks nothing before the next session.

The changes of the band are numbered.  A writer reads the last of them and inserts the next number,
and of two writers that race for one number one is dropped; its change is not recorded, but the
changes that are recorded follow one another without a gap.

Main definitions:

* `Holds`, `Captured` — the row of a baseline, and its row with its event;
* `Agreed` — a row that a check of the bars stands behind;
* `Follows` — a change of the band, after the one before it.

Main results:

* `sat_entryBaseline` — what an entry knows of the baseline it returns;
* `session_baseline_bounds_entries` — **in every run, the entries of a session share one baseline,
  which is recorded, and no entry has a band above it**;
* `band_changes_unbroken` — **in every run the recorded changes of the band form one chain**.
-/

import TradePulse.Calendar.Lifecycle
import TradePulse.Dbae.Baseline
import TradePulse.Dbae.Unknown

set_option autoImplicit false

namespace TradePulse

namespace Dbae

open Calendar Process Storage Record

/-! ### What is in the store -/

/-- The row of a baseline's session stands for the baseline. -/
def Holds (s : SessionStore) (b : SessionBaseline) : Prop :=
  ∃ row ∈ s.baselines, row.key = b.sessionDate ∧ decodeSessionBaseline row.payload = some b

/-- The row of a baseline and the event of its capture. -/
def Captured (s : SessionStore) (b : SessionBaseline) : Prop :=
  Holds s b ∧ capturedRow b ∈ s.auditEvents

/-- A row for a close before the session, which is not negative and agrees with the equity of the
account, captured on a day that has reached the session. -/
def Agreed (ny : NewYork) (row : BaselineRow) : Prop :=
  ∃ b : SessionBaseline, row = ⟨b.sessionDate, b.encode⟩ ∧
    b.previousTradingDate < b.sessionDate ∧ b.sessionDate ≤ ny.nyDate b.capturedAt ∧
    0 ≤ b.previousCloseEquity ∧
    |b.previousCloseEquity - b.lastEquity| ≤ AGREEMENT_TOLERANCE

/-- Nothing is taken away. -/
structure Grows (s s' : SessionStore) : Prop where
  baselines : ∀ row ∈ s.baselines, row ∈ s'.baselines
  auditEvents : ∀ e ∈ s.auditEvents, e ∈ s'.auditEvents
  decisions : ∀ d ∈ s.decisions, d ∈ s'.decisions

section Facts

variable {ny : NewYork} {s s' : SessionStore} {b b' : SessionBaseline}

theorem Grows.refl (s : SessionStore) : Grows s s := ⟨fun _ => id, fun _ => id, fun _ => id⟩

theorem Holds.mono (h : Holds s b) (hgrows : Grows s s') : Holds s' b := by
  obtain ⟨row, hrow, hkey, hdecode⟩ := h
  exact ⟨row, hgrows.baselines row hrow, hkey, hdecode⟩

theorem Captured.mono (h : Captured s b) (hgrows : Grows s s') : Captured s' b :=
  ⟨h.1.mono hgrows, hgrows.auditEvents _ h.2⟩

/-- **A session has one baseline.** -/
theorem Holds.unique (h : Holds s b) (h' : Holds s b') (hsame : b.sessionDate = b'.sessionDate) :
    b = b' := by
  obtain ⟨row, hrow, hkey, hdecode⟩ := h
  obtain ⟨row', hrow', hkey', hdecode'⟩ := h'
  have hid : recordId row = recordId row' := by
    change toString row.key = toString row'.key
    rw [hkey, hkey', hsame]
  obtain rfl := Table.eq_of_recordId hrow hrow' hid
  exact Option.some.inj (hdecode.symm.trans hdecode')

theorem capturedId_inj {day day' : Day} (h : capturedId day = capturedId day') : day = day' := by
  have hchars := congrArg String.toList h
  simp only [capturedId, String.toList_append, List.append_cancel_left_eq] at hchars
  exact Int.repr_injective (String.toList_injective hchars)

theorem isPrefix_capturedId (day : Day) : CAPTURED_ID_PREFIX.toList <+: (capturedId day).toList := by
  rw [capturedId, String.toList_append]
  exact List.prefix_append _ _

theorem isPrefix_unverifiedId (day : Day) (check : String) :
    UNVERIFIED_ID_PREFIX.toList <+: (unverifiedId day check).toList := by
  simp only [unverifiedId, String.toList_append, List.append_assoc]
  exact List.prefix_append _ _

/-- The ids of one kind of event are not those of another kind. -/
theorem not_isPrefix_of {pre pre' id : String} (hpre : pre.toList <+: id.toList)
    (hne : ¬ pre'.toList <+: pre.toList) (hne' : ¬ pre.toList <+: pre'.toList) :
    ¬ pre'.toList <+: id.toList := by
  intro hother
  rcases List.prefix_or_prefix_of_prefix hother hpre with h | h
  · exact hne h
  · exact hne' h

theorem Grows.exec (ny : NewYork) {o : EntryOp} {i : Answers} {r : o.Res}
    (h : o.exec ny i s = .ok (r, s')) :
    Grows s s' := by
  cases o with
  | createBaseline row =>
      cases h
      exact ⟨fun _ => Table.mem_createOnce_of_mem, fun _ => id, fun _ => id⟩
  | createEvent row =>
      cases h
      exact ⟨fun _ => id, fun _ => Table.mem_createOnce_of_mem, fun _ => id⟩
  | decided d =>
      cases h
      exact ⟨fun _ => id, fun _ => id, fun _ => List.mem_append_left _⟩
  | _ =>
      cases h
      exact ⟨fun _ => id, fun _ => id, fun _ => id⟩

theorem getBaseline_row {key : Day} {payload : BaselinePayload}
    (h : (s.baselines.get? (toString key)).map (·.payload) = some payload) :
    ∃ row ∈ s.baselines, row.key = key ∧ row.payload = payload := by
  obtain ⟨row, hrow, rfl⟩ := Option.map_eq_some_iff.1 h
  obtain ⟨hmem, hid⟩ := Table.get?_eq_some_iff.1 hrow
  exact ⟨row, hmem, Int.repr_injective hid, rfl⟩

theorem latestSession_le {cal : MarketCalendar} {day session : Day}
    (h : latestSessionOnOrBefore ny cal day = .ok session) : session ≤ day := by
  unfold latestSessionOnOrBefore at h
  split at h
  · cases h
  · rename_i sessions hsessions
    split at h
    · cases h
    · rename_i last hlast
      obtain rfl := Except.ok.inj h
      simp only [MarketCalendar.sessionsBetween, reduceCtorEq, if_false] at hsessions
      obtain ⟨_, -, hrest⟩ := except_bind_eq_ok.1 hsessions
      obtain ⟨_, -, hret⟩ := except_bind_eq_ok.1 hrest
      obtain rfl := Except.ok.inj hret
      obtain ⟨hours, hmem, hlibrary⟩ := List.mem_filterMap.1 (List.mem_of_getLast? hlast)
      obtain ⟨-, hbetween⟩ := List.mem_filter.1 hmem
      obtain ⟨_, -, rfl⟩ := Option.map_eq_some_iff.1 hlibrary
      have hle : hours.date ≤ day := by
        simp only [decide_eq_true_eq] at hbetween
        exact hbetween.2
      exact hle

/-- The trading day before a session is before it. -/
theorem placeSession_ok {cal : MarketCalendar} {now : Instant} {day previous : Day}
    (h : placeSession ny cal now = .ok (day, previous)) :
    previous < day ∧ day ≤ ny.nyDate now := by
  obtain ⟨day', hday, hrest⟩ := except_bind_eq_ok.1 h
  obtain ⟨previous', hprevious, hret⟩ := except_bind_eq_ok.1 hrest
  obtain ⟨rfl, rfl⟩ := Prod.mk.inj (Except.ok.inj hret)
  have hle := latestSession_le hprevious
  have hle' := latestSession_le hday
  simp only [Day] at hle hle' ⊢
  exact ⟨by omega, hle'⟩

/-- A close that passed the checks of the bars. -/
theorem judgeBars_ok {previous : Day} {lastEquity close : ℚ} {bars : List DailyEquityBar}
    (h : judgeBars previous lastEquity bars = .ok close) :
    0 ≤ close ∧ |close - lastEquity| ≤ AGREEMENT_TOLERANCE := by
  unfold judgeBars at h
  dsimp only at h
  split at h
  · cases h
  · split at h
    · cases h
    · split at h
      · cases h
      · rename_i hneg
        split at h
        · cases h
        · rename_i hdiff
          cases h
          exact ⟨not_lt.1 hneg, not_lt.1 hdiff⟩
  · cases h

end Facts

/-! ### What an entry knows of the baseline -/

/-- Every event of a capture is that of the row of its session, the entries that were judged on a
baseline have it recorded, and the rows that joined were checked. -/
structure Recorded (ny : NewYork) (s₀ s : SessionStore) : Prop where
  kept : ∀ row ∈ s₀.baselines, row ∈ s.baselines
  joined : ∀ row ∈ s.baselines, row ∈ s₀.baselines ∨ Agreed ny row
  events : ∀ e ∈ s.auditEvents, CAPTURED_ID_PREFIX.toList <+: e.eventId.toList →
    ∃ b, e = capturedRow b ∧ Holds s b
  judged : ∀ d ∈ s.decisions, (∃ c, d = judgeEntry c d.outcome) ∧
    ∀ b, d.outcome = .verified b → Captured s b

/-- An outcome that is no baseline, or one that is recorded. -/
def Known (outcome : BaselineOutcome) (s : SessionStore) : Prop :=
  ∀ b, outcome = .verified b → Captured s b

section Baselines

variable (ny : NewYork) (s₀ : SessionStore)

/-- The setting in which the baselines are judged. -/
def baselineSetting : Setting SessionStore Answers Fault EntryOp.Res where
  exec := EntryOp.exec ny
  inv := Recorded ny s₀
  rely := Grows
  cond _ _ _ := True
  guar _ := Grows

variable {ny s₀} {s s' : SessionStore} {b : SessionBaseline}

theorem stable_holds : (baselineSetting ny s₀).Stable fun s => Holds s b :=
  fun _ _ _ _ h hgrows => h.mono hgrows

theorem stable_known (outcome : BaselineOutcome) :
    (baselineSetting ny s₀).Stable (Known outcome) :=
  fun _ _ _ _ h hgrows b hb => (h b hb).mono hgrows

/-- The invariant after a step that leaves the rows and the decisions alone and adds an event. -/
theorem Recorded.createEvent {row : AuditRow} (h : Recorded ny s₀ s)
    (hrow : CAPTURED_ID_PREFIX.toList <+: row.eventId.toList →
      ∃ b, row = capturedRow b ∧ Holds s b) :
    Recorded ny s₀ { s with auditEvents := s.auditEvents.createOnce row } where
  kept := h.kept
  joined := h.joined
  events e he hprefix := by
    rcases Table.mem_createOnce.1 he with he | ⟨-, rfl⟩
    · exact h.events e he hprefix
    · exact hrow hprefix
  judged d hd := by
    obtain ⟨hjudge, hverified⟩ := h.judged d hd
    exact ⟨hjudge, fun b hb => ⟨(hverified b hb).1, Table.mem_createOnce_of_mem (hverified b hb).2⟩⟩

theorem Recorded.createBaseline {row : BaselineRow} (h : Recorded ny s₀ s)
    (hrow : Agreed ny row) :
    Recorded ny s₀ { s with baselines := s.baselines.createOnce row } := by
  have hgrows : Grows s { s with baselines := s.baselines.createOnce row } :=
    ⟨fun _ => Table.mem_createOnce_of_mem, fun _ => id, fun _ => id⟩
  refine ⟨fun r hr => hgrows.baselines r (h.kept r hr), fun r hr => ?_, fun e he hprefix => ?_,
    fun d hd => ?_⟩
  · rcases Table.mem_createOnce.1 hr with hr | ⟨-, rfl⟩
    · exact h.joined r hr
    · exact .inr hrow
  · obtain ⟨b, hb, hholds⟩ := h.events e he hprefix
    exact ⟨b, hb, hholds.mono hgrows⟩
  · obtain ⟨hjudge, hverified⟩ := h.judged d hd
    exact ⟨hjudge, fun b hb => (hverified b hb).mono hgrows⟩

/-- The steps that need no knowledge. -/
def Plain (ny : NewYork) : EntryOp → Prop
  | .createBaseline row => Agreed ny row
  | .createEvent row => ¬ CAPTURED_ID_PREFIX.toList <+: row.eventId.toList
  | .decided _ => False
  | _ => True

theorem Recorded.exec {o : EntryOp} {i : Answers} {r : o.Res} (ho : Plain ny o)
    (hinv : Recorded ny s₀ s) (h : o.exec ny i s = .ok (r, s')) : Recorded ny s₀ s' := by
  cases o with
  | createBaseline row =>
      cases h
      exact hinv.createBaseline ho
  | createEvent row =>
      cases h
      exact hinv.createEvent fun hprefix => absurd hprefix ho
  | decided d => exact ho.elim
  | _ =>
      cases h
      exact ⟨hinv.kept, hinv.joined, hinv.events, hinv.judged⟩

theorem sat_plain {α : Type} {p : Entry α} {K : SessionStore → Prop}
    (hK : (baselineSetting ny s₀).Stable K) (hp : p.Uses (Plain ny)) :
    Sat (baselineSetting ny s₀) p K (fun _ => K) fun _ _ => True :=
  (Sat.of_stable hK (fun _ _ _ _ _ h => h)
    (fun _ _ _ _ _ ho hs _ h => ⟨Recorded.exec ho hs h, Grows.exec ny h⟩) hp).mono
    (fun _ _ h => h) (fun _ _ _ h => h) fun _ _ _ _ => trivial

/-- **After the event of a capture is written, it is there**, whoever wrote it. -/
theorem sat_recordCaptured :
    Sat (baselineSetting ny s₀) (recordCaptured b) (fun s => Holds s b) Known
      fun _ _ => True := by
  refine Sat.bind_of (Q := fun _ s => Captured s b) ?_ fun _ => Sat.done fun s _ h b' hb' => ?_
  · refine Sat.perform (fun _ _ _ _ _ h hgrows => h.mono hgrows) stable_holds
      (fun _ _ _ _ => trivial) fun i s r s' hs hholds _ h => ?_
    cases h
    have hevent : Recorded ny s₀ { s with auditEvents := s.auditEvents.createOnce (capturedRow b) } :=
      hs.createEvent fun _ => ⟨b, rfl, hholds⟩
    refine ⟨hevent, Grows.exec ny (o := .createEvent (capturedRow b)) (i := i) rfl, hholds,
      ?_⟩
    -- the event under this id is that of the row of the session
    have hsome := Table.isSome_get?_createOnce_self (t := s.auditEvents) (r := capturedRow b)
      fun _ => rfl
    obtain ⟨e, he⟩ := Option.isSome_iff_exists.1 hsome
    obtain ⟨hmem, hid⟩ := Table.get?_eq_some_iff.1 he
    have hid' : e.eventId = capturedId b.sessionDate := hid
    obtain ⟨b', rfl, hholds'⟩ := hevent.events e hmem (hid' ▸ isPrefix_capturedId _)
    obtain rfl : b' = b := Holds.unique hholds' hholds (capturedId_inj hid')
    exact hmem
  · cases hb'
    exact h

theorem unverified_plain {day : Day} {check : String} {now : Instant}
    {evidence : RefusalEvidence} :
    Plain ny (.createEvent (unverifiedRow day check now evidence)) :=
  not_isPrefix_of (isPrefix_unverifiedId day check) (by decide) (by decide)

theorem bandChange_plain {change : BandChange} {now : Instant} :
    Plain ny (.createEvent (bandChangeRow change now)) := by
  have hpre : BAND_CHANGE_ID_PREFIX.toList <+: (bandChangeRow change now).eventId.toList := by
    simp only [bandChangeRow, numbered, String.toList_append]
    exact List.prefix_append _ _
  exact not_isPrefix_of hpre (by decide) (by decide)

theorem sat_refuse {day : Day} {check : String} {now : Instant} {evidence : RefusalEvidence} :
    Sat (baselineSetting ny s₀) (refuse day check now evidence) (fun _ => True) Known
      fun _ _ => True := by
  refine Sat.bind_of (Q := fun _ _ => True) ?_ fun _ => Sat.done fun s _ _ b hb => ?_
  · exact sat_plain (.const True) ((Prog.uses_perform _).2 unverified_plain)
  · cases hb

/-- A row that was read stays where it is. -/
def Stored (day : Day) (payload : BaselinePayload) (s : SessionStore) : Prop :=
  ∃ row ∈ s.baselines, row.key = day ∧ row.payload = payload

theorem stable_stored {day : Day} {payload : BaselinePayload} :
    (baselineSetting ny s₀).Stable (Stored day payload) := by
  rintro s s' - - ⟨row, hrow, hkey, hpayload⟩ hgrows
  exact ⟨row, hgrows.baselines row hrow, hkey, hpayload⟩

theorem sat_storedBaseline {day : Day} {payload : BaselinePayload} {now : Instant} :
    Sat (baselineSetting ny s₀) (storedBaseline payload day now) (Stored day payload) Known
      fun _ _ => True := by
  have refused : Sat (baselineSetting ny s₀) (refuse day "baseline_corrupt" now {})
      (Stored day payload) Known fun _ _ => True :=
    sat_refuse.mono (fun _ _ _ => trivial) (fun _ _ _ h => h) fun _ _ _ h => h
  unfold storedBaseline
  split
  · exact refused
  · rename_i b hdecode
    split
    · exact refused
    · rename_i hday
      refine sat_recordCaptured.mono (fun s _ hstored => ?_) (fun _ _ _ h => h) fun _ _ _ h => h
      obtain ⟨row, hrow, hkey, rfl⟩ := hstored
      exact ⟨row, hrow, hkey.trans (not_not.1 hday).symm, hdecode⟩

theorem sat_getBaseline {day : Day} :
    Sat (baselineSetting ny s₀) (Prog.perform (EntryOp.getBaseline day)) (fun _ => True)
      (fun (found : Option BaselinePayload) s =>
        ∀ payload, found = some payload → Stored day payload s)
      fun _ _ => True := by
  refine Sat.perform (fun found => Setting.Stable.all fun payload => .imp fun _ => stable_stored)
    (.const True) (fun _ _ _ _ => trivial) fun i s r s' hs _ _ h => ?_
  cases h
  exact ⟨hs, Grows.refl s, fun payload hpayload => getBaseline_row hpayload⟩

theorem uses_readBars {A : EntryOp → Prop} (h : A .dailyEquityBars) : readBars.Uses A := by
  refine Prog.Uses.tryCatch (fun e => ?_) ?_
  · cases e <;> trivial
  · exact Prog.Uses.bind (fun _ => Prog.uses_done _) ((Prog.uses_perform _).2 h)

/-- **The first row of a session is its baseline**, for whoever inserts it and for whoever comes too
late. -/
theorem sat_insertBaseline (hagreed : Agreed ny ⟨b.sessionDate, b.encode⟩) :
    Sat (baselineSetting ny s₀) (insertBaseline b) (fun _ => True) Known fun _ _ => True := by
  refine Sat.bind_of (Q := fun (inserted : Bool) s => inserted = true → Holds s b) ?_
    fun inserted => ?_
  · refine Sat.perform (fun _ => .imp fun _ => stable_holds) (.const True)
      (fun _ _ _ _ => trivial) fun i s r s' hs _ _ h => ?_
    cases h
    refine ⟨hs.createBaseline hagreed, Grows.exec ny
      (o := .createBaseline ⟨b.sessionDate, b.encode⟩) (i := i) rfl, fun hadmits => ?_⟩
    have hadmits' := of_decide_eq_true hadmits
    exact ⟨_, Table.mem_createOnce.2 (.inr ⟨hadmits', rfl⟩), rfl, decode_encode b⟩
  · cases inserted with
    | true => exact sat_recordCaptured.mono (fun _ _ h => h rfl) (fun _ _ _ h => h) fun _ _ _ h => h
    | false =>
        refine Sat.bind_of (sat_getBaseline.mono (fun _ _ _ => trivial) (fun _ _ _ h => h)
          fun _ _ _ h => h) fun found => ?_
        cases found with
        | none => exact Sat.fail fun _ _ _ => trivial
        | some winner =>
            exact sat_storedBaseline.mono (fun _ _ h => h winner rfl) (fun _ _ _ h => h)
              fun _ _ _ h => h

theorem sat_captureBaseline {gate : CalendarGate} {lastEquity : Option ℚ} {now : Instant}
    {day previous : Day} (hplace : previous < day ∧ day ≤ ny.nyDate now) :
    Sat (baselineSetting ny s₀) (captureBaseline gate lastEquity now day previous)
      (fun _ => True) Known fun _ _ => True := by
  refine Sat.bind_of (sat_plain (.const True) ((Prog.uses_perform _).2 trivial)) fun status => ?_
  by_cases hstatus : status ≠ Status.verified
  · simp only [hstatus, if_true, ne_eq, not_false_eq_true]
    exact sat_refuse
  simp only [not_not.1 hstatus, ne_eq, not_true_eq_false, if_false]
  cases lastEquity with
  | none => exact sat_refuse
  | some lastEquity =>
      refine Sat.bind_of (sat_plain (.const True) (uses_readBars trivial)) fun bars => ?_
      cases bars with
      | none => exact sat_refuse
      | some bars =>
          dsimp only
          split
          · exact sat_refuse
          · rename_i close hclose
            obtain ⟨hnonneg, hdiff⟩ := judgeBars_ok hclose
            exact sat_insertBaseline ⟨_, rfl, hplace.1, hplace.2, hnonneg, hdiff⟩

theorem sat_loadOrCaptureBaseline {gate : CalendarGate} {lastEquity : Option ℚ} {now : Instant} :
    Sat (baselineSetting ny s₀) (loadOrCaptureBaseline ny gate lastEquity now) (fun _ => True)
      Known fun _ _ => True := by
  unfold loadOrCaptureBaseline
  split
  · exact sat_refuse
  · exact sat_refuse
  · rename_i day previous hplace
    refine Sat.bind_of sat_getBaseline fun found => ?_
    cases found with
    | none =>
        exact (sat_captureBaseline (placeSession_ok hplace)).mono (fun _ _ _ => trivial)
          (fun _ _ _ h => h) fun _ _ _ h => h
    | some stored =>
        exact sat_storedBaseline.mono (fun _ _ h => h stored rfl) (fun _ _ _ h => h)
          fun _ _ _ h => h

theorem uses_baselineCaptureDue {gate : CalendarGate} {now : Instant} {A : EntryOp → Prop}
    (h : ∀ day, A (.getBaseline day)) : (baselineCaptureDue ny gate now).Uses A := by
  unfold baselineCaptureDue
  split
  · exact Prog.uses_done _
  · exact Prog.Uses.bind (fun _ => Prog.uses_done _) ((Prog.uses_perform _).2 (h _))

/-- **A baseline that an entry goes on with is recorded**, with the event of its capture. -/
theorem sat_entryBaseline (c : EntryCall) :
    Sat (baselineSetting ny s₀) (entryBaseline ny c) (fun _ => True) Known fun _ _ => True := by
  refine Sat.tryCatch (F := fun _ _ => True) (fun e s _ _ => ⟨fun _ => True, trivial, ?_⟩) ?_
  · cases e with
    | database text =>
        refine Sat.done fun s _ _ b hb => ?_
        cases hb
    | readFailed text => exact Sat.fail fun _ _ _ => trivial
    | other text => exact Sat.fail fun _ _ _ => trivial
  · refine Sat.bind_of (sat_plain (.const True)
      (uses_baselineCaptureDue fun _ => trivial)) fun due => ?_
    cases due with
    | false => exact sat_loadOrCaptureBaseline
    | true =>
        exact Sat.bind_of (sat_plain (.const True) ((Prog.uses_perform _).2 trivial))
          fun _ => sat_loadOrCaptureBaseline

theorem uses_writeBandChange {c : EntryCall} {band : Band} {equity current : ℚ} :
    (writeBandChange c b band equity current).Uses (Plain ny) := by
  refine Prog.Uses.bind (fun last => ?_) ((Prog.uses_perform _).2 trivial)
  cases last with
  | none => exact Prog.Uses.bind (fun _ => Prog.uses_done _) ((Prog.uses_perform _).2 bandChange_plain)
  | some row =>
      dsimp only
      split
      · split
        · exact Prog.uses_done _
        · split
          · exact Prog.uses_fail _
          · exact Prog.Uses.bind (fun _ => Prog.uses_done _)
              ((Prog.uses_perform _).2 bandChange_plain)
      · exact Prog.uses_fail _

theorem uses_recordDecision {c : EntryCall} {d : EntryDecision} :
    (recordDecision c d).Uses (Plain ny) := by
  unfold recordDecision
  split
  · split
    · refine Prog.Uses.tryCatch (fun e => ?_) uses_writeBandChange
      cases e <;> trivial
    · exact Prog.uses_done _
  · exact Prog.uses_done _

theorem known_authorizeBand (c : EntryCall) :
    Sat (baselineSetting ny s₀) (authorizeBand ny c) (fun _ => True) (fun _ _ => True)
      fun _ _ => True := by
  unfold authorizeBand
  split
  · exact Sat.done fun _ _ _ => trivial
  · refine Sat.bind_of (sat_entryBaseline c) fun outcome => ?_
    refine Sat.bind_of (Q := fun _ _ => True) ?_ fun _ =>
      sat_plain (.const True) uses_recordDecision
    refine Sat.perform (fun _ => .const True) (stable_known outcome) (fun _ _ _ _ => trivial)
      fun i s r s' hs hknown _ h => ?_
    cases h
    have hgrows := Grows.exec ny (s := s) (o := .decided (judgeEntry c outcome)) (i := i) rfl
    refine ⟨⟨hs.kept, hs.joined, fun e he hprefix => ?_, fun d hd => ?_⟩, hgrows, trivial⟩
    · obtain ⟨b, hb, hholds⟩ := hs.events e he hprefix
      exact ⟨b, hb, hholds.mono hgrows⟩
    · rcases List.mem_append.1 hd with hd | hd
      · obtain ⟨hjudge, hverified⟩ := hs.judged d hd
        exact ⟨hjudge, fun b hb => (hverified b hb).mono hgrows⟩
      · obtain rfl := List.mem_singleton.1 hd
        exact ⟨⟨c, rfl⟩, fun b hb => (hknown b hb).mono hgrows⟩

theorem sound_baselines : Pool.Sound (entries ny) (baselineSetting ny s₀) where
  exec := rfl
  guar _ _ _ _ _ h := h
  env t s s' hs h := by
    cases t with
    | calendar evidence =>
        obtain rfl := Option.some.inj h
        have hgrows : Grows s { s with calendar := evidence } :=
          ⟨fun _ => id, fun _ => id, fun _ => id⟩
        exact ⟨⟨hs.kept, hs.joined, hs.events, hs.judged⟩, hgrows⟩
    | event id now =>
        simp only [entries] at h
        split at h
        · rename_i hforeign
          obtain rfl := Option.some.inj h
          refine ⟨hs.createEvent fun hprefix => absurd hprefix hforeign.2.1, ?_⟩
          exact Grows.exec ny (o := .createEvent ⟨id, .other, now⟩) (i := {}) rfl
        · cases h
  call c _ _ := ⟨fun _ => True, .const True, trivial, known_authorizeBand c⟩

end Baselines

/-! ### The bands of a session -/

section Bands

variable {ny : NewYork} {c : EntryCall} {outcome : BaselineOutcome} {b : SessionBaseline}

/-- Whatever the reasons against an entry, it is given the band of its equity. -/
theorem evaluateEntryPolicy_band {account : AccountEvidence} {bandEquity : Option ℚ}
    {asset : AssetTradingCapabilities} {proposal : EntryProposal} :
    (evaluateEntryPolicy account bandEquity asset proposal).band =
      (bandEquity.map bandFor).getD .belowMinimum ∧
    (evaluateEntryPolicy account bandEquity asset proposal).bandEquity = bandEquity := by
  cases bandEquity <;>
    simp only [evaluateEntryPolicy, refused, apply_ite ExecutionPolicy.band,
      apply_ite ExecutionPolicy.bandEquity, ite_self, Option.map_some, Option.map_none,
      Option.getD_some, Option.getD_none, and_self]

/-- The band of an entry is at most that of the baseline. -/
theorem rank_judgeEntry_le :
    (judgeEntry c (.verified b)).policy.band.rank ≤ (bandFor b.previousCloseEquity).rank := by
  have hband : (judgeEntry c (.verified b)).policy.band =
      ((Execution.bandEquity c.account.equity (some b.previousCloseEquity)).map bandFor).getD
        .belowMinimum := evaluateEntryPolicy_band.1
  rw [hband]
  cases c.account.equity with
  | none => exact Nat.zero_le _
  | some equity => exact bandFor_mono (min_le_right _ _)

/-- An entry that is allowed was judged on a baseline, and trades a class that the band of the
baseline unlocks. -/
theorem judgeEntry_allowed (h : (judgeEntry c outcome).policy.allowed = true) :
    ∃ b, outcome = .verified b ∧
      classUnlocked (bandFor b.previousCloseEquity) (judgeEntry c outcome).assetClass = true := by
  have heligible := evaluateEntryPolicy_allowed_iff.1 h
  obtain ⟨equity, hequity, -, hunlocked, -⟩ := heligible.band
  cases outcome with
  | refused check => cases hc : c.account.equity <;> simp [hc, BaselineOutcome.baseline,
      Execution.bandEquity] at hequity
  | verified b =>
      refine ⟨b, rfl, unlocks_mono (bandFor_mono ?_) hunlocked⟩
      cases hc : c.account.equity with
      | none => simp [hc, Execution.bandEquity] at hequity
      | some current =>
          simp only [hc, BaselineOutcome.baseline, Option.map_some, Execution.bandEquity,
            Option.some.injEq] at hequity
          rw [← hequity]
          exact min_le_right _ _

end Bands

/-- What the baselines of the store say of the entries that were judged, since a store. -/
structure BoundedByBaselines (ny : NewYork) (s₀ s : SessionStore) : Prop where
  /-- The entries of a session share one baseline. -/
  shared : ∀ d ∈ s.decisions, ∀ d' ∈ s.decisions, ∀ b b', d.outcome = .verified b →
    d'.outcome = .verified b' → b.sessionDate = b'.sessionDate → b = b'
  /-- It is recorded, and no entry has a band above it. -/
  below : ∀ d ∈ s.decisions, ∀ b, d.outcome = .verified b →
    Captured s b ∧ d.policy.band.rank ≤ (bandFor b.previousCloseEquity).rank
  /-- An entry that is allowed trades a class that the band of the baseline unlocks. -/
  allowed : ∀ d ∈ s.decisions, d.policy.allowed = true → ∃ b, d.outcome = .verified b ∧
    classUnlocked (bandFor b.previousCloseEquity) d.assetClass = true
  /-- No row was replaced, and those that joined were checked. -/
  kept : ∀ row ∈ s₀.baselines, row ∈ s.baselines
  joined : ∀ row ∈ s.baselines, row ∈ s₀.baselines ∨ Agreed ny row

/-- **A session has one baseline, and it bounds every entry of the session.**  This holds in every
run of any number of entries side by side, whatever fails and whichever of them end early. -/
theorem session_baseline_bounds_entries (ny : NewYork) {s₀ : SessionStore}
    (hevents : ∀ e ∈ s₀.auditEvents, ¬ CAPTURED_ID_PREFIX.toList <+: e.eventId.toList)
    (hdecisions : s₀.decisions = []) {w : Pool SessionStore Fault EntryOp.Res}
    (h : (Pool.machine (entries ny)).Reaches (fun _ _ => True) ⟨s₀, []⟩ w) :
    BoundedByBaselines ny s₀ w.store := by
  have hstart : Recorded ny s₀ s₀ := by
    refine ⟨fun _ => id, fun _ => .inl, fun e he hprefix => absurd hprefix (hevents e he), ?_⟩
    intro d hd
    rw [hdecisions] at hd
    exact absurd hd List.not_mem_nil
  have hgood := sound_baselines.good (Pool.good_init hstart)
    (h.mono fun _ _ _ => Pool.meets_of_forall fun _ _ _ => trivial)
  obtain ⟨hrecorded, -⟩ := hgood
  refine ⟨fun d hd d' hd' b b' hb hb' hsame => ?_, fun d hd b hb => ?_, fun d hd hallowed => ?_,
    hrecorded.kept, hrecorded.joined⟩
  · have hcaptured := (hrecorded.judged d hd).2 b hb
    have hcaptured' := (hrecorded.judged d' hd').2 b' hb'
    exact hcaptured.1.unique hcaptured'.1 hsame
  · obtain ⟨⟨c, hjudge⟩, hverified⟩ := hrecorded.judged d hd
    refine ⟨hverified b hb, ?_⟩
    rw [hb] at hjudge
    rw [hjudge]
    exact rank_judgeEntry_le
  · obtain ⟨⟨c, hjudge⟩, -⟩ := hrecorded.judged d hd
    rw [hjudge] at hallowed ⊢
    exact judgeEntry_allowed hallowed

/-- Ten in the morning of a Tuesday. -/
def tuesdayMorning : Instant := winter.nyTime tuesday 600

/-- A close of 1000 on the Monday before. -/
def mondayClose : SessionBaseline := ⟨tuesday, tuesday - 1, 1000, 1000, tuesdayMorning⟩

/-- The row of the session without its event: the entry that wrote it ended too early. -/
def halfRecorded : SessionStore where
  baselines := (default : Table BaselineRow).createOnce ⟨tuesday, mondayClose.encode⟩

/-- An entry after a deposit of 9000. -/
def afterDeposit : EntryCall where
  gate := Calendar.oneBroker
  limits := Risk.sampleLimits
  request := { Execution.sampleRequest with now := tuesdayMorning }
  account := { Execution.sampleAccount with receivedAt := tuesdayMorning }
  asset := some { verifiedShare none with receivedAt := tuesdayMorning }
  tradeIntentId := "intent"

/-- One entry ends before the event of the capture, and another goes on. -/
def repairing : List (Act Answers Fault EntryCall Beside) :=
  List.flatten
    [ [.start afterDeposit, .run 0 {}, .run 0 {}, .crash 0, .start afterDeposit],
      List.replicate 6 (.run 1 {}) ]

/-- **A deposit unlocks nothing**: with an equity of 10000 the entry has the band of 1000. -/
theorem session_baseline_bounds_deposit : ∃ w,
    (Pool.machine (entries winter)).Reaches (fun _ _ => True) ⟨halfRecorded, []⟩ w ∧
    (∃ d ∈ w.store.decisions, d.currentEquity = some 10000 ∧ d.policy.band = .standard) ∧
    capturedRow mondayClose ∈ w.store.auditEvents ∧
    BoundedByBaselines winter halfRecorded w.store := by
  have hrun : ((Pool.machine (entries winter)).run ⟨halfRecorded, []⟩ repairing).any (fun w =>
      decide ((∃ d ∈ w.store.decisions, d.currentEquity = some 10000 ∧ d.policy.band = .standard) ∧
        capturedRow mondayClose ∈ w.store.auditEvents.rows)) = true := by
    decide +kernel
  obtain ⟨w, hreaches, hdecided, hcaptured⟩ := Machine.exists_of_run hrun
  exact ⟨w, hreaches, hdecided, hcaptured,
    session_baseline_bounds_entries winter (by decide +kernel) rfl hreaches⟩

/-! ### The changes of the band -/

def newBandOf (row : AuditRow) : Option Band :=
  match row.details with
  | .bandChanged change => some change.newBand
  | _ => none

/-- An entry that was judged on a baseline of the session, with the band and its equity. -/
def Explains (d : EntryDecision) (change : BandChange) : Prop :=
  ∃ b, d.outcome = .verified b ∧ b.sessionDate = change.sessionDate ∧
    d.policy.band = change.newBand ∧ d.policy.bandEquity = some change.bandEquity

/-- A change of the band after the one before it: from the band that this one left, to another band,
which is that of an entry. -/
def Follows (decisions : List EntryDecision) (prev : Option AuditRow) (row : AuditRow) : Prop :=
  ∃ change, row.details = .bandChanged change ∧ change.oldBand = prev.bind newBandOf ∧
    change.oldBand ≠ some change.newBand ∧ ∃ d ∈ decisions, Explains d change

/-- The changes of the band form one chain. -/
def Chained (s : SessionStore) : Prop :=
  ∃ count, Unbroken (Follows s.decisions) BAND_CHANGE_ID_PREFIX 12 s.auditEvents count

/-- The number of the change that a step writes. -/
def EntryOp.number : EntryOp → ℕ
  | .createEvent ⟨_, .bandChanged change, _⟩ => change.sequence
  | _ => 0

/-- No change gets a number of more than twelve digits. -/
def Below (o : EntryOp) (_ : Answers) (_ : SessionStore) : Prop := o.number < 10 ^ 12

instance (o : EntryOp) (i : Answers) (s : SessionStore) : Decidable (Below o i s) :=
  inferInstanceAs (Decidable (_ < _))

section Changes

variable {ny : NewYork} {s s' : SessionStore} {b : SessionBaseline} {d : EntryDecision}

theorem bounded_bandChange :
    Bounded BAND_CHANGE_ID_PREFIX "dbae_band_changed".toList ':' :=
  ⟨by decide, by decide⟩

theorem Follows.mono {decisions decisions' : List EntryDecision} {prev : Option AuditRow}
    {row : AuditRow} (h : Follows decisions prev row) (hle : ∀ d ∈ decisions, d ∈ decisions') :
    Follows decisions' prev row := by
  obtain ⟨change, hdetails, hold, hne, d, hd, hexplains⟩ := h
  exact ⟨change, hdetails, hold, hne, d, hle d hd, hexplains⟩

theorem Chained.other {row : AuditRow} (h : Chained s)
    (hrow : ¬ BAND_CHANGE_ID_PREFIX.toList <+: row.eventId.toList) :
    Chained { s with auditEvents := s.auditEvents.createOnce row } := by
  obtain ⟨count, hcount⟩ := h
  refine ⟨count, hcount.other bounded_bandChange ?_⟩
  by_contra hrange
  exact hrow (bounded_bandChange.isPrefix (Bool.of_not_eq_false hrange))

/-- The setting in which the changes of the band are judged. -/
def bandSetting (ny : NewYork) : Setting SessionStore Answers Fault EntryOp.Res where
  exec := EntryOp.exec ny
  inv := Chained
  rely := Grows
  cond := Below
  guar _ := Grows

/-- The steps that write no change of the band. -/
def Silent : EntryOp → Prop
  | .createEvent row => ¬ BAND_CHANGE_ID_PREFIX.toList <+: row.eventId.toList
  | _ => True

theorem Chained.exec (ny : NewYork) {o : EntryOp} {i : Answers} {r : o.Res} (ho : Silent o)
    (hs : Chained s) (h : o.exec ny i s = .ok (r, s')) : Chained s' := by
  cases o with
  | createEvent row =>
      cases h
      exact hs.other ho
  | decided d =>
      cases h
      obtain ⟨count, hcount⟩ := hs
      exact ⟨count, hcount.mono fun _ _ hfollows =>
        hfollows.mono fun _ => List.mem_append_left _⟩
  | _ =>
      cases h
      exact hs

theorem sat_silent {α : Type} {p : Entry α} {K : SessionStore → Prop}
    (hK : (bandSetting ny).Stable K) (hp : p.Uses Silent) :
    Sat (bandSetting ny) p K (fun _ => K) fun _ _ => True :=
  (Sat.of_stable hK (fun _ _ _ _ _ h => h)
    (fun _ _ _ _ _ ho hs _ h => ⟨Chained.exec ny ho hs h, Grows.exec ny h⟩) hp).mono
    (fun _ _ h => h) (fun _ _ _ h => h) fun _ _ _ _ => trivial

/-- The change that an entry has read, at its number. -/
def Read (n : ℕ) (old : Option Band) (s : SessionStore) : Prop :=
  (n = 0 ∧ old = none) ∨ ∃ row, s.auditEvents.get? (numbered BAND_CHANGE_ID_PREFIX 12 n) = some row ∧
    newBandOf row = old ∧ 0 < n

theorem Read.mono {n : ℕ} {old : Option Band} (h : Read n old s) (hgrows : Grows s s') :
    Read n old s' := by
  rcases h with h | ⟨row, hrow, hnew, hpos⟩
  · exact .inl h
  · obtain ⟨hmem, hid⟩ := Table.get?_eq_some_iff.1 hrow
    exact .inr ⟨row, Table.get?_eq_some_iff.2 ⟨hgrows.auditEvents row hmem, hid⟩, hnew, hpos⟩

theorem stable_decision (d : EntryDecision) :
    (bandSetting ny).Stable fun s => d ∈ s.decisions :=
  fun _ _ _ _ hd hgrows => hgrows.decisions d hd

/-- **A change after the one that was read.** -/
theorem sat_createChange {c : EntryCall} {band : Band} {equity current : ℚ} {old : Option Band}
    {n : ℕ} (hne : old ≠ some band)
    (hexplains : Explains d (bandChange c b band equity current old n)) :
    Sat (bandSetting ny)
      (Prog.perform (EntryOp.createEvent
        (bandChangeRow (bandChange c b band equity current old n) c.now)))
      (fun s => d ∈ s.decisions ∧ Read n old s) (fun _ _ => True) fun _ _ => True := by
  refine Sat.perform (fun _ => .const True)
    ((stable_decision d).and fun _ _ _ _ hread hgrows => hread.mono hgrows)
    (fun _ _ _ _ => trivial) fun i s r s' hs hk hbelow h => ?_
  obtain ⟨hd, hread⟩ := hk
  obtain ⟨count, hcount⟩ := hs
  have hgrows : Grows s s' := Grows.exec ny (i := i)
    (o := .createEvent (bandChangeRow (bandChange c b band equity current old n) c.now)) h
  cases h
  refine ⟨?_, hgrows, trivial⟩
  have hbefore : old = (before BAND_CHANGE_ID_PREFIX 12 s.auditEvents n).bind newBandOf := by
    rcases hread with ⟨rfl, rfl⟩ | ⟨row, hrow, rfl, hpos⟩
    · rfl
    · have hn : ¬ n = 0 := by omega
      rw [before, if_neg hn, hrow]
      rfl
  let row := bandChangeRow (bandChange c b band equity current old n) c.now
  obtain ⟨count', -, hcount'⟩ := hcount.createOnce (m := n) (r := row) (by decide)
    bounded_bandChange (fun _ => rfl) rfl hbelow
    (by
      rcases hread with ⟨rfl, -⟩ | ⟨row, hrow, -, -⟩
      · exact .inl rfl
      · rw [hrow]
        exact .inr rfl)
    ⟨_, rfl, hbefore, hne, d, hd, hexplains⟩
  exact ⟨count', hcount'⟩

/-- **A writer follows the change it read**, whatever was written in the meantime. -/
theorem sat_writeBandChange {c : EntryCall} {equity current : ℚ}
    (hd : d.outcome = .verified b ∧ d.policy.bandEquity = some equity) :
    Sat (bandSetting ny) (writeBandChange c b d.policy.band equity current)
      (fun s => d ∈ s.decisions) (fun _ _ => True) fun _ _ => True := by
  refine Sat.bind_of (Q := fun (last : Option AuditRow) s => d ∈ s.decisions ∧
    (last = none → Read 0 none s) ∧
    ∀ row, last = some row → ∃ n, row.eventId = numbered BAND_CHANGE_ID_PREFIX 12 n ∧
      n < 10 ^ 12 ∧ Read n (newBandOf row) s) ?_ fun last => ?_
  · refine Sat.perform (fun last => ?_) (stable_decision d) (fun _ _ _ _ => trivial)
      fun i s r s' hs hdecided _ h => ?_
    · rintro s s' - - ⟨hdecided, hnone, hsome⟩ hgrows
      refine ⟨hgrows.decisions d hdecided, fun hlast => (hnone hlast).mono hgrows,
        fun row hlast => ?_⟩
      obtain ⟨n, hid, hsmall, hread⟩ := hsome row hlast
      exact ⟨n, hid, hsmall, hread.mono hgrows⟩
    · cases h
      refine ⟨hs, Grows.refl s, hdecided, fun _ => .inl ⟨rfl, rfl⟩, fun row hlast => ?_⟩
      -- the last row is the one with the greatest number
      obtain ⟨count, hcount⟩ := hs
      rw [hcount.last (by decide) bounded_bandChange, before] at hlast
      split at hlast
      · cases hlast
      · rename_i hpos
        exact ⟨count, (Table.get?_eq_some_iff.1 hlast).2, hcount.small,
          .inr ⟨row, hlast, rfl, Nat.pos_of_ne_zero hpos⟩⟩
  · cases last with
    | none =>
        refine Sat.bind_of ((sat_createChange (d := d) (by simp) ⟨b, hd.1, rfl, rfl, hd.2⟩).mono
          (fun _ _ h => ⟨h.1, h.2.1 rfl⟩) (fun _ _ _ h => h) fun _ _ _ h => h) fun _ => ?_
        exact Sat.done fun _ _ _ => trivial
    | some row =>
        dsimp only
        split
        · rename_i change hchange
          split
          · exact Sat.done fun _ _ _ => trivial
          · rename_i hne
            refine Sat.of_pointwise fun s _ hk => ?_
            obtain ⟨hdecided, -, hrow⟩ := hk
            obtain ⟨n, hid, hsmall, hread⟩ := hrow row rfl
            rw [hid, numberOf_numbered (by decide) hsmall]
            have hnew : newBandOf row = some change.newBand := by
              simp only [newBandOf, hchange]
            refine ⟨fun s => d ∈ s.decisions ∧ Read n (some change.newBand) s,
              ⟨hdecided, hnew ▸ hread⟩, ?_⟩
            refine Sat.bind_of (sat_createChange (d := d) (by simpa using hne)
              ⟨b, hd.1, rfl, rfl, hd.2⟩) fun _ => ?_
            exact Sat.done fun _ _ _ => trivial
        · exact Sat.fail fun _ _ _ => trivial

theorem unverified_silent {day : Day} {check : String} {now : Instant}
    {evidence : RefusalEvidence} :
    Silent (.createEvent (unverifiedRow day check now evidence)) :=
  not_isPrefix_of (isPrefix_unverifiedId day check) (by decide) (by decide)

theorem captured_silent : Silent (.createEvent (capturedRow b)) :=
  not_isPrefix_of (isPrefix_capturedId b.sessionDate) (by decide) (by decide)

theorem silent_refuse {day : Day} {check : String} {now : Instant}
    {evidence : RefusalEvidence} : (refuse day check now evidence).Uses Silent :=
  Prog.Uses.bind (fun _ => Prog.uses_done _) ((Prog.uses_perform _).2 unverified_silent)

theorem silent_recordCaptured : (recordCaptured b).Uses Silent :=
  Prog.Uses.bind (fun _ => Prog.uses_done _) ((Prog.uses_perform _).2 captured_silent)

theorem silent_storedBaseline {payload : BaselinePayload} {day : Day} {now : Instant} :
    (storedBaseline payload day now).Uses Silent := by
  unfold storedBaseline
  split
  · exact silent_refuse
  · split
    · exact silent_refuse
    · exact silent_recordCaptured

theorem silent_insertBaseline : (insertBaseline b).Uses Silent := by
  refine Prog.Uses.bind (fun inserted => ?_) ((Prog.uses_perform _).2 trivial)
  cases inserted with
  | true => exact silent_recordCaptured
  | false =>
      refine Prog.Uses.bind (fun found => ?_) ((Prog.uses_perform _).2 trivial)
      cases found with
      | none => exact Prog.uses_fail _
      | some winner => exact silent_storedBaseline

theorem silent_captureBaseline {gate : CalendarGate} {lastEquity : Option ℚ} {now : Instant}
    {day previous : Day} : (captureBaseline gate lastEquity now day previous).Uses Silent := by
  refine Prog.Uses.bind (fun status => ?_) ((Prog.uses_perform _).2 trivial)
  by_cases hstatus : status ≠ Status.verified
  · simp only [hstatus, if_true, ne_eq, not_false_eq_true]
    exact silent_refuse
  simp only [not_not.1 hstatus, ne_eq, not_true_eq_false, if_false]
  cases lastEquity with
  | none => exact silent_refuse
  | some lastEquity =>
      refine Prog.Uses.bind (fun bars => ?_) (uses_readBars trivial)
      cases bars with
      | none => exact silent_refuse
      | some bars =>
          dsimp only
          split
          · exact silent_refuse
          · exact silent_insertBaseline

theorem silent_loadOrCaptureBaseline {gate : CalendarGate} {lastEquity : Option ℚ}
    {now : Instant} : (loadOrCaptureBaseline ny gate lastEquity now).Uses Silent := by
  unfold loadOrCaptureBaseline
  split
  · exact silent_refuse
  · exact silent_refuse
  · refine Prog.Uses.bind (fun found => ?_) ((Prog.uses_perform _).2 trivial)
    cases found with
    | none => exact silent_captureBaseline
    | some stored => exact silent_storedBaseline

/-- The baseline step writes no change of the band. -/
theorem silent_entryBaseline (c : EntryCall) : (entryBaseline ny c).Uses Silent := by
  refine Prog.Uses.tryCatch (fun e => ?_) (Prog.Uses.bind (fun due => ?_) ?_)
  · cases e <;> trivial
  · cases due with
    | false => exact silent_loadOrCaptureBaseline
    | true =>
        exact Prog.Uses.bind (fun _ => silent_loadOrCaptureBaseline)
          ((Prog.uses_perform _).2 trivial)
  · exact uses_baselineCaptureDue fun _ => trivial

theorem chained_recordDecision (c : EntryCall) (d : EntryDecision) :
    Sat (bandSetting ny) (recordDecision c d) (fun s => d ∈ s.decisions) (fun _ _ => True)
      fun _ _ => True := by
  unfold recordDecision
  split
  · rename_i b equity current houtcome hequity hcurrent
    split
    · refine Sat.tryCatch (F := fun _ _ => True) (fun e s _ _ => ⟨fun _ => True, trivial, ?_⟩)
        (sat_writeBandChange ⟨houtcome, hequity⟩)
      cases e with
      | database text => exact Sat.done fun _ _ _ => trivial
      | readFailed text => exact Sat.fail fun _ _ _ => trivial
      | other text => exact Sat.fail fun _ _ _ => trivial
    · exact Sat.done fun _ _ _ => trivial
  · exact Sat.done fun _ _ _ => trivial

theorem chained_authorizeBand (c : EntryCall) :
    Sat (bandSetting ny) (authorizeBand ny c) (fun _ => True) (fun _ _ => True)
      fun _ _ => True := by
  unfold authorizeBand
  split
  · exact Sat.done fun _ _ _ => trivial
  · refine Sat.bind_of (sat_silent (.const True) (silent_entryBaseline c)) fun outcome => ?_
    refine Sat.bind_of (Q := fun _ s => judgeEntry c outcome ∈ s.decisions) ?_ fun _ =>
      chained_recordDecision c _
    refine Sat.perform (fun _ => stable_decision _) (.const True) (fun _ _ _ _ => trivial)
      fun i s r s' hs _ _ h => ?_
    have hkept : Chained s' :=
      Chained.exec ny (o := .decided (judgeEntry c outcome)) (i := i) trivial hs h
    cases h
    exact ⟨hkept, Grows.exec ny (o := .decided (judgeEntry c outcome)) (i := i) rfl,
      List.mem_append_right _ (List.mem_singleton_self _)⟩

theorem sound_bands : Pool.Sound (entries ny) (bandSetting ny) where
  exec := rfl
  guar _ _ _ _ _ h := h
  env t s s' hs h := by
    cases t with
    | calendar evidence =>
        obtain rfl := Option.some.inj h
        have hgrows : Grows s { s with calendar := evidence } :=
          ⟨fun _ => id, fun _ => id, fun _ => id⟩
        exact ⟨hs, hgrows⟩
    | event id now =>
        simp only [entries] at h
        split at h
        · rename_i hforeign
          obtain rfl := Option.some.inj h
          refine ⟨hs.other hforeign.2.2, ?_⟩
          exact Grows.exec ny (o := .createEvent ⟨id, .other, now⟩) (i := {}) rfl
        · cases h
  call c _ _ := ⟨fun _ => True, .const True, trivial, chained_authorizeBand c⟩

end Changes

/-- **The recorded changes of the band form one chain.**  In every run of any number of entries,
whatever fails, the changes are numbered from 1 on without a gap; each starts from the band that the
one before it left and is the band of an entry that was judged on a baseline of its session; and the
last change by its key is the one with the greatest number. -/
theorem band_changes_unbroken (ny : NewYork) {s₀ : SessionStore}
    (hevents : ∀ e ∈ s₀.auditEvents, idRange BAND_CHANGE_ID_PREFIX e.eventId = false)
    {w : Pool SessionStore Fault EntryOp.Res}
    (h : (Pool.machine (entries ny)).Reaches (Pool.Meets Below) ⟨s₀, []⟩ w) :
    ∃ count, Unbroken (Follows w.store.decisions) BAND_CHANGE_ID_PREFIX 12 w.store.auditEvents
        count ∧
      lastByIdPrefix w.store.auditEvents BAND_CHANGE_ID_PREFIX =
        before BAND_CHANGE_ID_PREFIX 12 w.store.auditEvents count := by
  have hstart : Chained s₀ := ⟨0, Unbroken.none hevents⟩
  obtain ⟨⟨count, hcount⟩, -⟩ := sound_bands.good (Pool.good_init hstart) h
  exact ⟨count, hcount, hcount.last (by decide) bounded_bandChange⟩

/-- The same entry when the account shows less. -/
def afterLoss : EntryCall :=
  { afterDeposit with
    account := { Execution.sampleAccount with equity := some 90, receivedAt := tuesdayMorning } }

/-- Two entries read that there is no change yet, and race for the first number. -/
def racing : List (Act Answers Fault EntryCall Beside) :=
  List.flatten
    [ [.start afterDeposit, .start afterLoss], List.replicate 5 (.run 0 {}),
      List.replicate 5 (.run 1 {}), [.run 0 {}, .run 1 {}, .start afterLoss],
      List.replicate 6 (.run 2 {}) ]

/-- The change that lost the race is not recorded; the next one follows the winner. -/
theorem band_changes_unbroken_racing : ∃ w,
    (Pool.machine (entries winter)).Reaches (Pool.Meets Below) ⟨halfRecorded, []⟩ w ∧
    w.store.decisions.length = 3 ∧
    (lastByIdPrefix w.store.auditEvents BAND_CHANGE_ID_PREFIX).bind newBandOf = some .microPlus ∧
    ∃ count, Unbroken (Follows w.store.decisions) BAND_CHANGE_ID_PREFIX 12 w.store.auditEvents
        count ∧
      lastByIdPrefix w.store.auditEvents BAND_CHANGE_ID_PREFIX =
        before BAND_CHANGE_ID_PREFIX 12 w.store.auditEvents count := by
  have hrun : ((Pool.machine (entries winter)).runUnder (Pool.Meets Below) ⟨halfRecorded, []⟩
      racing).any (fun w => decide (w.store.decisions.length = 3 ∧
        (lastByIdPrefix w.store.auditEvents BAND_CHANGE_ID_PREFIX).bind newBandOf =
          some .microPlus)) = true := by
    decide +kernel
  obtain ⟨w, hreaches, hlength, hlast⟩ := Machine.exists_of_runUnder hrun
  exact ⟨w, hreaches, hlength, hlast,
    band_changes_unbroken winter (by decide +kernel) hreaches⟩

end Dbae

end TradePulse
