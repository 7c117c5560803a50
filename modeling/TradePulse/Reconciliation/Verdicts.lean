/-
**What a completeness pass leaves behind.**

The result and the baseline of a pass are rows of one table, in which late activities are noted as
well; a query for the rows about one subject does not see the others.  A pass that returned has
either found nothing to start from, or its reads were not proven, or it has judged the history: then
its result is on record after the notes, the failures that the latest result had already are
latched, and a full pass without failures has offered a baseline.

Main definitions:

* `Noted` — the store after the late activities;
* `HistoryStore.latchAll`, `HistoryStore.offerBaseline` — what a verdict does;
* `Verdict`, `Judged` — the reads and the outcome of a pass that has judged.

Main results:

* `historyRecords_createRecord` — what a new row adds to a query;
* `completeness_returned` — the three ways in which a pass returns.
-/

import TradePulse.Reconciliation.Coverage

set_option autoImplicit false

namespace TradePulse

open Storage Process

/-! ### Rows of the table -/

/-- A row that is neither a result nor a baseline, nor has the id of one. -/
structure ReconciliationRecord.Aside (r : ReconciliationRecord) : Prop where
  other : r.reconciliationType ≠ "activity_history"
  p1 : ∀ passId, r.recordId ≠ "activity_history:p1:" ++ passId
  baseline : ∀ boundary, r.recordId ≠ "activity_history:baseline:" ++ boundary

theorem lateNote_aside (id cursor : String) (now : Instant) (c : Option Classification) :
    (lateNote id cursor now c).Aside where
  other := by simp [lateNote]
  p1 passId h := by
    have hlists := congrArg String.toList h
    simp [lateNote] at hlists
  baseline boundary h := by
    have hlists := congrArg String.toList h
    simp [lateNote] at hlists

theorem p1_id_ne_baseline_id (passId boundary : String) :
    "activity_history:p1:" ++ passId ≠ "activity_history:baseline:" ++ boundary := by
  intro h
  have hlists := congrArg String.toList h
  simp at hlists

/-- A new row comes last among those about its subject, and is not seen among the others. -/
theorem historyRecords_createRecord (s : HistoryStore) (r : ReconciliationRecord)
    (subject : String) :
    historyRecords (s.createRecord r) subject =
      if s.reconciliationRecords.Admits r ∧ r.reconciliationType = "activity_history" ∧
        r.subjectId = subject then historyRecords s subject ++ [r]
      else historyRecords s subject := by
  unfold historyRecords HistoryStore.createRecord
  by_cases hadmits : s.reconciliationRecords.Admits r
  · rw [Table.rows_createOnce hadmits, List.filter_append]
    by_cases hseen : r.reconciliationType = "activity_history" ∧ r.subjectId = subject
    · simp [hadmits, hseen]
    · have hnot : (decide (r.reconciliationType = "activity_history") &&
          decide (r.subjectId = subject)) = false := by
        simpa using hseen
      simp [hseen, hnot]
  · rw [Table.createOnce_of_not_admits hadmits]
    simp [hadmits]

theorem historyRecords_createRecord_of_ne {s : HistoryStore} {r : ReconciliationRecord}
    {subject : String} (h : r.reconciliationType ≠ "activity_history" ∨ r.subjectId ≠ subject) :
    historyRecords (s.createRecord r) subject = historyRecords s subject := by
  rw [historyRecords_createRecord, if_neg]
  rintro ⟨-, htype, hsubject⟩
  exact h.elim (fun h => h htype) fun h => h hsubject

theorem historyRecords_congr {s t : HistoryStore}
    (h : t.reconciliationRecords = s.reconciliationRecords) (subject : String) :
    historyRecords t subject = historyRecords s subject := by
  unfold historyRecords
  rw [h]

theorem mem_historyRecords {s : HistoryStore} {subject : String} {r : ReconciliationRecord} :
    r ∈ historyRecords s subject ↔ r ∈ s.reconciliationRecords ∧
      r.reconciliationType = "activity_history" ∧ r.subjectId = subject := by
  simp [historyRecords, Table.mem_def]

/-! ### Late activities -/

/-- The store after the late activities: rows were added that are neither results nor baselines,
and the session may be blocked. -/
structure Noted (s t : HistoryStore) : Prop where
  cursor : t.cursor = s.cursor
  bootstrap : t.fillCursorBootstrap = s.fillCursorBootstrap
  records : Table.ExtendedBy ReconciliationRecord.Aside s.reconciliationRecords
    t.reconciliationRecords

namespace Noted

theorem of_eq {s t : HistoryStore} (hcursor : t.cursor = s.cursor)
    (hboot : t.fillCursorBootstrap = s.fillCursorBootstrap)
    (hrecords : t.reconciliationRecords = s.reconciliationRecords) : Noted s t :=
  ⟨hcursor, hboot, hrecords ▸ .refl _ _⟩

theorem refl (s : HistoryStore) : Noted s s := of_eq rfl rfl rfl

theorem trans {s t u : HistoryStore} (h : Noted s t) (h' : Noted t u) : Noted s u :=
  ⟨h'.cursor.trans h.cursor, h'.bootstrap.trans h.bootstrap, h.records.trans h'.records⟩

theorem historyRecords {s t : HistoryStore} (h : Noted s t) (subject : String) :
    historyRecords t subject = historyRecords s subject :=
  h.records.filter_eq fun r hr => by simp [hr.other]

theorem createRecord {s : HistoryStore} {r : ReconciliationRecord} (h : r.Aside) :
    Noted s (s.createRecord r) :=
  ⟨rfl, rfl, .createOnce _ h⟩

theorem latch (s : HistoryStore) (reason : String) (now : Instant) :
    Noted s (s.latch reason now) := by
  obtain ⟨session, hs⟩ := History.latch_eq s reason now
  rw [hs]
  exact of_eq rfl rfl rfl

end Noted

theorem classifyLateOne_noted {cursor passId : String} {now : Instant} {s t : HistoryStore}
    {raw : RawActivity} {new : List (String × Bool)}
    (h : classifyLateOne cursor passId now s raw = .ok (t, new)) :
    Noted s t ∧ t.session = s.session := by
  unfold classifyLateOne at h
  split at h
  · cases h
    exact ⟨.refl s, rfl⟩
  · obtain ⟨⟨u, c⟩, hone, h⟩ := except_bind_eq_ok.1 h
    cases h
    obtain ⟨-, hcursor, -, hboot, hrecords, hsession⟩ := classifyAndInsert_ok hone
    have hu : Noted s u := .of_eq hcursor hboot hrecords
    exact ⟨hu.trans (.createRecord (lateNote_aside _ _ _ _)), hsession⟩

theorem classifyLate_noted {cursor passId : String} {now : Instant} {raws : List RawActivity} :
    ∀ {s t : HistoryStore} {late : List (String × Bool)},
      classifyLate cursor passId now s raws = .ok (late, t) →
      Noted s t ∧ t.session = s.session := by
  induction raws with
  | nil =>
      intro s t late h
      cases h
      exact ⟨.refl s, rfl⟩
  | cons raw raws ih =>
      intro s t late h
      obtain ⟨⟨u, new⟩, hone, h⟩ := except_bind_eq_ok.1 h
      obtain ⟨⟨rest, v⟩, hrest, h⟩ := except_bind_eq_ok.1 h
      cases h
      obtain ⟨hnoted, hsession⟩ := classifyLateOne_noted hone
      obtain ⟨hnoted', hsession'⟩ := ih hrest
      exact ⟨hnoted.trans hnoted', hsession'.trans hsession⟩

/-! ### A verdict -/

/-- Block the session for each of some keys. -/
def HistoryStore.latchAll (s : HistoryStore) (keys : List String) (now : Instant) : HistoryStore :=
  keys.foldl (fun s key => s.latch ("FILL_HISTORY_INCOMPLETE:" ++ key) now) s

namespace History

/-- The part of the history that the proof is about, as the broker answered. -/
def ReadAs (world : Op → Outside → Prop) (full : Bool) (boundary : String)
    (proof : List RawActivity) : Prop :=
  if full then ∃ i, world (.readActivities .all) i ∧ i.proven = true ∧ proof = i.activities
  else ∃ i, world (.readActivities (.after boundary)) i ∧ i.proven = true ∧
    proof = i.activities.filter fun raw => decide (boundary < raw.id)

/-- What a pass that has judged has read, and the store that it put its result into. -/
structure Verdict where
  cursor : String
  passId : String
  boundary : String
  baseline : Quantities
  proof : List RawActivity
  positions : Quantities
  noted : HistoryStore

/-- The result that a verdict puts on record. -/
def Verdict.result (v : Verdict) (failures : List String) (full : Bool) (now : Instant) :
    ReconciliationRecord :=
  p1Record (if failures = [] then .matched else .driftDetected) failures full v.cursor v.passId now

/-- The store with the result on record, and what failed before latched. -/
def Verdict.latched (v : Verdict) (failures : List String) (full : Bool) (now : Instant) :
    HistoryStore :=
  (v.noted.createRecord (v.result failures full now)).latchAll
    (failures.filter fun key => key ∈ TradePulse.previousFailures v.noted) now

/-- The failures, found from what was read. -/
def Verdict.Finds (v : Verdict) (full : Bool) (failures : List String) : Prop :=
  if full then ∃ assets, conservationFailures v.proof v.positions .empty = .ok assets ∧
    (failures = assets ∨ failures = assets ++ ["cash"])
  else conservationFailures v.proof v.positions v.baseline = .ok failures

/-- A new baseline is offered after a full pass without failures. -/
def Offered (full : Bool) (failures : List String) (proof : List RawActivity) (now : Instant)
    (s t : HistoryStore) : Prop :=
  match full, failures, proof.getLast? with
  | true, [], some last => ∃ quantities, historyQuantities proof = .ok quantities ∧
      t = s.createRecord (baselineRecord last.id quantities now)
  | _, _, _ => t = s

/-- A pass that has read a history in `s` and found `failures`, up to where it puts that on
record. -/
structure Judged (world : Op → Outside → Prop) (full : Bool) (s : HistoryStore)
    (failures : List String) (v : Verdict) : Prop where
  cursor : s.cursor = some v.cursor
  baseline : baselineOf s = some (v.boundary, v.baseline)
  proof : ReadAs world full v.boundary v.proof
  noted : Noted s v.noted
  positions : ∃ i, world .getPositions i ∧ positionsOf i.positions = .ok v.positions
  finds : v.Finds full failures

/-- What is left of a pass once its result is on record. -/
def settle (failures previous : List String) (full : Bool) (proof : List RawActivity)
    (now : Instant) (late : List String) : Steps CompletenessResult := do
  latchPersisting failures previous now
  recordBaseline full failures proof now
  return ⟨late, failures⟩

/-- The operation does not put a result on record. -/
def Op.NoResult : Op → Prop
  | .createRecord r => r.subjectId ≠ "p1"
  | _ => True

section

variable {world : Op → Outside → Prop} {s t : HistoryStore} {log : List Op}

theorem past_then {o : Op} {β : Type} {f : o.Res → Steps β} {x : Ending Raised β}
    (h : Runs exec world ((perform o).bind f) s log x t) (hpast : Past Op.NoResult log x)
    (ho : o.NoResult) :
    ∃ r i u l, world o i ∧ exec o i s = .ok (r, u) ∧ Preceded Op.NoResult log l ∧
      Runs exec world (f r) u l x t ∧ Past Op.NoResult l x := by
  obtain ⟨r, u, l, l', hpre, hr, hf, hpast'⟩ :=
    Runs.bind_past h hpast ((Prog.uses_perform o).2 ho)
  obtain ⟨-, i, hw, hx⟩ := Runs.perform_returned hr
  exact ⟨r, i, u, l', hw, hx, hpre, hf, hpast'⟩

theorem reads_noResult {o : Op} (h : o.reads = true) : o.NoResult := by
  cases o with
  | createRecord => cases h
  | _ => trivial

theorem provenReads_returned {full : Bool} {boundary cursor : String} {overlapDays : ℕ}
    {r : Reads}
    (h : Runs exec world (provenReads full boundary cursor overlapDays) s log
      (.returned (some r)) t) : ReadAs world full boundary r.proof := by
  have answered : ∀ {q : Query} {raws : List RawActivity} {l : List Op} {u v : HistoryStore},
      Runs exec world (perform (.readActivities q)) u l (.returned raws) v →
      ∃ i, world (.readActivities q) i ∧ i.proven = true ∧ raws = i.activities := by
    intro q raws l u v hr
    obtain ⟨-, i, hw, hx⟩ := Runs.perform_returned hr
    simp only [exec] at hx
    split at hx
    · rename_i hproven
      cases hx
      exact ⟨i, hw, hproven, rfl⟩
    · cases hx
  rcases Runs.tryCatch_inv h with ⟨a, ha, hp⟩ | ⟨e, v, l, l', -, -, hh⟩ | ⟨hc, -⟩
  · cases ha
    obtain ⟨r', u, l, l', -, hr, hd⟩ := Runs.bind_returned hp
    obtain ⟨hr', -, -⟩ := Runs.done_returned hd
    cases hr'
    unfold readHistory at hr
    cases full with
    | true =>
        obtain ⟨raws, u', l₁, l₂, -, hread, hdone⟩ := Runs.bind_returned hr
        obtain ⟨rfl, -, -⟩ := Runs.done_returned hdone
        exact answered hread
    | false =>
        obtain ⟨raws, u', l₁, l₂, -, hread, hrest⟩ := Runs.bind_returned hr
        obtain ⟨overlap, u'', l₃, l₄, -, -, hdone⟩ := Runs.bind_returned hrest
        obtain ⟨rfl, -, -⟩ := Runs.done_returned hdone
        obtain ⟨i, hw, hproven, rfl⟩ := answered hread
        exact ⟨i, hw, hproven, rfl⟩
  · split at hh
    · obtain ⟨hr, -, -⟩ := Runs.done_returned hh
      cases hr
    · cases hh
  · cases hc

theorem late_noted {late : List (String × Bool)} {now : Instant} {x : Ending Raised Unit}
    (h : Runs exec world (Prog.forEach late fun l =>
      if l.2 then perform (.latch ("UNRESOLVED_BROKER_EXECUTION: " ++ l.1) now) else return ())
        s log x t) : Noted s t := by
  refine Runs.rel (R := Noted) (A := fun o => ∃ reason, o = .latch reason now) Noted.refl
    (fun _ _ _ => Noted.trans) ?_ h (Prog.Uses.forEach fun l _ => ?_)
  · rintro _ i s r s' ⟨reason, rfl⟩ - hx
    cases hx
    exact .latch s reason now
  · split
    · exact (Prog.uses_perform _).2 ⟨_, rfl⟩
    · trivial

theorem failuresOf_returned {full : Bool} {v : Verdict} {failures : List String}
    (h : Runs exec world (failuresOf full v.proof v.positions v.baseline) s log
      (.returned failures) t) : v.Finds full failures ∧ t = s := by
  have hreads : t = s := Runs.unchanged (fun _ _ _ _ _ ho _ hx => exec_reads ho hx) h
    (failuresOf_uses _ _ _ _)
  refine ⟨?_, hreads⟩
  unfold failuresOf at h
  cases full with
  | true =>
      obtain ⟨assets, u, l₁, l₂, -, hassets, h⟩ := Runs.bind_returned h
      obtain ⟨hconserved, -, -⟩ := Runs.ofExcept_returned hassets
      obtain ⟨account, u', l₃, l₄, -, -, h⟩ := Runs.bind_returned h
      obtain ⟨cash, u'', l₅, l₆, -, -, h⟩ := Runs.bind_returned h
      obtain ⟨rfl, -, -⟩ := Runs.done_returned h
      refine ⟨assets, hconserved, ?_⟩
      split
      · exact .inl rfl
      · exact .inr rfl
  | false => exact (Runs.ofExcept_returned h).1

/-- What is latched once the result is on record. -/
theorem latchPersisting_returned {failures previous : List String} {now : Instant} {a : Unit}
    (h : Runs exec world (latchPersisting failures previous now) s log (.returned a) t) :
    t = s.latchAll (failures.filter fun key => key ∈ previous) now ∧
      ∀ key ∈ failures, key ∈ previous →
        .latch ("FILL_HISTORY_INCOMPLETE:" ++ key) now ∈ log := by
  induction failures generalizing s log with
  | nil =>
      obtain ⟨-, rfl, rfl⟩ := Runs.done_returned h
      exact ⟨rfl, by simp⟩
  | cons key failures ih =>
      obtain ⟨_, u, l, l', rfl, hone, hrest⟩ := Runs.bind_returned h
      obtain ⟨rfl, hall⟩ := ih hrest
      by_cases hkey : key ∈ previous
      · simp only [hkey, if_true] at hone
        obtain ⟨rfl, i, -, hx⟩ := Runs.perform_returned hone
        cases hx
        refine ⟨by simp [hkey, HistoryStore.latchAll], fun k hk hprev => ?_⟩
        rcases List.mem_cons.1 hk with rfl | hmem
        · simp
        · exact List.mem_append_right _ (hall k hmem hprev)
      · simp only [hkey, if_false] at hone
        obtain ⟨-, rfl, rfl⟩ := Runs.done_returned hone
        refine ⟨by simp [hkey, HistoryStore.latchAll], fun k hk hprev => ?_⟩
        rcases List.mem_cons.1 hk with rfl | hmem
        · exact absurd hprev hkey
        · exact hall k hmem hprev

theorem recordBaseline_returned {full : Bool} {failures : List String} {proof : List RawActivity}
    {now : Instant} {a : Unit}
    (h : Runs exec world (recordBaseline full failures proof now) s log (.returned a) t) :
    Offered full failures proof now s t := by
  unfold recordBaseline at h
  unfold Offered
  cases full with
  | false => exact (Runs.done_returned h).2.1
  | true =>
      cases failures with
      | cons => exact (Runs.done_returned h).2.1
      | nil =>
          cases hlast : proof.getLast? with
          | none =>
              rw [hlast] at h
              exact (Runs.done_returned h).2.1
          | some last =>
              rw [hlast] at h
              obtain ⟨quantities, u, l, l', -, hq, hcreate⟩ := Runs.bind_returned h
              obtain ⟨hquantities, rfl, -⟩ := Runs.ofExcept_returned hq
              obtain ⟨-, i, -, hx⟩ := Runs.perform_returned hcreate
              cases hx
              exact ⟨quantities, hquantities, rfl⟩

/-- How a pass that got anywhere got there: there was nothing to start from; or its reads were not
proven, which it put on record; or it has judged, put that on record, and goes on from there. -/
inductive Passed (world : Op → Outside → Prop) (now : Instant) (full : Bool) (s : HistoryStore)
    (log : List Op) (x : Ending Raised CompletenessResult) (t : HistoryStore) : Prop
  | nothing (hbase : s.cursor = none ∨ baselineOf s = none) (hsame : t = s)
      (hlog : ∀ o ∈ log, o.NoResult) (hend : ∀ r, x = .returned r → r = ⟨[], []⟩)
  | unproven (cursor passId : String)
      (hlog : Preceded Op.NoResult log
        [.createRecord (p1Record .incompleteEvidence [unprovenAll] false cursor passId now)])
      (hstore : t = s.createRecord
        (p1Record .incompleteEvidence [unprovenAll] false cursor passId now))
      (hend : ∀ r, x = .returned r → r = ⟨[], [unprovenAll]⟩)
  | judged (v : Verdict) (failures late : List String) (rest : List Op)
      (hjudged : Judged world full s failures v)
      (hlog : Preceded Op.NoResult log (.createRecord (v.result failures full now) :: rest))
      (hrest : Runs exec world
        (settle failures (TradePulse.previousFailures v.noted) full v.proof now late)
        (v.noted.createRecord (v.result failures full now)) rest x t)

theorem judgeHistory_past {now : Instant} {full : Bool} {cursor passId boundary : String}
    {baseline : Quantities} {r : Reads} {x : Ending Raised CompletenessResult} {log' : List Op}
    (h : Runs exec world (judgeHistory now full cursor passId baseline r) s log x t)
    (hpast : Past Op.NoResult log x) (hpre : Preceded Op.NoResult log' log)
    (hcursor : s.cursor = some cursor) (hbase : baselineOf s = some (boundary, baseline))
    (hproof : ReadAs world full boundary r.proof) : Passed world now full s log' x t := by
  obtain ⟨late, i₁, s₁, l₁, -, hx₁, hpre₁, h₁, hpast₁⟩ := past_then h hpast trivial
  have hnoted₁ : Noted s s₁ := (classifyLate_noted hx₁).1
  obtain ⟨_, s₂, l₂, l₃, hpre₂, hloop, h₂, hpast₂⟩ := Runs.bind_past h₁ hpast₁
    (Prog.Uses.forEach fun l _ => by
      split
      · exact (Prog.uses_perform _).2 trivial
      · trivial)
  have hnoted : Noted s s₂ := hnoted₁.trans (late_noted hloop)
  obtain ⟨positions, i₃, s₃, l₄, hw₃, hx₃, hpre₃, h₃, hpast₃⟩ := past_then h₂ hpast₂ trivial
  cases hx₃
  obtain ⟨quantities, s₄, l₅, l₆, hpre₄, hq, h₄, hpast₄⟩ :=
    Runs.bind_past h₃ hpast₃ (Prog.uses_ofExcept _)
  obtain ⟨hquantities, hs₄, -⟩ := Runs.ofExcept_returned hq
  obtain ⟨failures, s₅, l₇, l₈, hpre₅, hf, h₅, hpast₅⟩ := Runs.bind_past h₄ hpast₄
    ((failuresOf_uses _ _ _ _).mono fun _ => reads_noResult)
  let v : Verdict := ⟨cursor, passId, boundary, baseline, r.proof, quantities, s₂⟩
  obtain ⟨hfinds, hs₅⟩ := failuresOf_returned (v := v) hf
  obtain ⟨previous, i₆, s₆, l₉, -, hx₆, hpre₆, h₆, hpast₆⟩ := past_then h₅ hpast₅ trivial
  cases hx₆
  obtain ⟨_, i₇, s₇, rest, -, hx₇, rfl, hrest⟩ := Runs.perform_past h₆ hpast₆
  cases hx₇
  have hpreAll : Preceded Op.NoResult log' (.createRecord (v.result failures full now) :: rest) :=
    ((((hpre.trans hpre₁).trans hpre₂).trans hpre₃).trans hpre₄).trans (hpre₅.trans hpre₆)
  subst hs₄ hs₅
  exact .judged v failures (late.map Prod.fst) rest
    { cursor := hcursor
      baseline := hbase
      proof := hproof
      noted := hnoted
      positions := ⟨i₃, hw₃, hquantities⟩
      finds := hfinds } hpreAll hrest

theorem completeness_past {now : Instant} {full : Bool} {overlapDays : ℕ}
    {x : Ending Raised CompletenessResult}
    (h : Ran world (.completeness now full overlapDays) s log x t)
    (hpast : Past Op.NoResult log x) : Passed world now full s log x t := by
  obtain ⟨cursor, i₁, s₁, l₁, -, hx₁, hpre₁, h₁, hpast₁⟩ := past_then h hpast trivial
  cases hx₁
  obtain ⟨baseline, i₂, s₂, l₂, -, hx₂, hpre₂, h₂, hpast₂⟩ := past_then h₁ hpast₁ trivial
  cases hx₂
  have hpre := hpre₁.trans hpre₂
  -- without a cursor or a baseline the pass returns at once
  have idle : ∀ {l : List Op}, (s.cursor = none ∨ baselineOf s = none) →
      Preceded Op.NoResult log l →
      Runs exec world (.done ⟨[], []⟩ : Steps CompletenessResult) s l x t →
      Passed world now full s log x t := by
    rintro l hbase ⟨pre, rfl, hall⟩ hr
    cases hr with
    | done => exact .nothing hbase rfl (by simpa using hall) fun r hr => by cases hr; rfl
    | crash => exact .nothing hbase rfl (by simpa using hall) fun r hr => by cases hr
  cases hcursor : s.cursor with
  | none =>
      rw [hcursor] at h₂
      exact idle (.inl hcursor) hpre h₂
  | some cursor =>
      cases hbase : baselineOf s with
      | none =>
          rw [hcursor, hbase] at h₂
          exact idle (.inr hbase) hpre h₂
      | some b =>
          obtain ⟨boundary, baseline⟩ := b
          rw [hcursor, hbase] at h₂
          obtain ⟨passId, i₃, s₃, l₃, -, hx₃, hpre₃, h₃, hpast₃⟩ := past_then h₂ hpast₂ trivial
          cases hx₃
          obtain ⟨reads, s₄, l₄, l₅, hpre₄, hreads, h₄, hpast₄⟩ := Runs.bind_past h₃ hpast₃
            ((provenReads_uses _ _ _ _).mono fun _ => reads_noResult)
          have hs₄ : s₄ = s := Runs.unchanged (fun _ _ _ _ _ ho _ hx => exec_reads ho hx) hreads
            (provenReads_uses _ _ _ _)
          subst hs₄
          have hpre' := (hpre.trans hpre₃).trans hpre₄
          cases reads with
          | some r =>
              exact judgeHistory_past h₄ hpast₄ hpre' hcursor hbase (provenReads_returned hreads)
          | none =>
              obtain ⟨_, i₅, s₅, rest, -, hx₅, rfl, hrest⟩ := Runs.perform_past h₄ hpast₄
              cases hx₅
              cases hrest with
              | done => exact .unproven cursor i₃.uuid hpre' rfl fun r hr => by cases hr; rfl
              | crash => exact .unproven cursor i₃.uuid hpre' rfl fun r hr => by cases hr

/-! ### Once the result is on record -/

theorem settle_returned {failures previous late : List String} {full : Bool}
    {proof : List RawActivity} {now : Instant} {r : CompletenessResult}
    (h : Runs exec world (settle failures previous full proof now late) s log (.returned r) t) :
    r.p1Failures = failures ∧
      Offered full failures proof now
        (s.latchAll (failures.filter fun key => key ∈ previous) now) t ∧
      ∀ key ∈ failures, key ∈ previous →
        .latch ("FILL_HISTORY_INCOMPLETE:" ++ key) now ∈ log := by
  obtain ⟨_, u, l₁, l₂, rfl, hlatch, h₁⟩ := Runs.bind_returned h
  obtain ⟨_, v, l₃, l₄, rfl, hbaseline, h₂⟩ := Runs.bind_returned h₁
  obtain ⟨rfl, rfl, -⟩ := Runs.done_returned h₂
  obtain ⟨rfl, hall⟩ := latchPersisting_returned hlatch
  refine ⟨rfl, recordBaseline_returned hbaseline, fun key hkey hprev => ?_⟩
  exact List.mem_append_left _ (hall key hkey hprev)

theorem settle_uses (failures previous late : List String) (full : Bool)
    (proof : List RawActivity) (now : Instant) :
    (settle failures previous full proof now late).Uses Op.NoResult := by
  have hlatch : (latchPersisting failures previous now).Uses Op.NoResult := by
    refine Prog.Uses.forEach fun key _ => ?_
    split
    · exact (Prog.uses_perform _).2 trivial
    · trivial
  have hbaseline : (recordBaseline full failures proof now).Uses Op.NoResult := by
    unfold recordBaseline
    split
    · refine Prog.Uses.bind (fun quantities => ?_) (Prog.uses_ofExcept _)
      refine (Prog.uses_perform _).2 ?_
      exact (by decide : ("baseline" : String) ≠ "p1")
    · exact Prog.uses_done _
  refine Prog.Uses.bind (fun _ => ?_) hlatch
  exact Prog.Uses.bind (fun _ => Prog.uses_done _) hbaseline

end

end History

end TradePulse
