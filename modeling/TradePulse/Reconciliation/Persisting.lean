/-
**A failure that persists.**

A pass latches a failure that the latest result on record had already.  Which assets a pass has
evaluated depends on its kind: a pass whose reads were not proven evaluates nothing, and only a full
pass evaluates cash.  But each of them puts a result on record, and the next pass looks at the latest
alone.  So a failure is latched the second time it is found as long as the latest result is one of a
pass that evaluated it; behind any other result it goes unnoticed, however often it is found.

Main definitions:

* `ReconciliationRecord.evaluates` — the result is one of a pass that evaluated a key;
* `Op.finds` — a pass puts on record that a key fails;
* `Lull` — calls that do not evaluate a key, and the rest of the program in between.

Main results:

* `lull_results` — what is on record after a lull;
* `persisting_failure_latches` — every run in which the latest result evaluates the key;
* `persisting_failure_missed` — the same failure twice, and no block.
-/

import TradePulse.Reconciliation.Baselines

set_option autoImplicit false

namespace TradePulse

open Storage Process

/-- The result is one of a full pass. -/
def ReconciliationRecord.full (r : ReconciliationRecord) : Bool :=
  match r.actual with
  | .p1 _ full _ _ => full
  | _ => false

/-- The row is the result of a pass that evaluated the key: its reads were proven and, for cash, it
was full. -/
def ReconciliationRecord.evaluates (r : ReconciliationRecord) (key : String) : Bool :=
  decide (r.subjectId = "p1") && decide (r.outcome ≠ .incompleteEvidence) &&
    (decide (key ≠ "cash") || r.full)

namespace History

/-- A pass puts on record that it has evaluated the key. -/
def Op.evaluates (key : String) : Op → Bool
  | .createRecord r => r.evaluates key
  | _ => false

/-- A pass puts on record that it has evaluated the key, and that it fails. -/
def Op.finds (key : String) : Op → Bool
  | .createRecord r => r.evaluates key && decide (key ∈ r.failures)
  | _ => false

/-- The id of a result is not taken (`uuid4`). -/
def Op.unused (s : HistoryStore) : Op → Bool
  | .createRecord r => decide (r.subjectId ≠ "p1") ||
      (s.reconciliationRecords.get? r.recordId).isNone
  | _ => true

/-- Calls that do not evaluate the key; in between, the rest of the program leaves the results as
they are. -/
inductive Lull (key : String) (s : HistoryStore) : HistoryStore → Prop
  | refl : Lull key s s
  | call {t u : HistoryStore} {c : Call} {log : List Op} {x : Ending Raised c.Result} :
      Lull key s t → Ran anyAnswer c t log x u → log.any (Op.evaluates key) = false →
      Lull key s u
  | elsewhere {t u : HistoryStore} : Lull key s t →
      historyRecords u "p1" = historyRecords t "p1" → Lull key s u

/-! ### Results on record -/

theorem exec_results {o : Op} {i : Outside} {s t : HistoryStore} {r : o.Res} (ho : o.NoResult)
    (h : exec o i s = .ok (r, t)) : historyRecords t "p1" = historyRecords s "p1" := by
  cases o with
  | readActivities q =>
      obtain rfl := exec_reads rfl h
      rfl
  | createRecord record =>
      cases h
      exact historyRecords_createRecord_of_ne (.inr ho)
  | classifyLate raws cursor passId now => exact (classifyLate_noted h).1.historyRecords "p1"
  | latch reason now =>
      cases h
      exact (Noted.latch s reason now).historyRecords "p1"
  | recordPass activities passId now =>
      exact historyRecords_congr (recordPassWrite_tables h).2.1 "p1"
  | bootstrap raws accountKey reason brokerCash cash now =>
      obtain ⟨t', ht, he⟩ := except_bind_eq_ok.1 h
      cases he
      exact historyRecords_congr (bootstrapWrite_ok ht).2.2.1 "p1"
  | _ =>
      cases h
      rfl

/-- Results were added, none of which evaluates the key. -/
def Unevaluated (key : String) (s t : HistoryStore) : Prop :=
  ∃ added, historyRecords t "p1" = historyRecords s "p1" ++ added ∧
    ∀ r ∈ added, r.evaluates key = false

theorem Unevaluated.of_eq {key : String} {s t : HistoryStore}
    (h : historyRecords t "p1" = historyRecords s "p1") : Unevaluated key s t :=
  ⟨[], by rw [h, List.append_nil], by simp⟩

theorem Unevaluated.trans {key : String} {s t u : HistoryStore} (h : Unevaluated key s t)
    (h' : Unevaluated key t u) : Unevaluated key s u := by
  obtain ⟨added, hrows, hadded⟩ := h
  obtain ⟨added', hrows', hadded'⟩ := h'
  refine ⟨added ++ added', by rw [hrows', hrows, List.append_assoc], fun r hr => ?_⟩
  exact (List.mem_append.1 hr).elim (hadded r) (hadded' r)

theorem exec_unevaluated {key : String} {o : Op} {i : Outside} {s t : HistoryStore} {r : o.Res}
    (ho : o.evaluates key = false) (h : exec o i s = .ok (r, t)) : Unevaluated key s t := by
  cases o with
  | createRecord record =>
      cases h
      have hrecord : record.evaluates key = false := ho
      unfold Unevaluated
      rw [historyRecords_createRecord]
      split
      · refine ⟨[record], rfl, fun r hr => ?_⟩
        rw [List.mem_singleton.1 hr]
        exact hrecord
      · exact ⟨[], by simp, by simp⟩
  | _ =>
      refine .of_eq (exec_results ?_ h)
      trivial

theorem lull_results {key : String} {s t : HistoryStore} (h : Lull key s t) :
    Unevaluated key s t := by
  induction h with
  | refl => exact .of_eq rfl
  | call _ hran hlog ih =>
      refine ih.trans (Runs.rel_log (R := Unevaluated key) (A := fun o => o.evaluates key = false)
        (fun _ => .of_eq rfl) (fun _ _ _ => .trans) ?_ hran ?_)
      · exact fun o i s r s' ho _ hx => exec_unevaluated ho hx
      · intro o ho
        simpa using List.any_eq_false.1 hlog o ho
  | elsewhere _ hsame ih => exact ih.trans (.of_eq hsame)

section

variable {world : Op → Outside → Prop} {s t : HistoryStore} {log : List Op} {key : String}
variable {now : Instant} {full : Bool} {overlapDays : ℕ}

/-- A pass whose reads were not proven evaluates nothing. -/
theorem unproven_evaluates (failures : List String) (full : Bool) (cursor passId key : String)
    (now : Instant) :
    (p1Record .incompleteEvidence failures full cursor passId now).evaluates key = false := by
  have houtcome : (p1Record .incompleteEvidence failures full cursor passId now).outcome =
      .incompleteEvidence := rfl
  unfold ReconciliationRecord.evaluates
  rw [houtcome]
  simp

/-- A pass that has put on record that a key fails leaves that as the latest result, wherever it
stops. -/
theorem finds_latest {x : Ending Raised CompletenessResult}
    (h : Ran world (.completeness now full overlapDays) s log x t)
    (hfinds : log.any (Op.finds key)) (hunused : log.all (Op.unused s)) :
    ∃ r, (historyRecords t "p1").getLast? = some r ∧ r.evaluates key = true ∧
      key ∈ r.failures := by
  obtain ⟨o, ho, hfound⟩ := List.any_eq_true.1 hfinds
  cases o with
  | createRecord r =>
      simp only [Op.finds, Bool.and_eq_true, decide_eq_true_eq] at hfound
      obtain ⟨heval, hfail⟩ := hfound
      have hsubject : r.subjectId = "p1" := by
        simp only [ReconciliationRecord.evaluates, Bool.and_eq_true, decide_eq_true_eq] at heval
        exact heval.1.1
      have hresult : ¬ (Op.createRecord r).NoResult := fun hno => hno hsubject
      rcases completeness_past h (.inr ⟨_, ho, hresult⟩) with ⟨-, -, hlog, -⟩ |
        ⟨cursor, passId, ⟨l, rfl, hl⟩, -, -⟩ |
        ⟨v, failures, late, rest, hjudged, ⟨l, rfl, hl⟩, hrest⟩
      · exact absurd (hlog _ ho) hresult
      · -- a pass whose reads were not proven evaluates nothing
        rcases List.mem_append.1 ho with hin | hin
        · exact absurd (hl _ hin) hresult
        · have hop := List.mem_singleton.1 hin
          injection hop with hr
          rw [hr, unproven_evaluates] at heval
          exact absurd heval Bool.false_ne_true
      · have hr : r = v.result failures full now := by
          rcases List.mem_append.1 ho with hin | hin
          · exact absurd (hl _ hin) hresult
          · rcases List.mem_cons.1 hin with heq | hmem
            · exact Op.createRecord.inj heq
            · exact absurd (hrest.uses_log (settle_uses _ _ _ _ _ _) _ hmem) hresult
        have hfree : s.reconciliationRecords.get? r.recordId = none := by
          have hone := List.all_eq_true.1 hunused _ ho
          simpa [Op.unused, hsubject] using hone
        have hadmits : v.noted.reconciliationRecords.Admits r := by
          intro row hrow
          refine ⟨fun hid => ?_, .inl rfl⟩
          have hnot : ¬ row.Aside := fun haside => by
            rw [hr] at hid
            exact haside.p1 v.passId hid
          exact Table.get?_eq_none_iff.1 hfree row ((hjudged.noted.records.mem_iff hnot).1 hrow) hid
        have hafter : historyRecords t "p1" =
            historyRecords (v.noted.createRecord (v.result failures full now)) "p1" :=
          Runs.rel_log (R := fun s t => historyRecords t "p1" = historyRecords s "p1")
            (fun _ => rfl) (fun _ _ _ h h' => h'.trans h)
            (fun _ _ _ _ _ ho _ hx => exec_results ho hx) hrest
            (hrest.uses_log (settle_uses _ _ _ _ _ _))
        refine ⟨r, ?_, heval, hfail⟩
        rw [hafter, ← hr, historyRecords_createRecord, if_pos ⟨hadmits, by rw [hr]; rfl, hsubject⟩,
          List.getLast?_append]
        rfl
  | _ => cases hfound

/-! ### The latch -/

theorem latch_blocked (s : HistoryStore) (reason : String) (now : Instant) :
    (s.latch reason now).session.state = .financialIntegrityBlocked := by
  unfold HistoryStore.latch Transition.decide
  by_cases hblocked : s.session.state = .financialIntegrityBlocked
  · simp [hblocked]
  · simp [hblocked]

theorem latchAll_blocked {keys : List String} (h : keys ≠ []) (s : HistoryStore) :
    (s.latchAll keys now).session.state = .financialIntegrityBlocked := by
  obtain ⟨pre, key, rfl⟩ := (List.eq_nil_or_concat keys).resolve_left h
  unfold HistoryStore.latchAll
  rw [List.concat_eq_append, List.foldl_append]
  exact latch_blocked _ _ _

/-- The offer of a baseline leaves the session alone. -/
theorem offered_session {failures : List String} {proof : List RawActivity}
    (h : Offered full failures proof now s t) : t.session = s.session := by
  unfold Offered at h
  split at h
  · obtain ⟨_, -, rfl⟩ := h
    rfl
  · rw [h]

/-- A pass that finds what the latest result has latches it. -/
theorem found_again {r : CompletenessResult}
    (h : Ran world (.completeness now full overlapDays) s log (.returned r) t)
    (hfails : key ∈ r.p1Failures) (hkey : key ≠ unprovenAll)
    (hprevious : key ∈ TradePulse.previousFailures s) :
    t.session.state = .financialIntegrityBlocked ∧
      .latch ("FILL_HISTORY_INCOMPLETE:" ++ key) now ∈ log := by
  rcases completeness_past h (.inl ⟨r, rfl⟩) with ⟨-, -, -, hend⟩ | ⟨_, _, -, -, hend⟩ |
    ⟨v, failures, late, rest, hjudged, ⟨l, rfl, -⟩, hrest⟩
  · rw [hend r rfl] at hfails
    cases hfails
  · rw [hend r rfl] at hfails
    exact absurd (List.mem_singleton.1 hfails) hkey
  · obtain ⟨rfl, hoffered, hlatched⟩ := settle_returned hrest
    have hsame : TradePulse.previousFailures v.noted = TradePulse.previousFailures s := by
      unfold TradePulse.previousFailures latestP1
      rw [hjudged.noted.historyRecords]
    rw [hsame] at hoffered hlatched
    refine ⟨?_, ?_⟩
    · rw [offered_session hoffered]
      refine latchAll_blocked (fun hnil => ?_) _
      exact List.filter_eq_nil_iff.1 hnil key hfails (by simpa using hprevious)
    · exact List.mem_append_right _ (List.mem_cons_of_mem _ (hlatched key hfails hprevious))

end

/-- **A failure that persists is latched.**  In every run: a pass has put on record that a key
fails; whatever calls that do not evaluate it follow; and a pass that returned finds it failing
again.  If the latest result before that pass is of one that evaluated the key, the session is
blocked in the end, and the pass has latched it for that key. -/
theorem persisting_failure_latches {key : String} {s₁ s₂ s₃ s₄ : HistoryStore}
    {now₁ now₂ : Instant} {full₁ full₂ : Bool} {overlapDays₁ overlapDays₂ : ℕ}
    {log₁ log₂ : List Op} {x₁ : Ending Raised CompletenessResult} {r : CompletenessResult}
    (hfirst : Ran anyAnswer (.completeness now₁ full₁ overlapDays₁) s₁ log₁ x₁ s₂)
    (hfinds : log₁.any (Op.finds key)) (hunused : log₁.all (Op.unused s₁))
    (hlull : Lull key s₂ s₃)
    (hrecent : ∀ result ∈ latestP1 s₃, result.evaluates key)
    (hsecond : Ran anyAnswer (.completeness now₂ full₂ overlapDays₂) s₃ log₂ (.returned r) s₄)
    (hfails : key ∈ r.p1Failures) (hkey : key ≠ unprovenAll) :
    s₄.session.state = .financialIntegrityBlocked ∧
      .latch ("FILL_HISTORY_INCOMPLETE:" ++ key) now₂ ∈ log₂ := by
  refine found_again hsecond hfails hkey ?_
  obtain ⟨first, hfirstLatest, -, hfailed⟩ := finds_latest hfirst hfinds hunused
  obtain ⟨added, hrows, hadded⟩ := lull_results hlull
  -- whatever the lull has added does not evaluate the key, so it has added nothing
  have hlatest : latestP1 s₃ = some first := by
    unfold latestP1 at hrecent ⊢
    rcases List.eq_nil_or_concat added with rfl | ⟨pre, last, rfl⟩
    · rw [hrows, List.append_nil]
      exact hfirstLatest
    · rw [List.concat_eq_append] at hrows hadded
      have hlast : (historyRecords s₃ "p1").getLast? = some last := by
        rw [hrows, ← List.append_assoc]
        simp
      have hnot := hadded last (by simp)
      rw [hrecent last hlast] at hnot
      cases hnot
  unfold TradePulse.previousFailures
  rw [hlatest]
  exact List.mem_filter.2 ⟨hfailed, by simpa using hkey⟩

/-! ### Three passes -/

/-- The key of a share that the history knows nothing about. -/
def shareKey : String := "equity:default:alpaca:AAPL"

/-- A full pass, a pass in between, and a full pass again, from the bootstrap on. -/
structure ThreePasses where
  key : String
  first : List (Except Raised Outside)
  full : Bool
  between : List (Except Raised Outside)
  second : List (Except Raised Outside)

namespace ThreePasses

variable (p : ThreePasses)

def afterFirst : HistoryStore :=
  played exec anyAnswer (completenessPass 0 true 0) bootstrapped p.first

def afterBetween : HistoryStore :=
  played exec anyAnswer (completenessPass 0 p.full 0) p.afterFirst p.between

def afterSecond : HistoryStore :=
  played exec anyAnswer (completenessPass 0 true 0) p.afterBetween p.second

/-- A pass returned and reports the key. -/
def reportsKey : Ending Raised CompletenessResult → Bool
  | .returned r => decide (p.key ∈ r.p1Failures)
  | _ => false

/-- The first pass finds the key failing, the one in between does not evaluate it, and the second
finds it failing again. -/
def persists : Bool :=
  ((play exec anyAnswer (completenessPass 0 true 0) bootstrapped p.first).any fun q =>
    q.1.any (Op.finds p.key) && q.1.all (Op.unused bootstrapped)) &&
  ((play exec anyAnswer (completenessPass 0 p.full 0) p.afterFirst p.between).any fun q =>
    !q.1.any (Op.evaluates p.key)) &&
  ((play exec anyAnswer (completenessPass 0 true 0) p.afterBetween p.second).any fun q =>
    p.reportsKey q.2.1)

theorem runs_of_persists (h : p.persists = true) :
    ∃ log₁ x₁ log₂ r, Ran anyAnswer (.completeness 0 true 0) bootstrapped log₁ x₁ p.afterFirst ∧
      log₁.any (Op.finds p.key) = true ∧ log₁.all (Op.unused bootstrapped) = true ∧
      Lull p.key p.afterFirst p.afterBetween ∧
      Ran anyAnswer (.completeness 0 true 0) p.afterBetween log₂ (.returned r) p.afterSecond ∧
      p.key ∈ r.p1Failures := by
  unfold persists at h
  rw [Bool.and_eq_true, Bool.and_eq_true] at h
  obtain ⟨log₁, x₁, hfirst, hlog₁⟩ := runs_played_any
    (P := fun log _ => log.any (Op.finds p.key) && log.all (Op.unused bootstrapped)) h.1.1
  obtain ⟨log, x, hbetween, hlog⟩ := runs_played_any
    (P := fun log _ => !log.any (Op.evaluates p.key)) h.1.2
  obtain ⟨log₂, x₂, hsecond, hx₂⟩ := runs_played_any (P := fun _ x => p.reportsKey x) h.2
  rw [Bool.and_eq_true] at hlog₁
  cases x₂ with
  | raised | crashed => cases hx₂
  | returned r =>
      refine ⟨log₁, x₁, log₂, r, hfirst, hlog₁.1, hlog₁.2, ?_, hsecond, of_decide_eq_true hx₂⟩
      exact .call (c := .completeness 0 p.full 0) .refl hbetween (by simpa using hlog)

end ThreePasses

/-- A pass in between whose reads are not proven. -/
def unprovenBetween : ThreePasses where
  key := shareKey
  first := (fullAnswers [deposit] 1 100 "p").take 9
  full := true
  between := [.ok {}, .ok {}, .ok { uuid := "q" }, .ok { proven := false }, .ok {}]
  second := (fullAnswers [deposit] 1 100 "r").take 9

/-- An incremental pass in between, which does not look at cash. -/
def incrementalBetween : ThreePasses where
  key := "cash"
  first := (fullAnswers [deposit] 0 90 "p").take 9
  full := false
  between := incrementalAnswers 0 "q"
  second := (fullAnswers [deposit] 0 90 "r").take 9

/-- A pass in between that crashes before it puts anything on record. -/
def crashBetween : ThreePasses where
  key := shareKey
  first := (fullAnswers [deposit] 1 100 "p").take 9
  full := true
  between := [.ok {}, .ok {}]
  second := fullAnswers [deposit] 1 100 "r"

/-- Whatever calls that do not evaluate the key lie between two passes that find it failing, the
session is blocked in the end. -/
def AlwaysLatched (key : String) : Prop :=
  ∀ s₁ s₂ s₃ s₄ now₁ now₂ full₁ full₂ overlapDays₁ overlapDays₂ log₁ log₂ x₁ r, Passes {} s₁ →
    Ran anyAnswer (.completeness now₁ full₁ overlapDays₁) s₁ log₁ x₁ s₂ →
    log₁.any (Op.finds key) → log₁.all (Op.unused s₁) → Lull key s₂ s₃ →
    Ran anyAnswer (.completeness now₂ full₂ overlapDays₂) s₃ log₂ (.returned r) s₄ →
    key ∈ r.p1Failures → s₄.session.state = .financialIntegrityBlocked

/-- Behind a pass whose reads were not proven, and for cash behind an incremental pass, a failure is
not latched the second time either. -/
theorem persisting_failure_missed : ¬ AlwaysLatched shareKey ∧ ¬ AlwaysLatched "cash" := by
  have missed : ∀ p : ThreePasses, p.persists = true →
      p.afterSecond.session.state ≠ .financialIntegrityBlocked → ¬ AlwaysLatched p.key := by
    intro p hp hopen h
    obtain ⟨log₁, x₁, log₂, r, hfirst, hfinds, hunused, hlull, hsecond, hfails⟩ :=
      p.runs_of_persists hp
    exact hopen (h _ _ _ _ 0 0 _ _ 0 0 log₁ log₂ x₁ r passes_bootstrapped hfirst hfinds hunused
      hlull hsecond hfails)
  constructor
  · exact missed unprovenBetween (by decide +kernel) (by decide +kernel)
  · exact missed incrementalBetween (by decide +kernel) (by decide +kernel)

/-- Behind a pass that crashed before its result it is. -/
theorem persisting_failure_latches_crash :
    crashBetween.afterSecond.session.state = .financialIntegrityBlocked := by
  obtain ⟨log₁, x₁, log₂, r, hfirst, hfinds, hunused, hlull, hsecond, hfails⟩ :=
    crashBetween.runs_of_persists (by decide +kernel)
  have hrecent : ∀ result ∈ latestP1 crashBetween.afterBetween,
      result.evaluates crashBetween.key = true := by decide +kernel
  exact (persisting_failure_latches hfirst hfinds hunused hlull hrecent hsecond hfails
    (by decide)).1

end History

end TradePulse
