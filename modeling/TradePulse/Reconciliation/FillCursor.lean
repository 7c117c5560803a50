/-
**The durable fill cursor** (`reconciliation/unresolved.py`, `bootstrap.py`, `completeness.py`).

The cursor is the id of the last activity up to which every fill is accounted for: it has a local
fill, a quarantine execution, an outcome, or a row among the unresolved executions.  Three
transactions write under this rule.  The bootstrap classifies a whole history and creates the
cursor; a pass records the fills after the cursor and moves it; and what turns up late, at or
before the cursor, is classified where it is.

Digests of evidence, and the evidence itself, are left out of the rows.

Main definitions:

* `HistoryStore` — the tables;
* `classifyFill` — how a fill can be accounted for;
* `recordPassWrite`, `bootstrapWrite`, `classifyLate` — the transactions;
* `Covered` — a fill is accounted for or on record.

Main results:

* `recordPassWrite_ok`, `bootstrapWrite_ok`, `classifyLate_ok` — what each transaction covers; none
  uncovers anything or moves the cursor back (`Grows`).
-/

import TradePulse.Reconciliation.Activities
import TradePulse.Broker.Types
import TradePulse.Models.Portfolio
import TradePulse.Control.Session

set_option autoImplicit false

namespace TradePulse

open Storage

/-! ### Records -/

/-- An activity as the client has read it. -/
structure AlpacaActivity extends BrokerActivity where
  activityType : String

/-- A record that was built, or what its first check raises. -/
def checkRecord {α : Type} [Checked α] (a : α) : Except Raised α :=
  if Valid a then .ok a else .error (Checked.failure a)

/-- An execution that nothing accounts for yet. -/
structure UnresolvedBrokerExecution where
  activityId : String
  assetKey : String
  side : Side
  quantity : ℚ
  price : ℚ
  transactionTime : Instant
  firstSeenAt : Instant
  passId : String
  deriving DecidableEq

instance : Record UnresolvedBrokerExecution where
  recordId e := e.activityId
  uniqueValue _ := none

instance : Checked UnresolvedBrokerExecution where
  checks e :=
    [ textCheck e.activityId "activity_id",
      textCheck e.assetKey "asset_key",
      textCheck e.passId "pass_id",
      positiveCheck e.quantity "quantity",
      positiveCheck e.price "price" ]

/-- How an execution was explained. -/
inductive Classification
  | matchedFill | quarantineExecution | preDatabase | legacyReconciled
  deriving DecidableEq

structure UnresolvedExecutionOutcome where
  activityId : String
  outcome : Classification
  matchedRecordId : String
  resolvedAt : Instant
  deriving DecidableEq

instance : Record UnresolvedExecutionOutcome where
  recordId e := e.activityId
  uniqueValue _ := none

instance : Checked UnresolvedExecutionOutcome where
  checks e :=
    [ textCheck e.activityId "activity_id",
      textCheck e.matchedRecordId "matched_record_id" ]

/-- An execution against quarantined inventory. -/
structure QuarantineExecution where
  activityId : String
  deriving DecidableEq

instance : Record QuarantineExecution where
  recordId e := e.activityId
  uniqueValue _ := none

/-- The proof that the cursor starts from a complete history. -/
structure FillCursorBootstrap where
  accountRef : String
  boundaryActivityId : String
  activityCount : ℕ
  positionResults : Quantities
  brokerCash : ℚ
  historyCash : ℚ
  reason : String
  createdAt : Instant
  deriving DecidableEq

instance : Record FillCursorBootstrap where
  recordId b := b.accountRef
  uniqueValue b := some b.accountRef

instance : Checked FillCursorBootstrap where
  checks b :=
    [ textCheck b.accountRef "account_ref",
      textCheck b.boundaryActivityId "boundary_activity_id",
      textCheck b.reason "reason" ]

inductive ReconciliationOutcome
  | matched | transientObservationDifference | unresolvedMismatch | incompleteEvidence | error
  | driftDetected | corrected
  deriving DecidableEq

/-- What a reconciliation observed. -/
inductive RecordActual
  /-- The result of a completeness pass: the assets that fail, and whether the pass was full. -/
  | p1 (failures : List String) (full : Bool) (cursor passId : String)
  /-- The quantities that were proven up to a boundary. -/
  | baseline (boundaryActivityId : String) (quantities : Quantities)
  | lateActivity (activityId : String) (firstSeenAt : Instant) (cursor : String)
      (classified : Option Classification)
  | other
  deriving DecidableEq

structure ReconciliationRecord where
  recordId : String
  reconciliationType : String
  subjectId : String
  outcome : ReconciliationOutcome
  actual : RecordActual
  occurredAt : Instant
  deriving DecidableEq

instance : Record ReconciliationRecord where
  recordId r := r.recordId
  uniqueValue _ := none

/-! ### The tables -/

/-- The tables of the cursor, and the session. -/
structure HistoryStore where
  fills : Table Fill := default
  quarantineExecutions : Table QuarantineExecution := default
  unresolvedExecutionOutcomes : Table UnresolvedExecutionOutcome := default
  unresolvedBrokerExecutions : Table UnresolvedBrokerExecution := default
  cursor : Option String := none
  fillCursorBootstrap : Table FillCursorBootstrap := default
  reconciliationRecords : Table ReconciliationRecord := default
  session : TradingSession := {}
  /-- The identity of the database: when it was created, and its verification generation. -/
  databaseCreatedAt : Instant := 0
  generationId : Option String := none

namespace HistoryStore

/-- The local fill of an activity. -/
def fillOf (s : HistoryStore) (id : String) : Option Fill :=
  (s.fills.get? id).or (s.fills.findByUnique id)

/-- `_accounted`: a local fill or a quarantine execution has the id. -/
def accounted (s : HistoryStore) (id : String) : Bool :=
  (s.fillOf id).isSome || (s.quarantineExecutions.get? id).isSome

/-- An activity is accounted for, explained or on record. -/
def covered (s : HistoryStore) (id : String) : Bool :=
  s.accounted id || (s.unresolvedExecutionOutcomes.get? id).isSome ||
    (s.unresolvedBrokerExecutions.get? id).isSome

/-- `_advance_cursor`. -/
def advanceCursor (s : HistoryStore) (cursor : String) : Except Raised HistoryStore :=
  if s.cursor.any fun previous => decide (cursor < previous) then
    .error (.valueError ("FILL_CURSOR_REGRESSION: " ++ cursor ++ " before " ++
      s.cursor.getD ""))
  else .ok { s with cursor := some cursor }

/-- The cursor at the last activity of a page, if there is one. -/
def advanceTo (s : HistoryStore) : Option String → Except Raised HistoryStore
  | none => .ok s
  | some id => s.advanceCursor id

end HistoryStore

/-! ### A pass after the cursor -/

structure PassResult where
  cursor : Option String
  recorded : List String
  deriving DecidableEq

/-- One activity of a pass; the ids that were newly recorded go along. -/
def recordActivity (passId : String) (now : Instant) (s : HistoryStore) (activity : AlpacaActivity) :
    Except Raised (HistoryStore × List String) :=
  if activity.activityType ≠ "FILL" ∨ s.accounted activity.activityId then .ok (s, [])
  else
    match activity.side, activity.qty, activity.price, activity.transactionTime with
    | some side, some quantity, some price, some time => do
        let key ← brokerSymbolAssetKey activity.symbol
        let record ← checkRecord
          { activityId := activity.activityId
            assetKey := key
            side := side
            quantity := quantity
            price := price
            transactionTime := time
            firstSeenAt := now
            passId := passId : UnresolvedBrokerExecution }
        .ok ({ s with
              unresolvedBrokerExecutions := s.unresolvedBrokerExecutions.createOnce record },
          if s.unresolvedBrokerExecutions.Admits record then [activity.activityId] else [])
    | _, _, _, _ =>
        .error (.valueError ("INVENTORY_EVIDENCE_INVALID: unparsable FILL " ++ activity.activityId))

def recordActivities (passId : String) (now : Instant) :
    HistoryStore → List AlpacaActivity → Except Raised (HistoryStore × List String)
  | s, [] => .ok (s, [])
  | s, activity :: activities => do
      let (s, new) ← recordActivity passId now s activity
      let (s, recorded) ← recordActivities passId now s activities
      .ok (s, new ++ recorded)

/-- The transaction of `record_pass`. -/
def recordPassWrite (activities : List AlpacaActivity) (passId : String) (now : Instant)
    (s : HistoryStore) : Except Raised (PassResult × HistoryStore) := do
  let (s, recorded) ← recordActivities passId now s activities
  let s ← s.advanceTo (activities.getLast?.map fun last => last.activityId)
  .ok (⟨s.cursor, recorded⟩, s)

/-! ### Classification -/

/-- `classify_fill`: how the books account for a fill, and the record that does; none for one to
record as unresolved. -/
def classifyFill (s : HistoryStore) (raw : RawActivity) :
    Except Raised (Option (Classification × String)) :=
  match raw.transactionTime with
  | none => .error ⟨.other, "transaction_time"⟩
  | some time =>
      match s.fillOf raw.id with
      | some fill => do
          let quantity ← raw.exactDecimal "qty" raw.qty
          let price ← raw.exactDecimal "price" raw.price
          return if fill.side = raw.tradeSide ∧ fill.quantity = quantity ∧ fill.price = price ∧
            fill.filledAt = time then some (.matchedFill, fill.fillId) else none
      | none =>
          if time < s.databaseCreatedAt then return some (.preDatabase, "verification_identity")
          else
            return (s.reconciliationRecords.rows.find? fun r =>
              decide (r.reconciliationType = "fill") && decide (r.subjectId = raw.id) &&
                (decide (r.outcome = .matched) || decide (r.outcome = .corrected))).map
              fun r => (.legacyReconciled, r.recordId)

/-- Classify a fill and write its row, of which there must be none yet. -/
def classifyAndInsert (passId : String) (now : Instant) (s : HistoryStore) (raw : RawActivity) :
    Except Raised (HistoryStore × Option Classification) := do
  match ← classifyFill s raw with
  | none => do
      let key ← brokerSymbolAssetKey raw.symbol
      let quantity ← raw.exactDecimal "qty" raw.qty
      let price ← raw.exactDecimal "price" raw.price
      let record ← checkRecord
        { activityId := raw.id
          assetKey := key
          side := raw.tradeSide
          quantity := quantity
          price := price
          transactionTime := raw.transactionTime.getD 0
          firstSeenAt := now
          passId := passId : UnresolvedBrokerExecution }
      let rows ← insertRow s.unresolvedBrokerExecutions record
      .ok ({ s with unresolvedBrokerExecutions := rows }, none)
  | some (outcome, matched) => do
      let result ← checkRecord
        { activityId := raw.id
          outcome := outcome
          matchedRecordId := matched
          resolvedAt := now : UnresolvedExecutionOutcome }
      let rows ← insertRow s.unresolvedExecutionOutcomes result
      .ok ({ s with unresolvedExecutionOutcomes := rows }, some outcome)

/-! ### The bootstrap -/

/-- The fills of a history, each classified. -/
def classifyHistory (now : Instant) : HistoryStore → List RawActivity → Except Raised HistoryStore
  | s, [] => .ok s
  | s, raw :: raws =>
      if raw.isFill then do
        let (s, _) ← classifyAndInsert "bootstrap" now s raw
        classifyHistory now s raws
      else classifyHistory now s raws

/-- The transaction of `bootstrap_fill_cursor`. -/
def bootstrapWrite (raws : List RawActivity) (accountKey reason : String) (brokerCash cash : ℚ)
    (now : Instant) (s : HistoryStore) : Except Raised HistoryStore := do
  let s ← classifyHistory now s raws
  match raws.getLast? with
  | none => .error ⟨.other, "list index out of range"⟩
  | some last => do
      let quantities ← historyQuantities raws
      let bootstrap ← checkRecord
        { accountRef := accountKey
          boundaryActivityId := last.id
          activityCount := raws.length
          positionResults := quantities
          brokerCash := brokerCash
          historyCash := cash
          reason := reason
          createdAt := now : FillCursorBootstrap }
      let rows ← insertRow s.fillCursorBootstrap bootstrap
      HistoryStore.advanceCursor { s with fillCursorBootstrap := rows } last.id

/-! ### Late activities -/

/-- The note about a late activity. -/
def lateNote (id cursor : String) (now : Instant) (classified : Option Classification) :
    ReconciliationRecord where
  recordId := "late_activity:" ++ id
  reconciliationType := "late_activity"
  subjectId := id
  outcome := .driftDetected
  actual := .lateActivity id now cursor classified
  occurredAt := now

/-- One activity of `_classify_late`: nothing to do, or the id with whether it is unresolved. -/
def classifyLateOne (cursor passId : String) (now : Instant) (s : HistoryStore) (raw : RawActivity) :
    Except Raised (HistoryStore × List (String × Bool)) :=
  if raw.isFill = false ∨ cursor < raw.id ∨ s.covered raw.id then .ok (s, [])
  else do
    let (s, classified) ← classifyAndInsert passId now s raw
    .ok ({ s with
          reconciliationRecords :=
            s.reconciliationRecords.createOnce (lateNote raw.id cursor now classified) },
      [(raw.id, classified.isNone)])

/-- `_classify_late`. -/
def classifyLate (cursor passId : String) (now : Instant) :
    HistoryStore → List RawActivity → Except Raised (List (String × Bool) × HistoryStore)
  | s, [] => .ok ([], s)
  | s, raw :: raws => do
      let (s, new) ← classifyLateOne cursor passId now s raw
      let (late, s) ← classifyLate cursor passId now s raws
      .ok (new ++ late, s)

/-! ### What is covered stays covered -/

/-- Nothing is uncovered, and the cursor is not moved back. -/
structure Grows (s t : HistoryStore) : Prop where
  covers : ∀ id, s.covered id = true → t.covered id = true
  cursor : ∀ c ∈ s.cursor, ∃ c' ∈ t.cursor, c ≤ c'

namespace Grows

theorem refl (s : HistoryStore) : Grows s s := ⟨fun _ h => h, fun c h => ⟨c, h, String.le_refl c⟩⟩

theorem trans {s t u : HistoryStore} (h : Grows s t) (h' : Grows t u) : Grows s u where
  covers id hs := h'.covers id (h.covers id hs)
  cursor c hc := by
    obtain ⟨c', hc', hle⟩ := h.cursor c hc
    obtain ⟨c'', hc'', hle'⟩ := h'.cursor c' hc'
    exact ⟨c'', hc'', String.le_trans hle hle'⟩

theorem of_tables {s t : HistoryStore} (hcursor : t.cursor = s.cursor)
    (hfills : t.fills = s.fills) (hquarantine : t.quarantineExecutions = s.quarantineExecutions)
    (houtcomes : ∀ id, (s.unresolvedExecutionOutcomes.get? id).isSome →
      (t.unresolvedExecutionOutcomes.get? id).isSome)
    (hunresolved : ∀ id, (s.unresolvedBrokerExecutions.get? id).isSome →
      (t.unresolvedBrokerExecutions.get? id).isSome) : Grows s t where
  covers id h := by
    simp only [HistoryStore.covered, HistoryStore.accounted, HistoryStore.fillOf, hfills,
      hquarantine, Bool.or_eq_true] at h ⊢
    exact h.imp (Or.imp_right (houtcomes id)) (hunresolved id)
  cursor c hc := ⟨c, hcursor ▸ hc, String.le_refl c⟩

end Grows

namespace HistoryStore

theorem covered_of_accounted {s : HistoryStore} {id : String} (h : s.accounted id = true) :
    s.covered id = true := by
  simp [covered, h]

theorem covered_of_unresolved {s : HistoryStore} {id : String}
    (h : (s.unresolvedBrokerExecutions.get? id).isSome) : s.covered id = true := by
  simp [covered, h]

theorem covered_of_outcome {s : HistoryStore} {id : String}
    (h : (s.unresolvedExecutionOutcomes.get? id).isSome) : s.covered id = true := by
  simp [covered, h]

theorem advanceCursor_grows {s t : HistoryStore} {cursor : String}
    (h : s.advanceCursor cursor = .ok t) : Grows s t ∧ t.cursor = some cursor := by
  unfold advanceCursor at h
  split at h
  · cases h
  · rename_i hlt
    cases h
    refine ⟨⟨fun id h => h, fun c hc => ⟨cursor, rfl, ?_⟩⟩, rfl⟩
    rw [Option.mem_def.1 hc] at hlt
    exact String.not_lt.1 (by simpa using hlt)

end HistoryStore

theorem checkRecord_ok {α : Type} [Checked α] {a b : α} (h : checkRecord a = .ok b) : b = a := by
  unfold checkRecord at h
  split at h
  · cases h
    rfl
  · cases h

theorem insertRow_ok {α : Type} [Record α] {t t' : Table α} {row : α}
    (h : insertRow t row = .ok t') : t' = t.createOnce row ∧ t.Admits row := by
  unfold insertRow at h
  split at h
  · rename_i hadmits
    cases h
    exact ⟨rfl, hadmits⟩
  · cases h

theorem insertRow_get? {α : Type} [Record α] {t t' : Table α} {row : α}
    (h : insertRow t row = .ok t') :
    (t'.get? (Record.recordId row)).isSome ∧ ∀ id, (t.get? id).isSome → (t'.get? id).isSome := by
  obtain ⟨rfl, hadmits⟩ := insertRow_ok h
  exact ⟨by rw [Table.get?_createOnce_self hadmits]; rfl, fun id => Table.isSome_get?_createOnce⟩

/-! ### The pass -/

theorem recordActivity_ok {passId : String} {now : Instant} {s t : HistoryStore}
    {activity : AlpacaActivity} {new : List String}
    (h : recordActivity passId now s activity = .ok (t, new)) :
    Grows s t ∧ t.cursor = s.cursor ∧
      (activity.activityType = "FILL" → t.covered activity.activityId = true) := by
  unfold recordActivity at h
  split at h
  · rename_i hskip
    cases h
    refine ⟨.refl s, rfl, fun hfill => ?_⟩
    exact HistoryStore.covered_of_accounted (hskip.resolve_left fun hne => hne hfill)
  · split at h
    · obtain ⟨key, -, h⟩ := except_bind_eq_ok.1 h
      obtain ⟨record, hrecord, h⟩ := except_bind_eq_ok.1 h
      have hid : record.activityId = activity.activityId := by rw [checkRecord_ok hrecord]
      cases h
      refine ⟨.of_tables rfl rfl rfl (fun _ h => h) fun _ => Table.isSome_get?_createOnce, rfl,
        fun _ => HistoryStore.covered_of_unresolved ?_⟩
      rw [← hid]
      exact Table.isSome_get?_createOnce_self fun _ => rfl
    · cases h

theorem recordActivities_ok {passId : String} {now : Instant} {activities : List AlpacaActivity} :
    ∀ {s t : HistoryStore} {recorded : List String},
      recordActivities passId now s activities = .ok (t, recorded) →
      Grows s t ∧ t.cursor = s.cursor ∧
        ∀ a ∈ activities, a.activityType = "FILL" → t.covered a.activityId = true := by
  induction activities with
  | nil =>
      intro s t recorded h
      cases h
      exact ⟨.refl s, rfl, by simp⟩
  | cons activity activities ih =>
      intro s t recorded h
      obtain ⟨⟨u, new⟩, hone, h⟩ := except_bind_eq_ok.1 h
      obtain ⟨⟨v, rest⟩, hrest, h⟩ := except_bind_eq_ok.1 h
      cases h
      obtain ⟨hgrow, hcursor, hcover⟩ := recordActivity_ok hone
      obtain ⟨hgrow', hcursor', hcover'⟩ := ih hrest
      refine ⟨hgrow.trans hgrow', hcursor'.trans hcursor, fun a ha hfill => ?_⟩
      rcases List.mem_cons.1 ha with rfl | hmem
      · exact hgrow'.covers _ (hcover hfill)
      · exact hcover' a hmem hfill

/-- A pass covers every fill of its page, and moves the cursor forward if at all. -/
theorem recordPassWrite_ok {activities : List AlpacaActivity} {passId : String} {now : Instant}
    {s t : HistoryStore} {r : PassResult} (h : recordPassWrite activities passId now s = .ok (r, t)) :
    Grows s t ∧ ∀ a ∈ activities, a.activityType = "FILL" → t.covered a.activityId = true := by
  obtain ⟨⟨u, recorded⟩, hrec, h⟩ := except_bind_eq_ok.1 h
  obtain ⟨v, hadv, h⟩ := except_bind_eq_ok.1 h
  cases h
  obtain ⟨hgrow, -, hcover⟩ := recordActivities_ok hrec
  have hlast : Grows u t := by
    cases hl : activities.getLast?.map fun last => last.activityId with
    | none =>
        rw [hl] at hadv
        cases hadv
        exact .refl _
    | some last =>
        rw [hl] at hadv
        exact (HistoryStore.advanceCursor_grows hadv).1
  exact ⟨hgrow.trans hlast, fun a ha hfill => hlast.covers _ (hcover a ha hfill)⟩

/-- A pass writes nothing but unresolved executions and the cursor. -/
theorem recordPassWrite_tables {activities : List AlpacaActivity} {passId : String} {now : Instant}
    {s t : HistoryStore} {r : PassResult} (h : recordPassWrite activities passId now s = .ok (r, t)) :
    t.fillCursorBootstrap = s.fillCursorBootstrap ∧
      t.reconciliationRecords = s.reconciliationRecords ∧ t.session = s.session := by
  have activity : ∀ {s t : HistoryStore} {a : AlpacaActivity} {new : List String},
      recordActivity passId now s a = .ok (t, new) →
      ∃ rows, t = { s with unresolvedBrokerExecutions := rows } := by
    intro s t a new h
    unfold recordActivity at h
    split at h
    · cases h
      exact ⟨_, rfl⟩
    · split at h
      · obtain ⟨key, -, h⟩ := except_bind_eq_ok.1 h
        obtain ⟨record, -, h⟩ := except_bind_eq_ok.1 h
        cases h
        exact ⟨_, rfl⟩
      · cases h
  have page : ∀ {activities : List AlpacaActivity} {s t : HistoryStore} {recorded : List String},
      recordActivities passId now s activities = .ok (t, recorded) →
      ∃ rows, t = { s with unresolvedBrokerExecutions := rows } := by
    intro activities
    induction activities with
    | nil =>
        intro s t recorded h
        cases h
        exact ⟨_, rfl⟩
    | cons a activities ih =>
        intro s t recorded h
        obtain ⟨⟨u, new⟩, hone, h⟩ := except_bind_eq_ok.1 h
        obtain ⟨⟨v, rest⟩, hrest, h⟩ := except_bind_eq_ok.1 h
        cases h
        obtain ⟨rows, rfl⟩ := activity hone
        obtain ⟨rows', rfl⟩ := ih hrest
        exact ⟨rows', rfl⟩
  obtain ⟨⟨u, recorded⟩, hrec, h⟩ := except_bind_eq_ok.1 h
  obtain ⟨v, hadv, h⟩ := except_bind_eq_ok.1 h
  cases h
  obtain ⟨rows, rfl⟩ := page hrec
  unfold HistoryStore.advanceTo at hadv
  split at hadv
  · cases hadv
    exact ⟨rfl, rfl, rfl⟩
  · unfold HistoryStore.advanceCursor at hadv
    split at hadv
    · cases hadv
    · cases hadv
      exact ⟨rfl, rfl, rfl⟩

/-! ### Classification -/

theorem classifyAndInsert_ok {passId : String} {now : Instant} {s t : HistoryStore}
    {raw : RawActivity} {c : Option Classification}
    (h : classifyAndInsert passId now s raw = .ok (t, c)) :
    Grows s t ∧ t.cursor = s.cursor ∧ t.covered raw.id = true ∧
      t.fillCursorBootstrap = s.fillCursorBootstrap ∧
      t.reconciliationRecords = s.reconciliationRecords ∧ t.session = s.session := by
  obtain ⟨classified, -, h⟩ := except_bind_eq_ok.1 h
  cases classified with
  | none =>
      obtain ⟨key, -, h⟩ := except_bind_eq_ok.1 h
      obtain ⟨quantity, -, h⟩ := except_bind_eq_ok.1 h
      obtain ⟨price, -, h⟩ := except_bind_eq_ok.1 h
      obtain ⟨record, hrecord, h⟩ := except_bind_eq_ok.1 h
      obtain ⟨rows, hrows, h⟩ := except_bind_eq_ok.1 h
      have hid : record.activityId = raw.id := by rw [checkRecord_ok hrecord]
      obtain ⟨hfound, hkept⟩ := insertRow_get? hrows
      cases h
      refine ⟨.of_tables rfl rfl rfl (fun _ h => h) hkept, rfl, ?_, rfl, rfl, rfl⟩
      rw [← hid]
      exact HistoryStore.covered_of_unresolved hfound
  | some cm =>
      obtain ⟨outcome, matched⟩ := cm
      obtain ⟨record, hrecord, h⟩ := except_bind_eq_ok.1 h
      obtain ⟨rows, hrows, h⟩ := except_bind_eq_ok.1 h
      have hid : record.activityId = raw.id := by rw [checkRecord_ok hrecord]
      obtain ⟨hfound, hkept⟩ := insertRow_get? hrows
      cases h
      refine ⟨.of_tables rfl rfl rfl hkept (fun _ h => h), rfl, ?_, rfl, rfl, rfl⟩
      rw [← hid]
      exact HistoryStore.covered_of_outcome hfound

theorem classifyHistory_ok {now : Instant} {raws : List RawActivity} :
    ∀ {s t : HistoryStore}, classifyHistory now s raws = .ok t →
      Grows s t ∧ t.cursor = s.cursor ∧ t.fillCursorBootstrap = s.fillCursorBootstrap ∧
        t.reconciliationRecords = s.reconciliationRecords ∧
        ∀ raw ∈ raws, raw.isFill = true → t.covered raw.id = true := by
  induction raws with
  | nil =>
      intro s t h
      cases h
      exact ⟨.refl s, rfl, rfl, rfl, by simp⟩
  | cons raw raws ih =>
      intro s t h
      unfold classifyHistory at h
      split at h
      · obtain ⟨⟨u, c⟩, hone, h⟩ := except_bind_eq_ok.1 h
        obtain ⟨hgrow, hcursor, hcover, hboot, hrecords, -⟩ := classifyAndInsert_ok hone
        obtain ⟨hgrow', hcursor', hboot', hrecords', hcover'⟩ := ih h
        refine ⟨hgrow.trans hgrow', hcursor'.trans hcursor, hboot'.trans hboot,
          hrecords'.trans hrecords, fun r hr hfill => ?_⟩
        rcases List.mem_cons.1 hr with rfl | hmem
        · exact hgrow'.covers _ hcover
        · exact hcover' r hmem hfill
      · rename_i hnot
        obtain ⟨hgrow, hcursor, hboot, hrecords, hcover⟩ := ih h
        refine ⟨hgrow, hcursor, hboot, hrecords, fun r hr hfill => ?_⟩
        rcases List.mem_cons.1 hr with rfl | hmem
        · exact absurd hfill hnot
        · exact hcover r hmem hfill

/-- The bootstrap covers every fill of the history, and its cursor is the history's last id. -/
theorem bootstrapWrite_ok {raws : List RawActivity} {accountKey reason : String}
    {brokerCash cash : ℚ} {now : Instant} {s t : HistoryStore}
    (h : bootstrapWrite raws accountKey reason brokerCash cash now s = .ok t) :
    Grows s t ∧ (∀ raw ∈ raws, raw.isFill = true → t.covered raw.id = true) ∧
      t.reconciliationRecords = s.reconciliationRecords ∧
      ∃ last quantities b, raws.getLast? = some last ∧ historyQuantities raws = .ok quantities ∧
        t.cursor = some last.id ∧ s.fillCursorBootstrap.Admits b ∧
        t.fillCursorBootstrap = s.fillCursorBootstrap.createOnce b ∧
        b.boundaryActivityId = last.id ∧ b.positionResults = quantities := by
  obtain ⟨u, hclass, h⟩ := except_bind_eq_ok.1 h
  obtain ⟨hgrow, hcursor, hboot, hrecords, hcover⟩ := classifyHistory_ok hclass
  cases hlast : raws.getLast? with
  | none =>
      rw [hlast] at h
      cases h
  | some last =>
      rw [hlast] at h
      obtain ⟨quantities, hq, h⟩ := except_bind_eq_ok.1 h
      obtain ⟨b, hb, h⟩ := except_bind_eq_ok.1 h
      obtain ⟨rows, hrows, h⟩ := except_bind_eq_ok.1 h
      have hfields : b.boundaryActivityId = last.id ∧ b.positionResults = quantities := by
        rw [checkRecord_ok hb]
        exact ⟨rfl, rfl⟩
      obtain ⟨hrows', hadmits⟩ := insertRow_ok hrows
      have hstep : Grows u { u with fillCursorBootstrap := rows } :=
        .of_tables rfl rfl rfl (fun _ h => h) fun _ h => h
      obtain ⟨hadv, hnew⟩ := HistoryStore.advanceCursor_grows h
      have hrest : t.fillCursorBootstrap = rows ∧
          t.reconciliationRecords = u.reconciliationRecords := by
        unfold HistoryStore.advanceCursor at h
        split at h
        · cases h
        · cases h
          exact ⟨rfl, rfl⟩
      refine ⟨hgrow.trans (hstep.trans hadv), fun raw hraw hfill => ?_,
        hrest.2.trans hrecords, last, quantities, b, rfl, hq, hnew, hboot ▸ hadmits, ?_, hfields.1,
        hfields.2⟩
      · exact (hstep.trans hadv).covers _ (hcover raw hraw hfill)
      · rw [hrest.1, hrows', hboot]

/-! ### Late activities -/

theorem classifyLateOne_ok {cursor passId : String} {now : Instant} {s t : HistoryStore}
    {raw : RawActivity} {new : List (String × Bool)}
    (h : classifyLateOne cursor passId now s raw = .ok (t, new)) :
    Grows s t ∧ t.cursor = s.cursor ∧
      (raw.isFill = true → raw.id ≤ cursor → t.covered raw.id = true) := by
  unfold classifyLateOne at h
  split at h
  · rename_i hskip
    cases h
    refine ⟨.refl s, rfl, fun hfill hle => ?_⟩
    rcases hskip with hnot | hlt | hcov
    · rw [hfill] at hnot
      cases hnot
    · exact absurd hle (String.not_le.2 hlt)
    · exact hcov
  · obtain ⟨⟨u, c⟩, hone, h⟩ := except_bind_eq_ok.1 h
    cases h
    obtain ⟨hgrow, hcursor, hcover, -⟩ := classifyAndInsert_ok hone
    have hstep : Grows u { u with reconciliationRecords :=
        u.reconciliationRecords.createOnce (lateNote raw.id cursor now c) } :=
      .of_tables rfl rfl rfl (fun _ h => h) fun _ h => h
    exact ⟨hgrow.trans hstep, hcursor, fun _ _ => hstep.covers _ hcover⟩

/-- Classification covers every fill at or before the cursor it is given. -/
theorem classifyLate_ok {cursor passId : String} {now : Instant} {raws : List RawActivity} :
    ∀ {s t : HistoryStore} {late : List (String × Bool)},
      classifyLate cursor passId now s raws = .ok (late, t) →
      Grows s t ∧ t.cursor = s.cursor ∧
        ∀ raw ∈ raws, raw.isFill = true → raw.id ≤ cursor → t.covered raw.id = true := by
  induction raws with
  | nil =>
      intro s t late h
      cases h
      exact ⟨.refl s, rfl, by simp⟩
  | cons raw raws ih =>
      intro s t late h
      obtain ⟨⟨u, new⟩, hone, h⟩ := except_bind_eq_ok.1 h
      obtain ⟨⟨rest, v⟩, hrest, h⟩ := except_bind_eq_ok.1 h
      cases h
      obtain ⟨hgrow, hcursor, hcover⟩ := classifyLateOne_ok hone
      obtain ⟨hgrow', hcursor', hcover'⟩ := ih hrest
      refine ⟨hgrow.trans hgrow', hcursor'.trans hcursor, fun r hr hfill hle => ?_⟩
      rcases List.mem_cons.1 hr with rfl | hmem
      · exact hgrow'.covers _ (hcover hfill hle)
      · exact hcover' r hmem hfill hle

end TradePulse
