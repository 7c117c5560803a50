/-
**Comparing stored timestamps** (`persistence/lock.py`, `_check_lease` and
`list_by_json_time_range` of `persistence/repositories.py`).

The store keeps moments as texts, each the `isoformat` of a moment in UTC, and compares the texts: a
lease against the clock, a payload's time against the ends of a window, a row against the cursor of
a scan.  Elsewhere in this development moments are numbers.  Here the comparisons are those of the
code, and they decide as the numbers do.

Main definitions:

* `stamp` — the text of a moment;
* `LockRow`, `transactionText` — the transactions of the locks, on texts;
* `LockTable.Means` — texts that stand for moments;
* `rangeCondition`, `listByJsonTimeRange` — the query of a window.

Main results:

* `stamp_lt_iff` — texts are compared as instants;
* `transactionText_means`, `decisions_eq` — the locks decide as they do on instants;
* `rangeCondition_iff`, `cursor_lt_iff` — windows and cursors do so too;
* `texts_compare_like_instants` — all of it together, in any time zones.
-/

import TradePulse.Encoding.IsoOrder
import TradePulse.Persistence.Lock
import TradePulse.Persistence.Pagination

set_option autoImplicit false

namespace TradePulse

namespace Persistence

namespace Timestamps

open Encoding Pagination Storage

/-- `isoformat`, as a text. -/
def stamp (t : DateTime) : String := String.ofList t.isoformat

/-- **Stored texts are compared as instants.** -/
theorem stamp_lt_iff (a b : DateTime) : stamp a < stamp b ↔ a.instant < b.instant := by
  rw [String.lt_iff_toList_lt, stamp, stamp, String.toList_ofList, String.toList_ofList]
  exact a.isoformat_lt_iff b

theorem stamp_le_iff (a b : DateTime) : stamp a ≤ stamp b ↔ a.instant ≤ b.instant := by
  rw [← not_lt, ← not_lt, stamp_lt_iff]

theorem stamp_eq_iff (a b : DateTime) : stamp a = stamp b ↔ a.instant = b.instant := by
  rw [le_antisymm_iff, le_antisymm_iff, stamp_le_iff, stamp_le_iff]

/-! ### Locks -/

/-- A row of `locks`, as the database has it. -/
structure LockRow where
  ownerToken : String
  acquiredAt : String
  expiresAt : String
  command : String

/-- The table `locks`, by `lock_key`. -/
abbrev LockTable : Type := String → Option LockRow

/-- `(now + timedelta(seconds=ttl_seconds)).isoformat()`; `none` is the `OverflowError` after the
last year. -/
def expiryText (now : DateTime) (ttlSeconds : ℤ) : Option String :=
  (DateTime.ofInstant (expiry now.instant ttlSeconds)).map stamp

/-- `acquire_lock`. -/
def acquireLockText (lockKey ownerToken command : String) (ttlSeconds : ℤ) (now : DateTime)
    (locks : LockTable) : Option (Bool × LockTable) :=
  (expiryText now ttlSeconds).map fun expiresAt =>
    if (locks lockKey).any fun row => stamp now < row.expiresAt then (false, locks)
    else (true, Function.update locks lockKey (some
      { ownerToken := ownerToken
        acquiredAt := stamp now
        expiresAt := expiresAt
        command := command }))

/-- `release_lock`. -/
def releaseLockText (lockKey ownerToken : String) (locks : LockTable) : LockTable :=
  if (locks lockKey).any fun row => row.ownerToken = ownerToken then
    Function.update locks lockKey none
  else locks

/-- `renew_lock`. -/
def renewLockText (lockKey ownerToken : String) (ttlSeconds : ℤ) (now : DateTime)
    (locks : LockTable) : Option (Bool × LockTable) :=
  (expiryText now ttlSeconds).map fun expiresAt =>
    match locks lockKey with
    | some row =>
        if row.ownerToken = ownerToken ∧ stamp now < row.expiresAt then
          (true, Function.update locks lockKey (some { row with expiresAt := expiresAt }))
        else (false, locks)
    | none => (false, locks)

/-- `_check_lease`: what lets the write go on. -/
def checkLeaseText (lockKey ownerToken : String) (now : DateTime) (locks : LockTable) : Bool :=
  match locks lockKey with
  | none => false
  | some row => ! (decide (row.ownerToken ≠ ownerToken) || decide (row.expiresAt ≤ stamp now))

/-- The transaction of a call. -/
def transactionText (r : Request) (reading clock : DateTime) (locks : LockTable) :
    Option (Bool × LockTable) :=
  match r with
  | .acquire lockKey ownerToken command ttlSeconds =>
      acquireLockText lockKey ownerToken command ttlSeconds reading locks
  | .renew lockKey ownerToken ttlSeconds =>
      renewLockText lockKey ownerToken ttlSeconds reading locks
  | .release lockKey ownerToken => some (true, releaseLockText lockKey ownerToken locks)
  | .write lockKey ownerToken => some (checkLeaseText lockKey ownerToken clock locks, locks)

/-- The text of a number of microseconds. -/
def Stamped (text : String) (i : Instant) : Prop := ∃ t : DateTime, text = stamp t ∧ t.instant = i

theorem Stamped.lt_iff {text : String} {i : Instant} (h : Stamped text i) (now : DateTime) :
    stamp now < text ↔ now.instant < i := by
  obtain ⟨t, rfl, rfl⟩ := h
  exact stamp_lt_iff now t

theorem stamped_expiry {now : DateTime} {ttlSeconds : ℤ} {text : String}
    (h : expiryText now ttlSeconds = some text) : Stamped text (expiry now.instant ttlSeconds) := by
  obtain ⟨t, ht, rfl⟩ := Option.map_eq_some_iff.1 h
  exact ⟨t, rfl, DateTime.ofInstant_eq_some_iff.1 ht⟩

/-- A row whose texts are those of a lock's instants. -/
structure LockRow.Means (row : LockRow) (lock : Lock) : Prop where
  ownerToken : row.ownerToken = lock.ownerToken
  command : row.command = lock.command
  acquiredAt : Stamped row.acquiredAt lock.acquiredAt
  expiresAt : Stamped row.expiresAt lock.expiresAt

/-- The rows stand for the locks. -/
def LockTable.Means (texts : LockTable) (locks : Locks) : Prop :=
  ∀ key, Option.Rel LockRow.Means (texts key) (locks key)

theorem means_empty : LockTable.Means (fun _ => none) (fun _ => none) := fun _ => .none

section Simulation

variable {texts : LockTable} {locks : Locks} {row : Option LockRow} {lock : Option Lock}

theorem LockTable.Means.update (h : texts.Means locks) (key : String)
    (hrow : Option.Rel LockRow.Means row lock) :
    LockTable.Means (Function.update texts key row) (Function.update locks key lock) := by
  intro key'
  by_cases hkey : key' = key
  · subst hkey
    simpa only [Function.update_self] using hrow
  · simpa only [Function.update_of_ne hkey] using h key'

/-- What is asked of a row is asked of its lock. -/
theorem any_eq (h : Option.Rel LockRow.Means row lock) {p : LockRow → Bool} {q : Lock → Bool}
    (hpq : ∀ r l, LockRow.Means r l → p r = q l) : row.any p = lock.any q := by
  cases h with
  | none => rfl
  | some h => exact hpq _ _ h

theorem acquireLockText_means (h : texts.Means locks) {key token command : String} {ttl : ℤ}
    {now : DateTime} {result : Bool × LockTable}
    (hresult : acquireLockText key token command ttl now texts = some result) :
    result.1 = (acquireLock key token command ttl now.instant locks).1 ∧
      result.2.Means (acquireLock key token command ttl now.instant locks).2 := by
  obtain ⟨expiresAt, hexpiry, rfl⟩ := Option.map_eq_some_iff.1 hresult
  have hany : ((texts key).any fun row => decide (stamp now < row.expiresAt)) =
      (locks key).any fun lock => decide (now.instant < lock.expiresAt) :=
    any_eq (h key) fun r l hmeans => decide_eq_decide.2 (hmeans.expiresAt.lt_iff now)
  simp only [acquireLock, hany]
  split
  · exact ⟨rfl, h⟩
  · exact ⟨rfl, h.update key (.some ⟨rfl, rfl, ⟨now, rfl, rfl⟩, stamped_expiry hexpiry⟩)⟩

theorem releaseLockText_means (h : texts.Means locks) (key token : String) :
    (releaseLockText key token texts).Means (releaseLock key token locks) := by
  have hany : ((texts key).any fun row => decide (row.ownerToken = token)) =
      (locks key).any fun lock => decide (lock.ownerToken = token) :=
    any_eq (h key) fun r l hmeans => by rw [hmeans.ownerToken]
  simp only [releaseLockText, releaseLock, hany]
  split
  · exact h.update key .none
  · exact h

theorem renewLockText_means (h : texts.Means locks) {key token : String} {ttl : ℤ}
    {now : DateTime} {result : Bool × LockTable}
    (hresult : renewLockText key token ttl now texts = some result) :
    result.1 = (renewLock key token ttl now.instant locks).1 ∧
      result.2.Means (renewLock key token ttl now.instant locks).2 := by
  obtain ⟨expiresAt, hexpiry, rfl⟩ := Option.map_eq_some_iff.1 hresult
  have hkey := h key
  simp only [renewLock]
  cases hlock : locks key with
  | none =>
      rw [hlock] at hkey
      cases hrow : texts key with
      | none => exact ⟨rfl, h⟩
      | some row =>
          rw [hrow] at hkey
          cases hkey
  | some lock =>
      rw [hlock] at hkey
      cases hrow : texts key with
      | none =>
          rw [hrow] at hkey
          cases hkey
      | some row =>
          rw [hrow] at hkey
          obtain ⟨hmeans⟩ := hkey
          simp only [hmeans.ownerToken, hmeans.expiresAt.lt_iff now]
          split
          · exact ⟨rfl, h.update key (.some
              ⟨rfl, hmeans.command, hmeans.acquiredAt, stamped_expiry hexpiry⟩)⟩
          · exact ⟨rfl, h⟩

theorem checkLeaseText_means (h : texts.Means locks) (key token : String) (now : DateTime) :
    checkLeaseText key token now texts = true ↔
      checkLease key token now.instant locks = .ok () := by
  have hany : checkLeaseText key token now texts =
      (locks key).any fun lock =>
        decide (lock.ownerToken = token ∧ now.instant < lock.expiresAt) := by
    have htexts : checkLeaseText key token now texts =
        (texts key).any fun row => decide (row.ownerToken = token ∧ stamp now < row.expiresAt) := by
      unfold checkLeaseText
      cases texts key with
      | none => rfl
      | some row =>
          rw [Bool.eq_iff_iff]
          simp
    rw [htexts]
    exact any_eq (h key) fun r l hmeans => by
      rw [hmeans.ownerToken, decide_eq_decide, hmeans.expiresAt.lt_iff now]
  rw [hany, checkLease]
  split
  · exact iff_of_true ‹_› rfl
  · exact iff_of_false ‹_› nofun

/-- **A transaction on texts** decides and writes as the one on instants. -/
theorem transactionText_means (h : texts.Means locks) {r : Request} {reading clock : DateTime}
    {result : Bool × LockTable} (hresult : transactionText r reading clock texts = some result) :
    result.1 = (transaction r reading.instant clock.instant locks).1 ∧
      result.2.Means (transaction r reading.instant clock.instant locks).2 := by
  cases r with
  | acquire key token command ttl => exact acquireLockText_means h hresult
  | renew key token ttl => exact renewLockText_means h hresult
  | release key token =>
      obtain rfl := Option.some.inj hresult
      exact ⟨rfl, releaseLockText_means h key token⟩
  | write key token =>
      obtain rfl := Option.some.inj hresult
      have hlease := checkLeaseText_means h key token clock
      simp only [transaction]
      cases hcheck : checkLease key token clock.instant locks with
      | ok u => exact ⟨hlease.2 hcheck, h⟩
      | error e =>
          rw [hcheck] at hlease
          refine ⟨Bool.eq_false_iff.2 fun htrue => ?_, h⟩
          cases hlease.1 htrue

end Simulation

/-! ### Runs of transactions -/

/-- A call: its reading of the clock, and the clock when it commits. -/
structure Call where
  request : Request
  reading : DateTime
  clock : DateTime

/-- Until when a call asks for a key. -/
def Request.deadline (r : Request) (reading : Instant) : Option Instant :=
  match r with
  | .acquire _ _ _ ttlSeconds => some (expiry reading ttlSeconds)
  | .renew _ _ ttlSeconds => some (expiry reading ttlSeconds)
  | .release _ _ => none
  | .write _ _ => none

/-- The deadline lies after the last year, so that the call raises. -/
def Call.overflows (c : Call) : Bool :=
  (Request.deadline c.request c.reading.instant).any fun i => (DateTime.ofInstant i).isNone

/-- What calls in this order are answered, on texts; a call that raises has no answer. -/
def decisions (locks : LockTable) : List Call → List (Option Bool)
  | [] => []
  | c :: calls =>
      match transactionText c.request c.reading c.clock locks with
      | none => none :: decisions locks calls
      | some (granted, locks') => some granted :: decisions locks' calls

/-- What they are answered on instants. -/
def instantDecisions (locks : Locks) : List Call → List (Option Bool)
  | [] => []
  | c :: calls =>
      if c.overflows then none :: instantDecisions locks calls
      else
        let result := transaction c.request c.reading.instant c.clock.instant locks
        some result.1 :: instantDecisions result.2 calls

theorem expiryText_eq_none_iff {now : DateTime} {ttlSeconds : ℤ} :
    expiryText now ttlSeconds = none ↔
      DateTime.ofInstant (expiry now.instant ttlSeconds) = none :=
  Option.map_eq_none_iff

theorem transactionText_eq_none_iff (c : Call) (locks : LockTable) :
    transactionText c.request c.reading c.clock locks = none ↔ c.overflows = true := by
  obtain ⟨r, reading, clock⟩ := c
  cases r <;>
    simp [transactionText, acquireLockText, renewLockText, Call.overflows, Request.deadline,
      expiryText_eq_none_iff]

/-- **The locks decide on texts as they do on instants.** -/
theorem decisions_eq {texts : LockTable} {locks : Locks} (h : texts.Means locks)
    (calls : List Call) : decisions texts calls = instantDecisions locks calls := by
  induction calls generalizing texts locks with
  | nil => rfl
  | cons c calls ih =>
      have hnone := transactionText_eq_none_iff c texts
      cases hresult : transactionText c.request c.reading c.clock texts with
      | none =>
          simp only [decisions, instantDecisions, hresult, hnone.1 hresult, if_true, ih h]
      | some result =>
          obtain ⟨hgranted, hmeans⟩ := transactionText_means h hresult
          have hraises : ¬ c.overflows = true := by
            rw [← hnone, hresult]
            exact nofun
          simp only [decisions, instantDecisions, hresult, if_neg hraises, hgranted, ih hmeans]

/-! ### Windows and cursors -/

section Windows

variable (sql : SqlTexts)

/-- `a < b`: null is not compared, and numbers come before texts. -/
def sqlLess : SqlValue → SqlValue → Bool
  | .integer n, .integer m => n < m
  | .integer n, .real q => (n : ℚ) < q
  | .real q, .integer n => q < (n : ℚ)
  | .real q, .real r => q < r
  | .text s, .text t => s < t
  | .integer _, .text _ => true
  | .real _, .text _ => true
  | _, _ => false

/-- `a >= b`. -/
def sqlAtLeast (a b : SqlValue) : Bool := sqlLess b a || a.equals b

/-- The `WHERE` of `list_by_json_time_range`, for ends in UTC. -/
def rangeCondition (field : String) (start stop : DateTime) (row : Row) : Bool :=
  sqlAtLeast (jsonExtract sql row.payload [field]) (.text (stamp start)) &&
    sqlLess (jsonExtract sql row.payload [field]) (.text (stamp stop))

/-- `list_by_json_time_range`. -/
def listByJsonTimeRange (t : Table Row) (field : String) (start stop : DateTime) (limit : ℕ)
    (after : Option Cursor) : Except Raised (List Row) := do
  validateJsonFieldName sql field
  checkLimit limit
  return select t (rangeCondition sql field start stop) after limit

variable {sql}

/-- **A window holds what lies in it**: the payload's field holds a moment. -/
theorem rangeCondition_iff {row : Row} {field : String} {t : DateTime}
    (hfield : row.payload.get? field = some (Stored.dateJson t)) (start stop : DateTime) :
    rangeCondition sql field start stop row = true ↔
      start.instant ≤ t.instant ∧ t.instant < stop.instant := by
  have hvalue : jsonExtract sql row.payload [field] = .text (stamp t) := by
    simp [jsonExtract, hfield, Stored.dateJson, stamp]
  simp only [rangeCondition, hvalue, sqlAtLeast, sqlLess, SqlValue.text_equals, Bool.and_eq_true,
    Bool.or_eq_true, decide_eq_true_eq, stamp_lt_iff, stamp_eq_iff]
  omega

/-- A page of a window, when every row of the table has a time in the field. -/
theorem listByJsonTimeRange_eq {t : Table Row} {field : String} {limit : ℕ} (time : Row → DateTime)
    (htime : ∀ row ∈ t, row.payload.get? field = some (Stored.dateJson (time row)))
    (hname : isFieldName field = true) (hlimit : 1 ≤ limit ∧ limit ≤ 1000) (start stop : DateTime)
    (after : Option Cursor) :
    listByJsonTimeRange sql t field start stop limit after =
      .ok (select t (fun row => decide (start.instant ≤ (time row).instant ∧
        (time row).instant < stop.instant)) after limit) := by
  have hcheck : checkLimit limit = .ok () := by
    rw [checkLimit, raiseIf_eq_ok_iff]
    omega
  have hfield : validateJsonFieldName sql field = .ok () := by
    rw [validateJsonFieldName, raiseIf_eq_ok_iff, hname]
    simp
  have hrows : t.rows.filter (rangeCondition sql field start stop) = t.rows.filter fun row =>
      decide (start.instant ≤ (time row).instant ∧ (time row).instant < stop.instant) := by
    refine List.filter_congr fun row hrow => ?_
    rw [Bool.eq_iff_iff, rangeCondition_iff (htime row hrow), decide_eq_true_eq]
  simp only [listByJsonTimeRange, hcheck, hfield, select, hrows]
  rfl

/-- **Rows are scanned in the order of their times.** -/
theorem cursor_lt_iff {a b : Row} {s t : DateTime} (ha : a.createdAt = stamp s)
    (hb : b.createdAt = stamp t) :
    a.cursor < b.cursor ↔
      s.instant < t.instant ∨ (s.instant = t.instant ∧ a.recordId < b.recordId) := by
  rw [Row.cursor, Row.cursor, Prod.Lex.toLex_lt_toLex, ha, hb, stamp_lt_iff, stamp_eq_iff]

end Windows

/-! ### In any time zones -/

/-- **Stored timestamps compare like instants.**  A moment in any time zone can be written in UTC if
it lies within the years of the calendar there, and the order of the texts is the order of the
moments.  So the locks grant, renew and fence as they would on instants, in any run of calls; a
window selects the rows whose time lies in it; and rows come in the order of their times of
creation. -/
theorem texts_compare_like_instants :
    (∀ a : Aware, (Fields.dayLength : ℤ) ≤ a.instant →
      a.instant < (daysBeforeYear 10000 + 1) * Fields.dayLength → ∃ t, a.utc = some t) ∧
    (∀ (a b : Aware) (s t : DateTime), a.utc = some s → b.utc = some t →
      (stamp s < stamp t ↔ a.instant < b.instant)) ∧
    (∀ calls : List Call,
      decisions (fun _ => none) calls = instantDecisions (fun _ => none) calls) ∧
    (∀ (sql : SqlTexts) (row : Row) (field : String) (a start stop : Aware)
      (t first last : DateTime),
      a.utc = some t → start.utc = some first → stop.utc = some last →
      row.payload.get? field = some (Stored.dateJson t) →
      (rangeCondition sql field first last row = true ↔
        start.instant ≤ a.instant ∧ a.instant < stop.instant)) ∧
    (∀ (row row' : Row) (a b : Aware) (s t : DateTime), a.utc = some s → b.utc = some t →
      row.createdAt = stamp s → row'.createdAt = stamp t →
      (row.cursor < row'.cursor ↔
        a.instant < b.instant ∨ (a.instant = b.instant ∧ row.recordId < row'.recordId))) := by
  refine ⟨fun _ => DateTime.exists_ofInstant, fun a b s t hs ht => ?_, decisions_eq means_empty,
    ?_, ?_⟩
  · rw [← Aware.instant_utc hs, ← Aware.instant_utc ht]
    exact stamp_lt_iff s t
  · intro sql row field a start stop t first last ht hfirst hlast hfield
    rw [← Aware.instant_utc ht, ← Aware.instant_utc hfirst, ← Aware.instant_utc hlast]
    exact rangeCondition_iff hfield first last
  · intro row row' a b s t hs ht hrow hrow'
    rw [← Aware.instant_utc hs, ← Aware.instant_utc ht]
    exact cursor_lt_iff hrow hrow'

/-- Ten in the morning in New York, five hours behind UTC. -/
private def newYorkTen : Aware where
  wall := { year := 2026, month := 1, day := 5, hour := 10 }
  valid := by decide
  offset := -18000000000
  offset_lt := by decide

/-- A microsecond later in Tokyo, nine hours ahead of UTC. -/
private def tokyoLater : Aware where
  wall := { year := 2026, month := 1, day := 6, microsecond := 1 }
  valid := by decide
  offset := 32400000000
  offset_lt := by decide

private def fifteen : DateTime := ⟨{ year := 2026, month := 1, day := 5, hour := 15 }, by decide⟩

private def fifteenLater : DateTime :=
  ⟨{ year := 2026, month := 1, day := 5, hour := 15, microsecond := 1 }, by decide⟩

/-- The text without a fraction comes before the one with the smallest fraction. -/
theorem texts_compare_like_instants_ten :
    stamp fifteen = "2026-01-05T15:00:00+00:00" ∧
      stamp fifteenLater = "2026-01-05T15:00:00.000001+00:00" ∧
      stamp fifteen < stamp fifteenLater := by
  refine ⟨by decide +kernel, by decide +kernel, ?_⟩
  exact (texts_compare_like_instants.2.1 newYorkTen tokyoLater fifteen fifteenLater
    (DateTime.ofInstant_eq_some_iff.2 (by decide +kernel))
    (DateTime.ofInstant_eq_some_iff.2 (by decide +kernel))).2 (by decide +kernel)

end Timestamps

end Persistence

end TradePulse
