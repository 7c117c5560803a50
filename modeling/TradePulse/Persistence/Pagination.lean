/-
**Reading a table to its end** (`list_page`, `list_by_asset`, `list_by_json_field` and
`_paginate_all` of `persistence/repositories.py`).

A page is one query: what matches and lies past the cursor `(created_at, record_id)`, in the order
of the cursor.  Between two pages other writers insert rows and update payloads, so that rows come,
start to match and cease to match, before the cursor and past it.  No write changes `created_at` or
`record_id`, and this is what the scan rests on.

Main definitions:

* `Row`, `Write` — a stored row, and what is written between two pages;
* `jsonExtract`, `SqlValue.equals` — what the database computes on a payload;
* `listPage`, `listByAsset`, `listByJsonField`, `Query.fetchPage` — one page;
* `paginateAll` — the scan.

Main results:

* `assetCondition_iff` — the condition on a payload is the condition on the asset written there;
* `cursor_eq_of_recordId` — a row keeps its cursor;
* `paginateAll_spec` — what a scan that ends has read, and that it does not raise;
* `exists_fuel` — it ends if from some page on nothing is inserted;
* `scan_complete` — **nothing is lost and nothing repeated**.
-/

import Mathlib.Data.Prod.Lex
import TradePulse.Paging.Keyset
import TradePulse.Persistence.AssetMatching
import TradePulse.Persistence.Payload
import TradePulse.Storage.Table

set_option autoImplicit false

namespace TradePulse

namespace Persistence

namespace Pagination

open Encoding Paging Storage

/-! ### Rows and writes -/

/-- The place of a row in a scan: `created_at`, and then `record_id`. -/
abbrev Cursor := String ×ₗ String

/-- A row of a table; `status` and the unique column are null where the table has none. -/
structure Row where
  recordId : String
  createdAt : String
  payload : Mapping Json
  status : Option String := none
  updatedAt : Option String := none
  unique : Option String := none

instance : Record Row where
  recordId := Row.recordId
  uniqueValue := Row.unique

/-- `(row["created_at"], row["record_id"])`. -/
def Row.cursor (row : Row) : Cursor := toLex (row.createdAt, row.recordId)

/-- The row with another payload; its status stays when none is given. -/
def Row.updated (row : Row) (payload : Mapping Json) (status : Option String) (now : String) :
    Row :=
  { row with payload := payload, status := status.or row.status, updatedAt := some now }

@[simp] theorem Row.cursor_updated (row : Row) (payload : Mapping Json) (status : Option String)
    (now : String) : (row.updated payload status now).cursor = row.cursor := rfl

theorem Row.sameKeys_updated (row : Row) (payload : Mapping Json) (status : Option String)
    (now : String) : SameKeys row (row.updated payload status now) := ⟨rfl, rfl⟩

/-- A write that commits between two pages. -/
inductive Write
  /-- `create_once`, of a row with its time of creation. -/
  | createOnce (row : Row)
  /-- `update`, `claim_if_processable` and `mutate`; a table without a status is given none. -/
  | update (recordId : String) (payload : Mapping Json) (status : Option String) (now : String)

/-- The write inserts a row, or tries to. -/
def Write.Inserts : Write → Prop
  | .createOnce _ => True
  | .update .. => False

/-- `INSERT OR IGNORE`, or `UPDATE … WHERE record_id=?`. -/
def Write.apply (t : Table Row) : Write → Table Row
  | .createOnce row => t.createOnce row
  | .update recordId payload status now =>
      match t.get? recordId with
      | none => t
      | some row => t.put (row.updated payload status now)

/-- The table when the page of a number is read: `commits n` is written between the pages of the
numbers `n` and `n + 1`. -/
def tableAt (t : Table Row) (commits : ℕ → List Write) : ℕ → Table Row
  | 0 => t
  | n + 1 => (commits n).foldl Write.apply (tableAt t commits n)

/-! ### What the database computes -/

/-- A value of the database. -/
inductive SqlValue
  | null
  | integer (n : ℤ)
  | real (q : ℚ)
  | text (s : String)
  deriving DecidableEq

/-- The texts and the rounding of the database and of Python. -/
structure SqlTexts where
  minified : Json → String
  realText : ℚ → String
  /-- The number that stands for an integer of more than 64 bits. -/
  double : ℤ → ℚ
  /-- `repr` of a text. -/
  repr : String → String

variable (sql : SqlTexts)

/-- A JSON value as a value of the database. -/
def sqlValue : Json → SqlValue
  | .null => .null
  | .bool b => .integer (if b then 1 else 0)
  | .int n => if -2 ^ 63 ≤ n ∧ n < 2 ^ 63 then .integer n else .real (sql.double n)
  | .num q => .real q
  | .str s => .text s
  | .arr items => .text (sql.minified (.arr items))
  | .obj items => .text (sql.minified (.obj items))

/-- `json_extract(payload, '$.a.b')`; a path that leads nowhere gives null. -/
def jsonExtract (payload : Mapping Json) : List String → SqlValue
  | [] => sqlValue sql (.obj payload.items)
  | field :: path =>
      match path.foldl (fun found key => found.bind (Json.get? key)) (payload.get? field) with
      | none => .null
      | some value => sqlValue sql value

/-- `a = b`: null is equal to nothing, and a text is equal to no number. -/
def SqlValue.equals : SqlValue → SqlValue → Bool
  | .integer n, .integer m => n = m
  | .integer n, .real q => (n : ℚ) = q
  | .real q, .integer n => q = (n : ℚ)
  | .real q, .real r => q = r
  | .text s, .text t => s = t
  | _, _ => false

@[simp] theorem sqlValue_str (s : String) : sqlValue sql (.str s) = .text s := rfl

@[simp] theorem SqlValue.text_equals (s t : String) :
    (SqlValue.text s).equals (.text t) = decide (s = t) := rfl

/-- `COALESCE(a, b)`. -/
def SqlValue.coalesce : SqlValue → SqlValue → SqlValue
  | .null, b => b
  | a, _ => a

/-- `LOWER(a)`. -/
def SqlValue.lower : SqlValue → SqlValue
  | .null => .null
  | .integer n => .text (toString n)
  | .real q => .text (sqlLower (sql.realText q))
  | .text s => .text (sqlLower s)

/-! ### A page -/

/-- `SELECT * … WHERE … AND (created_at, record_id) > (?, ?) ORDER BY created_at ASC, record_id ASC
LIMIT ?`. -/
def select (t : Table Row) (condition : Row → Bool) (after : Option Cursor) (limit : ℕ) :
    List Row :=
  page Row.cursor (t.rows.filter condition) after limit

/-- The bounds of the three queries. -/
def checkLimit (limit : ℕ) : Except Raised Unit :=
  raiseIf (limit < 1 ∨ 1000 < limit) (.valueError "limit must be between 1 and 1000")

/-- `list_page`. -/
def listPage (t : Table Row) (limit : ℕ) (after : Option Cursor) : Except Raised (List Row) := do
  checkLimit limit
  return select t (fun _ => true) after limit

/-- The `WHERE` of `list_by_asset`. -/
def assetCondition (str : StrLower) (asset : AssetIdentity) (row : Row) : Bool :=
  (jsonExtract sql row.payload ["asset", "asset_class"]).equals (.text asset.assetClass.value) &&
    (((jsonExtract sql row.payload ["asset", "venue"]).coalesce (.text "default")).lower sql).equals
        (.text (str.lower (venueOf asset))) &&
      (jsonExtract sql row.payload ["asset", "native_asset_id"]).equals
        (.text asset.nativeAssetId)

/-- `list_by_asset`. -/
def listByAsset (str : StrLower) (t : Table Row) (asset : AssetIdentity) (limit : ℕ)
    (after : Option Cursor) : Except Raised (List Row) := do
  checkLimit limit
  return select t (assetCondition sql str asset) after limit

/-- `_JSON_FIELD_NAME_RE.match`; its `$` lets a line end after the name. -/
def isFieldName (field : String) : Bool :=
  let chars := field.toList
  let name := if chars.getLast? = some '\n' then chars.dropLast else chars
  match name with
  | [] => false
  | c :: rest => (c.isAlpha || c = '_') && rest.all fun c => c.isAlphanum || c = '_'

/-- `_validate_json_field_name`. -/
def validateJsonFieldName (field : String) : Except Raised Unit :=
  raiseIf (isFieldName field = false) (.valueError ("invalid JSON field name: " ++ sql.repr field))

/-- `list_by_json_field`. -/
def listByJsonField (t : Table Row) (field : String) (value : SqlValue) (limit : ℕ)
    (after : Option Cursor) : Except Raised (List Row) := do
  validateJsonFieldName sql field
  checkLimit limit
  return select t (fun row => (jsonExtract sql row.payload [field]).equals value) after limit

/-- What is asked for in pages. -/
inductive Query
  | page
  | byAsset (str : StrLower) (asset : AssetIdentity)
  | byJsonField (field : String) (value : SqlValue)

/-- The field of a query has a name that the code accepts. -/
def Query.Named : Query → Prop
  | .byJsonField field _ => isFieldName field = true
  | _ => True

def Query.condition : Query → Row → Bool
  | .page, _ => true
  | .byAsset str asset, row => assetCondition sql str asset row
  | .byJsonField field value, row => (jsonExtract sql row.payload [field]).equals value

def Query.fetchPage (t : Table Row) (after : Option Cursor) (limit : ℕ) :
    Query → Except Raised (List Row)
  | .page => listPage t limit after
  | .byAsset str asset => listByAsset sql str t asset limit after
  | .byJsonField field value => listByJsonField sql t field value limit after

/-! ### The scan -/

/-- `RepositoryPaginationError`. -/
def stalledAt (cursor : Cursor) : Raised :=
  ⟨.other, "pagination cursor failed to advance (stalled at (" ++ sql.repr (ofLex cursor).1 ++
    ", " ++ sql.repr (ofLex cursor).2 ++ "))"⟩

/-- `_paginate_all` from the page of a number on; `none` when the fuel, a bound on the number of
pages, is used up. -/
def paginateAll (fetchPage : ℕ → Option Cursor → ℕ → Except Raised (List Row)) (batchSize : ℕ) :
    ℕ → ℕ → Option Cursor → List Row → Option (Except Raised (List Row))
  | 0, _, _, _ => none
  | fuel + 1, n, after, results =>
      match fetchPage n after batchSize with
      | .error e => some (.error e)
      | .ok batch =>
          match batch.getLast? with
          | none => some (.ok results)
          | some last =>
              if after.any fun c => decide (last.cursor ≤ c) then
                some (.error (stalledAt sql last.cursor))
              else if batch.length < batchSize then some (.ok (results ++ batch))
              else
                paginateAll fetchPage batchSize fuel (n + 1) (some last.cursor) (results ++ batch)

/-- `_paginate_all` over a query, of at most `fuel` pages. -/
def Query.scan (query : Query) (t : Table Row) (commits : ℕ → List Write) (batchSize fuel : ℕ) :
    Option (Except Raised (List Row)) :=
  paginateAll sql (fun n after limit => query.fetchPage sql (tableAt t commits n) after limit)
    batchSize fuel 0 none []

/-! ### What no write changes -/

section Writes

variable {t : Table Row} {commits : ℕ → List Write} {row row' : Row} {n m : ℕ}

theorem exists_mem_apply (w : Write) (h : row ∈ t) : ∃ r ∈ w.apply t, r.cursor = row.cursor := by
  cases w with
  | createOnce new => exact ⟨row, Table.mem_createOnce_of_mem h, rfl⟩
  | update recordId payload status now =>
      simp only [Write.apply]
      cases hget : t.get? recordId with
      | none => exact ⟨row, h, rfl⟩
      | some old =>
          have hold : old ∈ t := (Table.get?_eq_some_iff.1 hget).1
          by_cases hrow : row = old
          · subst hrow
            exact ⟨_, Table.mem_put_self hold (row.sameKeys_updated ..), row.cursor_updated ..⟩
          · have hmem := (Table.mem_put hold (old.sameKeys_updated payload status now)).2
              (.inr ⟨h, hrow⟩)
            exact ⟨row, hmem, rfl⟩

theorem exists_mem_foldl (writes : List Write) (h : row ∈ t) :
    ∃ r ∈ writes.foldl Write.apply t, r.cursor = row.cursor := by
  induction writes generalizing t row with
  | nil => exact ⟨row, h, rfl⟩
  | cons w writes ih =>
      obtain ⟨r, hr, hcursor⟩ := exists_mem_apply w h
      obtain ⟨r', hr', hcursor'⟩ := ih hr
      exact ⟨r', hr', hcursor'.trans hcursor⟩

theorem exists_mem_later (hle : n ≤ m) (h : row ∈ tableAt t commits n) :
    ∃ r ∈ tableAt t commits m, r.cursor = row.cursor := by
  induction m, hle using Nat.le_induction with
  | base => exact ⟨row, h, rfl⟩
  | succ m _ ih =>
      obtain ⟨r, hr, hcursor⟩ := ih
      obtain ⟨r', hr', hcursor'⟩ := exists_mem_foldl (commits m) hr
      exact ⟨r', hr', hcursor'.trans hcursor⟩

theorem recordId_eq_of_cursor (h : row.cursor = row'.cursor) : row.recordId = row'.recordId :=
  congrArg (fun c => (ofLex c).2) h

/-- **A row keeps its cursor**, whatever is written in between. -/
theorem cursor_eq_of_recordId (h : row ∈ tableAt t commits n) (h' : row' ∈ tableAt t commits m)
    (hid : row.recordId = row'.recordId) : row.cursor = row'.cursor := by
  obtain ⟨r, hr, hcursor⟩ := exists_mem_later (le_max_left n m) h
  obtain ⟨r', hr', hcursor'⟩ := exists_mem_later (le_max_right n m) h'
  have hsame : r = r' := by
    refine Table.eq_of_recordId hr hr' ?_
    change r.recordId = r'.recordId
    rw [recordId_eq_of_cursor hcursor, recordId_eq_of_cursor hcursor', hid]
  rw [← hcursor, ← hcursor', hsame]

theorem nodup_cursors (t : Table Row) (p : Row → Bool) :
    ((t.rows.filter p).map Row.cursor).Nodup := by
  refine List.pairwise_map.2 ((t.keyed.filter p).imp fun {a b} hapart heq => ?_)
  exact hapart.1 (recordId_eq_of_cursor heq)

theorem cursors_apply {w : Write} (hw : ¬ w.Inserts) (t : Table Row) :
    (w.apply t).rows.map Row.cursor = t.rows.map Row.cursor := by
  cases w with
  | createOnce new => exact absurd trivial hw
  | update recordId payload status now =>
      simp only [Write.apply]
      cases hget : t.get? recordId with
      | none => rfl
      | some old =>
          exact Table.map_put (Table.get?_eq_some_iff.1 hget).1
            (old.sameKeys_updated payload status now).1 (old.cursor_updated ..)

theorem cursors_foldl {writes : List Write} (hwrites : ∀ w ∈ writes, ¬ w.Inserts) (t : Table Row) :
    (writes.foldl Write.apply t).rows.map Row.cursor = t.rows.map Row.cursor := by
  induction writes generalizing t with
  | nil => rfl
  | cons w writes ih =>
      rw [List.foldl_cons, ih (fun v hv => hwrites v (List.mem_cons_of_mem _ hv))]
      exact cursors_apply (hwrites w List.mem_cons_self) t

theorem cursors_later {N : ℕ} (hquiet : ∀ i, N ≤ i → ∀ w ∈ commits i, ¬ w.Inserts) (hle : N ≤ m) :
    (tableAt t commits m).rows.map Row.cursor = (tableAt t commits N).rows.map Row.cursor := by
  induction m, hle using Nat.le_induction with
  | base => rfl
  | succ m hle ih => exact (cursors_foldl (hquiet m hle) _).trans ih

end Writes

/-! ### A page of a query -/

/-- **The condition on a payload** that holds an asset is the condition on the asset. -/
theorem assetCondition_iff (str : StrLower) (asset : AssetIdentity) {row : Row}
    {held : Stored.AssetIdentity}
    (hheld : row.payload.get? "asset" = some (Stored.assetJson held)) (createdAt : Instant) :
    assetCondition sql str asset row = true ↔
      matchesAsset str asset
        { recordId := row.recordId
          createdAt := createdAt
          asset :=
            { symbol := held.symbol
              assetClass := held.assetClass
              nativeAssetId := held.nativeAssetId
              venue := held.venue } } := by
  have hfield : ∀ key value, (Stored.assetFields held).lookup key = some value →
      jsonExtract sql row.payload ["asset", key] = sqlValue sql value := by
    intro key value hvalue
    simp [jsonExtract, hheld, Stored.get?_assetJson, hvalue]
  have hclass := hfield "asset_class" (.str held.assetClass.value) rfl
  have hnative := hfield "native_asset_id" (.str held.nativeAssetId) rfl
  have hvenue := hfield "venue" (Stored.optionJson .str held.venue) rfl
  have hlower : ((sqlValue sql (Stored.optionJson .str held.venue)).coalesce
      (.text "default")).lower sql = .text (sqlLower (held.venue.getD "default")) := by
    cases held.venue <;> rfl
  simp only [assetCondition, hclass, hnative, hvenue, hlower, sqlValue_str, SqlValue.text_equals,
    Bool.and_eq_true, decide_eq_true_eq]
  exact and_assoc

section Pages

variable {sql} {query : Query} {size : ℕ}

theorem fetchPage_eq (hnamed : query.Named) (hsize : 1 ≤ size ∧ size ≤ 1000) (t : Table Row)
    (after : Option Cursor) :
    query.fetchPage sql t after size = .ok (select t (query.condition sql) after size) := by
  have hlimit : checkLimit size = .ok () := by
    rw [checkLimit, raiseIf_eq_ok_iff]
    omega
  cases query with
  | page => simp only [Query.fetchPage, listPage, hlimit]; rfl
  | byAsset str asset => simp only [Query.fetchPage, listByAsset, hlimit]; rfl
  | byJsonField field value =>
      have hname : validateJsonFieldName sql field = .ok () := by
        rw [validateJsonFieldName, raiseIf_eq_ok_iff]
        simpa [Query.Named] using hnamed
      simp only [Query.fetchPage, listByJsonField, hname, hlimit]
      rfl

theorem isPage_select (t : Table Row) (p : Row → Bool) (after : Option Cursor) (limit : ℕ) :
    IsPage Row.cursor (t.rows.filter p) after limit (select t p after limit) :=
  isPage_page Row.cursor (nodup_cursors t p) after limit

end Pages

/-! ### The scan -/

section Scan

variable {fetchPage : ℕ → Option Cursor → ℕ → Except Raised (List Row)}
  {rows : ℕ → List Row} {size : ℕ}

/-- What is fetched is a page of what there is to be read at that moment. -/
def Paged (fetchPage : ℕ → Option Cursor → ℕ → Except Raised (List Row)) (rows : ℕ → List Row)
    (size : ℕ) : Prop :=
  ∀ n after, ∃ batch, fetchPage n after size = .ok batch ∧
    IsPage Row.cursor (rows n) after size batch

/-- **One page of a scan**: it is short and the last one, or the cursor moves to its last row. -/
theorem paginateAll_cases (hpaged : Paged fetchPage rows size) (hsize : 1 ≤ size) (fuel n : ℕ)
    (after : Option Cursor) (results : List Row) :
    ∃ batch, IsPage Row.cursor (rows n) after size batch ∧
      ((batch.length < size ∧ paginateAll sql fetchPage size (fuel + 1) n after results =
          some (.ok (results ++ batch))) ∨
        ∃ hne : batch ≠ [], paginateAll sql fetchPage size (fuel + 1) n after results =
          paginateAll sql fetchPage size fuel (n + 1) (some (batch.getLast hne).cursor)
            (results ++ batch)) := by
  obtain ⟨batch, hfetch, hpage⟩ := hpaged n after
  refine ⟨batch, hpage, ?_⟩
  by_cases hne : batch = []
  · subst hne
    exact .inl ⟨hsize, by simp [paginateAll, hfetch]⟩
  · have hlast : batch.getLast? = some (batch.getLast hne) := List.getLast?_eq_some_getLast hne
    -- the last row of a page lies past the cursor, so the scan is not taken for a stalled one
    have hmoves : (after.any fun c => decide ((batch.getLast hne).cursor ≤ c)) = false := by
      cases after with
      | none => rfl
      | some c =>
          have hlater := hpage.later _ (List.getLast_mem hne) c rfl
          simpa using hlater
    by_cases hshort : batch.length < size
    · exact .inl ⟨hshort, by simp [paginateAll, hfetch, hlast, hmoves, hshort]⟩
    · exact .inr ⟨hne, by simp [paginateAll, hfetch, hlast, hmoves, hshort]⟩

/-- **What a scan that ends has read.** -/
theorem paginateAll_spec (hpaged : Paged fetchPage rows size) (hsize : 1 ≤ size) {fuel n : ℕ}
    {after : Option Cursor} {results : List Row} {out : Except Raised (List Row)}
    (hscanned : Scanned Row.cursor rows n after results)
    (hout : paginateAll sql fetchPage size fuel n after results = some out) :
    ∃ all, out = .ok all ∧ all.Pairwise (fun a b => a.cursor < b.cursor) ∧
      (∀ r ∈ all, ∃ m < n + fuel, r ∈ rows m) ∧
      ∀ k, (∀ m < n + fuel, ∃ r ∈ rows m, r.cursor = k) → ∃ r ∈ all, r.cursor = k := by
  induction fuel generalizing n after results with
  | zero => cases hout
  | succ fuel ih =>
      obtain ⟨batch, hpage, ⟨hshort, hstop⟩ | ⟨hne, hnext⟩⟩ :=
        paginateAll_cases sql hpaged hsize fuel n after results
      · rw [hstop] at hout
        obtain rfl := Option.some.inj hout
        refine ⟨_, rfl, hscanned.sorted_append hpage, fun r hr => ?_, fun k hthere => ?_⟩
        · obtain ⟨m, hm, hrow⟩ := hscanned.sound_append hpage r hr
          exact ⟨m, by omega, hrow⟩
        · exact hscanned.finish hpage hshort fun m hm => hthere m (by omega)
      · rw [hnext] at hout
        have hrest := ih (hscanned.next hpage hne) hout
        rwa [show n + 1 + fuel = n + (fuel + 1) by omega] at hrest

theorem isSome_of_quiet (hpaged : Paged fetchPage rows size) (hsize : 1 ≤ size) {N : ℕ}
    {cursors : List Cursor} (hcursors : ∀ n, N ≤ n → ∀ r ∈ rows n, r.cursor ∈ cursors) {fuel n : ℕ}
    {after : Option Cursor} {results : List Row} (hn : N ≤ n) (hfuel : past cursors after < fuel) :
    (paginateAll sql fetchPage size fuel n after results).isSome := by
  induction fuel generalizing n after results with
  | zero => omega
  | succ fuel ih =>
      obtain ⟨batch, hpage, ⟨-, hstop⟩ | ⟨hne, hnext⟩⟩ :=
        paginateAll_cases sql hpaged hsize fuel n after results
      · rw [hstop]
        rfl
      · rw [hnext]
        have hmem := List.getLast_mem hne
        have hfewer : past cursors (some (batch.getLast hne).cursor) < past cursors after :=
          past_lt (hcursors n hn _ (hpage.mem _ hmem)) (hpage.later _ hmem)
        exact ih (by omega) (by omega)

/-- **A scan ends** when from some page on only the same cursors are there to be read. -/
theorem exists_fuel (hpaged : Paged fetchPage rows size) (hsize : 1 ≤ size) {N : ℕ}
    {cursors : List Cursor} (hcursors : ∀ n, N ≤ n → ∀ r ∈ rows n, r.cursor ∈ cursors)
    (after : Option Cursor) (results : List Row) :
    ∃ fuel, (paginateAll sql fetchPage size fuel 0 after results).isSome := by
  -- the pages up to the one from which on the cursors stay, and then one page for each of them
  have hfrom : ∀ (left n : ℕ) (after : Option Cursor) (results : List Row), N ≤ n + left →
      (paginateAll sql fetchPage size (left + (cursors.length + 1)) n after results).isSome := by
    intro left
    induction left with
    | zero =>
        intro n after results hn
        refine isSome_of_quiet sql hpaged hsize hcursors hn ?_
        have hle : past cursors after ≤ cursors.length := List.countP_le_length
        omega
    | succ left ih =>
        intro n after results hn
        rw [show left + 1 + (cursors.length + 1) = left + (cursors.length + 1) + 1 by omega]
        obtain ⟨batch, -, ⟨-, hstop⟩ | ⟨hne, hnext⟩⟩ :=
          paginateAll_cases sql hpaged hsize (left + (cursors.length + 1)) n after results
        · rw [hstop]
          rfl
        · rw [hnext]
          exact ih _ _ _ (by omega)
  exact ⟨_, hfrom N 0 after results (by omega)⟩

end Scan

/-! ### Nothing is lost and nothing repeated -/

section Complete

variable {sql} {query : Query} {size : ℕ}

/-- The rows that match when the page of a number is read. -/
def Query.rowsAt (sql : SqlTexts) (query : Query) (t : Table Row) (commits : ℕ → List Write)
    (n : ℕ) : List Row :=
  (tableAt t commits n).rows.filter (query.condition sql)

theorem mem_rowsAt {t : Table Row} {commits : ℕ → List Write} {n : ℕ} {row : Row} :
    row ∈ query.rowsAt sql t commits n ↔
      row ∈ tableAt t commits n ∧ query.condition sql row = true :=
  List.mem_filter

theorem paged_query (sql : SqlTexts) (hnamed : query.Named) (hsize : 1 ≤ size ∧ size ≤ 1000)
    (t : Table Row) (commits : ℕ → List Write) :
    Paged (fun n after limit => query.fetchPage sql (tableAt t commits n) after limit)
      (query.rowsAt sql t commits) size := fun n after =>
  ⟨_, fetchPage_eq hnamed hsize (tableAt t commits n) after, isPage_select _ _ after size⟩

theorem nodup_recordIds (t : Table Row) (commits : ℕ → List Write) {all : List Row}
    (hsorted : all.Pairwise fun a b => a.cursor < b.cursor)
    (hsound : ∀ r ∈ all, ∃ m, r ∈ tableAt t commits m) : (all.map Row.recordId).Nodup := by
  refine List.pairwise_map.2 (hsorted.imp_of_mem fun {a b} ha hb hlt hid => ?_)
  obtain ⟨m, hm⟩ := hsound a ha
  obtain ⟨m', hm'⟩ := hsound b hb
  exact hlt.ne (cursor_eq_of_recordId hm hm' hid)

/-- **A scan loses nothing and repeats nothing.**  Whatever is written between its pages, a scan
that ends within a number of pages does not raise; its rows are in the order of the cursor, no two
of them are the same record, each of them matched when its page was read, and every record that
matched at each of the pages is among them exactly once.  It ends if there are finitely many
inserts. -/
theorem scan_complete (sql : SqlTexts) (query : Query) (hnamed : query.Named) (t : Table Row)
    (commits : ℕ → List Write) (size : ℕ) (hsize : 1 ≤ size ∧ size ≤ 1000) :
    (∀ pages out, query.scan sql t commits size pages = some out →
      ∃ results, out = .ok results ∧
        results.Pairwise (fun a b => a.cursor < b.cursor) ∧
        (results.map Row.recordId).Nodup ∧
        (∀ r ∈ results, ∃ m < pages, r ∈ tableAt t commits m ∧ query.condition sql r = true) ∧
        ∀ recordId,
          (∀ m < pages, ∃ r ∈ tableAt t commits m,
            r.recordId = recordId ∧ query.condition sql r = true) →
          (results.map Row.recordId).count recordId = 1) ∧
    ((∃ N, ∀ n, N ≤ n → ∀ w ∈ commits n, ¬ w.Inserts) →
      ∃ pages results, query.scan sql t commits size pages = some (.ok results)) := by
  have hpaged := paged_query sql hnamed hsize t commits
  have hends : ∀ {pages out}, query.scan sql t commits size pages = some out → _ := fun hout =>
    paginateAll_spec sql hpaged hsize.1 (Scanned.start _ _) hout
  refine ⟨fun pages out hout => ?_, fun ⟨N, hquiet⟩ => ?_⟩
  · obtain ⟨all, rfl, hsorted, hsound, hcomplete⟩ := hends hout
    rw [Nat.zero_add] at hsound hcomplete
    have hnodup : (all.map Row.recordId).Nodup := by
      refine nodup_recordIds t commits hsorted fun r hr => ?_
      obtain ⟨m, -, hm⟩ := hsound r hr
      exact ⟨m, (mem_rowsAt.1 hm).1⟩
    refine ⟨all, rfl, hsorted, hnodup, fun r hr => ?_, fun recordId hthere => ?_⟩
    · obtain ⟨m, hm, hrow⟩ := hsound r hr
      exact ⟨m, hm, mem_rowsAt.1 hrow⟩
    · refine List.count_eq_one_of_mem hnodup ?_
      have hpos : 0 < pages := by
        by_contra hzero
        rw [show pages = 0 by omega] at hout
        cases hout
      -- the record has one cursor, and this is the key that is there at every page
      obtain ⟨row, hrow, rfl, -⟩ := hthere 0 hpos
      have hkey : ∀ m < pages, ∃ r ∈ query.rowsAt sql t commits m, r.cursor = row.cursor := by
        intro m hm
        obtain ⟨r, hr, hid, hmatch⟩ := hthere m hm
        exact ⟨r, mem_rowsAt.2 ⟨hr, hmatch⟩, cursor_eq_of_recordId hr hrow hid⟩
      obtain ⟨r, hr, hcursor⟩ := hcomplete row.cursor hkey
      exact List.mem_map.2 ⟨r, hr, recordId_eq_of_cursor hcursor⟩
  · have hcursors : ∀ n, N ≤ n → ∀ r ∈ query.rowsAt sql t commits n,
        r.cursor ∈ (tableAt t commits N).rows.map Row.cursor := by
      intro n hn r hr
      rw [← cursors_later hquiet hn]
      exact List.mem_map_of_mem (mem_rowsAt.1 hr).1
    obtain ⟨pages, hsome⟩ := exists_fuel sql hpaged hsize.1 hcursors none []
    obtain ⟨out, hout⟩ := Option.isSome_iff_exists.1 hsome
    obtain ⟨all, rfl, -⟩ := hends hout
    exact ⟨pages, all, hout⟩

end Complete

section Runs

/-- The database on payloads that hold nothing but texts. -/
private def plain : SqlTexts := ⟨fun _ => "", fun _ => "", fun n => n, fun s => s⟩

private def lot (recordId account : String) : Row where
  recordId := recordId
  createdAt := "2026-01-05T15:00:00+00:00"
  payload := Mapping.empty.insert "account" (.str account)

/-- Three rows of one time of creation; the second one does not match. -/
private def lots : Table Row :=
  ⟨[lot "c" "paper", lot "b" "live", lot "a" "paper"], by decide⟩

/-- After the first page a row is inserted behind the cursor and one ahead of it, and the row that
did not match is updated. -/
private def traffic : ℕ → List Write
  | 0 =>
      [.createOnce (lot "A" "paper"), .createOnce (lot "d" "paper"),
        .update "b" (Mapping.empty.insert "account" (.str "paper")) none
          "2026-01-05T15:00:01+00:00"]
  | _ => []

/-- A scan in pages of one row while three rows are written. -/
theorem scan_complete_three :
    ((Query.byJsonField "account" (.text "paper")).scan plain lots traffic 1 5).map
        (fun out => out.toOption.map (·.map Row.recordId)) = some (some ["a", "b", "c", "d"]) ∧
      ∃ pages results, (Query.byJsonField "account" (.text "paper")).scan plain lots traffic 1
        pages = some (.ok results) ∧ results.Pairwise fun a b => a.cursor < b.cursor := by
  have hnamed : (Query.byJsonField "account" (.text "paper")).Named := by
    change isFieldName "account" = true
    decide +kernel
  obtain ⟨hscan, hends⟩ := scan_complete plain (.byJsonField "account" (.text "paper")) hnamed lots
    traffic 1 (by omega)
  refine ⟨by decide +kernel, ?_⟩
  obtain ⟨pages, results, hout⟩ := hends ⟨1, fun n hn w hw => by
    obtain ⟨m, rfl⟩ : ∃ m, n = m + 1 := ⟨n - 1, by omega⟩
    cases hw⟩
  obtain ⟨all, hall, hsorted, -⟩ := hscan pages _ hout
  obtain rfl := Except.ok.inj hall
  exact ⟨pages, _, hout, hsorted⟩

end Runs

end Pagination

end Persistence

end TradePulse
