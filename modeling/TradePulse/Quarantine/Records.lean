/-
**Quarantined inventory** (`models/quarantine.py`, `quarantine/fees.py`, `quarantine/resolve.py`).

The excess of an oversell is kept as a liability, and the surplus of a cover as unmanaged long
inventory.  The rows of both say only how they were opened; what is still open of a record is what
its resolutions have not taken.  Fees are allocated to a record, in two pools, and enter its profit
by recognitions.  All these tables only grow.

Main definitions:

* `QuarantineExecution`, `QuarantineResolution`, `UnmanagedLongInventory`, `QuarantineFeeAllocation`,
  `QuarantineFeeRecognition` — the rows;
* `Books` — the database, with these tables;
* `openRecords` — what is open of an instrument, the oldest first (`open_records`);
* `recognizeAtResolution`, `insertAllocations` — the recognition of a share of the fees at a
  resolution, and the insertion of allocations.
-/

import TradePulse.Persistence.Store
import TradePulse.Reconciliation.FillCursor

set_option autoImplicit false

namespace TradePulse

namespace Quarantine

open Storage

/-! ### Amounts -/

/-- A decimal as it is written: its value, and the exponent of its last digit. -/
structure Amount where
  value : ℚ
  exponent : ℤ := -2
  deriving DecidableEq

namespace Amount

/-- `sum(…, Decimal(0))`. -/
def sum (l : List Amount) : Amount :=
  ⟨(l.map value).sum, (l.map exponent).foldr min 0⟩

def sub (a b : Amount) : Amount := ⟨a.value - b.value, min a.exponent b.exponent⟩

/-- The exponent of `_quantum`. -/
def quantumExponent (a : Amount) : ℤ := min a.exponent (-2)

/-- `Decimal.quantize` with `ROUND_DOWN`: toward zero. -/
def quantizeDown (x : ℚ) (exponent : ℤ) : Amount :=
  let quantum : ℚ := (10 : ℚ) ^ exponent
  ⟨if 0 ≤ x then ⌊x / quantum⌋ * quantum else ⌈x / quantum⌉ * quantum, exponent⟩

example : quantizeDown (-7 / 300) (-2) = ⟨-2 / 100, -2⟩ := by decide +kernel

end Amount

/-! ### Rows -/

/-- The surplus of a cover larger than the open liabilities. -/
structure UnmanagedLongInventory where
  recordId : String
  coverActivityId : String
  asset : AssetIdentity
  quantity : ℚ
  costPrice : ℚ
  multiplier : ℚ
  openedAt : Instant
  deriving DecidableEq

instance : Record UnmanagedLongInventory where
  recordId r := r.recordId
  uniqueValue r := some r.coverActivityId

instance : Checked UnmanagedLongInventory where
  checks r :=
    [ textCheck r.recordId "record_id",
      textCheck r.coverActivityId "cover_activity_id",
      positiveCheck r.quantity "quantity",
      positiveCheck r.costPrice "cost_price",
      positiveCheck r.multiplier "multiplier" ]

inductive ExecutionKind
  | liabilityCover | unmanagedSale
  deriving DecidableEq

/-- A broker execution against quarantined inventory. -/
structure QuarantineExecution where
  activityId : String
  kind : ExecutionKind
  asset : AssetIdentity
  side : Side
  quantity : ℚ
  price : ℚ
  executedAt : Instant
  rawSha256 : String
  deriving DecidableEq

instance : Record QuarantineExecution where
  recordId e := e.activityId
  uniqueValue _ := none

instance : Checked QuarantineExecution where
  checks e :=
    [ textCheck e.activityId "activity_id",
      textCheck e.rawSha256 "raw_sha256",
      positiveCheck e.quantity "quantity",
      positiveCheck e.price "price" ]

/-- What one execution resolved of one record. -/
structure QuarantineResolution where
  recordId : String
  activityId : String
  quantity : ℚ
  price : ℚ
  realizedPnl : ℚ
  resolvedAt : Instant
  deriving DecidableEq

/-- `resolution_key`. -/
def QuarantineResolution.key (r : QuarantineResolution) : String :=
  r.recordId ++ "|" ++ r.activityId

instance : Record QuarantineResolution where
  recordId r := r.key
  uniqueValue r := some r.key

instance : Checked QuarantineResolution where
  checks r :=
    [ textCheck r.recordId "record_id",
      textCheck r.activityId "activity_id",
      positiveCheck r.quantity "quantity",
      positiveCheck r.price "price" ]

/-- Fees of the execution that opened a record, and fees of those that resolved it. -/
inductive FeePool
  | opening | cover
  deriving DecidableEq

def FeePool.value : FeePool → String
  | opening => "opening"
  | cover => "cover"

/-- A signed share of a fee, allocated to one record and pool. -/
structure QuarantineFeeAllocation where
  feeCanonicalId : String
  recordId : String
  pool : FeePool
  amount : Amount
  deriving DecidableEq

/-- `allocation_key`. -/
def QuarantineFeeAllocation.key (a : QuarantineFeeAllocation) : String :=
  a.feeCanonicalId ++ "|" ++ a.recordId

instance : Record QuarantineFeeAllocation where
  recordId a := a.key
  uniqueValue a := some a.key

/-- What has entered the profit of a record from one of its pools, and on which event. -/
structure QuarantineFeeRecognition where
  recordId : String
  eventId : String
  pool : FeePool
  amount : Amount
  recognizedAt : Instant
  deriving DecidableEq

/-- `recognition_key`. -/
def QuarantineFeeRecognition.key (r : QuarantineFeeRecognition) : String :=
  r.recordId ++ "|" ++ r.eventId ++ "|" ++ r.pool.value

instance : Record QuarantineFeeRecognition where
  recordId r := r.key
  uniqueValue r := some r.key

/-- An execution that nothing accounts for yet, with the digest of its raw data. -/
structure UnresolvedExecution extends UnresolvedBrokerExecution where
  rawSha256 : String
  deriving DecidableEq

instance : Record UnresolvedExecution where
  recordId e := e.activityId
  uniqueValue _ := none

/-- A row of `orders`, as far as it is asked for. -/
structure OrderRow where
  recordId : String
  brokerOrderId : Option String
  deriving DecidableEq

/-! ### The database -/

structure Books where
  store : Store := {}
  unmanagedLongInventory : Table UnmanagedLongInventory := default
  quarantineExecutions : Table QuarantineExecution := default
  quarantineResolutions : Table QuarantineResolution := default
  quarantineFeeAllocations : Table QuarantineFeeAllocation := default
  quarantineFeeRecognitions : Table QuarantineFeeRecognition := default
  unresolvedBrokerExecutions : Table UnresolvedExecution := default
  unresolvedExecutionOutcomes : Table UnresolvedExecutionOutcome := default
  orders : List OrderRow := []
  /-- The generation that the database is bound to (`verification_identity`). -/
  generationId : Option String := none
  /-- `PRAGMA database_list`. -/
  databaseFiles : List String := []

/-- A database in which nothing was ever quarantined. -/
def Books.unquarantined (s : Store) (orders : List OrderRow) (unresolved : Table UnresolvedExecution)
    (generationId : Option String) (databaseFiles : List String) : Books where
  store := { s with shortExposureLiabilities := default }
  orders := orders
  unresolvedBrokerExecutions := unresolved
  generationId := generationId
  databaseFiles := databaseFiles

/-- `INSERT`: a key that is taken is refused. -/
def insertRow {α : Type} [Record α] (t : Table α) (r : α) : Except Raised (Table α) :=
  if t.Admits r then .ok (t.createOnce r) else .error ⟨.other, "UNIQUE constraint failed"⟩

theorem insertRow_eq_ok_iff {α : Type} [Record α] {t u : Table α} {r : α} :
    insertRow t r = .ok u ↔ t.Admits r ∧ t.createOnce r = u := by
  unfold insertRow
  split <;> simp_all

/-! ### Open records -/

/-- A quarantined record: `sign` is -1 for a liability and 1 for unmanaged inventory, and `quantity`
is what the record was opened with, or what is open of it. -/
structure OpenRecord where
  recordId : String
  sign : ℤ
  quantity : ℚ
  referencePrice : ℚ
  multiplier : ℚ
  openedAt : Instant
  asset : AssetIdentity
  deriving DecidableEq

def ofLiability (l : ShortExposureLiability) : OpenRecord where
  recordId := l.liabilityId
  sign := -1
  quantity := l.quantity
  referencePrice := l.salePrice
  multiplier := l.multiplier
  openedAt := l.openedAt
  asset := l.asset

def ofInventory (r : UnmanagedLongInventory) : OpenRecord where
  recordId := r.recordId
  sign := 1
  quantity := r.quantity
  referencePrice := r.costPrice
  multiplier := r.multiplier
  openedAt := r.openedAt
  asset := r.asset

namespace Books

/-- The quarantined records, as they were opened. -/
def records (b : Books) : List OpenRecord :=
  b.store.shortExposureLiabilities.rows.map ofLiability ++
    b.unmanagedLongInventory.rows.map ofInventory

/-- What the resolutions have taken of a record. -/
def resolved (b : Books) (recordId : String) : ℚ :=
  b.quarantineResolutions.sum fun r => if r.recordId = recordId then r.quantity else 0

/-- What is open of a record. -/
def openQuantity (b : Books) (r : OpenRecord) : ℚ := r.quantity - b.resolved r.recordId

/-- A record with what is open of it, if anything is. -/
def stillOpen (b : Books) (r : OpenRecord) : Option OpenRecord :=
  if 0 < b.openQuantity r then some { r with quantity := b.openQuantity r } else none

end Books

/-- The order of the records: by `opened_at`, then by their ids. -/
def NotAfter (r r' : OpenRecord) : Prop :=
  r.openedAt < r'.openedAt ∨ (r.openedAt = r'.openedAt ∧ r.recordId ≤ r'.recordId)

instance (r r' : OpenRecord) : Decidable (NotAfter r r') := inferInstanceAs (Decidable (_ ∨ _))

/-- `open_records`: the open records of an instrument, the oldest first. -/
def openRecords (b : Books) (assetKey : String) : List OpenRecord :=
  ((b.records.filter fun r => assetIdentityKey r.asset = assetKey).filterMap
    b.stillOpen).insertionSort NotAfter

/-! ### Fees -/

/-- Σ allocations of a record and pool. -/
def Books.allocated (b : Books) (recordId : String) (pool : FeePool) : Amount :=
  .sum ((b.quarantineFeeAllocations.rows.filter fun a =>
    a.recordId = recordId ∧ a.pool = pool).map (·.amount))

/-- Σ recognitions of a record and pool. -/
def Books.recognized (b : Books) (recordId : String) (pool : FeePool) : Amount :=
  .sum ((b.quarantineFeeRecognitions.rows.filter fun r =>
    r.recordId = recordId ∧ r.pool = pool).map (·.amount))

/-- The unrecognised balance of a record and pool. -/
def Books.unrecognized (b : Books) (recordId : String) (pool : FeePool) : Amount :=
  (b.allocated recordId pool).sub (b.recognized recordId pool)

/-- `recognize_at_resolution`: the share of the unrecognised balance that a resolution takes with
it, toward zero, and all of it where the resolution closes the record. -/
def recognizeAtResolution (recordId : String) (pool : FeePool) (openBefore covered : ℚ)
    (unrecognized : Amount) (eventId : String) (now : Instant) :
    Except Raised QuarantineFeeRecognition := do
  raiseIf (covered ≤ 0 ∨ openBefore < covered)
    (.valueError "QUARANTINE_RESOLUTION_QUANTITY_INVALID")
  return { recordId := recordId
           eventId := eventId
           pool := pool
           amount := if covered = openBefore then unrecognized
             else .quantizeDown (unrecognized.value * covered / openBefore)
               unrecognized.quantumExponent
           recognizedAt := now }

/-- One share of `insert_allocations`: a share of an attribution is passed over, and so is one that
is there already. -/
def insertAllocation (b : Books) (share : QuarantineFeeAllocation) : Except Raised Books :=
  if share.recordId.startsWith "attribution:" then .ok b
  else match b.quarantineFeeAllocations.findByUnique share.key with
    | some old =>
        if old.amount.value ≠ share.amount.value then
          .error (.valueError ("BROKER_EVIDENCE_CHANGED: " ++ share.key))
        else .ok b
    | none => do
        let allocations ← insertRow b.quarantineFeeAllocations share
        return { b with quarantineFeeAllocations := allocations }

/-- `insert_allocations`. -/
def insertAllocations (b : Books) (shares : List QuarantineFeeAllocation) : Except Raised Books :=
  shares.foldlM insertAllocation b

end Quarantine

end TradePulse
