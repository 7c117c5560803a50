/-
**Sending orders, and intents that were left behind** (`execution/gateway.py`,
`reconciliation/coordinator.py`).

An execution reserves the asset by a lock in the database, stores what it decided as a trade intent,
checks at last that the reservation is still its own, stores that the order is about to be sent, and
sends it.  It may be delayed for as long as it likes between any two of these steps, and it goes on
when its reservation is lost.

The sweep looks for intents that were approved or marked as submitted and never got an identity of a
broker's order.  It reserves the asset of each itself, reads the intent again, asks the broker for the
order by the identity of the intent, and stores what that shows in one transaction.

Both are programs over the same database and the same broker.  What the gateway finds out elsewhere
(positions, quotes, the account, the risk engine, the session) are answers of the world outside, and
so is whether the renewal of a lock has failed.

Main definitions:

* `IntentRow`, `OrderRequest`, `World` — a stored intent, a request to the broker, and the database
  and the broker;
* `orderMatchesIntent` — the order is the one that the intent would have sent;
* `executeIntent`, `execute` — the gateway, and its callers with their reservation;
* `commitStranded`, `resolveStranded`, `recoverStrandedIntents` — the sweep;
* `exec` — what each operation does.
-/

import TradePulse.Broker.Types
import TradePulse.Execution.Recovery
import TradePulse.Persistence.Lock
import TradePulse.Process.Program
import TradePulse.Quarantine.Records
import TradePulse.Reconciliation.FillCursor

set_option autoImplicit false

namespace TradePulse

namespace Submission

open Storage Process Persistence

/-! ### The data -/

/-- A row of `trade_intents`. -/
structure IntentRow where
  intent : TradeIntent
  /-- `risk_snapshot["broker_account_number"]`: the account the intent was approved on. -/
  brokerAccountNumber : Option String := none
  /-- What else the payload holds; nothing here reads it. -/
  rest : String := ""
  /-- Whether the payload can be read at all (`hydrate`). -/
  readable : Bool := true
  deriving DecidableEq

instance : Record IntentRow where
  recordId r := r.intent.tradeIntentId
  uniqueValue r := some r.intent.idempotencyKey

namespace IntentRow

def id (r : IntentRow) : String := r.intent.tradeIntentId

def status (r : IntentRow) : TradeIntentStatus := r.intent.status

/-- The canonical key of the asset. -/
def assetKey (r : IntentRow) : String := assetIdentityKey r.intent.asset

/-- Whether the intent has the identity of a broker's order. -/
def hasBrokerOrder (r : IntentRow) : Bool := r.intent.brokerOrderId.any fun id => id ≠ ""

def withStatus (r : IntentRow) (status : TradeIntentStatus) : IntentRow :=
  { r with intent := { r.intent with status := status } }

def withRejection (r : IntentRow) (status : TradeIntentStatus) (reason : String) : IntentRow :=
  { r with intent := { r.intent with status := status, rejectionReason := some reason } }

/-- The intent with the identity of the order the broker holds for it. -/
def accepted (r : IntentRow) (brokerOrderId : String) : IntentRow :=
  { r with intent :=
    { r.intent with
      status := .accepted
      brokerOrderId := some brokerOrderId
      clientOrderId := some r.id } }

end IntentRow

/-- `hydrate("trade_intents", payload)`. -/
def hydrate (row : IntentRow) : Except Raised IntentRow :=
  if row.readable then .ok row else .error (.valueError "trade_intents payload")

/-- What is posted to the broker (`AlpacaOrderRequest`). -/
structure OrderRequest where
  symbol : String
  qty : Option ℚ
  side : Side
  orderType : String
  timeInForce : String
  clientOrderId : String
  deriving DecidableEq

/-- The broker's answer to a request: an order, a refusal for good, or nothing that says either. -/
inductive Reply
  | placed (brokerOrderId : String)
  | rejected (reason : String)
  | ambiguous (cause : String)
  deriving DecidableEq

/-- `default_time_in_force`. -/
def defaultTimeInForce (assetClass : AssetClass) : String :=
  if assetClass = .crypto then "gtc" else "day"

/-- The size of the order is the one that was asked for. -/
def sizeMatches (order : BrokerOrder) (intent : TradeIntent) : Bool :=
  match intent.requestedQuantity, intent.requestedNotional with
  | some quantity, _ => order.qty = some quantity
  | none, some notional => order.notional = some notional
  | none, none => false

/-- `order_matches_intent`. -/
def orderMatchesIntent (order : BrokerOrder) (row : IntentRow) : Bool :=
  order.brokerOrderId ≠ "" ∧
    order.timeInForce.toLower = defaultTimeInForce row.intent.asset.assetClass ∧
    order.clientOrderId = some row.id ∧ order.symbol = row.intent.asset.symbol ∧
    order.side = some row.intent.side ∧
    order.orderType.toLower = row.intent.orderType.toLower ∧
    sizeMatches order row.intent

/-- What a record of the sweep saw. -/
inductive SweepActual
  | error (text : String)
  | resolved (previousStatus status : TradeIntentStatus) (brokerOrderId accountNumber : Option String)
  deriving DecidableEq

/-- A row that the sweep writes to `reconciliation_records`. -/
structure SweepRecord where
  recordId : String
  subjectId : String
  outcome : ReconciliationOutcome
  actual : SweepActual
  occurredAt : Instant
  deriving DecidableEq

instance : Record SweepRecord where
  recordId r := r.recordId
  uniqueValue _ := none

/-- The database and the broker.  `uuids` are the reservations that `uuid4` has named so far. -/
structure World where
  clock : Instant
  locks : Locks := fun _ => none
  tradeIntents : Table IntentRow := default
  integrityHolds : Table IntegrityHold := default
  reconciliationRecords : Table SweepRecord := default
  auditEvents : Table AuditEvent := default
  uuids : List String := []
  accountNumber : String := ""
  orders : Table BrokerOrder := default
  /-- What was posted and has neither reached the broker nor was lost on the way. -/
  requests : List OrderRequest := []

/-! ### The reservation of an asset -/

/-- `SYMBOL_LOCK_TTL_SECONDS`. -/
def symbolLockTtlSeconds : ℤ := 45

/-- `execution_lock_key`, of the key of an asset. -/
def executionLockKey (assetKey : String) : String := "execution:" ++ assetKey

/-- The reservation of the asset is the caller's with this token. -/
def World.Owns (s : World) (assetKey token : String) : Prop :=
  ∃ lock, s.locks (executionLockKey assetKey) = some lock ∧ lock.ownerToken = token

instance (s : World) (assetKey token : String) : Decidable (s.Owns assetKey token) :=
  decidable_of_iff ((s.locks (executionLockKey assetKey)).any fun lock => lock.ownerToken = token)
    (by simp [World.Owns, Option.any_eq_true])

/-! ### The transaction of the sweep -/

/-- `STRANDED_INTENT_GRACE_SECONDS`. -/
def strandedIntentGraceSeconds : ℕ := 120

/-- `_STRANDED_STATUSES`. -/
def strandedStatuses : List TradeIntentStatus := [.riskApproved, .submitted, .submissionUnknown]

/-- What the sweep passes to `_commit_stranded`. -/
structure Commit where
  /-- The row as it was read under the reservation. -/
  original : IntentRow
  updated : IntentRow
  approvedOn : Option String
  now : Instant
  /-- The lock keys, and the tokens they were taken with, that the decision relies on. -/
  leases : List (String × String)
  deriving DecidableEq

inductive CommitOutcome
  | committed | reservationLost | changedConcurrently | underIntegrityHold
  deriving DecidableEq

def CommitOutcome.text : CommitOutcome → String
  | committed => "committed"
  | reservationLost => "STRANDED_RESERVATION_LOST"
  | changedConcurrently => "STRANDED_INTENT_CHANGED_CONCURRENTLY"
  | underIntegrityHold => "STRANDED_INTENT_UNDER_INTEGRITY_HOLD"

/-- A lease that is owned and not over. -/
def leaseHeld (locks : Locks) (clock : Instant) (lease : String × String) : Bool :=
  (locks lease.1).any fun lock => lock.ownerToken = lease.2 ∧ clock < lock.expiresAt

/-- A hold on the intent, or on the order that the intent gets. -/
def Commit.heldBy (c : Commit) (hold : IntegrityHold) : Bool :=
  hold.tradeIntentId = c.original.id ∨
    hold.brokerOrderId = c.updated.intent.brokerOrderId.getD ""

/-- The correction that is recorded with the write. -/
def Commit.record (c : Commit) (recordId : String) : SweepRecord where
  recordId := recordId
  subjectId := c.original.id
  outcome := .corrected
  actual := .resolved c.original.status c.updated.status c.updated.intent.brokerOrderId c.approvedOn
  occurredAt := c.now

/-- `_commit_stranded`: the clock is read, and everything is compared, in the transaction of the
write. -/
def commitStranded (s : World) (c : Commit) (recordId : String) :
    Except Raised (CommitOutcome × World) :=
  if !c.leases.all (leaseHeld s.locks s.clock) then .ok (.reservationLost, s)
  else if s.tradeIntents.get? c.original.id ≠ some c.original then .ok (.changedConcurrently, s)
  else if s.integrityHolds.rows.any c.heldBy then .ok (.underIntegrityHold, s)
  else do
    let records ← Quarantine.insertRow s.reconciliationRecords (c.record recordId)
    return (.committed,
      { s with tradeIntents := s.tradeIntents.put c.updated, reconciliationRecords := records })

/-! ### Operations -/

/-- What the gateway asks elsewhere before it goes on. -/
inductive Question
  /-- Quarantine, adoption, the sellable quantity, positions, the session, the quote, the account. -/
  | admission
  | session | marketWindow | accountLease | epoch | quoteAge
  deriving DecidableEq

/-- What the risk engine and the shaping of an entry decide. -/
inductive RiskAnswer
  | refused (reason : String)
  | approved (submittedQuantity : ℚ) (accountNumber : Option String)
  deriving DecidableEq

/-- What becomes of the write of an approval, under the lease of the portfolio. -/
inductive Approval
  | written
  | refused (reason : String)
  deriving DecidableEq

/-- Events in the memory of a call, which another task sets. -/
inductive Event
  | leaseLost
  /-- A renewal of the reservation has failed. -/
  | fence
  deriving DecidableEq

inductive Op
  /-- `reserve_symbol_for_execution`, with a fresh token; the sweep names its candidate. -/
  | reserve (asset : AssetIdentity) (candidate : Option String)
  | renew (asset : AssetIdentity) (token : String)
  | release (asset : AssetIdentity) (token : String)
  /-- The heartbeat of a lock is stopped (`run_with_lock_renewal`). -/
  | stopHeartbeat
  | listStranded
  | findByUnique (idempotencyKey : String)
  | getIntent (id : String)
  | hasInFlightIntent (asset : AssetIdentity)
  /-- `create_once` of an intent with a fresh identity, and a fresh key where it has none. -/
  | createIntent (draft : IntentRow) (idempotencyKey : Option String)
  | updateIntent (row : IntentRow)
  | approveIntent (row : IntentRow)
  | commitStranded (c : Commit)
  | consult (question : Question)
  | evaluateRisk
  | getAccount
  | getOrderByClientOrderId (id : String)
  /-- The request goes out. -/
  | post (request : OrderRequest)
  | reply (request : OrderRequest)
  | recordDrift (subjectId text : String) (now : Instant)
  | alertOnce (event : AuditEvent)
  | sendAlert
  | isSet (event : Event)

@[reducible] def Op.Res : Op → Type
  | .reserve _ _ => Option String
  | .renew _ _ => Bool
  | .release _ _ => Unit
  | .stopHeartbeat => Unit
  | .listStranded => List IntentRow
  | .findByUnique _ => Option IntentRow
  | .getIntent _ => Option IntentRow
  | .hasInFlightIntent _ => Bool
  | .createIntent _ _ => IntentRow
  | .updateIntent _ => Unit
  | .approveIntent _ => Approval
  | .commitStranded _ => CommitOutcome
  | .consult _ => Option String
  | .evaluateRisk => RiskAnswer
  | .getAccount => String
  | .getOrderByClientOrderId _ => Option BrokerOrder
  | .post _ => Unit
  | .reply _ => Reply
  | .recordDrift _ _ _ => Unit
  | .alertOnce _ => Bool
  | .sendAlert => Unit
  | .isSet _ => Bool

/-- Programs over the database and the broker. -/
abbrev M (α : Type) := Prog Raised Op.Res α

abbrev perform (o : Op) : M o.Res := Prog.perform o

/-- Look at an event in memory, which cannot fail. -/
def isSet (event : Event) : M Bool := (perform (.isSet event)).tryCatch fun _ => .done false

/-- The outcome of a program, whatever it is. -/
def attempt {α : Type} (p : M α) : M (Except Raised α) :=
  (p.bind fun a => .done (.ok a)).tryCatch fun e => .done (.error e)

/-- `run_with_lock_renewal`: the work is not cancelled, and the heartbeat is stopped at its end. -/
def runWithLockRenewal {α : Type} (work : M α) : M α := do
  let result ← attempt work
  perform .stopHeartbeat
  Prog.ofExcept result

/-! ### The gateway -/

/-- What an execution is asked for, with the key that `derive_idempotency_key` makes of it. -/
structure ExecutionRequest where
  asset : AssetIdentity
  side : Side
  requestedQuantity : ℚ
  strategy : String
  orderType : String := "market"
  executionMode : ExecutionMode := .paper
  idempotencyKey : Option String
  now : Instant
  deriving DecidableEq

/-- The intent as it is first stored. -/
def ExecutionRequest.draft (request : ExecutionRequest) (createdAt : Instant) : IntentRow where
  intent :=
    { tradeIntentId := ""
      idempotencyKey := ""
      correlationId := ""
      asset := request.asset
      side := request.side
      executionMode := request.executionMode
      strategy := request.strategy
      createdAt := createdAt
      requestedQuantity := some request.requestedQuantity
      orderType := request.orderType
      status := .proposed }

/-- A row with the identities of another. -/
def IntentRow.identifiedAs (row old : IntentRow) : IntentRow :=
  { row with intent :=
    { row.intent with
      tradeIntentId := old.intent.tradeIntentId
      idempotencyKey := old.intent.idempotencyKey } }

/-- The order that an intent sends. -/
def IntentRow.orderRequest (row : IntentRow) : OrderRequest where
  symbol := row.intent.asset.symbol
  qty := row.intent.requestedQuantity
  side := row.intent.side
  orderType := row.intent.orderType
  timeInForce := defaultTimeInForce row.intent.asset.assetClass
  clientOrderId := row.id

/-- `_reject_before_submission`, and the other places where an intent is closed. -/
def close (row : IntentRow) (reason : String) : M Unit :=
  perform (.updateIntent (row.withRejection .rejected reason))

/-- Go on unless a question is answered by a reason not to; then the intent is closed. -/
def unlessRefused (question : Question) (row : IntentRow) (next : M Unit) : M Unit := do
  match ← perform (.consult question) with
  | some reason => close row reason
  | none => next

/-- `_recover_unknown_submission`; what polling an order writes is not part of this. -/
def recoverUnknownSubmission (row : IntentRow) (cause : String) : M Unit := do
  let order ← (perform (.getOrderByClientOrderId row.id)).tryCatch fun _ => .done none
  match order.filter fun order => orderMatchesIntent order row with
  | some order => perform (.updateIntent (row.accepted order.brokerOrderId))
  | none => do
      perform (.updateIntent (row.withRejection .submissionUnknown ("SUBMISSION_UNKNOWN: " ++ cause)))
      perform .sendAlert

/-- `place_order`: any exception but a refusal for good says nothing. -/
def placeOrder (request : OrderRequest) : M Reply :=
  ((perform (.post request)).bind fun _ => perform (.reply request)).tryCatch fun e =>
    .done (.ambiguous e.text)

/-- The submission, from the write of `submitted` on. -/
def submit (approved : IntentRow) : M Unit := do
  let submitted := approved.withStatus .submitted
  perform (.updateIntent submitted)
  unlessRefused .quoteAge submitted do
    match ← placeOrder submitted.orderRequest with
    | .rejected reason => close submitted ("BROKER_SUBMIT_ERROR: " ++ reason)
    | .ambiguous cause => recoverUnknownSubmission submitted cause
    | .placed brokerOrderId =>
        if brokerOrderId = "" then recoverUnknownSubmission submitted "BROKER_ORDER_ID_MISSING"
        else perform (.updateIntent (submitted.accepted brokerOrderId))

/-- What comes between the approval and the submission; the reservation is verified, and extended,
last but for the epoch and the age of the quote. -/
def dispatch (request : ExecutionRequest) (token : String) (approved : IntentRow) : M Unit :=
  unlessRefused .session approved <| unlessRefused .marketWindow approved <|
    unlessRefused .accountLease approved do
      if ← perform (.renew request.asset token) then
        unlessRefused .epoch approved <| unlessRefused .quoteAge approved <| submit approved
      else do
        perform .sendAlert
        close approved "EXECUTION_RESERVATION_LOST"

/-- The decision, from the write of `proposed` on. -/
def decideIntent (request : ExecutionRequest) (token : String) (row : IntentRow) : M Unit := do
  match ← perform .evaluateRisk with
  | .refused reason => close row reason
  | .approved submittedQuantity accountNumber => do
      let approved : IntentRow :=
        { row with
          intent :=
            { row.intent with status := .riskApproved, requestedQuantity := some submittedQuantity }
          brokerAccountNumber := accountNumber }
      match ← perform (.approveIntent approved) with
      | .refused reason => close row reason
      | .written => dispatch request token approved

/-- The row of the intent: a new one, or the one that is there, started again. -/
def propose (request : ExecutionRequest) : Option IntentRow → M IntentRow
  | none => perform (.createIntent (request.draft request.now) request.idempotencyKey)
  | some old => do
      let row := (request.draft old.intent.createdAt).identifiedAs old
      perform (.updateIntent row)
      return row

/-- A new execution, or one that takes up a row that is there. -/
def proceed (request : ExecutionRequest) (token : String) (existing : Option IntentRow) :
    M Unit := do
  match ← perform (.consult .admission) with
  | some _ => return ()
  | none => do
      let row ← propose request existing
      decideIntent request token row

/-- `IN_FLIGHT_STATUSES`. -/
def inFlightStatuses : List TradeIntentStatus :=
  [.submitted, .accepted, .partiallyFilled, .riskApproved]

/-- A row that an execution takes up again: it is not over, no order of it is known, and it is not
known to be of unknown outcome. -/
def IntentRow.takenUp (row : IntentRow) : Bool :=
  !row.status.terminal && !(inFlightStatuses.contains row.status && row.hasBrokerOrder) &&
    row.status != .submissionUnknown

/-- What `execute_intent` does with the row it finds; an order that is known is polled. -/
def resume (request : ExecutionRequest) (token : String) (row : IntentRow) : M Unit :=
  if row.takenUp then proceed request token (some row)
  else if row.status = .submissionUnknown then
    recoverUnknownSubmission row "retry after prior SUBMISSION_UNKNOWN"
  else .done ()

/-- The row with the key of the request. -/
def findExisting (request : ExecutionRequest) : M (Option IntentRow) :=
  match request.idempotencyKey with
  | none => .done none
  | some key => perform (.findByUnique key)

/-- `execute_intent`. -/
def executeIntent (request : ExecutionRequest) (token : String) : M Unit := do
  match ← findExisting request with
  | none => proceed request token none
  | some row => do
      let row ← Prog.ofExcept (hydrate row)
      resume request token row

/-- What the callers of the gateway do with the asset reserved (`monitor/coordinator.py`,
`scanner/coordinator.py`). -/
def whileReserved (request : ExecutionRequest) (token : String) : M Unit := do
  if ← perform (.hasInFlightIntent request.asset) then return ()
  else runWithLockRenewal (executeIntent request token)

/-- An execution with its reservation, which is released in the end. -/
def execute (request : ExecutionRequest) : M Unit := do
  match ← perform (.reserve request.asset none) with
  | none => return ()
  | some token => do
      let result ← attempt (whileReserved request token)
      perform (.release request.asset token)
      Prog.ofExcept result

/-! ### The sweep -/

/-- `_UNPROVABLE_STRANDED_REASONS`. -/
def unprovableStrandedReasons : List String :=
  ["ACCOUNT_IDENTITY_UNPROVEN", "STRANDED_ORDER_IDENTITY_MISMATCH",
    CommitOutcome.underIntegrityHold.text]

/-- The event of an intent that cannot be proven, one for each day. -/
def unresolvedEvent (row : IntentRow) (now : Instant) : AuditEvent where
  eventId := "stranded_intent_unresolved:" ++ row.id ++ ":" ++ toString (now / 86400000000)
  eventType := "stranded_intent_unresolved"
  entityId := row.id
  occurredAt := now

/-- `unresolved`. -/
def unresolved (now : Instant) (row : IntentRow) (reason : String) : M Bool := do
  if ← isSet .fence then return false
  else if reason ∈ unprovableStrandedReasons then do
    if ← perform (.alertOnce (unresolvedEvent row now)) then
      perform (.recordDrift row.id reason now)
    return false
  else do
    perform (.recordDrift row.id reason now)
    return false

/-- The intent may have been left behind: it has no order, and it is not a fresh one. -/
def IntentRow.due (row : IntentRow) (now : Instant) : Bool :=
  !row.hasBrokerOrder && !decide (now - row.intent.createdAt < seconds strandedIntentGraceSeconds)

/-- The account must be the one the intent was approved on; blank texts identify none. -/
def accountProven (row : IntentRow) (accountNumber : String) : Bool :=
  row.brokerAccountNumber.any fun approvedOn =>
    approvedOn ≠ "" ∧ accountNumber ≠ "" ∧ accountNumber = approvedOn

/-- The broker's order for the intent, on the right account, or what the call returns with. -/
def askBroker (now : Instant) (row : IntentRow) : M (Bool ⊕ Option BrokerOrder) :=
  Prog.tryCatch
    (do
      let accountNumber ← perform .getAccount
      if accountProven row accountNumber then do
        let order ← perform (.getOrderByClientOrderId row.id)
        return .inr order
      else do
        let r ← unresolved now row "ACCOUNT_IDENTITY_UNPROVEN"
        return .inl r)
    fun e => do
      let r ← unresolved now row e.text
      return .inl r

/-- The row with what was found out: the order is adopted, or the intent is closed. -/
def resolution (row : IntentRow) : Option BrokerOrder → IntentRow
  | some order => row.accepted order.brokerOrderId
  | none => row.withRejection .rejected
      (if row.status = .submissionUnknown then "BROKER_NEVER_RECEIVED"
        else "STRANDED_BEFORE_SUBMISSION")

/-- The end of `_resolve_stranded`, once the broker has answered. -/
def commitResolution (now : Instant) (row : IntentRow) (leases : List (String × String))
    (order : Option BrokerOrder) : M Bool := do
  if order.any fun order => !orderMatchesIntent order row then
    unresolved now row "STRANDED_ORDER_IDENTITY_MISMATCH"
  else if ← isSet .fence then return false
  else do
    match ← perform (.commitStranded ⟨row, resolution row order, row.brokerAccountNumber, now, leases⟩) with
    | .committed => do
        perform .sendAlert
        return true
    | refusal => unresolved now row refusal.text

/-- `_resolve_stranded`. -/
def resolveStranded (now : Instant) (id : String) (leases : List (String × String)) : M Bool := do
  match ← perform (.getIntent id) with
  | none => return false
  | some row => do
      let row ← Prog.ofExcept (hydrate row)
      if row.status ∈ strandedStatuses ∧ row.due now then do
        match ← askBroker now row with
        | .inl result => return result
        | .inr order => commitResolution now row leases order
      else return false

/-- The evidence of a candidate that failed is best effort. -/
def recordFailure (now : Instant) (row : IntentRow) (e : Raised) : M Unit :=
  (perform (.recordDrift row.id ("STRANDED_SWEEP_FAILED: " ++ e.text) now)).tryCatch fun _ =>
    .done ()

/-- The reservation for a candidate, if it is due and nobody else has the asset. -/
def reserveCandidate (now : Instant) (row : IntentRow) : M (Option String) := do
  let row ← Prog.ofExcept (hydrate row)
  if row.due now then perform (.reserve row.intent.asset (some row.id)) else return none

/-- The body of the loop of `_recover_stranded_intents`: whether the candidate was resolved. -/
def sweepCandidate (now : Instant) (lease : Option (String × String)) (row : IntentRow) :
    M Bool := do
  match ← (reserveCandidate now row).tryCatch fun e => do
      recordFailure now row e
      return none with
  | none => return false
  | some token => do
      let leases := (executionLockKey row.assetKey, token) :: lease.toList
      let resolved ← (runWithLockRenewal (resolveStranded now row.id leases)).tryCatch fun e => do
        recordFailure now row e
        return false
      (perform (.release row.intent.asset token)).tryCatch fun _ => .done ()
      return resolved

/-- The loop of `_recover_stranded_intents`; it ends when the lease of the reconciliation is lost. -/
def sweepRows (now : Instant) (lease : Option (String × String)) : List IntentRow → ℕ → M ℕ
  | [], resolved => .done resolved
  | row :: rows, resolved => do
      if ← isSet .leaseLost then return resolved
      else do
        let done ← sweepCandidate now lease row
        sweepRows now lease rows (if done then resolved + 1 else resolved)

/-- `_recover_stranded_intents`; `lease` is the one of the reconciliation, if there is one. -/
def recoverStrandedIntents (now : Instant) (lease : Option (String × String)) : M ℕ := do
  let rows ← perform .listStranded
  sweepRows now lease rows 0

/-! ### What the operations do -/

/-- What the world outside contributes to an operation. -/
structure Outside where
  /-- What `uuid4` draws. -/
  uuid : String := ""
  /-- What `uuid4` draws for a key, where a request has none. -/
  key : String := ""
  /-- When the clock was read for a lock, whose transaction may come later. -/
  reading : Instant := 0
  flag : Bool := false
  refusal : Option String := none
  risk : RiskAnswer := .refused ""
  approval : Approval := .written
  reply : Reply := .ambiguous ""
  deriving DecidableEq

/-- The reading of the clock that a lock goes by. -/
def World.reading (s : World) (i : Outside) : Instant := min i.reading s.clock

/-- The broker holds an order with this client order id. -/
def World.orderFor (s : World) (id : String) : Option BrokerOrder :=
  s.orders.rows.find? fun order => order.clientOrderId = some id

/-- A row for a fresh intent. -/
def IntentRow.create (draft : IntentRow) (id key : String) : IntentRow :=
  { draft with intent :=
    { draft.intent with tradeIntentId := id, idempotencyKey := key, correlationId := id } }

/-- The answer to a request that was posted: an order only if the broker has it, and a refusal for
good only if it has none and never will. -/
def World.answers (s : World) (request : OrderRequest) : Reply → Bool
  | .placed brokerOrderId => (s.orderFor request.clientOrderId).any fun order =>
      brokerOrderId = "" ∨ order.brokerOrderId = brokerOrderId
  | .rejected _ => (s.orderFor request.clientOrderId).isNone ∧ request ∉ s.requests
  | .ambiguous _ => true

/-- What an operation does.  `assetOf` names the asset of each identity and of each key that is ever
drawn: none of them stands for two assets. -/
def exec (assetOf : String → String) :
    (o : Op) → Outside → World → Except Raised (o.Res × World)
  | .reserve asset _, i, s =>
      if i.uuid ∈ s.uuids then .error ⟨.other, "uuid4"⟩
      else
        let r := acquireLock (executionLockKey (assetIdentityKey asset)) i.uuid "execute_intent"
          symbolLockTtlSeconds (s.reading i) s.locks
        .ok (if r.1 then some i.uuid else none, { s with locks := r.2, uuids := i.uuid :: s.uuids })
  | .renew asset token, i, s =>
      let r := renewLock (executionLockKey (assetIdentityKey asset)) token symbolLockTtlSeconds
        (s.reading i) s.locks
      .ok (r.1, { s with locks := r.2 })
  | .release asset token, _, s =>
      .ok ((), { s with
        locks := releaseLock (executionLockKey (assetIdentityKey asset)) token s.locks })
  | .stopHeartbeat, _, s => .ok ((), s)
  | .listStranded, _, s =>
      .ok (s.tradeIntents.rows.filter fun row => strandedStatuses.contains row.status, s)
  | .findByUnique key, _, s => .ok (s.tradeIntents.findByUnique key, s)
  | .getIntent id, _, s => .ok (s.tradeIntents.get? id, s)
  | .hasInFlightIntent asset, _, s =>
      .ok (s.tradeIntents.rows.any fun row => row.assetKey = assetIdentityKey asset ∧
        row.status ∈ .submissionUnknown :: inFlightStatuses, s)
  | .createIntent draft key, i, s =>
      let row := draft.create i.uuid (key.getD i.key)
      if (s.tradeIntents.get? i.uuid).isNone ∧ assetOf i.uuid = row.assetKey ∧
          (key.isSome ∨ assetOf i.key = row.assetKey) then
        .ok (row, { s with tradeIntents := s.tradeIntents.createOnce row })
      else .error ⟨.other, "uuid4"⟩
  | .updateIntent row, _, s => .ok ((), { s with tradeIntents := s.tradeIntents.put row })
  | .approveIntent row, i, s =>
      .ok (i.approval, match i.approval with
        | .written => { s with tradeIntents := s.tradeIntents.put row }
        | .refused _ => s)
  | .commitStranded c, i, s => commitStranded s c i.uuid
  | .consult _, i, s => .ok (i.refusal, s)
  | .evaluateRisk, i, s => .ok (i.risk, s)
  | .getAccount, _, s => .ok (s.accountNumber, s)
  | .getOrderByClientOrderId id, _, s => .ok (s.orderFor id, s)
  | .post request, _, s => .ok ((), { s with requests := request :: s.requests })
  | .reply request, i, s =>
      if s.answers request i.reply then .ok (i.reply, s) else .error ⟨.alpaca, "timeout"⟩
  | .recordDrift subjectId text now, i, s => do
      let records ← Quarantine.insertRow s.reconciliationRecords
        ⟨i.uuid, subjectId, .driftDetected, .error text, now⟩
      return ((), { s with reconciliationRecords := records })
  | .alertOnce event, i, s =>
      .ok (i.flag, { s with auditEvents := s.auditEvents.createOnce event })
  | .sendAlert, _, s => .ok ((), s)
  | .isSet _, i, s => .ok (i.flag, s)

end Submission

end TradePulse
