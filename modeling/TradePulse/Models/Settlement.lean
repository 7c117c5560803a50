/-
**Settlement events, integrity holds, trade intents and the session.**

One fill's journey through the settlement pipeline is a `SettlementEvent`.  Its fields fall into
three groups, and the groups are structures of their own: the *facts* of the fill, which nothing
ever changes; the *progress*, one flag for each stage and the realized profit that the first stage
computes; and the *lifecycle*, which the processor rewrites at each claim and each outcome.

Main definitions:

* `Stage`, `settlementStages` — the stages in their order;
* `SettlementFacts`, `SettlementProgress`, `SettlementEvent`;
* `SettlementProgress.flag`, `SettlementProgress.mark`, `SettlementProgress.Le` — progress;
* `IntegrityHold`, `TradeIntent`, `TradingSession`, `AuditEvent`, `Adoption`.
-/

import TradePulse.Models.Portfolio

set_option autoImplicit false

namespace TradePulse

open Storage

/-! ### Stages -/

/-- The handlers of the settlement pipeline. -/
inductive Stage
  | projectLot | projectAttribution | projectCash | projectHolding | projectTrade | verifyIntegrity
  | projectLiabilityHold
  deriving DecidableEq

/-- The stages in their order (`SETTLEMENT_STAGES`). -/
def settlementStages : List Stage :=
  [.projectLot, .projectAttribution, .projectCash, .projectHolding, .projectTrade,
    .verifyIntegrity, .projectLiabilityHold]

theorem mem_settlementStages (st : Stage) : st ∈ settlementStages := by
  cases st <;> decide

/-! ### Settlement events -/

/-- What a settlement event says about its fill. -/
structure SettlementFacts where
  settlementEventId : String
  fillId : String
  tradeIntentId : String
  asset : AssetIdentity
  side : Side
  executionMode : ExecutionMode
  quantity : ℚ
  price : ℚ
  occurredAt : Instant
  fees : ℚ := 0
  sector : Option String := none
  brokerOrderId : Option String := none
  brokerFillId : Option String := none
  clientOrderId : Option String := none
  deriving DecidableEq

/-- How far a settlement event has come. -/
structure SettlementProgress where
  lotProjected : Bool := false
  attributionProjected : Bool := false
  cashProjected : Bool := false
  holdingProjected : Bool := false
  tradeProjected : Bool := false
  integrityVerified : Bool := false
  liabilityHoldProjected : Bool := false
  realizedPnl : Option ℚ := none
  deriving DecidableEq

namespace SettlementProgress

def flag (p : SettlementProgress) : Stage → Bool
  | .projectLot => p.lotProjected
  | .projectAttribution => p.attributionProjected
  | .projectCash => p.cashProjected
  | .projectHolding => p.holdingProjected
  | .projectTrade => p.tradeProjected
  | .verifyIntegrity => p.integrityVerified
  | .projectLiabilityHold => p.liabilityHoldProjected

/-- Set the flag of a stage. -/
def mark (p : SettlementProgress) : Stage → SettlementProgress
  | .projectLot => { p with lotProjected := true }
  | .projectAttribution => { p with attributionProjected := true }
  | .projectCash => { p with cashProjected := true }
  | .projectHolding => { p with holdingProjected := true }
  | .projectTrade => { p with tradeProjected := true }
  | .verifyIntegrity => { p with integrityVerified := true }
  | .projectLiabilityHold => { p with liabilityHoldProjected := true }

theorem flag_mark (p : SettlementProgress) (st st' : Stage) :
    (p.mark st).flag st' = (decide (st' = st) || p.flag st') := by
  cases st <;> cases st' <;> rfl

@[simp] theorem realizedPnl_mark (p : SettlementProgress) (st : Stage) :
    (p.mark st).realizedPnl = p.realizedPnl := by
  cases st <;> rfl

/-- Nothing of `p` is undone in `q`: every flag that is set stays set, and a profit that is
recorded with the first stage stays as it is. -/
def Le (p q : SettlementProgress) : Prop :=
  (∀ st, p.flag st = true → q.flag st = true) ∧
    (p.lotProjected = true → q.realizedPnl = p.realizedPnl)

theorem Le.refl (p : SettlementProgress) : Le p p := ⟨fun _ h => h, fun _ => rfl⟩

theorem Le.trans {p q r : SettlementProgress} (hpq : Le p q) (hqr : Le q r) : Le p r :=
  ⟨fun st h => hqr.1 st (hpq.1 st h), fun h =>
    (hqr.2 (hpq.1 .projectLot h)).trans (hpq.2 h)⟩

end SettlementProgress

/-- The fields of a settlement event. -/
structure SettlementEventFields extends SettlementFacts, SettlementProgress where
  status : SettlementStatus := .pending
  attemptCount : ℕ := 0
  errorCode : Option String := none
  nextRetryAt : Option Instant := none
  processingOwner : Option String := none
  processingStartedAt : Option Instant := none
  deriving DecidableEq

instance : Checked SettlementEventFields where
  checks e :=
    [ textCheck e.settlementEventId "settlement_event_id",
      textCheck e.fillId "fill_id",
      textCheck e.tradeIntentId "trade_intent_id",
      positiveCheck e.quantity "quantity",
      positiveCheck e.price "price",
      nonnegativeCheck e.fees "fees",
      (e.status != .completed || e.integrityVerified,
        "completed settlement must be integrity_verified") ]

/-- A settlement event: fields that pass their checks. -/
structure SettlementEvent extends SettlementEventFields where
  valid : Valid toSettlementEventFields

namespace SettlementEvent

/-- Build an event from its fields. -/
def make (f : SettlementEventFields) : Except Raised SettlementEvent :=
  if h : Valid f then .ok ⟨f, h⟩ else .error (Checked.failure f)

theorem make_eq_ok_iff {f : SettlementEventFields} {e : SettlementEvent} :
    make f = .ok e ↔ e.toSettlementEventFields = f := by
  unfold make
  constructor
  · intro h
    split at h
    · cases h
      rfl
    · cases h
  · rintro rfl
    simp [e.valid]

theorem quantity_pos (e : SettlementEvent) : 0 < e.quantity :=
  (positiveCheck_fst _ "quantity").1 (e.valid _ (by simp [Checked.checks]))

end SettlementEvent

instance : Record SettlementEvent where
  recordId e := e.settlementEventId
  uniqueValue e := some e.fillId

/-! ### Integrity holds -/

/-- A hold on one broker order. -/
structure IntegrityHold where
  brokerOrderId : String
  tradeIntentId : String
  holdType : IntegrityHoldType
  reason : String
  createdAt : Instant
  attemptCount : ℕ := 0
  nextRetryAt : Option Instant := none
  deriving DecidableEq

instance : Record IntegrityHold where
  recordId h := h.brokerOrderId
  uniqueValue _ := none

/-! ### Trade intents -/

/-- The entries of an intent's risk snapshot that are read back. -/
structure RiskSnapshot where
  maxHoldDays : Option ℤ := none
  maxFunding : Option ℚ := none
  deriving DecidableEq

/-- An order this system decided on, and what became of it. -/
structure TradeIntent where
  tradeIntentId : String
  idempotencyKey : String
  correlationId : String
  asset : AssetIdentity
  side : Side
  executionMode : ExecutionMode
  strategy : String
  createdAt : Instant
  requestedQuantity : Option ℚ := none
  requestedNotional : Option ℚ := none
  referencePrice : Option ℚ := none
  riskSnapshot : RiskSnapshot := {}
  status : TradeIntentStatus := .proposed
  filledQuantity : ℚ := 0
  filledAvgPrice : Option ℚ := none
  brokerOrderId : Option String := none
  clientOrderId : Option String := none
  reservedCash : Option ℚ := none
  consumedCash : Option ℚ := none
  realizedPnl : Option ℚ := none
  rejectionReason : Option String := none
  sector : Option String := none
  stopLoss : Option ℚ := none
  targetPrice : Option ℚ := none
  orderType : String := "market"
  submittedAt : Option Instant := none
  deriving DecidableEq

instance : Record TradeIntent where
  recordId i := i.tradeIntentId
  uniqueValue i := some i.idempotencyKey

/-! ### The session, the audit trail and adoptions -/

inductive SessionState
  | disabled | active | riskStopped | systemDegraded | brokerUnavailable | marketClosed
  | manuallyStopped | financialIntegrityBlocked
  deriving DecidableEq

/-- The single trading session. -/
structure TradingSession where
  state : SessionState := .disabled
  tradingActive : Bool := false
  updatedAt : Instant := 0
  killSwitchReason : Option String := none
  killSwitchAt : Option Instant := none
  killSwitchResetRequired : Bool := false
  financialIntegrityReason : Option String := none
  financialIntegrityManualReenableRequired : Bool := false
  deriving DecidableEq

/-- An entry of the audit trail; its texts for people are left out. -/
structure AuditEvent where
  eventId : String
  eventType : String
  entityId : String
  occurredAt : Instant
  deriving DecidableEq

instance : Record AuditEvent where
  recordId e := e.eventId
  uniqueValue _ := none

/-- The opening evidence of an adopted lot. -/
structure Adoption where
  adoptionId : String
  brokerAvgEntryPrice : ℚ
  adoptedQuantity : ℚ
  adoptedAt : Instant
  stopLoss : ℚ
  deriving DecidableEq

instance : Record Adoption where
  recordId a := a.adoptionId
  uniqueValue _ := none

end TradePulse
