/-
**Cash of the broker in the ledger of a generation** (`reconciliation/generation_fees.py`,
`dividends.py`).

The broker moves cash for reasons of its own: fees, transfers and interest, dividends and what is
withheld of them.  Each such activity is posted to the cash ledger under an identity made of its own,
together with a record that holds the receipt it was posted from.  Three recorders do this, one for
each of these kinds; they are called one after the other, and by several reconcilers.

Main definitions:

* `CashActivity` — an activity with what is read of a dividend;
* `Recorder`, `Recorder.receipt` — the three recorders, and what each of them reads of an activity;
* `GenerationLedger`, `recordOnce` — the tables, and what a recorder writes for one receipt;
* `persistGenerationFees` — the three recorders one after the other.

Main results:

* `Recorder.of_receipt` — an activity has a receipt of one recorder at most;
* `recordOnce_ok` — what recording a receipt does.
-/

import TradePulse.Quarantine.Records
import TradePulse.Reconciliation.FeePopulation

set_option autoImplicit false

namespace TradePulse

open HistoricalFees Storage

/-! ### Activities -/

/-- The day on which a dividend was credited. -/
inductive CreditDate
  | missing
  /-- A day, with midnight of it in New York. -/
  | day (text : String) (midnight : Instant)
  | unreadable (text : String)
  | notText
  deriving DecidableEq

/-- An activity with what is read of a dividend besides. -/
structure CashActivity extends InboxActivity where
  perShareAmount : RawNumber := .missing
  /-- The fields whose numbers are not given as texts. -/
  plainNumbers : List String := []
  creditDate : CreditDate := .missing
  activitySubType : Option String := none
  /-- A time of creation is given, and cannot be read. -/
  createdAtUnreadable : Bool := false
  /-- The fields that the activity has. -/
  fields : List String := []
  deriving DecidableEq

/-! ### Transfers and interest -/

/-- What a recorder reads of an activity. -/
structure CashReceipt where
  activityId : String
  amount : ℚ
  occurredAt : Instant
  economicType : String
  relationship : List (String × String) := []
  deriving DecidableEq

/-- The types of activities that transfer cash or pay interest. -/
def adjustmentTypes : List String := ["CSD", "CSW", "INT", "JNLC", "JNLD"]

/-- `adjustment_receipt`. -/
def adjustmentReceipt (raw : CashActivity) : Except Raised (Option CashReceipt) :=
  if raw.activityType ∉ adjustmentTypes then .ok none
  else do
    raiseIf (raw.id = "") (.valueError "adjustment_activity_id is required")
    let unsupported := Raised.valueError ("GENERATION_ADJUSTMENT_UNSUPPORTED_RECEIPT:" ++ raw.id)
    raiseIf (raw.currency ≠ "USD" ∨ raw.status ≠ "executed" ∨ raw.netAmount.isInexact = true)
      unsupported
    let quantity ← decimalValue "adjustment_quantity" (orZeroText raw.qty)
    raiseIf (quantity ≠ 0) unsupported
    let amount ← decimalValue "adjustment_amount" raw.netAmount
    raiseIf (amount = 0 ∨ (raw.activityType ∈ ["CSD", "JNLC"] ∧ amount < 0) ∨
        (raw.activityType ∈ ["CSW", "JNLD"] ∧ 0 < amount))
      (.valueError ("GENERATION_ADJUSTMENT_DIRECTION_INVALID:" ++ raw.id))
    match raw.createdAt with
    | none => .error (.valueError "adjustment_created_at: mandatory aware timestamp invalid")
    | some occurredAt =>
        return some
          { activityId := raw.id
            amount := amount
            occurredAt := occurredAt
            economicType := if raw.activityType = "INT" then "interest_income_or_expense"
              else "capital_flow" }

/-! ### Dividends -/

/-- `INCOME_TYPES`. -/
def incomeTypes : List String := ["DIV", "DIVCGL", "DIVCGS", "DIVTXEX"]

/-- `WITHHOLDING_TYPES`. -/
def withholdingTypes : List String := ["DIVNRA", "DIVTW", "DIVFT"]

/-- `SHAPE_REQUIRED`. -/
def shapeRequired : List String :=
  ["id", "activity_type", "date", "net_amount", "per_share_amount", "qty", "symbol", "status",
    "currency"]

/-- `SHAPE_OPTIONAL`. -/
def shapeOptional : List String := ["created_at", "cusip", "group_id", "description"]

/-- `economic_type`. -/
def economicType (activityType : String) : String :=
  if activityType ∈ incomeTypes then "dividend_income"
  else if activityType ∈ withholdingTypes then "dividend_withholding"
  else "dividend_unsupported"

/-- The receipt of a dividend, or of what was withheld of one. -/
structure DividendReceipt where
  activityId : String
  activityType : String
  economicType : String
  amount : ℚ
  symbol : String
  assetKey : String
  qty : Option ℚ
  perShareAmount : Option ℚ
  creditDate : Option String
  occurredAt : Instant
  shapeVerified : Bool
  reversal : Bool
  deriving DecidableEq

/-- `DIVIDEND_RECEIPT_INVALID`. -/
def dividendInvalid (id : String) : Raised := .valueError ("DIVIDEND_RECEIPT_INVALID:" ++ id)

/-- `_exact`: a number that is missing, or a text. -/
def exactText (raw : CashActivity) (name : String) : RawNumber → Except Raised (Option ℚ)
  | .missing => .ok none
  | .exact q => if name ∈ raw.plainNumbers then .error (dividendInvalid raw.id) else .ok (some q)
  | _ => .error (dividendInvalid raw.id)

/-- The activity is a dividend of some type. -/
def CashActivity.isDividend (raw : CashActivity) : Bool :=
  "DIV".toList.isPrefixOf raw.activityType.toList

/-- When a dividend occurred: when it was created, or on the day it was credited. -/
def dividendTime (raw : CashActivity) : Except Raised Instant :=
  match raw.createdAt with
  | some time => .ok time
  | none =>
      if raw.createdAtUnreadable then
        .error (.valueError "dividend_created_at: mandatory aware timestamp invalid")
      else
        match raw.creditDate with
        | .day _ midnight => .ok midnight
        | .unreadable text => .error (.valueError ("Invalid isoformat string: " ++ text))
        | _ => .error (dividendInvalid raw.id)

/-- The receipt has the fields of the documented shape, and no others. -/
def shapeVerified (raw : CashActivity) : Bool :=
  shapeRequired.all (raw.fields.contains ·) &&
    raw.fields.all ((shapeRequired ++ shapeOptional ++ ["activity_sub_type"]).contains ·) &&
    raw.activitySubType.isNone

/-- The text of the day of credit. -/
def CreditDate.text : CreditDate → Option String
  | .day text _ => some text
  | .unreadable text => some text
  | _ => none

/-- `dividend_receipt`. -/
def dividendReceipt (raw : CashActivity) : Except Raised (Option DividendReceipt) :=
  if raw.isDividend = false then .ok none
  else do
    raiseIf (strip raw.id.toList = []) (dividendInvalid "<missing id>")
    raiseIf (raw.currency ≠ "USD" ∨ raw.status ≠ "executed") (dividendInvalid raw.id)
    let net ← exactText raw "net_amount" raw.netAmount
    match net with
    | none => .error (dividendInvalid raw.id)
    | some amount => do
        let economic := economicType raw.activityType
        raiseIf (amount = 0 ∧ economic ≠ "dividend_withholding") (dividendInvalid raw.id)
        raiseIf (strip raw.symbol.toList = []) (dividendInvalid raw.id)
        let assetKey ← brokerSymbolAssetKey raw.symbol
        raiseIf ("equity:".toList.isPrefixOf assetKey.toList = false) (dividendInvalid raw.id)
        let qty ← exactText raw "qty" raw.qty
        let rate ← exactText raw "per_share_amount" raw.perShareAmount
        raiseIf (raw.creditDate = .notText) (dividendInvalid raw.id)
        let occurredAt ← dividendTime raw
        return some
          { activityId := raw.id
            activityType := raw.activityType
            economicType := economic
            amount := amount
            symbol := String.ofList (upper raw.symbol.toList)
            assetKey := assetKey
            qty := qty
            perShareAmount := rate
            creditDate := raw.creditDate.text
            occurredAt := occurredAt
            shapeVerified := shapeVerified raw
            reversal := if economic = "dividend_income" then decide (amount < 0)
              else decide (0 < amount) }

/-! ### The recorders -/

/-- The three recorders of the ledger. -/
inductive Recorder
  | fee | adjustment | dividend
  deriving DecidableEq

/-- What the ledger keeps of a fee. -/
def CashFeeReceipt.toCashReceipt (fee : CashFeeReceipt) : CashReceipt where
  activityId := fee.activityId
  amount := fee.amount
  occurredAt := fee.occurredAt
  economicType := fee.feeClassification
  relationship := fee.relationship

/-- What the ledger keeps of a dividend. -/
def DividendReceipt.toCashReceipt (receipt : DividendReceipt) : CashReceipt where
  activityId := receipt.activityId
  amount := receipt.amount
  occurredAt := receipt.occurredAt
  economicType := receipt.economicType

namespace Recorder

/-- What a recorder reads of an activity, if the activity is of its kind. -/
def receipt : Recorder → CashActivity → Except Raised (Option CashReceipt)
  | fee, raw => (cashFeeReceipt raw.toInboxActivity).map (·.map CashFeeReceipt.toCashReceipt)
  | adjustment, raw => adjustmentReceipt raw
  | dividend, raw => (dividendReceipt raw).map (·.map DividendReceipt.toCashReceipt)

/-- The identity of a cash entry. -/
def entryId : Recorder → String → String
  | fee, id => "broker:fee:" ++ id
  | adjustment, id => "broker:adjustment:" ++ id
  | dividend, id => "broker:dividend:" ++ id

/-- The identity of the record of a receipt. -/
def recordId : Recorder → String → String
  | fee, id => "generation_fee:" ++ id
  | adjustment, id => "generation_adjustment:" ++ id
  | dividend, id => "generation_dividend:" ++ id

/-- The reason that a cash entry gives. -/
def reason : Recorder → String
  | fee => "immutable broker cash fee; generation-accounting-v1"
  | adjustment => "immutable broker cash adjustment; generation-accounting-v1"
  | dividend => "immutable broker dividend; dividend-accounting-v1"

/-- The type of the record of a receipt. -/
def reconciliationType : Recorder → String
  | fee => "asset_fee"
  | adjustment => "asset_fee"
  | dividend => "dividend"

/-- A record that has no cash entry. -/
def cashMissing : Recorder → String → Raised
  | fee, id => .valueError ("GENERATION_FEE_CASH_MISSING:" ++ id)
  | adjustment, _ => .valueError "GENERATION_ADJUSTMENT_CASH_MISSING"
  | dividend, id => .valueError ("GENERATION_DIVIDEND_CASH_MISSING:" ++ id)

/-- A record or an entry that is not the one of its receipt. -/
def mismatch : Recorder → String → Raised
  | fee, id => .valueError ("GENERATION_FEE_RECEIPT_OR_CASH_MISMATCH:" ++ id)
  | adjustment, _ => .valueError "GENERATION_ADJUSTMENT_RECEIPT_OR_CASH_MISMATCH"
  | dividend, id => .valueError ("GENERATION_DIVIDEND_RECEIPT_OR_CASH_MISMATCH:" ++ id)

/-- A record of something that is no receipt of its kind. -/
def unclassified : Recorder → Raised
  | fee => .valueError "GENERATION_FEE_INVALID_RECEIPT"
  | adjustment => .valueError "GENERATION_ADJUSTMENT_UNCLASSIFIED"
  | dividend => .valueError "GENERATION_DIVIDEND_UNCLASSIFIED"

/-- An activity whose membership is not known. -/
def membershipUnresolved : Recorder → String → Raised
  | dividend, id => .valueError ("GENERATION_DIVIDEND_MEMBERSHIP_UNRESOLVED:" ++ id)
  | _, id => .valueError ("GENERATION_FEE_MEMBERSHIP_UNRESOLVED:" ++ id)

/-- `fee_cash_entry`, `adjustment_cash_entry`, `dividend_cash_entry`. -/
def cashEntry (r : Recorder) (receipt : CashReceipt) : CashLedgerEntry where
  entryId := r.entryId receipt.activityId
  idempotencyKey := r.entryId receipt.activityId
  amount := receipt.amount
  currency := "USD"
  occurredAt := receipt.occurredAt
  reason := r.reason

end Recorder

/-! ### The ledger -/

/-- What the record of a receipt says (`_receipt_actual`, `_adjustment_actual`,
`_dividend_actual`). -/
structure ReceiptActual where
  activity : CashActivity
  verificationGenerationId : Option String
  generationOpeningCheckpointId : Option String
  economicType : String
  relationship : List (String × String)
  cashEntryId : String
  cashAmount : ℚ
  occurredAt : Instant
  deriving DecidableEq

/-- The record of a receipt. -/
structure GenerationReceipt where
  recordId : String
  reconciliationType : String
  actual : ReceiptActual
  occurredAt : Instant
  deriving DecidableEq

instance : Record GenerationReceipt where
  recordId r := r.recordId
  uniqueValue _ := none

/-- The status of the attribution of a dividend. -/
inductive AttributionStatus
  | pending | unresolved | verified | excludedUnallocated
  deriving DecidableEq

/-- A dividend, and how far its attribution got. -/
structure DividendStatus where
  activityId : String
  symbol : String
  assetKey : String
  economicType : String
  cashAmount : ℚ
  attributionStatus : AttributionStatus
  /-- Whether the entitlement is established, where that was decided. -/
  entitlementEstablished : Option Bool := none
  reason : Option String
  firstObservedAt : Instant
  escalationDeadline : Option Instant := none
  announcementId : Option String := none
  announcementSha256 : Option String := none
  deriving DecidableEq

instance : Record DividendStatus where
  recordId s := s.activityId
  uniqueValue _ := none

/-- The tables that the recorders write. -/
structure GenerationLedger where
  cashLedger : Table CashLedgerEntry := default
  receipts : Table GenerationReceipt := default
  dividendStatus : Table DividendStatus := default

/-- What the record of a receipt has to say. -/
def receiptActual (r : Recorder) (raw : CashActivity) (receipt : CashReceipt)
    (checkpoint : Option OpeningCheckpoint) : ReceiptActual where
  activity := raw
  verificationGenerationId := checkpoint.map (·.verificationGenerationId)
  generationOpeningCheckpointId := checkpoint.map (·.checkpointId)
  economicType := receipt.economicType
  relationship := receipt.relationship
  cashEntryId := r.entryId receipt.activityId
  cashAmount := receipt.amount
  occurredAt := receipt.occurredAt

/-- `validate_generation_fee`, `validate_generation_adjustment`, `validate_generation_dividend`. -/
def validateReceipt (r : Recorder) (record : GenerationReceipt) (entry : CashLedgerEntry)
    (raw : CashActivity) (checkpoint : Option OpeningCheckpoint) : Except Raised Unit := do
  let kept := record.actual.activity
  match ← r.receipt kept with
  | none => .error r.unclassified
  | some receipt =>
      raiseIf (record.recordId ≠ r.recordId receipt.activityId ∨
          record.reconciliationType ≠ r.reconciliationType ∨
          record.actual ≠ receiptActual r kept receipt checkpoint ∨
          entry ≠ r.cashEntry receipt ∨ raw ≠ kept)
        (r.mismatch receipt.activityId)

/-- `_status_payload`. -/
def statusPayload (receipt : DividendReceipt) (now : Instant) : DividendStatus :=
  let reason :=
    if receipt.economicType = "dividend_unsupported" then some "DIVIDEND_TYPE_UNSUPPORTED"
    else if receipt.shapeVerified then none
    else some "DIVIDEND_RECEIPT_SHAPE_UNVERIFIED"
  { activityId := receipt.activityId
    symbol := receipt.symbol
    assetKey := receipt.assetKey
    economicType := receipt.economicType
    cashAmount := receipt.amount
    attributionStatus := if reason.isSome then .unresolved else .pending
    reason := reason
    firstObservedAt := now }

/-- Post a receipt and keep the record of it; one that is kept already is only verified. -/
def recordOnce (r : Recorder) (raw : CashActivity) (receipt : CashReceipt)
    (checkpoint : Option OpeningCheckpoint) (now : Instant) (l : GenerationLedger) :
    Except Raised GenerationLedger :=
  let entry := r.cashEntry receipt
  match l.receipts.get? (r.recordId raw.id) with
  | some old =>
      match l.cashLedger.get? entry.entryId with
      | none => .error (r.cashMissing raw.id)
      | some cash => do
          validateReceipt r old cash raw checkpoint
          return l
  | none => do
      let cashLedger ← persist l.cashLedger entry true
      let receipts ← Quarantine.insertRow l.receipts
        { recordId := r.recordId raw.id
          reconciliationType := r.reconciliationType
          actual := receiptActual r raw receipt checkpoint
          occurredAt := now }
      return { l with cashLedger := cashLedger, receipts := receipts }

/-! ### One recorder after the other -/

/-- Whether the membership of an activity lets it be recorded; one that is unresolved is refused. -/
def admittedBy (r : Recorder) (m : MembershipResult) (id : String) : Except Raised Bool :=
  match m.classified.statusOf id with
  | none => .error (r.membershipUnresolved id)
  | some .unresolvedGenerationMembership => .error (r.membershipUnresolved id)
  | some status => .ok status.eligible

/-- The loop of `persist_generation_fees`: the fees in cash, with the identities of those that are
recorded. -/
def persistFees (m : MembershipResult) (now : Instant) :
    List String → List CashActivity → GenerationLedger →
      Except Raised (GenerationLedger × List String)
  | _, [], l => .ok (l, [])
  | seen, raw :: rest, l => do
      raiseIf (raw.id = "") (.valueError "activity_id is required")
      raiseIf (raw.id ∈ seen) (.valueError ("GENERATION_FEE_DUPLICATE_ACTIVITY:" ++ raw.id))
      match ← Recorder.fee.receipt raw with
      | none => persistFees m now (raw.id :: seen) rest l
      | some receipt => do
          if ← admittedBy .fee m raw.id then
            let l ← recordOnce .fee raw receipt m.checkpoint now l
            let result ← persistFees m now (raw.id :: seen) rest l
            return (result.1, raw.id :: result.2)
          else persistFees m now (raw.id :: seen) rest l

/-- `_persist_generation_adjustments`. -/
def persistGenerationAdjustments (m : MembershipResult) (now : Instant) :
    List CashActivity → GenerationLedger → Except Raised GenerationLedger
  | [], l => .ok l
  | raw :: rest, l =>
      if (m.classified.statusOf raw.id).any (·.eligible) = false then
        persistGenerationAdjustments m now rest l
      else do
        match ← Recorder.adjustment.receipt raw with
        | none => persistGenerationAdjustments m now rest l
        | some receipt => do
            let l ← recordOnce .adjustment raw receipt m.checkpoint now l
            persistGenerationAdjustments m now rest l

/-- What a dividend that is posted for the first time adds to the statuses (`INSERT OR IGNORE`). -/
def withStatus (old : GenerationLedger) (receipt : DividendReceipt) (now : Instant)
    (l : GenerationLedger) : GenerationLedger :=
  if (old.receipts.get? (Recorder.dividend.recordId receipt.activityId)).isSome then l
  else { l with dividendStatus := l.dividendStatus.createOnce (statusPayload receipt now) }

/-- `persist_generation_dividends`. -/
def persistGenerationDividends (m : MembershipResult) (now : Instant) :
    List CashActivity → GenerationLedger → Except Raised GenerationLedger
  | [], l => .ok l
  | raw :: rest, l => do
      match ← dividendReceipt raw with
      | none => persistGenerationDividends m now rest l
      | some receipt => do
          if ← admittedBy .dividend m raw.id then
            let posted ← recordOnce .dividend raw receipt.toCashReceipt m.checkpoint now l
            persistGenerationDividends m now rest (withStatus l receipt now posted)
          else persistGenerationDividends m now rest l

/-- `persist_generation_fees`: the tables, and the fees that are recorded. -/
def persistGenerationFees (m : MembershipResult) (now : Instant) (activities : List CashActivity)
    (l : GenerationLedger) : Except Raised (GenerationLedger × List String) := do
  let fees ← persistFees m now [] activities l
  let l ← persistGenerationAdjustments m now activities fees.1
  let l ← persistGenerationDividends m now activities l
  return (l, fees.2)

/-! ### The kinds of cash -/

namespace Recorder

/-- The recorder that an activity is for, if it is for one. -/
def ofActivity (raw : CashActivity) : Option Recorder :=
  if raw.activityType = "FEE" ∨ (raw.activityType = "CFEE" ∧
      raw.description ≠ "Coin Pair Transaction Fee (Non USD)") then some .fee
  else if raw.activityType ∈ adjustmentTypes then some .adjustment
  else if raw.isDividend then some .dividend
  else none

/-- What a receipt says of the activity it is read from. -/
structure Reads (raw : CashActivity) (receipt : CashReceipt) : Prop where
  id : receipt.activityId = raw.id
  amount : raw.netAmount = .exact receipt.amount

end Recorder

theorem decimalValue_exact {name : String} {number : RawNumber} {q : ℚ}
    (hexact : ¬ number.isInexact = true) (h : decimalValue name number = .ok q) :
    number = .exact q := by
  cases number with
  | exact q' =>
      cases h
      rfl
  | inexact q' => exact absurd rfl hexact
  | missing => cases h
  | malformed => cases h

theorem exactText_some {raw : CashActivity} {name : String} {number : RawNumber} {q : ℚ}
    (h : exactText raw name number = .ok (some q)) : number = .exact q := by
  cases number with
  | exact q' =>
      simp only [exactText] at h
      split at h
      · cases h
      · cases h
        rfl
  | inexact q' => cases h
  | missing => cases h
  | malformed => cases h

/-- A fee in cash is one by its type, and is what the broker says it is. -/
theorem cashFeeReceipt_some {raw : InboxActivity} {fee : CashFeeReceipt}
    (h : cashFeeReceipt raw = .ok (some fee)) :
    (raw.activityType = "FEE" ∨ (raw.activityType = "CFEE" ∧
      raw.description ≠ "Coin Pair Transaction Fee (Non USD)")) ∧
      fee.activityId = raw.id ∧ raw.netAmount = .exact fee.amount := by
  unfold cashFeeReceipt at h
  by_cases hkind : raw.activityType ≠ "FEE" ∧ raw.activityType ≠ "CFEE"
  · rw [if_pos hkind] at h
    cases h
  rw [if_neg hkind] at h
  by_cases hnative : raw.activityType = "CFEE" ∧
      raw.description = "Coin Pair Transaction Fee (Non USD)"
  · rw [if_pos hnative] at h
    obtain ⟨_, -, h⟩ := except_bind_eq_ok.1 h
    cases h
  · rw [if_neg hnative] at h
    have htype : raw.activityType = "FEE" ∨ (raw.activityType = "CFEE" ∧
        raw.description ≠ "Coin Pair Transaction Fee (Non USD)") := by
      by_cases hfee : raw.activityType = "FEE"
      · exact .inl hfee
      · have hcfee : raw.activityType = "CFEE" := not_not.1 fun hc => hkind ⟨hfee, hc⟩
        exact .inr ⟨hcfee, fun hd => hnative ⟨hcfee, hd⟩⟩
    obtain ⟨⟨⟩, -, h⟩ := except_bind_eq_ok.1 h
    obtain ⟨⟨⟩, hsupported, h⟩ := except_bind_eq_ok.1 h
    obtain ⟨quantity, -, h⟩ := except_bind_eq_ok.1 h
    obtain ⟨⟨⟩, -, h⟩ := except_bind_eq_ok.1 h
    obtain ⟨amount, hamount, h⟩ := except_bind_eq_ok.1 h
    obtain ⟨⟨⟩, -, h⟩ := except_bind_eq_ok.1 h
    have hexact : ¬ raw.netAmount.isInexact = true := fun hi =>
      raiseIf_eq_ok_iff.1 hsupported (.inr (.inr hi))
    cases htime : raw.createdAt with
    | none =>
        rw [htime] at h
        cases h
    | some time =>
        rw [htime] at h
        obtain ⟨fill, -, h⟩ := except_bind_eq_ok.1 h
        obtain ⟨order, -, h⟩ := except_bind_eq_ok.1 h
        obtain ⟨asset, -, h⟩ := except_bind_eq_ok.1 h
        cases h
        exact ⟨htype, rfl, decimalValue_exact hexact hamount⟩

/-- A transfer or interest is one by its type, and is what the broker says it is. -/
theorem adjustmentReceipt_some {raw : CashActivity} {receipt : CashReceipt}
    (h : adjustmentReceipt raw = .ok (some receipt)) :
    raw.activityType ∈ adjustmentTypes ∧ Recorder.Reads raw receipt := by
  unfold adjustmentReceipt at h
  by_cases hkind : raw.activityType ∉ adjustmentTypes
  · rw [if_pos hkind] at h
    cases h
  · rw [if_neg hkind] at h
    obtain ⟨⟨⟩, -, h⟩ := except_bind_eq_ok.1 h
    obtain ⟨⟨⟩, hsupported, h⟩ := except_bind_eq_ok.1 h
    obtain ⟨quantity, -, h⟩ := except_bind_eq_ok.1 h
    obtain ⟨⟨⟩, -, h⟩ := except_bind_eq_ok.1 h
    obtain ⟨amount, hamount, h⟩ := except_bind_eq_ok.1 h
    obtain ⟨⟨⟩, -, h⟩ := except_bind_eq_ok.1 h
    have hexact : ¬ raw.netAmount.isInexact = true := fun hi =>
      raiseIf_eq_ok_iff.1 hsupported (.inr (.inr hi))
    cases htime : raw.createdAt with
    | none =>
        rw [htime] at h
        cases h
    | some time =>
        rw [htime] at h
        cases h
        exact ⟨not_not.1 hkind, rfl, decimalValue_exact hexact hamount⟩

/-- A dividend is one by its type, and is what the broker says it is. -/
theorem dividendReceipt_some {raw : CashActivity} {receipt : DividendReceipt}
    (h : dividendReceipt raw = .ok (some receipt)) :
    raw.isDividend = true ∧ Recorder.Reads raw receipt.toCashReceipt := by
  unfold dividendReceipt at h
  by_cases hkind : raw.isDividend = false
  · rw [if_pos hkind] at h
    cases h
  · rw [if_neg hkind] at h
    obtain ⟨⟨⟩, -, h⟩ := except_bind_eq_ok.1 h
    obtain ⟨⟨⟩, -, h⟩ := except_bind_eq_ok.1 h
    obtain ⟨net, hnet, h⟩ := except_bind_eq_ok.1 h
    cases net with
    | none => cases h
    | some amount =>
        obtain ⟨⟨⟩, -, h⟩ := except_bind_eq_ok.1 h
        obtain ⟨⟨⟩, -, h⟩ := except_bind_eq_ok.1 h
        obtain ⟨assetKey, -, h⟩ := except_bind_eq_ok.1 h
        obtain ⟨⟨⟩, -, h⟩ := except_bind_eq_ok.1 h
        obtain ⟨qty, -, h⟩ := except_bind_eq_ok.1 h
        obtain ⟨rate, -, h⟩ := except_bind_eq_ok.1 h
        obtain ⟨⟨⟩, -, h⟩ := except_bind_eq_ok.1 h
        obtain ⟨occurredAt, -, h⟩ := except_bind_eq_ok.1 h
        cases h
        exact ⟨by simpa using hkind, rfl, exactText_some hnet⟩

/-- No type of a dividend is one of the other types. -/
theorem CashActivity.type_ne_of_isDividend {raw : CashActivity} (h : raw.isDividend = true)
    {kind : String} (hkind : "DIV".toList.isPrefixOf kind.toList = false) :
    raw.activityType ≠ kind := by
  rintro rfl
  rw [CashActivity.isDividend, hkind] at h
  cases h

namespace Recorder

theorem ofActivity_eq_fee {raw : CashActivity} (h : raw.activityType = "FEE" ∨
    (raw.activityType = "CFEE" ∧ raw.description ≠ "Coin Pair Transaction Fee (Non USD)")) :
    ofActivity raw = some .fee := if_pos h

theorem ofActivity_eq_adjustment {raw : CashActivity} (h : raw.activityType ∈ adjustmentTypes) :
    ofActivity raw = some .adjustment := by
  have hfee : ¬ (raw.activityType = "FEE" ∨ (raw.activityType = "CFEE" ∧
      raw.description ≠ "Coin Pair Transaction Fee (Non USD)")) := by
    rintro (hc | ⟨hc, -⟩)
    · simp [hc, adjustmentTypes] at h
    · simp [hc, adjustmentTypes] at h
  rw [ofActivity, if_neg hfee, if_pos h]

theorem ofActivity_eq_dividend {raw : CashActivity} (h : raw.isDividend = true) :
    ofActivity raw = some .dividend := by
  have hadjustment : raw.activityType ∉ adjustmentTypes := fun hc => by
    simp only [adjustmentTypes, List.mem_cons, List.not_mem_nil, or_false] at hc
    rcases hc with hc | hc | hc | hc | hc <;>
      exact CashActivity.type_ne_of_isDividend h (by decide) hc
  rw [ofActivity, if_neg, if_neg hadjustment, if_pos h]
  rintro (hc | ⟨hc, -⟩)
  · exact CashActivity.type_ne_of_isDividend h (by decide) hc
  · exact CashActivity.type_ne_of_isDividend h (by decide) hc

/-- **An activity has a receipt of one recorder at most**, which says what the broker said. -/
theorem of_receipt {r : Recorder} {raw : CashActivity} {receipt : CashReceipt}
    (h : r.receipt raw = .ok (some receipt)) :
    ofActivity raw = some r ∧ Reads raw receipt := by
  cases r with
  | fee =>
      cases hfee : cashFeeReceipt raw.toInboxActivity with
      | error e =>
          simp only [Recorder.receipt, hfee] at h
          cases h
      | ok found =>
          simp only [Recorder.receipt, hfee] at h
          cases found with
          | none => cases h
          | some fee =>
              cases h
              obtain ⟨htype, hid, hamount⟩ := cashFeeReceipt_some hfee
              exact ⟨ofActivity_eq_fee htype, hid, hamount⟩
  | adjustment =>
      obtain ⟨htype, hreads⟩ := adjustmentReceipt_some h
      exact ⟨ofActivity_eq_adjustment htype, hreads⟩
  | dividend =>
      cases hdividend : dividendReceipt raw with
      | error e =>
          simp only [Recorder.receipt, hdividend] at h
          cases h
      | ok found =>
          simp only [Recorder.receipt, hdividend] at h
          cases found with
          | none => cases h
          | some dividend =>
              cases h
              obtain ⟨htype, hreads⟩ := dividendReceipt_some hdividend
              exact ⟨ofActivity_eq_dividend htype, hreads⟩

/-- The type of an activity that a recorder is for. -/
theorem type_of_ofActivity {raw : CashActivity} {r : Recorder} (h : ofActivity raw = some r) :
    match r with
    | fee => raw.activityType = "FEE" ∨ (raw.activityType = "CFEE" ∧
        raw.description ≠ "Coin Pair Transaction Fee (Non USD)")
    | adjustment => raw.activityType ∈ adjustmentTypes
    | dividend => raw.isDividend = true := by
  unfold ofActivity at h
  split_ifs at h with hfee hadjustment hdividend
  all_goals
    cases h
    assumption

/-- An activity that is for a recorder has a receipt, or is refused. -/
theorem receipt_ne_none {r : Recorder} {raw : CashActivity} (hkind : ofActivity raw = some r) :
    r.receipt raw ≠ .ok none := by
  have htype := type_of_ofActivity hkind
  intro h
  cases r with
  | fee =>
      have hnone : cashFeeReceipt raw.toInboxActivity = .ok none := by
        cases hfee : cashFeeReceipt raw.toInboxActivity with
        | error e =>
            simp only [receipt, hfee] at h
            cases h
        | ok found =>
            simp only [receipt, hfee] at h
            cases found with
            | none => rfl
            | some fee => cases h
      have hnot : ¬ (raw.activityType ≠ "FEE" ∧ raw.activityType ≠ "CFEE") := fun hc =>
        htype.elim hc.1 fun h => hc.2 h.1
      have hnative : ¬ (raw.activityType = "CFEE" ∧
          raw.description = "Coin Pair Transaction Fee (Non USD)") := by
        rintro ⟨hc, hd⟩
        rcases htype with hfee | ⟨-, hne⟩
        · rw [hfee] at hc
          exact absurd hc (by decide)
        · exact hne hd
      rw [cashFeeReceipt, if_neg hnot, if_neg hnative] at hnone
      obtain ⟨⟨⟩, -, hnone⟩ := except_bind_eq_ok.1 hnone
      obtain ⟨⟨⟩, -, hnone⟩ := except_bind_eq_ok.1 hnone
      obtain ⟨_, -, hnone⟩ := except_bind_eq_ok.1 hnone
      obtain ⟨⟨⟩, -, hnone⟩ := except_bind_eq_ok.1 hnone
      obtain ⟨_, -, hnone⟩ := except_bind_eq_ok.1 hnone
      obtain ⟨⟨⟩, -, hnone⟩ := except_bind_eq_ok.1 hnone
      cases htime : raw.createdAt with
      | none =>
          rw [htime] at hnone
          cases hnone
      | some time =>
          rw [htime] at hnone
          obtain ⟨_, -, hnone⟩ := except_bind_eq_ok.1 hnone
          obtain ⟨_, -, hnone⟩ := except_bind_eq_ok.1 hnone
          obtain ⟨_, -, hnone⟩ := except_bind_eq_ok.1 hnone
          cases hnone
  | adjustment =>
      change adjustmentReceipt raw = .ok none at h
      rw [adjustmentReceipt, if_neg (not_not.2 htype)] at h
      obtain ⟨⟨⟩, -, h⟩ := except_bind_eq_ok.1 h
      obtain ⟨⟨⟩, -, h⟩ := except_bind_eq_ok.1 h
      obtain ⟨_, -, h⟩ := except_bind_eq_ok.1 h
      obtain ⟨⟨⟩, -, h⟩ := except_bind_eq_ok.1 h
      obtain ⟨_, -, h⟩ := except_bind_eq_ok.1 h
      obtain ⟨⟨⟩, -, h⟩ := except_bind_eq_ok.1 h
      cases htime : raw.createdAt with
      | none =>
          rw [htime] at h
          cases h
      | some time =>
          rw [htime] at h
          cases h
  | dividend =>
      have hnone : dividendReceipt raw = .ok none := by
        cases hdividend : dividendReceipt raw with
        | error e =>
            simp only [receipt, hdividend] at h
            cases h
        | ok found =>
            simp only [receipt, hdividend] at h
            cases found with
            | none => rfl
            | some receipt => cases h
      have hkind : ¬ raw.isDividend = false := by simpa using htype
      rw [dividendReceipt, if_neg hkind] at hnone
      obtain ⟨⟨⟩, -, hnone⟩ := except_bind_eq_ok.1 hnone
      obtain ⟨⟨⟩, -, hnone⟩ := except_bind_eq_ok.1 hnone
      obtain ⟨net, -, hnone⟩ := except_bind_eq_ok.1 hnone
      cases net with
      | none => cases hnone
      | some amount =>
          obtain ⟨⟨⟩, -, hnone⟩ := except_bind_eq_ok.1 hnone
          obtain ⟨⟨⟩, -, hnone⟩ := except_bind_eq_ok.1 hnone
          obtain ⟨_, -, hnone⟩ := except_bind_eq_ok.1 hnone
          obtain ⟨⟨⟩, -, hnone⟩ := except_bind_eq_ok.1 hnone
          obtain ⟨_, -, hnone⟩ := except_bind_eq_ok.1 hnone
          obtain ⟨_, -, hnone⟩ := except_bind_eq_ok.1 hnone
          obtain ⟨⟨⟩, -, hnone⟩ := except_bind_eq_ok.1 hnone
          obtain ⟨_, -, hnone⟩ := except_bind_eq_ok.1 hnone
          cases hnone

theorem append_ne {a b : String} (hab : a.toList.isPrefixOf b.toList = false)
    (hba : b.toList.isPrefixOf a.toList = false) (x y : String) : a ++ x ≠ b ++ y := by
  intro h
  have hlists : a.toList ++ x.toList = b.toList ++ y.toList := by
    simpa only [String.toList_append] using congrArg String.toList h
  have ha : a.toList <+: b.toList ++ y.toList := hlists ▸ List.prefix_append _ _
  rcases List.prefix_or_prefix_of_prefix ha (List.prefix_append _ _) with hp | hp
  · rw [List.isPrefixOf_iff_prefix.2 hp] at hab
    cases hab
  · rw [List.isPrefixOf_iff_prefix.2 hp] at hba
    cases hba

/-- The identities of the three recorders are apart. -/
theorem entryId_inj {r r' : Recorder} {x y : String} :
    r.entryId x = r'.entryId y ↔ r = r' ∧ x = y := by
  refine ⟨fun h => ?_, fun h => by rw [h.1, h.2]⟩
  by_cases hr : r = r'
  · subst hr
    refine ⟨rfl, ?_⟩
    cases r <;> exact (String.append_right_inj _).1 h
  · exfalso
    cases r <;> cases r' <;> first
      | exact hr rfl
      | exact append_ne (by decide) (by decide) x y h

theorem recordId_inj {r r' : Recorder} {x y : String} :
    r.recordId x = r'.recordId y ↔ r = r' ∧ x = y := by
  refine ⟨fun h => ?_, fun h => by rw [h.1, h.2]⟩
  by_cases hr : r = r'
  · subst hr
    refine ⟨rfl, ?_⟩
    cases r <;> exact (String.append_right_inj _).1 h
  · exfalso
    cases r <;> cases r' <;> first
      | exact hr rfl
      | exact append_ne (by decide) (by decide) x y h

end Recorder

/-! ### What recording does -/

/-- A row that has to be there is there, and no other was added. -/
theorem persist_ok {α : Type} [Record α] [DecidableEq α] {t t' : Table α} {item : α} {write : Bool}
    (h : persist t item write = .ok t') :
    item ∈ t' ∧ (t' = t ∨ t.get? (Record.recordId item) = none ∧ t.Admits item ∧
      t' = t.createOnce item) := by
  unfold persist at h
  cases hget : t.get? (Record.recordId item) with
  | some existing =>
      simp only [hget] at h
      split at h
      · rename_i hsame
        cases h
        exact ⟨hsame ▸ (Table.get?_eq_some_iff.1 hget).1, .inl rfl⟩
      · cases h
  | none =>
      simp only [hget] at h
      split_ifs at h with hwrite hadmits
      · cases h
        exact ⟨Table.mem_createOnce.2 (.inr ⟨hadmits, rfl⟩), .inr ⟨rfl, hadmits, rfl⟩⟩

/-- The record of a receipt. -/
def receiptRecord (r : Recorder) (raw : CashActivity) (receipt : CashReceipt)
    (checkpoint : Option OpeningCheckpoint) (now : Instant) : GenerationReceipt where
  recordId := r.recordId raw.id
  reconciliationType := r.reconciliationType
  actual := receiptActual r raw receipt checkpoint
  occurredAt := now

/-- **What recording a receipt does.**  Either the record and the entry are there, of this very
receipt, and nothing is written; or there is no record, and both are written. -/
theorem recordOnce_ok {r : Recorder} {raw : CashActivity} {receipt : CashReceipt}
    {checkpoint : Option OpeningCheckpoint} {now : Instant} {l l' : GenerationLedger}
    (hreceipt : r.receipt raw = .ok (some receipt))
    (h : recordOnce r raw receipt checkpoint now l = .ok l') :
    (l' = l ∧ r.cashEntry receipt ∈ l.cashLedger ∧
      ∃ ρ ∈ l.receipts, ρ.recordId = r.recordId raw.id ∧ ρ.actual.activity = raw) ∨
    (l.receipts.get? (r.recordId raw.id) = none ∧
      l.receipts.Admits (receiptRecord r raw receipt checkpoint now) ∧
      ∃ cash, persist l.cashLedger (r.cashEntry receipt) true = .ok cash ∧
        l' = { l with
          cashLedger := cash
          receipts := l.receipts.createOnce (receiptRecord r raw receipt checkpoint now) }) := by
  unfold recordOnce at h
  cases hold : l.receipts.get? (r.recordId raw.id) with
  | some old =>
      simp only [hold] at h
      obtain ⟨hmem, hid⟩ := Table.get?_eq_some_iff.1 hold
      cases hcash : l.cashLedger.get? (r.cashEntry receipt).entryId with
      | none =>
          simp only [hcash] at h
          cases h
      | some entry =>
          simp only [hcash] at h
          obtain ⟨⟨⟩, hvalid, h⟩ := except_bind_eq_ok.1 h
          cases h
          unfold validateReceipt at hvalid
          obtain ⟨found, hfound, hvalid⟩ := except_bind_eq_ok.1 hvalid
          cases found with
          | none => cases hvalid
          | some kept =>
              have hvalid := raiseIf_eq_ok_iff.1 hvalid
              simp only [not_or, not_not] at hvalid
              obtain ⟨-, -, -, hentry, hraw⟩ := hvalid
              -- the receipt that is kept is read from the same activity
              rw [← hraw, hreceipt] at hfound
              cases hfound
              exact .inl ⟨rfl, hentry ▸ (Table.get?_eq_some_iff.1 hcash).1, old, hmem, hid,
                hraw.symm⟩
  | none =>
      simp only [hold] at h
      obtain ⟨cash, hcash, h⟩ := except_bind_eq_ok.1 h
      obtain ⟨receipts, hreceipts, h⟩ := except_bind_eq_ok.1 h
      cases h
      obtain ⟨hadmits, rfl⟩ := Quarantine.insertRow_eq_ok_iff.1 hreceipts
      exact .inr ⟨rfl, hadmits, cash, hcash, rfl⟩

end TradePulse
