/-
**The population of an instrument** (`reconciliation/fee_population.py`, and `cash_fee_receipt` of
`generation_fees.py`).

The fees of an instrument are accounted for only when its history is complete: every execution of
the instrument in the broker's feed is a fill on record, every fill on record is in the feed, nothing
else changed the inventory, and what they add up to is what the broker holds.  Fees in cash are
assigned only where the broker names the order or the execution they belong to.

Main definitions:

* `cashFeeReceipt` — a fee in cash;
* `Counting`, `countRow`, `countRows` — the walk over the feed;
* `validateFeePopulation` — the proof of a population, or why there is none.

Main results:

* `countRows_error` — a row that is refused wherever it stands refuses the feed;
* `validateFeePopulation_external` — an execution that is no fill on record refuses the population.
-/

import TradePulse.Reconciliation.Membership

set_option autoImplicit false

namespace TradePulse

open HistoricalFees Storage

/-! ### Fees in cash -/

/-- A fee in cash, with what the broker relates it to. -/
structure CashFeeReceipt where
  activityId : String
  amount : ℚ
  occurredAt : Instant
  relationship : List (String × String)
  feeClassification : String
  deriving DecidableEq

/-- Whether a number of a receipt is a float. -/
def RawNumber.isInexact : RawNumber → Bool
  | .inexact _ => true
  | _ => false

/-- `raw.get("qty", "0")`. -/
def orZeroText : RawNumber → RawNumber
  | .missing => .exact 0
  | q => q

/-- A text that must not be blank where it is given. -/
def namedText (name : String) : Option String → Except Raised (List (String × String))
  | none => .ok []
  | some text =>
      if text = "" then .error (.valueError ("fee_" ++ name ++ " is required"))
      else .ok [(name, text)]

/-- `cash_fee_receipt`: the fee, or nothing for an activity that is none. -/
def cashFeeReceipt (raw : InboxActivity) : Except Raised (Option CashFeeReceipt) :=
  if raw.activityType ≠ "FEE" ∧ raw.activityType ≠ "CFEE" then .ok none
  else if raw.activityType = "CFEE" ∧ raw.description = "Coin Pair Transaction Fee (Non USD)" then do
    let _ ← parseAssetFee raw.toFeeReceipt
    return none
  else do
    raiseIf (raw.id = "") (.valueError "fee_activity_id is required")
    let unsupported := Raised.valueError ("GENERATION_FEE_UNSUPPORTED_RECEIPT:" ++ raw.id)
    raiseIf (raw.currency ≠ "USD" ∨ raw.status ≠ "executed" ∨ raw.netAmount.isInexact = true)
      unsupported
    let quantity ← decimalValue "cash_fee_quantity" (orZeroText raw.qty)
    raiseIf (quantity ≠ 0) unsupported
    let amount ← decimalValue "cash_fee_amount" raw.netAmount
    raiseIf (0 ≤ amount) (.valueError ("GENERATION_FEE_NOT_A_DEBIT:" ++ raw.id))
    match raw.createdAt with
    | none => .error (.valueError "fee_created_at must be timezone-aware")
    | some occurredAt => do
        let fill ← namedText "fill_id" raw.fillId
        let order ← namedText "order_id" raw.orderId
        let asset ← namedText "asset_id" raw.assetId
        let symbol := if raw.symbol = "" then [] else [("symbol", raw.symbol)]
        let relationship := fill ++ order ++ asset ++ symbol
        return some
          { activityId := raw.id
            amount := amount
            occurredAt := occurredAt
            relationship := relationship
            feeClassification :=
              if fill ≠ [] then "authoritative_fill_fee"
              else if order ≠ [] then "authoritative_order_fee"
              else if relationship ≠ [] then "authoritative_asset_fee"
              else "unallocated_account_fee" }

/-! ### The walk over the feed -/

/-- `symbol.replace("/", "")`. -/
def withoutSlash (symbol : String) : List Char := symbol.toList.filter (· ≠ '/')

/-- A dictionary that a later entry with the same key overwrites. -/
def lastWith {α : Type} (p : α → Bool) (l : List α) : Option α := l.reverse.find? p

/-- The source of the checks: the instrument, its fills, and the intents. -/
structure PopulationSource where
  asset : AssetIdentity
  fills : List Fill
  intents : List TradeIntent
  eligible : InboxActivity → Bool

namespace PopulationSource

/-- The key of the instrument. -/
def key (s : PopulationSource) : String := assetIdentityKey s.asset

/-- The fills of the instrument. -/
def ownFills (s : PopulationSource) : List Fill :=
  s.fills.filter fun f => assetIdentityKey f.asset = s.key

/-- `local.get`: the fill of an execution. -/
def localFill (s : PopulationSource) (brokerFillId : String) : Option Fill :=
  lastWith (fun f => f.brokerFillId = some brokerFillId) s.ownFills

/-- `intent_by_id.get`. -/
def intentOf (s : PopulationSource) (tradeIntentId : String) : Option TradeIntent :=
  lastWith (fun i => i.tradeIntentId = tradeIntentId) s.intents

end PopulationSource

/-- What was counted so far. -/
structure Counting where
  seen : List String := []
  matched : List String := []
  relevant : List InboxActivity := []
  cashFees : List InboxActivity := []
  fees : List AssetFee := []
  net : ℚ := 0

/-- `decimal_value(value, field, positive=True)`. -/
def positiveDecimal (name : String) (number : RawNumber) : Except Raised ℚ := do
  let q ← decimalValue name number
  raiseIf (q ≤ 0) (.valueError (name ++ " must be positive"))
  return q

/-- A row that moves cash only. -/
def checkCashRow (raw : InboxActivity) : Except Raised Unit := do
  let unclassified := assetFeeIntegrity "ASSET_FEE_POPULATION_UNCLASSIFIED_MOVEMENT"
  let cashOnly := raw.activityType ∈ ["JNLC", "CSD", "CSW", "FEE", "INT"] ∨
    (raw.activityType = "CFEE" ∧ raw.description = "Coin Pair Transaction Fee (USD)")
  raiseIf (¬ cashOnly ∨ raw.currency ≠ "USD" ∨ raw.status ≠ "executed") unclassified
  let quantity ← decimalValue "cash_activity_qty" (orZeroText raw.qty)
  raiseIf (quantity ≠ 0) unclassified
  let _ ← decimalValue "cash_activity_amount" raw.netAmount
  return ()

/-- The fill that an execution is, with the intent it belongs to. -/
def matchFill (s : PopulationSource) (raw : InboxActivity) : Except Raised Fill := do
  raiseIf (raw.qty.isInexact = true ∨ raw.price.isInexact = true)
    (assetFeeIntegrity "ASSET_FEE_POPULATION_INEXACT_RECEIPT")
  let mismatched := assetFeeIntegrity "ASSET_FEE_POPULATION_EXTERNAL_OR_MISMATCHED_FILL"
  match raw.transactionTime with
  | none => .error (.valueError "activity_time must be timezone-aware")
  | some time =>
      match s.localFill raw.id with
      | none => .error mismatched
      | some fill =>
          match s.intentOf fill.tradeIntentId with
          | none => .error mismatched
          | some intent => do
              raiseIf (intent.brokerOrderId ≠ raw.orderId ∨ some fill.orderId ≠ raw.orderId ∨
                assetIdentityKey intent.asset ≠ s.key ∨ fill.side ≠ intent.side ∨
                fill.executionMode ≠ intent.executionMode ∨ fill.side.value ≠ raw.side ∨
                fill.filledAt ≠ time) mismatched
              let quantity ← positiveDecimal "activity_qty" raw.qty
              raiseIf (fill.quantity ≠ quantity) mismatched
              let price ← positiveDecimal "activity_price" raw.price
              raiseIf (fill.price ≠ price) mismatched
              return fill

def countRow (s : PopulationSource) (c : Counting) (raw : InboxActivity) :
    Except Raised Counting := do
  raiseIf (raw.id = "") (.valueError "activity_id is required")
  raiseIf (raw.id ∈ c.seen) (assetFeeIntegrity "ASSET_FEE_POPULATION_DUPLICATE_ACTIVITY")
  let c := { c with seen := raw.id :: c.seen }
  let _ ← activityTime raw
  if s.eligible raw = false then return c
  else
    let cashFee ← cashFeeReceipt raw
    if cashFee.isSome then return { c with cashFees := c.cashFees ++ [raw] }
    else if withoutSlash raw.symbol = [] then do
      checkCashRow raw
      return c
    else if withoutSlash raw.symbol ≠ withoutSlash s.asset.symbol then return c
    else if raw.isFill then do
      let fill ← matchFill s raw
      return { c with
        relevant := c.relevant ++ [raw]
        matched := raw.id :: c.matched
        net := c.net + if fill.side = .buy then fill.quantity else -fill.quantity }
    else if raw.activityType = "CFEE" then do
      let fee ← parseAssetFee raw.toFeeReceipt
      return { c with
        relevant := c.relevant ++ [raw]
        fees := c.fees ++ [fee]
        net := c.net - fee.quantity }
    else .error (assetFeeIntegrity "ASSET_FEE_POPULATION_UNCLASSIFIED_MOVEMENT")

/-- The rows one after the other. -/
def countRows (s : PopulationSource) : Counting → List InboxActivity → Except Raised Counting
  | c, [] => .ok c
  | c, raw :: rest => do
      let c ← countRow s c raw
      countRows s c rest

/-! ### The cash fees of the instrument -/

/-- The orders and intents that a fee in cash belongs to. -/
structure CashFeePopulation where
  brokerOrderIds : List String
  tradeIntentIds : List String
  assetKey : String
  method : String
  deriving DecidableEq

/-- The executions that a fee in cash names. -/
def candidates (eligible : List InboxActivity) (cash : InboxActivity) : List InboxActivity :=
  eligible.filter fun raw => raw.isFill ∧
    ((cash.orderId.any (· ≠ "") ∧ raw.orderId = cash.orderId) ∨
      (cash.fillId.any (· ≠ "") ∧ some raw.id = cash.fillId))

/-- The population of one fee in cash, if it is one of the instrument. -/
def cashFeePopulation (s : PopulationSource) (eligible : List InboxActivity)
    (cash : InboxActivity) : Except Raised (Option CashFeePopulation) := do
  raiseIf (cash.createdAt = none) (.valueError "cash_fee_time must be timezone-aware")
  if cash.orderId.all (· = "") ∧ cash.fillId.all (· = "") then return none
  else
    let rows := candidates eligible cash
    raiseIf (rows = []) (assetFeeIntegrity "CASH_FEE_AUTHORITATIVE_LINK_MISSING")
    let found := rows.map fun raw =>
      lastWith (fun f : Fill => f.brokerFillId = some raw.id) s.fills
    raiseIf (found.any (·.isNone) = true) (assetFeeIntegrity "CASH_FEE_EXTERNAL_OR_MISMATCHED_SELL")
    let selected := found.reduceOption
    if selected.any (fun f => f.side ≠ .sell) then return none
    else
      let keys := (selected.map fun f => assetIdentityKey f.asset).dedup
      raiseIf (keys.length ≠ 1) (assetFeeIntegrity "CASH_FEE_AUTHORITATIVE_LINK_AMBIGUOUS")
      if s.key ∉ keys then return none
      else
        let orders := (selected.map (·.orderId)).dedup
        -- of the fills of one order the last one says the intent
        let intents := orders.filterMap fun o =>
          (lastWith (fun f : Fill => f.orderId = o) selected).map (·.tradeIntentId)
        return some
          { brokerOrderIds := orders.insertionSort (· ≤ ·)
            tradeIntentIds := intents.dedup.insertionSort (· ≤ ·)
            assetKey := s.key
            method := if cash.orderId.any (· ≠ "") then "authoritative_order_link"
              else "authoritative_fill_link" }

/-- The populations of the fees in cash, by activity. -/
def cashFeePopulations (s : PopulationSource) (eligible : List InboxActivity) :
    List InboxActivity → Except Raised (List (String × CashFeePopulation))
  | [] => .ok []
  | cash :: rest => do
      let population ← cashFeePopulation s eligible cash
      let others ← cashFeePopulations s eligible rest
      return (population.map fun p => (cash.id, p)).toList ++ others

/-! ### The population -/

/-- `asset_key_from_broker_symbol` at the default venue. -/
def assetKeyFromBrokerSymbol (assetClass : AssetClass) (symbol : String) : String :=
  assetIdentityKey
    { symbol := String.ofList (upper (strip symbol.toList))
      assetClass := assetClass
      nativeAssetId := String.ofList (strip ("alpaca:".toList ++ upper symbol.toList)) }

/-- `opening_quantities(checkpoint).get(key, 0)`: what the account held at the opening. -/
def openingQuantity (checkpoint : Option OpeningCheckpoint) (key : String) : ℚ :=
  match checkpoint.bind fun c =>
    lastWith (fun p : OpeningPosition => assetKeyFromBrokerSymbol p.assetClass p.symbol = key)
      c.positions with
  | some p => p.qty
  | none => 0

/-- The proof of a population. -/
structure FeePopulationProof where
  method : String := "complete_instrument_activity_population"
  assetKey : String
  activities : List InboxActivity
  cashFeePopulations : List (String × CashFeePopulation)
  brokerQuantity : ℚ
  /-- The activities of the instrument, whose digest is kept. -/
  activityDigest : List InboxActivity
  generationMembership : Option MembershipResult
  openingBrokerQuantity : Option ℚ

def sortedById (activities : List InboxActivity) : List InboxActivity :=
  activities.insertionSort fun a b => a.id ≤ b.id

/-- The activities of the generation, or all of them without one. -/
def eligibleFor (activities : List InboxActivity) :
    Option MembershipResult → Except Raised (List InboxActivity)
  | some m => eligibleActivities activities m
  | none => .ok activities

/-- `validate_fee_population`. -/
def validateFeePopulation (asset : AssetIdentity) (activities : List InboxActivity)
    (fills : List Fill) (intents : List TradeIntent) (brokerQuantity : ℚ)
    (membership : Option MembershipResult) : Except Raised (List AssetFee × FeePopulationProof) := do
  let own := fills.filter fun f => assetIdentityKey f.asset = assetIdentityKey asset
  raiseIf (own = [] ∨ none ∈ own.map (·.brokerFillId) ∨ ¬ (own.map (·.brokerFillId)).Nodup)
    (assetFeeIntegrity "ASSET_FEE_POPULATION_LOCAL_IDENTITY_INVALID")
  let eligible ← eligibleFor activities membership
  let source : PopulationSource :=
    { asset := asset
      fills := fills
      intents := intents
      eligible := fun raw => eligible.any fun row => row.id = raw.id }
  let counted ← countRows source {} activities
  raiseIf (¬ ∀ f ∈ own, ∀ id, f.brokerFillId = some id → id ∈ counted.matched)
    (assetFeeIntegrity "ASSET_FEE_POPULATION_INCOMPLETE_FILL_HISTORY")
  let opening := openingQuantity (membership.bind (·.checkpoint)) source.key
  raiseIf (counted.net + opening ≠ brokerQuantity)
    (assetFeeIntegrity "ASSET_FEE_POPULATION_BROKER_QUANTITY_MISMATCH")
  let populations ← cashFeePopulations source eligible counted.cashFees
  let bound := membership.filter fun m => m.checkpoint.isSome
  return (counted.fees,
    { assetKey := source.key
      activities := sortedById activities
      cashFeePopulations := populations
      brokerQuantity := brokerQuantity
      activityDigest := sortedById counted.relevant
      generationMembership := bound
      openingBrokerQuantity := bound.map fun _ => opening })

/-! ### What is refused -/

theorem countRows_error {s : PopulationSource} {raw : InboxActivity}
    (hraw : ∀ c c', countRow s c raw ≠ .ok c') {activities : List InboxActivity}
    (hmem : raw ∈ activities) (c c' : Counting) : countRows s c activities ≠ .ok c' := by
  induction activities generalizing c with
  | nil => cases hmem
  | cons first rest ih =>
      intro h
      obtain ⟨d, hfirst, hrest⟩ := except_bind_eq_ok.1 h
      rcases List.mem_cons.1 hmem with rfl | hmem
      · exact hraw c d hfirst
      · exact ih hmem d hrest

theorem countRow_external {s : PopulationSource} {raw : InboxActivity} (hfill : raw.isFill = true)
    (hsymbol : withoutSlash raw.symbol = withoutSlash s.asset.symbol)
    (heligible : s.eligible raw = true) (hexternal : s.localFill raw.id = none) (c c' : Counting) :
    countRow s c raw ≠ .ok c' := by
  intro h
  have htype : raw.activityType = "FILL" := by simpa [RawActivity.isFill] using hfill
  have hfee : cashFeeReceipt raw = .ok none := by simp [cashFeeReceipt, htype]
  unfold countRow at h
  obtain ⟨⟨⟩, -, h⟩ := except_bind_eq_ok.1 h
  obtain ⟨⟨⟩, -, h⟩ := except_bind_eq_ok.1 h
  obtain ⟨time, -, h⟩ := except_bind_eq_ok.1 h
  rw [if_neg (by simp [heligible]), hfee] at h
  change (if withoutSlash raw.symbol = [] then _ else _) = _ at h
  by_cases hblank : withoutSlash raw.symbol = []
  · -- an execution of nothing is no movement of cash
    rw [if_pos hblank] at h
    obtain ⟨⟨⟩, hcash, -⟩ := except_bind_eq_ok.1 h
    obtain ⟨⟨⟩, hkind, -⟩ := except_bind_eq_ok.1 hcash
    simp [htype] at hkind
  · rw [if_neg hblank, if_neg (not_not.2 hsymbol), if_pos hfill] at h
    obtain ⟨fill, hmatch, -⟩ := except_bind_eq_ok.1 h
    obtain ⟨⟨⟩, -, hmatch⟩ := except_bind_eq_ok.1 hmatch
    cases htime : raw.transactionTime with
    | none =>
        simp only [htime] at hmatch
        cases hmatch
    | some time =>
        simp only [htime, hexternal] at hmatch
        cases hmatch

/-- The activity belongs to the generation, if there is one. -/
def BelongsTo (membership : Option MembershipResult) (raw : InboxActivity) : Prop :=
  ∀ m, membership = some m → (m.classified.statusOf raw.id).any (·.eligible) = true

theorem mem_eligible {activities eligible : List InboxActivity}
    {membership : Option MembershipResult} {raw : InboxActivity} (hraw : raw ∈ activities)
    (hbelongs : BelongsTo membership raw)
    (h : eligibleFor activities membership = .ok eligible) : raw ∈ eligible := by
  cases membership with
  | none =>
      cases h
      exact hraw
  | some m =>
      obtain ⟨⟨⟩, -, h⟩ := except_bind_eq_ok.1 h
      cases h
      exact List.mem_filter.2 ⟨hraw, hbelongs m rfl⟩

/-- **An execution that is no fill of the instrument refuses the population.** -/
theorem validateFeePopulation_external {asset : AssetIdentity} {activities : List InboxActivity}
    {fills : List Fill} {intents : List TradeIntent} {brokerQuantity : ℚ}
    {membership : Option MembershipResult} {raw : InboxActivity} (hraw : raw ∈ activities)
    (hfill : raw.isFill = true) (hsymbol : withoutSlash raw.symbol = withoutSlash asset.symbol)
    (hbelongs : BelongsTo membership raw) (hexternal : ∀ f ∈ fills,
      assetIdentityKey f.asset = assetIdentityKey asset → f.brokerFillId ≠ some raw.id)
    (result : List AssetFee × FeePopulationProof) :
    validateFeePopulation asset activities fills intents brokerQuantity membership ≠
      .ok result := by
  intro h
  obtain ⟨⟨⟩, -, h⟩ := except_bind_eq_ok.1 h
  obtain ⟨eligible, heligible, h⟩ := except_bind_eq_ok.1 h
  obtain ⟨counted, hcounted, -⟩ := except_bind_eq_ok.1 h
  have hmem := mem_eligible hraw hbelongs heligible
  refine countRows_error (countRow_external hfill hsymbol ?_ ?_) hraw _ _ hcounted
  · exact List.any_eq_true.2 ⟨raw, hmem, by simp⟩
  · unfold PopulationSource.localFill lastWith
    rw [List.find?_eq_none]
    intro f hf
    obtain ⟨hf, hown⟩ := List.mem_filter.1 (List.mem_reverse.1 hf)
    simpa using hexternal f hf (of_decide_eq_true hown)

end TradePulse
