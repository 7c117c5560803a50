/-
**The entry policy** (`dbae/bands.py`, `dbae/policy.py`): equity bands, account and asset
eligibility, and the shape of an approved quantity.

Evidence that is unknown is `none` and never permissive.  A refusal names every reason it found.

Main definitions:

* `Band`, `bandFor`, `unlocks` — the equity bands and what they unlock;
* `AccountEvidence`, `AssetTradingCapabilities`, `EntryProposal` — what the policy judges;
* `evaluateEntryPolicy` — whether an entry may be made at all;
* `shapeQuantity` — a quantity rounded down to what the asset trades in;
* `exitFeasible` — whether the protective exit of the position would be a supported order.

Main results:

* `shapeQuantity_ok` — shaping rounds down, and a quantity that is not refused
  is positive;
* `exitFeasible_none` — an exit that is feasible is worth the threshold.
-/

import Mathlib.Data.Rat.Floor
import Mathlib.Tactic.Linarith
import TradePulse.Models.Market

set_option autoImplicit false

namespace TradePulse.Dbae

/-! ### Bands -/

inductive Band
  | belowMinimum | micro | microPlus | fractional | standard | full
  deriving DecidableEq

/-- Inclusive lower edges, ascending. -/
def bandThresholds : List (Band × ℚ) :=
  [(.micro, 20), (.microPlus, 50), (.fractional, 100), (.standard, 500), (.full, 2000)]

def bandFor (equity : ℚ) : Band :=
  bandThresholds.foldl (fun band edge => if edge.2 ≤ equity then edge.1 else band) .belowMinimum

structure BandUnlocks where
  equity : Bool
  crypto : Bool
  options : Bool
  deriving DecidableEq

/-- What a band unlocks: equities at all, crypto, options. -/
def unlocks : Band → BandUnlocks
  | .belowMinimum => ⟨false, false, false⟩
  | .micro => ⟨true, false, false⟩
  | .microPlus => ⟨true, false, false⟩
  | .fractional => ⟨true, true, false⟩
  | .standard => ⟨true, true, false⟩
  | .full => ⟨true, true, true⟩

/-- A quantity rounded down to a multiple of an increment. -/
def floorToIncrement (qty increment : ℚ) : Except Raised ℚ :=
  if increment ≤ 0 then .error (.valueError "increment must be a positive finite Decimal")
  else .ok (⌊qty / increment⌋ * increment)

/-! ### Evidence -/

structure AccountEvidence where
  status : Option String := none
  tradingBlocked : Option Bool := none
  accountBlocked : Option Bool := none
  tradeSuspendedByUser : Option Bool := none
  suspendTrade : Option Bool := none
  closingTransactionsOnly : Option Bool := none
  fractionalTrading : Option Bool := none
  equity : Option ℚ := none
  cash : Option ℚ := none
  buyingPower : Option ℚ := none
  nonMarginableBuyingPower : Option ℚ := none
  accountMultiplier : Option ℚ := none
  cryptoStatus : Option String := none
  optionsTradingLevel : Option ℤ := none
  receivedAt : Instant
  deriving DecidableEq

structure AssetTradingCapabilities where
  active : Option Bool := none
  tradable : Option Bool := none
  fractionable : Option Bool := none
  minOrderSize : Option ℚ := none
  minTradeIncrement : Option ℚ := none
  receivedAt : Instant
  deriving DecidableEq

/-- Evidence is at most thirty seconds old, and at most five in the future. -/
def evidenceFresh (receivedAt now : Instant) : Bool :=
  decide (now - seconds 30 ≤ receivedAt ∧ receivedAt ≤ now + seconds 5)

structure EntryProposal where
  asset : AssetIdentity
  price : ℚ
  stopPrice : ℚ
  brokerEnvironment : ExecutionMode
  now : Instant
  deriving DecidableEq

structure ExecutionPolicy where
  allowed : Bool
  reasons : List String
  band : Band
  bandEquity : Option ℚ
  fractionalAllowed : Bool
  deriving DecidableEq

def refused (reasons : List String) (band : Band) (bandEquity : Option ℚ) : ExecutionPolicy :=
  ⟨false, reasons, band, bandEquity, false⟩

/-- `_add`: a reason is given once. -/
def addReason (reasons : List String) (reason : String) : List String :=
  if reason ∈ reasons then reasons else reasons ++ [reason]

/-- `_add`, when a condition holds. -/
def addReasonIf (p : Bool) (reason : String) (reasons : List String) : List String :=
  if p then addReason reasons reason else reasons

/-! ### Eligibility -/

def acceptedAccountMultipliers : List ℚ := [2, 4]

def requiredOptionsLevel : ℤ := 2

/-- Any reason here ends the evaluation. -/
def coreAccountReasons (account : AccountEvidence) (now : Instant) : List String :=
  if !evidenceFresh account.receivedAt now then ["DBAE_ACCOUNT_STATE_UNVERIFIED"]
  else
    let blocking := [account.tradingBlocked, account.accountBlocked, account.tradeSuspendedByUser,
      account.suspendTrade]
    let reasons := match account.status with
      | none => ["DBAE_ACCOUNT_STATE_UNVERIFIED"]
      | some status => if status ≠ "ACTIVE" then ["DBAE_ACCOUNT_NOT_ACTIVE"] else []
    let reasons := addReasonIf (blocking.any (· == some true)) "DBAE_ACCOUNT_TRADING_BLOCKED" reasons
    let reasons := addReasonIf (account.closingTransactionsOnly == some true)
      "DBAE_ACCOUNT_CLOSING_ONLY" reasons
    let reasons := addReasonIf ((blocking ++ [account.closingTransactionsOnly]).any (· == none))
      "DBAE_ACCOUNT_STATE_UNVERIFIED" reasons
    let reasons :=
      if account.accountMultiplier = some 1 then
        addReason reasons "DBAE_ACCOUNT_TYPE_UNVERIFIED"
      else addReasonIf (!(account.accountMultiplier.any (acceptedAccountMultipliers.contains ·)))
        "DBAE_ACCOUNT_STATE_UNVERIFIED" reasons
    addReasonIf (account.equity == none || account.cash == none || account.buyingPower == none)
      "DBAE_ACCOUNT_STATE_UNVERIFIED" reasons

def classPermissionReason (account : AccountEvidence) (assetClass : AssetClass) : Option String :=
  match assetClass with
  | .crypto =>
      if account.cryptoStatus ≠ some "ACTIVE" ∨ account.nonMarginableBuyingPower = none then
        some "DBAE_CRYPTO_PERMISSION_UNVERIFIED"
      else none
  | .option =>
      if account.optionsTradingLevel.all fun level => decide (level < requiredOptionsLevel) then
        some "DBAE_OPTIONS_PERMISSION_UNVERIFIED"
      else none
  | _ => none

def classUnlocked (band : Band) : AssetClass → Bool
  | .equity => (unlocks band).equity
  | .crypto => (unlocks band).crypto
  | .option => (unlocks band).options
  | _ => false

/-- `_positive` -/
def positive (value : Option ℚ) : Bool := value.any fun x => decide (0 < x)

/-- The reasons against an asset, after those already found. -/
def assetReasons (account : AccountEvidence) (asset : AssetTradingCapabilities)
    (assetClass : AssetClass) (band : Band) (reasons : List String) : List String :=
  let reasons := addReasonIf (!classUnlocked band assetClass) "DBAE_ASSET_CLASS_LOCKED" reasons
  let reasons := addReasonIf (asset.active != some true || asset.tradable != some true)
    "DBAE_ASSET_NOT_TRADABLE" reasons
  match assetClass with
  | .equity =>
      if band = .micro ∨ band = .microPlus then
        addReasonIf (account.fractionalTrading != some true) "DBAE_FRACTIONAL_TRADING_UNVERIFIED"
          (addReasonIf (asset.fractionable != some true)
            "DBAE_WHOLE_SHARES_NOT_ALLOWED_IN_BAND" reasons)
      else reasons
  | .crypto =>
      addReasonIf (!(positive asset.minOrderSize && positive asset.minTradeIncrement))
        "DBAE_CRYPTO_INCREMENT_UNVERIFIED" reasons
  | _ => reasons

/-- Whether an approved quantity need not be whole. -/
def fractionalAllowed (account : AccountEvidence) (asset : AssetTradingCapabilities)
    (assetClass : AssetClass) (reasons : List String) : Bool :=
  match assetClass with
  | .equity => account.fractionalTrading == some true && asset.fractionable == some true
  | .crypto => reasons.isEmpty
  | _ => false

def evaluateEntryPolicy (account : AccountEvidence) (bandEquity : Option ℚ)
    (asset : AssetTradingCapabilities) (proposal : EntryProposal) : ExecutionPolicy :=
  let band := match bandEquity with
    | none => Band.belowMinimum
    | some equity => bandFor equity
  let assetClass := proposal.asset.assetClass
  let reasons := coreAccountReasons account proposal.now
  if reasons ≠ [] then refused reasons band bandEquity
  else
    let reasons := (classPermissionReason account assetClass).toList
    if bandEquity = none then
      refused (reasons ++ ["DBAE_SESSION_BASELINE_UNVERIFIED"]) band bandEquity
    else if band = .belowMinimum then
      refused (reasons ++ ["DBAE_BELOW_MINIMUM_BALANCE"]) band bandEquity
    else
      -- stale asset evidence is unknown evidence: every field reads as none
      let asset := if evidenceFresh asset.receivedAt proposal.now then asset
        else { receivedAt := asset.receivedAt }
      let reasons := assetReasons account asset assetClass band reasons
      if reasons ≠ [] then refused reasons band bandEquity
      else ⟨true, [], band, bandEquity, fractionalAllowed account asset assetClass reasons⟩

/-! ### Shaping -/

inductive ShapingRule
  | unchanged | wholeShares | cryptoIncrement
  deriving DecidableEq

structure ShapedQuantity where
  quantity : ℚ
  rule : ShapingRule
  refusal : Option String
  deriving DecidableEq

/-- `_require_shapable` -/
def requireShapable (policy : ExecutionPolicy) (qty : ℚ) : Except Raised Unit := do
  raiseIf (policy.allowed = false)
    (.valueError "a refused policy cannot shape or exit a quantity")
  raiseIf (qty ≤ 0) (.valueError "approved quantity must be positive")

/-- Round down only, never up. -/
def shapeQuantity (policy : ExecutionPolicy) (asset : AssetTradingCapabilities)
    (assetClass : AssetClass) (approvedQty : ℚ) : Except Raised ShapedQuantity := do
  requireShapable policy approvedQty
  if assetClass = .crypto then
    match asset.minTradeIncrement, asset.minOrderSize with
    | some increment, some minimum =>
        if 0 < increment ∧ 0 < minimum then
          let floored ← floorToIncrement approvedQty increment
          if floored < minimum then
            .ok ⟨floored, .cryptoIncrement, some "DBAE_BELOW_ASSET_MINIMUM"⟩
          else .ok ⟨floored, .cryptoIncrement, none⟩
        else .ok ⟨0, .cryptoIncrement, some "DBAE_CRYPTO_INCREMENT_UNVERIFIED"⟩
    | _, _ => .ok ⟨0, .cryptoIncrement, some "DBAE_CRYPTO_INCREMENT_UNVERIFIED"⟩
  else if assetClass = .equity ∧ policy.fractionalAllowed then
    .ok ⟨approvedQty, .unchanged, none⟩
  else
    let whole ← floorToIncrement approvedQty 1
    if whole = 0 then .ok ⟨whole, .wholeShares, some "WHOLE_SHARE_UNAFFORDABLE"⟩
    else .ok ⟨whole, .wholeShares, none⟩

/-! ### The protective exit -/

/-- The scope of a verdict on an exit below the minimum: what the source fixes for every entry is
left out of it. -/
structure LiquidationScope where
  brokerEnvironment : ExecutionMode
  assetClass : AssetClass
  fractional : Bool
  deriving DecidableEq

/-- The scopes verified so far: none. -/
def subMinimumLiquidationEvidence : List LiquidationScope := []

def liquidationThreshold (asset : AssetTradingCapabilities) (price : ℚ) : ℚ :=
  match asset.minOrderSize with
  | none => 1
  | some minimum => max 1 (minimum * price)

def isWhole (qty : ℚ) : Bool := decide ((⌊qty⌋ : ℚ) = qty)

def onIncrement (qty increment : ℚ) : Bool := isWhole (qty / increment)

/-- The refusal of a quantity whose exit could not be shaped. -/
def exitShapeRefusal (policy : ExecutionPolicy) (asset : AssetTradingCapabilities)
    (assetClass : AssetClass) (qty : ℚ) : Option String :=
  if assetClass = .crypto then
    match asset.minTradeIncrement, asset.minOrderSize with
    | some increment, some minimum =>
        if ¬ (0 < increment ∧ 0 < minimum) then some "DBAE_CRYPTO_INCREMENT_UNVERIFIED"
        else if !onIncrement qty increment then some "DBAE_CRYPTO_INCREMENT_UNVERIFIED"
        else if qty < minimum then some "DBAE_BELOW_ASSET_MINIMUM"
        else none
    | _, _ => some "DBAE_CRYPTO_INCREMENT_UNVERIFIED"
  else if !isWhole qty && !policy.fractionalAllowed then
    some "DBAE_FRACTIONAL_TRADING_UNVERIFIED"
  else none

/-- The refusal, if the protective exit would not be a supported order. -/
def exitFeasible (policy : ExecutionPolicy) (asset : AssetTradingCapabilities)
    (proposal : EntryProposal) (qty : ℚ) : Except Raised (Option String) := do
  requireShapable policy qty
  match exitShapeRefusal policy asset proposal.asset.assetClass qty with
  | some refusal => .ok (some refusal)
  | none =>
      let multiplier ← contractMultiplierOf proposal.asset
      let stopValue := qty * proposal.stopPrice * multiplier
      let scope : LiquidationScope :=
        ⟨proposal.brokerEnvironment, proposal.asset.assetClass, !isWhole qty⟩
      if liquidationThreshold asset proposal.stopPrice ≤ stopValue then .ok none
      else if scope ∈ subMinimumLiquidationEvidence then .ok none
      else .ok (some "DBAE_SUB_MINIMUM_LIQUIDATION_UNVERIFIED")

/-! ### What shaping and exits guarantee -/

section Shaping

variable {policy : ExecutionPolicy} {asset : AssetTradingCapabilities}

theorem floorToIncrement_ok {qty increment q : ℚ} (h : floorToIncrement qty increment = .ok q) :
    0 < increment ∧ q ≤ qty := by
  unfold floorToIncrement at h
  split at h
  · cases h
  · rename_i hincrement
    have hpos : 0 < increment := not_le.1 hincrement
    cases h
    exact ⟨hpos, (le_div_iff₀ hpos).1 (Int.floor_le _)⟩

/-- A quantity of at least zero rounds down to zero or to at least the increment. -/
theorem floorToIncrement_nonneg {qty increment q : ℚ} (hqty : 0 ≤ qty)
    (h : floorToIncrement qty increment = .ok q) : 0 ≤ q := by
  have hpos := (floorToIncrement_ok h).1
  rw [floorToIncrement, if_neg hpos.not_ge] at h
  cases h
  have hfloor : 0 ≤ ⌊qty / increment⌋ := Int.floor_nonneg.2 (div_nonneg hqty hpos.le)
  exact mul_nonneg (by exact_mod_cast hfloor) hpos.le

theorem requireShapable_ok {qty : ℚ} {u : Unit} (h : requireShapable policy qty = .ok u) :
    policy.allowed = true ∧ 0 < qty := by
  obtain ⟨_, hallowed, hqty⟩ := except_bind_eq_ok.1 h
  rw [raiseIf_eq_ok_iff] at hallowed hqty
  exact ⟨by simpa using hallowed, not_le.1 hqty⟩

/-- **Shaping only rounds down**, and a quantity that is not refused is positive. -/
theorem shapeQuantity_ok {assetClass : AssetClass} {approvedQty : ℚ} {shaped : ShapedQuantity}
    (h : shapeQuantity policy asset assetClass approvedQty = .ok shaped)
    (hrefusal : shaped.refusal = none) :
    0 < approvedQty ∧ 0 < shaped.quantity ∧ shaped.quantity ≤ approvedQty := by
  obtain ⟨_, hshapable, h⟩ := except_bind_eq_ok.1 h
  have hpos := (requireShapable_ok hshapable).2
  refine ⟨hpos, ?_⟩
  split at h
  · split at h
    · rename_i increment minimum _ _
      split at h
      · rename_i hpositive
        obtain ⟨floored, hfloored, h⟩ := except_bind_eq_ok.1 h
        split at h
        · cases h
          cases hrefusal
        · rename_i hminimum
          cases h
          exact ⟨hpositive.2.trans_le (not_lt.1 hminimum), (floorToIncrement_ok hfloored).2⟩
      · cases h
        cases hrefusal
    · cases h
      cases hrefusal
  · split at h
    · cases h
      exact ⟨hpos, le_rfl⟩
    · obtain ⟨whole, hwhole, h⟩ := except_bind_eq_ok.1 h
      split at h
      · cases h
        cases hrefusal
      · rename_i hzero
        cases h
        exact ⟨(floorToIncrement_nonneg hpos.le hwhole).lt_of_ne' hzero,
          (floorToIncrement_ok hwhole).2⟩

theorem one_le_liquidationThreshold (price : ℚ) : 1 ≤ liquidationThreshold asset price := by
  unfold liquidationThreshold
  split
  · exact le_rfl
  · exact le_max_left _ _

/-- An exit that is feasible is worth at least a dollar at the stop. -/
theorem exitFeasible_none {proposal : EntryProposal} {qty : ℚ}
    (h : exitFeasible policy asset proposal qty = .ok none) :
    ∃ m, contractMultiplierOf proposal.asset = .ok m ∧ 1 ≤ qty * proposal.stopPrice * m := by
  obtain ⟨_, -, h⟩ := except_bind_eq_ok.1 h
  split at h
  · cases h
  · obtain ⟨m, hm, h⟩ := except_bind_eq_ok.1 h
    refine ⟨m, hm, ?_⟩
    by_cases hworth : liquidationThreshold asset proposal.stopPrice ≤ qty * proposal.stopPrice * m
    · exact (one_le_liquidationThreshold _).trans hworth
    · -- no scope is verified, so a value below the threshold is refused
      simp [hworth, subMinimumLiquidationEvidence] at h

end Shaping

end TradePulse.Dbae
