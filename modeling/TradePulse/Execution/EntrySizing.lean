/-
**The sizing of an entry** (`execution/gateway.py`: `_authorize_entry`, `_shape_entry` and the part
of `execute_intent` between the quote and the approval).

A new buy is first authorized on fresh account and asset evidence, then sized by the risk engine
against the cash that is not committed to a pending buy, then rounded down to what the asset trades
in.  A quantity that rounding changed is judged again, and the protective exit must be a supported
order.  What is submitted is frozen with the funding it commits.

The baseline of the session is the previous close it recorded, if one is verified.  The other
figures of the frozen record, the alerts and the audit events are left out.

Main definitions:

* `EntryRequest`, `EntryEvidence` — a buy, and what is read for it;
* `authorizeFunding`, `authorizeEntry` — whether a new buy may be sized at all;
* `shapeEntry` — the submitted quantity and its frozen record;
* `sizeEntry` — the whole sequence.

Main results:

* `shapeEntry_ok` — what holds of a quantity that is submitted;
* `sizeEntry_approved` — the steps of a sequence that ended in an approval;
* `smaller_reapproved` — **shaping is always approved again within the minimums**;
* `entry_within_funding` — **an entry never reserves more than is available**;
* `pendingFunding_fill` — **pending funding only falls by attributed fills**.
-/

import TradePulse.Dbae.Commitments
import TradePulse.Risk.Comparison

set_option autoImplicit false

namespace TradePulse.Execution

open Dbae Risk

/-! ### Authorization -/

/-- A buy, with the quote and the figures it is judged on. -/
structure EntryRequest where
  asset : AssetIdentity
  requestedQuantity : ℚ
  price : ℚ
  bid : ℚ
  ask : ℚ
  estimatedSlippagePct : ℚ
  confidence : Option ℚ := none
  regimeMultiplier : Option RegimeMultiplier := none
  sector : Option String := none
  sizingStop : Option ℚ := none
  openRisk : ℚ := 0
  symbolEntriesToday : ℤ := 0
  heldQuantity : ℚ := 0
  heldNotional : ℚ := 0
  maxDrawdownBreached : Bool := false
  candidateHoldsSlot : Bool := false
  brokerEnvironment : ExecutionMode := .paper
  now : Instant := 0
  deriving DecidableEq

/-- What is read for a new buy; `none` when the read failed. -/
structure EntryEvidence where
  account : Option AccountEvidence := none
  asset : Option AssetTradingCapabilities := none
  previousCloseEquity : Option ℚ := none
  deriving DecidableEq

/-- The stop an entry is judged by: the one it is sized against, or the profile's distance below
the price when there is no usable one. -/
def proposalStop (limits : EntryLimits) (price : ℚ) (sizingStop : Option ℚ) : ℚ :=
  let profileStop := price * (1 - limits.stopLossPct / 100)
  match sizingStop with
  | some stop => if 0 < stop ∧ stop < price then stop else profileStop
  | none => profileStop

/-- `_proposal` -/
def proposal (limits : EntryLimits) (request : EntryRequest) : EntryProposal :=
  ⟨request.asset, request.price, proposalStop limits request.price request.sizingStop,
    request.brokerEnvironment, request.now⟩

/-- `band_equity`: the lower of the current equity and the previous close. -/
def bandEquity (currentEquity previousClose : Option ℚ) : Option ℚ :=
  match currentEquity, previousClose with
  | some equity, some close => some (min equity close)
  | _, _ => none

/-- An entry that passed authorization. -/
structure AuthorizedEntry where
  policy : ExecutionPolicy
  proposal : EntryProposal
  account : AccountEvidence
  asset : AssetTradingCapabilities
  bandEquity : ℚ
  pending : PendingFunding
  fundingAvailable : ℚ
  deriving DecidableEq

/-- The funding step of authorization: what is available for a new buy, or the reasons to refuse
it.  A pending buy that cannot be priced, and one whose quantities differ, refuses every entry. -/
def authorizeFunding (account : AccountEvidence) (assetClass : AssetClass)
    (pending : Except Raised PendingFunding) : Except (List String) (PendingFunding × ℚ) :=
  match pending with
  | .error _ => .error ["DBAE_FUNDING_UNVERIFIED"]
  | .ok pending =>
      let reasons :=
        if pending.mismatches ≠ [] then ["DBAE_QUANTITY_IDENTITY_MISMATCH"] else []
      let available :=
        if pending.unpriced ≠ [] then none else fundingAvailable account assetClass pending.total
      match available with
      | none => .error (reasons ++ ["DBAE_FUNDING_UNVERIFIED"])
      | some available => if reasons ≠ [] then .error reasons else .ok (pending, available)

/-- `_authorize_entry`: the first step that fails refuses the entry with its reasons. -/
def authorizeEntry (limits : EntryLimits) (evidence : EntryEvidence) (request : EntryRequest)
    (pending : Except Raised PendingFunding) : Except (List String) AuthorizedEntry :=
  match evidence.account with
  | none => .error ["DBAE_ACCOUNT_STATE_UNVERIFIED"]
  | some account =>
      let asset := evidence.asset.getD { receivedAt := request.now }
      let core := coreAccountReasons account request.now
      if core ≠ [] then .error core
      else
        let equityForBand := bandEquity account.equity evidence.previousCloseEquity
        let policy := evaluateEntryPolicy account equityForBand asset (proposal limits request)
        if !policy.allowed then .error policy.reasons
        else
          match equityForBand with
          | none => .error ["DBAE_SESSION_BASELINE_UNVERIFIED"]
          | some equityForBand => do
              let (pending, available) ←
                authorizeFunding account request.asset.assetClass pending
              .ok ⟨policy, proposal limits request, account, asset, equityForBand, pending,
                available⟩

/-! ### Shaping -/

/-- The figures of the frozen record that funding reads back. -/
def frozenRecord (quantity committed price multiplier slippagePct feePct : ℚ) : DbaeBlock where
  submittedQuantity := .decimal quantity
  maxFunding := .decimal committed
  referencePrice := .decimal price
  contractMultiplier := .decimal multiplier
  slippagePct := .decimal slippagePct
  feePct := .decimal feePct

/-- Judge a quantity again when rounding changed it. -/
def reapproved (limits : EntryLimits) (input : RiskCheckInput) (snapshot : Option PortfolioSnapshot)
    (opts : RiskEvalOptions) (approvedQuantity shaped : ℚ) : Except Raised Bool :=
  if shaped ≠ approvedQuantity then do
    let again ← evaluateRisk (input.withQuantity shaped) snapshot limits opts
    .ok (again.approved && decide (again.approvedQuantity = shaped))
  else .ok true

/-- `_shape_entry`: a reason to refuse the entry, or the submitted quantity and its record. -/
def shapeEntry (limits : EntryLimits) (entry : AuthorizedEntry) (risk : RiskDecision)
    (input : RiskCheckInput) (snapshot : Option PortfolioSnapshot) (opts : RiskEvalOptions) :
    Except Raised (Except String (ℚ × DbaeBlock)) := do
  let asset := entry.proposal.asset
  let shaped ← shapeQuantity entry.policy entry.asset asset.assetClass risk.approvedQuantity
  match shaped.refusal with
  | some refusal => .ok (.error refusal)
  | none => do
      let again ← reapproved limits input snapshot opts risk.approvedQuantity shaped.quantity
      if !again then .ok (.error "DBAE_SHAPED_QUANTITY_NOT_REAPPROVED")
      else do
        match ← exitFeasible entry.policy entry.asset entry.proposal shaped.quantity with
        | some refusal => .ok (.error refusal)
        | none => do
            let multiplier ← contractMultiplierOf asset
            let slippagePct := limits.slippageLimitFor asset.assetClass
            let feePct := buyFeePct asset.assetClass
            let committed :=
              fundingFor shaped.quantity entry.proposal.price multiplier slippagePct feePct
            .ok (.ok (shaped.quantity, frozenRecord shaped.quantity committed entry.proposal.price
              multiplier slippagePct feePct))

/-! ### The sequence -/

/-- What the engine is asked about a request. -/
def riskInput (request : EntryRequest) (multiplier : ℚ) : RiskCheckInput where
  symbol := request.asset.symbol
  assetClass := request.asset.assetClass
  side := .buy
  requestedQuantity := request.requestedQuantity
  price := request.price
  confidence := request.confidence
  stopLoss := request.sizingStop
  sector := request.sector.getD "Other"
  contractMultiplier := multiplier
  regimeMultiplier := request.regimeMultiplier

/-- The options of a new buy, with the cash it may be sized against. -/
def riskOptions (request : EntryRequest) (availableCash : ℚ) : RiskEvalOptions where
  bid := some request.bid
  ask := some request.ask
  estimatedSlippagePct := some request.estimatedSlippagePct
  maxDrawdownBreached := request.maxDrawdownBreached
  heldQuantity := |request.heldQuantity|
  heldNotional := request.heldNotional
  availableCash := some availableCash
  openRisk := request.openRisk
  symbolEntriesToday := request.symbolEntriesToday
  candidateHoldsSlot := request.candidateHoldsSlot

/-- What becomes of a new buy before it is submitted. -/
inductive EntryOutcome
  | skipped (reason : String)
  | refused (reasons : List String)
  | denied (reasons : List RiskReason)
  | approved (quantity : ℚ) (record : DbaeBlock)
  deriving DecidableEq

/-- A new buy, from the account's equity to the approval.  The snapshot values the account at the
equity the broker reports. -/
def sizeEntry (limits : EntryLimits) (rows : List StoredIntent) (settlements : List SettlementEvent)
    (evidence : EntryEvidence) (portfolio : PortfolioSnapshot) (accountEquity : ℚ)
    (request : EntryRequest) : Except Raised EntryOutcome :=
  if accountEquity ≤ 0 then .ok (.skipped "BROKER_ACCOUNT_INVALID")
  else do
    let snapshot := { portfolio with totalEquity := accountEquity }
    let multiplier ← contractMultiplierOf request.asset
    let input := riskInput request multiplier
    match authorizeEntry limits evidence request (pendingBuyFunding rows settlements limits) with
    | .error reasons => .ok (.refused reasons)
    | .ok entry => do
        let fundable := fundableNotional entry.fundingAvailable request.asset.assetClass
          (limits.slippageLimitFor request.asset.assetClass)
        let opts := riskOptions request fundable
        let risk ← evaluateRisk input (some snapshot) limits opts
        if !risk.approved then .ok (.denied risk.reasons)
        else do
          match ← shapeEntry limits entry risk input (some snapshot) opts with
          | .error reason => .ok (.refused [reason])
          | .ok (quantity, record) => .ok (.approved quantity record)

/-! ### A smaller quantity is approved again -/

/-- No refusal of a shape or of an exit is the refusal of a quantity that was judged again. -/
theorem shapeQuantity_refusal {policy : ExecutionPolicy} {asset : AssetTradingCapabilities}
    {assetClass : AssetClass} {qty : ℚ} {shaped : ShapedQuantity}
    (h : shapeQuantity policy asset assetClass qty = .ok shaped) :
    shaped.refusal ≠ some "DBAE_SHAPED_QUANTITY_NOT_REAPPROVED" := by
  obtain ⟨_, -, h⟩ := except_bind_eq_ok.1 h
  split at h
  · split at h
    · split at h
      · obtain ⟨floored, -, h⟩ := except_bind_eq_ok.1 h
        split at h <;> cases h <;> simp
      · cases h
        simp
    · cases h
      simp
  · split at h
    · cases h
      simp
    · obtain ⟨whole, -, h⟩ := except_bind_eq_ok.1 h
      split at h <;> cases h <;> simp

theorem exitFeasible_refusal {policy : ExecutionPolicy} {asset : AssetTradingCapabilities}
    {proposal : EntryProposal} {qty : ℚ} {refusal : Option String}
    (h : exitFeasible policy asset proposal qty = .ok refusal) :
    refusal ≠ some "DBAE_SHAPED_QUANTITY_NOT_REAPPROVED" := by
  have hshape : exitShapeRefusal policy asset proposal.asset.assetClass qty ≠
      some "DBAE_SHAPED_QUANTITY_NOT_REAPPROVED" := by
    unfold exitShapeRefusal
    repeat' split
    all_goals decide
  obtain ⟨_, -, h⟩ := except_bind_eq_ok.1 h
  split at h
  · rename_i refusal' hsome
    cases h
    exact hsome ▸ hshape
  · obtain ⟨m, -, h⟩ := except_bind_eq_ok.1 h
    dsimp only at h
    split at h
    · cases h
      decide
    · split at h <;> cases h <;> decide

section Shaping

variable {limits : EntryLimits} {entry : AuthorizedEntry} {risk : RiskDecision}
  {input : RiskCheckInput} {snapshot : Option PortfolioSnapshot} {opts : RiskEvalOptions}

/-- A quantity that passed is the approved one, or is approved when it is asked for. -/
theorem reapproved_true {a r : ℚ} (ha : Approves input limits opts snapshot a)
    (h : reapproved limits input snapshot opts a r = .ok true) :
    Approves input limits opts snapshot r ∨
      Approves (input.withQuantity r) limits opts snapshot r := by
  unfold reapproved at h
  split at h
  · obtain ⟨d, hd, h⟩ := except_bind_eq_ok.1 h
    injection h with h
    simp only [Bool.and_eq_true, decide_eq_true_eq] at h
    exact .inr ⟨d, hd, h.1, h.2⟩
  · rename_i hsame
    exact .inl (not_ne_iff.1 hsame ▸ ha)

/-- A quantity that is approved when it is asked for passes. -/
theorem reapproved_of_approves {a r : ℚ}
    (h : Approves (input.withQuantity r) limits opts snapshot r) :
    reapproved limits input snapshot opts a r = .ok true := by
  obtain ⟨d, hd, hyes, hsame⟩ := h
  unfold reapproved
  split
  · rw [hd]
    simp [bind, Except.bind, hyes, hsame]
  · rfl

/-- **What holds of a quantity that is submitted.** -/
theorem shapeEntry_ok {quantity : ℚ} {record : DbaeBlock}
    (h : shapeEntry limits entry risk input snapshot opts = .ok (.ok (quantity, record))) :
    0 < quantity ∧ quantity ≤ risk.approvedQuantity ∧
      reapproved limits input snapshot opts risk.approvedQuantity quantity = .ok true ∧
      ∃ m, contractMultiplierOf entry.proposal.asset = .ok m ∧
        1 ≤ quantity * entry.proposal.stopPrice * m ∧
        record = frozenRecord quantity
          (fundingFor quantity entry.proposal.price m
            (limits.slippageLimitFor entry.proposal.asset.assetClass)
            (buyFeePct entry.proposal.asset.assetClass))
          entry.proposal.price m (limits.slippageLimitFor entry.proposal.asset.assetClass)
          (buyFeePct entry.proposal.asset.assetClass) := by
  obtain ⟨shaped, hshaped, h⟩ := except_bind_eq_ok.1 h
  split at h
  · cases h
  rename_i hrefusal
  obtain ⟨-, hpos, hle⟩ := shapeQuantity_ok hshaped hrefusal
  obtain ⟨again, hagain, h⟩ := except_bind_eq_ok.1 h
  cases again with
  | false => cases h
  | true =>
      obtain ⟨refusal, hexit, h⟩ := except_bind_eq_ok.1 h
      cases refusal with
      | some refusal => cases h
      | none =>
          obtain ⟨m, hm, h⟩ := except_bind_eq_ok.1 h
          cases h
          obtain ⟨m', hm', hworth⟩ := exitFeasible_none hexit
          rw [hm] at hm'
          cases hm'
          exact ⟨hpos, hle, hagain, m, hm, hworth, rfl⟩

/-- **Shaping is always approved again within the minimums.**  Every smaller quantity of an approved
buy that is worth an order is approved as it is, so a shaped quantity is refused for not being
approved again only when it is below the minimums. -/
theorem smaller_reapproved (hbuy : input.side = .buy)
    (hd : evaluateRisk input snapshot limits opts = .ok risk) (happroved : risk.approved = true) :
    (∀ r, 0 < r → r ≤ risk.approvedQuantity → minimumQuantity input.assetClass ≤ r →
      limits.minLotNotional ≤ r * input.notionalPerUnit →
      Approves (input.withQuantity r) limits opts snapshot r) ∧
    ∀ entry, shapeEntry limits entry risk input snapshot opts =
        .ok (.error "DBAE_SHAPED_QUANTITY_NOT_REAPPROVED") →
      ∃ shaped, shapeQuantity entry.policy entry.asset entry.proposal.asset.assetClass
          risk.approvedQuantity = .ok shaped ∧ shaped.refusal = none ∧
        (shaped.quantity < minimumQuantity input.assetClass ∨
          shaped.quantity * input.notionalPerUnit < limits.minLotNotional) := by
  have ha : Approves input limits opts snapshot risk.approvedQuantity := ⟨risk, hd, happroved, rfl⟩
  refine ⟨fun r => approves_smaller hbuy ha, fun entry h => ?_⟩
  obtain ⟨shaped, hshaped, h⟩ := except_bind_eq_ok.1 h
  have hother := shapeQuantity_refusal hshaped
  split at h
  · rename_i refusal hrefusal
    cases h
    exact absurd hrefusal hother
  rename_i hrefusal
  refine ⟨shaped, hshaped, hrefusal, ?_⟩
  obtain ⟨-, hpos, hle⟩ := shapeQuantity_ok hshaped hrefusal
  obtain ⟨again, hagain, h⟩ := except_bind_eq_ok.1 h
  cases again with
  | false =>
      by_contra hworth
      push Not at hworth
      have hyes : reapproved limits input snapshot opts risk.approvedQuantity shaped.quantity =
          .ok true :=
        reapproved_of_approves (approves_smaller hbuy ha hpos hle hworth.1 hworth.2)
      rw [hagain] at hyes
      cases hyes
  | true =>
      obtain ⟨refusal, hexit, h⟩ := except_bind_eq_ok.1 h
      have hexit := exitFeasible_refusal hexit
      cases refusal with
      | some refusal =>
          cases h
          exact absurd rfl hexit
      | none =>
          obtain ⟨m, -, h⟩ := except_bind_eq_ok.1 h
          cases h

end Shaping

/-- Five are approved, so every smaller quantity worth an order is. -/
theorem smaller_reapproved_sample :
    (∀ r, 0 < r → r ≤ 5 → minimumQuantity sampleEntry.assetClass ≤ r →
      sampleLimits.minLotNotional ≤ r * sampleEntry.notionalPerUnit →
      Approves (sampleEntry.withQuantity r) sampleLimits sampleOptions (some emptyAccount) r) ∧
    ∀ entry, shapeEntry sampleLimits entry ⟨true, 5, [.ok]⟩ sampleEntry (some emptyAccount)
        sampleOptions = .ok (.error "DBAE_SHAPED_QUANTITY_NOT_REAPPROVED") →
      ∃ shaped, shapeQuantity entry.policy entry.asset entry.proposal.asset.assetClass 5 =
          .ok shaped ∧ shaped.refusal = none ∧
        (shaped.quantity < minimumQuantity sampleEntry.assetClass ∨
          shaped.quantity * sampleEntry.notionalPerUnit < sampleLimits.minLotNotional) :=
  have hrun : evaluateRisk sampleEntry (some emptyAccount) sampleLimits sampleOptions =
      .ok ⟨true, 5, [.ok]⟩ := by decide +kernel
  smaller_reapproved rfl hrun rfl

/-! ### An entry never reserves more than is available -/

/-- A stored buy that keeps the quantity and the record it was approved with. -/
structure ApprovedRow (request : EntryRequest) (quantity : ℚ) (record : DbaeBlock)
    (row : StoredIntent) : Prop where
  buy : row.intent.side = .buy
  asset : row.intent.asset = request.asset
  price : row.intent.referencePrice = some request.price
  quantity : row.intent.requestedQuantity = some quantity
  record : row.dbae = .block record

theorem fundingAvailable_some {account : AccountEvidence} {assetClass : AssetClass}
    {pending available : ℚ} (h : fundingAvailable account assetClass pending = some available) :
    ∃ cash power, account.cash = some cash ∧ buyingPowerFor account assetClass = some power ∧
      available = min (cash - pending) (power - pending) := by
  unfold fundingAvailable at h
  split at h
  · rename_i cash power hcash hpower
    split at h
    · cases h
    · cases h
      exact ⟨cash, power, hcash, hpower, rfl⟩
  · cases h

/-- **What an authorized funding rests on**: every pending buy is priced, on one quantity. -/
theorem authorizeFunding_ok {account : AccountEvidence} {assetClass : AssetClass}
    {pending : Except Raised PendingFunding} {p : PendingFunding} {available : ℚ}
    (h : authorizeFunding account assetClass pending = .ok (p, available)) :
    pending = .ok p ∧ p.unpriced = [] ∧ p.mismatches = [] ∧
      fundingAvailable account assetClass p.total = some available := by
  unfold authorizeFunding at h
  split at h
  · cases h
  rename_i p'
  by_cases hpriced : p'.unpriced = []
  · by_cases hsame : p'.mismatches = []
    · simp only [hpriced, hsame, ne_eq, not_true_eq_false, if_false] at h
      split at h
      · cases h
      · rename_i available' havailable
        cases h
        exact ⟨rfl, hpriced, hsame, havailable⟩
    · simp only [hpriced, hsame, ne_eq, not_true_eq_false, not_false_eq_true, if_false,
        if_true] at h
      split at h <;> simp at h
  · simp [hpriced] at h

theorem authorizeEntry_ok {limits : EntryLimits} {evidence : EntryEvidence}
    {request : EntryRequest} {pending : Except Raised PendingFunding} {entry : AuthorizedEntry}
    (h : authorizeEntry limits evidence request pending = .ok entry) :
    ∃ account, evidence.account = some account ∧ entry.proposal = proposal limits request ∧
      authorizeFunding account request.asset.assetClass pending =
        .ok (entry.pending, entry.fundingAvailable) := by
  unfold authorizeEntry at h
  split at h
  · cases h
  rename_i account haccount
  dsimp only at h
  split at h
  · cases h
  split at h
  · cases h
  split at h
  · cases h
  · obtain ⟨⟨p, available⟩, hfunding, h⟩ := except_bind_eq_ok.1 h
    cases h
    exact ⟨account, haccount, rfl, hfunding⟩

section Sequence

variable {limits : EntryLimits} {rows : List StoredIntent} {settlements : List SettlementEvent}
  {evidence : EntryEvidence} {portfolio : PortfolioSnapshot} {accountEquity : ℚ}
  {request : EntryRequest} {quantity : ℚ} {record : DbaeBlock}

/-- The steps of a sequence that ended in an approval. -/
theorem sizeEntry_approved
    (h : sizeEntry limits rows settlements evidence portfolio accountEquity request =
      .ok (.approved quantity record)) :
    0 < accountEquity ∧ ∃ multiplier entry risk,
      contractMultiplierOf request.asset = .ok multiplier ∧
      authorizeEntry limits evidence request (pendingBuyFunding rows settlements limits) =
        .ok entry ∧
      evaluateRisk (riskInput request multiplier)
        (some { portfolio with totalEquity := accountEquity }) limits
        (riskOptions request (fundableNotional entry.fundingAvailable request.asset.assetClass
          (limits.slippageLimitFor request.asset.assetClass))) = .ok risk ∧
      risk.approved = true ∧
      shapeEntry limits entry risk (riskInput request multiplier)
        (some { portfolio with totalEquity := accountEquity })
        (riskOptions request (fundableNotional entry.fundingAvailable request.asset.assetClass
          (limits.slippageLimitFor request.asset.assetClass))) = .ok (.ok (quantity, record)) := by
  unfold sizeEntry at h
  split at h
  · cases h
  rename_i hequity
  obtain ⟨multiplier, hmultiplier, h⟩ := except_bind_eq_ok.1 h
  refine ⟨not_le.1 hequity, multiplier, ?_⟩
  dsimp only at h
  split at h
  · cases h
  rename_i entry hentry
  obtain ⟨risk, hrisk, h⟩ := except_bind_eq_ok.1 h
  split at h
  · cases h
  rename_i happroved
  obtain ⟨shaped, hshaped, h⟩ := except_bind_eq_ok.1 h
  split at h
  · cases h
  · cases h
    exact ⟨entry, risk, hmultiplier, hentry, hrisk, by simpa using happroved, hshaped⟩

/-- The record of an entry proves the funding it states. -/
theorem frozenRecord_proven {price multiplier slippagePct feePct : ℚ} (hq : 0 < quantity)
    (hp : 0 < price) (hm : 0 < multiplier) (hs : 0 ≤ slippagePct) (hf : 0 ≤ feePct)
    {intent : TradeIntent} (hprice : intent.referencePrice = some price)
    (hmultiplier : contractMultiplierOf intent.asset = .ok multiplier) :
    ProvenRecord (frozenRecord quantity (fundingFor quantity price multiplier slippagePct feePct)
      price multiplier slippagePct feePct) quantity intent
      (fundingFor quantity price multiplier slippagePct feePct) :=
  ⟨fundingFor_pos hq hp hm hs hf, price, multiplier, slippagePct, feePct, rfl, rfl, rfl, rfl, rfl,
    hp, hm, hs, hf, hprice, hmultiplier, rfl⟩

/-- Until a fill is attributed, an approved buy reserves at least what its record commits. -/
theorem committed_le_share {row : StoredIntent} (hrow : ApprovedRow request quantity record row)
    {committed unit : ℚ} (hpriced : Priced limits row quantity committed unit)
    (hnone : eventsOf settlements row.intent.tradeIntentId = []) :
    committed ≤ share limits settlements row := by
  have hpos : 0 < quantity := recordedQty_pos hpriced.quantity
  have hleft : unattributed settlements row quantity = quantity := by
    rw [unattributed, reservedQty_eq_max hpriced.quantity, max_self, attributedQty, hnone]
    simp
  rw [share_priced hrow.quantity hpriced, hleft, max_eq_left hpos.le]
  calc committed = quantity * (committed / quantity) := (mul_div_cancel₀ committed hpos.ne').symm
    _ ≤ quantity * max (committed / quantity) unit :=
      mul_le_mul_of_nonneg_left (le_max_left _ _) hpos.le

/-- The total covers the share of every pending intent. -/
theorem share_le_total {row : StoredIntent} {p : PendingFunding} (hrow : row ∈ pendingRows rows)
    (h : pendingBuyFunding rows settlements limits = .ok p) :
    share limits settlements row ≤ p.total := by
  have hlaw := pendingBuyFunding_committed h
  rw [hlaw.total]
  refine List.single_le_sum ?_ _ (List.mem_map.2 ⟨row, hrow, rfl⟩)
  intro x hx
  obtain ⟨other, hother, rfl⟩ := List.mem_map.1 hx
  exact hlaw.nonneg other hother

/-- The proposed stop of an entry is not negative when the profile's own stop is not. -/
theorem proposalStop_nonneg {price : ℚ} (hprice : 0 < price) (hstop : limits.stopLossPct ≤ 100)
    (sizingStop : Option ℚ) : 0 ≤ proposalStop limits price sizingStop := by
  have hprofile : 0 ≤ price * (1 - limits.stopLossPct / 100) :=
    mul_nonneg hprice.le (by linarith)
  unfold proposalStop
  cases sizingStop with
  | none => exact hprofile
  | some stop =>
      dsimp only
      split
      · rename_i husable
        exact husable.1.le
      · exact hprofile

/-- An approved quantity is within the cash it was sized against. -/
theorem notional_le_of_approves {cash multiplier : ℚ} (hprice : 0 < request.price)
    (hmult : 0 < multiplier) (hequity : 0 < accountEquity) {input : RiskCheckInput}
    (hinput : input = riskInput request multiplier ∨
      input = (riskInput request multiplier).withQuantity quantity)
    (h : Approves input limits (riskOptions request cash)
      (some { portfolio with totalEquity := accountEquity }) quantity) :
    quantity * (request.price * multiplier) ≤ cash := by
  have hcaps : 0 < quantity ∧ quantity * (request.price * multiplier) + 0 ≤ bufferedCash cash := by
    rcases hinput with rfl | rfl
    all_goals
      exact ⟨(caps_of_approves rfl rfl hequity hprice hmult h).1,
        cash_of_approves rfl rfl hequity hprice hmult h cash rfl⟩
  obtain ⟨hpos, hbuffer⟩ := hcaps
  have hnotional : 0 < quantity * (request.price * multiplier) := by positivity
  -- a positive notional needs positive cash, of which the buffer is a part
  simp only [bufferedCash] at hbuffer
  linarith

/-- **An entry never reserves more than is available**: the funding frozen for it and all pending
commitments are within the cash and the buying power, the frozen record is accepted when it is read
back, and until a fill is attributed at least that amount stays reserved under any profile. -/
theorem entry_within_funding (hprice : 0 < request.price)
    (hunit : limits.stopLossPct ≤ 100 ∨ ∃ m, contractMultiplierOf request.asset = .ok m ∧ 0 < m)
    (h : sizeEntry limits rows settlements evidence portfolio accountEquity request =
      .ok (.approved quantity record)) :
    ∃ account pending cash power committed, evidence.account = some account ∧
      pendingBuyFunding rows settlements limits = .ok pending ∧
      account.cash = some cash ∧
      buyingPowerFor account request.asset.assetClass = some power ∧
      record.maxFunding = .decimal committed ∧
      committed + pending.total ≤ cash ∧ committed + pending.total ≤ power ∧
      ∀ row, ApprovedRow request quantity record row →
        frozenMaxFunding record quantity row.intent = .ok (some committed) ∧
        ∀ rows' settlements' limits' later, row ∈ pendingRows rows' →
          eventsOf settlements' row.intent.tradeIntentId = [] →
          pendingBuyFunding rows' settlements' limits' = .ok later →
          committed ≤ share limits' settlements' row ∧ committed ≤ later.total := by
  obtain ⟨hequity, multiplier, entry, risk, hmultiplier, hentry, hrisk, happroved, hshape⟩ :=
    sizeEntry_approved h
  obtain ⟨account, haccount, hproposal, hfunding⟩ := authorizeEntry_ok hentry
  obtain ⟨hpending, -, -, havailable⟩ := authorizeFunding_ok hfunding
  obtain ⟨cash, power, hcash, hpower, hmin⟩ := fundingAvailable_some havailable
  obtain ⟨hpos, -, hagain, m, hm, hworth, rfl⟩ := shapeEntry_ok hshape
  rw [hproposal] at hm hworth ⊢
  have hm : contractMultiplierOf request.asset = .ok m := hm
  obtain rfl : multiplier = m := by
    rw [hmultiplier] at hm
    cases hm
    rfl
  have hmult : 0 < multiplier := by
    rcases hunit with hstop | ⟨m, hm', hpositive⟩
    · -- the exit is worth something at a stop that is not negative
      have hstop := proposalStop_nonneg hprice hstop request.sizingStop
      by_contra hnot
      have hloss := mul_nonpos_of_nonneg_of_nonpos (mul_nonneg hpos.le hstop) (not_lt.1 hnot)
      exact absurd (hworth.trans hloss) (by norm_num)
    · rw [hm] at hm'
      cases hm'
      exact hpositive
  have hslippage := limits.slippageLimitFor_nonneg request.asset.assetClass
  have hfee := buyFeePct_nonneg request.asset.assetClass
  have hnotional : quantity * (request.price * multiplier) ≤
      fundableNotional entry.fundingAvailable request.asset.assetClass
        (limits.slippageLimitFor request.asset.assetClass) := by
    rcases reapproved_true ⟨risk, hrisk, happroved, rfl⟩ hagain with happroves | happroves
    · exact notional_le_of_approves hprice hmult hequity (.inl rfl) happroves
    · exact notional_le_of_approves hprice hmult hequity (.inr rfl) happroves
  have hcommitted := fundingFor_le_of_le_fundable hslippage hnotional
  rw [hmin] at hcommitted
  refine ⟨account, entry.pending, cash, power, _, haccount, hpending, hcash, hpower, rfl,
    le_sub_iff_add_le.1 (hcommitted.trans (min_le_left _ _)),
    le_sub_iff_add_le.1 (hcommitted.trans (min_le_right _ _)), ?_⟩
  intro row hrow
  have hasset : contractMultiplierOf row.intent.asset = .ok multiplier := hrow.asset ▸ hm
  have hproven := frozenRecord_proven hpos hprice hmult hslippage hfee hrow.price hasset
  refine ⟨frozenMaxFunding_some.2 hproven, ?_⟩
  intro rows' settlements' limits' later hmem hnone hlater
  have hrecorded : recordedQty row = some quantity := by
    rw [recordedQty, hrow.record]
    exact frozenDecimal_eq_some_iff.2 ⟨rfl, hpos.le, fun hzero => absurd hzero hpos.ne'⟩
  have hpriced : Priced limits' row quantity _ _ := ⟨hrow.buy, hrecorded, ⟨_, hrow.record, hproven⟩,
    request.price, multiplier, hrow.price, hasset, rfl⟩
  have hshare := committed_le_share hrow hpriced hnone
  exact ⟨hshare, hshare.trans (share_le_total hmem hlater)⟩

end Sequence

/-! ### An entry, and what it leaves -/

def sampleAsset : AssetIdentity where
  symbol := "ACME"
  assetClass := .equity
  nativeAssetId := "ACME"
  venue := some "alpaca"

/-- Five shares at 100, with a stop at 95. -/
def sampleRequest : EntryRequest where
  asset := sampleAsset
  requestedQuantity := 5
  price := 100
  bid := 999 / 10
  ask := 100
  estimatedSlippagePct := 0
  sizingStop := some 95

/-- A margin account in good standing, with three hundred in cash. -/
def sampleAccount : AccountEvidence where
  status := some "ACTIVE"
  tradingBlocked := some false
  accountBlocked := some false
  tradeSuspendedByUser := some false
  suspendTrade := some false
  closingTransactionsOnly := some false
  fractionalTrading := some true
  equity := some 10000
  cash := some 300
  buyingPower := some 1000
  accountMultiplier := some 2
  receivedAt := 0

def sampleEvidence : EntryEvidence where
  account := some sampleAccount
  asset := some {
    active := some true
    tradable := some true
    fractionable := some true
    receivedAt := 0 }
  previousCloseEquity := some 10000

/-- A sequence that ends in an approval, cut to what the cash funds. -/
theorem entry_within_funding_sample :
    ∃ account pending cash power committed, sampleEvidence.account = some account ∧
      pendingBuyFunding [] [] sampleLimits = .ok pending ∧
      account.cash = some cash ∧ buyingPowerFor account .equity = some power ∧
      StoredFigure.decimal (14847 / 50) = .decimal committed ∧
      committed + pending.total ≤ cash ∧ committed + pending.total ≤ power ∧
      ∀ row, ApprovedRow sampleRequest (147 / 50)
          (frozenRecord (147 / 50) (14847 / 50) 100 1 1 0) row →
        frozenMaxFunding (frozenRecord (147 / 50) (14847 / 50) 100 1 1 0) (147 / 50) row.intent =
            .ok (some committed) ∧
          ∀ rows' settlements' limits' later, row ∈ pendingRows rows' →
            eventsOf settlements' row.intent.tradeIntentId = [] →
            pendingBuyFunding rows' settlements' limits' = .ok later →
            committed ≤ share limits' settlements' row ∧ committed ≤ later.total :=
  have hrun : sizeEntry sampleLimits [] [] sampleEvidence emptyAccount 10000 sampleRequest =
      .ok (.approved (147 / 50) (frozenRecord (147 / 50) (14847 / 50) 100 1 1 0)) := by
    decide +kernel
  entry_within_funding (by decide +kernel) (.inl (by decide +kernel)) hrun

/-- A profile whose own stop lies below zero. -/
def deepStopLimits : EntryLimits :=
  { sampleLimits with
    stopLossPct := 200
    valid := by decide +kernel }

/-- The request for a unit of minus one, without a stop of its own. -/
def negativeRequest : EntryRequest :=
  { sampleRequest with
    asset := { sampleAsset with contractMultiplier := some (-1) }
    sizingStop := none }

/-- **A negative unit passes the exit check at a negative stop**, and the record frozen for it is
not accepted when it is read back. -/
theorem record_not_accepted_negative :
    0 < negativeRequest.price ∧
      sizeEntry deepStopLimits [] [] sampleEvidence emptyAccount 10000 negativeRequest =
        .ok (.approved 5 (frozenRecord 5 (-505) 100 (-1) 1 0)) ∧
      ∀ intent, frozenMaxFunding (frozenRecord 5 (-505) 100 (-1) 1 0) 5 intent = .ok none :=
  ⟨by decide +kernel, by decide +kernel, fun _ => rfl⟩

/-! ### Pending funding only falls by attributed fills -/

section Fill

variable {limits : EntryLimits} {rows : List StoredIntent} {settlements : List SettlementEvent}
  {p p' : PendingFunding}

/-- A buy that cannot be priced refuses every entry. -/
theorem authorizeFunding_unpriced (account : AccountEvidence) (assetClass : AssetClass)
    (h : p.unpriced ≠ []) :
    ∃ reasons, authorizeFunding account assetClass (.ok p) = .error reasons := by
  simp [authorizeFunding, h]

/-- **Pending funding only falls by attributed fills.**  Before and after a further fill every
commitment is counted or reported; the fill lowers the total by at most what it costs at the larger
of the frozen and the current price of a unit; it leaves the share of every other intent alone; and
an unpriced buy refuses every entry. -/
theorem pendingFunding_fill (hids : (rows.map fun row => row.intent.tradeIntentId).Nodup)
    (e : SettlementEvent) (h : pendingBuyFunding rows settlements limits = .ok p)
    (h' : pendingBuyFunding rows (settlements ++ [e]) limits = .ok p') :
    Committed limits rows settlements p ∧ Committed limits rows (settlements ++ [e]) p' ∧
      (p'.total = p.total ∨
        ∃ row ∈ pendingRows rows, row.intent.tradeIntentId = e.tradeIntentId ∧
          ∃ recorded frozen unit, Priced limits row recorded frozen unit ∧ p'.total ≤ p.total ∧
            p.total - p'.total ≤ max (frozen / recorded) unit * e.quantity) ∧
      (∀ row, e.tradeIntentId ≠ row.intent.tradeIntentId →
        share limits (settlements ++ [e]) row = share limits settlements row) ∧
      (p.unpriced ≠ [] → ∀ account assetClass,
        ∃ reasons, authorizeFunding account assetClass (.ok p) = .error reasons) :=
  ⟨pendingBuyFunding_committed h, pendingBuyFunding_committed h', total_fill hids h h',
    fun _ hother => share_fill_other hother,
    fun hunpriced account assetClass => authorizeFunding_unpriced account assetClass hunpriced⟩

end Fill

/-- A buy of five at 100 that is accepted, with its frozen record. -/
def acceptedRow : StoredIntent where
  intent := {
    tradeIntentId := "buy"
    idempotencyKey := "key"
    correlationId := "correlation"
    asset := sampleAsset
    side := .buy
    executionMode := .paper
    strategy := "momentum"
    createdAt := 0
    requestedQuantity := some 5
    referencePrice := some 100
    status := .accepted }
  dbae := .block (frozenRecord 5 505 100 1 1 0)

/-- A fill of two of them. -/
def partialFill : SettlementEvent :=
  ⟨{ settlementEventId := "event"
     fillId := "fill"
     tradeIntentId := "buy"
     asset := sampleAsset
     side := .buy
     executionMode := .paper
     quantity := 2
     price := 100
     occurredAt := 0 }, by decide +kernel⟩

/-- A fill of two of five lowers the total from 505 to 303. -/
theorem pendingFunding_fill_sample :
    Committed sampleLimits [acceptedRow] [] { total := 505 } ∧
      Committed sampleLimits [acceptedRow] ([] ++ [partialFill]) { total := 303 } ∧
      ((303 : ℚ) = 505 ∨
        ∃ row ∈ pendingRows [acceptedRow], row.intent.tradeIntentId = "buy" ∧
          ∃ recorded frozen unit, Priced sampleLimits row recorded frozen unit ∧
            (303 : ℚ) ≤ 505 ∧ (505 : ℚ) - 303 ≤ max (frozen / recorded) unit * 2) ∧
      (∀ row : StoredIntent, "buy" ≠ row.intent.tradeIntentId →
        share sampleLimits ([] ++ [partialFill]) row = share sampleLimits [] row) ∧
      (([] : List String) ≠ [] → ∀ account assetClass,
        ∃ reasons, authorizeFunding account assetClass (.ok { total := 505 }) = .error reasons) :=
  have hbefore : pendingBuyFunding [acceptedRow] [] sampleLimits = .ok { total := 505 } := by
    decide +kernel
  have hafter : pendingBuyFunding [acceptedRow] ([] ++ [partialFill]) sampleLimits =
      .ok { total := 303 } := by decide +kernel
  pendingFunding_fill (by decide) partialFill hbefore hafter

end TradePulse.Execution
