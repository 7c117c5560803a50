/-
**Funding reservations** (`dbae/funding.py`): what pending buys have committed, and what is left for
a new one.

A buy is funded for its notional with a slippage allowance and a fee.  From its approval until a
fill is attributed to it, the commitment is computed again on every call: from the record frozen
with the approval, and from the current profile when that asks for more.  A record that cannot be
read back, or that does not prove the commitment it states, leaves the buy unpriced.

A figure of a stored record is kept by what reading its text makes of it; a decimal that was written
reads back as itself (`Encoding.Decimal.parse_toSciString`).

Main definitions:

* `fundingFor`, `maxFunding`, `fundableNotional` — the formula and its inverse;
* `StoredFigure`, `DbaeBlock`, `frozenDecimal`, `frozenMaxFunding` — the frozen record;
* `pendingIntentRemainders`, `remainderFunding`, `pendingBuyFunding` — what is committed;
* `fundingAvailable` — what is left.

Main results:

* `fundingFor_le_of_le_fundable` — a notional within what is fundable is funded by what is
  available;
* `frozenMaxFunding_some` — what an accepted record proves.
-/

import Mathlib.Algebra.BigOperators.Group.List.Basic
import Mathlib.Tactic.Positivity
import Mathlib.Tactic.Ring
import TradePulse.Dbae.Policy
import TradePulse.Models.Settlement
import TradePulse.Risk.Evaluation

set_option autoImplicit false

namespace TradePulse.Dbae

open Risk (feePctPerSide)

/-! ### The formula -/

/-- The buy-side fee rate, in per cent. -/
def buyFeePct (assetClass : AssetClass) : ℚ := feePctPerSide assetClass

/-- The order notional with its slippage allowance, and the fee on the order notional. -/
def fundingFor (quantity referencePrice contractMultiplier slippagePct feePct : ℚ) : ℚ :=
  let notional := quantity * referencePrice * contractMultiplier
  notional * (1 + slippagePct / 100) + notional * feePct / 100

def maxFunding (submittedQty referencePrice : ℚ) (asset : AssetIdentity) (slippagePct : ℚ) :
    Except Raised ℚ := do
  let multiplier ← contractMultiplierOf asset
  .ok (fundingFor submittedQty referencePrice multiplier slippagePct (buyFeePct asset.assetClass))

/-- The order notional whose funding is what is available. -/
def fundableNotional (available : ℚ) (assetClass : AssetClass) (slippagePct : ℚ) : ℚ :=
  let rate := 1 + slippagePct / 100 + buyFeePct assetClass / 100
  available / rate

theorem buyFeePct_nonneg (assetClass : AssetClass) : 0 ≤ buyFeePct assetClass := by
  cases assetClass <;> simp [buyFeePct, feePctPerSide]

theorem fundingFor_eq (quantity price multiplier slippagePct feePct : ℚ) :
    fundingFor quantity price multiplier slippagePct feePct =
      quantity * fundingFor 1 price multiplier slippagePct feePct := by
  simp only [fundingFor]
  ring

/-- The funding of an order is its notional times the rate that `fundableNotional` divides by. -/
theorem fundingFor_eq_mul_rate (quantity price multiplier slippagePct feePct : ℚ) :
    fundingFor quantity price multiplier slippagePct feePct =
      quantity * (price * multiplier) * (1 + slippagePct / 100 + feePct / 100) := by
  simp only [fundingFor]
  ring

theorem rate_pos {slippagePct feePct : ℚ} (hslippage : 0 ≤ slippagePct) (hfee : 0 ≤ feePct) :
    0 < 1 + slippagePct / 100 + feePct / 100 := by
  positivity

theorem fundingFor_pos {quantity price multiplier slippagePct feePct : ℚ} (hq : 0 < quantity)
    (hp : 0 < price) (hm : 0 < multiplier) (hs : 0 ≤ slippagePct) (hf : 0 ≤ feePct) :
    0 < fundingFor quantity price multiplier slippagePct feePct := by
  rw [fundingFor_eq_mul_rate]
  have hrate := rate_pos hs hf
  positivity

/-- A notional within what is fundable is funded by what is available. -/
theorem fundingFor_le_of_le_fundable {available slippagePct : ℚ} {assetClass : AssetClass}
    (hslippage : 0 ≤ slippagePct) {quantity price multiplier : ℚ}
    (h : quantity * (price * multiplier) ≤ fundableNotional available assetClass slippagePct) :
    fundingFor quantity price multiplier slippagePct (buyFeePct assetClass) ≤ available := by
  rw [fundingFor_eq_mul_rate]
  exact (le_div_iff₀ (rate_pos hslippage (buyFeePct_nonneg assetClass))).1 h

/-! ### The frozen record -/

/-- A figure of a stored record, by what reading its text as a decimal makes of it. -/
inductive StoredFigure
  | missing
  | boolean
  | unreadable
  | notFinite
  | decimal (value : ℚ)
  deriving DecidableEq

/-- `_frozen_decimal`: a finite decimal above zero, or at zero where that is allowed. -/
def frozenDecimal (raw : StoredFigure) (allowZero : Bool) : Option ℚ :=
  match raw with
  | .decimal value => if value < 0 ∨ (value = 0 ∧ !allowZero) then none else some value
  | _ => none

/-- The figures of `risk_snapshot.dbae` that funding reads. -/
structure DbaeBlock where
  submittedQuantity : StoredFigure := .missing
  maxFunding : StoredFigure := .missing
  referencePrice : StoredFigure := .missing
  contractMultiplier : StoredFigure := .missing
  slippagePct : StoredFigure := .missing
  feePct : StoredFigure := .missing
  deriving DecidableEq

/-- What the risk snapshot of an intent holds under `dbae`. -/
inductive DbaeEntry
  | absent
  | notMapping
  | block (record : DbaeBlock)
  deriving DecidableEq

/-- `_dbae_block` -/
def DbaeEntry.block? : DbaeEntry → Option DbaeBlock
  | block record => some record
  | _ => none

/-- `_frozen_max_funding`: the commitment that the record states, when the record proves it. -/
def frozenMaxFunding (record : DbaeBlock) (submittedQty : ℚ) (intent : TradeIntent) :
    Except Raised (Option ℚ) :=
  match frozenDecimal record.maxFunding false, frozenDecimal record.referencePrice false,
      frozenDecimal record.contractMultiplier false, frozenDecimal record.slippagePct true,
      frozenDecimal record.feePct true with
  | some frozen, some price, some multiplier, some slippage, some fee =>
      if some price ≠ intent.referencePrice then .ok none
      else do
        let current ← contractMultiplierOf intent.asset
        if multiplier ≠ current then .ok none
        else if fundingFor submittedQty price multiplier slippage fee ≠ frozen then .ok none
        else .ok (some frozen)
  | _, _, _, _, _ => .ok none

@[simp] theorem frozenDecimal_eq_some_iff {raw : StoredFigure} {allowZero : Bool} {value : ℚ} :
    frozenDecimal raw allowZero = some value ↔
      raw = .decimal value ∧ 0 ≤ value ∧ (value = 0 → allowZero = true) := by
  unfold frozenDecimal
  split
  · rename_i x
    split
    · rename_i hrefused
      simp only [reduceCtorEq, StoredFigure.decimal.injEq, false_iff, not_and]
      rintro rfl hnonneg hzero
      rcases hrefused with h | ⟨h, hallow⟩
      · exact h.not_ge hnonneg
      · simp [hzero h] at hallow
    · rename_i hkept
      push Not at hkept
      simp only [Option.some.injEq, StoredFigure.decimal.injEq]
      constructor
      · rintro rfl
        exact ⟨rfl, hkept.1, by simpa using hkept.2⟩
      · exact fun h => h.1
  · rename_i hother
    simp only [reduceCtorEq, false_iff, not_and]
    rintro rfl
    exact absurd rfl (hother value)

/-- The inputs of an accepted record, and what they prove. -/
structure ProvenRecord (record : DbaeBlock) (submittedQty : ℚ) (intent : TradeIntent)
    (frozen : ℚ) : Prop where
  pos : 0 < frozen
  inputs : ∃ price multiplier slippage fee, record.maxFunding = .decimal frozen ∧
    record.referencePrice = .decimal price ∧ record.contractMultiplier = .decimal multiplier ∧
    record.slippagePct = .decimal slippage ∧ record.feePct = .decimal fee ∧
    0 < price ∧ 0 < multiplier ∧ 0 ≤ slippage ∧ 0 ≤ fee ∧
    intent.referencePrice = some price ∧ contractMultiplierOf intent.asset = .ok multiplier ∧
    fundingFor submittedQty price multiplier slippage fee = frozen

/-- **What an accepted record proves**, and that it is accepted when it proves that. -/
theorem frozenMaxFunding_some {record : DbaeBlock} {submittedQty : ℚ} {intent : TradeIntent}
    {frozen : ℚ} :
    frozenMaxFunding record submittedQty intent = .ok (some frozen) ↔
      ProvenRecord record submittedQty intent frozen := by
  unfold frozenMaxFunding
  constructor
  · intro h
    split at h
    · rename_i frozen' price multiplier slippage fee hfrozen hprice hmultiplier hslippage hfee
      simp only [frozenDecimal_eq_some_iff, Bool.false_eq_true, imp_false, implies_true,
        and_true] at hfrozen hprice hmultiplier hslippage hfee
      split at h
      · cases h
      · rename_i hreference
        obtain ⟨current, hcurrent, h⟩ := except_bind_eq_ok.1 h
        split at h
        · cases h
        · rename_i hsame
          split at h
          · cases h
          · rename_i hproved
            cases h
            refine ⟨hfrozen.2.1.lt_of_ne' hfrozen.2.2, price, multiplier, slippage, fee, hfrozen.1,
              hprice.1, hmultiplier.1, hslippage.1, hfee.1, hprice.2.1.lt_of_ne' hprice.2.2,
              hmultiplier.2.1.lt_of_ne' hmultiplier.2.2, hslippage.2, hfee.2,
              (not_ne_iff.1 hreference).symm, ?_, not_ne_iff.1 hproved⟩
            rw [not_ne_iff.1 hsame, hcurrent]
    · cases h
  · rintro ⟨hpos, price, multiplier, slippage, fee, h₁, h₂, h₃, h₄, h₅, hprice, hmultiplier,
      hslippage, hfee, hreference, hcurrent, hproved⟩
    have hread : ∀ {x : ℚ}, 0 < x → frozenDecimal (.decimal x) false = some x := fun hx =>
      frozenDecimal_eq_some_iff.2 ⟨rfl, hx.le, fun h => absurd h hx.ne'⟩
    have hreadZero : ∀ {x : ℚ}, 0 ≤ x → frozenDecimal (.decimal x) true = some x := fun hx =>
      frozenDecimal_eq_some_iff.2 ⟨rfl, hx, fun _ => rfl⟩
    rw [h₁, h₂, h₃, h₄, h₅, hread hpos, hread hprice, hread hmultiplier, hreadZero hslippage,
      hreadZero hfee]
    simp only [hreference, ne_eq, not_true_eq_false, if_false, hcurrent, hproved]
    simp [bind, Except.bind]

/-! ### Pending intents -/

/-- A stored intent, with what its risk snapshot holds under `dbae`. -/
structure StoredIntent where
  intent : TradeIntent
  dbae : DbaeEntry := .absent
  deriving DecidableEq

/-- The statuses of an intent whose notional is still pending. -/
def pendingNotionalStatuses : List TradeIntentStatus :=
  [.riskApproved, .submitted, .accepted, .partiallyFilled, .submissionUnknown]

/-- The intents that are pending. -/
def pendingRows (rows : List StoredIntent) : List StoredIntent :=
  rows.filter fun row => pendingNotionalStatuses.contains row.intent.status

structure PendingIntentRemainder where
  row : StoredIntent
  requestedQty : ℚ
  remainingQty : ℚ

/-- The events attributed to an intent. -/
def eventsOf (settlements : List SettlementEvent) (tradeIntentId : String) : List SettlementEvent :=
  settlements.filter fun e => e.tradeIntentId == tradeIntentId

/-- The quantity attributed to an intent. -/
def attributedQty (settlements : List SettlementEvent) (tradeIntentId : String) : ℚ :=
  ((eventsOf settlements tradeIntentId).map fun e => e.quantity).sum

/-- The remainder of one pending intent. -/
def remainderOf (settlements : List SettlementEvent) (row : StoredIntent) :
    Except Raised PendingIntentRemainder :=
  match row.intent.requestedQuantity with
  | none => .error (.valueError
      ("PENDING_INTENT_QUANTITY_MISSING: " ++ row.intent.tradeIntentId))
  | some requested =>
      .ok ⟨row, requested, requested - attributedQty settlements row.intent.tradeIntentId⟩

def pendingIntentRemainders (rows : List StoredIntent) (settlements : List SettlementEvent) :
    Except Raised (List PendingIntentRemainder) :=
  (pendingRows rows).mapM (remainderOf settlements)

/-! ### What pending buys have committed -/

structure PendingFunding where
  total : ℚ := 0
  mismatches : List String := []
  unpriced : List String := []
  deriving DecidableEq

def PendingFunding.add (a b : PendingFunding) : PendingFunding :=
  ⟨a.total + b.total, a.mismatches ++ b.mismatches, a.unpriced ++ b.unpriced⟩

/-- The submitted quantity that the record states. -/
def recordedQty (row : StoredIntent) : Option ℚ :=
  row.dbae.block?.bind fun record => frozenDecimal record.submittedQuantity false

/-- The quantity that is reserved: the recorded one when it is larger than the requested. -/
def reservedQty (row : StoredIntent) (requested : ℚ) : ℚ :=
  match recordedQty row with
  | some recorded => if recorded ≠ requested then max requested recorded else requested
  | none => requested

/-- The report of a buy whose two quantities differ. -/
def mismatchOf (row : StoredIntent) (requested : ℚ) : PendingFunding :=
  if (recordedQty row).any fun q => decide (q ≠ requested) then
    { mismatches := [row.intent.tradeIntentId] }
  else {}

/-- The report of a buy that cannot be priced. -/
def unpricedOf (row : StoredIntent) : PendingFunding := { unpriced := [row.intent.tradeIntentId] }

/-- The frozen commitment of a stored buy. -/
def frozenOf (row : StoredIntent) : Except Raised (Option ℚ) :=
  match row.dbae.block?, recordedQty row with
  | some record, some recorded => frozenMaxFunding record recorded row.intent
  | _, _ => .ok none

/-- What one remainder adds to the total and to the two lists. -/
def remainderFunding (limits : EntryLimits) (r : PendingIntentRemainder) :
    Except Raised PendingFunding :=
  let intent := r.row.intent
  if intent.side ≠ .buy then .ok {}
  else if recordedQty r.row = none ∧ r.row.dbae ≠ .absent then .ok (unpricedOf r.row)
  else
    let attributed := r.requestedQty - r.remainingQty
    let mismatch := mismatchOf r.row r.requestedQty
    let unattributed := reservedQty r.row r.requestedQty - attributed
    if unattributed ≤ 0 then .ok mismatch
    else do
      let frozen ← frozenOf r.row
      match frozen, recordedQty r.row, intent.referencePrice with
      | some frozen, some recorded, some price => do
          let current ← maxFunding unattributed price intent.asset
            (limits.slippageLimitFor intent.asset.assetClass)
          .ok { mismatch with total := max (frozen * unattributed / recorded) current }
      | _, _, _ => .ok (mismatch.add (unpricedOf r.row))

/-- `pending_buy_funding` -/
def pendingBuyFunding (rows : List StoredIntent) (settlements : List SettlementEvent)
    (limits : EntryLimits) : Except Raised PendingFunding := do
  let remainders ← pendingIntentRemainders rows settlements
  remainders.foldlM (fun acc r => do .ok (acc.add (← remainderFunding limits r))) {}

/-- The buying power that a class is funded from. -/
def buyingPowerFor (account : AccountEvidence) (assetClass : AssetClass) : Option ℚ :=
  if assetClass = .crypto then account.nonMarginableBuyingPower else account.buyingPower

/-- What is left of cash and buying power; `none` when any input is missing or negative. -/
def fundingAvailable (account : AccountEvidence) (assetClass : AssetClass) (pending : ℚ) :
    Option ℚ :=
  match account.cash, buyingPowerFor account assetClass with
  | some cash, some power =>
      if cash < 0 ∨ power < 0 ∨ pending < 0 then none
      else some (min (cash - pending) (power - pending))
  | _, _ => none

end TradePulse.Dbae
