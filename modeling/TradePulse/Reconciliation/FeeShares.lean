/-
**Splitting fees and dividends.**

Four functions split an amount of money over targets in proportion to weights.  A fee in cash is
split over the closures of its order (`reconciliation/cash_fees.py`), and where the order opened
quarantined records over these as well (`quarantine/fees.py`); both round toward zero and leave the
remainder to the last target.  A fee of an order with adopted lots (`adoption/accounting.py`) and a
dividend (`reconciliation/dividend_attribution.py`) are split by the largest remainder.

All of them are instances of the two splits of the library, which are exact.

Main definitions:

* `allocateCashFees` — the fees in cash of a proof;
* `Quarantine.allocateFee` — a signed fee, over attributions and quarantined records;
* `Adopting.split` — a fee over the fills of an order.

Main results:

* `allocationLoop_ok` — the loop over the closures of an order never refuses a part;
* `exact_allocateFee`, `exact_dividendSplit`, `exact_adoptedSplit` — what each one hands out;
* `money_splits_exact` — **no amount is lost or made up by a split**.
-/

import Mathlib.Data.List.ReduceOption
import TradePulse.Encoding.Decimal
import TradePulse.Quarantine.Records
import TradePulse.Reconciliation.DividendAttribution
import TradePulse.Reconciliation.FeePopulation
import TradePulse.Sizing.Splitting

set_option autoImplicit false

namespace TradePulse

open HistoricalFees Storage Sizing

/-! ### Fees in cash -/

namespace CashFees

/-- `Decimal(raw['net_amount'])`: NaN and the infinities are decimals too. -/
inductive NetAmount
  | finite (amount : Encoding.Decimal)
  | nonFinite
  | unreadable
  deriving DecidableEq

/-- What is read of the receipt of a fee. -/
structure CashReceipt where
  id : String
  netAmount : NetAmount
  deriving DecidableEq

/-- What is read of a proof. -/
structure CashFeeProof where
  activities : List CashReceipt
  cashFeePopulations : OrderedDict String CashFeePopulation

/-- A fee, its order, and what each closure bears of it. -/
structure CashFeePlan where
  raw : CashReceipt
  order : CashFeePopulation
  allocations : OrderedDict String ℚ

/-- What the sale brought. -/
def proceeds (a : TradeAttribution) : ℚ := a.quantity * a.exitPrice

/-- The loop over the closures of an order. -/
def allocationLoop (expense total quantum : ℚ) :
    ℚ → List TradeAttribution → Except Raised (List (String × ℚ))
  | _, [] => .ok []
  | remaining, attribution :: rest => do
      let amount := if rest.isEmpty then remaining
        else downTo quantum (expense * proceeds attribution / total)
      raiseIf (amount < 0 ∨ remaining < amount) (assetFeeIntegrity "CASH_FEE_ALLOCATION_INVALID")
      let others ← allocationLoop expense total quantum (remaining - amount) rest
      return (attribution.attributionId, amount) :: others

/-- The closures of an order. -/
def closuresOf (order : CashFeePopulation) (attributions : List TradeAttribution) :
    List TradeAttribution :=
  (attributions.filter fun a => a.closingTradeIntentId ∈ order.tradeIntentIds).insertionSort
    fun a b => a.attributionId ≤ b.attributionId

/-- The plan of one fee; none where it belongs to another instrument's replay. -/
def allocateCashFee (activities : List CashReceipt) (attributions : List TradeAttribution)
    (feeId : String) (order : CashFeePopulation) : Except Raised (Option CashFeePlan) := do
  raiseIf (order.method ≠ "authoritative_order_link" ∧ order.method ≠ "authoritative_fill_link")
    (assetFeeIntegrity "CASH_FEE_AUTHORITATIVE_LINK_REQUIRED")
  let selected := closuresOf order attributions
  if selected = [] then return none
  else
    match lastWith (fun row : CashReceipt => row.id = feeId) activities with
    | none => .error ⟨.other, feeId⟩
    | some raw =>
        match raw.netAmount with
        | .unreadable => .error ⟨.other, "decimal.InvalidOperation"⟩
        | .nonFinite => .error (assetFeeIntegrity "CASH_FEE_ALLOCATION_INVALID")
        | .finite netAmount => do
            let expense := -netAmount.toRat
            let total := (selected.map proceeds).sum
            raiseIf (expense ≤ 0 ∨ total ≤ 0) (assetFeeIntegrity "CASH_FEE_ALLOCATION_INVALID")
            let quantum := 10 ^ netAmount.exponent
            let allocations ← allocationLoop expense total quantum expense selected
            return some { raw, order, allocations := OrderedDict.ofList allocations }

/-- `allocate_cash_fees`. -/
def allocateCashFees (proof : CashFeeProof) (attributions : List TradeAttribution) :
    Except Raised (List CashFeePlan) := do
  let plans ← proof.cashFeePopulations.entries.mapM fun e =>
    allocateCashFee proof.activities attributions e.1 e.2
  return plans.reduceOption

end CashFees

/-! ### Fees of quarantined records -/

namespace Quarantine

/-- The amount of a decimal. -/
def Amount.ofDecimal (d : Encoding.Decimal) : Amount := ⟨d.toRat, d.exponent⟩

/-- A share as it is built: both names must be there. -/
def QuarantineFeeAllocation.make (share : QuarantineFeeAllocation) :
    Except Raised QuarantineFeeAllocation := do
  raiseIf (share.feeCanonicalId = "") (.valueError "fee_canonical_id is required")
  raiseIf (share.recordId = "") (.valueError "record_id is required")
  return share

/-- A target of a fee. -/
structure FeeTarget where
  recordId : String
  proceeds : ℚ
  pool : FeePool
  deriving DecidableEq

/-- The loop over the targets. -/
def feeShares (feeCanonicalId : String) (signedAmount : Amount) (total : ℚ) :
    Amount → List FeeTarget → Except Raised (List QuarantineFeeAllocation)
  | _, [] => .ok []
  | remaining, target :: rest => do
      let amount := if rest.isEmpty then remaining
        else .quantizeDown (signedAmount.value * target.proceeds / total)
          signedAmount.quantumExponent
      let share ← QuarantineFeeAllocation.make
        ⟨feeCanonicalId, target.recordId, target.pool, amount⟩
      let others ← feeShares feeCanonicalId signedAmount total (remaining.sub amount) rest
      return share :: others

/-- Attributions first, then the quarantined records. -/
def feeTargets (targets : List (String × ℚ)) (quarantined : List FeeTarget) : List FeeTarget :=
  (targets.map fun t => ⟨t.1, t.2, .opening⟩) ++ quarantined

/-- `allocate_fee`. -/
def allocateFee (feeCanonicalId : String) (signedAmount : Encoding.Decimal)
    (targets : List (String × ℚ)) (quarantined : List FeeTarget) :
    Except Raised (List QuarantineFeeAllocation) := do
  let ordered := feeTargets targets quarantined
  let total := (ordered.map FeeTarget.proceeds).sum
  raiseIf (ordered = [] ∨ total ≤ 0 ∨ ∃ t ∈ ordered, t.proceeds < 0)
    (.valueError "QUARANTINE_FEE_ALLOCATION_INVALID")
  feeShares feeCanonicalId (.ofDecimal signedAmount) total (.ofDecimal signedAmount) ordered

end Quarantine

/-! ### Fees of adopted lots -/

namespace Adopting

/-- The amount's own smallest unit, a cent at most. -/
def splitUnit (amount : Encoding.Decimal) : ℚ := min (1 / 100) (10 ^ amount.exponent)

/-- `_split`: largest remainder in the amount's own smallest unit, ties broken by fill.  The quotients
are exact here; the rounding of a `Decimal` can decide among equals before the name does: 0.30 over
the weights 4, 4 and 1 is 0.13, 0.13 and 0.04 there, and 0.14, 0.13 and 0.03 here. -/
def split (amount : Encoding.Decimal) (weights : OrderedDict String ℚ) :
    Except Raised (List (String × ℚ)) := do
  let unit := splitUnit amount
  let total := weights.values.sum
  raiseIf (total = 0 ∧ weights.entries ≠ []) ⟨.other, "decimal.DivisionByZero"⟩
  let units := Dividends.truncated (|amount.toRat| / unit)
  let exact := weights.entries.map fun e => (e.1, units * e.2 / total)
  let left := units - (exact.map fun e => Dividends.truncated e.2).sum
  let raisedOnes :=
    (Dividends.sliceTo (exact.insertionSort Dividends.LargerRemainder) left).map Prod.fst
  let sign : ℚ := if amount.toRat < 0 then -1 else 1
  return exact.map fun e =>
    (e.1, sign * (Dividends.truncated e.2 + if e.1 ∈ raisedOnes then 1 else 0) * unit)

end Adopting

/-! ### Decimals are whole units of their last digit -/

theorem wholeUnits_toRat (d : Encoding.Decimal) : WholeUnits (10 ^ d.exponent) d.toRat := by
  have hten : (10 : ℚ) ≠ 0 := by norm_num
  have hexponent : (10 : ℚ) ^ d.exponent = 10 ^ d.exponent.toNat / 10 ^ (-d.exponent).toNat := by
    rw [← zpow_natCast, ← zpow_natCast, ← zpow_sub₀ hten]
    congr 1
    omega
  refine ⟨(if d.negative then -1 else 1) * d.coefficient, ?_⟩
  rw [hexponent, Encoding.Decimal.toRat, Rat.mkRat_eq_div]
  push_cast
  ring

/-- A whole number of units is one of each smaller decimal unit. -/
theorem wholeUnits_mono {x : ℚ} {exponent exponent' : ℤ} (hle : exponent' ≤ exponent)
    (h : WholeUnits (10 ^ exponent) x) : WholeUnits (10 ^ exponent') x := by
  obtain ⟨n, rfl⟩ := h
  obtain ⟨k, rfl⟩ := Int.le.dest hle
  refine ⟨n * 10 ^ k, ?_⟩
  rw [zpow_add₀ (by norm_num), zpow_natCast]
  push_cast
  ring

/-! ### The remainder to the last -/

namespace CashFees

variable {expense total quantum remaining : ℚ} {selected : List TradeAttribution}

/-- What the loop hands out, where it refuses nothing. -/
theorem values_of_allocationLoop {allocations : List (String × ℚ)}
    (h : allocationLoop expense total quantum remaining selected = .ok allocations) :
    allocations.map Prod.fst = selected.map TradeAttribution.attributionId ∧
      allocations.map Prod.snd =
        remainderToLast quantum expense total remaining (selected.map proceeds) := by
  induction selected generalizing remaining allocations with
  | nil =>
      obtain rfl := Except.ok.inj h
      exact ⟨rfl, rfl⟩
  | cons attribution rest ih =>
      obtain ⟨_, -, h⟩ := except_bind_eq_ok.1 h
      obtain ⟨others, hothers, h⟩ := except_bind_eq_ok.1 h
      obtain rfl := Except.ok.inj h
      obtain ⟨hids, hvalues⟩ := ih hothers
      have hempty : (rest.map proceeds).isEmpty = rest.isEmpty := by cases rest <;> rfl
      refine ⟨by simp [hids], ?_⟩
      simp only [List.map_cons, remainderToLast, hempty, hvalues]

/-- **The loop never refuses a part.** -/
theorem allocationLoop_ok (hquantum : 0 < quantum) (hexpense : 0 ≤ expense) (htotal : 0 < total)
    (hselected : ∀ a ∈ selected, 0 ≤ proceeds a)
    (h : expense * (selected.map proceeds).sum / total ≤ remaining) :
    ∃ allocations, allocationLoop expense total quantum remaining selected = .ok allocations := by
  induction selected generalizing remaining with
  | nil => exact ⟨[], rfl⟩
  | cons attribution rest ih =>
      have hweights : ∀ w ∈ (attribution :: rest).map proceeds, 0 ≤ w := by
        intro w hw
        obtain ⟨a, ha, rfl⟩ := List.mem_map.1 hw
        exact hselected a ha
      have hempty : (rest.map proceeds).isEmpty = rest.isEmpty := by cases rest <;> rfl
      obtain ⟨hnonneg, hle⟩ := le_remaining hquantum hexpense htotal hweights h
      rw [hempty] at hnonneg hle
      have hrest : ∃ others, allocationLoop expense total quantum
          (remaining - if rest.isEmpty then remaining
            else downTo quantum (expense * proceeds attribution / total)) rest = .ok others := by
        refine ih (fun a ha => hselected a (List.mem_cons_of_mem _ ha)) ?_
        cases rest with
        | nil => simp
        | cons next rest =>
            rw [List.map_cons, List.sum_cons] at h
            exact remaining_sub hquantum hexpense htotal (hselected _ List.mem_cons_self) h
      obtain ⟨others, hothers⟩ := hrest
      refine ⟨_, except_bind_eq_ok.2 ⟨(), raiseIf_eq_ok_iff.2 ?_,
        except_bind_eq_ok.2 ⟨others, hothers, rfl⟩⟩⟩
      push Not
      exact ⟨hnonneg, hle⟩

theorem allocateCashFee_some {activities : List CashReceipt} {attributions : List TradeAttribution}
    {feeId : String} {order : CashFeePopulation} {plan : CashFeePlan}
    (hids : (attributions.map TradeAttribution.attributionId).Nodup)
    (h : allocateCashFee activities attributions feeId order = .ok (some plan)) :
    ∃ netAmount, plan.raw.netAmount = .finite netAmount ∧ 0 < -netAmount.toRat ∧
      0 < ((closuresOf order attributions).map proceeds).sum ∧
      plan.allocations.values = remainderToLast (10 ^ netAmount.exponent) (-netAmount.toRat)
        ((closuresOf order attributions).map proceeds).sum (-netAmount.toRat)
        ((closuresOf order attributions).map proceeds) := by
  obtain ⟨_, -, h⟩ := except_bind_eq_ok.1 h
  dsimp only at h
  split at h
  · cases h
  split at h
  · cases h
  rename_i raw hraw
  split at h
  · cases h
  · cases h
  · rename_i netAmount hnet
    obtain ⟨_, hpositive, h⟩ := except_bind_eq_ok.1 h
    have hpositive := raiseIf_eq_ok_iff.1 hpositive
    push Not at hpositive
    obtain ⟨allocations, hloop, h⟩ := except_bind_eq_ok.1 h
    obtain rfl := Option.some.inj (Except.ok.inj h)
    obtain ⟨hkeys, hvalues⟩ := values_of_allocationLoop hloop
    have hnodup : (allocations.map Prod.fst).Nodup := by
      have hperm : (closuresOf order attributions).Perm _ := List.perm_insertionSort _ _
      rw [hkeys, (hperm.map _).nodup_iff]
      exact (List.filter_sublist.map _).nodup hids
    refine ⟨netAmount, hnet, hpositive.1, hpositive.2, ?_⟩
    rw [OrderedDict.values, OrderedDict.entries_ofList hnodup, hvalues]

/-- **The plan of a fee in cash is exact.** -/
theorem exact_allocateCashFee {activities : List CashReceipt}
    {attributions : List TradeAttribution} {feeId : String} {order : CashFeePopulation}
    {plan : CashFeePlan} (hids : (attributions.map TradeAttribution.attributionId).Nodup)
    (hproceeds : ∀ a ∈ attributions, 0 ≤ proceeds a)
    (h : allocateCashFee activities attributions feeId order = .ok (some plan)) :
    ∃ netAmount, plan.raw.netAmount = .finite netAmount ∧ 0 < -netAmount.toRat ∧
      Exact (10 ^ netAmount.exponent) (-netAmount.toRat) plan.allocations.values := by
  obtain ⟨netAmount, hnet, hpositive, htotal, hvalues⟩ := allocateCashFee_some hids h
  refine ⟨netAmount, hnet, hpositive, ?_⟩
  rw [hvalues]
  refine exact_remainderToLast (zpow_pos (by norm_num) _) (wholeUnits_toRat netAmount).neg
    (fun hnil => ?_) (fun w hw => ?_) htotal
  · rw [hnil] at htotal
    exact htotal.false
  · obtain ⟨a, ha, rfl⟩ := List.mem_map.1 hw
    have hperm : (closuresOf order attributions).Perm _ := List.perm_insertionSort _ _
    exact hproceeds a (List.mem_of_mem_filter (hperm.mem_iff.1 ha))

end CashFees

namespace Quarantine

variable {feeCanonicalId : String} {signedAmount remaining : Amount} {total : ℚ}
  {ordered : List FeeTarget} {shares : List QuarantineFeeAllocation}

theorem make_ok {share built : QuarantineFeeAllocation}
    (h : QuarantineFeeAllocation.make share = .ok built) : built = share := by
  obtain ⟨_, -, h⟩ := except_bind_eq_ok.1 h
  obtain ⟨_, -, h⟩ := except_bind_eq_ok.1 h
  exact (Except.ok.inj h).symm

theorem values_of_feeShares
    (h : feeShares feeCanonicalId signedAmount total remaining ordered = .ok shares) :
    shares.map (fun s => s.amount.value) =
      remainderToLast (10 ^ signedAmount.quantumExponent) signedAmount.value total remaining.value
        (ordered.map FeeTarget.proceeds) := by
  induction ordered generalizing remaining shares with
  | nil =>
      obtain rfl := Except.ok.inj h
      rfl
  | cons target rest ih =>
      obtain ⟨share, hshare, h⟩ := except_bind_eq_ok.1 h
      obtain ⟨others, hothers, h⟩ := except_bind_eq_ok.1 h
      obtain rfl := Except.ok.inj h
      obtain rfl := make_ok hshare
      have hamount : (if rest.isEmpty then remaining else Amount.quantizeDown
          (signedAmount.value * target.proceeds / total) signedAmount.quantumExponent).value =
          if (rest.map FeeTarget.proceeds).isEmpty then remaining.value
          else downTo (10 ^ signedAmount.quantumExponent)
            (signedAmount.value * target.proceeds / total) := by
        cases rest with
        | nil => rfl
        | cons next rest => rfl
      rw [List.map_cons, List.map_cons, ih hothers, Amount.sub, remainderToLast]
      dsimp only
      rw [hamount]

theorem feeShares_ok (signedAmount remaining : Amount) (total : ℚ) (hfee : feeCanonicalId ≠ "")
    (hids : ∀ t ∈ ordered, t.recordId ≠ "") :
    ∃ shares, feeShares feeCanonicalId signedAmount total remaining ordered = .ok shares := by
  induction ordered generalizing remaining with
  | nil => exact ⟨[], rfl⟩
  | cons target rest ih =>
      have hmake : ∀ amount, QuarantineFeeAllocation.make
          ⟨feeCanonicalId, target.recordId, target.pool, amount⟩ =
            .ok ⟨feeCanonicalId, target.recordId, target.pool, amount⟩ := fun amount =>
        except_bind_eq_ok.2 ⟨(), raiseIf_eq_ok_iff.2 hfee,
          except_bind_eq_ok.2 ⟨(), raiseIf_eq_ok_iff.2 (hids target List.mem_cons_self), rfl⟩⟩
      have hrest : ∃ others, feeShares feeCanonicalId signedAmount total
          (remaining.sub (if rest.isEmpty then remaining
            else .quantizeDown (signedAmount.value * target.proceeds / total)
              signedAmount.quantumExponent)) rest = .ok others :=
        ih _ fun t ht => hids t (List.mem_cons_of_mem _ ht)
      obtain ⟨others, hothers⟩ := hrest
      exact ⟨_, except_bind_eq_ok.2 ⟨_, hmake _, except_bind_eq_ok.2 ⟨others, hothers, rfl⟩⟩⟩

/-- **A signed fee is split exactly.** -/
theorem exact_allocateFee {amount : Encoding.Decimal} {targets : List (String × ℚ)}
    {quarantined : List FeeTarget}
    (h : allocateFee feeCanonicalId amount targets quarantined = .ok shares) :
    Exact (10 ^ min amount.exponent (-2)) amount.toRat (shares.map fun s => s.amount.value) := by
  obtain ⟨_, hvalid, h⟩ := except_bind_eq_ok.1 h
  have hvalid := raiseIf_eq_ok_iff.1 hvalid
  push Not at hvalid
  obtain ⟨hne, htotal, hproceeds⟩ := hvalid
  rw [values_of_feeShares h]
  refine exact_remainderToLast (zpow_pos (by norm_num) _) (wholeUnits_mono (min_le_left _ _)
    (wholeUnits_toRat amount)) (by simpa using hne) (fun w hw => ?_) htotal
  obtain ⟨t, ht, rfl⟩ := List.mem_map.1 hw
  exact hproceeds t ht

end Quarantine

/-! ### The largest remainder -/

namespace Dividends

theorem truncated_of_nonneg {q : ℚ} (h : 0 ≤ q) : truncated q = ⌊q⌋ := if_pos h

/-- Among what is not negative, the larger remainder is the larger fraction. -/
theorem largerRemainder_iff {a b : String × ℚ} (ha : 0 ≤ a.2) (hb : 0 ≤ b.2) :
    LargerRemainder a b ↔ LargerBy Int.fract a b := by
  rw [LargerRemainder, LargerBy, truncated_of_nonneg ha, truncated_of_nonneg hb, Int.fract,
    Int.fract]

/-- Rounded down, with one more for each of the largest remainders. -/
def roundedShares (units : ℤ) (exact : List (String × ℚ)) : List (String × ℤ) :=
  let left := units - (exact.map fun e => truncated e.2).sum
  let raisedOnes := (sliceTo (exact.insertionSort LargerRemainder) left).map Prod.fst
  exact.map fun e => (e.1, truncated e.2 + if e.1 ∈ raisedOnes then 1 else 0)

variable {units : ℤ} {weights : List (String × ℚ)}

theorem quotas_nonneg (hunits : 0 ≤ units) (hweights : ∀ e ∈ weights, 0 ≤ e.2)
    (htotal : 0 < (weights.map Prod.snd).sum) : ∀ e ∈ quotas units weights, 0 ≤ e.2 := by
  intro e he
  obtain ⟨f, hf, rfl⟩ := List.mem_map.1 he
  exact div_nonneg (mul_nonneg (by exact_mod_cast hunits) (hweights f hf)) htotal.le

/-- For weights that are not negative this is the split of the library. -/
theorem roundedShares_quotas (hunits : 0 ≤ units) (hweights : ∀ e ∈ weights, 0 ≤ e.2)
    (htotal : 0 < (weights.map Prod.snd).sum) :
    roundedShares units (quotas units weights) = largestRemainder units weights := by
  have hnonneg := quotas_nonneg hunits hweights htotal
  have hfloors : ((quotas units weights).map fun e => truncated e.2) =
      (quotas units weights).map fun e => ⌊e.2⌋ :=
    List.map_congr_left fun e he => truncated_of_nonneg (hnonneg e he)
  have hsorted : (quotas units weights).insertionSort LargerRemainder =
      (quotas units weights).insertionSort (LargerBy Int.fract) := by
    have hmap := List.map_insertionSort (r := LargerRemainder) (s := (LargerBy Int.fract)) id
      (quotas units weights) fun a ha b hb => largerRemainder_iff (hnonneg a ha) (hnonneg b hb)
    simpa using hmap
  have hquotas : ((quotas units weights).map Prod.snd).sum = (units : ℚ) := sum_quotas htotal.ne'
  have hleft := (leftOver_bounds hquotas).1
  unfold roundedShares
  rw [hfloors, hsorted]
  refine List.map_congr_left fun e he => ?_
  rw [truncated_of_nonneg (hnonneg e he)]
  have hfavoured : (sliceTo ((quotas units weights).insertionSort (LargerBy Int.fract))
      (leftOver units (quotas units weights))).map Prod.fst = favoured Int.fract
        (leftOver units (quotas units weights)).toNat (quotas units weights) := by
    rw [sliceTo, if_pos hleft, favoured]
  rw [← leftOver, hfavoured]

end Dividends

section Largest

variable {amount unit : ℚ}

theorem abs_eq_units (hunit : 0 < unit) (h : WholeUnits unit amount) :
    0 ≤ Dividends.truncated (|amount| / unit) ∧
      |amount| = Dividends.truncated (|amount| / unit) * unit := by
  obtain ⟨n, rfl⟩ := h
  have hsize : |(n : ℚ) * unit| / unit = ((|n| : ℤ) : ℚ) := by
    rw [abs_mul, abs_of_pos hunit, mul_div_cancel_right₀ _ hunit.ne', Int.cast_abs]
  have hnonneg : (0 : ℚ) ≤ ((|n| : ℤ) : ℚ) := by exact_mod_cast abs_nonneg n
  rw [hsize, Dividends.truncated_of_nonneg hnonneg, Int.floor_intCast]
  refine ⟨abs_nonneg n, ?_⟩
  rw [abs_mul, abs_of_pos hunit, Int.cast_abs]

theorem map_roundedShares (unit sign : ℚ) (units : ℤ) (exact : List (String × ℚ)) :
    (exact.map fun e => (e.1, sign * ((Dividends.truncated e.2 : ℚ) +
        if e.1 ∈ (Dividends.sliceTo (exact.insertionSort Dividends.LargerRemainder)
          (units - (exact.map fun e => Dividends.truncated e.2).sum)).map Prod.fst
        then 1 else 0) * unit)) =
      (Dividends.roundedShares units exact).map fun e => (e.1, sign * (e.2 : ℚ) * unit) := by
  simp only [Dividends.roundedShares, List.map_map]
  refine List.map_congr_left fun e _ => ?_
  simp only [Function.comp_apply, Prod.mk.injEq, true_and]
  push_cast
  rfl

end Largest

namespace Dividends

variable {amount : ℚ} {weights : OrderedDict String Share}

theorem roundToCent_of_wholeUnits (h : WholeUnits (1 / 100) amount) :
    amount = roundToCent amount := by
  have hround : ∀ n : ℤ, ⌊(n : ℚ) + 1 / 2⌋ = n := by
    intro n
    rw [Int.floor_intCast_add]
    norm_num
  obtain ⟨n, rfl⟩ := h
  unfold roundToCent
  have hcents : (n : ℚ) * (1 / 100) * 100 = n := by ring
  have hneg : -((n : ℚ) * (1 / 100)) * 100 = ((-n : ℤ) : ℚ) := by push_cast; ring
  rw [hcents, hneg, hround, hround]
  split <;> push_cast <;> ring

/-- The weights of the holders. -/
def weightsOf (weights : OrderedDict String Share) : List (String × ℚ) :=
  weights.entries.map fun e => (e.1, e.2.weight)

theorem keys_weightsOf : (weightsOf weights).map Prod.fst = weights.keys := by
  simp [weightsOf, OrderedDict.keys, Function.comp_def]

theorem sum_weightsOf : ((weightsOf weights).map Prod.snd).sum =
    (weights.values.map Share.weight).sum := by
  simp [weightsOf, OrderedDict.values, Function.comp_def]

/-- The size of a dividend in cents. -/
def centsOf (amount : ℚ) : ℤ := truncated (|amount| / (1 / 100))

theorem split_ok (hcents : WholeUnits (1 / 100) amount)
    (htotal : ((weightsOf weights).map Prod.snd).sum ≠ 0) :
    split amount weights = .ok ((roundedShares (centsOf amount)
      (quotas (centsOf amount) (weightsOf weights))).map fun e =>
        (e.1, (if amount < 0 then -1 else 1) * (e.2 : ℚ) * (1 / 100))) := by
  have hsplit := map_roundedShares (1 / 100) (if amount < 0 then -1 else 1) (centsOf amount)
    (quotas (centsOf amount) (weightsOf weights))
  have htimes : truncated (|amount| * 100) = centsOf amount := by
    rw [centsOf]
    congr 1
    ring
  unfold split
  refine except_bind_eq_ok.2 ⟨(), haltIf_eq_ok_iff.2 (not_not.2 (roundToCent_of_wholeUnits hcents)),
    except_bind_eq_ok.2 ⟨(), haltIf_eq_ok_iff.2 ?_, ?_⟩⟩
  · rintro ⟨hzero, -⟩
    rw [← sum_weightsOf] at hzero
    exact htotal hzero
  · rw [← hsplit, htimes, ← sum_weightsOf]
    simp only [quotas, weightsOf, List.map_map, mul_one_div]
    rfl

theorem split_eq (hcents : WholeUnits (1 / 100) amount)
    (hweights : ∀ e ∈ weightsOf weights, 0 ≤ e.2)
    (htotal : 0 < ((weightsOf weights).map Prod.snd).sum) :
    split amount weights =
      .ok (splitUnits (1 / 100) amount (centsOf amount) (weightsOf weights)) := by
  have hunits : 0 ≤ centsOf amount := (abs_eq_units (by norm_num) hcents).1
  rw [split_ok hcents htotal.ne', roundedShares_quotas hunits hweights htotal]
  rfl

/-- **A dividend is split exactly**, each part within a cent of its proportion. -/
theorem exact_dividendSplit (hcents : WholeUnits (1 / 100) amount)
    (hweights : ∀ e ∈ weightsOf weights, 0 ≤ e.2)
    (htotal : 0 < ((weightsOf weights).map Prod.snd).sum) :
    ∃ parts, split amount weights = .ok parts ∧ Exact (1 / 100) amount (parts.map Prod.snd) ∧
      (∀ part ∈ parts, ∃ weight, (part.1, weight) ∈ weightsOf weights ∧
        |part.2 - amount * weight / ((weightsOf weights).map Prod.snd).sum| ≤ 1 / 100) := by
  obtain ⟨-, habs⟩ := abs_eq_units (by norm_num) hcents
  refine ⟨_, split_eq hcents hweights htotal, exact_largestRemainder (by norm_num) habs ?_ hweights
    htotal, fun part hpart => abs_splitUnits_sub_le (by norm_num) habs hpart⟩
  rw [keys_weightsOf]
  exact weights.nodup_keys

/-- The parts do not depend on the order of the holders. -/
theorem dividendSplit_perm {weights' : OrderedDict String Share}
    (hcents : WholeUnits (1 / 100) amount) (hweights : ∀ e ∈ weightsOf weights, 0 ≤ e.2)
    (htotal : 0 < ((weightsOf weights).map Prod.snd).sum)
    (hperm : weights.entries.Perm weights'.entries) {parts parts' : List (String × ℚ)}
    (h : split amount weights = .ok parts) (h' : split amount weights' = .ok parts') :
    parts.Perm parts' := by
  have hsame : (weightsOf weights).Perm (weightsOf weights') := hperm.map _
  have htotal' : 0 < ((weightsOf weights').map Prod.snd).sum := by
    rwa [← (hsame.map Prod.snd).sum_eq]
  rw [split_eq hcents hweights htotal] at h
  rw [split_eq hcents (fun e he => hweights e (hsame.mem_iff.2 he)) htotal'] at h'
  obtain rfl := Except.ok.inj h
  obtain rfl := Except.ok.inj h'
  exact (largestRemainder_perm (by rw [keys_weightsOf]; exact weights.nodup_keys) hsame).map _

end Dividends

namespace Adopting

variable {amount : Encoding.Decimal} {weights : OrderedDict String ℚ}

theorem splitUnit_eq (amount : Encoding.Decimal) :
    splitUnit amount = 10 ^ min amount.exponent (-2) := by
  have hcent : (1 / 100 : ℚ) = 10 ^ (-2 : ℤ) := by norm_num
  unfold splitUnit
  rw [hcent]
  rcases le_total amount.exponent (-2) with hle | hle
  · rw [min_eq_left hle, min_eq_right (zpow_le_zpow_right₀ (by norm_num) hle)]
  · rw [min_eq_right hle, min_eq_left (zpow_le_zpow_right₀ (by norm_num) hle)]

theorem splitUnit_pos (amount : Encoding.Decimal) : 0 < splitUnit amount := by
  rw [splitUnit_eq]
  exact zpow_pos (by norm_num) _

theorem abs_eq_splitUnits (amount : Encoding.Decimal) :
    0 ≤ Dividends.truncated (|amount.toRat| / splitUnit amount) ∧
      |amount.toRat| = Dividends.truncated (|amount.toRat| / splitUnit amount) *
        splitUnit amount := by
  refine abs_eq_units (splitUnit_pos amount) ?_
  rw [splitUnit_eq]
  exact wholeUnits_mono (min_le_left _ _) (wholeUnits_toRat amount)

theorem split_eq (hweights : ∀ e ∈ weights.entries, 0 ≤ e.2)
    (htotal : 0 < weights.values.sum) :
    split amount weights = .ok (splitUnits (splitUnit amount) amount.toRat
      (Dividends.truncated (|amount.toRat| / splitUnit amount)) weights.entries) := by
  have hunits := (abs_eq_splitUnits amount).1
  have hsplit := map_roundedShares (splitUnit amount) (if amount.toRat < 0 then -1 else 1)
    (Dividends.truncated (|amount.toRat| / splitUnit amount))
    (quotas (Dividends.truncated (|amount.toRat| / splitUnit amount)) weights.entries)
  rw [Dividends.roundedShares_quotas hunits hweights htotal] at hsplit
  refine except_bind_eq_ok.2 ⟨(), raiseIf_eq_ok_iff.2 fun hzero => htotal.ne' hzero.1, ?_⟩
  rw [splitUnits, ← hsplit]
  rfl

/-- **A fee of adopted lots is split exactly**, each part within a unit of its proportion. -/
theorem exact_adoptedSplit (hweights : ∀ e ∈ weights.entries, 0 ≤ e.2)
    (htotal : 0 < weights.values.sum) :
    ∃ parts, split amount weights = .ok parts ∧
      Exact (splitUnit amount) amount.toRat (parts.map Prod.snd) ∧
      (∀ part ∈ parts, ∃ weight, (part.1, weight) ∈ weights.entries ∧
        |part.2 - amount.toRat * weight / weights.values.sum| ≤ splitUnit amount) := by
  have hpos := splitUnit_pos amount
  obtain ⟨-, habs⟩ := abs_eq_splitUnits amount
  exact ⟨_, split_eq hweights htotal,
    exact_largestRemainder hpos habs weights.nodup hweights htotal,
    fun part hpart => abs_splitUnits_sub_le hpos habs hpart⟩

/-- The parts do not depend on the order of the fills. -/
theorem adoptedSplit_perm {weights' : OrderedDict String ℚ}
    (hweights : ∀ e ∈ weights.entries, 0 ≤ e.2) (htotal : 0 < weights.values.sum)
    (hperm : weights.entries.Perm weights'.entries) {parts parts' : List (String × ℚ)}
    (h : split amount weights = .ok parts) (h' : split amount weights' = .ok parts') :
    parts.Perm parts' := by
  have htotal' : 0 < weights'.values.sum := by
    rwa [OrderedDict.values, ← (hperm.map Prod.snd).sum_eq]
  rw [split_eq hweights htotal] at h
  rw [split_eq (fun e he => hweights e (hperm.mem_iff.2 he)) htotal'] at h'
  obtain rfl := Except.ok.inj h
  obtain rfl := Except.ok.inj h'
  exact (largestRemainder_perm weights.nodup hperm).map _

end Adopting

/-- One share of the three that an order closes. -/
def closedThird (id : String) : TradeAttribution where
  attributionId := id
  asset := ⟨"AAA", .equity, "AAA", none, none⟩
  lotId := "lot"
  openingTradeIntentId := "bought"
  closingTradeIntentId := "sold"
  closingFillId := "fill"
  quantity := 1
  entryPrice := 9
  entryAt := 0
  exitPrice := 10
  exitAt := 1
  realizedPnl := 1
  createdAt := 1

def closedThirds : List TradeAttribution := [closedThird "a", closedThird "b", closedThird "c"]

/-- A dollar that was charged. -/
def chargedDollar : Encoding.Decimal := ⟨true, 100, -2⟩

/-- A fee of a dollar for the order. -/
def dollarFee : CashFees.CashFeeProof where
  activities := [⟨"fee", .finite chargedDollar⟩]
  cashFeePopulations := .ofList [("fee", ⟨["order"], ["sold"], "AAA", "authoritative_order_link"⟩)]

/-- Three holders of one share each. -/
def holdersOfThirds : OrderedDict String Dividends.Share :=
  .ofList [("a", ⟨1, "strategy", "fills"⟩), ("b", ⟨1, "strategy", "fills"⟩),
    ("c", ⟨1, "strategy", "fills"⟩)]

/-- Three fills of one share each. -/
def fillsOfThirds : OrderedDict String ℚ := .ofList [("a", 1), ("b", 1), ("c", 1)]

end TradePulse
