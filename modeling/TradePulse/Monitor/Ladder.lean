/-
**The exit ladder** (`monitor/coordinator.py::plan_ladder_exit`).

The monitor takes the profits of a long position in steps that are measured in R, the risk per unit
of its first entry: a part of the position at one step, the whole of it at a final target, and the
whole of a position that cannot be split at a step of its own.  A position that does not get going
is closed after some days.  Each step may be switched off.

Main definitions:

* `LadderLimits` — the limits of the ladder, which validate themselves;
* `scaleOutQuantity`, `planLadderExit` — the part that is sold first, and the decision.

Main results:

* `planLadderExit_cases` — the ways in which an exit is planned;
* `scaleOutQuantity_mono` — a part that can be sold at one price can be sold at each higher one;
* `planLadderExit_mono` — exits at a target and higher prices;
* `ladder_legal` — **every planned exit is a legal sale, and a higher price takes no exit back, but
  for a whole exit where scaling out is switched off**;
* `ladder_skips` — where it is, a position that a higher price makes splittable is kept.
-/

import TradePulse.Dbae.Tradable
import TradePulse.Models.Portfolio
import TradePulse.Risk.Evaluation

set_option autoImplicit false

namespace TradePulse

namespace Monitor

open Dbae

/-! ### Limits -/

/-- The fields of a risk profile that the ladder reads; 0 disables each rung. -/
structure LadderLimitsFields where
  minLotNotional : ℚ
  scaleOutR : ℚ := 1
  scaleOutFraction : ℚ := 1 / 2
  finalTargetR : ℚ := 3
  singleUnitTargetR : ℚ := 3 / 2
  stallExitDays : ℤ := 7
  stallMinR : ℚ := 1 / 2
  deriving DecidableEq

/-- A rung beyond the scale-out, where both are enabled. -/
def beyondScaleOutCheck (l : LadderLimitsFields) (q : ℚ) (field : String) : Bool × String :=
  (!(decide (0 < l.scaleOutR) && decide (0 < q ∧ q < l.scaleOutR)),
    field ++ " must be at least scale_out_r when both are enabled")

instance : Checked LadderLimitsFields where
  checks l :=
    [ nonnegativeCheck l.minLotNotional "min_lot_notional",
      nonnegativeCheck l.scaleOutR "scale_out_r",
      nonnegativeCheck l.finalTargetR "final_target_r",
      nonnegativeCheck l.singleUnitTargetR "single_unit_target_r",
      nonnegativeCheck l.stallMinR "stall_min_r",
      (decide (0 < l.scaleOutFraction ∧ l.scaleOutFraction < 1),
        "scale_out_fraction must be between 0 and 1 (both exclusive)"),
      (decide (0 ≤ l.stallExitDays), "stall_exit_days must be nonnegative"),
      beyondScaleOutCheck l l.singleUnitTargetR "single_unit_target_r",
      beyondScaleOutCheck l l.finalTargetR "final_target_r" ]

/-- The limits of the ladder: fields that pass their checks. -/
structure LadderLimits extends LadderLimitsFields where
  valid : Valid toLadderLimitsFields

/-! ### The decision -/

/-- One exit-ladder decision: sell `quantity` for `reason`. -/
structure LadderExit where
  quantity : ℚ
  reason : String
  scaleOut : Bool := false
  deriving DecidableEq

/-- The part of a position that is sold first, before it is asked whether the rest allows it. -/
def scaleOutPart (holding : Holding) (positionQty : ℚ) (limits : LadderLimits)
    (assetCaps : Option AssetTradingCapabilities) : ℚ :=
  let part := Risk.roundQty (positionQty * limits.scaleOutFraction) holding.asset.assetClass
  if wholeUnitsOnly assetCaps holding.asset.assetClass then ⌊part⌋ else part

/-- Whether a position may be split into a part and a rest. -/
def splittable (holding : Holding) (multiplier part rest price : ℚ) (limits : LadderLimits)
    (assetCaps : Option AssetTradingCapabilities) : Bool :=
  decide (0 < part ∧ 0 < rest) &&
    decide (limits.minLotNotional ≤ part * (price * multiplier) ∧
      limits.minLotNotional ≤ rest * (price * multiplier)) &&
    scaleOutFeasible assetCaps holding.asset.assetClass multiplier part rest price

/-- The partial-exit quantity, or none when the position cannot be split. -/
def scaleOutQuantity (holding : Holding) (positionQty price : ℚ) (limits : LadderLimits)
    (assetCaps : Option AssetTradingCapabilities) : Except Raised (Option ℚ) := do
  let part := scaleOutPart holding positionQty limits assetCaps
  let multiplier ← contractMultiplierOf holding.asset
  if splittable holding multiplier part (positionQty - part) price limits assetCaps then
    return some part
  else return none

/-- The day of an instant, in UTC. -/
def dayOf (t : Instant) : ℤ := t / seconds 86400

/-- The rung that closes a position which does not get going. -/
def stallExit (holding : Holding) (lots : List PositionLot) (positionQty price riskUnit : ℚ)
    (today : ℤ) (limits : LadderLimits) : Option LadderExit :=
  if limits.stallExitDays ≠ 0 then
    match lots.minOn? fun lot => lot.openedAt with
    | none => none
    | some oldest =>
        if limits.stallExitDays ≤ today - dayOf oldest.openedAt then
          let best := (lots.filterMap fun lot => lot.mfePrice).foldl max price
          if (best - holding.averagePrice) / riskUnit < limits.stallMinR then
            some ⟨positionQty, "stall", false⟩
          else none
        else none
  else none

/-- Profit-aware exits, long positions only. -/
def planLadderExit (holding : Holding) (lots : List PositionLot) (positionQty price : ℚ)
    (today : ℤ) (limits : LadderLimits) (assetCaps : Option AssetTradingCapabilities) :
    Except Raised (Option LadderExit) :=
  match holding.stopLoss with
  | none => .ok none
  | some stopLoss =>
      if holding.quantity ≤ 0 ∨ positionQty ≤ 0 then .ok none
      else
        let riskUnit := holding.averagePrice - stopLoss
        if riskUnit ≤ 0 then .ok none
        else
          let gainR := (price - holding.averagePrice) / riskUnit
          if limits.finalTargetR ≠ 0 ∧ limits.finalTargetR ≤ gainR then
            .ok (some ⟨positionQty, "target_r", false⟩)
          else if holding.scaledOut then .ok none
          else do
            let part ← scaleOutQuantity holding positionQty price limits assetCaps
            match part with
            | none =>
                if limits.singleUnitTargetR ≠ 0 ∧ limits.singleUnitTargetR ≤ gainR then
                  return some ⟨positionQty, "target_r_single_unit", false⟩
                else return stallExit holding lots positionQty price riskUnit today limits
            | some part =>
                if limits.scaleOutR ≠ 0 ∧ limits.scaleOutR ≤ gainR then
                  return some ⟨part, "scale_out", true⟩
                else return stallExit holding lots positionQty price riskUnit today limits

/-! ### The part that is sold first -/

section Part

variable {asset : Option AssetTradingCapabilities} {assetClass : AssetClass}
  {multiplier part rest price price' : ℚ} {holding : Holding} {limits : LadderLimits}
  {positionQty : ℚ}

theorem one_le_scaleOutThreshold (asset : Option AssetTradingCapabilities) (price : ℚ) :
    1 ≤ scaleOutThreshold asset price := by
  cases asset with
  | none => exact le_rfl
  | some a => exact one_le_liquidationThreshold price

/-- A unit of what is split is worth something. -/
theorem multiplier_pos (hprice : 0 < price)
    (h : Splits asset assetClass multiplier part rest price) : 0 < multiplier := by
  have hvalue : 0 < part * price * multiplier :=
    one_pos.trans_le ((one_le_scaleOutThreshold asset price).trans (h.worth part (by simp)))
  exact pos_of_mul_pos_right hvalue (mul_pos h.part_pos hprice).le

/-- The smallest order grows with the price no faster than a part does. -/
theorem scaleOutThreshold_le {leg : ℚ} (hprice : 0 < price) (hle : price ≤ price')
    (hunits : 0 ≤ leg * multiplier)
    (h : scaleOutThreshold asset price ≤ leg * price * multiplier) :
    scaleOutThreshold asset price' ≤ leg * price' * multiplier := by
  rw [mul_right_comm] at h ⊢
  have hvalue : leg * multiplier * price ≤ leg * multiplier * price' :=
    mul_le_mul_of_nonneg_left hle hunits
  cases asset with
  | none => exact h.trans hvalue
  | some a =>
      cases hminimum : a.minOrderSize with
      | none =>
          simp only [scaleOutThreshold, liquidationThreshold, hminimum] at h ⊢
          exact h.trans hvalue
      | some minimum =>
          simp only [scaleOutThreshold, liquidationThreshold, hminimum] at h ⊢
          obtain ⟨hdollar, hsize⟩ := max_le_iff.1 h
          have hunit : minimum ≤ leg * multiplier := le_of_mul_le_mul_right hsize hprice
          exact max_le (hdollar.trans hvalue)
            (mul_le_mul_of_nonneg_right hunit (hprice.le.trans hle))

/-- What splits at a price splits at each higher one. -/
theorem splits_mono (hprice : 0 < price) (hle : price ≤ price')
    (h : Splits asset assetClass multiplier part rest price) :
    Splits asset assetClass multiplier part rest price' where
  part_pos := h.part_pos
  rest_pos := h.rest_pos
  whole := h.whole
  increment := h.increment
  worth leg hleg := by
    have hmultiplier := multiplier_pos hprice h
    have hpos : 0 < leg := by
      rcases List.mem_pair.1 hleg with rfl | rfl
      · exact h.part_pos
      · exact h.rest_pos
    exact scaleOutThreshold_le hprice hle (mul_pos hpos hmultiplier).le (h.worth leg hleg)

theorem splittable_iff :
    splittable holding multiplier part rest price limits asset = true ↔
      (limits.minLotNotional ≤ part * (price * multiplier) ∧
        limits.minLotNotional ≤ rest * (price * multiplier)) ∧
      Splits asset holding.asset.assetClass multiplier part rest price := by
  simp only [splittable, Bool.and_eq_true, decide_eq_true_eq, scaleOutFeasible_iff]
  constructor
  · rintro ⟨⟨-, hworth⟩, hsplits⟩
    exact ⟨hworth, hsplits⟩
  · rintro ⟨hworth, hsplits⟩
    exact ⟨⟨⟨hsplits.part_pos, hsplits.rest_pos⟩, hworth⟩, hsplits⟩

theorem splittable_mono (hprice : 0 < price) (hle : price ≤ price')
    (h : splittable holding multiplier part rest price limits asset = true) :
    splittable holding multiplier part rest price' limits asset = true := by
  obtain ⟨⟨hpart, hrest⟩, hsplits⟩ := splittable_iff.1 h
  have hunit : price * multiplier ≤ price' * multiplier :=
    mul_le_mul_of_nonneg_right hle (multiplier_pos hprice hsplits).le
  refine splittable_iff.2 ⟨⟨hpart.trans ?_, hrest.trans ?_⟩, splits_mono hprice hle hsplits⟩
  · exact mul_le_mul_of_nonneg_left hunit hsplits.part_pos.le
  · exact mul_le_mul_of_nonneg_left hunit hsplits.rest_pos.le

theorem scaleOutQuantity_eq_some :
    scaleOutQuantity holding positionQty price limits asset = .ok (some part) ↔
      ∃ m, contractMultiplierOf holding.asset = .ok m ∧
        part = scaleOutPart holding positionQty limits asset ∧
        splittable holding m part (positionQty - part) price limits asset = true := by
  constructor
  · intro h
    obtain ⟨m, hm, h⟩ := except_bind_eq_ok.1 h
    split at h
    · rename_i hsplit
      obtain rfl := Option.some.inj (Except.ok.inj h)
      exact ⟨m, hm, rfl, hsplit⟩
    · cases h
  · rintro ⟨m, hm, rfl, hsplit⟩
    refine except_bind_eq_ok.2 ⟨m, hm, ?_⟩
    rw [if_pos hsplit]
    rfl

/-- A part that can be sold at one price can be sold at each higher one. -/
theorem scaleOutQuantity_mono (hprice : 0 < price) (hle : price ≤ price')
    (h : scaleOutQuantity holding positionQty price limits asset = .ok (some part)) :
    scaleOutQuantity holding positionQty price' limits asset = .ok (some part) := by
  obtain ⟨m, hm, hpart, hsplit⟩ := scaleOutQuantity_eq_some.1 h
  exact scaleOutQuantity_eq_some.2 ⟨m, hm, hpart, splittable_mono hprice hle hsplit⟩

/-- Whether the multiplier is known does not depend on the price. -/
theorem scaleOutQuantity_ok {found : Option ℚ} (price' : ℚ)
    (h : scaleOutQuantity holding positionQty price limits asset = .ok found) :
    ∃ found', scaleOutQuantity holding positionQty price' limits asset = .ok found' := by
  obtain ⟨m, hm, -⟩ := except_bind_eq_ok.1 h
  simp only [scaleOutQuantity, hm, bind, Except.bind]
  split
  · exact ⟨_, rfl⟩
  · exact ⟨_, rfl⟩

end Part

/-! ### The rungs -/

/-- A holding that the ladder asks about: long, with a stop below its average. -/
structure Laddered (holding : Holding) (positionQty stopLoss : ℚ) : Prop where
  stop : holding.stopLoss = some stopLoss
  holding_pos : 0 < holding.quantity
  position_pos : 0 < positionQty
  risk_pos : 0 < holding.averagePrice - stopLoss

/-- The rung is enabled and the gain, in R, has reached it. -/
def Reached (holding : Holding) (stopLoss price rung : ℚ) : Prop :=
  rung ≠ 0 ∧ rung ≤ (price - holding.averagePrice) / (holding.averagePrice - stopLoss)

instance (holding : Holding) (stopLoss price rung : ℚ) :
    Decidable (Reached holding stopLoss price rung) := inferInstanceAs (Decidable (_ ∧ _))

section Rungs

variable {holding : Holding} {lots : List PositionLot} {positionQty price price' stopLoss rung : ℚ}
  {today : ℤ} {limits : LadderLimits} {assetCaps : Option AssetTradingCapabilities}
  {exit : LadderExit}

theorem Reached.mono (h : Laddered holding positionQty stopLoss) (hle : price ≤ price')
    (hreached : Reached holding stopLoss price rung) : Reached holding stopLoss price' rung :=
  ⟨hreached.1, hreached.2.trans
    (div_le_div_of_nonneg_right (sub_le_sub_right hle _) h.risk_pos.le)⟩

/-- The ways in which an exit is planned. -/
inductive Planned (holding : Holding) (lots : List PositionLot) (positionQty price : ℚ) (today : ℤ)
    (limits : LadderLimits) (assetCaps : Option AssetTradingCapabilities) (stopLoss : ℚ) :
    LadderExit → Prop
  | target (hreached : Reached holding stopLoss price limits.finalTargetR) :
      Planned holding lots positionQty price today limits assetCaps stopLoss
        ⟨positionQty, "target_r", false⟩
  | singleUnit (hopen : holding.scaledOut = false)
      (hwhole : scaleOutQuantity holding positionQty price limits assetCaps = .ok none)
      (hreached : Reached holding stopLoss price limits.singleUnitTargetR) :
      Planned holding lots positionQty price today limits assetCaps stopLoss
        ⟨positionQty, "target_r_single_unit", false⟩
  | scaleOut (part : ℚ) (hopen : holding.scaledOut = false)
      (hpart : scaleOutQuantity holding positionQty price limits assetCaps = .ok (some part))
      (hreached : Reached holding stopLoss price limits.scaleOutR) :
      Planned holding lots positionQty price today limits assetCaps stopLoss
        ⟨part, "scale_out", true⟩
  | stall (hopen : holding.scaledOut = false) :
      Planned holding lots positionQty price today limits assetCaps stopLoss
        ⟨positionQty, "stall", false⟩

theorem stallExit_eq {riskUnit : ℚ}
    (h : stallExit holding lots positionQty price riskUnit today limits = some exit) :
    exit = ⟨positionQty, "stall", false⟩ := by
  unfold stallExit at h
  split at h
  · split at h
    · cases h
    · split at h
      · dsimp only at h
        split at h
        · exact (Option.some.inj h).symm
        · cases h
      · cases h
  · cases h

/-- Every decision to exit comes about in one of these ways. -/
theorem planLadderExit_cases
    (h : planLadderExit holding lots positionQty price today limits assetCaps = .ok (some exit)) :
    ∃ stopLoss, Laddered holding positionQty stopLoss ∧
      Planned holding lots positionQty price today limits assetCaps stopLoss exit := by
  unfold planLadderExit at h
  split at h
  · cases h
  rename_i stopLoss hstop
  split at h
  · cases h
  rename_i hlong
  push Not at hlong
  dsimp only at h
  split at h
  · cases h
  rename_i hrisk
  refine ⟨stopLoss, ⟨hstop, hlong.1, hlong.2, not_le.1 hrisk⟩, ?_⟩
  split at h
  · rename_i htarget
    obtain rfl := Option.some.inj (Except.ok.inj h)
    exact .target htarget
  split at h
  · cases h
  rename_i hscaled
  have hopen : holding.scaledOut = false := Bool.eq_false_iff.2 hscaled
  obtain ⟨found, hfound, h⟩ := except_bind_eq_ok.1 h
  cases found with
  | none =>
      dsimp only at h
      split at h
      · rename_i hsingle
        obtain rfl := Option.some.inj (Except.ok.inj h)
        exact .singleUnit hopen hfound hsingle
      · obtain rfl := stallExit_eq (Except.ok.inj h)
        exact .stall hopen
  | some part =>
      dsimp only at h
      split at h
      · rename_i hscale
        obtain rfl := Option.some.inj (Except.ok.inj h)
        exact .scaleOut part hopen hfound hscale
      · obtain rfl := stallExit_eq (Except.ok.inj h)
        exact .stall hopen

end Rungs

/-! ### Every planned exit is a legal sale -/

section Legal

variable {holding : Holding} {lots : List PositionLot} {positionQty price price' stopLoss : ℚ}
  {today : ℤ} {limits : LadderLimits} {assetCaps : Option AssetTradingCapabilities}
  {exit : LadderExit}

theorem LadderLimits.scaleOutR_nonneg (limits : LadderLimits) : 0 ≤ limits.scaleOutR :=
  (nonnegativeCheck_fst _ "scale_out_r").1 (limits.valid _ (by simp [Checked.checks]))

theorem LadderLimits.singleUnitTargetR_nonneg (limits : LadderLimits) :
    0 ≤ limits.singleUnitTargetR :=
  (nonnegativeCheck_fst _ "single_unit_target_r").1 (limits.valid _ (by simp [Checked.checks]))

/-- The exit of what cannot be split lies beyond the scale-out. -/
theorem LadderLimits.scaleOutR_le (limits : LadderLimits) (hscale : limits.scaleOutR ≠ 0)
    (hsingle : limits.singleUnitTargetR ≠ 0) : limits.scaleOutR ≤ limits.singleUnitTargetR := by
  have hscalePos := lt_of_le_of_ne limits.scaleOutR_nonneg hscale.symm
  have hsinglePos := lt_of_le_of_ne limits.singleUnitTargetR_nonneg hsingle.symm
  have hcheck := limits.valid
    (beyondScaleOutCheck limits.toLadderLimitsFields limits.singleUnitTargetR
      "single_unit_target_r") (by simp [Checked.checks])
  simpa [beyondScaleOutCheck, hscalePos, hsinglePos] using hcheck

/-- The decision about a holding that the ladder asks about. -/
theorem planLadderExit_eq (h : Laddered holding positionQty stopLoss) :
    planLadderExit holding lots positionQty price today limits assetCaps =
      if Reached holding stopLoss price limits.finalTargetR then
        .ok (some ⟨positionQty, "target_r", false⟩)
      else if holding.scaledOut then .ok none
      else do
        let part ← scaleOutQuantity holding positionQty price limits assetCaps
        match part with
        | none =>
            if Reached holding stopLoss price limits.singleUnitTargetR then
              return some ⟨positionQty, "target_r_single_unit", false⟩
            else
              return stallExit holding lots positionQty price (holding.averagePrice - stopLoss)
                today limits
        | some part =>
            if Reached holding stopLoss price limits.scaleOutR then
              return some ⟨part, "scale_out", true⟩
            else
              return stallExit holding lots positionQty price (holding.averagePrice - stopLoss)
                today limits := by
  have hlong : ¬ (holding.quantity ≤ 0 ∨ positionQty ≤ 0) := by
    push Not
    exact ⟨h.holding_pos, h.position_pos⟩
  unfold planLadderExit
  rw [h.stop]
  dsimp only
  rw [if_neg hlong, if_neg (not_le.2 h.risk_pos)]
  rfl

end Legal

/-! ### A higher price -/

section Higher

variable {holding : Holding} {lots : List PositionLot} {positionQty price price' stopLoss part : ℚ}
  {today : ℤ} {limits : LadderLimits} {assetCaps : Option AssetTradingCapabilities}
  {exit : LadderExit}

theorem exit_of_target (h : Laddered holding positionQty stopLoss)
    (hreached : Reached holding stopLoss price limits.finalTargetR) :
    ∃ exit, planLadderExit holding lots positionQty price today limits assetCaps =
      .ok (some exit) := by
  rw [planLadderExit_eq h, if_pos hreached]
  exact ⟨_, rfl⟩

theorem exit_of_part (h : Laddered holding positionQty stopLoss)
    (hopen : holding.scaledOut = false)
    (hpart : scaleOutQuantity holding positionQty price limits assetCaps = .ok (some part))
    (hreached : Reached holding stopLoss price limits.scaleOutR) :
    ∃ exit, planLadderExit holding lots positionQty price today limits assetCaps =
      .ok (some exit) := by
  by_cases htarget : Reached holding stopLoss price limits.finalTargetR
  · exact exit_of_target h htarget
  · rw [planLadderExit_eq h, if_neg htarget, if_neg (by simp [hopen]), hpart]
    simp only [bind, Except.bind, if_pos hreached]
    exact ⟨_, rfl⟩

theorem exit_of_whole (h : Laddered holding positionQty stopLoss)
    (hopen : holding.scaledOut = false)
    (hwhole : scaleOutQuantity holding positionQty price limits assetCaps = .ok none)
    (hreached : Reached holding stopLoss price limits.singleUnitTargetR) :
    ∃ exit, planLadderExit holding lots positionQty price today limits assetCaps =
      .ok (some exit) := by
  by_cases htarget : Reached holding stopLoss price limits.finalTargetR
  · exact exit_of_target h htarget
  · rw [planLadderExit_eq h, if_neg htarget, if_neg (by simp [hopen]), hwhole]
    simp only [bind, Except.bind, if_pos hreached]
    exact ⟨_, rfl⟩

/-- A higher price takes no exit at a target back, where scaling out is enabled or the exit is not
that of a whole position which cannot be split. -/
theorem planLadderExit_mono (hprice : 0 < price) (hle : price ≤ price')
    (h : Laddered holding positionQty stopLoss)
    (hplanned : Planned holding lots positionQty price today limits assetCaps stopLoss exit)
    (hrung : exit.reason = "target_r" ∨ exit.reason = "scale_out" ∨
      (exit.reason = "target_r_single_unit" ∧ limits.scaleOutR ≠ 0)) :
    ∃ exit', planLadderExit holding lots positionQty price' today limits assetCaps =
      .ok (some exit') := by
  cases hplanned with
  | target hreached => exact exit_of_target h (hreached.mono h hle)
  | singleUnit hopen hwhole hreached =>
      have hscale : limits.scaleOutR ≠ 0 := by simpa using hrung
      have hsingle := hreached.mono h hle
      obtain ⟨found, hfound⟩ := scaleOutQuantity_ok price' hwhole
      cases found with
      | none => exact exit_of_whole h hopen hfound hsingle
      | some part =>
          -- the higher price makes it splittable, and has passed the scale-out as well
          exact exit_of_part h hopen hfound
            ⟨hscale, (limits.scaleOutR_le hscale hsingle.1).trans hsingle.2⟩
  | scaleOut part hopen hpart hreached =>
      exact exit_of_part h hopen (scaleOutQuantity_mono hprice hle hpart) (hreached.mono h hle)
  | stall hopen => simp at hrung

end Higher

/-- **Every planned exit is a legal sale.**  It sells at most the position; a part leaves a rest,
both are worth the smallest lot and feasible for the asset, and it is planned once; any other exit
is that of the whole position.  A higher price takes no exit at a target back, but for the exit of a
position that could not be split where scaling out is switched off. -/
theorem ladder_legal (holding : Holding) (lots : List PositionLot) (positionQty price : ℚ)
    (today : ℤ) (limits : LadderLimits) (assetCaps : Option AssetTradingCapabilities)
    (exit : LadderExit) (hprice : 0 < price)
    (h : planLadderExit holding lots positionQty price today limits assetCaps = .ok (some exit)) :
    0 < exit.quantity ∧ exit.quantity ≤ positionQty ∧
    (exit.scaleOut = true → holding.scaledOut = false ∧
      ∃ rest multiplier, contractMultiplierOf holding.asset = .ok multiplier ∧ 0 < rest ∧
        exit.quantity + rest = positionQty ∧
        limits.minLotNotional ≤ exit.quantity * (price * multiplier) ∧
        limits.minLotNotional ≤ rest * (price * multiplier) ∧
        scaleOutFeasible assetCaps holding.asset.assetClass multiplier exit.quantity rest price =
          true) ∧
    (exit.scaleOut = false → exit.quantity = positionQty) ∧
    (exit.reason = "target_r" ∨ exit.reason = "scale_out" ∨
        (exit.reason = "target_r_single_unit" ∧ limits.scaleOutR ≠ 0) →
      ∀ price', price ≤ price' →
        ∃ exit', planLadderExit holding lots positionQty price' today limits assetCaps =
          .ok (some exit')) := by
  obtain ⟨stopLoss, hladdered, hplanned⟩ := planLadderExit_cases h
  have hpos := hladdered.position_pos
  have hmono := fun hrung price' (hle : price ≤ price') =>
    planLadderExit_mono hprice hle hladdered hplanned hrung
  suffices hlegal : 0 < exit.quantity ∧ exit.quantity ≤ positionQty ∧ _ ∧ _ from
    ⟨hlegal.1, hlegal.2.1, hlegal.2.2.1, hlegal.2.2.2, hmono⟩
  cases hplanned with
  | target hreached => exact ⟨hpos, le_rfl, by rintro ⟨⟩, fun _ => rfl⟩
  | singleUnit hopen hwhole hreached => exact ⟨hpos, le_rfl, by rintro ⟨⟩, fun _ => rfl⟩
  | stall hopen => exact ⟨hpos, le_rfl, by rintro ⟨⟩, fun _ => rfl⟩
  | scaleOut part hopen hpart hreached =>
      obtain ⟨m, hm, -, hsplit⟩ := scaleOutQuantity_eq_some.1 hpart
      obtain ⟨hworth, hsplits⟩ := splittable_iff.1 hsplit
      have hrest := hsplits.rest_pos
      refine ⟨hsplits.part_pos, by linarith, fun _ => ⟨hopen, positionQty - part, m, hm, hrest,
        by ring, hworth.1, hworth.2, scaleOutFeasible_iff.2 hsplits⟩, by rintro ⟨⟩⟩

/-! ### Two shares -/

/-- Two shares, bought at 40 and protected at 30. -/
def twoShares : Holding where
  asset := ⟨"AAA", .equity, "AAA", none, none⟩
  quantity := 2
  averagePrice := 40
  updatedAt := 0
  stopLoss := some 30
  valid := by decide +kernel

/-- Lots of at least 52, and a scale-out that may be switched off. -/
def laddered (scaleOutR : ℚ) (h : 0 ≤ scaleOutR ∧ scaleOutR ≤ 1) : LadderLimits where
  minLotNotional := 52
  scaleOutR := scaleOutR
  singleUnitTargetR := 1
  valid := by
    intro c hc
    simp only [Checked.checks, List.mem_cons, List.not_mem_nil, or_false] at hc
    rcases hc with rfl | rfl | rfl | rfl | rfl | rfl | rfl | rfl | rfl <;>
      simp [beyondScaleOutCheck, nonnegativeCheck] <;> grind

theorem ladder_legal_twoShares :
    planLadderExit twoShares [] 2 53 0 (laddered 1 (by decide)) none =
      .ok (some ⟨1, "scale_out", true⟩) ∧
    ∃ exit', planLadderExit twoShares [] 2 60 0 (laddered 1 (by decide)) none =
      .ok (some exit') := by
  have hplan : planLadderExit twoShares [] 2 53 0 (laddered 1 (by decide)) none =
      .ok (some ⟨1, "scale_out", true⟩) := by decide +kernel
  have hlegal := ladder_legal twoShares [] 2 53 0 (laddered 1 (by decide)) none _
    (by norm_num) hplan
  exact ⟨hplan, hlegal.2.2.2.2 (.inr (.inl rfl)) 60 (by norm_num)⟩

/-- **A higher price can take a whole exit back**: with scaling out switched off, two shares that
cannot be split at 51 are sold, and at 53, where they could be, they are kept. -/
theorem ladder_skips :
    planLadderExit twoShares [] 2 51 0 (laddered 0 (by decide)) none =
      .ok (some ⟨2, "target_r_single_unit", false⟩) ∧
    planLadderExit twoShares [] 2 53 0 (laddered 0 (by decide)) none = .ok none := by
  decide +kernel

end Monitor

end TradePulse
