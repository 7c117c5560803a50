/-
**What the caps of the risk engine leave.**

For a unit with positive notional the sizing block of `evaluate_risk` is a sequence of caps in the
sense of `Sizing.Caps`: the risk caps round their bound before they compare, the notional caps
compare first.  For a unit without positive notional the notional caps are all or nothing: a request
that exceeds one of the headrooms is cut to zero.  In both cases an approved quantity comes from a
positive request.

Main definitions:

* `capsOf` — the caps of one decision, as a list;
* `Fits` — no notional cap is exceeded by a quantity;
* `WithinCaps` — what an approved quantity must satisfy.

Main results:

* `sizing_eq` — the sizing block computes `Sizing.sizeBy (capsOf …)`;
* `sizing_pos_iff` — for a unit without positive notional it approves exactly what fits;
* `evaluateRisk_approved_iff` — when a purchase is approved, and what is approved;
* `approved_withinCaps` — **an approved entry respects every cap at once**.
-/

import TradePulse.Risk.Evaluation
import TradePulse.Sizing.Caps

set_option autoImplicit false

namespace TradePulse.Risk

open Sizing (Cap sizeBy floorTo)

/-! ### Rounding -/

theorem precision_pos (assetClass : AssetClass) : 0 < precision assetClass := by
  cases assetClass <;> simp [precision]

theorem minimumQuantity_pos (assetClass : AssetClass) : 0 < minimumQuantity assetClass := by
  cases assetClass <;> simp [minimumQuantity]

theorem roundQty_eq (qty : ℚ) (assetClass : AssetClass) :
    roundQty qty assetClass = floorTo (precision assetClass) qty := rfl

theorem roundQty_of_nonpos {qty : ℚ} (h : qty ≤ 0) (assetClass : AssetClass) :
    roundQty qty assetClass = 0 :=
  Sizing.floorTo_of_nonpos h

theorem floorTo_max_zero (p x : ℚ) : floorTo p (max x 0) = floorTo p x := by
  simp [floorTo]

theorem max_zero_div {d : ℚ} (hd : 0 < d) (x : ℚ) : max x 0 / d = max (x / d) 0 := by
  rw [← max_div_div_right hd.le, zero_div]

/-! ### The caps, one by one -/

@[simp] theorem capTo_approved (s : SizingState) (quantity : ℚ) (cap : CapName) :
    (s.capTo quantity cap).approved = min s.approved quantity := by
  unfold SizingState.capTo
  split
  · exact (min_eq_right (le_of_lt ‹_›)).symm
  · exact (min_eq_left (not_lt.1 ‹_›)).symm

section Caps

variable (intent : RiskCheckInput) (snapshot : PortfolioSnapshot) (limits : EntryLimits)
  (opts : RiskEvalOptions)

/-- The stop that risk-based sizing uses: positive, with a positive risk for each unit, and only
when the limit is set. -/
def sizingStop : Option ℚ :=
  intent.stopLoss.filter fun stop =>
    decide (0 < stop) && decide (limits.maxRiskPerTradePct ≠ 0) && decide (0 < intent.unitRisk stop)

def riskCap : Cap ℚ :=
  match sizingStop intent limits with
  | some stop => .always (riskBudget intent snapshot limits / intent.unitRisk stop)
  | none => .off

def openRiskCap : Cap ℚ :=
  match sizingStop intent limits with
  | some stop => .always (max (remainingRisk snapshot limits opts) 0 / intent.unitRisk stop)
  | none => .off

def positionCap : Cap ℚ := .above (positionHeadroom snapshot limits opts / intent.notionalPerUnit)

def sectorCap : Cap ℚ := .above (sectorHeadroom intent snapshot limits / intent.notionalPerUnit)

def exposureCap : Cap ℚ :=
  if limits.maxTotalExposurePct ≠ 0 then
    .above (exposureHeadroom snapshot limits / intent.notionalPerUnit)
  else .off

def cashCap : Cap ℚ :=
  match opts.availableCash with
  | some cash => .above ((bufferedCash cash - opts.estimatedFees) / intent.notionalPerUnit)
  | none => .off

/-- The caps of one decision, in the order of the sizing block. -/
def capsOf : List (Cap ℚ) :=
  [riskCap intent snapshot limits, openRiskCap intent snapshot limits opts,
    positionCap intent snapshot limits opts, sectorCap intent snapshot limits,
    exposureCap intent snapshot limits, cashCap intent opts]

theorem capByRisk_approved (s : SizingState) :
    (capByRisk intent snapshot limits opts s).approved =
      (openRiskCap intent snapshot limits opts).apply (precision intent.assetClass)
        ((riskCap intent snapshot limits).apply (precision intent.assetClass) s.approved) := by
  unfold capByRisk openRiskCap riskCap sizingStop
  cases intent.stopLoss with
  | none => rfl
  | some stop =>
      by_cases hstop : 0 < stop ∧ limits.maxRiskPerTradePct ≠ 0
      · by_cases hunit : 0 < intent.unitRisk stop
        · simp [Option.filter, hstop, hunit, Cap.apply, roundQty_eq]
        · simp [Option.filter, hstop, hunit]
      · simp only [Option.filter, if_neg hstop]
        grind [Cap.apply_off]

variable {intent}

theorem capByPosition_ok (hunit : 0 < intent.notionalPerUnit) (s : SizingState) :
    ∃ s', capByPosition intent snapshot limits opts s = .ok s' ∧
      s'.approved =
        (positionCap intent snapshot limits opts).apply (precision intent.assetClass) s.approved := by
  unfold capByPosition
  rcases lt_or_ge (positionHeadroom snapshot limits opts) (s.approved * intent.notionalPerUnit)
    with h | h
  · rw [if_pos h, if_neg hunit.ne']
    refine ⟨_, rfl, ?_⟩
    rw [positionCap, Cap.apply_above_of_lt ((div_lt_iff₀ hunit).2 h), max_zero_div hunit,
      roundQty_eq, floorTo_max_zero]
  · rw [if_neg h.not_gt]
    refine ⟨s, rfl, ?_⟩
    rw [positionCap, Cap.apply_above_of_le ((le_div_iff₀ hunit).2 h)]

/-- A cap by a headroom compares the notional with a bound `b`, and cuts to a headroom that agrees
with `b` above zero. -/
theorem capByHeadroom_approved (hunit : 0 < intent.notionalPerUnit) {exceeds : Prop}
    [Decidable exceeds] {b headroom : ℚ} (cap : CapName) {s : SizingState} (hs : 0 ≤ s.approved)
    (hexceeds : exceeds ↔ b < s.approved * intent.notionalPerUnit)
    (hheadroom : max headroom 0 = max b 0) :
    (capByHeadroom intent exceeds headroom cap s).approved =
      (Cap.above (b / intent.notionalPerUnit)).apply (precision intent.assetClass) s.approved := by
  have hround : roundQty (headroom / intent.notionalPerUnit) intent.assetClass =
      floorTo (precision intent.assetClass) (b / intent.notionalPerUnit) := by
    rw [roundQty_eq, ← floorTo_max_zero, ← max_zero_div hunit, hheadroom, max_zero_div hunit,
      floorTo_max_zero]
  unfold capByHeadroom
  rcases lt_or_ge b (s.approved * intent.notionalPerUnit) with h | h
  · have hlt : b / intent.notionalPerUnit < s.approved := (div_lt_iff₀ hunit).2 h
    have hle : floorTo (precision intent.assetClass) (b / intent.notionalPerUnit) ≤ s.approved :=
      (Sizing.floorTo_le_max (precision_pos _) _).trans (max_le hlt.le hs)
    rw [if_pos (hexceeds.2 h), capTo_approved, if_pos hunit, hround, Cap.apply_above_of_lt hlt,
      min_eq_right hle]
  · rw [if_neg (fun hx => (hexceeds.1 hx).not_ge h),
      Cap.apply_above_of_le ((le_div_iff₀ hunit).2 h)]

theorem capBySector_approved (hunit : 0 < intent.notionalPerUnit) {s : SizingState}
    (hs : 0 ≤ s.approved) :
    (capBySector intent snapshot limits s).approved =
      (sectorCap intent snapshot limits).apply (precision intent.assetClass) s.approved :=
  capByHeadroom_approved hunit _ hs Iff.rfl rfl

theorem capByExposure_approved (hunit : 0 < intent.notionalPerUnit) {s : SizingState}
    (hs : 0 ≤ s.approved) :
    (capByExposure intent snapshot limits s).approved =
      (exposureCap intent snapshot limits).apply (precision intent.assetClass) s.approved := by
  unfold capByExposure exposureCap
  split
  · exact capByHeadroom_approved hunit _ hs Iff.rfl rfl
  · rfl

theorem capByCash_approved (hunit : 0 < intent.notionalPerUnit) {s : SizingState}
    (hs : 0 ≤ s.approved) :
    (capByCash intent opts s).approved =
      (cashCap intent opts).apply (precision intent.assetClass) s.approved := by
  unfold capByCash cashCap
  cases opts.availableCash with
  | none => rfl
  | some cash =>
      refine capByHeadroom_approved hunit _ hs ?_ (by simp [checkCashSufficiency, max_comm])
      simp [checkCashSufficiency, sub_lt_iff_lt_add]

/-! ### The sizing block -/

/-- **The sizing block is a sequence of caps**, for a unit with positive notional. -/
theorem sizing_eq (hequity : 0 < snapshot.totalEquity) (hprice : 0 < intent.price)
    (hunit : 0 < intent.notionalPerUnit) (hqty : 0 ≤ intent.requestedQuantity) :
    ∃ s, sizing intent snapshot limits opts = .ok s ∧
      s.approved = sizeBy (precision intent.assetClass) (capsOf intent snapshot limits opts)
        intent.requestedQuantity := by
  have hp := precision_pos intent.assetClass
  set s₁ := capByRisk intent snapshot limits opts ⟨intent.requestedQuantity, []⟩ with hs₁
  have h₁ := capByRisk_approved intent snapshot limits opts ⟨intent.requestedQuantity, []⟩
  rw [← hs₁] at h₁
  have hnonneg₁ : 0 ≤ s₁.approved := by
    rw [h₁]
    exact Cap.apply_nonneg hp _ (Cap.apply_nonneg hp _ hqty)
  obtain ⟨s₂, hok, h₂⟩ := capByPosition_ok snapshot limits opts hunit s₁
  have hnonneg₂ : 0 ≤ s₂.approved := h₂ ▸ Cap.apply_nonneg hp _ hnonneg₁
  have h₃ := capBySector_approved snapshot limits hunit hnonneg₂
  have hnonneg₃ : 0 ≤ (capBySector intent snapshot limits s₂).approved :=
    h₃ ▸ Cap.apply_nonneg hp _ hnonneg₂
  have h₄ := capByExposure_approved snapshot limits hunit hnonneg₃
  have hnonneg₄ : 0 ≤ (capByExposure intent snapshot limits
      (capBySector intent snapshot limits s₂)).approved := h₄ ▸ Cap.apply_nonneg hp _ hnonneg₃
  have h₅ := capByCash_approved opts hunit hnonneg₄
  refine ⟨_, ?_, h₅.trans ?_⟩
  · simp only [sizing, hequity, hprice, and_self, if_true, ← hs₁, hok]
    rfl
  · rw [h₄, h₃, h₂, h₁]
    rfl

end Caps

/-! ### A size only shrinks -/

section Shrinks

variable (intent : RiskCheckInput) (snapshot : PortfolioSnapshot) (limits : EntryLimits)
  (opts : RiskEvalOptions)

theorem capByRisk_le (s : SizingState) :
    (capByRisk intent snapshot limits opts s).approved ≤ s.approved := by
  unfold capByRisk
  cases intent.stopLoss with
  | none => exact le_rfl
  | some stop =>
      dsimp only
      split
      · split
        · simp only [capTo_approved]
          exact (min_le_left _ _).trans (min_le_left _ _)
        · exact le_rfl
      · exact le_rfl

theorem capByHeadroom_le (exceeds : Prop) [Decidable exceeds] (headroom : ℚ) (cap : CapName)
    (s : SizingState) : (capByHeadroom intent exceeds headroom cap s).approved ≤ s.approved := by
  unfold capByHeadroom
  split
  · rw [capTo_approved]
    exact min_le_left _ _
  · exact le_rfl

theorem capBySector_le (s : SizingState) :
    (capBySector intent snapshot limits s).approved ≤ s.approved :=
  capByHeadroom_le intent _ _ _ s

theorem capByExposure_le (s : SizingState) :
    (capByExposure intent snapshot limits s).approved ≤ s.approved := by
  unfold capByExposure
  split
  · exact capByHeadroom_le intent _ _ _ s
  · exact le_rfl

theorem capByCash_le (s : SizingState) : (capByCash intent opts s).approved ≤ s.approved := by
  unfold capByCash
  cases opts.availableCash with
  | none => exact le_rfl
  | some cash => exact capByHeadroom_le intent _ _ _ s

variable {intent snapshot limits opts}

/-- What the position cap does when it does not raise. -/
theorem capByPosition_cases {s s' : SizingState}
    (h : capByPosition intent snapshot limits opts s = .ok s') :
    (s.approved * intent.notionalPerUnit ≤ positionHeadroom snapshot limits opts ∧ s' = s) ∨
      (positionHeadroom snapshot limits opts < s.approved * intent.notionalPerUnit ∧
        intent.notionalPerUnit ≠ 0 ∧
        s'.approved = roundQty (max (positionHeadroom snapshot limits opts) 0 /
          intent.notionalPerUnit) intent.assetClass) := by
  unfold capByPosition at h
  rcases lt_or_ge (positionHeadroom snapshot limits opts) (s.approved * intent.notionalPerUnit)
    with hexceeds | hfits
  · rw [if_pos hexceeds] at h
    by_cases hunit : intent.notionalPerUnit = 0
    · rw [if_pos hunit] at h
      cases h
    · rw [if_neg hunit] at h
      cases h
      exact .inr ⟨hexceeds, hunit, rfl⟩
  · rw [if_neg hfits.not_gt] at h
    cases h
    exact .inl ⟨hfits, rfl⟩

/-- The position cap may raise a negative quantity to zero, and raises no other. -/
theorem capByPosition_le {s s' : SizingState}
    (h : capByPosition intent snapshot limits opts s = .ok s') :
    s'.approved ≤ max s.approved 0 := by
  rcases capByPosition_cases h with ⟨-, rfl⟩ | ⟨hexceeds, hunit, hcut⟩
  · exact le_max_left _ _
  rw [hcut]
  rcases lt_or_gt_of_ne hunit with hneg | hpos
  · refine (roundQty_of_nonpos ?_ _).le.trans (le_max_right _ _)
    exact div_nonpos_of_nonneg_of_nonpos (le_max_right _ _) hneg.le
  · have hlt : positionHeadroom snapshot limits opts / intent.notionalPerUnit < s.approved :=
      (div_lt_iff₀ hpos).2 hexceeds
    rw [roundQty_eq, max_zero_div hpos, floorTo_max_zero]
    exact (Sizing.floorTo_le_max (precision_pos _) _).trans (max_le_max hlt.le le_rfl)

/-- What the sizing block returns when it runs. -/
theorem sizing_ok {s : SizingState} (hequity : 0 < snapshot.totalEquity)
    (hprice : 0 < intent.price) (h : sizing intent snapshot limits opts = .ok s) :
    ∃ s', capByPosition intent snapshot limits opts
        (capByRisk intent snapshot limits opts ⟨intent.requestedQuantity, []⟩) = .ok s' ∧
      s = capByCash intent opts
        (capByExposure intent snapshot limits (capBySector intent snapshot limits s')) := by
  simp only [sizing, hequity, hprice, and_self, if_true] at h
  obtain ⟨s', hs', h⟩ := except_bind_eq_ok.1 h
  injection h with h
  exact ⟨s', hs', h.symm⟩

/-- Without equity or without a price nothing is sized. -/
theorem sizing_skipped (h : ¬ (0 < snapshot.totalEquity ∧ 0 < intent.price)) :
    sizing intent snapshot limits opts = .ok ⟨intent.requestedQuantity, []⟩ := by
  simp only [sizing, if_neg h]

theorem sizing_le {s : SizingState} (h : sizing intent snapshot limits opts = .ok s) :
    s.approved ≤ max intent.requestedQuantity 0 := by
  by_cases hrun : 0 < snapshot.totalEquity ∧ 0 < intent.price
  · obtain ⟨s', hs', rfl⟩ := sizing_ok hrun.1 hrun.2 h
    have hposition := capByPosition_le hs'
    have hrisk := capByRisk_le intent snapshot limits opts ⟨intent.requestedQuantity, []⟩
    calc (capByCash intent opts (capByExposure intent snapshot limits
            (capBySector intent snapshot limits s'))).approved
        ≤ s'.approved := (capByCash_le _ _ _).trans
          ((capByExposure_le _ _ _ _).trans (capBySector_le _ _ _ _))
      _ ≤ max intent.requestedQuantity 0 := hposition.trans (max_le_max hrisk le_rfl)
  · rw [sizing_skipped hrun] at h
    injection h with h
    exact h ▸ le_max_left _ _

/-- A positive size comes from a positive request. -/
theorem requested_pos {s : SizingState} (h : sizing intent snapshot limits opts = .ok s)
    (hpos : 0 < s.approved) : 0 < intent.requestedQuantity := by
  by_contra hq
  have hle := sizing_le h
  rw [max_eq_right (not_lt.1 hq)] at hle
  exact hpos.not_ge hle

end Shrinks

/-! ### Units without positive notional -/

section NonpositiveUnit

variable (intent : RiskCheckInput) (snapshot : PortfolioSnapshot) (limits : EntryLimits)
  (opts : RiskEvalOptions)

/-- No notional cap is exceeded by a quantity. -/
structure Fits (quantity : ℚ) : Prop where
  position : quantity * intent.notionalPerUnit ≤ positionHeadroom snapshot limits opts
  sector : quantity * intent.notionalPerUnit ≤ sectorHeadroom intent snapshot limits
  exposure : limits.maxTotalExposurePct ≠ 0 →
    quantity * intent.notionalPerUnit ≤ exposureHeadroom snapshot limits
  cash : ∀ cash ∈ opts.availableCash,
    quantity * intent.notionalPerUnit + opts.estimatedFees ≤ bufferedCash cash

variable {intent snapshot limits opts}

theorem capByHeadroom_of_not {exceeds : Prop} [Decidable exceeds] (h : ¬ exceeds) (headroom : ℚ)
    (cap : CapName) (s : SizingState) : capByHeadroom intent exceeds headroom cap s = s :=
  if_neg h

/-- Without positive notional for a unit, a headroom that is exceeded leaves nothing. -/
theorem not_exceeds_of_pos (hunit : intent.notionalPerUnit ≤ 0) {exceeds : Prop}
    [Decidable exceeds] {headroom : ℚ} {cap : CapName} {s : SizingState}
    (hpos : 0 < (capByHeadroom intent exceeds headroom cap s).approved) : ¬ exceeds := by
  intro h
  rw [capByHeadroom, if_pos h, if_neg hunit.not_gt, capTo_approved] at hpos
  exact hpos.not_ge (min_le_right _ _)

theorem capByRisk_of_nonpos (hprice : 0 < intent.price) (hunit : intent.notionalPerUnit ≤ 0)
    (s : SizingState) : (capByRisk intent snapshot limits opts s).approved = s.approved := by
  have hmult : intent.contractMultiplier ≤ 0 := nonpos_of_mul_nonpos_right hunit hprice
  have hoff : sizingStop intent limits = none := by
    refine Option.filter_eq_none_iff.2 fun stop _ => ?_
    have hrisk : intent.unitRisk stop ≤ 0 :=
      mul_nonpos_of_nonneg_of_nonpos (abs_nonneg _) hmult
    simp [hrisk]
  rw [capByRisk_approved, openRiskCap, riskCap, hoff]
  rfl

theorem capByPosition_of_nonpos (hunit : intent.notionalPerUnit ≤ 0) {s s' : SizingState}
    (h : capByPosition intent snapshot limits opts s = .ok s') (hpos : 0 < s'.approved) :
    s.approved * intent.notionalPerUnit ≤ positionHeadroom snapshot limits opts ∧ s' = s := by
  rcases capByPosition_cases h with hfits | ⟨-, -, hcut⟩
  · exact hfits
  · -- a negative unit: a headroom of at least zero is divided by it, and rounded to zero
    rw [hcut, roundQty_of_nonpos (div_nonpos_of_nonneg_of_nonpos (le_max_right _ _) hunit)] at hpos
    exact absurd hpos (lt_irrefl 0)

theorem fits_sector_of_pos (hunit : intent.notionalPerUnit ≤ 0) {s : SizingState}
    (hpos : 0 < (capBySector intent snapshot limits s).approved) :
    s.approved * intent.notionalPerUnit ≤ sectorHeadroom intent snapshot limits :=
  not_lt.1 (not_exceeds_of_pos hunit hpos)

theorem fits_exposure_of_pos (hunit : intent.notionalPerUnit ≤ 0) {s : SizingState}
    (hpos : 0 < (capByExposure intent snapshot limits s).approved)
    (hset : limits.maxTotalExposurePct ≠ 0) :
    s.approved * intent.notionalPerUnit ≤ exposureHeadroom snapshot limits := by
  rw [capByExposure, if_pos hset] at hpos
  exact not_lt.1 (not_exceeds_of_pos hunit hpos)

theorem fits_cash_of_pos (hunit : intent.notionalPerUnit ≤ 0) {s : SizingState}
    (hpos : 0 < (capByCash intent opts s).approved) (cash : ℚ)
    (hcash : cash ∈ opts.availableCash) :
    s.approved * intent.notionalPerUnit + opts.estimatedFees ≤ bufferedCash cash := by
  rw [capByCash, Option.mem_def.1 hcash] at hpos
  have hfits := not_exceeds_of_pos hunit hpos
  simpa [checkCashSufficiency] using hfits

theorem capByPosition_of_fits {s : SizingState}
    (h : s.approved * intent.notionalPerUnit ≤ positionHeadroom snapshot limits opts) :
    capByPosition intent snapshot limits opts s = .ok s :=
  if_neg h.not_gt

theorem capBySector_of_fits {s : SizingState}
    (h : s.approved * intent.notionalPerUnit ≤ sectorHeadroom intent snapshot limits) :
    capBySector intent snapshot limits s = s :=
  capByHeadroom_of_not h.not_gt _ _ s

theorem capByExposure_of_fits {s : SizingState}
    (h : limits.maxTotalExposurePct ≠ 0 →
      s.approved * intent.notionalPerUnit ≤ exposureHeadroom snapshot limits) :
    capByExposure intent snapshot limits s = s := by
  unfold capByExposure
  split
  · exact capByHeadroom_of_not (h ‹_›).not_gt _ _ s
  · rfl

theorem capByCash_of_fits {s : SizingState}
    (h : ∀ cash ∈ opts.availableCash,
      s.approved * intent.notionalPerUnit + opts.estimatedFees ≤ bufferedCash cash) :
    capByCash intent opts s = s := by
  unfold capByCash
  cases hcash : opts.availableCash with
  | none => rfl
  | some cash =>
      refine capByHeadroom_of_not ?_ _ _ s
      simpa [checkCashSufficiency] using h cash hcash

/-- **Without positive notional for a unit, sizing is all or nothing.** -/
theorem sizing_pos_iff (hequity : 0 < snapshot.totalEquity) (hprice : 0 < intent.price)
    (hunit : intent.notionalPerUnit ≤ 0) {a : ℚ} (ha : 0 < a) :
    (∃ s, sizing intent snapshot limits opts = .ok s ∧ s.approved = a) ↔
      a = intent.requestedQuantity ∧ Fits intent snapshot limits opts a := by
  have hrisk : (capByRisk intent snapshot limits opts ⟨intent.requestedQuantity, []⟩).approved =
      intent.requestedQuantity := capByRisk_of_nonpos hprice hunit _
  constructor
  · rintro ⟨s, hs, rfl⟩
    obtain ⟨s', hs', rfl⟩ := sizing_ok hequity hprice hs
    -- each later cap leaves something, so each left everything
    have hexposure := ha.trans_le (capByCash_le intent opts _)
    have hsector := hexposure.trans_le (capByExposure_le intent snapshot limits _)
    have hstart := hsector.trans_le (capBySector_le intent snapshot limits s')
    obtain ⟨hposition, rfl⟩ := capByPosition_of_nonpos hunit hs' hstart
    have hfitsSector := fits_sector_of_pos hunit hsector
    rw [capBySector_of_fits hfitsSector] at hexposure ha ⊢
    have hfitsExposure := fits_exposure_of_pos hunit hexposure
    rw [capByExposure_of_fits hfitsExposure] at ha ⊢
    have hfitsCash := fits_cash_of_pos hunit ha
    rw [capByCash_of_fits hfitsCash]
    exact ⟨hrisk, hposition, hfitsSector, hfitsExposure, hfitsCash⟩
  · rintro ⟨rfl, hfits⟩
    refine ⟨capByRisk intent snapshot limits opts ⟨intent.requestedQuantity, []⟩, ?_, hrisk⟩
    simp only [sizing, hequity, hprice, and_self, if_true]
    rw [capByPosition_of_fits (by rw [hrisk]; exact hfits.position)]
    refine congrArg Except.ok ?_
    rw [capBySector_of_fits (by rw [hrisk]; exact hfits.sector),
      capByExposure_of_fits (by rw [hrisk]; exact hfits.exposure),
      capByCash_of_fits (by rw [hrisk]; exact hfits.cash)]

end NonpositiveUnit

/-! ### Approval -/

section Approval

variable (intent : RiskCheckInput) (snapshot : PortfolioSnapshot) (limits : EntryLimits)
  (opts : RiskEvalOptions)

/-- The engine approves a quantity. -/
def Approves (snapshot : Option PortfolioSnapshot) (quantity : ℚ) : Prop :=
  ∃ d, evaluateRisk intent snapshot limits opts = .ok d ∧ d.approved = true ∧
    d.approvedQuantity = quantity

/-- What an approved quantity of an entry satisfies.  The exposure limit and the limit of the risk
of a trade are switched off by zero, and so is risk-based sizing by a stop that is not positive. -/
structure WithinCaps (quantity : ℚ) : Prop where
  pos : 0 < quantity
  requested : quantity ≤ intent.requestedQuantity
  minimum : minimumQuantity intent.assetClass ≤ quantity
  lot : limits.minLotNotional ≤ quantity * intent.notionalPerUnit
  position : quantity * intent.notionalPerUnit ≤
    limits.maxPositionPct / 100 * snapshot.totalEquity - opts.heldNotional
  sector : quantity * intent.notionalPerUnit ≤ sectorHeadroom intent snapshot limits
  exposure : limits.maxTotalExposurePct ≠ 0 → quantity * intent.notionalPerUnit ≤
    limits.maxTotalExposurePct / 100 * snapshot.totalEquity - snapshot.holdingsValue
  cash : ∀ cash ∈ opts.availableCash,
    quantity * intent.notionalPerUnit + opts.estimatedFees ≤ bufferedCash cash
  risk : ∀ stop ∈ intent.stopLoss, 0 < stop → stop ≠ intent.price →
    limits.maxRiskPerTradePct ≠ 0 →
    quantity * intent.unitRisk stop ≤ riskBudget intent snapshot limits ∧
      quantity * intent.unitRisk stop ≤
        limits.maxOpenRiskPct / 100 * snapshot.totalEquity - opts.openRisk

variable {intent snapshot limits opts}

theorem pos_of_not_belowMinimumLot {q : ℚ} (h : ¬ BelowMinimumLot intent limits q) : 0 < q :=
  (minimumQuantity_pos _).trans_le (not_lt.1 fun hlt => h (.inl hlt))

/-- **When an entry is approved, and what is approved.** -/
theorem approves_iff (hbuy : intent.side = .buy) (hentry : opts.protectiveExit = false) {q : ℚ} :
    Approves intent limits opts (some snapshot) q ↔
      opts.killSwitch = false ∧ marketReasons intent limits opts = [] ∧
        gateReasons intent limits opts snapshot = [] ∧
        (∃ s, sizing intent snapshot limits opts = .ok s ∧ s.approved = q) ∧
        ¬ BelowMinimumLot intent limits q := by
  unfold Approves evaluateRisk
  simp only [hentry, hbuy, Bool.not_false, and_true, Bool.false_eq_true, if_false]
  cases hkill : opts.killSwitch with
  | true => simp [RiskDecision.denied]
  | false =>
      simp only [evaluateEntry, Bool.false_eq_true, if_false, true_and, ne_eq,
        List.append_eq_nil_iff, not_and]
      constructor
      · rintro ⟨d, hd, happroved, rfl⟩
        split at hd
        · cases hd
          simp [RiskDecision.denied] at happroved
        · rename_i hreasons
          push Not at hreasons
          obtain ⟨s, hs, hconclude⟩ := except_bind_eq_ok.1 hd
          cases hconclude
          unfold concludeSizing at happroved ⊢
          split at happroved
          · simp [RiskDecision.denied] at happroved
          · rename_i hlot
            have hpos := pos_of_not_belowMinimumLot hlot
            rw [if_neg hlot, max_eq_right hpos.le]
            exact ⟨hreasons.1, hreasons.2, ⟨s, hs, rfl⟩, hlot⟩
      · rintro ⟨hmarket, hgate, ⟨s, hs, rfl⟩, hlot⟩
        refine ⟨concludeSizing intent limits s, ?_, ?_, ?_⟩
        · simp only [hmarket, hgate, not_true_eq_false, imp_false, ↓reduceIte, hs]
          rfl
        · rw [concludeSizing, if_neg hlot]
        · rw [concludeSizing, if_neg hlot]
          exact max_eq_right (pos_of_not_belowMinimumLot hlot).le

theorem notionalPerUnit_pos (hprice : 0 < intent.price) (hmult : 0 < intent.contractMultiplier) :
    0 < intent.notionalPerUnit :=
  mul_pos hprice hmult

/-- The stop of an entry is used for sizing when it is positive and away from the price. -/
theorem sizingStop_eq (hmult : 0 < intent.contractMultiplier) {stop : ℚ}
    (hstop : intent.stopLoss = some stop) (hpos : 0 < stop) (haway : stop ≠ intent.price)
    (hset : limits.maxRiskPerTradePct ≠ 0) :
    0 < intent.unitRisk stop ∧ sizingStop intent limits = some stop := by
  have hunit : 0 < intent.unitRisk stop :=
    mul_pos (abs_pos.2 (sub_ne_zero.2 haway.symm)) hmult
  refine ⟨hunit, ?_⟩
  simp [sizingStop, hstop, Option.filter, hpos, hset, hunit]

/-- An approved quantity is within the request and every cap, and not below the minimum. -/
theorem caps_of_approves (hbuy : intent.side = .buy) (hentry : opts.protectiveExit = false)
    (hequity : 0 < snapshot.totalEquity) (hprice : 0 < intent.price)
    (hmult : 0 < intent.contractMultiplier) {q : ℚ}
    (h : Approves intent limits opts (some snapshot) q) :
    0 < q ∧ q ≤ intent.requestedQuantity ∧ ¬ BelowMinimumLot intent limits q ∧
      ∀ c ∈ capsOf intent snapshot limits opts, c.Holds q := by
  obtain ⟨-, -, -, ⟨s, hs, rfl⟩, hlot⟩ := (approves_iff hbuy hentry).1 h
  have hp := precision_pos intent.assetClass
  have hpos := pos_of_not_belowMinimumLot hlot
  have hqty := requested_pos hs hpos
  obtain ⟨s', hs', hsize⟩ := sizing_eq snapshot limits opts hequity hprice
    (notionalPerUnit_pos hprice hmult) hqty.le
  rw [hs] at hs'
  cases hs'
  refine ⟨hpos, hsize ▸ Sizing.sizeBy_le hp _ hqty.le, hlot, ?_⟩
  rw [hsize]
  exact Sizing.sizeBy_le_bound hp hqty.le (hsize ▸ hpos)

/-- An approved quantity is within the cash, less its buffer. -/
theorem cash_of_approves (hbuy : intent.side = .buy) (hentry : opts.protectiveExit = false)
    (hequity : 0 < snapshot.totalEquity) (hprice : 0 < intent.price)
    (hmult : 0 < intent.contractMultiplier) {q : ℚ}
    (h : Approves intent limits opts (some snapshot) q) :
    ∀ cash ∈ opts.availableCash, q * intent.notionalPerUnit + opts.estimatedFees ≤
      bufferedCash cash := by
  intro cash hmem
  obtain ⟨-, -, -, hbound⟩ := caps_of_approves hbuy hentry hequity hprice hmult h
  have hcash := hbound (cashCap intent opts) (by simp [capsOf])
  rw [cashCap, Option.mem_def.1 hmem] at hcash
  exact le_sub_iff_add_le.1 ((le_div_iff₀ (notionalPerUnit_pos hprice hmult)).1 hcash)

/-- **An approved entry respects every cap at once.** -/
theorem approved_withinCaps (hbuy : intent.side = .buy) (hentry : opts.protectiveExit = false)
    (hequity : 0 < snapshot.totalEquity) (hprice : 0 < intent.price)
    (hmult : 0 < intent.contractMultiplier) {q : ℚ}
    (h : Approves intent limits opts (some snapshot) q) :
    WithinCaps intent snapshot limits opts q := by
  obtain ⟨hpos, hrequested, hlot, hbound⟩ := caps_of_approves hbuy hentry hequity hprice hmult h
  have hunit := notionalPerUnit_pos hprice hmult
  simp only [capsOf, List.forall_mem_cons, List.not_mem_nil, false_imp_iff, implies_true,
    and_true] at hbound
  obtain ⟨hrisk, hopen, hposition, hsector, hexposure, -⟩ := hbound
  exact {
    pos := hpos
    requested := hrequested
    minimum := not_lt.1 fun hlt => hlot (.inl hlt)
    lot := not_lt.1 fun hlt => hlot (.inr ⟨hunit, hlt⟩)
    position := (le_div_iff₀ hunit).1 hposition
    sector := (le_div_iff₀ hunit).1 hsector
    exposure := by
      intro hset
      rw [exposureCap, if_pos hset] at hexposure
      exact (le_div_iff₀ hunit).1 hexposure
    cash := cash_of_approves hbuy hentry hequity hprice hmult h
    risk := by
      intro stop hstop hstopPos haway hset
      obtain ⟨hunitRisk, hused⟩ := sizingStop_eq hmult (Option.mem_def.1 hstop) hstopPos haway hset
      rw [riskCap, hused] at hrisk
      rw [openRiskCap, hused] at hopen
      have hleft : q * intent.unitRisk stop ≤ max (remainingRisk snapshot limits opts) 0 :=
        (le_div_iff₀ hunitRisk).1 hopen
      have hsome : 0 < q * intent.unitRisk stop := mul_pos hpos hunitRisk
      refine ⟨(le_div_iff₀ hunitRisk).1 hrisk, ?_⟩
      -- a budget that is used up would leave nothing
      rcases le_max_iff.1 hleft with hleft | hzero
      · exact hleft
      · exact absurd hzero hsome.not_ge }

end Approval

/-! ### A limit that is switched off -/

/-- A profile whose limits are all set. -/
def sampleLimits : EntryLimits where
  maxPositionPct := 10
  maxSectorPct := 50
  minConfidence := 60
  stopLossPct := 5
  maxDailyTrades := 10
  maxOpenPositions := 10
  maxDailyLossPct := 5
  spreadLimitPct := 1
  slippageLimitPct := 1
  maxRiskPerTradePct := 1
  maxTotalExposurePct := 60
  maxSimultaneousOrders := 5
  maxOpenRiskPct := 6
  maxEntriesPerSymbolPerDay := 2
  maxCostToRiskPct := 20
  valid := by decide +kernel

/-- The same profile without a limit of total exposure and without one of the risk of a trade. -/
def openLimits : EntryLimits :=
  { sampleLimits with
    maxTotalExposurePct := 0
    maxRiskPerTradePct := 0
    valid := by decide +kernel }

/-- A purchase of a share at 100 with its stop at 95. -/
def sampleEntry : RiskCheckInput where
  symbol := "ACME"
  assetClass := .equity
  side := .buy
  requestedQuantity := 5
  price := 100
  stopLoss := some 95
  sector := "Technology"

/-- A tight quote, a slippage estimate and cash. -/
def sampleOptions : RiskEvalOptions where
  bid := some (999 / 10)
  ask := some 100
  estimatedSlippagePct := some 0
  availableCash := some 10000

/-- An account of ten thousand with nothing in it. -/
def emptyAccount : PortfolioSnapshot where
  totalEquity := 10000
  holdingsValue := 0

/-- An entry that is approved as requested, and is within every cap. -/
theorem approved_withinCaps_sampleEntry :
    WithinCaps sampleEntry emptyAccount sampleLimits sampleOptions 5 :=
  approved_withinCaps rfl rfl (by decide +kernel) (by decide +kernel) (by decide +kernel)
    ⟨⟨true, 5, [.ok]⟩, by decide +kernel, rfl, rfl⟩

/-- The same purchase with a stop below zero. -/
def deepStopEntry : RiskCheckInput := { sampleEntry with stopLoss := some (-5) }

/-- The same, where all that may be at risk is at risk already. -/
def exposedOptions : RiskEvalOptions := { sampleOptions with openRisk := 600 }

/-- **A limit of zero is no limit, and a stop below zero is no stop**: entries are approved beyond
the exposure computed from a limit of zero, beyond the budget of a trade and the open risk where
that budget is zero, and beyond the budget of a trade whose stop is not positive. -/
theorem approved_beyond_zero_limits :
    (0 < emptyAccount.totalEquity ∧ exposedOptions.protectiveExit = false ∧
        sampleOptions.protectiveExit = false) ∧
      (Approves sampleEntry openLimits exposedOptions (some emptyAccount) 5 ∧
        sampleEntry.side = .buy ∧ 0 < sampleEntry.price ∧ 0 < sampleEntry.contractMultiplier ∧
        ¬ 5 * sampleEntry.notionalPerUnit ≤
          openLimits.maxTotalExposurePct / 100 * emptyAccount.totalEquity -
            emptyAccount.holdingsValue ∧
        ¬ 5 * sampleEntry.unitRisk 95 ≤ riskBudget sampleEntry emptyAccount openLimits ∧
        ¬ 5 * sampleEntry.unitRisk 95 ≤
          openLimits.maxOpenRiskPct / 100 * emptyAccount.totalEquity - exposedOptions.openRisk) ∧
      (Approves deepStopEntry sampleLimits sampleOptions (some emptyAccount) 5 ∧
        deepStopEntry.side = .buy ∧ 0 < deepStopEntry.price ∧
        0 < deepStopEntry.contractMultiplier ∧ deepStopEntry.stopLoss = some (-5) ∧
        ¬ 5 * deepStopEntry.unitRisk (-5) ≤ riskBudget deepStopEntry emptyAccount sampleLimits) :=
  ⟨by decide +kernel, ⟨⟨⟨true, 5, [.ok]⟩, by decide +kernel, rfl, rfl⟩, by decide +kernel⟩,
    ⟨⟨true, 5, [.ok]⟩, by decide +kernel, rfl, rfl⟩, by decide +kernel⟩

end TradePulse.Risk
