/-
**What is tradable.**

Three functions read the order rules of an asset, each in its own words: shaping rounds a quantity
down to what may be ordered, the protective exit of a position must be such an order, and both parts
of a scale-out must be.  They agree: what one of them hands out, the others accept.

A scale-out compares the value of a part with that of the smallest order, so where a unit stands for
more than one of the underlying the parts of a crypto position may be smaller than the smallest
order.

Main definitions:

* `wholeUnitsOnly`, `scaleOutFeasible` — the parts of a scale-out.

Main results:

* `shapeQuantity_within`, `shapeQuantity_again` — less than one unit is cut off, and once;
* `exitShapeRefusal_shaped`, `exitShapeRefusal_scaledOut` — **shaped quantities and feasible parts
  are never refused for their shape**;
* `shaping_agrees` — the three together;
* `scaleOut_below_minimum` — a part of a crypto position with a multiplier.
-/

import TradePulse.Dbae.Policy

set_option autoImplicit false

namespace TradePulse.Dbae

/-! ### Scaling out -/

/-- Unknown evidence never grants fractions; crypto follows its own increment. -/
def wholeUnitsOnly (asset : Option AssetTradingCapabilities) (assetClass : AssetClass) : Bool :=
  if assetClass = .crypto then false
  else !(asset.any fun a => a.fractionable == some true)

/-- Both parts on the increment of a crypto asset, where that is known. -/
def onCryptoIncrement (asset : Option AssetTradingCapabilities) (part rest : ℚ) : Bool :=
  match asset with
  | none => false
  | some a =>
      match a.minTradeIncrement with
      | none => false
      | some increment =>
          decide (0 < increment) && positive a.minOrderSize && onIncrement part increment &&
            onIncrement rest increment

/-- What each part must be worth. -/
def scaleOutThreshold (asset : Option AssetTradingCapabilities) (price : ℚ) : ℚ :=
  match asset with
  | none => 1
  | some a => liquidationThreshold a price

/-- Both parts at least the asset minimum, on the increment for crypto, and whole for an asset that
is not verified fractionable. -/
def scaleOutFeasible (asset : Option AssetTradingCapabilities) (assetClass : AssetClass)
    (contractMultiplier part rest price : ℚ) : Bool :=
  if part ≤ 0 ∨ rest ≤ 0 then false
  else if wholeUnitsOnly asset assetClass && !(isWhole part && isWhole rest) then false
  else if assetClass = .crypto ∧ onCryptoIncrement asset part rest = false then false
  else
    [part, rest].all fun leg =>
      decide (scaleOutThreshold asset price ≤ leg * price * contractMultiplier)

section Floor

variable {qty increment q : ℚ}

/-- What is rounded down is a multiple of the increment, less than one increment away. -/
theorem floorToIncrement_spec (h : floorToIncrement qty increment = .ok q) :
    0 < increment ∧ q = ⌊qty / increment⌋ * increment ∧ qty - q < increment := by
  have hpos := (floorToIncrement_ok h).1
  rw [floorToIncrement, if_neg hpos.not_ge] at h
  obtain rfl := Except.ok.inj h
  refine ⟨hpos, rfl, ?_⟩
  have hlt : qty < (⌊qty / increment⌋ + 1) * increment :=
    (div_lt_iff₀ hpos).1 (Int.lt_floor_add_one _)
  linarith

theorem onIncrement_floor (h : floorToIncrement qty increment = .ok q) :
    onIncrement q increment = true := by
  obtain ⟨hpos, rfl, -⟩ := floorToIncrement_spec h
  rw [onIncrement, mul_div_cancel_right₀ _ hpos.ne', isWhole]
  simp

theorem floorToIncrement_again (h : floorToIncrement qty increment = .ok q) :
    floorToIncrement q increment = .ok q := by
  obtain ⟨hpos, rfl, -⟩ := floorToIncrement_spec h
  rw [floorToIncrement, if_neg hpos.not_ge, mul_div_cancel_right₀ _ hpos.ne', Int.floor_intCast]

theorem isWhole_floor (h : floorToIncrement qty 1 = .ok q) : isWhole q = true := by
  have hon := onIncrement_floor h
  rwa [onIncrement, div_one] at hon

end Floor

/-! ### Shaping and the protective exit -/

/-- What a quantity of an asset is rounded to. -/
def orderUnit (asset : AssetTradingCapabilities) (assetClass : AssetClass) : ℚ :=
  if assetClass = .crypto then asset.minTradeIncrement.getD 1 else 1

section Shaping

variable {policy : ExecutionPolicy} {asset : AssetTradingCapabilities} {assetClass : AssetClass}
  {approvedQty : ℚ} {shaped : ShapedQuantity}

/-- The three ways in which a quantity is shaped without a refusal. -/
inductive Shaped (policy : ExecutionPolicy) (asset : AssetTradingCapabilities)
    (assetClass : AssetClass) (approvedQty : ℚ) (shaped : ShapedQuantity) : Prop
  | crypto (increment minimum : ℚ) (hclass : assetClass = .crypto)
      (hincrement : asset.minTradeIncrement = some increment)
      (hminimum : asset.minOrderSize = some minimum) (hpos : 0 < increment ∧ 0 < minimum)
      (hfloor : floorToIncrement approvedQty increment = .ok shaped.quantity)
      (hle : minimum ≤ shaped.quantity) (hrule : shaped = ⟨shaped.quantity, .cryptoIncrement, none⟩)
  | fractional (hclass : assetClass = .equity) (hallowed : policy.fractionalAllowed = true)
      (hshaped : shaped = ⟨approvedQty, .unchanged, none⟩)
  | whole (hclass : assetClass ≠ .crypto)
      (hwhole : ¬ (assetClass = .equity ∧ policy.fractionalAllowed = true))
      (hfloor : floorToIncrement approvedQty 1 = .ok shaped.quantity) (hne : shaped.quantity ≠ 0)
      (hrule : shaped = ⟨shaped.quantity, .wholeShares, none⟩)

theorem shaped_of_ok (h : shapeQuantity policy asset assetClass approvedQty = .ok shaped)
    (hrefusal : shaped.refusal = none) : Shaped policy asset assetClass approvedQty shaped := by
  obtain ⟨_, -, h⟩ := except_bind_eq_ok.1 h
  split at h
  · rename_i hcrypto
    split at h
    · rename_i increment minimum hincrement hminimum
      split at h
      · rename_i hpos
        obtain ⟨floored, hfloor, h⟩ := except_bind_eq_ok.1 h
        split at h
        · obtain rfl := Except.ok.inj h
          cases hrefusal
        · rename_i hle
          obtain rfl := Except.ok.inj h
          exact .crypto increment minimum hcrypto hincrement hminimum hpos hfloor (not_lt.1 hle) rfl
      · obtain rfl := Except.ok.inj h
        cases hrefusal
    · obtain rfl := Except.ok.inj h
      cases hrefusal
  · rename_i hcrypto
    split at h
    · rename_i hfractional
      exact .fractional hfractional.1 hfractional.2 (Except.ok.inj h).symm
    · rename_i hwhole
      obtain ⟨whole, hfloor, h⟩ := except_bind_eq_ok.1 h
      split at h
      · obtain rfl := Except.ok.inj h
        cases hrefusal
      · rename_i hne
        obtain rfl := Except.ok.inj h
        exact .whole hcrypto hwhole hfloor hne rfl

theorem shapeQuantity_within (h : shapeQuantity policy asset assetClass approvedQty = .ok shaped)
    (hrefusal : shaped.refusal = none) :
    approvedQty - shaped.quantity < orderUnit asset assetClass := by
  cases shaped_of_ok h hrefusal with
  | crypto increment minimum hclass hincrement hminimum hpos hfloor hle hrule =>
      rw [orderUnit, if_pos hclass, hincrement, Option.getD_some]
      exact (floorToIncrement_spec hfloor).2.2
  | fractional hclass hallowed hshaped =>
      rw [hshaped, sub_self, orderUnit, if_neg (by simp [hclass])]
      exact one_pos
  | whole hclass hwhole hfloor hne hrule =>
      rw [orderUnit, if_neg hclass]
      exact (floorToIncrement_spec hfloor).2.2

/-- **A shaped quantity is never refused for its shape.** -/
theorem exitShapeRefusal_shaped
    (h : shapeQuantity policy asset assetClass approvedQty = .ok shaped)
    (hrefusal : shaped.refusal = none) :
    exitShapeRefusal policy asset assetClass shaped.quantity = none := by
  unfold exitShapeRefusal
  cases shaped_of_ok h hrefusal with
  | crypto increment minimum hclass hincrement hminimum hpos hfloor hle hrule =>
      simp only [hclass, if_true, hincrement, hminimum, hpos, onIncrement_floor hfloor]
      simp [not_lt.2 hle]
  | fractional hclass hallowed hshaped =>
      simp [hclass, hallowed]
  | whole hclass hwhole hfloor hne hrule =>
      simp [hclass, isWhole_floor hfloor]

/-- Shaping a shaped quantity changes nothing. -/
theorem shapeQuantity_again (h : shapeQuantity policy asset assetClass approvedQty = .ok shaped)
    (hrefusal : shaped.refusal = none) :
    shapeQuantity policy asset assetClass shaped.quantity = .ok shaped := by
  have hpos := (shapeQuantity_ok h hrefusal).2.1
  obtain ⟨_, hshapable, -⟩ := except_bind_eq_ok.1 h
  have hallowed := (requireShapable_ok hshapable).1
  have hagain : requireShapable policy shaped.quantity = .ok () :=
    except_bind_eq_ok.2 ⟨(), raiseIf_eq_ok_iff.2 (by simp [hallowed]),
      raiseIf_eq_ok_iff.2 (not_le.2 hpos)⟩
  simp only [shapeQuantity, hagain, bind, Except.bind]
  cases shaped_of_ok h hrefusal with
  | crypto increment minimum hclass hincrement hminimum hpositive hfloor hle hrule =>
      simp only [hclass, if_true, hincrement, hminimum, hpositive, and_self,
        floorToIncrement_again hfloor, not_lt.2 hle, if_false]
      rw [← hrule]
  | fractional hclass hfractional hshaped =>
      rw [hshaped]
      simp [hclass, hfractional]
  | whole hclass hwhole hfloor hne hrule =>
      simp only [hclass, if_false, hwhole, floorToIncrement_again hfloor, hne]
      rw [← hrule]

end Shaping

/-- An exit whose shape is fine is refused for its value only. -/
theorem exitFeasible_value {policy : ExecutionPolicy} {asset : AssetTradingCapabilities}
    {proposal : EntryProposal} {qty : ℚ} {refusal : String}
    (hshape : exitShapeRefusal policy asset proposal.asset.assetClass qty = none)
    (h : exitFeasible policy asset proposal qty = .ok (some refusal)) :
    refusal = "DBAE_SUB_MINIMUM_LIQUIDATION_UNVERIFIED" := by
  obtain ⟨_, -, h⟩ := except_bind_eq_ok.1 h
  rw [hshape] at h
  obtain ⟨m, -, h⟩ := except_bind_eq_ok.1 h
  dsimp only at h
  split at h
  · cases h
  · split at h
    · cases h
    · exact (Option.some.inj (Except.ok.inj h)).symm

/-! ### Parts of a scale-out as positions -/

section ScaleOut

variable {asset : Option AssetTradingCapabilities} {caps : AssetTradingCapabilities}
  {assetClass : AssetClass} {contractMultiplier part rest price : ℚ} {policy : ExecutionPolicy}

theorem onCryptoIncrement_iff : onCryptoIncrement asset part rest = true ↔
    ∃ a increment, asset = some a ∧ a.minTradeIncrement = some increment ∧ 0 < increment ∧
      positive a.minOrderSize = true ∧ onIncrement part increment = true ∧
      onIncrement rest increment = true := by
  unfold onCryptoIncrement
  cases asset with
  | none => simp
  | some a =>
      cases hincrement : a.minTradeIncrement with
      | none => simp [hincrement]
      | some increment => simp [hincrement, and_assoc]

/-- What a feasible scale-out says of its parts. -/
structure Splits (asset : Option AssetTradingCapabilities) (assetClass : AssetClass)
    (contractMultiplier part rest price : ℚ) : Prop where
  part_pos : 0 < part
  rest_pos : 0 < rest
  whole : wholeUnitsOnly asset assetClass = true → isWhole part = true ∧ isWhole rest = true
  increment : assetClass = .crypto → onCryptoIncrement asset part rest = true
  worth : ∀ leg ∈ [part, rest],
    scaleOutThreshold asset price ≤ leg * price * contractMultiplier

theorem scaleOutFeasible_iff :
    scaleOutFeasible asset assetClass contractMultiplier part rest price = true ↔
      Splits asset assetClass contractMultiplier part rest price := by
  unfold scaleOutFeasible
  constructor
  · intro h
    split at h
    · cases h
    rename_i hpos
    split at h
    · cases h
    rename_i hwhole
    split at h
    · cases h
    rename_i hincrement
    push Not at hpos hincrement
    refine ⟨hpos.1, hpos.2, fun honly => ?_, fun hcrypto => by simpa using hincrement hcrypto,
      fun leg hleg => of_decide_eq_true (List.all_eq_true.1 h leg hleg)⟩
    simpa [honly] using hwhole
  · intro h
    rw [if_neg (by push Not; exact ⟨h.part_pos, h.rest_pos⟩), if_neg, if_neg]
    · exact List.all_eq_true.2 fun leg hleg => decide_eq_true (h.worth leg hleg)
    · rintro ⟨hcrypto, hnot⟩
      rw [h.increment hcrypto] at hnot
      cases hnot
    · intro hnot
      simp only [Bool.and_eq_true, Bool.not_eq_true'] at hnot
      obtain ⟨hpart, hrest⟩ := h.whole hnot.1
      rw [hpart, hrest] at hnot
      cases hnot.2

theorem Splits.symm (h : Splits asset assetClass contractMultiplier part rest price) :
    Splits asset assetClass contractMultiplier rest part price where
  part_pos := h.rest_pos
  rest_pos := h.part_pos
  whole honly := (h.whole honly).symm
  increment hcrypto := by
    obtain ⟨a, increment, ha, hincrement, hpos, hminimum, hpart, hrest⟩ :=
      onCryptoIncrement_iff.1 (h.increment hcrypto)
    exact onCryptoIncrement_iff.2 ⟨a, increment, ha, hincrement, hpos, hminimum, hrest, hpart⟩
  worth leg hleg := h.worth leg (by simpa [or_comm] using hleg)

/-- A part that is worth the smallest order is no smaller than it, where a unit stands for at most
one of the underlying. -/
theorem le_of_worth {minimum leg : ℚ} (hleg : 0 < leg)
    (hmultiplier : 0 < contractMultiplier ∧ contractMultiplier ≤ 1)
    (hworth : max 1 (minimum * price) ≤ leg * price * contractMultiplier) : minimum ≤ leg := by
  obtain ⟨hpositive, hone⟩ := hmultiplier
  obtain ⟨hdollar, hminimum⟩ := max_le_iff.1 hworth
  have hprice : 0 < price := by
    have hvalue : 0 < leg * price * contractMultiplier := one_pos.trans_le hdollar
    rw [mul_right_comm] at hvalue
    exact pos_of_mul_pos_right hvalue (mul_pos hleg hpositive).le
  have hnotional : leg * price * contractMultiplier ≤ leg * price :=
    mul_le_of_le_one_right (mul_pos hleg hprice).le hone
  exact le_of_mul_le_mul_right (hminimum.trans hnotional) hprice

/-- **A feasible part is never refused for its shape.** -/
theorem exitShapeRefusal_scaledOut
    (h : Splits asset assetClass contractMultiplier part rest price)
    (hcaps : ∀ a ∈ asset, a = caps)
    (hfractional : policy.fractionalAllowed = asset.any fun a => a.fractionable == some true)
    (hmultiplier : assetClass = .crypto → 0 < contractMultiplier ∧ contractMultiplier ≤ 1) :
    exitShapeRefusal policy caps assetClass part = none := by
  unfold exitShapeRefusal
  by_cases hcrypto : assetClass = .crypto
  · rw [if_pos hcrypto]
    obtain ⟨a, increment, rfl, hincrement, hpos, hpositive, hpart, -⟩ :=
      onCryptoIncrement_iff.1 (h.increment hcrypto)
    obtain rfl := hcaps a rfl
    cases hminimum : a.minOrderSize with
    | none =>
        rw [hminimum] at hpositive
        cases hpositive
    | some minimum =>
        have hminpos : 0 < minimum := by simpa [positive, hminimum] using hpositive
        have hworth : max 1 (minimum * price) ≤ part * price * contractMultiplier := by
          simpa only [scaleOutThreshold, liquidationThreshold, hminimum] using
            h.worth part (by simp)
        have hle : minimum ≤ part := le_of_worth h.part_pos (hmultiplier hcrypto) hworth
        simp [hincrement, hpos, hminpos, hpart, not_lt.2 hle]
  · rw [if_neg hcrypto, if_neg]
    intro hnot
    simp only [Bool.and_eq_true, Bool.not_eq_true'] at hnot
    obtain ⟨hfraction, hdisallowed⟩ := hnot
    -- without fractions both parts are whole
    have honly : wholeUnitsOnly asset assetClass = true := by
      rw [wholeUnitsOnly, if_neg hcrypto, ← hfractional, hdisallowed]
      rfl
    rw [(h.whole honly).1] at hfraction
    cases hfraction

end ScaleOut

/-- **Shaping, the protective exit and scale-out agree on what is tradable.**  A shaped quantity is
positive, less than one unit below the approved one, refused as an exit for its value only, and
shaped already; the parts of a feasible scale-out, where a unit of a crypto asset stands for at most
one of the underlying, are exits that are not refused for their shape. -/
theorem shaping_agrees (asset : AssetTradingCapabilities) (assetClass : AssetClass) :
    (∀ (policy : ExecutionPolicy) (approvedQty : ℚ) (shaped : ShapedQuantity),
      policy.allowed = true → 0 < approvedQty →
      shapeQuantity policy asset assetClass approvedQty = .ok shaped → shaped.refusal = none →
        0 < shaped.quantity ∧ shaped.quantity ≤ approvedQty ∧
        approvedQty - shaped.quantity < orderUnit asset assetClass ∧
        (∀ (proposal : EntryProposal) (refusal : String), proposal.asset.assetClass = assetClass →
          exitFeasible policy asset proposal shaped.quantity = .ok (some refusal) →
            refusal = "DBAE_SUB_MINIMUM_LIQUIDATION_UNVERIFIED") ∧
        shapeQuantity policy asset assetClass shaped.quantity = .ok shaped) ∧
    (∀ (known : Option AssetTradingCapabilities) (contractMultiplier part rest price : ℚ)
      (policy : ExecutionPolicy), (∀ a ∈ known, a = asset) →
      (assetClass = .crypto → 0 < contractMultiplier ∧ contractMultiplier ≤ 1) →
      policy.fractionalAllowed = (known.any fun a => a.fractionable == some true) →
      scaleOutFeasible known assetClass contractMultiplier part rest price = true →
        exitShapeRefusal policy asset assetClass part = none ∧
        exitShapeRefusal policy asset assetClass rest = none) := by
  constructor
  · intro policy approvedQty shaped _ _ hshaped hrefusal
    obtain ⟨-, hpos, hle⟩ := shapeQuantity_ok hshaped hrefusal
    refine ⟨hpos, hle, shapeQuantity_within hshaped hrefusal,
      fun proposal refusal hclass hexit => ?_, shapeQuantity_again hshaped hrefusal⟩
    refine exitFeasible_value ?_ hexit
    rw [hclass]
    exact exitShapeRefusal_shaped hshaped hrefusal
  · intro known contractMultiplier part rest price policy hknown hmultiplier hfractional hfeasible
    have hsplits := scaleOutFeasible_iff.1 hfeasible
    exact ⟨exitShapeRefusal_scaledOut hsplits hknown hfractional hmultiplier,
      exitShapeRefusal_scaledOut hsplits.symm hknown hfractional hmultiplier⟩

/-- A coin that is ordered in tenths, from one and a half on. -/
def coin : AssetTradingCapabilities where
  active := some true
  tradable := some true
  fractionable := some true
  minOrderSize := some (3 / 2)
  minTradeIncrement := some (1 / 10)
  receivedAt := 0

def cryptoPolicy : ExecutionPolicy := ⟨true, [], .full, some 5000, true⟩

theorem shaping_agrees_coin :
    shapeQuantity cryptoPolicy coin .crypto 2 = .ok ⟨2, .cryptoIncrement, none⟩ ∧
      exitShapeRefusal cryptoPolicy coin .crypto (3 / 2) = none := by
  have hshaped : shapeQuantity cryptoPolicy coin .crypto (41 / 20) =
      .ok ⟨2, .cryptoIncrement, none⟩ := by decide +kernel
  have hagrees := shaping_agrees coin .crypto
  refine ⟨(hagrees.1 cryptoPolicy (41 / 20) _ rfl (by decide +kernel) hshaped rfl).2.2.2.2, ?_⟩
  exact (hagrees.2 (some coin) 1 (3 / 2) 2 10 cryptoPolicy (by simp) (fun _ => by decide +kernel)
    rfl (by decide +kernel)).1

/-- **A part of a crypto position may be smaller than the smallest order, where a unit stands for
more than one of the underlying.** -/
theorem scaleOut_below_minimum :
    contractMultiplierOf ⟨"COIN/USD", .crypto, "COIN/USD", none, some 2⟩ = .ok 2 ∧
      scaleOutFeasible (some coin) .crypto 2 1 2 10 = true ∧
      exitShapeRefusal cryptoPolicy coin .crypto 1 = some "DBAE_BELOW_ASSET_MINIMUM" ∧
      cryptoPolicy.fractionalAllowed = (coin.fractionable == some true) :=
  ⟨rfl, by decide +kernel, by decide +kernel, rfl⟩

end TradePulse.Dbae
