/-
**FIFO planning of a fill against signed lots** (`settlement/lots.py`).

An opposite-direction fill closes existing lots oldest first, and the quantity that no lot takes
opens a position in the fill's own direction.  A fill that is planned again after a crash counts
what it already closed and opened as spent.

Main definitions:

* `LotClosure`, `SignedLotPlan`, `planSignedLotFill`.

Main results:

* `planClosures_total` — the planned closures and what is left make up the quantity to close;
* `planSignedLotFill_closure` — what a planned closure says about its lot;
* `planSignedLotFill_total` — the plan spends exactly what the fill has not spent yet;
* `planSignedLotFill_realized` — the profit of a plan.
-/

import TradePulse.Models.Settlement
import Mathlib.Data.List.Sort
import Mathlib.Tactic.Linarith

set_option autoImplicit false

namespace TradePulse

structure LotClosure where
  lot : PositionLot
  quantity : ℚ
  pnl : ℚ

structure SignedLotPlan where
  openingDirection : PositionSide
  closures : List LotClosure
  openingQuantity : ℚ
  realizedPnl : ℚ

/-- The gross price profit of closing `quantity` of a lot at `price`. -/
def closurePnl (lot : PositionLot) (price quantity multiplier : ℚ) : ℚ :=
  match lot.positionSide with
  | .long => (price - lot.acquisitionPrice) * quantity * multiplier
  | .short => (lot.acquisitionPrice - price) * quantity * multiplier

/-- Close lots in the given order until the quantity is used up. -/
def planClosures (price multiplier : ℚ) : List PositionLot → ℚ → List LotClosure × ℚ
  | [], remaining => ([], remaining)
  | lot :: lots, remaining =>
      if remaining ≤ 0 then ([], remaining)
      else
        let quantity := min lot.remainingQuantity remaining
        if quantity ≤ 0 then planClosures price multiplier lots remaining
        else
          let rest := planClosures price multiplier lots (remaining - quantity)
          (⟨lot, quantity, closurePnl lot price quantity multiplier⟩ :: rest.1, rest.2)

/-- What the lots say a fill already closed. -/
def alreadyClosed (lots : List PositionLot) (fillId : String) : ℚ :=
  (lots.map fun l => (l.closures.lookup fillId).getD 0).sum

/-- What the lots say a fill already opened in its own direction. -/
def alreadyOpened (lots : List PositionLot) (fillId : String) (direction : PositionSide) : ℚ :=
  ((lots.filter fun l => l.originatingFillId = fillId && l.positionSide = direction).map
    fun l => l.openedQuantity).sum

/-- The direction in which a fill opens. -/
def openingDirection (side : Side) : PositionSide := if side = .buy then .long else .short

/-- The direction of the lots a fill closes. -/
def closingDirection (side : Side) : PositionSide := if side = .buy then .short else .long

/-- The lots a fill closes, oldest first. -/
def oppositeLots (lots : List PositionLot) (side : Side) : List PositionLot :=
  (lots.filter fun l => l.positionSide = closingDirection side && l.isOpen).insertionSort
    fun a b => a.openedAt ≤ b.openedAt

/-- Plan a fill against the lots of its instrument. -/
def planSignedLotFill (lots : List PositionLot) (event : SettlementEvent) :
    Except Raised SignedLotPlan := do
  let multiplier ← contractMultiplierOf event.asset
  let closed := alreadyClosed lots event.fillId
  let realized := (lots.map fun l =>
    (l.closures.lookup event.fillId).elim 0 fun q => closurePnl l event.price q multiplier).sum
  let opened := alreadyOpened lots event.fillId (openingDirection event.side)
  raiseIf (event.quantity < closed + opened)
    (.integrityViolation "INTEGRITY_VIOLATION: FILL_EVENT_OVERALLOCATED")
  let plan := planClosures event.price multiplier (oppositeLots lots event.side)
    (event.quantity - closed - opened)
  return { openingDirection := openingDirection event.side
           closures := plan.1
           openingQuantity := if 0 < plan.2 then plan.2 else 0
           realizedPnl := realized + (plan.1.map fun c => c.pnl).sum }

/-! ### What a plan promises -/

theorem planClosures_total (price multiplier : ℚ) (lots : List PositionLot) (remaining : ℚ) :
    ((planClosures price multiplier lots remaining).1.map fun c => c.quantity).sum
      + (planClosures price multiplier lots remaining).2 = remaining := by
  induction lots generalizing remaining with
  | nil => simp [planClosures]
  | cons lot lots ih =>
      simp only [planClosures]
      split
      · simp
      · split
        · exact ih remaining
        · have hrest := ih (remaining - min lot.remainingQuantity remaining)
          simp only [List.map_cons, List.sum_cons]
          linarith

/-- What is left after the closures is not negative. -/
theorem planClosures_rest_nonneg (price multiplier : ℚ) (lots : List PositionLot)
    (remaining : ℚ) (h : 0 ≤ remaining) :
    0 ≤ (planClosures price multiplier lots remaining).2 := by
  induction lots generalizing remaining with
  | nil => simpa [planClosures] using h
  | cons lot lots ih =>
      simp only [planClosures]
      split
      · exact h
      · split
        · exact ih remaining h
        · refine ih _ ?_
          have hmin := min_le_right lot.remainingQuantity remaining
          linarith

/-- A planned closure takes a positive quantity that its lot still holds, at its profit. -/
theorem planClosures_closure {price multiplier : ℚ} {lots : List PositionLot} {remaining : ℚ}
    {c : LotClosure} (hc : c ∈ (planClosures price multiplier lots remaining).1) :
    c.lot ∈ lots ∧ 0 < c.quantity ∧ c.quantity ≤ c.lot.remainingQuantity ∧
      c.pnl = closurePnl c.lot price c.quantity multiplier := by
  induction lots generalizing remaining with
  | nil => simp [planClosures] at hc
  | cons lot lots ih =>
      simp only [planClosures] at hc
      split at hc
      · simp at hc
      · split at hc
        · obtain ⟨hmem, hrest⟩ := ih hc
          exact ⟨List.mem_cons_of_mem _ hmem, hrest⟩
        · rename_i hpos
          rcases List.mem_cons.1 hc with rfl | hc
          · exact ⟨List.mem_cons_self, not_le.1 hpos, min_le_left _ _, rfl⟩
          · obtain ⟨hmem, hrest⟩ := ih hc
            exact ⟨List.mem_cons_of_mem _ hmem, hrest⟩

/-- The lots that are closed stand in the given order. -/
theorem planClosures_sublist (price multiplier : ℚ) (lots : List PositionLot) (remaining : ℚ) :
    ((planClosures price multiplier lots remaining).1.map fun c => c.lot).Sublist lots := by
  induction lots generalizing remaining with
  | nil => simp [planClosures]
  | cons lot lots ih =>
      simp only [planClosures]
      split
      · exact List.nil_sublist _
      · split
        · exact (ih remaining).cons lot
        · exact (ih _).cons_cons lot

theorem oppositeLots_subperm (lots : List PositionLot) (side : Side) :
    (oppositeLots lots side).Subperm lots :=
  (List.perm_insertionSort _ _).subperm.trans List.filter_sublist.subperm

theorem mem_oppositeLots {lots : List PositionLot} {side : Side} {l : PositionLot} :
    l ∈ oppositeLots lots side ↔
      l ∈ lots ∧ l.positionSide = closingDirection side ∧ l.isOpen = true := by
  simp [oppositeLots, List.mem_insertionSort]

section Plan

variable {lots : List PositionLot} {event : SettlementEvent} {plan : SignedLotPlan}

theorem planSignedLotFill_ok (h : planSignedLotFill lots event = .ok plan) :
    ∃ multiplier, contractMultiplierOf event.asset = .ok multiplier ∧
      alreadyClosed lots event.fillId
        + alreadyOpened lots event.fillId (openingDirection event.side) ≤ event.quantity ∧
      plan.openingDirection = openingDirection event.side ∧
      plan.closures = (planClosures event.price multiplier (oppositeLots lots event.side)
        (event.quantity - alreadyClosed lots event.fillId
          - alreadyOpened lots event.fillId (openingDirection event.side))).1 ∧
      plan.openingQuantity = (planClosures event.price multiplier (oppositeLots lots event.side)
        (event.quantity - alreadyClosed lots event.fillId
          - alreadyOpened lots event.fillId (openingDirection event.side))).2 := by
  obtain ⟨multiplier, hm, h⟩ := except_bind_eq_ok.1 h
  obtain ⟨_, hle, h⟩ := except_bind_eq_ok.1 h
  rw [raiseIf_eq_ok_iff, not_lt] at hle
  cases h
  refine ⟨multiplier, hm, hle, rfl, rfl, ?_⟩
  have hrest := planClosures_rest_nonneg event.price multiplier (oppositeLots lots event.side)
    (event.quantity - alreadyClosed lots event.fillId
      - alreadyOpened lots event.fillId (openingDirection event.side)) (by linarith)
  by_cases h0 : 0 < (planClosures event.price multiplier (oppositeLots lots event.side)
      (event.quantity - alreadyClosed lots event.fillId
        - alreadyOpened lots event.fillId (openingDirection event.side))).2
  · exact if_pos h0
  · exact (if_neg h0).trans (le_antisymm hrest (not_lt.1 h0))

/-- The lots that a plan closes are different ones. -/
theorem planSignedLotFill_subperm (h : planSignedLotFill lots event = .ok plan) :
    (plan.closures.map fun c => c.lot).Subperm lots := by
  obtain ⟨multiplier, -, -, -, hc, -⟩ := planSignedLotFill_ok h
  rw [hc]
  exact (planClosures_sublist _ _ _ _).subperm.trans (oppositeLots_subperm lots event.side)

theorem planSignedLotFill_distinct (h : planSignedLotFill lots event = .ok plan)
    (hnodup : (lots.map (·.lotId)).Nodup) : (plan.closures.map fun c => c.lot.lotId).Nodup := by
  obtain ⟨others, hperm, hsub⟩ := planSignedLotFill_subperm h
  have hids := (hperm.map (·.lotId)).nodup ((hsub.map (·.lotId)).nodup hnodup)
  rw [List.map_map] at hids
  exact hids

/-- The profit of a plan: that of the closures made before, and that of the planned ones. -/
theorem planSignedLotFill_realized (h : planSignedLotFill lots event = .ok plan) {multiplier : ℚ}
    (hm : contractMultiplierOf event.asset = .ok multiplier) :
    plan.realizedPnl = (lots.map fun l => (l.closures.lookup event.fillId).elim 0 fun q =>
      closurePnl l event.price q multiplier).sum + (plan.closures.map fun c => c.pnl).sum := by
  obtain ⟨multiplier', hm', h⟩ := except_bind_eq_ok.1 h
  obtain ⟨_, -, h⟩ := except_bind_eq_ok.1 h
  rw [hm, Except.ok.injEq] at hm'
  subst hm'
  cases h
  rfl

/-- The plan spends exactly what the fill has not spent yet. -/
theorem planSignedLotFill_total (h : planSignedLotFill lots event = .ok plan) :
    alreadyClosed lots event.fillId
        + alreadyOpened lots event.fillId (openingDirection event.side)
        + (plan.closures.map fun c => c.quantity).sum + plan.openingQuantity
      = event.quantity := by
  obtain ⟨multiplier, -, -, -, hc, ho⟩ := planSignedLotFill_ok h
  have htotal := planClosures_total event.price multiplier (oppositeLots lots event.side)
    (event.quantity - alreadyClosed lots event.fillId
      - alreadyOpened lots event.fillId (openingDirection event.side))
  rw [← hc, ← ho] at htotal
  linarith

theorem planSignedLotFill_opening_nonneg (h : planSignedLotFill lots event = .ok plan) :
    0 ≤ plan.openingQuantity := by
  obtain ⟨multiplier, -, hle, -, -, ho⟩ := planSignedLotFill_ok h
  rw [ho]
  exact planClosures_rest_nonneg _ _ _ _ (by linarith)

/-- A planned closure is of an open lot in the closing direction. -/
theorem planSignedLotFill_closure (h : planSignedLotFill lots event = .ok plan) {c : LotClosure}
    (hc : c ∈ plan.closures) :
    c.lot ∈ lots ∧ c.lot.positionSide = closingDirection event.side ∧ 0 < c.quantity ∧
      c.quantity ≤ c.lot.remainingQuantity ∧
      ∃ multiplier, contractMultiplierOf event.asset = .ok multiplier ∧
        c.pnl = closurePnl c.lot event.price c.quantity multiplier := by
  obtain ⟨multiplier, hm, -, -, hcs, -⟩ := planSignedLotFill_ok h
  rw [hcs] at hc
  obtain ⟨hmem, hpos, hle, hpnl⟩ := planClosures_closure hc
  obtain ⟨hlots, hside, -⟩ := mem_oppositeLots.1 hmem
  exact ⟨hlots, hside, hpos, hle, multiplier, hm, hpnl⟩

end Plan

end TradePulse
