/-
**Lots without the prices that were seen.**

The extremes of the price are folded into a lot by the monitor and by every closure; no plan reads
them.  So a plan against lots is a plan against the bare lots, and what a run says about bare lots
holds whatever prices were seen beside it.

Main definitions:

* `bareFields`, `PositionLot.bare` — a lot without its extremes;
* `SignedLotPlan.bare` — a plan against such lots.

Main results:

* `valid_iff_bareFields` — the checks of a lot are those of the bare lot and of its extremes;
* `planSignedLotFill_bare` — **planning commutes with forgetting the extremes**;
* `planClosures_of_covered` — lots that have enough leave nothing to open.
-/

import TradePulse.Settlement.Lots
import Mathlib.Algebra.Order.BigOperators.Group.List

set_option autoImplicit false

namespace TradePulse

/-- A lot without the extremes of the price. -/
def bareFields (l : PositionLotFields) : PositionLotFields :=
  { l with
    mfePrice := none
    maePrice := none }

theorem valid_iff_bareFields (l : PositionLotFields) :
    Valid l ↔ Valid (bareFields l) ∧ (∀ x ∈ l.mfePrice, 0 < x) ∧ ∀ x ∈ l.maePrice, 0 < x := by
  simp only [Valid, Checked.checks, bareFields, List.forall_mem_cons, optionalPositiveCheck_fst]
  simp only [Option.mem_def, reduceCtorEq, false_implies, implies_true, true_and]
  tauto

namespace PositionLot

def bare (l : PositionLot) : PositionLot := ⟨bareFields l.toPositionLotFields, by
  exact ((valid_iff_bareFields _).1 l.valid).1⟩

@[simp] theorem bare_lotId (l : PositionLot) : l.bare.lotId = l.lotId := rfl

@[simp] theorem bare_closures (l : PositionLot) : l.bare.closures = l.closures := rfl

@[simp] theorem bare_originatingFillId (l : PositionLot) :
    l.bare.originatingFillId = l.originatingFillId := rfl

@[simp] theorem bare_positionSide (l : PositionLot) : l.bare.positionSide = l.positionSide := rfl

@[simp] theorem bare_openedQuantity (l : PositionLot) :
    l.bare.openedQuantity = l.openedQuantity := rfl

@[simp] theorem bare_remainingQuantity (l : PositionLot) :
    l.bare.remainingQuantity = l.remainingQuantity := rfl

@[simp] theorem bare_openedAt (l : PositionLot) : l.bare.openedAt = l.openedAt := rfl

@[simp] theorem bare_isOpen (l : PositionLot) : l.bare.isOpen = l.isOpen := rfl

/-- Lots that differ in their price extremes only are the same bare lot. -/
theorem bare_of_fields {l l' : PositionLot} {mfe mae : Option ℚ}
    (h : l'.toPositionLotFields = { l.toPositionLotFields with
      mfePrice := mfe
      maePrice := mae }) : l'.bare = l.bare := by
  have hfields : bareFields l'.toPositionLotFields = bareFields l.toPositionLotFields := by
    rw [h]
    rfl
  unfold bare
  simp only [hfields]

theorem eq_of_bare {α : Type} (f : PositionLot → α) (hf : ∀ l : PositionLot, f l.bare = f l)
    {l l' : PositionLot} (h : l'.bare = l.bare) : f l' = f l := by
  rw [← hf l', h, hf l]

end PositionLot

/-- A closure of the bare lot. -/
def LotClosure.bare (c : LotClosure) : LotClosure := { c with lot := c.lot.bare }

/-- The plan against the bare lots. -/
def SignedLotPlan.bare (plan : SignedLotPlan) : SignedLotPlan :=
  { plan with closures := plan.closures.map LotClosure.bare }

@[simp] theorem closurePnl_bare (l : PositionLot) (price quantity multiplier : ℚ) :
    closurePnl l.bare price quantity multiplier = closurePnl l price quantity multiplier := rfl

theorem alreadyClosed_bare (lots : List PositionLot) (fillId : String) :
    alreadyClosed (lots.map PositionLot.bare) fillId = alreadyClosed lots fillId := by
  unfold alreadyClosed
  rw [List.map_map]
  rfl

theorem alreadyOpened_bare (lots : List PositionLot) (fillId : String) (side : PositionSide) :
    alreadyOpened (lots.map PositionLot.bare) fillId side = alreadyOpened lots fillId side := by
  unfold alreadyOpened
  rw [List.filter_map, List.map_map]
  rfl

theorem oppositeLots_bare (lots : List PositionLot) (side : Side) :
    oppositeLots (lots.map PositionLot.bare) side
      = (oppositeLots lots side).map PositionLot.bare := by
  unfold oppositeLots
  rw [List.filter_map]
  refine (List.map_insertionSort (r := fun a b : PositionLot => a.openedAt ≤ b.openedAt)
    (s := fun a b : PositionLot => a.openedAt ≤ b.openedAt) PositionLot.bare _ ?_).symm
  intro a _ b _
  rfl

theorem planClosures_bare (price multiplier : ℚ) (lots : List PositionLot) (remaining : ℚ) :
    planClosures price multiplier (lots.map PositionLot.bare) remaining
      = ((planClosures price multiplier lots remaining).1.map LotClosure.bare,
          (planClosures price multiplier lots remaining).2) := by
  induction lots generalizing remaining with
  | nil => rfl
  | cons l lots ih =>
      simp only [List.map_cons, planClosures, PositionLot.bare_remainingQuantity, ih]
      by_cases hdone : remaining ≤ 0
      · rw [if_pos hdone, if_pos hdone]
        rfl
      · rw [if_neg hdone, if_neg hdone]
        by_cases hempty : min l.remainingQuantity remaining ≤ 0
        · rw [if_pos hempty, if_pos hempty]
        · rw [if_neg hempty, if_neg hempty]
          rfl

/-- **Planning commutes with forgetting the extremes.** -/
theorem planSignedLotFill_bare (lots : List PositionLot) (event : SettlementEvent) :
    planSignedLotFill (lots.map PositionLot.bare) event
      = (planSignedLotFill lots event).map SignedLotPlan.bare := by
  have hmade : ∀ multiplier, ((lots.map PositionLot.bare).map fun l =>
      (l.closures.lookup event.fillId).elim 0 fun q => closurePnl l event.price q multiplier).sum
      = (lots.map fun l => (l.closures.lookup event.fillId).elim 0 fun q =>
          closurePnl l event.price q multiplier).sum := by
    intro multiplier
    rw [List.map_map]
    rfl
  have hpnl : ∀ closures : List LotClosure,
      ((closures.map LotClosure.bare).map fun c => c.pnl) = closures.map fun c => c.pnl := by
    intro closures
    rw [List.map_map]
    rfl
  unfold planSignedLotFill
  simp only [alreadyClosed_bare, alreadyOpened_bare, oppositeLots_bare, planClosures_bare, hmade,
    hpnl]
  cases contractMultiplierOf event.asset with
  | error e => rfl
  | ok multiplier =>
      simp only [bind, Except.bind]
      split <;> rfl

/-- Plans against lots that differ in their extremes differ in those only. -/
theorem planSignedLotFill_of_bare {lots lots' : List PositionLot} {event : SettlementEvent}
    {plan : SignedLotPlan} (hbare : lots'.map PositionLot.bare = lots.map PositionLot.bare)
    (h : planSignedLotFill lots event = .ok plan) :
    ∃ plan', planSignedLotFill lots' event = .ok plan' ∧ plan'.bare = plan.bare := by
  have hboth := (planSignedLotFill_bare lots' event).symm.trans
    ((congrArg (planSignedLotFill · event) hbare).trans (planSignedLotFill_bare lots event))
  rw [h] at hboth
  cases hplan : planSignedLotFill lots' event with
  | error e =>
      rw [hplan] at hboth
      cases hboth
  | ok plan' =>
      rw [hplan] at hboth
      exact ⟨plan', rfl, Except.ok.inj hboth⟩

/-- A plan reads of an event what it says about its fill. -/
theorem planSignedLotFill_facts {event event' : SettlementEvent}
    (h : event.toSettlementFacts = event'.toSettlementFacts) (lots : List PositionLot) :
    planSignedLotFill lots event = planSignedLotFill lots event' := by
  have hfill : event.fillId = event'.fillId := congrArg (·.fillId) h
  have hasset : event.asset = event'.asset := congrArg (·.asset) h
  have hside : event.side = event'.side := congrArg (·.side) h
  have hquantity : event.quantity = event'.quantity := congrArg (·.quantity) h
  have hprice : event.price = event'.price := congrArg (·.price) h
  unfold planSignedLotFill
  rw [hfill, hasset, hside, hquantity, hprice]

theorem sum_oppositeLots {lots : List PositionLot} {side : Side}
    (h : ∀ l ∈ lots, l.positionSide = closingDirection side) :
    ((oppositeLots lots side).map fun l => l.remainingQuantity).sum
      = (lots.map fun l => l.remainingQuantity).sum := by
  have hperm : (oppositeLots lots side).Perm (lots.filter fun l =>
      l.positionSide = closingDirection side && l.isOpen) := List.perm_insertionSort _ _
  rw [(hperm.map fun l => l.remainingQuantity).sum_eq]
  clear hperm
  induction lots with
  | nil => rfl
  | cons l lots ih =>
      have hrest := ih fun x hx => h x (List.mem_cons_of_mem l hx)
      have hside := h l List.mem_cons_self
      by_cases hopen : l.isOpen = true
      · rw [List.filter_cons_of_pos (by simp [hside, hopen]), List.map_cons, List.sum_cons,
          List.map_cons, List.sum_cons, hrest]
      · have hzero : l.remainingQuantity = 0 := by
          rw [PositionLot.isOpen_iff, not_lt] at hopen
          exact le_antisymm hopen l.remaining_nonneg
        rw [List.filter_cons_of_neg (by simp [hopen]), List.map_cons, List.sum_cons, hzero,
          zero_add, hrest]

/-- Lots that have enough between them leave nothing. -/
theorem planClosures_of_covered (price multiplier : ℚ) {lots : List PositionLot} {remaining : ℚ}
    (hnonneg : 0 ≤ remaining) (h : remaining ≤ (lots.map fun l => l.remainingQuantity).sum) :
    (planClosures price multiplier lots remaining).2 = 0 := by
  induction lots generalizing remaining with
  | nil => exact le_antisymm h hnonneg
  | cons l lots ih =>
      rw [List.map_cons, List.sum_cons] at h
      simp only [planClosures]
      split
      · rename_i hzero
        exact le_antisymm hzero hnonneg
      · rename_i hpos
        rcases le_total l.remainingQuantity remaining with hle | hle
        · rw [min_eq_left hle]
          split
          · exact ih hnonneg (by linarith)
          · exact ih (sub_nonneg.2 hle) (by linarith)
        · rw [min_eq_right hle, if_neg hpos]
          refine ih (sub_self remaining).ge ?_
          rw [sub_self]
          exact List.sum_nonneg fun q hq => by
            obtain ⟨x, -, rfl⟩ := List.mem_map.1 hq
            exact x.remaining_nonneg

end TradePulse
