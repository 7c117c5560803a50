/-
**A fill that is planned again after a crash.**

The first stage closes lots one by one, and a crash may fall between two closures.  When the fill is
planned again, the lots that it closed say so: what they took counts as spent, a lot that was closed
completely is no longer open, and so the new plan is the rest of the old one.

Main definitions:

* `replaceLot` — the lots with one of them written anew;
* `ClosedBy` — a lot after a planned closure.

Main results:

* `filter_insertionSort` — a stable sort and a selection commute;
* `oppositeLots_replaceLot` — the lots to close, after the first of them was closed;
* `planSignedLotFill_resume` — **the new plan is the rest of the old one**;
* `planSignedLotFill_opened` — once what is left was opened, the new plan does nothing.
-/

import TradePulse.Settlement.Lots
import Mathlib.Algebra.Order.BigOperators.Group.List
import Mathlib.Tactic.Ring

set_option autoImplicit false

namespace TradePulse

/-! ### Selecting from a sorted list -/

section Sorting

variable {α : Type} {r : α → α → Prop} [DecidableRel r]

theorem orderedInsert_of_forall {a : α} {l : List α} (h : ∀ b ∈ l, r a b) :
    l.orderedInsert r a = a :: l := by
  cases l with
  | nil => rfl
  | cons b l => rw [List.orderedInsert_cons, if_pos (h b List.mem_cons_self)]

theorem filter_orderedInsert [IsTrans α r] {p : α → Bool} {a : α} {l : List α}
    (h : l.Pairwise r) : (l.orderedInsert r a).filter p
      = if p a then (l.filter p).orderedInsert r a else l.filter p := by
  induction l with
  | nil => by_cases hp : p a <;> simp [hp]
  | cons b l ih =>
      rw [List.pairwise_cons] at h
      by_cases hab : r a b
      · have hall : ∀ c ∈ b :: l, r a c := fun c hc => by
          rcases List.mem_cons.1 hc with rfl | hc
          · exact hab
          · exact IsTrans.trans _ _ _ hab (h.1 c hc)
        rw [orderedInsert_of_forall hall,
          orderedInsert_of_forall fun c hc => hall c (List.mem_of_mem_filter hc), List.filter_cons]
      · have hinsert : ∀ m : List α, (b :: m).orderedInsert r a = b :: m.orderedInsert r a :=
          fun m => by rw [List.orderedInsert_cons, if_neg hab]
        rw [hinsert, List.filter_cons, List.filter_cons, ih h.2]
        by_cases hb : p b <;> by_cases ha : p a <;> simp [ha, hb, hinsert]

theorem filter_insertionSort [Std.Total r] [IsTrans α r] (p : α → Bool) (l : List α) :
    (l.insertionSort r).filter p = (l.filter p).insertionSort r := by
  induction l with
  | nil => rfl
  | cons a l ih =>
      rw [List.insertionSort_cons, filter_orderedInsert (List.pairwise_insertionSort r l), ih,
        List.filter_cons]
      by_cases ha : p a <;> simp [ha]

end Sorting

/-! ### One lot written anew -/

/-- The lots with one of them written anew. -/
def replaceLot (l : PositionLot) (lots : List PositionLot) : List PositionLot :=
  lots.map fun x => if x.lotId = l.lotId then l else x

section Replace

variable {lots : List PositionLot} {old l : PositionLot}

theorem sum_replaceLot (f : PositionLot → ℚ) (hnodup : (lots.map (·.lotId)).Nodup)
    (hold : old ∈ lots) (hid : l.lotId = old.lotId) :
    ((replaceLot l lots).map f).sum = (lots.map f).sum - f old + f l := by
  obtain ⟨pre, post, rfl⟩ := List.append_of_mem hold
  rw [List.map_append, List.map_cons, List.nodup_append, List.nodup_cons] at hnodup
  have hkeep : ∀ ls : List PositionLot, (∀ x ∈ ls, x.lotId ≠ l.lotId) → replaceLot l ls = ls :=
    fun ls hls =>
      (List.map_congr_left fun x hx => by simp [hls x hx]).trans (List.map_id' ls)
  have hpre := hkeep pre fun x hx heq =>
    hnodup.2.2 _ (List.mem_map.2 ⟨x, hx, rfl⟩) _ List.mem_cons_self (heq.trans hid)
  have hpost := hkeep post fun x hx heq =>
    hnodup.2.1.1 (List.mem_map.2 ⟨x, hx, heq.trans hid⟩)
  have hsplit : replaceLot l (pre ++ old :: post) = pre ++ l :: post := by
    unfold replaceLot at hpre hpost ⊢
    rw [List.map_append, List.map_cons, hpre, hpost, if_pos hid.symm]
  rw [hsplit]
  simp only [List.map_append, List.map_cons, List.sum_append, List.sum_cons]
  ring

instance : IsTrans PositionLot fun a b => a.openedAt ≤ b.openedAt := ⟨fun _ _ _ => le_trans⟩

instance : Std.Total fun a b : PositionLot => a.openedAt ≤ b.openedAt :=
  ⟨fun a b => le_total a.openedAt b.openedAt⟩

theorem nodup_oppositeLots (hnodup : (lots.map (·.lotId)).Nodup) (side : Side) :
    ((oppositeLots lots side).map (·.lotId)).Nodup := by
  obtain ⟨ls, hperm, hsub⟩ := oppositeLots_subperm lots side
  exact (hperm.map (·.lotId)).nodup ((hsub.map (·.lotId)).nodup hnodup)

/-- The lots to close, after the first of them was closed completely. -/
theorem oppositeLots_replaceLot {side : Side} {rest : List PositionLot}
    (hnodup : (lots.map (·.lotId)).Nodup) (hopp : oppositeLots lots side = old :: rest)
    (hid : l.lotId = old.lotId) (hclosed : l.isOpen = false) :
    oppositeLots (replaceLot l lots) side = rest := by
  have hids := nodup_oppositeLots hnodup side
  rw [hopp, List.map_cons, List.nodup_cons] at hids
  have hother : ∀ x ∈ rest, x.lotId ≠ l.lotId := fun x hx heq =>
    hids.1 (List.mem_map.2 ⟨x, hx, heq.trans hid⟩)
  -- what is open after the closure was open before it, and is another lot
  have hfilter : (replaceLot l lots).filter (fun x => x.positionSide = closingDirection side && x.isOpen)
      = (lots.filter fun x => x.positionSide = closingDirection side && x.isOpen).filter
        fun x => x.lotId ≠ l.lotId := by
    rw [replaceLot, List.filter_map, List.filter_filter]
    have hsel : ∀ x : PositionLot, ((fun x : PositionLot =>
          (decide (x.positionSide = closingDirection side) && x.isOpen))
            ∘ fun x => if x.lotId = l.lotId then l else x) x
        = (decide (x.lotId ≠ l.lotId) &&
          (decide (x.positionSide = closingDirection side) && x.isOpen)) := fun x => by
      by_cases hx : x.lotId = l.lotId <;> simp [hx, hclosed]
    rw [List.filter_congr fun x _ => hsel x]
    refine (List.map_congr_left fun x hx => ?_).trans (List.map_id' _)
    rw [List.mem_filter, Bool.and_eq_true, decide_eq_true_eq] at hx
    exact if_neg hx.2.1
  unfold oppositeLots at hopp ⊢
  rw [hfilter, ← filter_insertionSort, hopp, List.filter_cons, if_neg (by simp [hid])]
  exact List.filter_eq_self.2 fun x hx => by simpa using hother x hx

end Replace

/-! ### The rest of a plan -/

/-- A lot after a planned closure: what it was, less the quantity, with the closure recorded. -/
structure ClosedBy (fillId : String) (c : LotClosure) (l : PositionLot) : Prop where
  lotId : l.lotId = c.lot.lotId
  originatingFillId : l.originatingFillId = c.lot.originatingFillId
  positionSide : l.positionSide = c.lot.positionSide
  openedQuantity : l.openedQuantity = c.lot.openedQuantity
  acquisitionPrice : l.acquisitionPrice = c.lot.acquisitionPrice
  remaining : l.remainingQuantity = c.lot.remainingQuantity - c.quantity
  closures : l.closures = c.lot.closures.insert fillId c.quantity

theorem planClosures_of_nonpos (price multiplier : ℚ) (lots : List PositionLot) {remaining : ℚ}
    (h : remaining ≤ 0) : planClosures price multiplier lots remaining = ([], remaining) := by
  cases lots with
  | nil => rfl
  | cons lot lots => rw [planClosures, if_pos h]

/-- The first closure of open lots is of the first of them, and takes as much as it can. -/
theorem planClosures_eq_cons {price multiplier remaining rest : ℚ} {lots : List PositionLot}
    {c : LotClosure} {cs : List LotClosure} (hopen : ∀ l ∈ lots, 0 < l.remainingQuantity)
    (h : planClosures price multiplier lots remaining = (c :: cs, rest)) :
    ∃ others, lots = c.lot :: others ∧ 0 < remaining ∧
      c.quantity = min c.lot.remainingQuantity remaining ∧
      c.pnl = closurePnl c.lot price c.quantity multiplier ∧
      planClosures price multiplier others (remaining - c.quantity) = (cs, rest) := by
  cases lots with
  | nil => cases h
  | cons lot lots =>
      rw [planClosures] at h
      by_cases hrem : remaining ≤ 0
      · rw [if_pos hrem] at h
        cases h
      · have hmin : ¬ min lot.remainingQuantity remaining ≤ 0 :=
          not_le.2 (lt_min (hopen lot List.mem_cons_self) (not_le.1 hrem))
        rw [if_neg hrem] at h
        simp only [hmin, if_false] at h
        cases h
        exact ⟨lots, rfl, not_le.1 hrem, rfl, rfl, rfl⟩

/-- What lots say that a fill opened, lot by lot. -/
theorem alreadyOpened_eq (lots : List PositionLot) (fillId : String) (direction : PositionSide) :
    alreadyOpened lots fillId direction = (lots.map fun l =>
      if l.originatingFillId = fillId ∧ l.positionSide = direction then l.openedQuantity
      else 0).sum := by
  unfold alreadyOpened
  induction lots with
  | nil => rfl
  | cons l lots ih =>
      rw [List.filter_cons, List.map_cons, List.sum_cons, ← ih]
      by_cases h : l.originatingFillId = fillId ∧ l.positionSide = direction
      · simp [h]
      · rw [if_neg h, if_neg (by simpa using h), zero_add]

theorem planSignedLotFill_of {lots : List PositionLot} {event : SettlementEvent} {multiplier : ℚ}
    (hm : contractMultiplierOf event.asset = .ok multiplier)
    (hle : ¬ event.quantity < alreadyClosed lots event.fillId
      + alreadyOpened lots event.fillId (openingDirection event.side)) :
    planSignedLotFill lots event =
      let plan := planClosures event.price multiplier (oppositeLots lots event.side)
        (event.quantity - alreadyClosed lots event.fillId
          - alreadyOpened lots event.fillId (openingDirection event.side))
      .ok { openingDirection := openingDirection event.side
            closures := plan.1
            openingQuantity := if 0 < plan.2 then plan.2 else 0
            realizedPnl := (lots.map fun l => (l.closures.lookup event.fillId).elim 0 fun q =>
              closurePnl l event.price q multiplier).sum + (plan.1.map fun c => c.pnl).sum } := by
  unfold planSignedLotFill
  have hok : raiseIf (event.quantity < alreadyClosed lots event.fillId
        + alreadyOpened lots event.fillId (openingDirection event.side))
      (.integrityViolation "INTEGRITY_VIOLATION: FILL_EVENT_OVERALLOCATED") = .ok () :=
    raiseIf_eq_ok_iff.2 hle
  rw [hm]
  simp only [bind, Except.bind, hok]
  rfl

/-- **The new plan is the rest of the old one.**  Once the first closure of a plan was applied, the
fill is planned as before, without it. -/
theorem planSignedLotFill_resume {lots : List PositionLot} {event : SettlementEvent}
    {plan : SignedLotPlan} {c : LotClosure} {cs : List LotClosure} {l : PositionLot}
    (hnodup : (lots.map (·.lotId)).Nodup) (h : planSignedLotFill lots event = .ok plan)
    (hcs : plan.closures = c :: cs) (hfresh : event.fillId ∉ c.lot.closures)
    (hl : ClosedBy event.fillId c l) :
    planSignedLotFill (replaceLot l lots) event = .ok { plan with closures := cs } := by
  obtain ⟨multiplier, hm, hle, hdir, hclosures, hopening⟩ := planSignedLotFill_ok h
  have hrealized := planSignedLotFill_realized h hm
  have hmem : c.lot ∈ lots := (planSignedLotFill_closure h (hcs ▸ List.mem_cons_self)).1
  have hlookup : c.lot.closures.lookup event.fillId = none := AList.lookup_eq_none.2 hfresh
  have hlookup' : l.closures.lookup event.fillId = some c.quantity := by
    rw [hl.closures, AList.lookup_insert]
  -- what the lots say of the fill afterwards
  have hclosed : alreadyClosed (replaceLot l lots) event.fillId
      = alreadyClosed lots event.fillId + c.quantity := by
    unfold alreadyClosed
    rw [sum_replaceLot _ hnodup hmem hl.lotId, hlookup, hlookup']
    simp
  have hopened : alreadyOpened (replaceLot l lots) event.fillId (openingDirection event.side)
      = alreadyOpened lots event.fillId (openingDirection event.side) := by
    rw [alreadyOpened_eq, alreadyOpened_eq, sum_replaceLot _ hnodup hmem hl.lotId,
      hl.originatingFillId, hl.positionSide, hl.openedQuantity]
    ring
  set remaining := event.quantity - alreadyClosed lots event.fillId
    - alreadyOpened lots event.fillId (openingDirection event.side) with hremaining
  have hopp : planClosures event.price multiplier (oppositeLots lots event.side) remaining
      = (c :: cs, plan.openingQuantity) := by
    rw [hopening, ← hcs, hclosures]
  obtain ⟨others, hothers, hpos, hquantity, hpnl, hrest⟩ := planClosures_eq_cons
    (fun x hx => PositionLot.isOpen_iff.1 (mem_oppositeLots.1 hx).2.2) hopp
  have hpnl' : closurePnl l event.price c.quantity multiplier = c.pnl := by
    rw [hpnl, closurePnl, closurePnl, hl.positionSide, hl.acquisitionPrice]
  have hmade : ((replaceLot l lots).map fun x => (x.closures.lookup event.fillId).elim 0 fun q =>
        closurePnl x event.price q multiplier).sum
      = (lots.map fun x => (x.closures.lookup event.fillId).elim 0 fun q =>
          closurePnl x event.price q multiplier).sum + c.pnl := by
    rw [sum_replaceLot _ hnodup hmem hl.lotId, hlookup, hlookup']
    simp [hpnl']
  -- a lot that was closed completely is gone; otherwise nothing of the fill is left
  have hplan : planClosures event.price multiplier (oppositeLots (replaceLot l lots) event.side)
      (remaining - c.quantity) = (cs, plan.openingQuantity) := by
    rcases le_or_gt c.lot.remainingQuantity remaining with hle | hlt
    · have hgone : l.isOpen = false := by
        rw [← Bool.not_eq_true, PositionLot.isOpen_iff, hl.remaining, hquantity, min_eq_left hle,
          sub_self]
        exact lt_irrefl 0
      rw [oppositeLots_replaceLot hnodup hothers hl.lotId hgone, hrest]
    · have hzero : remaining - c.quantity ≤ 0 := by
        rw [hquantity, min_eq_right hlt.le, sub_self]
      rw [planClosures_of_nonpos _ _ _ hzero] at hrest ⊢
      exact hrest
  have htotal := planSignedLotFill_total h
  have hnonneg := planSignedLotFill_opening_nonneg h
  have hrestNonneg : 0 ≤ (cs.map fun d => d.quantity).sum := by
    refine List.sum_nonneg fun q hq => ?_
    obtain ⟨d, hd, rfl⟩ := List.mem_map.1 hq
    exact (planSignedLotFill_closure h (hcs ▸ List.mem_cons_of_mem c hd)).2.2.1.le
  rw [hcs, List.map_cons, List.sum_cons] at htotal
  have henough : ¬ event.quantity < alreadyClosed (replaceLot l lots) event.fillId
      + alreadyOpened (replaceLot l lots) event.fillId (openingDirection event.side) := by
    rw [hclosed, hopened]
    linarith
  have hleft : event.quantity - alreadyClosed (replaceLot l lots) event.fillId
      - alreadyOpened (replaceLot l lots) event.fillId (openingDirection event.side)
        = remaining - c.quantity := by
    rw [hclosed, hopened, hremaining]
    ring
  have hopens : (if 0 < plan.openingQuantity then plan.openingQuantity else 0)
      = plan.openingQuantity := by
    split
    · rfl
    · rename_i hnot
      exact le_antisymm hnonneg (not_lt.1 hnot)
  rw [hcs, List.map_cons, List.sum_cons, ← add_assoc, ← hmade] at hrealized
  rw [planSignedLotFill_of hm henough, hleft, hplan]
  simp only [hopens, ← hrealized, ← hdir]

/-- Once a plan without closures has opened its lot, the fill is planned to do nothing. -/
theorem planSignedLotFill_opened {lots : List PositionLot} {event : SettlementEvent}
    {plan : SignedLotPlan} {l : PositionLot} (h : planSignedLotFill lots event = .ok plan)
    (hnil : plan.closures = []) (hfill : l.originatingFillId = event.fillId)
    (hside : l.positionSide = plan.openingDirection)
    (hquantity : l.openedQuantity = plan.openingQuantity) (hclosures : l.closures = ∅) :
    planSignedLotFill (lots ++ [l]) event = .ok { plan with openingQuantity := 0 } := by
  obtain ⟨multiplier, hm, -, hdir, -, -⟩ := planSignedLotFill_ok h
  have hrealized := planSignedLotFill_realized h hm
  have htotal := planSignedLotFill_total h
  rw [hnil] at hrealized htotal
  have hlookup : l.closures.lookup event.fillId = none := by
    rw [hclosures]
    rfl
  have hclosed : alreadyClosed (lots ++ [l]) event.fillId = alreadyClosed lots event.fillId := by
    simp [alreadyClosed, hlookup]
  have hopened : alreadyOpened (lots ++ [l]) event.fillId (openingDirection event.side)
      = alreadyOpened lots event.fillId (openingDirection event.side) + plan.openingQuantity := by
    rw [alreadyOpened_eq, alreadyOpened_eq, List.map_append, List.sum_append, ← hquantity]
    simp [hfill, hside, hdir]
  have hmade : ((lots ++ [l]).map fun x => (x.closures.lookup event.fillId).elim 0 fun q =>
      closurePnl x event.price q multiplier).sum = plan.realizedPnl := by
    rw [hrealized, List.map_append, List.sum_append]
    simp [hlookup]
  have hleft : event.quantity - alreadyClosed (lots ++ [l]) event.fillId
      - alreadyOpened (lots ++ [l]) event.fillId (openingDirection event.side) = 0 := by
    rw [hclosed, hopened, ← htotal]
    simp only [List.map_nil, List.sum_nil]
    ring
  have henough : ¬ event.quantity < alreadyClosed (lots ++ [l]) event.fillId
      + alreadyOpened (lots ++ [l]) event.fillId (openingDirection event.side) := by
    linarith
  rw [planSignedLotFill_of hm henough, hleft, planClosures_of_nonpos _ _ _ (le_refl 0)]
  simp only [hmade, lt_irrefl, if_false, List.map_nil, List.sum_nil, add_zero, ← hdir]
  rw [← hnil]

end TradePulse
