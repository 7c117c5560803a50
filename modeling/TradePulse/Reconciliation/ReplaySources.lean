/-
**What a replay of fees closes, and what it reads.**

The closures that a replay leaves were made by sales, each of a positive quantity; every purchase
opened one of the lots and realized nothing.  Of an execution the replay reads everything but the
value that an earlier replay wrote into it, and of a lot what it opened with; so a replay may be
repeated over its own results.

Main definitions:

* `Turned` — what the closures and the realized values say about the occurrences so far;
* `Revalued` — an execution, and the same one with another realized value.

Main results:

* `turned_of_preview` — a replay that is accepted has turned its occurrences;
* `previewFeeReplay_again` — **a replay may be repeated over its own results**.
-/

import TradePulse.Reconciliation.ReplayDeterminism
import Mathlib.Data.List.Sort

set_option autoImplicit false

namespace TradePulse

open Storage

namespace HistoricalFees

/-! ### Who closes, and what a purchase realizes -/

section Turns

variable {lots out : List PositionLot} {past rest : List Occurrence} {st st' final : Replay}
  {x : Occurrence} {settlements : List SettlementEvent} {fees : List AssetFee}
  {realized : OrderedDict String ℚ}

/-- A closure of a lot: a positive quantity, by a sale that came to pass. -/
def ClosedBySales (past : List Occurrence) (l : PositionLot) : Prop :=
  ∀ id q, l.closures.lookup id = some q →
    0 < q ∧ ∃ event, .fill event ∈ past ∧ event.side = .sell ∧ event.fillId = id

theorem ClosedBySales.append {l : PositionLot} (h : ClosedBySales past l) (x : Occurrence) :
    ClosedBySales (past ++ [x]) l := by
  intro id q hlook
  obtain ⟨hpos, event, hevent, hside⟩ := h id q hlook
  exact ⟨hpos, event, List.mem_append_left _ hevent, hside⟩

/-- What the closures and the realized values say about the occurrences so far. -/
structure Turned (lots : List PositionLot) (past : List Occurrence) (st : Replay) : Prop where
  closers : ∀ l ∈ st.current.values, ClosedBySales past l
  purchases : ∀ event, .fill event ∈ past → event.side = .buy →
    (∃ lot ∈ lots, lot.originatingFillId = event.fillId) ∧
      st.realized.get? event.fillId = some 0

theorem turned_empty (lots : List PositionLot) : Turned lots [] {} := by
  refine ⟨fun l hl => ?_, fun event hevent => ?_⟩
  · simp [OrderedDict.values, OrderedDict.empty] at hl
  · cases hevent

theorem Turned.applyFee {fee : AssetFee} (h : Turned lots past st) (hacc : Accounts lots past st)
    (hx : applyFee fee st = .ok st') : Turned lots (past ++ [.fee fee]) st' := by
  obtain ⟨taken, htaken, -, rfl⟩ := applyFee_ok hacc.keyed hx
  have hid : ∀ t ∈ taken, t.left.lotId = t.lot.lotId := by
    intro t ht
    exact congrArg (·.lotId) (htaken.left t ht)
  refine ⟨forall_takeAll hid hacc.keyed ?_ fun l hl => (h.closers l hl).append _, ?_⟩
  · intro t ht id q hlook
    have hsame : t.left.closures = t.lot.closures := congrArg (·.closures) (htaken.left t ht)
    rw [hsame] at hlook
    exact (h.closers t.lot (htaken.mem t ht)).append _ id q hlook
  · intro event hevent hside
    refine h.purchases event ?_ hside
    simpa using hevent

theorem Turned.buy {event : SettlementEvent} (h : Turned lots past st) (hside : event.side = .buy)
    (hx : applyFill (originOf lots) event st = .ok st') :
    Turned lots (past ++ [.fill event]) st' := by
  obtain ⟨lot, opened, horigin, hfields, rfl⟩ := applyFill_buy hside hx
  refine ⟨fun l hl => ?_, fun e he hbuy => ?_⟩
  · obtain rfl | ⟨k, -, hold⟩ := OrderedDict.mem_values_insert hl
    · intro id q hlook
      have hnone : l.closures = ∅ := congrArg (·.closures) hfields
      rw [hnone] at hlook
      cases hlook
    · exact (h.closers l (OrderedDict.mem_values.2 ⟨k, hold⟩)).append _
  · have hlot : lot ∈ lots ∧ lot.originatingFillId = event.fillId :=
      ⟨List.mem_of_find?_eq_some horigin, by simpa using List.find?_some horigin⟩
    rw [OrderedDict.get?_insert]
    rcases List.mem_append.1 he with hpast | hlast
    · obtain ⟨hopened, hzero⟩ := h.purchases e hpast hbuy
      refine ⟨hopened, ?_⟩
      split
      · rfl
      · exact hzero
    · cases List.mem_singleton.1 hlast
      exact ⟨⟨lot, hlot⟩, if_pos rfl⟩

theorem Turned.sell {event : SettlementEvent} (h : Turned lots past st)
    (hacc : Accounts lots past st) (hfresh : ∀ y ∈ past, y.Apart (.fill event))
    (hside : event.side ≠ .buy) (hx : applyFill (originOf lots) event st = .ok st') :
    Turned lots (past ++ [.fill event]) st' := by
  obtain ⟨taken, multiplier, -, htaken, -, rfl⟩ :=
    applyFill_sell hacc.keyed hside hacc.long (hacc.fresh_fill hfresh) hx
  have hid : ∀ t ∈ taken, t.left.lotId = t.lot.lotId := by
    intro t ht
    exact congrArg (·.lotId) (htaken.left t ht)
  have hsell : event.side = .sell := by
    cases hcases : event.side with
    | buy => exact absurd hcases hside
    | sell => rfl
  refine ⟨forall_takeAll hid hacc.keyed ?_ fun l hl => (h.closers l hl).append _, ?_⟩
  · intro t ht id q hlook
    have hclosures : t.left.closures = t.lot.closures.insert event.fillId t.units :=
      congrArg (·.closures) (htaken.left t ht)
    rw [hclosures] at hlook
    by_cases hsame : id = event.fillId
    · subst hsame
      rw [AList.lookup_insert] at hlook
      cases hlook
      exact ⟨htaken.pos t ht, event, by simp, hsell, rfl⟩
    · rw [AList.lookup_insert_ne hsame] at hlook
      exact (h.closers t.lot (htaken.mem t ht)).append _ id q hlook
  · intro e he hbuy
    rcases List.mem_append.1 he with hpast | hlast
    · -- an execution that came before is another one
      have hne : e.fillId ≠ event.fillId := hfresh _ hpast
      obtain ⟨hopened, hzero⟩ := h.purchases e hpast hbuy
      rw [OrderedDict.get?_insert, if_neg hne]
      exact ⟨hopened, hzero⟩
    · cases List.mem_singleton.1 hlast
      exact absurd hbuy hside

theorem turned_replayOne (h : Turned lots past st) (hacc : Accounts lots past st)
    (hfresh : ∀ y ∈ past, y.Apart x) (hx : replayOne (originOf lots) st x = .ok st') :
    Turned lots (past ++ [x]) st' := by
  cases x with
  | fee fee => exact h.applyFee hacc hx
  | fill event =>
      by_cases hside : event.side = .buy
      · exact h.buy hside hx
      · exact h.sell hacc hfresh hside hx

theorem turned_foldlM (h : Turned lots past st) (hacc : Accounts lots past st)
    (hdistinct : (lots.map (·.lotId)).Nodup) (hlong : ∀ lot ∈ lots, lot.positionSide = .long)
    (hapart : (past ++ rest).Pairwise Occurrence.Apart)
    (hopens : ∀ event, .fill event ∈ rest → ∀ lot ∈ lots, lot.originatingFillId = event.fillId →
      lot.openedQuantity = event.quantity)
    (hx : rest.foldlM (replayOne (originOf lots)) st = .ok final) :
    Turned lots (past ++ rest) final ∧ Accounts lots (past ++ rest) final := by
  refine replay_keeps (I := fun past st => Turned lots past st ∧ Accounts lots past st) ⟨h, hacc⟩
    (fun past x st st' h hfresh hmem hx => ⟨turned_replayOne h.1 h.2 hfresh hx, ?_⟩) hapart hx
  exact accounts_replayOne h.2 hdistinct hlong hfresh
    (fun event hevent => hopens event (hevent ▸ hmem)) hx

end Turns

/-- The closures that a replay leaves, and its purchases. -/
theorem turned_of_preview {lots out : List PositionLot} {settlements : List SettlementEvent}
    {fees : List AssetFee} {realized : OrderedDict String ℚ}
    (hdistinct : (lots.map (·.lotId)).Nodup)
    (h : previewFeeReplay lots settlements fees = .ok (out, realized)) :
    (∀ l ∈ out, ∀ id q, l.closures.lookup id = some q →
      0 < q ∧ ∃ event ∈ settlements, event.side = .sell ∧ event.fillId = id) ∧
    ∀ event ∈ settlements, event.side = .buy →
      (∃ lot ∈ lots, lot.originatingFillId = event.fillId) ∧
        realized.get? event.fillId = some 0 := by
  obtain ⟨haccepted, final, hfold, hout, rfl⟩ := previewFeeReplay_ok_iff.1 h
  have hmem : ∀ event, .fill event ∈ chronology settlements fees ↔ event ∈ settlements := by
    intro event
    simp [mem_chronology]
  have hopens : ∀ event, .fill event ∈ chronology settlements fees → ∀ lot ∈ lots,
      lot.originatingFillId = event.fillId → lot.openedQuantity = event.quantity := by
    intro event hevent lot hlot hfill
    obtain ⟨opening, hopening, hid, hopens⟩ := haccepted.opened lot hlot
    have hsame := mem_of_fillId haccepted.fills hopening ((hmem event).1 hevent) (hid.trans hfill)
    simp only [opensLot, Bool.and_eq_true, beq_iff_eq] at hopens
    rw [← hopens.1.1.2, hsame]
  have hapart := pairwise_chronology haccepted.fills haccepted.receipts
  obtain ⟨hturned, hacc⟩ := turned_foldlM (turned_empty lots) (accounts_empty lots) hdistinct
    haccepted.long (by simpa using hapart) hopens hfold
  obtain ⟨-, hperm⟩ := perm_replayed hacc hdistinct hout
  refine ⟨fun l hl id q hlook => ?_, fun event hevent hside => ?_⟩
  · obtain ⟨hpos, event, hevent, hside⟩ := hturned.closers l (hperm.subset hl) id q hlook
    exact ⟨hpos, event, (hmem event).1 hevent, hside⟩
  · exact hturned.purchases event ((hmem event).2 hevent) hside

/-! ### What a replay reads of an execution -/

/-- An execution without the value that was realized. -/
def unvalued (e : SettlementEvent) : SettlementEvent :=
  ⟨{ e.toSettlementEventFields with realizedPnl := none }, e.valid⟩

/-- An execution, and the same one with another realized value. -/
def Revalued (e e' : SettlementEvent) : Prop :=
  unvalued e' = unvalued e

theorem closeLots_unvalued (event : SettlementEvent) (closures : List LotClosure)
    (current : OrderedDict String PositionLot) :
    closeLots (unvalued event) closures current = closeLots event closures current := by
  induction closures generalizing current with
  | nil => rfl
  | cons c closures ih =>
      have hsold : soldFields (unvalued event) = soldFields event := rfl
      simp only [closeLots, ih, hsold]

/-- An occurrence without the value that an execution realized. -/
def Occurrence.unvalued : Occurrence → Occurrence
  | .fill event => .fill (HistoricalFees.unvalued event)
  | .fee receipt => .fee receipt

theorem replayOne_unvalued (origins : String → Option PositionLot) (st : Replay) (x : Occurrence) :
    replayOne origins st x.unvalued = replayOne origins st x := by
  cases x with
  | fee fee => rfl
  | fill event =>
      have hplan : ∀ lots, planSignedLotFill lots (unvalued event) = planSignedLotFill lots event :=
        fun _ => rfl
      simp only [Occurrence.unvalued, replayOne, applyFill, closeLots_unvalued, hplan]
      rfl

theorem foldlM_unvalued (origins : String → Option PositionLot) (xs : List Occurrence)
    (st : Replay) :
    (xs.map Occurrence.unvalued).foldlM (replayOne origins) st = xs.foldlM (replayOne origins) st := by
  rw [List.foldlM_map]
  exact congrArg (fun f => xs.foldlM f st) (funext₂ fun st x => replayOne_unvalued origins st x)

theorem chronology_unvalued (settlements : List SettlementEvent) (fees : List AssetFee) :
    chronology (settlements.map unvalued) fees
      = (chronology settlements fees).map Occurrence.unvalued := by
  have htime : ∀ x : Occurrence, x.unvalued.time = x.time ∧ x.unvalued.activityId = x.activityId := by
    intro x
    cases x with
    | fill event => exact ⟨rfl, rfl⟩
    | fee fee => exact ⟨rfl, rfl⟩
  have hmap : (settlements.map Occurrence.fill ++ fees.map Occurrence.fee).map Occurrence.unvalued
      = (settlements.map unvalued).map Occurrence.fill ++ fees.map Occurrence.fee := by
    rw [List.map_append, List.map_map, List.map_map, List.map_map]
    rfl
  rw [chronology, chronology, ← hmap]
  refine (List.map_insertionSort _ _ _ _ fun a _ b _ => ?_).symm
  unfold Occurrence.NotAfter
  rw [(htime a).1, (htime a).2, (htime b).1, (htime b).2]

theorem accepted_unvalued_iff {lots : List PositionLot} {settlements : List SettlementEvent}
    {fees : List AssetFee} :
    Accepted lots (settlements.map unvalued) fees ↔ Accepted lots settlements fees := by
  have hassets : (settlements.map unvalued).map (·.asset) = settlements.map (·.asset) := by
    rw [List.map_map]
    rfl
  have hfills : (settlements.map unvalued).map (·.fillId) = settlements.map (·.fillId) := by
    rw [List.map_map]
    rfl
  constructor
  · intro h
    exact
      { nonempty := h.nonempty
        oneAsset := hassets ▸ h.oneAsset
        long := h.long
        receipts := h.receipts
        parsed := h.parsed
        known := h.known
        fills := hfills ▸ h.fills
        filled := h.filled
        openings := h.openings
        settled := fun event hevent => h.settled (unvalued event) (List.mem_map_of_mem hevent)
        opened := fun lot hlot => by
          obtain ⟨_, hmem, hid, hopens⟩ := h.opened lot hlot
          obtain ⟨event, hevent, rfl⟩ := List.mem_map.1 hmem
          exact ⟨event, hevent, hid, hopens⟩
        conserved := h.conserved
        identified := fun event hevent =>
          h.identified (unvalued event) (List.mem_map_of_mem hevent) }
  · intro h
    exact
      { nonempty := h.nonempty
        oneAsset := hassets.symm ▸ h.oneAsset
        long := h.long
        receipts := h.receipts
        parsed := h.parsed
        known := h.known
        fills := hfills.symm ▸ h.fills
        filled := h.filled
        openings := h.openings
        settled := List.forall_mem_map.2 h.settled
        opened := fun lot hlot => by
          obtain ⟨event, hevent, hid, hopens⟩ := h.opened lot hlot
          exact ⟨unvalued event, List.mem_map_of_mem hevent, hid, hopens⟩
        conserved := h.conserved
        identified := List.forall_mem_map.2 h.identified }

theorem previewFeeReplay_unvalued {lots out : List PositionLot} {settlements : List SettlementEvent}
    {fees : List AssetFee} {realized : OrderedDict String ℚ} :
    previewFeeReplay lots (settlements.map unvalued) fees = .ok (out, realized) ↔
      previewFeeReplay lots settlements fees = .ok (out, realized) := by
  rw [previewFeeReplay_ok_iff, previewFeeReplay_ok_iff, accepted_unvalued_iff, chronology_unvalued]
  simp only [foldlM_unvalued]

/-- **A replay may be repeated over its own results.** -/
theorem previewFeeReplay_again {lots out : List PositionLot}
    {settlements settlements' : List SettlementEvent} {fees : List AssetFee}
    {realized : OrderedDict String ℚ} (hdistinct : (lots.map (·.lotId)).Nodup)
    (hvalued : List.Forall₂ Revalued settlements settlements')
    (h : previewFeeReplay lots settlements fees = .ok (out, realized)) :
    previewFeeReplay out settlements' fees = .ok (out, realized) := by
  have hsame : settlements'.map unvalued = settlements.map unvalued :=
    (map_eq_of_forall₂ hvalued fun _ _ heq => heq.symm).symm
  rw [← previewFeeReplay_unvalued, hsame, previewFeeReplay_unvalued]
  have hsources := sources_replayed hdistinct h
  obtain ⟨haccepted, final, hfold, hout, hrealized⟩ := previewFeeReplay_ok_iff.1 h
  obtain ⟨st, hacc, hids, hperm, -⟩ := accounts_of_preview hdistinct h
  have hknown : ∀ lot ∈ out, ∀ id ∈ lot.assetFeeQuantities.keys, id ∈ fees.map (·.activityId) := by
    intro lot hlot id hid
    obtain ⟨fee, hfee, rfl⟩ := hacc.debitor lot (hperm.subset hlot) id hid
    have hmem : fee ∈ fees := by simpa [mem_chronology] using hfee
    exact List.mem_map_of_mem hmem
  have haccepted' : Accepted out settlements fees :=
    haccepted.of_sources (hsources ▸ .refl _) (.refl _) (.refl _)
      (fun lot hlot => hacc.conserved lot (hperm.subset hlot)) hknown
  have hperm' : (sources out).Perm (sources lots) := hsources ▸ .refl _
  have horigins := replayOne_congr fun id => originOf_congr hperm' haccepted.openings id
  refine previewFeeReplay_ok_iff.2 ⟨haccepted', final, ?_, hids ▸ hout, hrealized⟩
  rw [← hfold]
  exact congrArg (fun f => (chronology settlements fees).foldlM f {}) (funext₂ horigins)

end HistoricalFees

end TradePulse
