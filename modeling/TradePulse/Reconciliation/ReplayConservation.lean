/-
**A replay of fees conserves every unit.**

Fees and sales both take units from lots, one lot after another, and put each lot back without
them.  What such a turn does to a sum over the lots is the sum of what it does to each lot that it
takes from; every law of conservation is such a sum.

Main definitions:

* `Taken`, `takeAll`, `TakenFrom` — units taken from lots;
* `SameSource` — two states of one lot;
* `Accounts` — what the lots and the realized values say about the occurrences so far.

Main results:

* `sum_takeAll` — what taking units does to a sum over the lots;
* `replay_keeps` — what every turn keeps, a whole replay keeps;
* `accounts_replayOne`, `accounts_foldlM` — one turn, and a whole replay, keep the accounts;
* `previewFeeReplay_conserves` — **the laws of conservation** of a replay that is accepted.
-/

import TradePulse.Reconciliation.HistoricalFees
import Mathlib.Data.List.Perm.Subperm

set_option autoImplicit false

namespace TradePulse

open Storage

namespace HistoricalFees

/-! ### Lots under their identifiers -/

/-- Every lot stands under its own identifier. -/
def Keyed (current : OrderedDict String PositionLot) : Prop :=
  ∀ e ∈ current.entries, e.2.lotId = e.1

namespace Keyed

variable {current : OrderedDict String PositionLot}

theorem get?_lotId (h : Keyed current) {lot : PositionLot} (hmem : lot ∈ current.values) :
    current.get? lot.lotId = some lot := by
  obtain ⟨k, hk⟩ := OrderedDict.mem_values.1 hmem
  rw [OrderedDict.get?_eq_some_iff, h _ hk]
  exact hk

theorem map_lotId (h : Keyed current) : current.values.map (·.lotId) = current.keys := by
  rw [OrderedDict.values, List.map_map]
  exact List.map_congr_left h

theorem nodup_lotId (h : Keyed current) : (current.values.map (·.lotId)).Nodup := by
  rw [h.map_lotId]
  exact current.nodup_keys

theorem insert (h : Keyed current) (lot : PositionLot) : Keyed (current.insert lot.lotId lot) := by
  rintro ⟨k, l⟩ hmem
  rcases OrderedDict.mem_insert.1 hmem with ⟨rfl, rfl⟩ | ⟨-, hmem⟩
  · rfl
  · exact h _ hmem

end Keyed

/-! ### Taking units from lots -/

/-- Units that were taken from a lot, and the lot that is left. -/
structure Taken where
  lot : PositionLot
  units : ℚ
  left : PositionLot

/-- Put back the lots that are left. -/
def takeAll (taken : List Taken) (current : OrderedDict String PositionLot) :
    OrderedDict String PositionLot :=
  taken.foldl (fun lots t => lots.insert t.lot.lotId t.left) current

/-- Units taken from different ones of the lots, each of which `change` left. -/
structure TakenFrom (change : PositionLot → ℚ → PositionLotFields) (lots : List PositionLot)
    (taken : List Taken) : Prop where
  distinct : (taken.map fun t => t.lot.lotId).Nodup
  mem : ∀ t ∈ taken, t.lot ∈ lots
  pos : ∀ t ∈ taken, 0 < t.units
  left : ∀ t ∈ taken, t.left.toPositionLotFields = change t.lot t.units

section TakeAll

variable {taken : List Taken} {current : OrderedDict String PositionLot}

theorem keyed_insert_left (h : Keyed current) {t : Taken} (hid : t.left.lotId = t.lot.lotId) :
    Keyed (current.insert t.lot.lotId t.left) := by
  rw [← hid]
  exact h.insert t.left

theorem keyed_takeAll (h : Keyed current) (hid : ∀ t ∈ taken, t.left.lotId = t.lot.lotId) :
    Keyed (takeAll taken current) := by
  induction taken generalizing current with
  | nil => exact h
  | cons t taken ih =>
      exact ih (keyed_insert_left h (hid t List.mem_cons_self)) fun u hu =>
        hid u (List.mem_cons_of_mem t hu)

/-- **What taking units does to a sum over the lots.** -/
theorem sum_takeAll (f : PositionLot → ℚ) (hdistinct : (taken.map fun t => t.lot.lotId).Nodup)
    (hget : ∀ t ∈ taken, current.get? t.lot.lotId = some t.lot) :
    ((takeAll taken current).values.map f).sum
      = (current.values.map f).sum + (taken.map fun t => f t.left - f t.lot).sum := by
  induction taken generalizing current with
  | nil => simp [takeAll]
  | cons t taken ih =>
      rw [List.map_cons, List.nodup_cons] at hdistinct
      have hstep : ((takeAll (t :: taken) current).values.map f).sum
          = ((current.insert t.lot.lotId t.left).values.map f).sum
            + (taken.map fun u => f u.left - f u.lot).sum := by
        refine ih hdistinct.2 fun u hu => ?_
        have hne : u.lot.lotId ≠ t.lot.lotId := fun heq =>
          hdistinct.1 (List.mem_map.2 ⟨u, hu, heq⟩)
        rw [OrderedDict.get?_insert, if_neg hne]
        exact hget u (List.mem_cons_of_mem t hu)
      rw [hstep, OrderedDict.sum_insert t.left f (hget t List.mem_cons_self), List.map_cons,
        List.sum_cons]
      ring

theorem mem_takeAll (hid : ∀ t ∈ taken, t.left.lotId = t.lot.lotId) (hkeyed : Keyed current)
    {l : PositionLot} (h : l ∈ (takeAll taken current).values) :
    (∃ t ∈ taken, l = t.left) ∨ l ∈ current.values := by
  induction taken generalizing current with
  | nil => exact .inr h
  | cons t taken ih =>
      have hkeyed' := keyed_insert_left hkeyed (hid t List.mem_cons_self)
      rcases ih (fun u hu => hid u (List.mem_cons_of_mem t hu)) hkeyed' h with ⟨u, hu, rfl⟩ | hmem
      · exact .inl ⟨u, List.mem_cons_of_mem t hu, rfl⟩
      · rcases OrderedDict.mem_values_insert hmem with rfl | ⟨k, -, hk⟩
        · exact .inl ⟨t, List.mem_cons_self, rfl⟩
        · exact .inr (OrderedDict.mem_values.2 ⟨k, hk⟩)

theorem forall_takeAll {P : PositionLot → Prop} (hid : ∀ t ∈ taken, t.left.lotId = t.lot.lotId)
    (hkeyed : Keyed current) (hleft : ∀ t ∈ taken, P t.left) (hold : ∀ l ∈ current.values, P l) :
    ∀ l ∈ (takeAll taken current).values, P l := by
  intro l hl
  rcases mem_takeAll hid hkeyed hl with ⟨t, ht, rfl⟩ | hl
  · exact hleft t ht
  · exact hold l hl

theorem TakenFrom.sum_eq {change : PositionLot → ℚ → PositionLotFields}
    (h : TakenFrom change current.values taken) (hkeyed : Keyed current) {f : PositionLot → ℚ}
    {g : Taken → ℚ} (hfg : ∀ t ∈ taken, f t.left = f t.lot + g t) :
    ((takeAll taken current).values.map f).sum
      = (current.values.map f).sum + (taken.map g).sum := by
  have hdiff : (taken.map fun t => f t.left - f t.lot) = taken.map g :=
    List.map_congr_left fun t ht => by rw [hfg t ht, add_sub_cancel_left]
  rw [sum_takeAll f h.distinct fun t ht => hkeyed.get?_lotId (h.mem t ht), hdiff]

theorem TakenFrom.sum_same {change : PositionLot → ℚ → PositionLotFields}
    (h : TakenFrom change current.values taken) (hkeyed : Keyed current) {f : PositionLot → ℚ}
    (hf : ∀ t ∈ taken, f t.left = f t.lot) :
    ((takeAll taken current).values.map f).sum = (current.values.map f).sum := by
  have hzero : ∀ t ∈ taken, f t.left = f t.lot + 0 := fun t ht => by rw [hf t ht, add_zero]
  rw [h.sum_eq hkeyed hzero]
  simp

end TakeAll

/-- A fee that was debited took units from lots; with what is left they make up what there was. -/
theorem debitLots_ok {fee : AssetFee} {lots : List PositionLot} {remaining rest : ℚ}
    {current current' : OrderedDict String PositionLot}
    (h : debitLots fee lots remaining current = .ok (rest, current')) :
    ∃ taken : List Taken, (taken.map fun t => t.lot).Sublist lots ∧
      (∀ t ∈ taken, 0 < t.units ∧
        t.left.toPositionLotFields = debitedFields fee t.lot t.units) ∧
      current' = takeAll taken current ∧ (taken.map fun t => t.units).sum + rest = remaining := by
  induction lots generalizing remaining current with
  | nil =>
      cases h
      exact ⟨[], List.nil_sublist _, by simp, rfl, by simp⟩
  | cons lot lots ih =>
      simp only [debitLots] at h
      split at h
      · obtain ⟨taken, hsub, hrest⟩ := ih h
        exact ⟨taken, hsub.cons lot, hrest⟩
      · rename_i hpos
        obtain ⟨debited, hmake, h⟩ := except_bind_eq_ok.1 h
        obtain ⟨taken, hsub, hall, rfl, hsum⟩ := ih h
        refine ⟨⟨lot, min remaining lot.remainingQuantity, debited⟩ :: taken, hsub.cons_cons lot,
          fun t ht => ?_, rfl, ?_⟩
        · rcases List.mem_cons.1 ht with rfl | ht
          · exact ⟨not_le.1 hpos, PositionLot.make_eq_ok_iff.1 hmake⟩
          · exact hall t ht
        · rw [List.map_cons, List.sum_cons, add_assoc, hsum]
          ring

/-- The closures of a sale take units from their lots. -/
theorem closeLots_ok {event : SettlementEvent} {closures : List LotClosure}
    {current current' : OrderedDict String PositionLot}
    (h : closeLots event closures current = .ok current') :
    ∃ taken : List Taken, current' = takeAll taken current ∧
      List.Forall₂ (fun c t => t.lot = c.lot ∧ t.units = c.quantity ∧
        t.left.toPositionLotFields = soldFields event c.lot c.quantity c.pnl) closures taken := by
  induction closures generalizing current with
  | nil =>
      cases h
      exact ⟨[], rfl, .nil⟩
  | cons c closures ih =>
      obtain ⟨lot, hmake, h⟩ := except_bind_eq_ok.1 h
      obtain ⟨taken, rfl, hall⟩ := ih h
      exact ⟨⟨c.lot, c.quantity, lot⟩ :: taken, rfl,
        .cons ⟨rfl, rfl, PositionLot.make_eq_ok_iff.1 hmake⟩ hall⟩

/-! ### What one occurrence does -/

section Turns

variable {st st' : Replay} {fee : AssetFee} {event : SettlementEvent}
  {origins : String → Option PositionLot}

/-- What a sale leaves of a lot, at the profit of its closure. -/
def soldAt (event : SettlementEvent) (multiplier : ℚ) (lot : PositionLot) (quantity : ℚ) :
    PositionLotFields :=
  soldFields event lot quantity (closurePnl lot event.price quantity multiplier)

theorem applyFee_ok (hkeyed : Keyed st.current) (h : applyFee fee st = .ok st') :
    ∃ taken, TakenFrom (debitedFields fee) st.current.values taken ∧
      (taken.map fun t => t.units).sum = fee.quantity ∧
      st' = { st with current := takeAll taken st.current } := by
  obtain ⟨⟨rest, current⟩, hdebit, h⟩ := except_bind_eq_ok.1 h
  obtain ⟨_, hrest, h⟩ := except_bind_eq_ok.1 h
  cases h
  obtain ⟨taken, hsub, hall, rfl, hsum⟩ := debitLots_ok hdebit
  have hzero : rest = 0 := by simpa using hrest
  have hperm := List.perm_insertionSort feeOrder st.current.values
  refine ⟨taken, ⟨?_, fun t ht => ?_, fun t ht => (hall t ht).1, fun t ht => (hall t ht).2⟩, ?_, rfl⟩
  · have hnodup := (hperm.map (·.lotId)).nodup_iff.2 hkeyed.nodup_lotId
    have hids := (hsub.map (·.lotId)).nodup hnodup
    rwa [List.map_map] at hids
  · exact hperm.subset (hsub.subset (List.mem_map.2 ⟨t, ht, rfl⟩))
  · rw [← hsum, hzero, add_zero]

/-- A purchase puts the lot that it opened with the others. -/
theorem applyFill_buy (hside : event.side = .buy) (h : applyFill origins event st = .ok st') :
    ∃ lot opened : PositionLot, origins event.fillId = some lot ∧
      opened.toPositionLotFields = reopenedFields lot.toPositionLotFields ∧
      st' = { current := st.current.insert lot.lotId opened
              realized := st.realized.insert event.fillId 0 } := by
  unfold applyFill at h
  rw [if_pos hside] at h
  cases horigin : origins event.fillId with
  | none =>
      rw [horigin] at h
      cases h
  | some lot =>
      rw [horigin] at h
      obtain ⟨opened, hmake, h⟩ := except_bind_eq_ok.1 h
      cases h
      exact ⟨lot, opened, rfl, PositionLot.make_eq_ok_iff.1 hmake, rfl⟩

/-- A sale that no lot knows yet takes its quantity from the lots, which are all long. -/
theorem applyFill_sell (hkeyed : Keyed st.current) (hside : event.side ≠ .buy)
    (hlong : ∀ l ∈ st.current.values, l.positionSide = .long)
    (hfresh : ∀ l ∈ st.current.values, event.fillId ∉ l.closures)
    (h : applyFill origins event st = .ok st') :
    ∃ taken multiplier, contractMultiplierOf event.asset = .ok multiplier ∧
      TakenFrom (soldAt event multiplier) st.current.values taken ∧
      (taken.map fun t => t.units).sum = event.quantity ∧
      st' = { current := takeAll taken st.current
              realized := st.realized.insert event.fillId
                (taken.map fun t => closurePnl t.lot event.price t.units multiplier).sum } := by
  unfold applyFill at h
  rw [if_neg hside] at h
  obtain ⟨plan, hplan, h⟩ := except_bind_eq_ok.1 h
  obtain ⟨_, hopening, h⟩ := except_bind_eq_ok.1 h
  obtain ⟨current, hclose, h⟩ := except_bind_eq_ok.1 h
  cases h
  obtain ⟨multiplier, hm, -⟩ := planSignedLotFill_ok hplan
  obtain ⟨taken, rfl, hall⟩ := closeLots_ok hclose
  have hlookup : ∀ l ∈ st.current.values, l.closures.lookup event.fillId = none := fun l hl =>
    AList.lookup_eq_none.2 (hfresh l hl)
  have hclosed : alreadyClosed st.current.values event.fillId = 0 := by
    refine List.sum_eq_zero fun x hx => ?_
    obtain ⟨l, hl, rfl⟩ := List.mem_map.1 hx
    rw [hlookup l hl]
    rfl
  have hopened : alreadyOpened st.current.values event.fillId (openingDirection event.side) = 0 := by
    refine List.sum_eq_zero fun x hx => ?_
    obtain ⟨l, hl, rfl⟩ := List.mem_map.1 hx
    rw [List.mem_filter] at hl
    have hshort : openingDirection event.side = .short := if_neg hside
    simp [hlong l hl.1, hshort] at hl
  have hlots : plan.closures.map (fun c => c.lot.lotId) = taken.map fun t => t.lot.lotId :=
    map_eq_of_forall₂ hall fun c t hct => by rw [hct.1]
  have hunits : plan.closures.map (fun c => c.quantity) = taken.map fun t => t.units :=
    map_eq_of_forall₂ hall fun c t hct => hct.2.1.symm
  have hplanned : ∀ t ∈ taken, ∃ c ∈ plan.closures, t.lot = c.lot ∧ t.units = c.quantity ∧
      t.left.toPositionLotFields = soldFields event c.lot c.quantity c.pnl := fun t ht =>
    exists_left_of_forall₂ hall ht
  have hpnl : ∀ c ∈ plan.closures,
      c.pnl = closurePnl c.lot event.price c.quantity multiplier := fun c hc => by
    obtain ⟨-, -, -, -, m, hm', hpnl⟩ := planSignedLotFill_closure hplan hc
    rw [hm, Except.ok.injEq] at hm'
    rw [hpnl, hm']
  refine ⟨taken, multiplier, hm, ⟨?_, fun t ht => ?_, fun t ht => ?_, fun t ht => ?_⟩, ?_, ?_⟩
  · rw [← hlots]
    exact planSignedLotFill_distinct hplan hkeyed.nodup_lotId
  · obtain ⟨c, hc, hlot, -⟩ := hplanned t ht
    rw [hlot]
    exact (planSignedLotFill_closure hplan hc).1
  · obtain ⟨c, hc, -, hunit, -⟩ := hplanned t ht
    rw [hunit]
    exact (planSignedLotFill_closure hplan hc).2.2.1
  · obtain ⟨c, hc, hlot, hunit, hleft⟩ := hplanned t ht
    rw [hleft, hlot, hunit, hpnl c hc]
    rfl
  · have htotal := planSignedLotFill_total hplan
    have hrest : plan.openingQuantity = 0 := by simpa using hopening
    rw [hclosed, hopened, hrest, hunits] at htotal
    linarith
  · have hrealized := planSignedLotFill_realized hplan hm
    have hbefore : (st.current.values.map fun l => (l.closures.lookup event.fillId).elim 0 fun q =>
        closurePnl l event.price q multiplier).sum = 0 := by
      refine List.sum_eq_zero fun x hx => ?_
      obtain ⟨l, hl, rfl⟩ := List.mem_map.1 hx
      rw [hlookup l hl]
      rfl
    have hmade : plan.closures.map (fun c => c.pnl)
        = taken.map fun t => closurePnl t.lot event.price t.units multiplier := by
      rw [List.map_congr_left hpnl]
      exact map_eq_of_forall₂ hall fun c t hct => by rw [hct.1, hct.2.1]
    rw [hrealized, hbefore, zero_add, hmade]

end Turns

/-! ### Accounts -/

/-- The units that a fee debited from lots. -/
def unitsDebited (lots : List PositionLot) (activityId : String) : ℚ :=
  (lots.map fun l => (l.assetFeeQuantities.lookup activityId).getD 0).sum

/-- What lots say a sale realized. -/
def saleValue (lots : List PositionLot) (event : SettlementEvent) (multiplier : ℚ) : ℚ :=
  (lots.map fun l =>
    (event.price - l.acquisitionPrice) * (l.closures.lookup event.fillId).getD 0 * multiplier).sum

/-- What an occurrence adds to the inventory. -/
def Occurrence.units : Occurrence → ℚ
  | .fill event => if event.side = .buy then event.quantity else -event.quantity
  | .fee receipt => -receipt.quantity

/-- Two occurrences that are different executions, different fees, or one of each. -/
def Occurrence.Apart : Occurrence → Occurrence → Prop
  | .fill a, .fill b => a.fillId ≠ b.fillId
  | .fee a, .fee b => a.activityId ≠ b.activityId
  | _, _ => True

/-- Two states of one lot: they differ in what fills and fees left of it only. -/
def SameSource (a b : PositionLot) : Prop :=
  reopenedFields a.toPositionLotFields = reopenedFields b.toPositionLotFields

theorem SameSource.lotId {a b : PositionLot} (h : SameSource a b) : a.lotId = b.lotId :=
  congrArg (·.lotId) h

/-- What the lots and the realized values say about the occurrences so far. -/
structure Accounts (lots : List PositionLot) (past : List Occurrence) (st : Replay) : Prop where
  keyed : Keyed st.current
  long : ∀ l ∈ st.current.values, l.positionSide = .long
  source : ∀ l ∈ st.current.values, ∃ lot ∈ lots, SameSource lot l ∧
    ∃ event, .fill event ∈ past ∧ event.fillId = lot.originatingFillId
  conserved : ∀ l ∈ st.current.values, l.Conserved
  closer : ∀ l ∈ st.current.values, ∀ id ∈ l.closures,
    ∃ event, .fill event ∈ past ∧ event.fillId = id
  debitor : ∀ l ∈ st.current.values, ∀ id ∈ l.assetFeeQuantities,
    ∃ fee, .fee fee ∈ past ∧ fee.activityId = id
  debited : ∀ fee, .fee fee ∈ past → unitsDebited st.current.values fee.activityId = fee.quantity
  closed : ∀ event, .fill event ∈ past → event.side ≠ .buy →
    alreadyClosed st.current.values event.fillId = event.quantity
  realized : ∀ event, .fill event ∈ past → event.side ≠ .buy →
    ∃ multiplier, contractMultiplierOf event.asset = .ok multiplier ∧
      st.realized.get? event.fillId = some (saleValue st.current.values event multiplier)
  total : (st.current.values.map fun l => l.remainingQuantity).sum
    = (past.map Occurrence.units).sum

theorem accounts_empty (lots : List PositionLot) : Accounts lots [] {} := by
  have hnone : ∀ l, l ∉ ({} : Replay).current.values := fun l hl => by
    simp [OrderedDict.values, OrderedDict.empty] at hl
  refine ⟨fun e he => ?_, fun l hl => (hnone l hl).elim, fun l hl => (hnone l hl).elim,
    fun l hl => (hnone l hl).elim, fun l hl => (hnone l hl).elim, fun l hl => (hnone l hl).elim,
    fun _ h => ?_, fun _ h => ?_, fun _ h => ?_, rfl⟩
  · cases he
  all_goals cases h

/-- The sum of a dictionary after a value was stored under a new key. -/
theorem total_insert {d : Dict ℚ} {k : String} (q : ℚ) (h : k ∉ d) :
    Dict.total (d.insert k q) = q + d.total := by
  rw [Dict.total, Dict.total, AList.entries_insert_of_notMem h, List.map_cons, List.sum_cons]

namespace Accounts

variable {lots : List PositionLot} {past : List Occurrence} {st : Replay}

/-- Nothing was closed by an execution that comes later. -/
theorem fresh_fill (h : Accounts lots past st) {event : SettlementEvent}
    (hfresh : ∀ x ∈ past, x.Apart (.fill event)) :
    ∀ l ∈ st.current.values, event.fillId ∉ l.closures := by
  intro l hl hmem
  obtain ⟨e, he, hid⟩ := h.closer l hl _ hmem
  exact hfresh _ he hid

theorem fresh_fee (h : Accounts lots past st) {fee : AssetFee}
    (hfresh : ∀ x ∈ past, x.Apart (.fee fee)) :
    ∀ l ∈ st.current.values, fee.activityId ∉ l.assetFeeQuantities := by
  intro l hl hmem
  obtain ⟨f, hf, hid⟩ := h.debitor l hl _ hmem
  exact hfresh _ hf hid

/-- A change of lots that takes units and leaves what the lots are. -/
def KeepsSource (change : PositionLot → ℚ → PositionLotFields) : Prop :=
  ∀ lot q, reopenedFields (change lot q) = reopenedFields lot.toPositionLotFields ∧
    (change lot q).remainingQuantity = lot.remainingQuantity - q

section Taking

variable {change : PositionLot → ℚ → PositionLotFields} {taken : List Taken}

theorem sameSource_left {lots : List PositionLot} (hchange : KeepsSource change)
    (htaken : TakenFrom change lots taken) : ∀ t ∈ taken, SameSource t.left t.lot :=
  fun t ht => by rw [SameSource, htaken.left t ht, (hchange _ _).1]

theorem lotId_left {lots : List PositionLot} (hchange : KeepsSource change)
    (htaken : TakenFrom change lots taken) : ∀ t ∈ taken, t.left.lotId = t.lot.lotId :=
  fun t ht => (sameSource_left hchange htaken t ht).lotId

/-- The lots after a taking are long, and come from where they came from. -/
theorem source_takeAll (h : Accounts lots past st) (hchange : KeepsSource change)
    (htaken : TakenFrom change st.current.values taken) (x : Occurrence) :
    ∀ l ∈ (takeAll taken st.current).values, l.positionSide = .long ∧
      ∃ lot ∈ lots, SameSource lot l ∧
        ∃ event, .fill event ∈ past ++ [x] ∧ event.fillId = lot.originatingFillId := by
  have hold : ∀ l ∈ st.current.values, l.positionSide = .long ∧
      ∃ lot ∈ lots, SameSource lot l ∧
        ∃ event, .fill event ∈ past ++ [x] ∧ event.fillId = lot.originatingFillId := by
    intro l hl
    obtain ⟨lot, hlot, hsource, event, hpast, hfill⟩ := h.source l hl
    exact ⟨h.long l hl, lot, hlot, hsource, event, List.mem_append_left _ hpast, hfill⟩
  refine forall_takeAll (lotId_left hchange htaken) h.keyed (fun t ht => ?_) hold
  have hsame := sameSource_left hchange htaken t ht
  have hside : t.left.positionSide = t.lot.positionSide := congrArg (·.positionSide) hsame
  obtain ⟨hlong, lot, hlot, hsource, hevent⟩ := hold t.lot (htaken.mem t ht)
  exact ⟨hside.trans hlong, lot, hlot, hsource.trans hsame.symm, hevent⟩

theorem sum_remaining (h : Accounts lots past st) (hchange : KeepsSource change)
    (htaken : TakenFrom change st.current.values taken) :
    ((takeAll taken st.current).values.map fun l => l.remainingQuantity).sum
      = (past.map Occurrence.units).sum - (taken.map fun t => t.units).sum := by
  have hunits : ∀ t ∈ taken, t.left.remainingQuantity = t.lot.remainingQuantity + -t.units :=
    fun t ht => by rw [htaken.left t ht, (hchange _ _).2, sub_eq_add_neg]
  rw [htaken.sum_eq h.keyed hunits, h.total, sub_eq_add_neg, List.sum_neg, List.map_map]
  rfl

/-- Nothing that is not taken for a sale changes what the sale closed and realized. -/
theorem sale_takeAll (h : Accounts lots past st) (hchange : KeepsSource change)
    (htaken : TakenFrom change st.current.values taken) {event : SettlementEvent}
    (hsame : ∀ lot q, (change lot q).closures.lookup event.fillId
      = lot.closures.lookup event.fillId) :
    alreadyClosed (takeAll taken st.current).values event.fillId
        = alreadyClosed st.current.values event.fillId ∧
      ∀ multiplier, saleValue (takeAll taken st.current).values event multiplier
        = saleValue st.current.values event multiplier := by
  refine ⟨htaken.sum_same h.keyed fun t ht => ?_,
    fun multiplier => htaken.sum_same h.keyed fun t ht => ?_⟩
  · rw [htaken.left t ht, hsame]
  · have hprice : t.left.acquisitionPrice = t.lot.acquisitionPrice :=
      congrArg (·.acquisitionPrice) (sameSource_left hchange htaken t ht)
    rw [hprice, htaken.left t ht, hsame]

theorem debited_takeAll (h : Accounts lots past st)
    (htaken : TakenFrom change st.current.values taken) {id : String}
    (hsame : ∀ lot q, (change lot q).assetFeeQuantities.lookup id
      = lot.assetFeeQuantities.lookup id) :
    unitsDebited (takeAll taken st.current).values id = unitsDebited st.current.values id :=
  htaken.sum_same h.keyed fun t ht => by rw [htaken.left t ht, hsame]

end Taking

theorem applyFee {st' : Replay} {fee : AssetFee} (h : Accounts lots past st)
    (hfresh : ∀ x ∈ past, x.Apart (.fee fee)) (hx : HistoricalFees.applyFee fee st = .ok st') :
    Accounts lots (past ++ [.fee fee]) st' := by
  obtain ⟨taken, htaken, hunits, rfl⟩ := applyFee_ok h.keyed hx
  have hchange : KeepsSource (debitedFields fee) := fun _ _ => ⟨rfl, rfl⟩
  have hid := lotId_left hchange htaken
  have hnew := h.fresh_fee hfresh
  have hfill : ∀ {event : SettlementEvent}, .fill event ∈ past ++ [.fee fee] →
      .fill event ∈ past := fun hmem => by simpa using hmem
  have hsource := h.source_takeAll hchange htaken (.fee fee)
  refine ⟨keyed_takeAll h.keyed hid, fun l hl => (hsource l hl).1, fun l hl => (hsource l hl).2,
    ?_, ?_, ?_, ?_, ?_, ?_, ?_⟩
  · refine forall_takeAll hid h.keyed (fun t ht => ?_) h.conserved
    have hlot := htaken.mem t ht
    have hbefore : t.lot.Conserved := h.conserved t.lot hlot
    unfold PositionLot.Conserved at hbefore ⊢
    rw [htaken.left t ht, debitedFields, total_insert _ (hnew t.lot hlot)]
    linarith
  · have hold : ∀ l ∈ st.current.values, ∀ id ∈ l.closures,
        ∃ event, .fill event ∈ past ++ [.fee fee] ∧ event.fillId = id := fun l hl id hmem => by
      obtain ⟨event, hpast, hfill⟩ := h.closer l hl id hmem
      exact ⟨event, List.mem_append_left _ hpast, hfill⟩
    refine forall_takeAll hid h.keyed (fun t ht => ?_) hold
    rw [htaken.left t ht]
    exact hold t.lot (htaken.mem t ht)
  · have hold : ∀ l ∈ st.current.values, ∀ id ∈ l.assetFeeQuantities,
        ∃ f, .fee f ∈ past ++ [.fee fee] ∧ f.activityId = id := fun l hl id hmem => by
      obtain ⟨f, hpast, hf⟩ := h.debitor l hl id hmem
      exact ⟨f, List.mem_append_left _ hpast, hf⟩
    refine forall_takeAll hid h.keyed (fun t ht id hmem => ?_) hold
    rw [htaken.left t ht, debitedFields, AList.mem_insert] at hmem
    rcases hmem with rfl | hmem
    · exact ⟨fee, by simp, rfl⟩
    · exact hold t.lot (htaken.mem t ht) id hmem
  · intro f hf
    rw [List.mem_append, List.mem_singleton] at hf
    rcases hf with hf | hf
    · have hne : f.activityId ≠ fee.activityId := hfresh _ hf
      rw [h.debited_takeAll htaken fun _ _ => AList.lookup_insert_ne hne, h.debited f hf]
    -- the fee itself: its debits are the units that were taken
    · cases hf
      have hunit : ∀ t ∈ taken, (t.left.assetFeeQuantities.lookup fee.activityId).getD 0
          = (t.lot.assetFeeQuantities.lookup fee.activityId).getD 0 + t.units := fun t ht => by
        rw [htaken.left t ht, debitedFields, AList.lookup_insert,
          AList.lookup_eq_none.2 (hnew t.lot (htaken.mem t ht))]
        simp
      have hzero : unitsDebited st.current.values fee.activityId = 0 := by
        refine List.sum_eq_zero fun x hx => ?_
        obtain ⟨l, hl, rfl⟩ := List.mem_map.1 hx
        rw [AList.lookup_eq_none.2 (hnew l hl)]
        rfl
      rw [unitsDebited] at hzero ⊢
      rw [htaken.sum_eq h.keyed hunit, hzero, hunits, zero_add]
  · intro e he hside
    rw [(h.sale_takeAll hchange htaken fun _ _ => rfl).1, h.closed e (hfill he) hside]
  · intro e he hside
    obtain ⟨multiplier, hm, hget⟩ := h.realized e (hfill he) hside
    refine ⟨multiplier, hm, ?_⟩
    rw [(h.sale_takeAll hchange htaken fun _ _ => rfl).2, hget]
  · rw [h.sum_remaining hchange htaken, hunits, List.map_append, List.sum_append]
    simp [Occurrence.units, sub_eq_add_neg]

theorem sell {st' : Replay} {origins : String → Option PositionLot} {event : SettlementEvent}
    (h : Accounts lots past st) (hfresh : ∀ x ∈ past, x.Apart (.fill event))
    (hside : event.side ≠ .buy) (hx : applyFill origins event st = .ok st') :
    Accounts lots (past ++ [.fill event]) st' := by
  have hnew := h.fresh_fill hfresh
  obtain ⟨taken, multiplier, hm, htaken, hunits, rfl⟩ :=
    applyFill_sell h.keyed hside h.long hnew hx
  have hchange : KeepsSource (soldAt event multiplier) := fun _ _ => ⟨rfl, rfl⟩
  have hid := lotId_left hchange htaken
  have hfee : ∀ {fee : AssetFee}, .fee fee ∈ past ++ [.fill event] → .fee fee ∈ past :=
    fun hmem => by simpa using hmem
  have hsource := h.source_takeAll hchange htaken (.fill event)
  -- no lot has a closure by this sale yet
  have hlookup : ∀ l ∈ st.current.values, l.closures.lookup event.fillId = none := fun l hl =>
    AList.lookup_eq_none.2 (hnew l hl)
  have hunit : ∀ t ∈ taken, (t.left.closures.lookup event.fillId).getD 0 = t.units :=
    fun t ht => by rw [htaken.left t ht, soldAt, soldFields, AList.lookup_insert, Option.getD_some]
  refine ⟨keyed_takeAll h.keyed hid, fun l hl => (hsource l hl).1, fun l hl => (hsource l hl).2,
    ?_, ?_, ?_, ?_, ?_, ?_, ?_⟩
  · refine forall_takeAll hid h.keyed (fun t ht => ?_) h.conserved
    have hlot := htaken.mem t ht
    have hbefore : t.lot.Conserved := h.conserved t.lot hlot
    unfold PositionLot.Conserved at hbefore ⊢
    rw [htaken.left t ht, soldAt, soldFields, total_insert _ (hnew t.lot hlot)]
    linarith
  · have hold : ∀ l ∈ st.current.values, ∀ id ∈ l.closures,
        ∃ e, .fill e ∈ past ++ [.fill event] ∧ e.fillId = id := fun l hl id hmem => by
      obtain ⟨e, hpast, hfill⟩ := h.closer l hl id hmem
      exact ⟨e, List.mem_append_left _ hpast, hfill⟩
    refine forall_takeAll hid h.keyed (fun t ht id hmem => ?_) hold
    rw [htaken.left t ht, soldAt, soldFields, AList.mem_insert] at hmem
    rcases hmem with rfl | hmem
    · exact ⟨event, by simp, rfl⟩
    · exact hold t.lot (htaken.mem t ht) id hmem
  · have hold : ∀ l ∈ st.current.values, ∀ id ∈ l.assetFeeQuantities,
        ∃ f, .fee f ∈ past ++ [.fill event] ∧ f.activityId = id := fun l hl id hmem => by
      obtain ⟨f, hpast, hf⟩ := h.debitor l hl id hmem
      exact ⟨f, List.mem_append_left _ hpast, hf⟩
    refine forall_takeAll hid h.keyed (fun t ht => ?_) hold
    rw [htaken.left t ht]
    exact hold t.lot (htaken.mem t ht)
  · intro f hf
    rw [h.debited_takeAll htaken fun _ _ => rfl, h.debited f (hfee hf)]
  · intro e he hsell
    rw [List.mem_append, List.mem_singleton] at he
    rcases he with he | he
    · have hne : e.fillId ≠ event.fillId := hfresh _ he
      rw [(h.sale_takeAll hchange htaken fun _ _ => AList.lookup_insert_ne hne).1,
        h.closed e he hsell]
    -- the sale itself: its closures are the units that were taken
    · cases he
      have hadd : ∀ t ∈ taken, (t.left.closures.lookup event.fillId).getD 0
          = (t.lot.closures.lookup event.fillId).getD 0 + t.units := fun t ht => by
        rw [hunit t ht, hlookup t.lot (htaken.mem t ht)]
        simp
      have hzero : alreadyClosed st.current.values event.fillId = 0 := by
        refine List.sum_eq_zero fun x hx => ?_
        obtain ⟨l, hl, rfl⟩ := List.mem_map.1 hx
        rw [hlookup l hl]
        rfl
      rw [alreadyClosed] at hzero ⊢
      rw [htaken.sum_eq h.keyed hadd, hzero, hunits, zero_add]
  · intro e he hsell
    rw [List.mem_append, List.mem_singleton] at he
    rcases he with he | he
    · have hne : e.fillId ≠ event.fillId := hfresh _ he
      obtain ⟨m, hem, hget⟩ := h.realized e he hsell
      refine ⟨m, hem, ?_⟩
      rw [(h.sale_takeAll hchange htaken fun _ _ => AList.lookup_insert_ne hne).2,
        OrderedDict.get?_insert, if_neg hne, hget]
    · cases he
      refine ⟨multiplier, hm, ?_⟩
      have hadd : ∀ t ∈ taken, (event.price - t.left.acquisitionPrice)
          * (t.left.closures.lookup event.fillId).getD 0 * multiplier
            = (event.price - t.lot.acquisitionPrice)
              * (t.lot.closures.lookup event.fillId).getD 0 * multiplier
              + closurePnl t.lot event.price t.units multiplier := fun t ht => by
        have hprice : t.left.acquisitionPrice = t.lot.acquisitionPrice :=
          congrArg (·.acquisitionPrice) (sameSource_left hchange htaken t ht)
        rw [hunit t ht, hlookup t.lot (htaken.mem t ht), closurePnl,
          h.long t.lot (htaken.mem t ht), hprice]
        simp
      have hzero : saleValue st.current.values event multiplier = 0 := by
        refine List.sum_eq_zero fun x hx => ?_
        obtain ⟨l, hl, rfl⟩ := List.mem_map.1 hx
        rw [hlookup l hl]
        simp
      rw [saleValue] at hzero ⊢
      rw [OrderedDict.get?_insert, if_pos rfl, htaken.sum_eq h.keyed hadd, hzero, zero_add]
  · rw [h.sum_remaining hchange htaken, hunits, List.map_append, List.sum_append]
    simp [Occurrence.units, hside, sub_eq_add_neg]

theorem sum_insert_opened {lot opened : PositionLot} (hfresh : lot.lotId ∉ st.current.keys)
    (f : PositionLot → ℚ) :
    ((st.current.insert lot.lotId opened).values.map f).sum
      = (st.current.values.map f).sum + f opened := by
  rw [OrderedDict.values_insert_of_notMem hfresh, List.map_append, List.sum_append]
  simp

theorem buy {st' : Replay} {event : SettlementEvent} (h : Accounts lots past st)
    (hdistinct : (lots.map (·.lotId)).Nodup) (hfresh : ∀ x ∈ past, x.Apart (.fill event))
    (hlong : ∀ lot ∈ lots, lot.positionSide = .long)
    (hopens : ∀ lot ∈ lots, lot.originatingFillId = event.fillId →
      lot.openedQuantity = event.quantity)
    (hside : event.side = .buy) (hx : applyFill (originOf lots) event st = .ok st') :
    Accounts lots (past ++ [.fill event]) st' := by
  obtain ⟨lot, opened, horigin, hfields, rfl⟩ := applyFill_buy hside hx
  have hlot : lot ∈ lots := List.mem_of_find?_eq_some horigin
  have hfill : lot.originatingFillId = event.fillId := by simpa using List.find?_some horigin
  have hid : opened.lotId = lot.lotId := by
    rw [hfields]
    rfl
  have hclosures : opened.closures = ∅ := by
    rw [hfields]
    rfl
  have hfees : opened.assetFeeQuantities = ∅ := by
    rw [hfields]
    rfl
  -- the lot stands nowhere yet: what stands comes from an earlier purchase
  have hnew : lot.lotId ∉ st.current.keys := by
    intro hmem
    rw [← h.keyed.map_lotId] at hmem
    obtain ⟨l, hl, hlid⟩ := List.mem_map.1 hmem
    obtain ⟨source, hmem, hsource, e, hpast, he⟩ := h.source l hl
    have hsame : source = lot :=
      List.inj_on_of_nodup_map hdistinct hmem hlot (hsource.lotId.trans hlid)
    exact hfresh _ hpast (he.trans (hsame ▸ hfill))
  have hvalues : ∀ l ∈ (st.current.insert lot.lotId opened).values,
      l ∈ st.current.values ∨ l = opened := fun l hl => by
    rw [OrderedDict.values_insert_of_notMem hnew] at hl
    simpa using hl
  refine ⟨?_, fun l hl => ?_, fun l hl => ?_, fun l hl => ?_, fun l hl id hmem => ?_,
    fun l hl id hmem => ?_, fun f hf => ?_, fun e he hsell => ?_, fun e he hsell => ?_, ?_⟩
  · rw [← hid]
    exact h.keyed.insert opened
  · rcases hvalues l hl with hl | rfl
    · exact h.long l hl
    · rw [hfields]
      exact hlong lot hlot
  · rcases hvalues l hl with hl | rfl
    · obtain ⟨source, hmem, hsource, e, hpast, he⟩ := h.source l hl
      exact ⟨source, hmem, hsource, e, List.mem_append_left _ hpast, he⟩
    · exact ⟨lot, hlot, (congrArg reopenedFields hfields).symm, event, by simp, hfill.symm⟩
  · rcases hvalues l hl with hl | rfl
    · exact h.conserved l hl
    · unfold PositionLot.Conserved
      rw [hclosures, hfees, hfields]
      simp [reopenedFields, Dict.total]
  · rcases hvalues l hl with hl | rfl
    · obtain ⟨e, hpast, he⟩ := h.closer l hl id hmem
      exact ⟨e, List.mem_append_left _ hpast, he⟩
    · rw [hclosures] at hmem
      exact (AList.notMem_empty id hmem).elim
  · rcases hvalues l hl with hl | rfl
    · obtain ⟨f, hpast, hf⟩ := h.debitor l hl id hmem
      exact ⟨f, List.mem_append_left _ hpast, hf⟩
    · rw [hfees] at hmem
      exact (AList.notMem_empty id hmem).elim
  · have hold : .fee f ∈ past := by simpa using hf
    rw [unitsDebited, sum_insert_opened hnew, hfees, ← h.debited f hold]
    simp [unitsDebited]
  · rw [List.mem_append, List.mem_singleton] at he
    rcases he with he | he
    · rw [alreadyClosed, sum_insert_opened hnew, hclosures, ← h.closed e he hsell]
      simp [alreadyClosed]
    · cases he
      exact absurd hside hsell
  · rw [List.mem_append, List.mem_singleton] at he
    rcases he with he | he
    · have hne : e.fillId ≠ event.fillId := hfresh _ he
      obtain ⟨m, hm, hget⟩ := h.realized e he hsell
      refine ⟨m, hm, ?_⟩
      rw [saleValue, sum_insert_opened hnew, hclosures, OrderedDict.get?_insert, if_neg hne, hget]
      simp [saleValue]
    · cases he
      exact absurd hside hsell
  · have hremaining : opened.remainingQuantity = event.quantity := by
      rw [hfields, ← hopens lot hlot hfill]
      rfl
    rw [sum_insert_opened hnew, h.total, hremaining, List.map_append, List.sum_append]
    simp [Occurrence.units, hside]

end Accounts

/-- **One turn keeps the accounts.** -/
theorem accounts_replayOne {lots : List PositionLot} {past : List Occurrence} {st st' : Replay}
    {x : Occurrence} (h : Accounts lots past st) (hdistinct : (lots.map (·.lotId)).Nodup)
    (hlong : ∀ lot ∈ lots, lot.positionSide = .long) (hfresh : ∀ y ∈ past, y.Apart x)
    (hopens : ∀ event, x = .fill event → ∀ lot ∈ lots, lot.originatingFillId = event.fillId →
      lot.openedQuantity = event.quantity)
    (hx : replayOne (originOf lots) st x = .ok st') : Accounts lots (past ++ [x]) st' := by
  cases x with
  | fee fee => exact h.applyFee hfresh hx
  | fill event =>
      by_cases hside : event.side = .buy
      · exact h.buy hdistinct hfresh hlong (hopens event rfl) hside hx
      · exact h.sell hfresh hside hx

/-- **The rule of a replay**: what every turn keeps, with what was taken before it, the whole replay
keeps. -/
theorem replay_keeps {lots : List PositionLot} {I : List Occurrence → Replay → Prop}
    {past rest : List Occurrence} {st final : Replay} (h : I past st)
    (hturn : ∀ past x st st', I past st → (∀ y ∈ past, y.Apart x) → x ∈ rest →
      replayOne (originOf lots) st x = .ok st' → I (past ++ [x]) st')
    (hapart : (past ++ rest).Pairwise Occurrence.Apart)
    (hx : rest.foldlM (replayOne (originOf lots)) st = .ok final) : I (past ++ rest) final := by
  induction rest generalizing past st with
  | nil =>
      cases hx
      rwa [List.append_nil]
  | cons x rest ih =>
      rw [List.foldlM_cons] at hx
      obtain ⟨st', hone, hx⟩ := except_bind_eq_ok.1 hx
      rw [List.append_cons] at hapart ⊢
      have hfresh : ∀ y ∈ past, y.Apart x := fun y hy =>
        (List.pairwise_append.1 (List.pairwise_append.1 hapart).1).2.2 y hy x (by simp)
      have h' := hturn past x st st' h hfresh List.mem_cons_self hone
      exact ih h' (fun past x st st' h hfresh hmem =>
        hturn past x st st' h hfresh (List.mem_cons_of_mem _ hmem)) hapart hx

/-- **A whole replay keeps the accounts.** -/
theorem accounts_foldlM {lots : List PositionLot} {past rest : List Occurrence} {st final : Replay}
    (h : Accounts lots past st) (hdistinct : (lots.map (·.lotId)).Nodup)
    (hlong : ∀ lot ∈ lots, lot.positionSide = .long)
    (hapart : (past ++ rest).Pairwise Occurrence.Apart)
    (hopens : ∀ event, .fill event ∈ rest → ∀ lot ∈ lots, lot.originatingFillId = event.fillId →
      lot.openedQuantity = event.quantity)
    (hx : rest.foldlM (replayOne (originOf lots)) st = .ok final) :
    Accounts lots (past ++ rest) final :=
  replay_keeps h (fun _ _ _ _ h hfresh hmem hx =>
    accounts_replayOne h hdistinct hlong hfresh (fun event hevent => hopens event (hevent ▸ hmem)) hx)
    hapart hx

/-! ### The laws of conservation -/

theorem mem_chronology {settlements : List SettlementEvent} {fees : List AssetFee}
    {x : Occurrence} : x ∈ chronology settlements fees ↔
      (∃ event ∈ settlements, .fill event = x) ∨ ∃ fee ∈ fees, .fee fee = x := by
  simp [chronology, List.mem_insertionSort]

theorem Occurrence.Apart.symm {a b : Occurrence} (h : a.Apart b) : b.Apart a := by
  cases a <;> cases b <;> first | trivial | exact Ne.symm h

theorem pairwise_chronology {settlements : List SettlementEvent} {fees : List AssetFee}
    (hfills : (settlements.map (·.fillId)).Nodup) (hfees : (fees.map (·.activityId)).Nodup) :
    (chronology settlements fees).Pairwise Occurrence.Apart := by
  have hevents : settlements.Pairwise fun a b => a.fillId ≠ b.fillId := List.pairwise_map.1 hfills
  have hdebits : fees.Pairwise fun a b => a.activityId ≠ b.activityId := List.pairwise_map.1 hfees
  refine ((List.perm_insertionSort _ _).pairwise_iff fun h => h.symm).2 ?_
  rw [List.pairwise_append, List.pairwise_map, List.pairwise_map]
  refine ⟨hevents, hdebits, fun a ha b hb => ?_⟩
  obtain ⟨event, -, rfl⟩ := List.mem_map.1 ha
  obtain ⟨fee, -, rfl⟩ := List.mem_map.1 hb
  trivial

theorem units_chronology (settlements : List SettlementEvent) (fees : List AssetFee) :
    ((chronology settlements fees).map Occurrence.units).sum
      = ((settlements.filter fun e => e.side = .buy).map fun e => e.quantity).sum
        - ((settlements.filter fun e => e.side = .sell).map fun e => e.quantity).sum
        - (fees.map fun f => f.quantity).sum := by
  have hsort := ((List.perm_insertionSort Occurrence.NotAfter
    (settlements.map Occurrence.fill ++ fees.map Occurrence.fee)).map Occurrence.units).sum_eq
  have hfills : ∀ l : List SettlementEvent, (l.map fun e => (Occurrence.fill e).units).sum
      = ((l.filter fun e => e.side = .buy).map fun e => e.quantity).sum
        - ((l.filter fun e => e.side = .sell).map fun e => e.quantity).sum := fun l => by
    induction l with
    | nil => simp
    | cons e l ih =>
        rw [List.map_cons, List.sum_cons, ih]
        cases hside : e.side
        · simp [hside, Occurrence.units, add_sub_assoc]
        · simp only [Occurrence.units, hside, List.filter_cons, decide_true, if_true,
            List.map_cons, List.sum_cons, reduceCtorEq, decide_false, if_false, Bool.false_eq_true]
          ring
  rw [chronology, hsort, List.map_append, List.sum_append, List.map_map, List.map_map,
    sub_eq_add_neg _ (fees.map fun f => f.quantity).sum, List.sum_neg, List.map_map]
  exact congrArg₂ (· + ·) (hfills settlements) rfl

theorem perm_replayed {lots out : List PositionLot} {past : List Occurrence} {final : Replay}
    (h : Accounts lots past final) (hdistinct : (lots.map (·.lotId)).Nodup)
    (hout : (lots.map (·.lotId)).mapM (replayedLot final) = .ok out) :
    out.map (·.lotId) = lots.map (·.lotId) ∧ out.Perm final.current.values := by
  have hall := forall₂_of_mapM hout
  have hget : ∀ id replayed, replayedLot final id = .ok replayed →
      final.current.get? id = some replayed := fun id replayed hr => by
    unfold replayedLot at hr
    split at hr
    · cases hr
    · rename_i found hfound
      cases hr
      exact hfound
  have hids : out.map (·.lotId) = lots.map (·.lotId) := by
    have hkeys : (lots.map (·.lotId)).map id = out.map (·.lotId) :=
      map_eq_of_forall₂ hall fun id replayed hr =>
        (h.keyed _ (OrderedDict.get?_eq_some_iff.1 (hget id replayed hr))).symm
    rw [← hkeys, List.map_id]
  have hnodup : (out.map (·.lotId)).Nodup := hids ▸ hdistinct
  refine ⟨hids, (List.perm_ext_iff_of_nodup hnodup.of_map h.keyed.nodup_lotId.of_map).2 fun l => ?_⟩
  constructor
  · intro hl
    obtain ⟨id, -, hr⟩ := exists_left_of_forall₂ hall hl
    exact OrderedDict.mem_values.2 ⟨_, OrderedDict.get?_eq_some_iff.1 (hget id l hr)⟩
  · intro hl
    obtain ⟨lot, hlot, hsource, -⟩ := h.source l hl
    obtain ⟨replayed, hmem, hr⟩ :=
      exists_left_of_forall₂ hall.flip (List.mem_map.2 ⟨lot, hlot, rfl⟩)
    have hsame := hget lot.lotId replayed hr
    rw [hsource.lotId, h.keyed.get?_lotId hl, Option.some.injEq] at hsame
    exact hsame ▸ hmem

/-- The accounts of a replay that is accepted. -/
theorem accounts_of_preview {lots out : List PositionLot} {settlements : List SettlementEvent}
    {fees : List AssetFee} {realized : OrderedDict String ℚ}
    (hdistinct : (lots.map (·.lotId)).Nodup)
    (h : previewFeeReplay lots settlements fees = .ok (out, realized)) :
    ∃ final, Accounts lots (chronology settlements fees) final ∧
      out.map (·.lotId) = lots.map (·.lotId) ∧ out.Perm final.current.values ∧
      final.realized = realized := by
  obtain ⟨haccepted, final, hfold, hout, hrealized⟩ := previewFeeReplay_ok_iff.1 h
  have hopens : ∀ event, .fill event ∈ chronology settlements fees → ∀ lot ∈ lots,
      lot.originatingFillId = event.fillId → lot.openedQuantity = event.quantity := by
    intro event hevent lot hlot hfill
    have hmem : event ∈ settlements := by simpa [mem_chronology] using hevent
    obtain ⟨opening, hopening, hid, hopens⟩ := haccepted.opened lot hlot
    have hsame := mem_of_fillId haccepted.fills hopening hmem (hid.trans hfill)
    simp only [opensLot, Bool.and_eq_true, beq_iff_eq] at hopens
    rw [← hopens.1.1.2, hsame]
  have hapart := pairwise_chronology haccepted.fills haccepted.receipts
  have haccounts := accounts_foldlM (accounts_empty lots) hdistinct haccepted.long
    (by simpa using hapart) hopens hfold
  obtain ⟨hids, hperm⟩ := perm_replayed haccounts hdistinct hout
  exact ⟨final, haccounts, hids, hperm, hrealized⟩

section Accepted

variable {lots out : List PositionLot} {settlements : List SettlementEvent} {fees : List AssetFee}
  {realized : OrderedDict String ℚ}

theorem conserved_of_preview (hdistinct : (lots.map (·.lotId)).Nodup)
    (h : previewFeeReplay lots settlements fees = .ok (out, realized)) {lot : PositionLot}
    (hlot : lot ∈ out) : lot.Conserved := by
  obtain ⟨final, haccounts, -, hperm, -⟩ := accounts_of_preview hdistinct h
  exact haccounts.conserved lot (hperm.subset hlot)

theorem closed_of_preview (hdistinct : (lots.map (·.lotId)).Nodup)
    (h : previewFeeReplay lots settlements fees = .ok (out, realized)) {event : SettlementEvent}
    (he : event ∈ settlements) (hside : event.side = .sell) :
    alreadyClosed out event.fillId = event.quantity := by
  obtain ⟨final, haccounts, -, hperm, -⟩ := accounts_of_preview hdistinct h
  rw [alreadyClosed, (hperm.map _).sum_eq]
  exact haccounts.closed event (mem_chronology.2 (.inl ⟨_, he, rfl⟩)) (by simp [hside])

/-- What a sale realized is what its closures are worth. -/
theorem realized_of_preview (hdistinct : (lots.map (·.lotId)).Nodup)
    (h : previewFeeReplay lots settlements fees = .ok (out, realized)) {event : SettlementEvent}
    (he : event ∈ settlements) (hside : event.side = .sell) :
    ∃ multiplier, contractMultiplierOf event.asset = .ok multiplier ∧
      realized.get? event.fillId = some (saleValue out event multiplier) := by
  obtain ⟨final, haccounts, -, hperm, rfl⟩ := accounts_of_preview hdistinct h
  obtain ⟨multiplier, hm, hget⟩ :=
    haccounts.realized event (mem_chronology.2 (.inl ⟨_, he, rfl⟩)) (by simp [hside])
  refine ⟨multiplier, hm, ?_⟩
  rw [hget, saleValue, saleValue, (hperm.map _).sum_eq]

end Accepted

/-- **The laws of conservation.**  Of a replay that is accepted, of lots with distinct identifiers:
each lot returned has what remains, what was closed and what was debited make up what it opened
with; over the lots, what a fee debited is its quantity and what a sale closed is its quantity; what
remains is what was bought less what was sold and the fees; and a sale realized what its closures
are worth. -/
theorem previewFeeReplay_conserves {lots out : List PositionLot}
    {settlements : List SettlementEvent} {fees : List AssetFee} {realized : OrderedDict String ℚ}
    (hdistinct : (lots.map (·.lotId)).Nodup)
    (h : previewFeeReplay lots settlements fees = .ok (out, realized)) :
    (∀ lot ∈ out, 0 ≤ lot.remainingQuantity ∧
      lot.remainingQuantity + lot.closures.total + lot.assetFeeQuantities.total
        = lot.openedQuantity) ∧
    (∀ fee ∈ fees, unitsDebited out fee.activityId = fee.quantity) ∧
    (∀ event ∈ settlements, event.side = .sell →
      alreadyClosed out event.fillId = event.quantity) ∧
    (out.map fun lot => lot.remainingQuantity).sum
      = ((settlements.filter fun e => e.side = .buy).map fun e => e.quantity).sum
        - ((settlements.filter fun e => e.side = .sell).map fun e => e.quantity).sum
        - (fees.map fun f => f.quantity).sum ∧
    ∀ event ∈ settlements, event.side = .sell →
      ∃ multiplier, contractMultiplierOf event.asset = .ok multiplier ∧
        realized.get? event.fillId = some (saleValue out event multiplier) := by
  obtain ⟨final, haccounts, -, hperm, -⟩ := accounts_of_preview hdistinct h
  have hsum : ∀ f : PositionLot → ℚ, (out.map f).sum = (final.current.values.map f).sum :=
    fun f => (hperm.map f).sum_eq
  refine ⟨fun lot hlot => ⟨lot.remaining_nonneg, conserved_of_preview hdistinct h hlot⟩,
    fun fee hfee => ?_, fun event he hside => closed_of_preview hdistinct h he hside, ?_,
    fun event he hside => realized_of_preview hdistinct h he hside⟩
  · rw [unitsDebited, hsum]
    exact haccounts.debited fee (mem_chronology.2 (.inr ⟨fee, hfee, rfl⟩))
  · rw [hsum, haccounts.total, units_chronology]

/-! ### A replay of a purchase, a fee and a sale, and one of two lots with one identifier -/

/-- The pair of the examples. -/
def bitcoin : AssetIdentity :=
  { symbol := "BTC/USD", assetClass := .crypto, nativeAssetId := "alpaca:BTC/USD" }

/-- An execution of the examples, settled by every stage. -/
def settledFill (id : String) (side : Side) (quantity : ℚ) (occurredAt : Instant) :
    SettlementEventFields :=
  { settlementEventId := id
    fillId := id
    tradeIntentId := "intent"
    asset := bitcoin
    side := side
    executionMode := .live
    quantity := quantity
    price := 100
    occurredAt := occurredAt
    brokerFillId := some id
    lotProjected := true
    attributionProjected := true
    cashProjected := true
    holdingProjected := true
    tradeProjected := true
    integrityVerified := true
    status := .completed }

def bought : SettlementEvent := ⟨settledFill "bought" .buy 3 1, by decide +kernel⟩
def boughtMore : SettlementEvent := ⟨settledFill "bought more" .buy 1 2, by decide +kernel⟩
def sold : SettlementEvent := ⟨settledFill "sold" .sell 1 3, by decide +kernel⟩

/-- A lot of the examples. -/
def openedBy (lotId : String) (event : SettlementEvent) : PositionLotFields :=
  { lotId := lotId
    originatingFillId := event.fillId
    asset := bitcoin
    positionSide := .long
    openedQuantity := event.quantity
    remainingQuantity := event.quantity
    acquisitionPrice := event.price
    openedAt := event.occurredAt }

/-- The fee of the examples: half a coin, between the purchases and the sale. -/
def coinFee : AssetFee :=
  { activityId := "fee"
    asset := bitcoin
    quantity := 1 / 2
    occurredAt := 2
    receipt :=
      { id := "fee"
        activityType := "CFEE"
        status := "executed"
        description := "Coin Pair Transaction Fee (Non USD)"
        symbol := "BTCUSD"
        qty := .exact (-1 / 2)
        netAmount := .exact 0
        createdAt := some 2 } }

def boughtLot : PositionLot := ⟨openedBy "lot" bought, by decide +kernel⟩
def boughtMoreLot : PositionLot := ⟨openedBy "lot" boughtMore, by decide +kernel⟩

theorem previewFeeReplay_conserves_coins : ∃ out realized,
    previewFeeReplay [boughtLot] [sold, bought] [coinFee] = .ok (out, realized) ∧
      (out.map fun lot => lot.remainingQuantity).sum = 3 - 1 - 1 / 2 := by
  obtain ⟨⟨out, realized⟩, h, -⟩ :
      ∃ r, previewFeeReplay [boughtLot] [sold, bought] [coinFee] = .ok r ∧ True :=
    exists_ok_of_any (by decide +kernel)
  refine ⟨out, realized, h, ?_⟩
  rw [(previewFeeReplay_conserves (by decide +kernel) h).2.2.2.1]
  decide +kernel

/-- Two lots with one identifier are accepted; the replay then forgets the older of them. -/
theorem replayed_of_equal_identifiers : ∃ out realized,
    previewFeeReplay [boughtLot, boughtMoreLot] [bought, boughtMore] [] = .ok (out, realized) ∧
      (out.map fun lot => lot.remainingQuantity).sum ≠ bought.quantity + boughtMore.quantity := by
  obtain ⟨⟨out, realized⟩, h, hne⟩ :
      ∃ r, previewFeeReplay [boughtLot, boughtMoreLot] [bought, boughtMore] [] = .ok r ∧
        (r.1.map fun lot => lot.remainingQuantity).sum ≠ bought.quantity + boughtMore.quantity :=
    exists_ok_of_any (by decide +kernel)
  exact ⟨out, realized, h, hne⟩

end HistoricalFees

end TradePulse
