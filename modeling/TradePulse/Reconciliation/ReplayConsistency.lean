/-
**A replay of fees leaves what was derived consistent** (`reconciliation/fee_replay.py`, checked by
`settlement/accounting.py`).

After a replay committed, accounting verifies every execution of the instrument again: its cash, the
closures of its lots, their attributions and the records of profit and loss.  The attributions and
records of the sales are those of the new closures, an intent realized what its executions did, the
holding is what the lots hold, and the same population replayed again changes nothing.

There are two exceptions.  A record of profit and loss is written with the instrument that the
replay was called with, where accounting derives it with that of the fill: two ways to record one
instrument are told apart there.  And an intent is given the sum over the executions of this
instrument only.

Main definitions:

* `Settled` — an instrument whose executions were settled, with valid accounting;
* `Consistent` — what holds of the rows after a replay;
* `RecordedAlike` — sales are recorded under the instrument of the replay, and the intents realized
  nothing by executions of others.

Main results:

* `Restated.pnlEvidence_eq` — the evidence that accounting finds after a replay;
* `replayAssetFees_consistent_iff` — **a replay leaves the rows consistent exactly where the rows
  are recorded alike**.
-/

import TradePulse.Reconciliation.HoldingBuilders
import TradePulse.Reconciliation.ReplayAgain

set_option autoImplicit false

namespace TradePulse

open Storage

/-! ### What accounting accepts -/

section

variable {s t : Store} {e : SettlementEvent} {f : Fill}

/-- A fill that agrees with its execution. -/
structure Agrees (f : Fill) (e : SettlementEvent) : Prop where
  fillId : f.fillId = e.fillId
  intent : f.tradeIntentId = e.tradeIntentId
  side : f.side = e.side
  quantity : f.quantity = e.quantity
  price : f.price = e.price
  asset : assetIdentityKey f.asset = assetIdentityKey e.asset
  at' : f.filledAt = e.occurredAt

theorem sourceFill_agrees (h : sourceFill s e = .ok f) :
    s.fills.get? e.fillId = some f ∧ Agrees f e := by
  unfold sourceFill at h
  split at h
  · cases h
  · rename_i fill hfill
    split at h
    · rename_i hagree
      cases h
      obtain ⟨hintent, hside, -, hquantity, hprice, -, hasset, hat, -⟩ := hagree
      exact ⟨hfill, (Table.get?_eq_some_iff.1 hfill).2, hintent, hside, hquantity, hprice, hasset,
        hat⟩
    · cases h

theorem foldlM_persist_eq_ok_iff {α : Type} [Record α] [DecidableEq α] {table : Table α}
    {items : List α} :
    items.foldlM (fun u item => persist u item false) table = .ok table ↔
      ∀ item ∈ items, item ∈ table := by
  have hone : ∀ item, persist table item false = .ok table ↔ item ∈ table := by
    intro item
    unfold persist
    constructor
    · intro h
      split at h
      · rename_i existing hget
        split at h
        · rename_i hsame
          exact hsame ▸ (Table.get?_eq_some_iff.1 hget).1
        · cases h
      · cases h
    · intro h
      rw [Table.get?_eq_some_iff.2 ⟨h, rfl⟩]
      exact if_pos rfl
  induction items with
  | nil => simp [pure, Except.pure]
  | cons item items ih =>
      rw [List.foldlM_cons, except_bind_eq_ok, List.forall_mem_cons]
      constructor
      · rintro ⟨u, hu, hrest⟩
        have hsame : u = table := persist_readOnly hu
        subst hsame
        exact ⟨(hone item).1 hu, ih.1 hrest⟩
      · rintro ⟨hitem, hrest⟩
        exact ⟨table, (hone item).2 hitem, ih.2 hrest⟩

/-- Accounting verifies an execution: its cash and its records are there, and so is its intent. -/
theorem project_verified_iff :
    project s e true true false = .ok s ↔
      (∃ item, cashEvidence s e = .ok item ∧ item ∈ s.cashLedger) ∧
      (∃ items, pnlEvidence s e = .ok items ∧ ∀ item ∈ items, item ∈ s.pnlRecords) ∧
      (s.tradeIntents.get? e.tradeIntentId).isSome := by
  have hcash : ∀ item : CashLedgerEntry, persist s.cashLedger item false = .ok s.cashLedger ↔
      item ∈ s.cashLedger := by
    intro item
    have hfold : [item].foldlM (fun u x => persist u x false) s.cashLedger = .ok s.cashLedger ↔
        ∀ x ∈ [item], x ∈ s.cashLedger := foldlM_persist_eq_ok_iff
    simpa using hfold
  constructor
  · intro h
    obtain ⟨-, -, h⟩ := except_bind_eq_ok.1 h
    obtain ⟨u, hu, h⟩ := except_bind_eq_ok.1 h
    have hus : u = s := projectCash_readOnly hu
    subst hus
    obtain ⟨item, hitem, hu⟩ := except_bind_eq_ok.1 hu
    obtain ⟨ledger, hledger, hu⟩ := except_bind_eq_ok.1 hu
    obtain ⟨items, hitems, h⟩ := except_bind_eq_ok.1 h
    obtain ⟨records, hrecords, h⟩ := except_bind_eq_ok.1 h
    obtain ⟨_, hintent, -⟩ := except_bind_eq_ok.1 h
    have hledger' : ledger = u.cashLedger := persist_readOnly hledger
    have hrecords' : records = u.pnlRecords := foldlM_persist_readOnly hrecords
    rw [hledger'] at hledger
    rw [hrecords'] at hrecords
    refine ⟨⟨item, hitem, (hcash item).1 hledger⟩, ⟨items, hitems,
      foldlM_persist_eq_ok_iff.1 hrecords⟩, ?_⟩
    simpa [Option.isSome_iff_ne_none] using hintent
  · rintro ⟨⟨item, hitem, hin⟩, ⟨items, hitems, hall⟩, hintent⟩
    have hnone : ¬ (s.tradeIntents.get? e.tradeIntentId).isNone = true := by
      simpa [Option.isSome_iff_ne_none] using hintent
    refine except_bind_eq_ok.2 ⟨(), rfl, except_bind_eq_ok.2 ⟨s, ?_, ?_⟩⟩
    · exact except_bind_eq_ok.2 ⟨item, hitem, except_bind_eq_ok.2 ⟨_, (hcash item).2 hin, rfl⟩⟩
    · exact except_bind_eq_ok.2 ⟨items, hitems, except_bind_eq_ok.2
        ⟨_, foldlM_persist_eq_ok_iff.2 hall, except_bind_eq_ok.2
          ⟨(), raiseIf_eq_ok_iff.2 hnone, rfl⟩⟩⟩

/-- The attributions of a fill that accounting verified belong to lots of its instrument. -/
theorem lotId_of_verified {items : List PnlRecord} (hf : sourceFill s e = .ok f)
    (h : pnlEvidence s e = .ok items) {a : TradeAttribution} (ha : a ∈ s.tradeAttributions)
    (hclosed : a.closingFillId = f.fillId) :
    a.lotId ∈ (s.lotsByAsset f.asset).map (·.lotId) := by
  unfold pnlEvidence at h
  obtain ⟨f', hf', h⟩ := except_bind_eq_ok.1 h
  rw [hf] at hf'
  cases hf'
  obtain ⟨evidence, hevidence, h⟩ := except_bind_eq_ok.1 h
  obtain ⟨_, hchecked, -⟩ := except_bind_eq_ok.1 h
  rw [raiseIf_eq_ok_iff] at hchecked
  push Not at hchecked
  obtain ⟨-, ⟨hsub, -⟩, -⟩ := hchecked
  have hactual : a.attributionId ∈ (evidence.filterMap fun ev => ev.closure).map fun c => c.1 :=
    hsub (List.mem_map.2 ⟨a, List.mem_filter.2 ⟨ha, by simpa using hclosed⟩, rfl⟩)
  obtain ⟨c, hc, hid⟩ := List.mem_map.1 hactual
  obtain ⟨ev, hev, hclosure⟩ := List.mem_filterMap.1 hc
  obtain ⟨lot, hlot, hev⟩ := exists_left_of_forall₂ (forall₂_of_mapM hevidence) hev
  -- the row that the evidence of the lot read is this one
  obtain ⟨_, -, hev⟩ := except_bind_eq_ok.1 hev
  cases hlook : lot.closures.lookup f.fillId with
  | none =>
      rw [hlook] at hev
      cases hev
      cases hclosure
  | some q =>
      rw [hlook] at hev
      obtain ⟨gross, hgross, hev⟩ := except_bind_eq_ok.1 hev
      cases hev
      cases hclosure
      obtain ⟨opening, -, hgross⟩ := except_bind_eq_ok.1 hgross
      obtain ⟨_, -, hgross⟩ := except_bind_eq_ok.1 hgross
      cases hget : s.tradeAttributions.get? (attributionId lot f.fillId) with
      | none =>
          simp only [hget] at hgross
          cases hgross
      | some attr =>
          simp only [hget] at hgross
          obtain ⟨multiplier, -, hgross⟩ := except_bind_eq_ok.1 hgross
          obtain ⟨_, hattr, -⟩ := except_bind_eq_ok.1 hgross
          rw [raiseIf_eq_ok_iff] at hattr
          push Not at hattr
          obtain ⟨hattr', hname⟩ := Table.get?_eq_some_iff.1 hget
          have hsame : attr = a := Table.eq_of_recordId hattr' ha (hname.trans hid)
          rw [← hsame, hattr.1]
          exact List.mem_map_of_mem (List.mem_filter.1 hlot).1

end

namespace HistoricalFees

/-! ### Evidence after a replay -/

section

variable {s t : Store} {asset : AssetIdentity} {p : ReplayPopulation} {r : Restatement}
  {now : Instant} {realized : OrderedDict String ℚ} {e e' : SettlementEvent} {f : Fill}

/-- An instrument whose executions were settled, with valid accounting, by lots of their own: one
unit for each contract, nothing oversold, identifiers of lots that are generated; and what was
converted was short. -/
structure Settled (s : Store) (asset : AssetIdentity) : Prop where
  accounted : ∀ e ∈ settlementsOf s asset, project s e true true false = .ok s
  single : ∀ e ∈ settlementsOf s asset, contractMultiplierOf e.asset = .ok 1
  singleFill : ∀ f ∈ s.fills, assetIdentityKey f.asset = assetIdentityKey asset →
    contractMultiplierOf f.asset = .ok 1
  noOversell : ∀ e ∈ settlementsOf s asset, s.shortExposureLiabilities.findByUnique e.fillId = none
  converted : ∀ l ∈ s.lotsByAsset asset, l.lotId ∈ s.convertedLots → l.positionSide = .short
  generated : ∀ l ∈ s.lotsByAsset asset, ':' ∉ l.lotId.toList

theorem Settled.exists_fill (hs : Settled s asset) (he : e ∈ settlementsOf s asset) :
    ∃ f, sourceFill s e = .ok f := by
  obtain ⟨-, ⟨items, hitems, -⟩, -⟩ := project_verified_iff.1 (hs.accounted e he)
  obtain ⟨f, hf, -⟩ := except_bind_eq_ok.1 hitems
  exact ⟨f, hf⟩

/-- What is read of an execution besides its value is read of the restated one. -/
theorem sourceFill_valued (hfills : t.fills = s.fills) (hvalued : Valued realized e e') :
    sourceFill t e' = sourceFill s e := by
  have hsame : unvalued e' = unvalued e := hvalued.revalued
  have hread : sourceFill t (unvalued e') = sourceFill s (unvalued e) := by
    rw [hsame]
    unfold sourceFill
    rw [hfills]
  exact hread

theorem cashEvidence_valued (hfills : t.fills = s.fills) (hvalued : Valued realized e e') :
    cashEvidence t e' = cashEvidence s e := by
  unfold cashEvidence
  rw [sourceFill_valued hfills hvalued]

namespace Restated

theorem accepted (h : Restated s asset p now r realized) :
    Accepted (s.lotsByAsset asset) (settlementsOf s asset) p.fees :=
  (previewFeeReplay_ok_iff.1 h.lots).1

theorem conserved (h : Restated s asset p now r realized) {l : PositionLot} (hl : l ∈ r.lots) :
    l.Conserved :=
  conserved_of_preview (nodup_lotsByAsset s asset) h.lots hl

theorem openings (h : Restated s asset p now r realized) :
    (r.lots.map (·.originatingFillId)).Nodup := by
  have hperm : (HistoricalFees.sources r.lots).Perm (HistoricalFees.sources (s.lotsByAsset asset)) :=
    h.sources_lots ▸ .refl _
  exact (perm_map_of_sources hperm (·.originatingFillId) fun _ => rfl).nodup_iff.2
    h.accepted.openings

theorem opening (h : Restated s asset p now r realized) {l : PositionLot} (hl : l ∈ r.lots) :
    ∃ o ∈ settlementsOf s asset, o.fillId = l.originatingFillId ∧ o.side = .buy ∧
      o.quantity = l.openedQuantity ∧ o.price = l.acquisitionPrice ∧ o.occurredAt = l.openedAt := by
  obtain ⟨l₀, hl₀, hsame⟩ := h.exists_stored hl
  obtain ⟨o, ho, hid, hopens⟩ := h.accepted.opened l₀ hl₀
  simp only [opensLot, Bool.and_eq_true, beq_iff_eq] at hopens
  obtain ⟨⟨⟨hside, hquantity⟩, hprice⟩, hat⟩ := hopens
  refine ⟨o, ho, hid.trans ?_, hside, hquantity.trans ?_, hprice.trans ?_, hat.trans ?_⟩
  · exact hsame.keeps (fun x => x.originatingFillId) fun _ => rfl
  · exact hsame.keeps (fun x => x.openedQuantity) fun _ => rfl
  · exact hsame.keeps (fun x => x.acquisitionPrice) fun _ => rfl
  · exact hsame.keeps (fun x => x.openedAt) fun _ => rfl

theorem event_unique (h : Restated s asset p now r realized) {a b : SettlementEvent}
    (ha : a ∈ settlementsOf s asset) (hb : b ∈ settlementsOf s asset)
    (hid : a.fillId = b.fillId) : a = b :=
  mem_of_fillId h.accepted.fills ha hb hid

theorem sold (h : Restated s asset p now r realized) {l : PositionLot} (hl : l ∈ r.lots)
    {id : String} {q : ℚ} (hlook : l.closures.lookup id = some q) :
    0 < q ∧ ∃ event ∈ settlementsOf s asset, event.side = .sell ∧ event.fillId = id :=
  (turned_of_preview (nodup_lotsByAsset s asset) h.lots).1 l hl id q hlook

theorem lookup_purchase (h : Restated s asset p now r realized)
    (he : e ∈ settlementsOf s asset) (hside : e.side = .buy) {l : PositionLot} (hl : l ∈ r.lots) :
    l.closures.lookup e.fillId = none := by
  cases hlook : l.closures.lookup e.fillId with
  | none => rfl
  | some q =>
      obtain ⟨-, event, hevent, hsell, hid⟩ := h.sold hl hlook
      rw [h.event_unique hevent he hid, hside] at hsell
      cases hsell

end Restated

/-- The closures of a fill, by the attributions that they have, and what they realized. -/
def closuresOf (lots : List PositionLot) (f : Fill) : List (String × ℚ) :=
  lots.filterMap fun l => (l.closures.lookup f.fillId).map fun q =>
    (attributionId l f.fillId, (f.price - l.acquisitionPrice) * q)

theorem mem_closuresOf {lots : List PositionLot} {c : String × ℚ} :
    c ∈ closuresOf lots f ↔ ∃ l ∈ lots, ∃ q, l.closures.lookup f.fillId = some q ∧
      c = (attributionId l f.fillId, (f.price - l.acquisitionPrice) * q) := by
  simp only [closuresOf, List.mem_filterMap, Option.map_eq_some_iff]
  constructor
  · rintro ⟨l, hl, q, hlook, rfl⟩
    exact ⟨l, hl, q, hlook, rfl⟩
  · rintro ⟨l, hl, q, hlook, rfl⟩
    exact ⟨l, hl, q, hlook, rfl⟩

theorem sum_closuresOf (lots : List PositionLot) (f : Fill) :
    ((closuresOf lots f).map fun c => c.2).sum
      = (lots.map fun l => (f.price - l.acquisitionPrice) * (l.closures.lookup f.fillId).getD 0).sum
    := by
  induction lots with
  | nil => rfl
  | cons l lots ih =>
      unfold closuresOf at ih ⊢
      cases hlook : l.closures.lookup f.fillId with
      | none => simp [hlook, ih]
      | some q => simp [hlook, ih]

theorem sum_opened {lots : List PositionLot} {l : PositionLot}
    (hnodup : (lots.map (·.originatingFillId)).Nodup) (hl : l ∈ lots) :
    (lots.map fun x => if x.originatingFillId = l.originatingFillId then x.openedQuantity else 0).sum
      = l.openedQuantity := by
  induction lots with
  | nil => exact absurd hl List.not_mem_nil
  | cons x lots ih =>
      rw [List.map_cons, List.nodup_cons] at hnodup
      rw [List.map_cons, List.sum_cons]
      rcases List.mem_cons.1 hl with rfl | hl
      · rw [if_pos rfl]
        have hzero : (lots.map fun x =>
            if x.originatingFillId = l.originatingFillId then x.openedQuantity else 0).sum = 0 := by
          refine List.sum_eq_zero fun y hy => ?_
          obtain ⟨x, hx, rfl⟩ := List.mem_map.1 hy
          exact if_neg fun heq => hnodup.1 (List.mem_map.2 ⟨x, hx, heq⟩)
        rw [hzero, add_zero]
      · have hne : x.originatingFillId ≠ l.originatingFillId := fun heq =>
          hnodup.1 (List.mem_map.2 ⟨l, hl, heq.symm⟩)
        rw [if_neg hne, zero_add, ih hnodup.2 hl]

theorem Restated.allocated (h : Restated s asset p now r realized)
    (he : e ∈ settlementsOf s asset) :
    (r.lots.map fun l => l.allocatedTo e.fillId).sum = e.quantity := by
  have hsplit : (r.lots.map fun l => l.allocatedTo e.fillId).sum
      = (r.lots.map fun l => if l.originatingFillId = e.fillId then l.openedQuantity else 0).sum
        + alreadyClosed r.lots e.fillId := List.sum_map_add
  rw [hsplit]
  cases hside : e.side with
  | buy =>
      obtain ⟨⟨l₀, hl₀, hopened⟩, -⟩ :=
        (turned_of_preview (nodup_lotsByAsset s asset) h.lots).2 e he hside
      obtain ⟨l, hl, hsame⟩ : ∃ l ∈ r.lots, SameSource l l₀ :=
        exists_source (h.sources_lots ▸ .refl _) hl₀
      have horigin : l.originatingFillId = e.fillId :=
        (hsame.keeps (fun x => x.originatingFillId) fun _ => rfl).trans hopened
      obtain ⟨o, ho, hid, -, hquantity, -⟩ := h.opening hl
      have hclosed : alreadyClosed r.lots e.fillId = 0 := by
        refine List.sum_eq_zero fun x hx => ?_
        obtain ⟨l', hl', rfl⟩ := List.mem_map.1 hx
        rw [h.lookup_purchase he hside hl']
        rfl
      rw [hclosed, add_zero, ← horigin, sum_opened h.openings hl, ← hquantity,
        h.event_unique ho he (hid.trans horigin)]
  | sell =>
      have hopened : (r.lots.map fun l =>
          if l.originatingFillId = e.fillId then l.openedQuantity else 0).sum = 0 := by
        refine List.sum_eq_zero fun x hx => ?_
        obtain ⟨l, hl, rfl⟩ := List.mem_map.1 hx
        refine if_neg fun horigin => ?_
        obtain ⟨o, ho, hid, hbuy, -⟩ := h.opening hl
        rw [h.event_unique ho he (hid.trans horigin), hside] at hbuy
        cases hbuy
      rw [hopened, zero_add]
      exact closed_of_preview (nodup_lotsByAsset s asset) h.lots he hside

theorem Restated.realized_eq (h : Restated s asset p now r realized) (hs : Settled s asset)
    (he : e ∈ settlementsOf s asset) (hf : Agrees f e) :
    realized.get? e.fillId = some ((closuresOf r.lots f).map fun c => c.2).sum := by
  rw [sum_closuresOf, hf.fillId, hf.price]
  cases hside : e.side with
  | buy =>
      rw [((turned_of_preview (nodup_lotsByAsset s asset) h.lots).2 e he hside).2]
      refine congrArg some (List.sum_eq_zero fun x hx => ?_).symm
      obtain ⟨l, hl, rfl⟩ := List.mem_map.1 hx
      rw [h.lookup_purchase he hside hl]
      exact mul_zero _
  | sell =>
      obtain ⟨multiplier, hm, hget⟩ :=
        realized_of_preview (nodup_lotsByAsset s asset) h.lots he hside
      rw [hs.single e he] at hm
      cases hm
      rw [hget, saleValue]
      simp only [mul_one]

theorem Restated.lotEvidence_eq (h : Restated s asset p now r realized) (hw : r.Wrote s asset p t)
    (hs : Settled s asset) (he : e ∈ settlementsOf s asset) (hf : sourceFill s e = .ok f)
    {l : PositionLot} (hl : l ∈ r.lots) :
    lotEvidence t f l = .ok
      { allocated := l.allocatedTo f.fillId
        closure := (l.closures.lookup f.fillId).map fun q =>
          (attributionId l f.fillId, (f.price - l.acquisitionPrice) * q) } := by
  have hfills : t.fills = s.fills := by rw [hw.frame]
  obtain ⟨hget, hagrees⟩ := sourceFill_agrees hf
  obtain ⟨o, ho, hid, hbuy, hquantity, hprice, hat⟩ := h.opening hl
  obtain ⟨fo, hfo⟩ := hs.exists_fill ho
  obtain ⟨hgeto, hagreeso⟩ := sourceFill_agrees hfo
  -- a lot that the fill opened agrees with it
  have hopened : ¬ (l.originatingFillId = f.fillId ∧ (l.acquisitionPrice ≠ f.price ∨
      l.openedAt ≠ f.filledAt ∨ l.positionSide ≠ openingDirection f.side ∨ ¬ l.Conserved)) := by
    rintro ⟨horigin, hbad⟩
    have hsame : o = e := h.event_unique ho he (hid.trans (horigin.trans hagrees.fillId))
    subst hsame
    rcases hbad with hbad | hbad | hbad | hbad
    · exact hbad (hprice.symm.trans hagrees.price.symm)
    · exact hbad (hat.symm.trans hagrees.at'.symm)
    · refine hbad ?_
      rw [h.long hl, hagrees.side, hbuy]
      rfl
    · exact hbad (h.conserved hl)
  unfold lotEvidence
  simp only [raiseIf, if_neg hopened]
  cases hlook : l.closures.lookup f.fillId with
  | none =>
      simp [bind, Except.bind, PositionLot.allocatedTo, hlook]
  | some q =>
      obtain ⟨hpos, event, hevent, hsell, heventId⟩ := h.sold hl hlook
      have hsame : event = e := h.event_unique hevent he (heventId.trans hagrees.fillId)
      subst hsame
      obtain ⟨a, event', hevent', hid', hrow, hattributed⟩ := h.attributed hs.generated hl hlook
      have hsame' : event' = event := h.event_unique hevent' he (hid'.trans hagrees.fillId)
      subst hsame'
      have hstored : t.tradeAttributions.get? (attributionId l f.fillId) = some a := by
        have hname : a.attributionId = attributionId l f.fillId := h.named _ _ hrow
        exact Table.get?_eq_some_iff.2
          ⟨(h.mem_tradeAttributions hw).2 (.inl (hname.symm ▸ hrow)), hname⟩
      have hkey : assetIdentityKey f.asset = assetIdentityKey asset :=
        hagrees.asset.trans (mem_settlementsOf.1 he).2
      have hkeyo : assetIdentityKey fo.asset = assetIdentityKey f.asset :=
        (hagreeso.asset.trans (mem_settlementsOf.1 ho).2).trans hkey.symm
      have hone : contractMultiplierOf f.asset = .ok 1 :=
        hs.singleFill f (Table.get?_eq_some_iff.1 hget).1 hkey
      have hopening : openingEvidence t l = .ok
          { asset := fo.asset, price := fo.price, filledAt := fo.filledAt, side := fo.side,
            quantity := fo.quantity, tradeIntentId := fo.tradeIntentId } := by
        unfold openingEvidence
        rw [if_neg (h.filled l hl), hfills, ← hid, hgeto]
      have hentry : fo.price = l.acquisitionPrice := hagreeso.price.trans hprice
      obtain ⟨opening, hopener, hintent⟩ := hattributed.opener
      have hopener' : opening = fo := by
        rw [fillOf, ← hid, hgeto, Option.filter_some] at hopener
        split at hopener
        · exact (Option.some.inj hopener).symm
        · cases hopener
      have hclosure : closureEvidence t f l q = .ok ((f.price - l.acquisitionPrice) * q) := by
        unfold closureEvidence
        rw [hopening]
        have hsource : ¬ (assetIdentityKey fo.asset ≠ assetIdentityKey f.asset ∨
            fo.price ≠ l.acquisitionPrice ∨ fo.filledAt ≠ l.openedAt ∨ fo.side = f.side ∨
            fo.quantity < l.openedQuantity ∨ q ≤ 0 ∨ ¬ l.Conserved) := by
          push Not
          refine ⟨hkeyo, hentry, hagreeso.at'.trans hat, ?_, ?_, hpos, h.conserved hl⟩
          · rw [hagreeso.side, hagrees.side, hbuy, hsell]
            decide
          · rw [hagreeso.quantity, hquantity]
        have hvalue : (f.price - fo.price) * q * 1 = (f.price - l.acquisitionPrice) * q := by
          rw [hentry, mul_one]
        simp only [bind, Except.bind, raiseIf, if_neg hsource, hstored, hone, h.long hl, reduceCtorEq,
          if_false, hvalue]
        rw [if_neg]
        · rfl
        · push Not
          refine ⟨hattributed.ofLot, hattributed.closed.trans hagrees.fillId.symm,
            hattributed.quantity, ?_, hattributed.entry.1.trans hentry.symm,
            hattributed.exit.1.trans hagrees.price.symm, ?_,
            hattributed.exit.2.trans hagrees.at'.symm, ?_, ?_, ?_⟩
          · rw [hattributed.value, hagrees.price]
          · exact hattributed.entry.2.trans (hat.symm.trans hagreeso.at'.symm)
          · rw [hintent, hopener']
          · exact hattributed.closer.trans hagrees.intent.symm
          · exact hattributed.sameAsset.trans hkey.symm
      simp only [bind, Except.bind, hclosure, Option.map_some, PositionLot.allocatedTo, hlook,
        Option.getD_some]

theorem mapM_eq_map {ε α β : Type} {g : α → Except ε β} {k : α → β} {l : List α}
    (h : ∀ a ∈ l, g a = .ok (k a)) : l.mapM g = .ok (l.map k) := by
  induction l with
  | nil => rfl
  | cons a l ih =>
      rw [List.mapM_cons, h a List.mem_cons_self,
        ih fun b hb => h b (List.mem_cons_of_mem a hb)]
      rfl

theorem Restated.evidenceLots_eq (h : Restated s asset p now r realized)
    (hw : r.Wrote s asset p t) (hs : Settled s asset) (he : e ∈ settlementsOf s asset)
    (hf : Agrees f e) : evidenceLots t f = r.lots := by
  have hconverted : t.convertedLots = s.convertedLots := by rw [hw.frame]
  have hkey : assetIdentityKey f.asset = assetIdentityKey asset :=
    hf.asset.trans (mem_settlementsOf.1 he).2
  have hlots : t.lotsByAsset f.asset = r.lots := by
    rw [← h.lotsByAsset_eq hw, Store.lotsByAsset, Store.lotsByAsset, hkey]
  rw [evidenceLots, hlots, List.filter_eq_self]
  intro l hl
  obtain ⟨l₀, hl₀, hsame⟩ := h.exists_stored hl
  by_contra hmem
  have hin : l₀.lotId ∈ s.convertedLots := by
    rw [hsame.lotId, ← hconverted]
    simpa using hmem
  have hshort := hs.converted l₀ hl₀ hin
  rw [h.accepted.long l₀ hl₀] at hshort
  cases hshort

theorem Restated.attributions_eq (h : Restated s asset p now r realized)
    (hw : r.Wrote s asset p t) (hs : Settled s asset) (he : e ∈ settlementsOf s asset)
    (hf : sourceFill s e = .ok f) {id : String} :
    (∃ a ∈ t.tradeAttributions, a.closingFillId = f.fillId ∧ a.attributionId = id) ↔
      ∃ c ∈ closuresOf r.lots f, c.1 = id := by
  obtain ⟨-, hagrees⟩ := sourceFill_agrees hf
  constructor
  · rintro ⟨a, ha, hclosed, rfl⟩
    obtain hrow | ⟨hstored, hother, -⟩ := (h.mem_tradeAttributions hw).1 ha
    · obtain ⟨l, hl, event, hevent, q, hlook, hname, hattributed⟩ := h.attributed_of_entry hrow
      have hid : event.fillId = f.fillId := hattributed.closed.symm.trans hclosed
      rw [hid] at hlook hname
      exact ⟨_, mem_closuresOf.2 ⟨l, hl, q, hlook, rfl⟩, hname.symm⟩
    · obtain ⟨-, ⟨items, hitems, -⟩, -⟩ := project_verified_iff.1 (hs.accounted e he)
      have hlot := lotId_of_verified hf hitems hstored hclosed
      have hkey : assetIdentityKey f.asset = assetIdentityKey asset :=
        hagrees.asset.trans (mem_settlementsOf.1 he).2
      rw [Store.lotsByAsset, hkey] at hlot
      exact absurd hlot hother
  · rintro ⟨c, hc, rfl⟩
    obtain ⟨l, hl, q, hlook, rfl⟩ := mem_closuresOf.1 hc
    obtain ⟨a, event, -, hid, hrow, hattributed⟩ := h.attributed hs.generated hl hlook
    have hname : a.attributionId = attributionId l f.fillId := h.named _ _ hrow
    exact ⟨a, (h.mem_tradeAttributions hw).2 (.inl (hname.symm ▸ hrow)),
      hattributed.closed.trans hid, hname⟩

/-- **The evidence that accounting finds after a replay**: the closures of the replay and the fees
of the fill. -/
theorem Restated.pnlEvidence_eq (h : Restated s asset p now r realized) (hw : r.Wrote s asset p t)
    (hs : Settled s asset) (he : e ∈ settlementsOf s asset) (hf : sourceFill s e = .ok f)
    (hvalued : Valued realized e e') :
    pnlEvidence t e' = .ok
      ((closuresOf r.lots f).map (fun c => pnlRecord f ("fill:pnl:" ++ c.1) c.2) ++
        if f.fees = 0 then [] else [pnlRecord f ("fill:fee:" ++ f.fillId) (-f.fees)]) := by
  have hfills : t.fills = s.fills := by rw [hw.frame]
  have hliabilities : t.shortExposureLiabilities = s.shortExposureLiabilities := by rw [hw.frame]
  obtain ⟨-, hagrees⟩ := sourceFill_agrees hf
  have hevidence := mapM_eq_map fun l (hl : l ∈ r.lots) => h.lotEvidence_eq hw hs he hf hl
  have hallocated := h.allocated he
  rw [← hagrees.fillId, ← hagrees.quantity] at hallocated
  obtain ⟨v, hget, hfields⟩ := hvalued
  have hrealized : e'.realizedPnl = some ((closuresOf r.lots f).map fun c => c.2).sum := by
    rw [h.realized_eq hs he hagrees, Option.some.injEq] at hget
    rw [hfields, ← hget]
  have hclosures : (r.lots.map fun l => ({ allocated := l.allocatedTo f.fillId
                                           closure := (l.closures.lookup f.fillId).map fun q =>
                                             (attributionId l f.fillId,
                                               (f.price - l.acquisitionPrice) * q) } :
      LotEvidence)).filterMap (fun ev => ev.closure) = closuresOf r.lots f := by
    rw [List.filterMap_map]
    rfl
  have hsum : ((r.lots.map fun l => ({ allocated := l.allocatedTo f.fillId
                                       closure := (l.closures.lookup f.fillId).map fun q =>
                                         (attributionId l f.fillId,
                                           (f.price - l.acquisitionPrice) * q) } :
      LotEvidence)).map fun ev => ev.allocated).sum = f.quantity := by
    rw [List.map_map]
    exact hallocated
  have hnone : t.shortExposureLiabilities.findByUnique f.fillId = none := by
    rw [hliabilities, hagrees.fillId]
    exact hs.noOversell e he
  have hchecked : ¬ (f.quantity + ((t.shortExposureLiabilities.findByUnique f.fillId).map
        fun l => l.quantity).getD 0 ≠ f.quantity ∨
      ¬ (((t.tradeAttributions.rows.filter fun a => a.closingFillId = f.fillId).map
          fun a => a.attributionId) ⊆ (closuresOf r.lots f).map (fun c => c.1) ∧
        (closuresOf r.lots f).map (fun c => c.1) ⊆
          (t.tradeAttributions.rows.filter fun a => a.closingFillId = f.fillId).map
            fun a => a.attributionId) ∨
      e'.realizedPnl ≠ some ((closuresOf r.lots f).map fun c => c.2).sum) := by
    push Not
    refine ⟨by rw [hnone]; exact add_zero _, ⟨fun id hid => ?_, fun id hid => ?_⟩, hrealized⟩
    · obtain ⟨a, ha, rfl⟩ := List.mem_map.1 hid
      obtain ⟨ha, hclosed⟩ := List.mem_filter.1 ha
      obtain ⟨c, hc, hname⟩ :=
        (h.attributions_eq hw hs he hf).1 ⟨a, ha, of_decide_eq_true hclosed, rfl⟩
      exact List.mem_map.2 ⟨c, hc, hname⟩
    · obtain ⟨c, hc, rfl⟩ := List.mem_map.1 hid
      obtain ⟨a, ha, hclosed, hname⟩ := (h.attributions_eq hw hs he hf).2 ⟨c, hc, rfl⟩
      exact List.mem_map.2 ⟨a, List.mem_filter.2 ⟨ha, decide_eq_true hclosed⟩, hname⟩
  unfold pnlEvidence
  rw [sourceFill_valued hfills ⟨v, hget, hfields⟩, hf]
  refine except_bind_eq_ok.2 ⟨f, rfl, ?_⟩
  rw [h.evidenceLots_eq hw hs he hagrees, hevidence]
  refine except_bind_eq_ok.2 ⟨_, rfl, ?_⟩
  simp only [hclosures, hsum]
  exact except_bind_eq_ok.2 ⟨(), raiseIf_eq_ok_iff.2 hchecked, rfl⟩

/-- Accounting accepts an execution after a replay, unless it is a sale recorded under another
instrument than that of the replay. -/
theorem Restated.accepts_iff (h : Restated s asset p now r realized) (hw : r.Wrote s asset p t)
    (hs : Settled s asset) (he : e ∈ settlementsOf s asset) (hf : sourceFill s e = .ok f)
    (hvalued : Valued realized e e') :
    project t e' true true false = .ok t ↔ (e.side = .sell → f.asset = asset) := by
  have hfills : t.fills = s.fills := by rw [hw.frame]
  obtain ⟨-, hagrees⟩ := sourceFill_agrees hf
  obtain ⟨⟨item, hitem, hposted⟩, ⟨items, hitems, hrecorded⟩, -⟩ :=
    project_verified_iff.1 (hs.accounted e he)
  -- a record of a closure is the one that the replay derived, under the instrument of the replay
  have hclosure : ∀ c ∈ closuresOf r.lots f,
      (pnlRecord f ("fill:pnl:" ++ c.1) c.2 ∈ t.pnlRecords ↔ f.asset = asset) := by
    intro c hc
    obtain ⟨l, hl, q, hlook, rfl⟩ := mem_closuresOf.1 hc
    obtain ⟨a, event, hevent, hid, hrow, hattributed⟩ := h.attributed hs.generated hl hlook
    have hsame : event = e := h.event_unique hevent he (hid.trans hagrees.fillId)
    subst hsame
    have hderived : { pnlRecord f ("fill:pnl:" ++ attributionId l f.fillId)
        ((f.price - l.acquisitionPrice) * q) with asset := asset } ∈ t.pnlRecords := by
      refine (h.mem_pnlRecords hw).2 (.inl ?_)
      rw [pnlRecord, h.get?_fillPnl, hrow, Option.map_some, pnlRow, hattributed.value,
        hattributed.exit.2, hagrees.price, hagrees.at']
    constructor
    · intro hin
      exact congrArg (·.asset) (Table.eq_of_recordId hin hderived rfl)
    · intro hasset
      rw [← hasset] at hderived
      exact hderived
  have hfees : ∀ item ∈ (if f.fees = 0 then [] else
      [pnlRecord f ("fill:fee:" ++ f.fillId) (-f.fees)]), item ∈ t.pnlRecords := by
    intro item hfee
    have hold : item ∈ s.pnlRecords := by
      obtain ⟨f', hf', hbuilt⟩ := except_bind_eq_ok.1 hitems
      rw [hf] at hf'
      cases hf'
      obtain ⟨evidence, -, hbuilt⟩ := except_bind_eq_ok.1 hbuilt
      obtain ⟨_, -, hbuilt⟩ := except_bind_eq_ok.1 hbuilt
      cases hbuilt
      exact hrecorded item (List.mem_append_right _ hfee)
    have hname : item.recordId = "fill:fee:" ++ f.fillId := by
      split at hfee
      · exact absurd hfee List.not_mem_nil
      · rw [List.mem_singleton.1 hfee]
        rfl
    refine (h.mem_pnlRecords hw).2 (.inr ⟨hold, fun hkind => ?_, fun hkey => ?_⟩)
    · obtain ⟨-, hkind⟩ := List.mem_filter.1 hkind
      simp [hname, String.startsWith_string_iff, String.toList_append] at hkind
    · obtain ⟨record, hget⟩ := Option.isSome_iff_exists.1 (OrderedDict.isSome_get?.2 hkey)
      have hlists : ∀ x y : String, x = y → x.toList = y.toList := fun _ _ heq => heq ▸ rfl
      obtain ⟨-, ⟨id, a, -, hrow⟩ | ⟨x, hx⟩ | ⟨x, hx⟩⟩ := h.pnl_entries hget
      · have hx := hlists _ _ (hname.symm.trans (Prod.mk.inj hrow).1)
        simp [String.toList_append] at hx
      · have hx := hlists _ _ (hname.symm.trans hx)
        simp [String.toList_append] at hx
      · have hx := hlists _ _ (hname.symm.trans hx)
        simp [String.toList_append] at hx
  have hcash : ∃ item, cashEvidence t e' = .ok item ∧ item ∈ t.cashLedger := by
    refine ⟨item, (cashEvidence_valued hfills hvalued).trans hitem, ?_⟩
    exact (foldlM_postEntry_ok hw.cashLedger).2 item hposted
  have hintent : (t.tradeIntents.get? e'.tradeIntentId).isSome := by
    have hsame : e'.tradeIntentId = e.tradeIntentId :=
      hvalued.keeps (fun x => x.tradeIntentId) fun _ _ => rfl
    obtain ⟨i, -, hget, -⟩ := h.get?_tradeIntents hw (List.mem_map_of_mem he)
    rw [hsame, hget]
    rfl
  rw [project_verified_iff, h.pnlEvidence_eq hw hs he hf hvalued]
  constructor
  · rintro ⟨-, ⟨items', hitems', hall⟩, -⟩ hsell
    cases hitems'
    -- a sale closed something
    obtain ⟨c, hc⟩ : ∃ c, c ∈ closuresOf r.lots f := by
      refine List.exists_mem_of_ne_nil _ fun hnil => ?_
      have hclosed :=
        closed_of_preview (nodup_lotsByAsset s asset) h.lots he hsell
      have hzero : alreadyClosed r.lots e.fillId = 0 := by
        refine List.sum_eq_zero fun x hx => ?_
        obtain ⟨l, hl, rfl⟩ := List.mem_map.1 hx
        cases hlook : l.closures.lookup e.fillId with
        | none => rfl
        | some q =>
            have hmem := mem_closuresOf.2 ⟨l, hl, q, hagrees.fillId.symm ▸ hlook, rfl⟩
            rw [hnil] at hmem
            exact absurd hmem List.not_mem_nil
      rw [hzero] at hclosed
      exact absurd hclosed e.quantity_pos.ne
    exact (hclosure c hc).1 (hall _ (List.mem_append_left _ (List.mem_map_of_mem hc)))
  · intro hsell
    refine ⟨hcash, ⟨_, rfl, fun item hin => ?_⟩, hintent⟩
    rcases List.mem_append.1 hin with hin | hin
    · obtain ⟨c, hc, rfl⟩ := List.mem_map.1 hin
      refine (hclosure c hc).2 (hsell ?_)
      obtain ⟨l, hl, q, hlook, -⟩ := mem_closuresOf.1 hc
      obtain ⟨-, event, hevent, hside, hid⟩ := h.sold hl hlook
      rw [← hside, h.event_unique hevent he (hid.trans hagrees.fillId)]
    · exact hfees item hin

/-! ### The rows after a replay -/

/-- The attribution of a closure. -/
structure AttributionOf (l : PositionLot) (e : SettlementEvent) (q : ℚ) (a : TradeAttribution) :
    Prop where
  named : a.attributionId = attributionId l e.fillId
  ofLot : a.lotId = l.lotId
  closed : a.closingFillId = e.fillId
  quantity : a.quantity = q
  value : a.realizedPnl = (e.price - l.acquisitionPrice) * q

/-- The record of profit and loss of a closure. -/
structure RecordOf (l : PositionLot) (e : SettlementEvent) (q : ℚ) (record : PnlRecord) : Prop where
  named : record.recordId = "fill:pnl:" ++ attributionId l e.fillId
  value : record.realized = (e.price - l.acquisitionPrice) * q
  unrealized : record.unrealized = 0
  asOf : record.asOf = e.occurredAt

/-- What holds of the rows of an instrument after a replay of a population at `now`. -/
structure Consistent (asset : AssetIdentity) (p : ReplayPopulation) (now : Instant) (t : Store) :
    Prop where
  /-- Accounting accepts every execution. -/
  accounted : ∀ e ∈ settlementsOf t asset, project t e true true false = .ok t
  /-- The attributions of a sale are those of its closures: none is stale and none is missing. -/
  attributed : ∀ e ∈ settlementsOf t asset, e.side = .sell →
    (∀ a ∈ t.tradeAttributions, a.closingFillId = e.fillId → ∃ l ∈ t.lotsByAsset asset, ∃ q,
      l.closures.lookup e.fillId = some q ∧ AttributionOf l e q a) ∧
    ∀ l ∈ t.lotsByAsset asset, ∀ q, l.closures.lookup e.fillId = some q →
      ∃ a ∈ t.tradeAttributions, AttributionOf l e q a
  /-- So are the records of profit and loss. -/
  recorded : (∀ record ∈ t.pnlRecords, assetIdentityKey record.asset = assetIdentityKey asset →
      record.recordId.startsWith "fill:pnl:" → ∃ e ∈ settlementsOf t asset, e.side = .sell ∧
        ∃ l ∈ t.lotsByAsset asset, ∃ q, l.closures.lookup e.fillId = some q ∧
          RecordOf l e q record) ∧
    ∀ e ∈ settlementsOf t asset, ∀ l ∈ t.lotsByAsset asset, ∀ q,
      l.closures.lookup e.fillId = some q → ∃ record ∈ t.pnlRecords, RecordOf l e q record
  /-- An intent realized what its executions did. -/
  realized : ∀ e ∈ settlementsOf t asset, ∃ i, t.tradeIntents.get? e.tradeIntentId = some i ∧
    i.realizedPnl = some (realizedBy t.settlements.rows e.tradeIntentId)
  /-- The holding is what the lots hold. -/
  held : (quantityOf (t.lotsByAsset asset) = 0 → t.holdings.get? (holdingRecordId asset) = none) ∧
    (quantityOf (t.lotsByAsset asset) ≠ 0 → ∃ holding,
      t.holdings.get? (holdingRecordId asset) = some holding ∧
        holding.quantity = quantityOf (t.lotsByAsset asset) ∧
        holding.averagePrice = Settlement.sumOver (t.lotsByAsset asset)
            (fun l => l.remainingQuantity * l.acquisitionPrice)
          / quantityOf (t.lotsByAsset asset))
  /-- The same population replayed again changes nothing. -/
  again : ∀ records' now', now ≤ now' →
    replayAssetFees t asset (.ok p) records' now' = records'.map fun _ => t

/-- Sales are recorded under the very instrument that is replayed, and executions of other
instruments realized nothing for its intents. -/
structure RecordedAlike (s : Store) (asset : AssetIdentity) : Prop where
  sales : ∀ e ∈ settlementsOf s asset, e.side = .sell → ∀ f, s.fills.get? e.fillId = some f →
    f.asset = asset
  intents : ∀ e ∈ settlementsOf s asset, realizedBy (s.settlements.rows.filter fun x =>
    assetIdentityKey x.asset ≠ assetIdentityKey asset) e.tradeIntentId = 0

namespace Restated

theorem attributed_sales (h : Restated s asset p now r realized) (hw : r.Wrote s asset p t)
    (hs : Settled s asset) (he' : e' ∈ r.events) :
    (∀ a ∈ t.tradeAttributions, a.closingFillId = e'.fillId → ∃ l ∈ r.lots, ∃ q,
      l.closures.lookup e'.fillId = some q ∧ AttributionOf l e' q a) ∧
    ∀ l ∈ r.lots, ∀ q, l.closures.lookup e'.fillId = some q →
      ∃ a ∈ t.tradeAttributions, AttributionOf l e' q a := by
  obtain ⟨e, he, hvalued⟩ := exists_left_of_forall₂ h.valued he'
  have hfill : e'.fillId = e.fillId := hvalued.keeps (fun x => x.fillId) fun _ _ => rfl
  have hprice : e'.price = e.price := hvalued.keeps (fun x => x.price) fun _ _ => rfl
  obtain ⟨f, hf⟩ := hs.exists_fill he
  obtain ⟨-, hagrees⟩ := sourceFill_agrees hf
  have hclosure : ∀ l ∈ r.lots, ∀ q, l.closures.lookup e'.fillId = some q → ∀ a,
      r.attributions.get? (attributionId l e'.fillId) = some a → AttributionOf l e' q a := by
    intro l hl q hlook a hrow
    obtain ⟨b, event, hevent, hid, hrow', hattributed⟩ := h.attributed hs.generated hl hlook
    rw [hrow] at hrow'
    cases hrow'
    have hsame : event = e := h.event_unique hevent he (hid.trans hfill)
    rw [hsame] at hattributed
    exact ⟨hattributed.named.trans (by rw [hfill]), hattributed.ofLot,
      hattributed.closed.trans hfill.symm, hattributed.quantity,
      hattributed.value.trans (by rw [hprice])⟩
  constructor
  · intro a ha hclosed
    have hid : a.closingFillId = f.fillId := hclosed.trans (hfill.trans hagrees.fillId.symm)
    obtain ⟨c, hc, hname⟩ := (h.attributions_eq hw hs he hf).1 ⟨a, ha, hid, rfl⟩
    obtain ⟨l, hl, q, hlook, rfl⟩ := mem_closuresOf.1 hc
    rw [hagrees.fillId, ← hfill] at hlook hname
    obtain ⟨b, event, -, -, hrow, -⟩ := h.attributed hs.generated hl hlook
    have hbname : b.attributionId = attributionId l e'.fillId := h.named _ _ hrow
    have hb : b ∈ t.tradeAttributions :=
      (h.mem_tradeAttributions hw).2 (.inl (hbname.symm ▸ hrow))
    have hsame : b = a := Table.eq_of_recordId hb ha (hbname.trans hname)
    exact ⟨l, hl, q, hlook, hclosure l hl q hlook a (hsame ▸ hrow)⟩
  · intro l hl q hlook
    obtain ⟨a, event, -, -, hrow, -⟩ := h.attributed hs.generated hl hlook
    have hname : a.attributionId = attributionId l e'.fillId := h.named _ _ hrow
    exact ⟨a, (h.mem_tradeAttributions hw).2 (.inl (hname.symm ▸ hrow)),
      hclosure l hl q hlook a hrow⟩

/-- The record of a closure, from its attribution. -/
theorem recordOf (h : Restated s asset p now r realized) (hs : Settled s asset)
    (he' : e' ∈ r.events) {l : PositionLot} (hl : l ∈ r.lots) {q : ℚ}
    (hlook : l.closures.lookup e'.fillId = some q) :
    ∃ record, r.pnl.get? ("fill:pnl:" ++ attributionId l e'.fillId) = some record ∧
      RecordOf l e' q record := by
  obtain ⟨e, he, hvalued⟩ := exists_left_of_forall₂ h.valued he'
  have hfill : e'.fillId = e.fillId := hvalued.keeps (fun x => x.fillId) fun _ _ => rfl
  have hprice : e'.price = e.price := hvalued.keeps (fun x => x.price) fun _ _ => rfl
  have hat : e'.occurredAt = e.occurredAt := hvalued.keeps (fun x => x.occurredAt) fun _ _ => rfl
  obtain ⟨a, event, hevent, hid, hrow, hattributed⟩ := h.attributed hs.generated hl hlook
  have hsame : event = e := h.event_unique hevent he (hid.trans hfill)
  rw [hsame] at hattributed
  refine ⟨_, by rw [h.get?_fillPnl, hrow, Option.map_some], rfl, ?_, rfl, ?_⟩
  · exact hattributed.value.trans (by rw [hprice])
  · exact hattributed.exit.2.trans hat.symm

theorem recorded_sales (h : Restated s asset p now r realized) (hw : r.Wrote s asset p t)
    (hs : Settled s asset) :
    (∀ record ∈ t.pnlRecords, assetIdentityKey record.asset = assetIdentityKey asset →
      record.recordId.startsWith "fill:pnl:" → ∃ e' ∈ r.events, e'.side = .sell ∧
        ∃ l ∈ r.lots, ∃ q, l.closures.lookup e'.fillId = some q ∧ RecordOf l e' q record) ∧
    ∀ e' ∈ r.events, ∀ l ∈ r.lots, ∀ q, l.closures.lookup e'.fillId = some q →
      ∃ record ∈ t.pnlRecords, RecordOf l e' q record := by
  constructor
  · intro record hin hasset hkind
    obtain hrow | ⟨hold, hother, -⟩ := (h.mem_pnlRecords hw).1 hin
    · obtain ⟨rest, hrest⟩ := String.startsWith_string_iff.1 hkind
      have hname : record.recordId = "fill:pnl:" ++ String.ofList rest := by
        refine String.toList_inj.1 (hrest.symm.trans ?_)
        simp [String.toList_append]
      rw [hname, h.get?_fillPnl, Option.map_eq_some_iff] at hrow
      obtain ⟨a, ha, hrecord⟩ := hrow
      obtain ⟨l, hl, e, he, q, hlook, hid, hattributed⟩ := h.attributed_of_entry ha
      obtain ⟨e', he', hvalued⟩ : ∃ e' ∈ r.events, Valued realized e e' :=
        exists_left_of_forall₂ h.valued.flip he
      have hfill : e'.fillId = e.fillId := hvalued.keeps (fun x => x.fillId) fun _ _ => rfl
      have hside : e'.side = e.side := hvalued.keeps (fun x => x.side) fun _ _ => rfl
      obtain ⟨-, event, hevent, hsell, hsold⟩ := h.sold hl hlook
      rw [← hfill] at hlook
      obtain ⟨record', hget, hof⟩ := h.recordOf hs he' hl hlook
      rw [hfill, ← hid, h.get?_fillPnl, ha, Option.map_some, hrecord, Option.some.injEq] at hget
      refine ⟨e', he', ?_, l, hl, q, hlook, hget ▸ hof⟩
      rw [hside, ← h.event_unique hevent he hsold, hsell]
    · exact absurd (List.mem_filter.2 ⟨hold, decide_eq_true ⟨hasset, .inl hkind⟩⟩) hother
  · intro e' he' l hl q hlook
    obtain ⟨record, hget, hof⟩ := h.recordOf hs he' hl hlook
    exact ⟨record, (h.mem_pnlRecords hw).2 (.inl (hof.named.symm ▸ hget)), hof⟩

/-- An intent realized what its executions did exactly where those of other instruments realized
nothing for it. -/
theorem realized_iff (h : Restated s asset p now r realized) (hw : r.Wrote s asset p t)
    (he : e ∈ settlementsOf s asset) :
    (∃ i, t.tradeIntents.get? e.tradeIntentId = some i ∧
        i.realizedPnl = some (realizedBy t.settlements.rows e.tradeIntentId)) ↔
      realizedBy (s.settlements.rows.filter fun x =>
        assetIdentityKey x.asset ≠ assetIdentityKey asset) e.tradeIntentId = 0 := by
  obtain ⟨i, -, hget, hrealized⟩ := h.get?_tradeIntents hw (List.mem_map_of_mem he)
  have hsplit := realizedBy_split t asset e.tradeIntentId
  rw [h.settlementsOf_eq hw, h.others_eq hw] at hsplit
  constructor
  · rintro ⟨i', hget', hrealized'⟩
    rw [hget] at hget'
    cases hget'
    rw [hrealized, Option.some.injEq, hsplit] at hrealized'
    linarith
  · intro hzero
    refine ⟨i, hget, ?_⟩
    rw [hrealized, hsplit, hzero, add_zero]

theorem held_eq (h : Restated s asset p now r realized) (hw : r.Wrote s asset p t) :
    (quantityOf r.lots = 0 → t.holdings.get? (holdingRecordId asset) = none) ∧
    (quantityOf r.lots ≠ 0 → ∃ holding, t.holdings.get? (holdingRecordId asset) = some holding ∧
      holding.quantity = quantityOf r.lots ∧
      holding.averagePrice =
        Settlement.sumOver r.lots (fun l => l.remainingQuantity * l.acquisitionPrice)
          / quantityOf r.lots) := by
  rw [h.get?_holding hw]
  obtain ⟨hzero, hnone⟩ | ⟨holding, h', hne, -, hsome, hfrom⟩ := restatedHolding_ok h.holding
  · exact ⟨fun _ => hnone, fun hne => absurd hzero hne⟩
  · exact ⟨fun hzero => absurd hzero hne,
      fun _ => ⟨h', hsome, hfrom.quantity, hfrom.averagePrice⟩⟩

theorem consistent_iff (h : Restated s asset p now r realized) (hw : r.Wrote s asset p t)
    (hs : Settled s asset) : Consistent asset p now t ↔ RecordedAlike s asset := by
  have hlots := h.lotsByAsset_eq hw
  have hevents := h.settlementsOf_eq hw
  have hintent : ∀ {e e'}, Valued realized e e' → e'.tradeIntentId = e.tradeIntentId :=
    fun hvalued => hvalued.keeps (fun x => x.tradeIntentId) fun _ _ => rfl
  constructor
  · intro hc
    refine ⟨fun e he hsell f hget => ?_, fun e he => ?_⟩
    · obtain ⟨e', he', hvalued⟩ : ∃ e' ∈ r.events, Valued realized e e' :=
        exists_left_of_forall₂ h.valued.flip he
      obtain ⟨f', hf⟩ := hs.exists_fill he
      have hsame : f' = f := Option.some.inj ((sourceFill_agrees hf).1.symm.trans hget)
      rw [← hsame]
      exact (h.accepts_iff hw hs he hf hvalued).1 (hc.accounted e' (hevents.symm ▸ he')) hsell
    · obtain ⟨e', he', hvalued⟩ : ∃ e' ∈ r.events, Valued realized e e' :=
        exists_left_of_forall₂ h.valued.flip he
      refine (h.realized_iff hw he).1 ?_
      rw [← hintent hvalued]
      exact hc.realized e' (hevents.symm ▸ he')
  · intro hr
    refine
      { accounted := ?_
        attributed := ?_
        recorded := ?_
        realized := ?_
        held := ?_
        again := fun records' now' hnow => replayAssetFees_again h hw hs.generated hnow }
    · rw [hevents]
      intro e' he'
      obtain ⟨e, he, hvalued⟩ := exists_left_of_forall₂ h.valued he'
      obtain ⟨f, hf⟩ := hs.exists_fill he
      exact (h.accepts_iff hw hs he hf hvalued).2 fun hsell =>
        hr.sales e he hsell f (sourceFill_agrees hf).1
    · rw [hevents, hlots]
      exact fun e' he' _ => h.attributed_sales hw hs he'
    · rw [hevents, hlots]
      exact h.recorded_sales hw hs
    · rw [hevents]
      intro e' he'
      obtain ⟨e, he, hvalued⟩ := exists_left_of_forall₂ h.valued he'
      rw [hintent hvalued]
      exact (h.realized_iff hw he).2 (hr.intents e he)
    · rw [hlots]
      exact h.held_eq hw

end Restated

/-- What the database holds after a transaction: what it committed, or what it held before. -/
def committed (s : Store) : Except Raised Store → Store
  | .ok t => t
  | .error _ => s

/-- **What a replay of fees leaves.**  When it raises, nothing has changed.  When it commits, of an
instrument that was settled with valid accounting, the rows are consistent exactly where the sales
are recorded under the instrument of the replay and executions of others realized nothing for its
intents. -/
theorem replayAssetFees_consistent_iff {population : Except Raised ReplayPopulation}
    {records : Except Raised Unit} (hs : Settled s asset) :
    (∀ e, replayAssetFees s asset population records now = .error e →
      committed s (replayAssetFees s asset population records now) = s) ∧
    ∀ t, replayAssetFees s asset population records now = .ok t →
      ∃ p, population = .ok p ∧ (Consistent asset p now t ↔ RecordedAlike s asset) := by
  refine ⟨fun e he => by rw [he]; rfl, fun t ht => ?_⟩
  obtain ⟨p, r, hp, ⟨realized, h⟩, hwrite⟩ := replayAssetFees_ok ht
  exact ⟨p, hp, h.consistent_iff (Restatement.write_ok hwrite) hs⟩

end

/-! ### A sale under the instrument of the replay, and one under another name of it -/

/-- The instrument of the examples, under its symbol or under another one. -/
def coinNamed (other : Bool) : AssetIdentity :=
  { bitcoin with symbol := if other then "BTCUSD" else bitcoin.symbol }

/-- The purchase of the examples. -/
def boughtThree : SettlementEventFields :=
  { purchase "bought" 3 1 with realizedPnl := some 0 }

/-- The sale of the examples. -/
def soldOne (other : Bool) : SettlementEventFields :=
  { settledFill "sold" .sell 1 3 with
    asset := coinNamed other
    brokerOrderId := some "sold"
    realizedPnl := some 0 }

/-- The cash of an execution of the examples. -/
def cashOf (e : SettlementEventFields) (amount : ℚ) : CashLedgerEntry :=
  { entryId := "fill:cash:" ++ e.fillId
    idempotencyKey := "fill:cash:" ++ e.fillId
    amount := amount
    currency := "USD"
    occurredAt := e.occurredAt
    reason := "immutable fill cash; accounting-v1" }

/-- Three coins that were bought and one that was sold, with valid accounting. -/
def settledSale (other : Bool) : Store :=
  { settlements := ⟨[⟨boughtThree, by decide +kernel⟩,
      ⟨soldOne other, by cases other <;> decide +kernel⟩], by cases other <;> decide +kernel⟩
    positionLots := ⟨[⟨{ openedBy "lot" ⟨boughtThree, by decide +kernel⟩ with
        remainingQuantity := 2
        closures := .singleton "sold" 1 }, by decide +kernel⟩], by decide +kernel⟩
    fills := ⟨[⟨fillBehind boughtThree, by decide +kernel⟩,
      ⟨fillBehind (soldOne other), by cases other <;> decide +kernel⟩],
      by cases other <;> decide +kernel⟩
    tradeIntents := ⟨[intentBehind boughtThree 90, intentBehind (soldOne other) 90],
      by cases other <;> decide +kernel⟩
    holdings := ⟨[⟨{ asset := bitcoin
                     quantity := 2
                     averagePrice := 100
                     updatedAt := 3 }, by decide +kernel⟩], by decide +kernel⟩
    tradeAttributions := ⟨[{ attributionId := "lot:sold"
                             asset := coinNamed other
                             lotId := "lot"
                             openingTradeIntentId := "bought"
                             closingTradeIntentId := "intent"
                             closingFillId := "sold"
                             quantity := 1
                             entryPrice := 100
                             entryAt := 1
                             exitPrice := 100
                             exitAt := 3
                             realizedPnl := 0
                             createdAt := 3 }], by cases other <;> decide +kernel⟩
    cashLedger := ⟨[cashOf boughtThree (-300), cashOf (soldOne other) 100],
      by cases other <;> decide +kernel⟩
    pnlRecords := ⟨[{ recordId := "fill:pnl:lot:sold"
                      asset := coinNamed other
                      realized := 0
                      unrealized := 0
                      asOf := 3 }], by cases other <;> decide +kernel⟩ }

/-- Half a coin for a fee between the purchase and the sale. -/
def halfFee : ReplayPopulation :=
  { fees := [feeOf (1 / 2)]
    brokerQuantity := 3 / 2 }

theorem settled_settledSale (other : Bool) : Settled (settledSale other) bitcoin where
  accounted := by
    have haccepted : ∀ e ∈ settlementsOf (settledSale other) bitcoin,
        (project (settledSale other) e true true false).isOk = true := by
      cases other <;> decide +kernel
    intro e he
    cases hproject : project (settledSale other) e true true false with
    | error x =>
        have hok := haccepted e he
        rw [hproject] at hok
        cases hok
    | ok s => rw [project_readOnly hproject]
  single := by
    have hone : ∀ e ∈ settlementsOf (settledSale other) bitcoin,
        e.asset.contractMultiplier = none ∧ e.asset.assetClass = .crypto := by
      cases other <;> decide +kernel
    intro e he
    obtain ⟨hnone, hclass⟩ := hone e he
    simp [contractMultiplierOf, hnone, hclass]
  singleFill := by
    have hone : ∀ f ∈ (settledSale other).fills.rows,
        f.asset.contractMultiplier = none ∧ f.asset.assetClass = .crypto := by
      cases other <;> decide +kernel
    intro f hf _
    obtain ⟨hnone, hclass⟩ := hone f hf
    simp [contractMultiplierOf, hnone, hclass]
  noOversell := fun _ _ => rfl
  converted := fun _ _ hconverted => absurd hconverted List.not_mem_nil
  generated := by cases other <;> decide +kernel

theorem replayAssetFees_consistent_halfFee : ∃ t,
    replayAssetFees (settledSale false) bitcoin (.ok halfFee) (.ok ()) 4 = .ok t ∧
      Consistent bitcoin halfFee 4 t := by
  obtain ⟨t, ht, -⟩ : ∃ t,
      replayAssetFees (settledSale false) bitcoin (.ok halfFee) (.ok ()) 4 = .ok t ∧ True :=
    exists_ok_of_any (by decide +kernel)
  obtain ⟨p, hp, hiff⟩ := (replayAssetFees_consistent_iff (settled_settledSale false)).2 t ht
  cases hp
  refine ⟨t, ht, hiff.2 ⟨?_, ?_⟩⟩
  · have hsame : ∀ f ∈ (settledSale false).fills.rows, f.asset = bitcoin := by decide +kernel
    intro e _ _ f hf
    exact hsame f (Table.get?_eq_some_iff.1 hf).1
  · decide +kernel

/-- A sale that is recorded under another symbol of the instrument is refused by accounting after
the replay. -/
theorem replayAssetFees_inconsistent : ∃ t, Settled (settledSale true) bitcoin ∧
    replayAssetFees (settledSale true) bitcoin (.ok halfFee) (.ok ()) 4 = .ok t ∧
      ¬ Consistent bitcoin halfFee 4 t := by
  obtain ⟨t, ht, e, he, hrefused⟩ : ∃ t,
      replayAssetFees (settledSale true) bitcoin (.ok halfFee) (.ok ()) 4 = .ok t ∧
        ∃ e ∈ settlementsOf t bitcoin, (project t e true true false).isOk = false :=
    exists_ok_of_any (by decide +kernel)
  refine ⟨t, settled_settledSale true, ht, fun hc => ?_⟩
  rw [hc.accounted e he] at hrefused
  cases hrefused

end HistoricalFees

end TradePulse
