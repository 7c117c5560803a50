/-
**Replaying the same population again** (`reconciliation/fee_replay.py`).

A restatement is derived from the fills, the population and what the lots opened with, none of which
it changes; so of its own results it derives the same again, and there is nothing left to write.

Main results:

* `Restated.restate_again` — the same restatement is derived of its own results;
* `Restated.write_again` — writing it again changes nothing;
* `replayAssetFees_again` — **the same population replayed again leaves the store as it is**.
-/

import TradePulse.Reconciliation.RestatedRows

set_option autoImplicit false

namespace TradePulse

open Storage

namespace HistoricalFees

theorem mapM_of_forall₂ {ε α β : Type} {g : α → Except ε β} {l : List α} {bs : List β}
    (h : List.Forall₂ (fun a b => g a = .ok b) l bs) : l.mapM g = .ok bs := by
  induction h with
  | nil => rfl
  | cons hab _ ih =>
      rw [List.mapM_cons, hab, ih]
      rfl

theorem forall₂_mem {α β : Type} {R : α → β → Prop} {l : List α} {bs : List β}
    (h : List.Forall₂ R l bs) : List.Forall₂ (fun a b => R a b ∧ a ∈ l ∧ b ∈ bs) l bs := by
  refine List.forall₂_iff_get.2 ⟨h.length_eq, fun i hl hbs => ?_⟩
  exact ⟨(List.forall₂_iff_get.1 h).2 i hl hbs, List.get_mem .., List.get_mem ..⟩

section

variable {s t : Store} {asset : AssetIdentity} {p : ReplayPopulation} {r : Restatement}
  {now now' : Instant} {realized : OrderedDict String ℚ}

/-- A holding that was restated is restated to itself. -/
theorem restatedHolding_again {lots : List PositionLot} {previous out : Option Holding}
    (h : restatedHolding now lots previous = .ok out) : restatedHolding now' lots out = .ok out := by
  -- a holding with the quantity and the average price of the lots stays as it is
  have hstays : ∀ x : Holding, quantityOf lots ≠ 0 → x.quantity = quantityOf lots →
      x.averagePrice =
        Settlement.sumOver lots (fun l => l.remainingQuantity * l.acquisitionPrice)
          / quantityOf lots →
      restatedHolding now' lots (some x) = .ok (some x) := by
    intro x hne hquantity haverage
    have hmake : Holding.make
        { x.toHoldingFields with
          quantity := quantityOf lots
          averagePrice := Settlement.sumOver lots (fun l => l.remainingQuantity * l.acquisitionPrice)
            / quantityOf lots } = .ok x := by
      refine Holding.make_eq_ok_iff.2 ?_
      rw [← haverage, ← hquantity]
    simp only [restatedHolding, if_neg hne]
    refine except_bind_eq_ok.2 ⟨x, hmake, ?_⟩
    rw [if_neg]
    · rfl
    · rintro (hbad | hbad)
      · exact hbad rfl
      · exact hbad rfl
  obtain ⟨hzero, rfl⟩ | ⟨holding, h', hne, -, rfl, hfrom⟩ := restatedHolding_ok h
  · simp only [restatedHolding, if_pos hzero]
  · exact hstays h' hne hfrom.quantity hfrom.averagePrice

namespace Restated

theorem entry_unique (h : Restated s asset p now r realized)
    (hgenerated : ∀ l ∈ s.lotsByAsset asset, ':' ∉ l.lotId.toList) {lot : PositionLot}
    {l : List (String × TradeAttribution)} (hlot : lot ∈ r.lots)
    (hrestated : restatedAttributions s asset now lot = .ok l) {k : String} {a : TradeAttribution}
    (hentry : (k, a) ∈ l) : r.attributions.get? k = some a := by
  obtain ⟨closures, hclosures, hattributions⟩ := h.attributions
  have hcolon : ∀ x ∈ r.lots, ':' ∉ x.lotId.toList := by
    intro x hx
    obtain ⟨l₀, hl₀, hid⟩ := List.mem_map.1 (h.map_lotId ▸ List.mem_map_of_mem hx)
    rw [← hid]
    exact hgenerated l₀ hl₀
  obtain ⟨closure, hclosure, hname, -⟩ :=
    exists_left_of_forall₂ (restatedAttributions_ok hrestated) hentry
  have hin : (k, a) ∈ closures.flatten := by
    obtain ⟨l', hl', hrestated'⟩ :=
      exists_left_of_forall₂ (forall₂_of_mapM hclosures).flip hlot
    rw [hrestated] at hrestated'
    cases hrestated'
    exact List.mem_flatten.2 ⟨l, hl', hentry⟩
  have hkey : k ∈ r.attributions.keys := by
    rw [hattributions]
    exact OrderedDict.mem_keys_ofList.2 (List.mem_map.2 ⟨(k, a), hin, rfl⟩)
  obtain ⟨b, hb⟩ := Option.isSome_iff_exists.1 (OrderedDict.isSome_get?.2 hkey)
  have hb' := hb
  rw [hattributions] at hb'
  obtain ⟨l', hl', hentry'⟩ := List.mem_flatten.1 (OrderedDict.mem_of_get?_ofList hb')
  obtain ⟨lot', hlot', hrestated'⟩ := exists_left_of_forall₂ (forall₂_of_mapM hclosures) hl'
  obtain ⟨closure', hclosure', hname', -⟩ :=
    exists_left_of_forall₂ (restatedAttributions_ok hrestated') hentry'
  obtain ⟨hid, -⟩ := attributionId_inj (hcolon lot hlot) (hcolon lot' hlot') (hname.symm.trans hname')
  have hsame : lot = lot' := List.inj_on_of_nodup_map h.nodup_lots hlot hlot' hid
  subst hsame
  rw [hrestated] at hrestated'
  cases hrestated'
  -- within the list of one lot, the identifiers are those of its closures
  have hkeys : l.map Prod.fst = lot.closures.entries.map fun c => attributionId lot c.1 :=
    (map_eq_of_forall₂ (restatedAttributions_ok hrestated) fun _ _ hce => hce.1.symm).symm
  have hnodup : (l.map Prod.fst).Nodup := by
    have hclosed : (lot.closures.entries.map Sigma.fst).Nodup := lot.closures.nodupKeys
    have hmap := hclosed.map (f := attributionId lot) fun x y hxy =>
      (attributionId_inj (hcolon lot hlot) (hcolon lot hlot) hxy).2
    rw [List.map_map] at hmap
    rw [hkeys]
    exact hmap
  have heq : (k, a) = (k, b) := List.inj_on_of_nodup_map hnodup hentry hentry' rfl
  rw [hb, (Prod.mk.inj heq).2]

theorem find?_attribution (h : Restated s asset p now r realized) (hw : r.Wrote s asset p t)
    {lot : PositionLot} (hlot : lot ∈ r.lots) {k : String} {a : TradeAttribution}
    (hget : r.attributions.get? k = some a) (hof : a.lotId = lot.lotId) :
    ((attributionsOf t asset).find? fun x => x.attributionId = k) = some a := by
  have hname : a.attributionId = k := h.named k a hget
  have ha : a ∈ t.tradeAttributions := (h.mem_tradeAttributions hw).2 (.inl (hname.symm ▸ hget))
  refine find?_recordId (t := t.tradeAttributions) (fun b hb => (List.mem_filter.1 hb).1)
    (List.mem_filter.2 ⟨ha, decide_eq_true ?_⟩) hname
  rw [h.lotsByAsset_eq hw, hof]
  exact List.mem_map_of_mem hlot

theorem restatedAttributions_again (h : Restated s asset p now r realized)
    (hw : r.Wrote s asset p t) (hgenerated : ∀ l ∈ s.lotsByAsset asset, ':' ∉ l.lotId.toList)
    {lot : PositionLot} {l : List (String × TradeAttribution)} (hlot : lot ∈ r.lots)
    (hrestated : restatedAttributions s asset now lot = .ok l) :
    restatedAttributions t asset now' lot = .ok l := by
  have hfills : t.fills = s.fills := by rw [hw.frame]
  have hentries := forall₂_mem (restatedAttributions_ok hrestated)
  have hparts := hrestated
  unfold restatedAttributions at hparts
  obtain ⟨opening, hopening, hparts⟩ := except_bind_eq_ok.1 hparts
  obtain ⟨intent, hintent, -⟩ := except_bind_eq_ok.1 hparts
  have hopened := found_ok hopening
  -- the purchase that opened the lot has its intent among those that were restated
  obtain ⟨i, -, hi, -⟩ : ∃ i ∈ r.intents, t.tradeIntents.get? opening.tradeIntentId = some i ∧
      i.realizedPnl = some (realizedBy r.events opening.tradeIntentId) := by
    refine h.get?_tradeIntents hw ?_
    have hkey := hopened
    unfold fillOf at hkey
    obtain ⟨hget, hasset⟩ := Option.filter_eq_some_iff.1 hkey
    obtain ⟨hmem, hid⟩ := Table.get?_eq_some_iff.1 hget
    obtain ⟨_, -, hsources⟩ := except_bind_eq_ok.1 h.sources
    obtain ⟨_, hcovered, hsources⟩ := except_bind_eq_ok.1 hsources
    obtain ⟨_, hchecked, -⟩ := except_bind_eq_ok.1 hsources
    rw [raiseIf_eq_ok_iff] at hcovered
    push Not at hcovered
    obtain ⟨e, he, heid⟩ := List.mem_map.1 (hcovered.2 opening hmem (of_decide_eq_true hasset))
    obtain ⟨fill, hfill, hcheck⟩ := except_bind_eq_ok.1 (forM_eq_ok_iff.1 hchecked e he)
    obtain ⟨_, -, hcheck⟩ := except_bind_eq_ok.1 hcheck
    obtain ⟨_, hagree, -⟩ := except_bind_eq_ok.1 hcheck
    rw [raiseIf_eq_ok_iff] at hagree
    push Not at hagree
    have hsame : fill = opening := by
      have hfill' := found_ok hfill
      rw [heid, show opening.fillId = lot.originatingFillId from hid, hopened] at hfill'
      exact (Option.some.inj hfill').symm
    refine List.mem_map.2 ⟨e, he, ?_⟩
    rw [hagree.2.2.2.2.1, hsame]
  have hfillOf : fillOf t asset lot.originatingFillId = some opening := by
    rw [fillOf, hfills]
    exact hopened
  unfold restatedAttributions
  rw [hfillOf]
  refine except_bind_eq_ok.2 ⟨opening, rfl, ?_⟩
  rw [hi]
  refine except_bind_eq_ok.2 ⟨i, rfl, mapM_of_forall₂ (hentries.imp ?_)⟩
  rintro closure ⟨k, a⟩ ⟨⟨hname, event, hevent, hid, hattributed⟩, -, hin⟩
  obtain ⟨event', hevent', hvalued⟩ : ∃ event' ∈ r.events, Valued realized event event' :=
    exists_left_of_forall₂ h.valued.flip hevent
  have hid' : event'.fillId = closure.1 :=
    (hvalued.keeps (fun x => x.fillId) fun _ _ => rfl).trans hid
  have hnodup : ((settlementsOf t asset).map (·.fillId)).Nodup := by
    rw [h.settlementsOf_eq hw, h.map_fillId]
    exact (previewFeeReplay_ok_iff.1 h.lots).1.fills
  have hfind : (settlementsOf t asset).find? (fun e => e.fillId = closure.1) = some event' := by
    obtain ⟨e, he⟩ : ∃ e, (settlementsOf t asset).find? (fun e => e.fillId = closure.1) = some e :=
      Option.isSome_iff_exists.1 (List.find?_isSome.2
        ⟨event', (h.settlementsOf_eq hw).symm ▸ hevent', by simpa using hid'⟩)
    have heid : e.fillId = closure.1 := by simpa using List.find?_some he
    rw [he, mem_of_fillId hnodup (List.mem_of_find?_eq_some he)
      ((h.settlementsOf_eq hw).symm ▸ hevent') (heid.trans hid'.symm)]
  have hprice : event'.price = event.price := hvalued.keeps (fun x => x.price) fun _ _ => rfl
  have hat : event'.occurredAt = event.occurredAt :=
    hvalued.keeps (fun x => x.occurredAt) fun _ _ => rfl
  have hcloser : event'.tradeIntentId = event.tradeIntentId :=
    hvalued.keeps (fun x => x.tradeIntentId) fun _ _ => rfl
  have hname' : k = attributionId lot closure.1 := hname
  have hrow := h.entry_unique hgenerated hlot hrestated hin
  have hstored := h.find?_attribution hw hlot hrow hattributed.ofLot
  obtain ⟨opening', hopening', hopener⟩ := hattributed.opener
  rw [hopened] at hopening'
  cases hopening'
  refine except_bind_eq_ok.2 ⟨event', by rw [hfind]; rfl, except_bind_eq_ok.2 ⟨a, ?_, ?_⟩⟩
  · unfold restatedAttribution
    rw [hid', ← hname', hstored]
    have hunchanged : { a with
        quantity := closure.2
        realizedPnl := (event'.price - lot.acquisitionPrice) * closure.2 } = a := by
      rw [hprice, ← hattributed.value, ← hattributed.quantity]
    refine except_bind_eq_ok.2 ⟨(), raiseIf_eq_ok_iff.2 ?_, congrArg Except.ok hunchanged⟩
    push Not
    exact ⟨hopener, hattributed.closer.trans hcloser.symm, hattributed.entry.1,
      hattributed.exit.1.trans hprice.symm, hattributed.ofLot, hattributed.closed.trans hid,
      hattributed.sameAsset, hattributed.entry.2, hattributed.exit.2.trans hat.symm⟩
  · rw [← hname']
    rfl

theorem checkSources_again (h : Restated s asset p now r realized) (hw : r.Wrote s asset p t)
    (hnow : now ≤ now') : checkSources t asset p now' = .ok () := by
  have hfills : t.fills = s.fills := by rw [hw.frame]
  have hholds : t.integrityHolds = s.integrityHolds := by rw [hw.frame]
  have hliabilities : t.shortExposureLiabilities = s.shortExposureLiabilities := by rw [hw.frame]
  have hfillOf : ∀ id, fillOf t asset id = fillOf s asset id := by
    intro id
    rw [fillOf, fillOf, hfills]
  obtain ⟨_, hfuture, hsources⟩ := except_bind_eq_ok.1 h.sources
  obtain ⟨_, hcovered, hsources⟩ := except_bind_eq_ok.1 hsources
  obtain ⟨_, hchecked, hsources⟩ := except_bind_eq_ok.1 hsources
  obtain ⟨_, hheld, hshort⟩ := except_bind_eq_ok.1 hsources
  rw [raiseIf_eq_ok_iff] at hfuture hcovered hshort
  push Not at hfuture hcovered
  unfold checkSources
  refine except_bind_eq_ok.2 ⟨(), raiseIf_eq_ok_iff.2 ?_, except_bind_eq_ok.2
    ⟨(), raiseIf_eq_ok_iff.2 ?_, except_bind_eq_ok.2 ⟨(), forM_eq_ok_iff.2 ?_,
      except_bind_eq_ok.2 ⟨(), raiseIf_eq_ok_iff.2 ?_, raiseIf_eq_ok_iff.2 ?_⟩⟩⟩⟩
  · push Not
    exact ⟨fun fee hfee => (hfuture.1 fee hfee).trans hnow,
      fun fee hfee => (hfuture.2 fee hfee).trans hnow⟩
  · push Not
    rw [h.settlementsOf_eq hw, h.map_fillId, hfills]
    refine ⟨fun e' he' => ?_, hcovered.2⟩
    obtain ⟨e, he, hvalued⟩ := exists_left_of_forall₂ h.valued he'
    rw [hfillOf, hvalued.keeps (fun x => x.fillId) fun _ _ => rfl]
    exact hcovered.1 e he
  · rw [h.settlementsOf_eq hw]
    intro e' he'
    obtain ⟨e, he, hvalued⟩ := exists_left_of_forall₂ h.valued he'
    have hsame : unvalued e' = unvalued e := hvalued.revalued
    have hread : checkSource t asset (unvalued e') = checkSource s asset (unvalued e) := by
      rw [hsame]
      unfold checkSource
      rw [hfillOf, hholds]
    exact hread.trans (forM_eq_ok_iff.1 hchecked e he)
  · rw [h.lotsByAsset_eq hw, h.get?_holding hw, not_not]
    obtain ⟨hzero, hnone⟩ | ⟨holding, h', -, -, hsome, hfrom⟩ := restatedHolding_ok h.holding
    · rw [hnone, hzero]
      rfl
    · rw [hsome, Option.map_some, Option.getD_some]
      exact hfrom.quantity
  · rw [hliabilities]
    exact hshort

/-- **Of its own results, a restatement derives the same again.** -/
theorem restate_again (h : Restated s asset p now r realized) (hw : r.Wrote s asset p t)
    (hgenerated : ∀ l ∈ s.lotsByAsset asset, ':' ∉ l.lotId.toList) (hnow : now ≤ now') :
    restate t asset p now' = .ok r := by
  have hreplayed : previewFeeReplay r.lots r.events p.fees = .ok (r.lots, realized) :=
    previewFeeReplay_again (nodup_lotsByAsset s asset)
      (h.valued.imp fun _ _ hvalued => hvalued.revalued) h.lots
  obtain ⟨closures, hclosures, hattributions⟩ := h.attributions
  have hclosures' : r.lots.mapM (restatedAttributions t asset now') = .ok closures := by
    refine mapM_of_forall₂ ((forall₂_mem (forall₂_of_mapM hclosures)).imp ?_)
    rintro lot l ⟨hrestated, hlot, -⟩
    exact h.restatedAttributions_again hw hgenerated hlot hrestated
  have hevents' : r.events.mapM (restatedEvent realized) = .ok r.events := by
    refine mapM_of_forall₂ (List.forall₂_same.2 fun e' he' => ?_)
    obtain ⟨e, -, hvalued⟩ := exists_left_of_forall₂ h.valued he'
    have hid : e'.fillId = e.fillId := hvalued.keeps (fun x => x.fillId) fun _ _ => rfl
    obtain ⟨v, hget, hfields⟩ := hvalued
    unfold restatedEvent
    rw [hid, hget]
    refine except_bind_eq_ok.2 ⟨v, rfl, SettlementEvent.make_eq_ok_iff.2 ?_⟩
    rw [hfields]
  have hids : (r.events.map (·.tradeIntentId)) = (settlementsOf s asset).map (·.tradeIntentId) :=
    (map_eq_of_forall₂ h.valued fun _ _ hvalued =>
      (hvalued.keeps (fun x => x.tradeIntentId) fun _ _ => rfl).symm).symm
  have hintents' : ((settlementsOf s asset).map (·.tradeIntentId)).dedup.mapM
      (restatedIntent t r.events) = .ok r.intents := by
    refine mapM_of_forall₂ ((forall₂_mem (forall₂_of_mapM h.intents)).imp ?_)
    rintro id i' ⟨hrestated, -, hi'⟩
    obtain ⟨i, hi, rfl⟩ := restatedIntent_ok hrestated
    have hget : t.tradeIntents.get? id
        = some { i with realizedPnl := some (realizedBy r.events id) } :=
      Table.get?_eq_some_iff.2 ⟨h.mem_intents hw hi', (Table.get?_eq_some_iff.1 hi).2⟩
    unfold restatedIntent
    rw [hget]
    rfl
  have hquantity : ¬ quantityOf r.lots + p.openingQuantity ≠ p.brokerQuantity :=
    not_not.2 h.quantity
  have hfilled : ¬ ∃ lot ∈ r.lots, lot.origin = .adopted := by
    rintro ⟨lot, hlot, hadopted⟩
    exact h.filled lot hlot hadopted
  unfold restate
  rw [h.checkSources_again hw hnow, h.settlementsOf_eq hw, h.lotsByAsset_eq hw, h.get?_holding hw,
    hreplayed, hids]
  refine except_bind_eq_ok.2 ⟨(), rfl, except_bind_eq_ok.2 ⟨_, rfl, except_bind_eq_ok.2
    ⟨(), raiseIf_eq_ok_iff.2 hquantity, except_bind_eq_ok.2 ⟨(), raiseIf_eq_ok_iff.2 hfilled,
      except_bind_eq_ok.2 ⟨closures, hclosures', except_bind_eq_ok.2 ⟨r.events, hevents',
        except_bind_eq_ok.2 ⟨r.intents, hintents', except_bind_eq_ok.2
          ⟨r.holding, restatedHolding_again h.holding, ?_⟩⟩⟩⟩⟩⟩⟩⟩
  refine congrArg Except.ok ?_
  rw [← hattributions, ← h.pnl]

/-- A record that was derived is of the instrument and of one of the kinds. -/
theorem pnl_kind (h : Restated s asset p now r realized) {record : PnlRecord}
    (hget : r.pnl.get? record.recordId = some record) :
    assetIdentityKey record.asset = assetIdentityKey asset ∧
      (record.recordId.startsWith "fill:pnl:" ∨ record.recordId.startsWith "asset_fee:pnl:" ∨
        record.recordId.startsWith "asset_cash_fee:pnl:") := by
  have hrow : ∀ x y q asOf, pnlRow asset (x ++ y) q asOf = (record.recordId, record) →
      assetIdentityKey record.asset = assetIdentityKey asset ∧
        record.recordId.startsWith x = true := by
    intro x y q asOf heq
    have hid : x ++ y = record.recordId := congrArg Prod.fst heq
    have hasset : asset = record.asset := congrArg (fun e => e.2.asset) heq
    refine ⟨by rw [hasset], ?_⟩
    rw [← hid, String.startsWith_string_iff, String.toList_append]
    exact List.prefix_append _ _
  rw [h.pnl] at hget
  have hmem := OrderedDict.mem_of_get?_ofList hget
  rw [List.mem_append, List.mem_append, List.mem_map, List.mem_map, List.mem_map] at hmem
  rcases hmem with (⟨e, -, heq⟩ | ⟨fee, -, heq⟩) | ⟨fee, -, heq⟩
  · obtain ⟨hasset, hkind⟩ := hrow _ _ _ _ heq
    exact ⟨hasset, .inl hkind⟩
  · obtain ⟨hasset, hkind⟩ := hrow _ _ _ _ heq
    exact ⟨hasset, .inr (.inl hkind)⟩
  · obtain ⟨hasset, hkind⟩ := hrow _ _ _ _ heq
    exact ⟨hasset, .inr (.inr hkind)⟩

/-- **Writing a restatement again changes nothing.** -/
theorem write_again (h : Restated s asset p now r realized) (hw : r.Wrote s asset p t) :
    r.write t asset p = .ok t := by
  have hlots : t.positionLots.changeAll keyTaken (replacements t.positionLots r.lots)
      = .ok t.positionLots :=
    replaced_again fun l hl =>
      (mem_replaced h.sameKeys h.nodup_lots hw.positionLots).2 (.inl hl)
  have hevents : t.settlements.changeAll keyTaken (replacements t.settlements r.events)
      = .ok t.settlements :=
    replaced_again fun e he => (mem_settlementsOf.1 ((h.settlementsOf_eq hw).symm ▸ he)).1
  have hintents : t.tradeIntents.changeAll keyTaken (replacements t.tradeIntents r.intents)
      = .ok t.tradeIntents := replaced_again fun i hi => h.mem_intents hw hi
  have hattributions : t.tradeAttributions.changeAll keyTaken
      (differences (attributionsOf t asset) r.attributions) = .ok t.tradeAttributions := by
    refine differences_again (fun a => ?_) h.named
    rw [h.mem_tradeAttributions hw, decide_eq_true_iff, h.lotsByAsset_eq hw, h.map_lotId]
    constructor
    · rintro ⟨hrow | ⟨-, hother, -⟩, hlot⟩
      · exact hrow
      · exact absurd hlot hother
    · intro hrow
      refine ⟨.inl hrow, ?_⟩
      obtain ⟨lot, hlot, event, -, q, -, -, hattributed⟩ := h.attributed_of_entry hrow
      rw [hattributed.ofLot, ← h.map_lotId]
      exact List.mem_map_of_mem hlot
  have hpnl : t.pnlRecords.changeAll keyTaken (differences (pnlOf t asset) r.pnl)
      = .ok t.pnlRecords := by
    refine differences_again (fun record => ?_) h.pnl_named
    rw [h.mem_pnlRecords hw]
    constructor
    · rintro ⟨hrow | ⟨hold, hother, -⟩, hkind⟩
      · exact hrow
      · exact absurd (List.mem_filter.2 ⟨hold, hkind⟩) hother
    · intro hrow
      exact ⟨.inl hrow, decide_eq_true (h.pnl_kind hrow)⟩
  have hholdings : t.holdings.changeAll keyTaken
      [⟨holdingRecordId asset, t.holdings.get? (holdingRecordId asset), r.holding⟩]
      = .ok t.holdings := by
    have hget := h.get?_holding hw
    rw [hget, Table.changeAll, List.foldlM_cons]
    cases hholding : r.holding with
    | none => rfl
    | some x =>
        rw [hholding] at hget
        have hput : t.holdings.put x = t.holdings :=
          Table.put_of_mem (Table.get?_eq_some_iff.1 hget).1
        exact congrArg Except.ok hput
  have hledger : p.entries.foldlM postEntry t.cashLedger = .ok t.cashLedger :=
    foldlM_postEntry_again (foldlM_postEntry_ok hw.cashLedger).1
  unfold Restatement.write
  rw [hlots, hattributions, hevents, hintents, hholdings, hpnl, hledger]
  rfl

end Restated

/-- **The same population replayed again leaves the store as it is**; it is refused only where the
records that are kept besides refuse it. -/
theorem replayAssetFees_again {records' : Except Raised Unit}
    (h : Restated s asset p now r realized) (hw : r.Wrote s asset p t)
    (hgenerated : ∀ l ∈ s.lotsByAsset asset, ':' ∉ l.lotId.toList) (hnow : now ≤ now') :
    replayAssetFees t asset (.ok p) records' now' = records'.map fun _ => t := by
  have hrestated := h.restate_again hw hgenerated hnow
  unfold replayAssetFees
  cases records' with
  | error e =>
      simp only [bind, Except.bind, hrestated]
      rfl
  | ok u =>
      simp only [bind, Except.bind, hrestated]
      exact h.write_again hw

end

end HistoricalFees

end TradePulse
