/-
**A replay of fees is a function of its sources.**

The lots that a replay starts from carry what earlier replays left in them: closures, fees, what
remains and what was realized.  A purchase puts its lot back to where it started, so none of this is
read; and the occurrences are sorted, so the order in which they are given is not read either.

Main definitions:

* `Untied` — no two occurrences share both their time and their activity.

Main results:

* `replayOne_congr` — a turn reads only what a lot was when it opened;
* `chronology_perm` — the chronology does not depend on the order of its sources;
* `previewFeeReplay_of_sources` — a replay of the same sources;
* `previewFeeReplay_deterministic` — **a replay is a function of its sources**, and replaying what it
  returned returns it again.
-/

import TradePulse.Reconciliation.ReplayConservation

set_option autoImplicit false

namespace TradePulse

open Storage

namespace HistoricalFees

/-! ### What a turn reads of the lots -/

/-- A turn reads only what a lot was when it opened. -/
theorem replayOne_congr {origins origins' : String → Option PositionLot}
    (h : ∀ id, (origins id).map (fun l => reopenedFields l.toPositionLotFields)
      = (origins' id).map fun l => reopenedFields l.toPositionLotFields)
    (st : Replay) (x : Occurrence) : replayOne origins st x = replayOne origins' st x := by
  cases x with
  | fee fee => rfl
  | fill event =>
      have hid := h event.fillId
      simp only [replayOne, applyFill]
      cases ho : origins event.fillId with
      | none =>
          rw [ho] at hid
          rw [Option.map_eq_none_iff.1 hid.symm]
      | some lot =>
          rw [ho] at hid
          obtain ⟨lot', ho', hsame⟩ := Option.map_eq_some_iff.1 hid.symm
          have hlot : lot'.lotId = lot.lotId := congrArg (·.lotId) hsame
          rw [ho']
          simp only [hsame, hlot]

/-- Where openings are distinct, the lot that an execution opened does not depend on the order of
the lots. -/
theorem originOf_eq_some_iff {lots : List PositionLot}
    (hnodup : (lots.map (·.originatingFillId)).Nodup) {id : String} {lot : PositionLot} :
    originOf lots id = some lot ↔ lot ∈ lots ∧ lot.originatingFillId = id := by
  unfold originOf
  constructor
  · intro h
    exact ⟨List.mem_of_find?_eq_some h, by simpa using List.find?_some h⟩
  · rintro ⟨hmem, hid⟩
    obtain ⟨found, hfound⟩ : ∃ found, lots.find? (fun l => l.originatingFillId = id) = some found :=
      Option.isSome_iff_exists.1 (List.find?_isSome.2 ⟨lot, hmem, by simpa using hid⟩)
    have hfid : found.originatingFillId = id := by simpa using List.find?_some hfound
    rw [hfound, List.inj_on_of_nodup_map hnodup (List.mem_of_find?_eq_some hfound) hmem
      (hfid.trans hid.symm)]

/-- The fields that lots had when they opened. -/
def sources (lots : List PositionLot) : List PositionLotFields :=
  lots.map fun l => reopenedFields l.toPositionLotFields

theorem exists_source {lots lots' : List PositionLot} (hperm : (sources lots').Perm (sources lots))
    {lot : PositionLot} (hlot : lot ∈ lots) : ∃ lot' ∈ lots', SameSource lot' lot := by
  have hmem : reopenedFields lot.toPositionLotFields ∈ sources lots' :=
    hperm.symm.subset (List.mem_map.2 ⟨lot, hlot, rfl⟩)
  obtain ⟨lot', hlot', hsame⟩ := List.mem_map.1 hmem
  exact ⟨lot', hlot', hsame⟩

/-- A field that earlier replays do not change is the same, up to order, in lots of the same
sources. -/
theorem perm_map_of_sources {β : Type} {lots lots' : List PositionLot}
    (hperm : (sources lots').Perm (sources lots)) (f : PositionLotFields → β)
    (hf : ∀ l, f (reopenedFields l) = f l) :
    (lots'.map fun l => f l.toPositionLotFields).Perm (lots.map fun l => f l.toPositionLotFields) := by
  have hmap := hperm.map f
  unfold sources at hmap
  rw [List.map_map, List.map_map] at hmap
  simpa only [Function.comp_def, hf] using hmap

theorem originOf_congr {lots lots' : List PositionLot}
    (hperm : (sources lots').Perm (sources lots))
    (hnodup : (lots.map (·.originatingFillId)).Nodup) (id : String) :
    (originOf lots' id).map (fun l => reopenedFields l.toPositionLotFields)
      = (originOf lots id).map fun l => reopenedFields l.toPositionLotFields := by
  have hnodup' : (lots'.map (·.originatingFillId)).Nodup :=
    (perm_map_of_sources hperm (·.originatingFillId) fun _ => rfl).nodup_iff.2 hnodup
  ext fields
  simp only [Option.map_eq_some_iff, originOf_eq_some_iff hnodup, originOf_eq_some_iff hnodup']
  constructor
  · rintro ⟨lot', ⟨hlot', hid⟩, rfl⟩
    obtain ⟨lot, hlot, hsame⟩ := exists_source hperm.symm hlot'
    have horigin : lot.originatingFillId = lot'.originatingFillId :=
      congrArg (·.originatingFillId) hsame
    exact ⟨lot, ⟨hlot, horigin.trans hid⟩, hsame⟩
  · rintro ⟨lot, ⟨hlot, hid⟩, rfl⟩
    obtain ⟨lot', hlot', hsame⟩ := exists_source hperm hlot
    have horigin : lot'.originatingFillId = lot.originatingFillId :=
      congrArg (·.originatingFillId) hsame
    exact ⟨lot', ⟨hlot', horigin.trans hid⟩, hsame⟩

/-! ### The chronology -/

/-- No two occurrences share both their time and their activity. -/
def Untied (settlements : List SettlementEvent) (fees : List AssetFee) : Prop :=
  ((settlements.map Occurrence.fill ++ fees.map Occurrence.fee).map fun x =>
    (x.time, x.activityId)).Nodup

instance : IsTrans Occurrence Occurrence.NotAfter where
  trans a b c := by
    rintro (hab | ⟨hab, hab'⟩) (hbc | ⟨hbc, hbc'⟩)
    · exact .inl (hab.trans hbc)
    · exact .inl (hbc ▸ hab)
    · exact .inl (hab ▸ hbc)
    · exact .inr ⟨hab.trans hbc, String.le_trans hab' hbc'⟩

instance : Std.Total Occurrence.NotAfter where
  total a b := by
    rcases lt_trichotomy a.time b.time with h | h | h
    · exact .inl (.inl h)
    · rcases String.le_total a.activityId b.activityId with h' | h'
      · exact .inl (.inr ⟨h, h'⟩)
      · exact .inr (.inr ⟨h.symm, h'⟩)
    · exact .inr (.inl h)

theorem Occurrence.NotAfter.key_eq {a b : Occurrence} (hab : a.NotAfter b) (hba : b.NotAfter a) :
    (a.time, a.activityId) = (b.time, b.activityId) := by
  rcases hab with hab | ⟨hab, hab'⟩
  · rcases hba with hba | ⟨hba, -⟩
    · exact absurd (hab.trans hba) (lt_irrefl _)
    · exact absurd (hba ▸ hab) (lt_irrefl _)
  · rcases hba with hba | ⟨-, hba'⟩
    · exact absurd (hab ▸ hba) (lt_irrefl _)
    · rw [hab, String.le_antisymm hab' hba']

/-- The chronology does not depend on the order of its sources. -/
theorem chronology_perm {settlements settlements' : List SettlementEvent}
    {fees fees' : List AssetFee} (huntied : Untied settlements fees)
    (hs : settlements'.Perm settlements) (hf : fees'.Perm fees) :
    chronology settlements' fees' = chronology settlements fees := by
  have hperm : (chronology settlements' fees').Perm (chronology settlements fees) :=
    (List.perm_insertionSort _ _).trans
      (((hs.map _).append (hf.map _)).trans (List.perm_insertionSort _ _).symm)
  refine List.Perm.eq_of_pairwise
    (fun a b ha hb (hab : a.NotAfter b) (hba : b.NotAfter a) => ?_)
    (List.pairwise_insertionSort _ _) (List.pairwise_insertionSort _ _) hperm
  have ha' := (List.perm_insertionSort _ _).subset (hperm.subset ha)
  have hb' := (List.perm_insertionSort _ _).subset hb
  exact List.inj_on_of_nodup_map huntied ha' hb' (hab.key_eq hba)

/-! ### Replays of the same sources -/

theorem mapM_perm {ε α β : Type} {f : α → Except ε β} {l l' : List α} (hperm : l'.Perm l)
    {bs : List β} (h : l.mapM f = .ok bs) : ∃ bs', l'.mapM f = .ok bs' ∧ bs'.Perm bs := by
  induction hperm generalizing bs with
  | nil => exact ⟨bs, h, .refl _⟩
  | cons a _ ih =>
      rw [List.mapM_cons] at h
      obtain ⟨b, hb, h⟩ := except_bind_eq_ok.1 h
      obtain ⟨cs, hcs, h⟩ := except_bind_eq_ok.1 h
      cases h
      obtain ⟨cs', hcs', hp⟩ := ih hcs
      refine ⟨b :: cs', ?_, hp.cons b⟩
      rw [List.mapM_cons, hb, hcs']
      rfl
  | swap a c l =>
      rw [List.mapM_cons, List.mapM_cons] at h
      obtain ⟨x, hx, h⟩ := except_bind_eq_ok.1 h
      obtain ⟨ys, hys, h⟩ := except_bind_eq_ok.1 h
      obtain ⟨y, hy, hys⟩ := except_bind_eq_ok.1 hys
      obtain ⟨zs, hzs, hys⟩ := except_bind_eq_ok.1 hys
      cases hys
      cases h
      refine ⟨y :: x :: zs, ?_, .swap _ _ _⟩
      rw [List.mapM_cons, List.mapM_cons, hx, hy, hzs]
      rfl
  | trans _ _ ih₁ ih₂ =>
      obtain ⟨cs, hcs, hp⟩ := ih₂ h
      obtain ⟨cs', hcs', hp'⟩ := ih₁ hcs
      exact ⟨cs', hcs', hp'.trans hp⟩

/-- Lots of the same sources, in which earlier replays left something consistent, are accepted with
the same occurrences. -/
theorem Accepted.of_sources {lots lots' : List PositionLot}
    {settlements settlements' : List SettlementEvent} {fees fees' : List AssetFee}
    (h : Accepted lots settlements fees) (hl : (sources lots').Perm (sources lots))
    (hs : settlements'.Perm settlements) (hf : fees'.Perm fees)
    (hconserved : ∀ lot ∈ lots', lot.Conserved)
    (hknown : ∀ lot ∈ lots', ∀ id ∈ lot.assetFeeQuantities.keys, id ∈ fees.map (·.activityId)) :
    Accepted lots' settlements' fees' := by
  have hids := hf.map (·.activityId)
  have hassets := perm_map_of_sources hl (·.asset) fun _ => rfl
  have hsource : ∀ lot' ∈ lots', ∃ lot ∈ lots, SameSource lot lot' := fun lot' hlot' =>
    exists_source hl.symm hlot'
  obtain ⟨key, hkey⟩ := h.oneAsset
  refine
    { nonempty := ?_
      oneAsset := ⟨key, fun asset hasset => hkey asset ?_⟩
      long := fun lot' hlot' => ?_
      receipts := hids.nodup_iff.2 h.receipts
      parsed := fun fee hfee => h.parsed fee (hf.subset hfee)
      known := fun lot hlot id hid => hids.symm.subset (hknown lot hlot id hid)
      fills := (hs.map _).nodup_iff.2 h.fills
      filled := fun lot' hlot' => ?_
      openings := ?_
      settled := fun event hevent => h.settled event (hs.subset hevent)
      opened := fun lot' hlot' => ?_
      conserved := hconserved
      identified := fun event hevent => h.identified event (hs.subset hevent) }
  · rintro rfl
    have hnil : sources lots = [] := hl.nil_eq.symm
    exact h.nonempty (List.map_eq_nil_iff.1 hnil)
  · exact ((hassets.append (hs.map _)).append (hf.map _)).subset hasset
  · obtain ⟨lot, hlot, hsame⟩ := hsource lot' hlot'
    have hside : lot.positionSide = lot'.positionSide := congrArg (·.positionSide) hsame
    exact hside ▸ h.long lot hlot
  · obtain ⟨lot, hlot, hsame⟩ := hsource lot' hlot'
    have horigin := h.filled lot hlot
    unfold PositionLot.origin at horigin ⊢
    rwa [hsame.lotId] at horigin
  · exact (perm_map_of_sources hl (·.originatingFillId) fun _ => rfl).nodup_iff.2 h.openings
  · obtain ⟨lot, hlot, hsame⟩ := hsource lot' hlot'
    obtain ⟨event, hevent, hfill, hopens⟩ := h.opened lot hlot
    have horigin : lot.originatingFillId = lot'.originatingFillId :=
      congrArg (·.originatingFillId) hsame
    have hquantity : lot.openedQuantity = lot'.openedQuantity := congrArg (·.openedQuantity) hsame
    have hprice : lot.acquisitionPrice = lot'.acquisitionPrice :=
      congrArg (·.acquisitionPrice) hsame
    have htime : lot.openedAt = lot'.openedAt := congrArg (·.openedAt) hsame
    refine ⟨event, hs.symm.subset hevent, hfill.trans horigin, ?_⟩
    unfold opensLot at hopens ⊢
    rwa [hquantity, hprice, htime] at hopens

/-- **A replay of the same sources.**  It succeeds, realizes the same, and returns the same lots in
the order of its own. -/
theorem previewFeeReplay_of_sources {lots lots' out : List PositionLot}
    {settlements settlements' : List SettlementEvent} {fees fees' : List AssetFee}
    {realized : OrderedDict String ℚ} (huntied : Untied settlements fees)
    (h : previewFeeReplay lots settlements fees = .ok (out, realized))
    (hl : (sources lots').Perm (sources lots)) (hs : settlements'.Perm settlements)
    (hf : fees'.Perm fees) (hconserved : ∀ lot ∈ lots', lot.Conserved)
    (hknown : ∀ lot ∈ lots', ∀ id ∈ lot.assetFeeQuantities.keys, id ∈ fees.map (·.activityId)) :
    ∃ out', previewFeeReplay lots' settlements' fees' = .ok (out', realized) ∧ out'.Perm out ∧
      (sources lots' = sources lots → out' = out) := by
  obtain ⟨haccepted, final, hfold, hout, hrealized⟩ := previewFeeReplay_ok_iff.1 h
  have haccepted' := haccepted.of_sources hl hs hf hconserved hknown
  have horigins := replayOne_congr fun id => originOf_congr hl haccepted.openings id
  have hfold' : (chronology settlements' fees').foldlM (replayOne (originOf lots')) {}
      = .ok final := by
    rw [chronology_perm huntied hs hf, ← hfold]
    exact congrArg (fun f => (chronology settlements fees).foldlM f {}) (funext₂ horigins)
  have hids := perm_map_of_sources hl (·.lotId) fun _ => rfl
  obtain ⟨out', hout', hperm⟩ := mapM_perm hids hout
  refine ⟨out', previewFeeReplay_ok_iff.2 ⟨haccepted', final, hfold', hout', hrealized⟩, hperm,
    fun hsame => ?_⟩
  have hsameIds : lots'.map (·.lotId) = lots.map (·.lotId) := by
    have hmap := congrArg (List.map (·.lotId)) hsame
    unfold sources at hmap
    rwa [List.map_map, List.map_map] at hmap
  rw [hsameIds, hout] at hout'
  cases hout'
  rfl

/-- The lots that a replay returns have the sources of the lots it was given. -/
theorem sources_replayed {lots out : List PositionLot} {settlements : List SettlementEvent}
    {fees : List AssetFee} {realized : OrderedDict String ℚ}
    (hdistinct : (lots.map (·.lotId)).Nodup)
    (h : previewFeeReplay lots settlements fees = .ok (out, realized)) :
    sources out = sources lots := by
  obtain ⟨final, haccounts, hids, hperm, -⟩ := accounts_of_preview hdistinct h
  have hsame : ∀ l ∈ out, ∃ lot ∈ lots, SameSource lot l := fun l hl => by
    obtain ⟨lot, hlot, hsource, -⟩ := haccounts.source l (hperm.subset hl)
    exact ⟨lot, hlot, hsource⟩
  -- both lists are what their identifiers look up
  let opening : String → Option PositionLotFields := fun id =>
    (lots.find? fun l => l.lotId = id).map fun l => reopenedFields l.toPositionLotFields
  have hfind : ∀ lot ∈ lots,
      opening lot.lotId = some (reopenedFields lot.toPositionLotFields) := fun lot hlot => by
    obtain ⟨found, hfound⟩ : ∃ found, lots.find? (fun l => l.lotId = lot.lotId) = some found :=
      Option.isSome_iff_exists.1 (List.find?_isSome.2 ⟨lot, hlot, by simp⟩)
    have hid : found.lotId = lot.lotId := by simpa using List.find?_some hfound
    have heq : found = lot :=
      List.inj_on_of_nodup_map hdistinct (List.mem_of_find?_eq_some hfound) hlot hid
    simp only [opening, hfound, heq, Option.map_some]
  have hlots : (sources lots).map some = (lots.map (·.lotId)).map opening := by
    rw [sources, List.map_map, List.map_map]
    exact List.map_congr_left fun lot hlot => (hfind lot hlot).symm
  have hout : (sources out).map some = (out.map (·.lotId)).map opening := by
    rw [sources, List.map_map, List.map_map]
    refine List.map_congr_left fun l hl => ?_
    obtain ⟨lot, hlot, hsource⟩ := hsame l hl
    have hopening := hfind lot hlot
    rw [hsource, hsource.lotId] at hopening
    exact hopening.symm
  refine List.map_injective_iff.2 (Option.some_injective _) ?_
  rw [hout, hlots, hids]

/-- **A replay is a function of its sources.**  Of lots with distinct identifiers and occurrences no
two of which share time and activity: replaying what a replay returned returns it again; and lots of
the same sources, in any order, with anything consistent left in them, with the same executions and
fees in any order, are replayed to the same lots and realize the same. -/
theorem previewFeeReplay_deterministic {lots out : List PositionLot}
    {settlements : List SettlementEvent} {fees : List AssetFee} {realized : OrderedDict String ℚ}
    (hdistinct : (lots.map (·.lotId)).Nodup) (huntied : Untied settlements fees)
    (h : previewFeeReplay lots settlements fees = .ok (out, realized)) :
    previewFeeReplay out settlements fees = .ok (out, realized) ∧
    ∀ lots' settlements' fees', (sources lots').Perm (sources lots) →
      settlements'.Perm settlements → fees'.Perm fees →
      (∀ lot ∈ lots', lot.Conserved ∧
        ∀ id ∈ lot.assetFeeQuantities.keys, id ∈ fees.map (·.activityId)) →
      ∃ out', previewFeeReplay lots' settlements' fees' = .ok (out', realized) ∧ out'.Perm out ∧
        out'.map (·.lotId) = lots'.map (·.lotId) := by
  have hsources := sources_replayed hdistinct h
  refine ⟨?_, fun lots' settlements' fees' hl hs hf hleft => ?_⟩
  · obtain ⟨final, haccounts, -, hperm, -⟩ := accounts_of_preview hdistinct h
    have hknown : ∀ lot ∈ out, ∀ id ∈ lot.assetFeeQuantities.keys,
        id ∈ fees.map (·.activityId) := fun lot hlot id hid => by
      obtain ⟨fee, hfee, rfl⟩ := haccounts.debitor lot (hperm.subset hlot) id hid
      have hmem : fee ∈ fees := by simpa [mem_chronology] using hfee
      exact List.mem_map.2 ⟨fee, hmem, rfl⟩
    obtain ⟨out', hout', -, hsame⟩ := previewFeeReplay_of_sources huntied h (hsources ▸ .refl _)
      (.refl _) (.refl _) (fun lot hlot => haccounts.conserved lot (hperm.subset hlot)) hknown
    rw [hout', hsame hsources]
  · obtain ⟨out', hout', hperm, -⟩ := previewFeeReplay_of_sources huntied h hl hs hf
      (fun lot hlot => (hleft lot hlot).1) fun lot hlot => (hleft lot hlot).2
    have hids := perm_map_of_sources hl (·.lotId) fun _ => rfl
    obtain ⟨-, -, hids', -⟩ := accounts_of_preview (hids.nodup_iff.2 hdistinct) hout'
    exact ⟨out', hout', hperm, hids'⟩

theorem previewFeeReplay_deterministic_coins : ∃ out realized,
    previewFeeReplay [boughtLot] [sold, bought] [coinFee] = .ok (out, realized) ∧
      previewFeeReplay out [sold, bought] [coinFee] = .ok (out, realized) ∧
      ∃ out', previewFeeReplay [boughtLot] [bought, sold] [coinFee] = .ok (out', realized) ∧
        out'.Perm out := by
  obtain ⟨⟨out, realized⟩, h, -⟩ :
      ∃ r, previewFeeReplay [boughtLot] [sold, bought] [coinFee] = .ok r ∧ True :=
    exists_ok_of_any (by decide +kernel)
  have huntied : Untied [sold, bought] [coinFee] := by
    unfold Untied
    decide +kernel
  obtain ⟨hagain, hsources⟩ := previewFeeReplay_deterministic (by decide +kernel) huntied h
  have hleft : ∀ lot ∈ [boughtLot], lot.Conserved ∧
      ∀ id ∈ lot.assetFeeQuantities.keys, id ∈ [coinFee].map (·.activityId) := by
    decide +kernel
  obtain ⟨out', hout', hperm, -⟩ :=
    hsources _ _ _ (.refl _) (.swap sold bought []) (.refl [coinFee]) hleft
  exact ⟨out, realized, h, hagain, out', hout', hperm⟩

/-- Two lots with one identifier are replayed to two copies of one lot, which are not accepted. -/
theorem replayed_again_of_equal_identifiers : ∃ out realized,
    previewFeeReplay [boughtLot, boughtMoreLot] [bought, boughtMore] [] = .ok (out, realized) ∧
      Untied [bought, boughtMore] [] ∧
      ∀ r, previewFeeReplay out [bought, boughtMore] [] ≠ .ok r := by
  obtain ⟨⟨out, realized⟩, h, hagain⟩ :
      ∃ r, previewFeeReplay [boughtLot, boughtMoreLot] [bought, boughtMore] [] = .ok r ∧
        (previewFeeReplay r.1 [bought, boughtMore] []).isOk = false :=
    exists_ok_of_any (by decide +kernel)
  refine ⟨out, realized, h, ?_, fun r hr => ?_⟩
  · unfold Untied
    decide +kernel
  · rw [hr] at hagain
    cases hagain

end HistoricalFees

end TradePulse
