/-
**The rows after a restatement.**

A restatement replaces rows in place and writes the differences between what is stored and what it
derived.  This module says what the tables hold afterwards: the lots and the executions of the
instrument are those that were derived, in their order; the attributions of its lots are those of
the closures; the records of profit and loss of the derived kinds are those that were derived; and
the ledger holds what was posted.

Main definitions:

* `Valued` — an execution with the value that a replay realized;
* `Attributed` — an attribution says what a closure is.

Main results:

* `Restated.lotsByAsset_eq`, `Restated.settlementsOf_eq` — the lots and the executions;
* `Restated.mem_tradeAttributions`, `Restated.attributed` — the attributions;
* `Restated.get?_fillPnl` — the records of profit and loss of the closures;
* `Restated.get?_tradeIntents` — the intents.
-/

import TradePulse.Persistence.AssetMatching
import TradePulse.Reconciliation.FeeReplay
import TradePulse.Reconciliation.ReplaySources

set_option autoImplicit false

namespace TradePulse

open Storage

namespace HistoricalFees

/-! ### Rows that are replaced in place -/

section Replacing

variable {α : Type} [Record α] {t u : Table α} {rows : List α}

theorem map_recordId_put (t : Table α) (r : α) :
    (t.put r).rows.map Record.recordId = t.rows.map Record.recordId := by
  simp only [Table.put, List.map_map]
  refine List.map_congr_left fun a _ => ?_
  rw [Function.comp_apply]
  split
  · rename_i hkeys
    exact hkeys.1.symm
  · rfl

theorem map_recordId_foldl_put (t : Table α) (rows : List α) :
    (rows.foldl Table.put t).rows.map Record.recordId = t.rows.map Record.recordId := by
  induction rows generalizing t with
  | nil => rfl
  | cons r rows ih => rw [List.foldl_cons, ih, map_recordId_put]

/-- Replacements of stored rows always succeed. -/
theorem changeAll_replacements (hstored : ∀ r ∈ rows, (t.get? (Record.recordId r)).isSome)
    (v : Table α) :
    v.changeAll keyTaken (replacements t rows) = .ok (rows.foldl Table.put v) := by
  induction rows generalizing v with
  | nil => rfl
  | cons r rows ih =>
      obtain ⟨a, ha⟩ := Option.isSome_iff_exists.1 (hstored r List.mem_cons_self)
      rw [replacements, List.map_cons, Table.changeAll, List.foldlM_cons, ha, List.foldl_cons]
      exact ih (fun b hb => hstored b (List.mem_cons_of_mem r hb)) (v.put r)

/-- Rows that stand where they stood are left alone. -/
theorem replaced_again (h : ∀ r ∈ rows, r ∈ t) :
    t.changeAll keyTaken (replacements t rows) = .ok t := by
  have hstored : ∀ r ∈ rows, (t.get? (Record.recordId r)).isSome := by
    intro r hr
    rw [Table.get?_eq_some_iff.2 ⟨h r hr, rfl⟩]
    rfl
  rw [changeAll_replacements hstored]
  clear hstored
  induction rows with
  | nil => rfl
  | cons r rows ih =>
      rw [List.foldl_cons, Table.put_of_mem (h r List.mem_cons_self)]
      exact ih fun b hb => h b (List.mem_cons_of_mem r hb)

theorem eq_of_map_recordId {l m : List α} (hl : ∀ a ∈ l, a ∈ t) (hm : ∀ a ∈ m, a ∈ t)
    (h : l.map Record.recordId = m.map Record.recordId) : l = m := by
  induction l generalizing m with
  | nil => exact (List.map_eq_nil_iff.1 h.symm).symm
  | cons a l ih =>
      cases m with
      | nil => cases h
      | cons b m =>
          obtain ⟨hid, hrest⟩ := List.cons.inj h
          have hhead : a = b :=
            Table.eq_of_recordId (hl a List.mem_cons_self) (hm b List.mem_cons_self) hid
          have htail : l = m := ih (fun x hx => hl x (List.mem_cons_of_mem a hx))
            (fun x hx => hm x (List.mem_cons_of_mem b hx)) hrest
          rw [hhead, htail]

/-- **A query whose rows were replaced finds the new rows**, in the order of the old ones. -/
theorem filter_replaced {p : α → Bool} (h : ∀ r ∈ rows, ∃ a ∈ t, SameKeys a r)
    (hids : rows.map Record.recordId = (t.rows.filter p).map Record.recordId)
    (hnew : ∀ r ∈ rows, p r = true)
    (hu : t.changeAll keyTaken (replacements t rows) = .ok u) : u.rows.filter p = rows := by
  have hstored : ∀ r ∈ rows, (t.get? (Record.recordId r)).isSome := by
    intro r hr
    obtain ⟨a, ha, hkeys⟩ := h r hr
    rw [Table.get?_eq_some_iff.2 ⟨ha, hkeys.1⟩]
    rfl
  have hnodup : (rows.map Record.recordId).Nodup := by
    have hall : (t.rows.map Record.recordId).Nodup :=
      List.pairwise_map.2 (t.keyed.imp fun hapart => hapart.1)
    exact hids ▸ hall.sublist (List.filter_sublist.map _)
  have hmem : ∀ {b}, b ∈ u ↔ b ∈ rows ∨ (b ∈ t ∧ Record.recordId b ∉ rows.map Record.recordId) :=
    mem_replaced h hnodup hu
  have hsame : u.rows.map Record.recordId = t.rows.map Record.recordId := by
    rw [changeAll_replacements hstored] at hu
    cases hu
    exact map_recordId_foldl_put t rows
  -- row by row, the query finds the old row where it finds the new one
  have hforall : List.Forall₂ (fun a b => Record.recordId a = Record.recordId b ∧ a ∈ t ∧ b ∈ u)
      t.rows u.rows := by
    have heq : List.Forall₂ Eq (t.rows.map Record.recordId) (u.rows.map Record.recordId) :=
      hsame ▸ List.forall₂_refl _
    have hids' := List.forall₂_map_right_iff.1 (List.forall₂_map_left_iff.1 heq)
    refine List.forall₂_iff_get.2 ⟨hids'.length_eq, fun i ht hu => ?_⟩
    exact ⟨(List.forall₂_iff_get.1 hids').2 i ht hu, List.get_mem .., List.get_mem ..⟩
  have hquery : ∀ a b, (Record.recordId a = Record.recordId b ∧ a ∈ t ∧ b ∈ u) →
      (p a = true ↔ p b = true) := by
    rintro a b ⟨hid, ha, hb⟩
    obtain hb | ⟨hb, hother⟩ := hmem.1 hb
    · have hold : Record.recordId a ∈ (t.rows.filter p).map Record.recordId :=
        hids ▸ hid ▸ List.mem_map_of_mem hb
      obtain ⟨c, hc, hca⟩ := List.mem_map.1 hold
      obtain ⟨hc, hpc⟩ := List.mem_filter.1 hc
      have heq : c = a := Table.eq_of_recordId hc ha hca
      rw [heq] at hpc
      exact iff_of_true hpc (hnew b hb)
    · rw [Table.eq_of_recordId ha hb hid]
  have hfiltered := List.rel_filter (fun a b hab => hquery a b hab) hforall
  have hfound : ((u.rows.filter p).map Record.recordId) = rows.map Record.recordId := by
    rw [hids]
    exact (map_eq_of_forall₂ hfiltered fun a b hab => hab.1).symm
  refine eq_of_map_recordId (fun a ha => (List.mem_filter.1 ha).1) (fun a ha => hmem.2 (.inl ha))
    hfound

theorem filter_unreplaced {q : α → Bool} (h : ∀ r ∈ rows, ∃ a ∈ t, SameKeys a r)
    (hold : ∀ a ∈ t, Record.recordId a ∈ rows.map Record.recordId → q a = false)
    (hnew : ∀ r ∈ rows, q r = false)
    (hu : t.changeAll keyTaken (replacements t rows) = .ok u) :
    u.rows.filter q = t.rows.filter q := by
  have hstored : ∀ r ∈ rows, (t.get? (Record.recordId r)).isSome := by
    intro r hr
    obtain ⟨a, ha, hkeys⟩ := h r hr
    rw [Table.get?_eq_some_iff.2 ⟨ha, hkeys.1⟩]
    rfl
  rw [changeAll_replacements hstored] at hu
  cases hu
  clear hstored h
  induction rows generalizing t with
  | nil => rfl
  | cons r rows ih =>
      have hput : (t.put r).rows.filter q = t.rows.filter q := by
        refine Table.filter_put (fun a ha hkeys => hold a ha ?_) (hnew r List.mem_cons_self)
        rw [hkeys.1]
        exact List.mem_map_of_mem List.mem_cons_self
      rw [List.foldl_cons, ← hput]
      refine ih (fun a ha hid => ?_) fun b hb => hnew b (List.mem_cons_of_mem r hb)
      obtain rfl | ha := Table.mem_put_imp ha
      · exact hnew a List.mem_cons_self
      · exact hold a ha (List.mem_cons_of_mem _ hid)

end Replacing

/-! ### Rows of a kind that are derived anew -/

section Differing

variable {α : Type} [Record α] {t u : Table α} {q : α → Bool} {derived : OrderedDict String α}

theorem map_id_differences (stored : List α) (derived : OrderedDict String α) :
    (differences stored derived).map (·.id)
      = (stored.map Record.recordId ++ derived.keys).dedup := by
  rw [differences, List.map_map]
  exact List.map_id _

theorem find?_recordId {stored : List α} {id : String} {a : α} (hsub : ∀ b ∈ stored, b ∈ t)
    (ha : a ∈ stored) (hid : Record.recordId a = id) :
    stored.find? (fun r => Record.recordId r = id) = some a := by
  obtain ⟨b, hb⟩ : ∃ b, stored.find? (fun r => Record.recordId r = id) = some b :=
    Option.isSome_iff_exists.1 (List.find?_isSome.2 ⟨a, ha, by simpa using hid⟩)
  have hbid : Record.recordId b = id := by simpa using List.find?_some hb
  rw [hb, Table.eq_of_recordId (hsub b (List.mem_of_find?_eq_some hb)) (hsub a ha)
    (hbid.trans hid.symm)]

/-- **What a table holds after the differences were written**: what was derived, and the rows of
other kinds. -/
theorem mem_differences (hnamed : ∀ k a, derived.get? k = some a → Record.recordId a = k)
    (hkeyless : ∀ a : α, Record.uniqueValue a = none)
    (hu : t.changeAll keyTaken (differences (t.rows.filter q) derived) = .ok u) {a : α} :
    a ∈ u ↔ derived.get? (Record.recordId a) = some a ∨
      (a ∈ t ∧ q a = false ∧ Record.recordId a ∉ derived.keys) := by
  have hsub : ∀ b ∈ t.rows.filter q, b ∈ t := fun b hb => (List.mem_filter.1 hb).1
  have hfits : ∀ c ∈ differences (t.rows.filter q) derived, c.Fits t := by
    intro c hc
    obtain ⟨id, hid, rfl⟩ := List.mem_map.1 hc
    refine ⟨fun hold => ?_, fun r hr => hnamed id r hr, fun r _ b _ => ?_⟩
    · cases hfind : (t.rows.filter q).find? fun r => Record.recordId r = id with
      | some b =>
          have hb := List.mem_of_find?_eq_some hfind
          have hbid : Record.recordId b = id := by simpa using List.find?_some hfind
          exact Table.get?_eq_some_iff.2 ⟨hsub b hb, hbid⟩
      | none =>
          -- an identifier that is neither stored nor derived is not looked at
          simp only [hfind, Option.isSome_none, Bool.false_eq_true, false_or] at hold
          rcases List.mem_append.1 (List.mem_dedup.1 hid) with hid | hid
          · obtain ⟨b, hb, hbid⟩ := List.mem_map.1 hid
            rw [find?_recordId hsub hb hbid] at hfind
            cases hfind
          · exact absurd hid (OrderedDict.get?_eq_none_iff.1 hold)
    · rw [hkeyless, hkeyless]
  have hids : ((differences (t.rows.filter q) derived).map (·.id)).Nodup := by
    rw [map_id_differences]
    exact List.nodup_dedup _
  rw [Table.mem_changeAll hfits hids hu, map_id_differences, List.mem_dedup, List.mem_append,
    not_or]
  constructor
  · rintro (⟨c, hc, hnew⟩ | ⟨ha, hstored, hderived⟩)
    · obtain ⟨id, -, rfl⟩ := List.mem_map.1 hc
      have hid : Record.recordId a = id := hnamed id a hnew
      rw [hid]
      exact .inl hnew
    · refine .inr ⟨ha, ?_, hderived⟩
      by_contra hq
      exact hstored (List.mem_map_of_mem (List.mem_filter.2 ⟨ha, by simpa using hq⟩))
  · rintro (hget | ⟨ha, hq, hderived⟩)
    · refine .inl ⟨_, List.mem_map.2 ⟨Record.recordId a, ?_, rfl⟩, hget⟩
      exact List.mem_dedup.2 (List.mem_append_right _ (OrderedDict.isSome_get?.1 (by simp [hget])))
    · refine .inr ⟨ha, fun hstored => ?_, hderived⟩
      obtain ⟨b, hb, hbid⟩ := List.mem_map.1 hstored
      have heq : b = a := Table.eq_of_recordId (hsub b hb) ha hbid
      have hqb := (List.mem_filter.1 hb).2
      rw [heq, hq] at hqb
      cases hqb

/-- Rows that are what is derived are left alone. -/
theorem differences_again (h : ∀ a, (a ∈ t ∧ q a = true) ↔ derived.get? (Record.recordId a) = some a)
    (hnamed : ∀ k a, derived.get? k = some a → Record.recordId a = k) :
    t.changeAll keyTaken (differences (t.rows.filter q) derived) = .ok t := by
  have hsame : ∀ c ∈ differences (t.rows.filter q) derived,
      t.change keyTaken c = .ok t := by
    intro c hc
    obtain ⟨id, hid, rfl⟩ := List.mem_map.1 hc
    obtain ⟨a, ha⟩ : ∃ a, derived.get? id = some a := by
      rcases List.mem_append.1 (List.mem_dedup.1 hid) with hid | hid
      · obtain ⟨a, ha, rfl⟩ := List.mem_map.1 hid
        obtain ⟨hmem, hq⟩ := List.mem_filter.1 ha
        exact ⟨a, (h a).1 ⟨hmem, hq⟩⟩
      · exact Option.isSome_iff_exists.1 (OrderedDict.isSome_get?.2 hid)
    have hname : Record.recordId a = id := hnamed id a ha
    obtain ⟨hmem, hq⟩ := (h a).2 (hname ▸ ha)
    rw [find?_recordId (fun b hb => (List.mem_filter.1 hb).1) (List.mem_filter.2 ⟨hmem, hq⟩) hname,
      ha]
    exact congrArg Except.ok (Table.put_of_mem hmem)
  have hall : ∀ cs : List (Change α), (∀ c ∈ cs, t.change keyTaken c = .ok t) →
      t.changeAll keyTaken cs = .ok t := by
    intro cs
    induction cs with
    | nil => exact fun _ => rfl
    | cons c cs ih =>
        intro hcs
        rw [Table.changeAll, List.foldlM_cons, hcs c List.mem_cons_self]
        exact ih fun d hd => hcs d (List.mem_cons_of_mem c hd)
  exact hall _ hsame

end Differing

/-! ### The ledger -/

section Posting

variable {ledger ledger' : Table CashLedgerEntry} {entry : CashLedgerEntry}
  {entries : List CashLedgerEntry}

theorem postEntry_ok (h : postEntry ledger entry = .ok ledger') :
    entry ∈ ledger' ∧ ∀ e ∈ ledger, e ∈ ledger' := by
  unfold postEntry at h
  split at h
  · rename_i old hold
    split at h
    · rename_i hsame
      cases h
      exact ⟨hsame ▸ (Table.get?_eq_some_iff.1 hold).1, fun e he => he⟩
    · cases h
  · obtain ⟨hadmits, rfl⟩ := Table.insert?_eq_ok_iff.1 h
    exact ⟨Table.mem_createOnce.2 (.inr ⟨hadmits, rfl⟩),
      fun e he => Table.mem_createOnce_of_mem he⟩

theorem postEntry_again (h : entry ∈ ledger) : postEntry ledger entry = .ok ledger := by
  have hget : ledger.get? entry.entryId = some entry := Table.get?_eq_some_iff.2 ⟨h, rfl⟩
  unfold postEntry
  rw [hget]
  exact if_pos rfl

theorem foldlM_postEntry_ok (h : entries.foldlM postEntry ledger = .ok ledger') :
    (∀ e ∈ entries, e ∈ ledger') ∧ ∀ e ∈ ledger, e ∈ ledger' := by
  induction entries generalizing ledger with
  | nil =>
      cases h
      exact ⟨fun _ he => absurd he List.not_mem_nil, fun _ he => he⟩
  | cons entry entries ih =>
      rw [List.foldlM_cons] at h
      obtain ⟨posted, hposted, h⟩ := except_bind_eq_ok.1 h
      obtain ⟨hentry, hkept⟩ := postEntry_ok hposted
      obtain ⟨hentries, hkept'⟩ := ih h
      exact ⟨List.forall_mem_cons.2 ⟨hkept' entry hentry, hentries⟩,
        fun e he => hkept' e (hkept e he)⟩

theorem foldlM_postEntry_again (h : ∀ e ∈ entries, e ∈ ledger) :
    entries.foldlM postEntry ledger = .ok ledger := by
  induction entries with
  | nil => rfl
  | cons entry entries ih =>
      rw [List.foldlM_cons, postEntry_again (h entry List.mem_cons_self)]
      exact ih fun e he => h e (List.mem_cons_of_mem entry he)

end Posting

/-! ### The lots and the executions -/

/-- An execution with the value that a replay realized. -/
def Valued (realized : OrderedDict String ℚ) (e e' : SettlementEvent) : Prop :=
  ∃ v, realized.get? e.fillId = some v ∧
    e'.toSettlementEventFields = { e.toSettlementEventFields with realizedPnl := some v }

section

variable {s t : Store} {asset : AssetIdentity} {p : ReplayPopulation} {r : Restatement}
  {now : Instant} {realized : OrderedDict String ℚ}

theorem restatedEvent_ok {e e' : SettlementEvent} (h : restatedEvent realized e = .ok e') :
    Valued realized e e' := by
  unfold restatedEvent found at h
  cases hget : realized.get? e.fillId with
  | none =>
      rw [hget] at h
      cases h
  | some v =>
      rw [hget] at h
      exact ⟨v, hget, SettlementEvent.make_eq_ok_iff.1 h⟩

theorem Valued.keeps {β : Type} {e e' : SettlementEvent} (h : Valued realized e e')
    (f : SettlementEventFields → β) (hf : ∀ e v, f { e with realizedPnl := v } = f e) :
    f e'.toSettlementEventFields = f e.toSettlementEventFields := by
  obtain ⟨v, -, hfields⟩ := h
  rw [hfields, hf]

theorem Valued.revalued {e e' : SettlementEvent} (h : Valued realized e e') : Revalued e e' := by
  obtain ⟨v, -, hfields⟩ := h
  simp only [Revalued, unvalued, hfields]

theorem mem_settlementsOf {e : SettlementEvent} :
    e ∈ settlementsOf s asset ↔
      e ∈ s.settlements ∧ assetIdentityKey e.asset = assetIdentityKey asset := by
  simp [settlementsOf, Table.mem_def]

namespace Restated

theorem valued (h : Restated s asset p now r realized) :
    List.Forall₂ (Valued realized) (settlementsOf s asset) r.events :=
  (forall₂_of_mapM h.events).imp fun _ _ => restatedEvent_ok

theorem sameKeys_events (h : Restated s asset p now r realized) :
    ∀ e' ∈ r.events, ∃ e ∈ s.settlements, SameKeys e e' := by
  intro e' he'
  obtain ⟨e, he, hvalued⟩ := exists_left_of_forall₂ h.valued he'
  exact ⟨e, (mem_settlementsOf.1 he).1,
    (hvalued.keeps (fun f => f.settlementEventId) fun _ _ => rfl).symm,
    (hvalued.keeps (fun f => some f.fillId) fun _ _ => rfl).symm⟩

theorem asset_events (h : Restated s asset p now r realized) {e' : SettlementEvent}
    (he' : e' ∈ r.events) : assetIdentityKey e'.asset = assetIdentityKey asset := by
  obtain ⟨e, he, hvalued⟩ := exists_left_of_forall₂ h.valued he'
  rw [← (mem_settlementsOf.1 he).2]
  exact hvalued.keeps (fun f => assetIdentityKey f.asset) fun _ _ => rfl

theorem map_settlementEventId (h : Restated s asset p now r realized) :
    r.events.map Record.recordId = (settlementsOf s asset).map Record.recordId :=
  (map_eq_of_forall₂ h.valued fun _ _ hvalued =>
    (hvalued.keeps (fun f => f.settlementEventId) fun _ _ => rfl).symm).symm

theorem map_fillId (h : Restated s asset p now r realized) :
    r.events.map (·.fillId) = (settlementsOf s asset).map (·.fillId) :=
  (map_eq_of_forall₂ h.valued fun _ _ hvalued =>
    (hvalued.keeps (fun f => f.fillId) fun _ _ => rfl).symm).symm

/-- The executions of the instrument afterwards. -/
theorem settlementsOf_eq (h : Restated s asset p now r realized) (hw : r.Wrote s asset p t) :
    settlementsOf t asset = r.events :=
  filter_replaced h.sameKeys_events h.map_settlementEventId
    (fun _ he => decide_eq_true (h.asset_events he)) hw.settlements

theorem lotsByAsset_eq (h : Restated s asset p now r realized) (hw : r.Wrote s asset p t) :
    t.lotsByAsset asset = r.lots :=
  filter_replaced h.sameKeys h.map_lotId (fun _ hl => decide_eq_true (h.asset_lots hl))
    hw.positionLots

end Restated

/-! ### The attributions -/

/-- An attribution says what a closure is. -/
structure Attributed (s : Store) (asset : AssetIdentity) (lot : PositionLot)
    (event : SettlementEvent) (amount : ℚ) (a : TradeAttribution) : Prop where
  named : a.attributionId = attributionId lot event.fillId
  ofLot : a.lotId = lot.lotId
  closed : a.closingFillId = event.fillId
  quantity : a.quantity = amount
  value : a.realizedPnl = (event.price - lot.acquisitionPrice) * amount
  entry : a.entryPrice = lot.acquisitionPrice ∧ a.entryAt = lot.openedAt
  exit : a.exitPrice = event.price ∧ a.exitAt = event.occurredAt
  opener : ∃ opening, fillOf s asset lot.originatingFillId = some opening ∧
    a.openingTradeIntentId = opening.tradeIntentId
  closer : a.closingTradeIntentId = event.tradeIntentId
  sameAsset : assetIdentityKey a.asset = assetIdentityKey asset

theorem restatedAttribution_ok {lot : PositionLot} {opening : Fill} {intent : TradeIntent}
    {event : SettlementEvent} {amount : ℚ} {a : TradeAttribution}
    (hopening : fillOf s asset lot.originatingFillId = some opening)
    (hintent : intent.tradeIntentId = opening.tradeIntentId)
    (h : restatedAttribution s asset now lot opening intent event amount = .ok a) :
    Attributed s asset lot event amount a := by
  unfold restatedAttribution at h
  cases hfind : (attributionsOf s asset).find? fun a =>
      a.attributionId = attributionId lot event.fillId with
  | none =>
      simp only [hfind] at h
      cases h
      exact ⟨rfl, rfl, rfl, rfl, rfl, ⟨rfl, rfl⟩, ⟨rfl, rfl⟩, ⟨opening, hopening, hintent⟩, rfl, rfl⟩
  | some old =>
      simp only [hfind] at h
      obtain ⟨_, hchecked, h⟩ := except_bind_eq_ok.1 h
      rw [raiseIf_eq_ok_iff] at hchecked
      push Not at hchecked
      obtain ⟨hopener, hcloser, hprice, hexit, hlot, hclosed, hasset, hentry, hat⟩ := hchecked
      cases h
      have hname : old.attributionId = attributionId lot event.fillId := by
        simpa using List.find?_some hfind
      exact ⟨hname, hlot, hclosed, rfl, rfl, ⟨hprice, hentry⟩, ⟨hexit, hat⟩,
        ⟨opening, hopening, hopener⟩, hcloser, hasset⟩

theorem found_ok {α : Type} {key : String} {x : Option α} {a : α} (h : found key x = .ok a) :
    x = some a := by
  cases x with
  | none => cases h
  | some b =>
      cases h
      rfl

theorem restatedAttributions_ok {lot : PositionLot} {l : List (String × TradeAttribution)}
    (h : restatedAttributions s asset now lot = .ok l) :
    List.Forall₂ (fun closure entry => entry.1 = attributionId lot closure.1 ∧
      ∃ event ∈ settlementsOf s asset, event.fillId = closure.1 ∧
        Attributed s asset lot event closure.2 entry.2) lot.closures.entries l := by
  unfold restatedAttributions at h
  obtain ⟨opening, hopening, h⟩ := except_bind_eq_ok.1 h
  obtain ⟨intent, hintent, h⟩ := except_bind_eq_ok.1 h
  have hkey : intent.tradeIntentId = opening.tradeIntentId :=
    (Table.get?_eq_some_iff.1 (found_ok hintent)).2
  refine (forall₂_of_mapM h).imp fun closure entry hentry => ?_
  obtain ⟨event, hevent, hentry⟩ := except_bind_eq_ok.1 hentry
  obtain ⟨attribution, hattribution, hentry⟩ := except_bind_eq_ok.1 hentry
  cases hentry
  have hfind := found_ok hevent
  exact ⟨rfl, event, List.mem_of_find?_eq_some hfind, by simpa using List.find?_some hfind,
    restatedAttribution_ok (found_ok hopening) hkey hattribution⟩

/-- Identifiers of lots that are generated have no colon, so the identifier of an attribution says
its lot and its fill. -/
theorem attributionId_inj {a b : PositionLot} {x y : String} (ha : ':' ∉ a.lotId.toList)
    (hb : ':' ∉ b.lotId.toList) (h : attributionId a x = attributionId b y) :
    a.lotId = b.lotId ∧ x = y := by
  have hlists : a.lotId.toList ++ ':' :: x.toList = b.lotId.toList ++ ':' :: y.toList := by
    simpa [attributionId, String.toList_append] using congrArg String.toList h
  obtain ⟨hlot, hfill⟩ := Persistence.eq_of_append_separator ha hb hlists
  exact ⟨String.toList_inj.1 hlot, String.toList_inj.1 hfill⟩

end

section

variable {s t : Store} {asset : AssetIdentity} {p : ReplayPopulation} {r : Restatement}
  {now : Instant} {realized : OrderedDict String ℚ}

namespace Restated

/-- An attribution that was derived is that of a closure. -/
theorem attributed_of_entry (h : Restated s asset p now r realized) {k : String}
    {a : TradeAttribution} (hget : r.attributions.get? k = some a) :
    ∃ lot ∈ r.lots, ∃ event ∈ settlementsOf s asset, ∃ q,
      lot.closures.lookup event.fillId = some q ∧ k = attributionId lot event.fillId ∧
        Attributed s asset lot event q a := by
  obtain ⟨closures, hclosures, hattributions⟩ := h.attributions
  rw [hattributions] at hget
  obtain ⟨l, hl, hentry⟩ := List.mem_flatten.1 (OrderedDict.mem_of_get?_ofList hget)
  obtain ⟨lot, hlot, hrestated⟩ := exists_left_of_forall₂ (forall₂_of_mapM hclosures) hl
  obtain ⟨closure, hclosure, hname, event, hevent, hid, hattributed⟩ :=
    exists_left_of_forall₂ (restatedAttributions_ok hrestated) hentry
  refine ⟨lot, hlot, event, hevent, closure.2, ?_, ?_, hattributed⟩
  · rw [hid]
    exact AList.mem_lookup_iff.2 hclosure
  · rw [hid]
    exact hname

/-- An attribution that was derived has its name. -/
theorem named (h : Restated s asset p now r realized) (k : String) (a : TradeAttribution)
    (hget : r.attributions.get? k = some a) : Record.recordId a = k := by
  obtain ⟨lot, -, event, -, q, -, hname, hattributed⟩ := h.attributed_of_entry hget
  exact hattributed.named.trans hname.symm

/-- A closure has the attribution that says what it is. -/
theorem attributed (h : Restated s asset p now r realized)
    (hgenerated : ∀ l ∈ s.lotsByAsset asset, ':' ∉ l.lotId.toList) {lot : PositionLot}
    (hlot : lot ∈ r.lots) {id : String} {q : ℚ} (hlook : lot.closures.lookup id = some q) :
    ∃ a, ∃ event ∈ settlementsOf s asset, event.fillId = id ∧
      r.attributions.get? (attributionId lot id) = some a ∧ Attributed s asset lot event q a := by
  have hcolon : ∀ l ∈ r.lots, ':' ∉ l.lotId.toList := by
    intro l hl
    obtain ⟨l₀, hl₀, hid⟩ := List.mem_map.1 (h.map_lotId ▸ List.mem_map_of_mem hl)
    rw [← hid]
    exact hgenerated l₀ hl₀
  obtain ⟨a, ha⟩ : ∃ a, r.attributions.get? (attributionId lot id) = some a := by
    obtain ⟨closures, hclosures, hattributions⟩ := h.attributions
    obtain ⟨l, hl, hrestated⟩ := exists_left_of_forall₂ (forall₂_of_mapM hclosures).flip hlot
    obtain ⟨entry, hentry, hname, -⟩ :=
      exists_left_of_forall₂ (restatedAttributions_ok hrestated).flip (AList.mem_lookup_iff.1 hlook)
    have hkey : attributionId lot id ∈ (OrderedDict.ofList closures.flatten).keys := by
      refine OrderedDict.mem_keys_ofList.2 (List.mem_map.2 ⟨entry, ?_, hname⟩)
      exact List.mem_flatten.2 ⟨l, hl, hentry⟩
    exact Option.isSome_iff_exists.1 (OrderedDict.isSome_get?.2 (hattributions ▸ hkey))
  obtain ⟨lot', hlot', event, hevent, q', hlook', hname, hattributed⟩ := h.attributed_of_entry ha
  obtain ⟨hid, hfill⟩ := attributionId_inj (hcolon lot hlot) (hcolon lot' hlot') hname
  have hsame : lot = lot' := List.inj_on_of_nodup_map h.nodup_lots hlot hlot' hid
  subst hsame
  rw [← hfill, hlook] at hlook'
  cases hlook'
  exact ⟨a, event, hevent, hfill.symm, ha, hattributed⟩

/-- **The attributions afterwards**: those that were derived, and those of other lots. -/
theorem mem_tradeAttributions (h : Restated s asset p now r realized) (hw : r.Wrote s asset p t)
    {a : TradeAttribution} :
    a ∈ t.tradeAttributions ↔ r.attributions.get? a.attributionId = some a ∨
      (a ∈ s.tradeAttributions ∧ a.lotId ∉ (s.lotsByAsset asset).map (·.lotId) ∧
        a.attributionId ∉ r.attributions.keys) := by
  have hmem := mem_differences (a := a) h.named (fun _ => rfl) hw.tradeAttributions
  rw [hmem]
  simp only [decide_eq_false_iff_not]
  rfl

/-! ### The records of profit and loss -/

theorem pnl_entries (h : Restated s asset p now r realized) {k : String} {record : PnlRecord}
    (hget : r.pnl.get? k = some record) :
    record.recordId = k ∧
      ((∃ id a, r.attributions.get? id = some a ∧
          (k, record) = pnlRow asset ("fill:pnl:" ++ id) a.realizedPnl a.exitAt) ∨
        (∃ x, k = "asset_fee:pnl:" ++ x) ∨ ∃ x, k = "asset_cash_fee:pnl:" ++ x) := by
  rw [h.pnl] at hget
  have hmem := OrderedDict.mem_of_get?_ofList hget
  rw [List.mem_append, List.mem_append, List.mem_map, List.mem_map, List.mem_map] at hmem
  rcases hmem with (⟨e, he, hrow⟩ | ⟨fee, -, hrow⟩) | ⟨fee, -, hrow⟩
  · obtain ⟨rfl, rfl⟩ := Prod.mk.inj hrow
    exact ⟨rfl, .inl ⟨e.1, e.2, OrderedDict.get?_eq_some_iff.2 he, rfl⟩⟩
  · obtain ⟨rfl, rfl⟩ := Prod.mk.inj hrow
    exact ⟨rfl, .inr (.inl ⟨_, rfl⟩)⟩
  · obtain ⟨rfl, rfl⟩ := Prod.mk.inj hrow
    exact ⟨rfl, .inr (.inr ⟨_, rfl⟩)⟩

theorem pnl_named (h : Restated s asset p now r realized) (k : String) (record : PnlRecord)
    (hget : r.pnl.get? k = some record) : Record.recordId record = k :=
  (h.pnl_entries hget).1

/-- The texts before the identifiers tell the kinds apart. -/
theorem fillPnl_ne (x y : String) : "fill:pnl:" ++ x ≠ "asset_fee:pnl:" ++ y ∧
    "fill:pnl:" ++ x ≠ "asset_cash_fee:pnl:" ++ y := by
  constructor
  · intro h
    have hlists := congrArg String.toList h
    simp [String.toList_append] at hlists
  · intro h
    have hlists := congrArg String.toList h
    simp [String.toList_append] at hlists

/-- **The record of a closure** is that of its attribution. -/
theorem get?_fillPnl (h : Restated s asset p now r realized) (id : String) :
    r.pnl.get? ("fill:pnl:" ++ id) = (r.attributions.get? id).map fun a =>
      (pnlRow asset ("fill:pnl:" ++ id) a.realizedPnl a.exitAt).2 := by
  have hsame : ∀ record, r.pnl.get? ("fill:pnl:" ++ id) = some record →
      ∃ a, r.attributions.get? id = some a ∧
        record = (pnlRow asset ("fill:pnl:" ++ id) a.realizedPnl a.exitAt).2 := by
    intro record hget
    obtain ⟨-, ⟨id', a, ha, hrow⟩ | ⟨x, hx⟩ | ⟨x, hx⟩⟩ := h.pnl_entries hget
    · obtain ⟨hname, hrecord⟩ := Prod.mk.inj hrow
      have hlists := congrArg String.toList hname
      simp only [String.toList_append, List.append_cancel_left_eq] at hlists
      have hid : id = id' := String.toList_inj.1 hlists
      subst hid
      exact ⟨a, ha, hrecord⟩
    · exact absurd hx (fillPnl_ne id x).1
    · exact absurd hx (fillPnl_ne id x).2
  cases ha : r.attributions.get? id with
  | none =>
      cases hget : r.pnl.get? ("fill:pnl:" ++ id) with
      | none => rfl
      | some record =>
          obtain ⟨a, ha', -⟩ := hsame record hget
          rw [ha] at ha'
          cases ha'
  | some a =>
      have hkey : "fill:pnl:" ++ id ∈ r.pnl.keys := by
        rw [h.pnl]
        refine OrderedDict.mem_keys_ofList.2 (List.mem_map.2
          ⟨pnlRow asset ("fill:pnl:" ++ id) a.realizedPnl a.exitAt, ?_, rfl⟩)
        refine List.mem_append_left _ (List.mem_append_left _ (List.mem_map.2 ⟨(id, a), ?_, rfl⟩))
        exact OrderedDict.get?_eq_some_iff.1 ha
      obtain ⟨record, hget⟩ := Option.isSome_iff_exists.1 (OrderedDict.isSome_get?.2 hkey)
      obtain ⟨a', ha', hrecord⟩ := hsame record hget
      rw [ha] at ha'
      cases ha'
      rw [hget, hrecord]
      rfl

/-- The records of profit and loss afterwards: those that were derived, and those of other kinds or
other instruments. -/
theorem mem_pnlRecords (h : Restated s asset p now r realized) (hw : r.Wrote s asset p t)
    {record : PnlRecord} :
    record ∈ t.pnlRecords ↔ r.pnl.get? record.recordId = some record ∨
      (record ∈ s.pnlRecords ∧ record ∉ pnlOf s asset ∧ record.recordId ∉ r.pnl.keys) := by
  have hmem := mem_differences (a := record) h.pnl_named (fun _ => rfl) hw.pnlRecords
  rw [hmem]
  refine or_congr .rfl (and_congr_right fun hin => and_congr ?_ .rfl)
  rw [pnlOf, List.mem_filter, ← Bool.not_eq_true]
  exact not_congr (iff_and_self.2 fun _ => hin)

end Restated

end

/-! ### The intents -/

section

variable {s t : Store} {asset : AssetIdentity} {p : ReplayPopulation} {r : Restatement}
  {now : Instant} {realized : OrderedDict String ℚ}

/-- What the executions of an intent realized. -/
def realizedBy (events : List SettlementEvent) (intentId : String) : ℚ :=
  ((events.filter fun e => e.tradeIntentId = intentId).map fun e => e.realizedPnl.getD 0).sum

theorem restatedIntent_ok {events : List SettlementEvent} {id : String} {i' : TradeIntent}
    (h : restatedIntent s events id = .ok i') :
    ∃ i, s.tradeIntents.get? id = some i ∧
      i' = { i with realizedPnl := some (realizedBy events id) } := by
  unfold restatedIntent found at h
  cases hget : s.tradeIntents.get? id with
  | none =>
      rw [hget] at h
      cases h
  | some i =>
      rw [hget] at h
      cases h
      exact ⟨i, rfl, rfl⟩

namespace Restated

theorem map_tradeIntentId (h : Restated s asset p now r realized) :
    r.intents.map Record.recordId = ((settlementsOf s asset).map (·.tradeIntentId)).dedup := by
  have hids : List.Forall₂ (fun id (i' : TradeIntent) => id = Record.recordId i')
      ((settlementsOf s asset).map (·.tradeIntentId)).dedup r.intents := by
    refine (forall₂_of_mapM h.intents).imp fun id i' hi' => ?_
    obtain ⟨i, hi, rfl⟩ := restatedIntent_ok hi'
    exact (Table.get?_eq_some_iff.1 hi).2.symm
  have hmap := map_eq_of_forall₂ (f := id) (g := Record.recordId) hids fun _ _ heq => heq
  rw [List.map_id] at hmap
  exact hmap.symm

theorem sameKeys_intents (h : Restated s asset p now r realized) :
    ∀ i' ∈ r.intents, ∃ i ∈ s.tradeIntents, SameKeys i i' := by
  intro i' hi'
  obtain ⟨id, -, hrestated⟩ := exists_left_of_forall₂ (forall₂_of_mapM h.intents) hi'
  obtain ⟨i, hi, rfl⟩ := restatedIntent_ok hrestated
  exact ⟨i, (Table.get?_eq_some_iff.1 hi).1, rfl, rfl⟩

theorem mem_intents (h : Restated s asset p now r realized) (hw : r.Wrote s asset p t)
    {i' : TradeIntent} (hi' : i' ∈ r.intents) : i' ∈ t.tradeIntents :=
  (mem_replaced h.sameKeys_intents (h.map_tradeIntentId ▸ List.nodup_dedup _) hw.tradeIntents).2
    (.inl hi')

/-- **The intent of an execution afterwards**: it realized what the executions of this instrument
did. -/
theorem get?_tradeIntents (h : Restated s asset p now r realized) (hw : r.Wrote s asset p t)
    {id : String} (hid : id ∈ (settlementsOf s asset).map (·.tradeIntentId)) :
    ∃ i' ∈ r.intents, t.tradeIntents.get? id = some i' ∧
      i'.realizedPnl = some (realizedBy r.events id) := by
  obtain ⟨i', hi', hrestated⟩ :=
    exists_left_of_forall₂ (forall₂_of_mapM h.intents).flip (List.mem_dedup.2 hid)
  obtain ⟨i, hi, rfl⟩ := restatedIntent_ok hrestated
  exact ⟨_, hi', Table.get?_eq_some_iff.2 ⟨h.mem_intents hw hi', (Table.get?_eq_some_iff.1 hi).2⟩,
    rfl⟩

/-- The executions of other instruments afterwards. -/
theorem others_eq (h : Restated s asset p now r realized) (hw : r.Wrote s asset p t) :
    (t.settlements.rows.filter fun e => assetIdentityKey e.asset ≠ assetIdentityKey asset)
      = s.settlements.rows.filter fun e => assetIdentityKey e.asset ≠ assetIdentityKey asset := by
  refine filter_unreplaced h.sameKeys_events (fun e he hid => ?_) (fun e he => ?_) hw.settlements
  · rw [h.map_settlementEventId] at hid
    obtain ⟨e₀, he₀, hsame⟩ := List.mem_map.1 hid
    obtain ⟨hmem, hkey⟩ := mem_settlementsOf.1 he₀
    rw [Table.eq_of_recordId hmem he hsame] at hkey
    simpa using hkey
  · simpa using h.asset_events he

end Restated

/-- What an intent realized, by the executions of an instrument and of the others. -/
theorem realizedBy_split (s : Store) (asset : AssetIdentity) (id : String) :
    realizedBy s.settlements.rows id = realizedBy (settlementsOf s asset) id
      + realizedBy (s.settlements.rows.filter fun e =>
          assetIdentityKey e.asset ≠ assetIdentityKey asset) id := by
  unfold realizedBy settlementsOf
  induction s.settlements.rows with
  | nil => simp
  | cons e rows ih =>
      by_cases hkey : assetIdentityKey e.asset = assetIdentityKey asset
      · by_cases hid : e.tradeIntentId = id
        · simp [hkey, hid, ih, add_assoc]
        · simp [hkey, hid, ih]
      · by_cases hid : e.tradeIntentId = id
        · simp [hkey, hid, ih, add_left_comm]
        · simp [hkey, hid, ih]

end

end HistoricalFees

end TradePulse
