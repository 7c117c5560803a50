/-
**Holdings and lots, when several lanes settle fills of one instrument.**

A pass changes lots in one transaction, reads the lots of the instrument in another and writes the
holding they add up to in a third.  Beside the store, the reasoning keeps for each instrument the
fill that last changed its lots since its holding agreed with them: as long as there is one, the
holding may lag behind, and the event of that fill has its holding still to project.

Main definitions:

* `openLotsAt`, `HoldingAgrees` — the open lots of an instrument, and that its holding shows them;
* `Ledger`, `note` — who changed the lots of an instrument last;
* `Converged`, `Tracked` — the invariant at the start, and that of store and ledger.

Main results:

* `Tracked.putEvent`, `Tracked.closeLot`, `Tracked.createLot`, `Tracked.writeHolding` — what keeps
  it.
-/

import TradePulse.Process.Lanes
import TradePulse.Settlement.LotRule
import TradePulse.Settlement.Runs

set_option autoImplicit false

namespace TradePulse

namespace Settlement

open Process Storage

/-- The open lots under an asset key that were not converted. -/
def openLotsAt (s : Store) (key : String) : List PositionLot :=
  s.positionLots.rows.filter fun l =>
    decide (assetIdentityKey l.asset = key) && !s.convertedLots.contains l.lotId && l.isOpen

/-- A holding shows some lots: their signed quantity and their average price. -/
def Shows (h : HoldingFields) (lots : List PositionLot) : Prop :=
  lots ≠ [] ∧ h.quantity = sumOver lots (fun l => l.signedQuantity) ∧
    h.averagePrice = averagePrice lots

instance (h : HoldingFields) (lots : List PositionLot) : Decidable (Shows h lots) := by
  have : Decidable (lots ≠ []) := decidable_of_iff (lots.isEmpty = false) (by simp)
  exact inferInstanceAs (Decidable (_ ∧ _))

/-- **The holding of an instrument agrees with its open lots**; without open lots there is none. -/
def HoldingAgrees (s : Store) (key : String) : Prop :=
  match s.holdings.get? key with
  | none => openLotsAt s key = []
  | some h => Shows h.toHoldingFields (openLotsAt s key)

/-- Some lot was closed or opened by the fill. -/
def WroteLots (s : Store) (fillId : String) : Prop :=
  ∃ l ∈ s.positionLots.rows, fillId ∈ l.closures ∨ l.originatingFillId = fillId

instance (s : Store) (fillId : String) : Decidable (WroteLots s fillId) :=
  inferInstanceAs (Decidable (∃ l ∈ s.positionLots.rows, _))

/-- For each asset key, the fill that last changed its lots since its holding agreed with them. -/
abbrev Ledger := String → Option String

/-- How a transaction changes the ledger. -/
def note : Op → Store → Ledger → Ledger
  | .closeLot closure event, s, g =>
      if (s.positionLots.get? closure.lot.lotId).isSome then
        Function.update g (assetIdentityKey event.asset) (some event.fillId)
      else g
  | .createLot lot _, s, g =>
      if s.positionLots.Admits lot then
        Function.update g (assetIdentityKey lot.asset) (some lot.originatingFillId)
      else g
  | .deleteHolding asset _, _, g => Function.update g (assetIdentityKey asset) none
  | .mutateHolding _ holding _, _, g => Function.update g (assetIdentityKey holding.asset) none
  | .createHolding _ holding _, _, g => Function.update g (assetIdentityKey holding.asset) none
  | .getHolding (.projects openLots) asset, s, g =>
      -- the stage ends here without a write if there is nothing open and no holding
      if openLots.isEmpty ∧ s.holdings.get? (assetIdentityKey asset) = none then
        Function.update g (assetIdentityKey asset) none
      else g
  | _, _, g => g

/-- **The invariant**: where nobody owes it, the holding agrees with the lots; who owes it wrote
lots of the instrument and is still to project its holding. -/
structure Tracked (s : Store) (g : Ledger) : Prop where
  agrees : ∀ key, g key = none → HoldingAgrees s key
  owed : ∀ key fillId, g key = some fillId → WroteLots s fillId ∧ ∃ e ∈ s.settlements,
    e.fillId = fillId ∧ assetIdentityKey e.asset = key ∧ e.holdingProjected = false
  ordered : ∀ e ∈ s.settlements, e.holdingProjected = true → e.lotProjected = true
  completed : ∀ e ∈ s.settlements, e.status = .completed → e.holdingProjected = true

/-- A store in which every holding agrees with its lots, and flags are set in their order. -/
structure Converged (s : Store) : Prop where
  agrees : ∀ key, HoldingAgrees s key
  ordered : ∀ e ∈ s.settlements, e.holdingProjected = true → e.lotProjected = true
  completed : ∀ e ∈ s.settlements, e.status = .completed → e.holdingProjected = true

theorem converged_empty : Converged {} := by
  constructor
  · intro key
    rfl
  all_goals
    intro e he
    simp [Table.mem_def, default] at he

theorem Converged.tracked {s : Store} (h : Converged s) : Tracked s fun _ => none where
  agrees key _ := h.agrees key
  owed _ _ hg := by cases hg
  ordered := h.ordered
  completed := h.completed

theorem Tracked.owed_of_mem {s : Store} {g : Ledger} (h : Tracked s g) {e : SettlementEvent}
    (he : e ∈ s.settlements) {key : String} (hg : g key = some e.fillId) :
    assetIdentityKey e.asset = key ∧ e.holdingProjected = false := by
  obtain ⟨-, e', he', hfill, hkey, hflag⟩ := h.owed key e.fillId hg
  have hsame : e' = e :=
    Table.eq_of_uniqueValue he' he (congrArg some hfill) rfl
  rw [← hsame]
  exact ⟨hkey, hflag⟩

/-! ### Events -/

/-- Writing an event over its row: flags in their order, and no holding owed once it is flagged
as projected. -/
theorem Tracked.putEvent {s : Store} {g : Ledger} (h : Tracked s g) {row event : SettlementEvent}
    (hrow : row ∈ s.settlements) (hfacts : event.toSettlementFacts = row.toSettlementFacts)
    (hordered : event.holdingProjected = true → event.lotProjected = true)
    (hcompleted : event.status = .completed → event.holdingProjected = true)
    (hpaid : event.holdingProjected = true → ∀ key, g key ≠ some event.fillId) :
    Tracked { s with settlements := s.settlements.put event } g := by
  have hkeys : SameKeys row event :=
    ⟨congrArg (·.settlementEventId) hfacts.symm, congrArg (fun f => some f.fillId) hfacts.symm⟩
  constructor
  · exact h.agrees
  · intro key fillId hg
    obtain ⟨hwrote, e, he, hfill, hkey, hflag⟩ := h.owed key fillId hg
    refine ⟨hwrote, ?_⟩
    by_cases hsame : SameKeys e event
    · have hrowe : e = row := Table.eq_of_recordId he hrow (hsame.1.trans hkeys.1.symm)
      have hfillev : event.fillId = fillId :=
        (congrArg (·.fillId) hfacts).trans (hrowe ▸ hfill)
      have hassetev : event.asset = e.asset :=
        (congrArg (·.asset) hfacts).trans (hrowe ▸ rfl)
      refine ⟨event, Table.mem_put_self hrow hkeys, hfillev, hassetev ▸ hkey, ?_⟩
      cases hev : event.holdingProjected with
      | false => rfl
      | true => exact absurd (hfillev ▸ hg) (hpaid hev key)
    · exact ⟨e, Table.mem_put_of_not_sameKeys he hsame, hfill, hkey, hflag⟩
  · intro e he
    rcases Table.mem_put_imp he with rfl | he
    · exact hordered
    · exact h.ordered e he
  · intro e he
    rcases Table.mem_put_imp he with rfl | he
    · exact hcompleted
    · exact h.completed e he

/-! ### Lots -/

theorem HoldingAgrees.congr {s s' : Store} {key : String} (h : HoldingAgrees s key)
    (hholding : s'.holdings.get? key = s.holdings.get? key)
    (hlots : openLotsAt s' key = openLotsAt s key) : HoldingAgrees s' key := by
  unfold HoldingAgrees at h ⊢
  rw [hholding, hlots]
  exact h

/-- A fill changed the lots of its instrument, and owes the holding from now on. -/
theorem Tracked.changeLots {s s' : Store} {g : Ledger} (h : Tracked s g) {key fillId : String}
    (hsettlements : s'.settlements = s.settlements) (hholdings : s'.holdings = s.holdings)
    (hlots : ∀ key', key' ≠ key → openLotsAt s' key' = openLotsAt s key')
    (hwrote : ∀ f, WroteLots s f → WroteLots s' f) (hnew : WroteLots s' fillId)
    (hevent : ∃ e ∈ s.settlements, e.fillId = fillId ∧ assetIdentityKey e.asset = key ∧
      e.holdingProjected = false) :
    Tracked s' (Function.update g key (some fillId)) := by
  constructor
  · intro key' hg
    by_cases hkey : key' = key
    · rw [hkey, Function.update_self] at hg
      cases hg
    · rw [Function.update_of_ne hkey] at hg
      exact (h.agrees key' hg).congr (by rw [hholdings]) (hlots key' hkey)
  · intro key' f hg
    rw [hsettlements]
    by_cases hkey : key' = key
    · rw [hkey, Function.update_self] at hg
      cases hg
      exact ⟨hnew, hkey ▸ hevent⟩
    · rw [Function.update_of_ne hkey] at hg
      obtain ⟨hwrote', hrest⟩ := h.owed key' f hg
      exact ⟨hwrote f hwrote', hrest⟩
  · intro e he
    exact h.ordered e (hsettlements ▸ he)
  · intro e he
    exact h.completed e (hsettlements ▸ he)

theorem openLotsAt_putLot {s : Store} {lot current : PositionLot} {key : String}
    (hcur : current ∈ s.positionLots) (hid : lot.lotId = current.lotId)
    (hasset : lot.asset = current.asset) (hkey : key ≠ assetIdentityKey current.asset) :
    openLotsAt { s with positionLots := s.positionLots.put lot } key = openLotsAt s key := by
  refine Table.filter_put (fun l hl hsame => ?_) ?_
  · have hl' : l = current := Table.eq_of_recordId hl hcur (hsame.1.trans hid)
    rw [hl', decide_eq_false (Ne.symm hkey), Bool.false_and, Bool.false_and]
  · rw [hasset, decide_eq_false (Ne.symm hkey), Bool.false_and, Bool.false_and]

theorem openLotsAt_createLot {s : Store} {lot : PositionLot} {key : String}
    (hkey : key ≠ assetIdentityKey lot.asset) :
    openLotsAt { s with positionLots := s.positionLots.createOnce lot } key = openLotsAt s key := by
  by_cases hadmits : s.positionLots.Admits lot
  · simp only [openLotsAt, Table.rows_createOnce hadmits, List.filter_append]
    rw [List.filter_cons_of_neg, List.filter_nil, List.append_nil]
    rw [decide_eq_false (Ne.symm hkey), Bool.false_and, Bool.false_and]
    exact Bool.false_ne_true
  · rw [Table.createOnce_of_not_admits hadmits]

theorem WroteLots.closeLot {s : Store} {lot current : PositionLot} {event : SettlementEvent}
    {closure : LotClosure} (hcur : current ∈ s.positionLots)
    (hlot : closedLot current closure event = .ok lot) {f : String} (h : WroteLots s f) :
    WroteLots { s with positionLots := s.positionLots.put lot } f := by
  have hf := PositionLot.make_eq_ok_iff.1 hlot
  have hid : lot.lotId = current.lotId := congrArg (·.lotId) hf
  have horig : lot.originatingFillId = current.originatingFillId :=
    congrArg (·.originatingFillId) hf
  have hclosures : lot.closures = current.closures.insert event.fillId closure.quantity :=
    congrArg (·.closures) hf
  have hkeys : SameKeys current lot := ⟨hid.symm, congrArg some horig.symm⟩
  obtain ⟨l, hl, hw⟩ := h
  by_cases hsame : SameKeys l lot
  · have hl' : l = current := Table.eq_of_recordId hl hcur (hsame.1.trans hid)
    subst hl'
    refine ⟨lot, Table.mem_put_self hl hkeys, hw.imp (fun hin => ?_) fun ho => horig.trans ho⟩
    rw [hclosures, AList.mem_insert]
    exact .inr hin
  · exact ⟨l, Table.mem_put_of_not_sameKeys hl hsame, hw⟩

/-- An event that is still to project its lots owes no holding yet, and will. -/
theorem Tracked.unprojected {s : Store} {g : Ledger} (h : Tracked s g) {row : SettlementEvent}
    (hrow : row ∈ s.settlements) (hlot : row.lotProjected = false) :
    row.holdingProjected = false := by
  cases hholding : row.holdingProjected with
  | false => rfl
  | true =>
      have hordered := h.ordered row hrow hholding
      rw [hlot] at hordered
      cases hordered

/-- **A closure**: the fill of the event owes the holding of its instrument. -/
theorem Tracked.closeLot {s : Store} {g : Ledger} (h : Tracked s g)
    {event row : SettlementEvent} {closure : LotClosure} {lot current : PositionLot}
    (hcur : current ∈ s.positionLots)
    (hkey : assetIdentityKey current.asset = assetIdentityKey event.asset)
    (hlot : closedLot current closure event = .ok lot) (hrow : row ∈ s.settlements)
    (hfacts : row.toSettlementFacts = event.toSettlementFacts)
    (hopen : row.holdingProjected = false) :
    Tracked { s with positionLots := s.positionLots.put lot }
      (Function.update g (assetIdentityKey event.asset) (some event.fillId)) := by
  have hf := PositionLot.make_eq_ok_iff.1 hlot
  have hid : lot.lotId = current.lotId := congrArg (·.lotId) hf
  have hasset : lot.asset = current.asset := congrArg (·.asset) hf
  have horig : lot.originatingFillId = current.originatingFillId :=
    congrArg (·.originatingFillId) hf
  have hclosures : lot.closures = current.closures.insert event.fillId closure.quantity :=
    congrArg (·.closures) hf
  refine h.changeLots rfl rfl (fun key' hne => openLotsAt_putLot hcur hid hasset (hkey ▸ hne))
    (fun f hw => hw.closeLot hcur hlot) ⟨lot, ?_, .inl ?_⟩ ⟨row, hrow, ?_, ?_, hopen⟩
  · exact Table.mem_put_self hcur ⟨hid.symm, congrArg some horig.symm⟩
  · rw [hclosures, AList.mem_insert]
    exact .inl rfl
  · exact congrArg (·.fillId) hfacts
  · rw [show row.asset = event.asset from congrArg (·.asset) hfacts]

/-- **A lot is opened**: its fill owes the holding of its instrument. -/
theorem Tracked.createLot {s : Store} {g : Ledger} (h : Tracked s g)
    {event row : SettlementEvent} {lot : PositionLot} (hadmits : s.positionLots.Admits lot)
    (hasset : lot.asset = event.asset) (hfill : lot.originatingFillId = event.fillId)
    (hrow : row ∈ s.settlements) (hfacts : row.toSettlementFacts = event.toSettlementFacts)
    (hopen : row.holdingProjected = false) :
    Tracked { s with positionLots := s.positionLots.createOnce lot }
      (Function.update g (assetIdentityKey lot.asset) (some lot.originatingFillId)) := by
  refine h.changeLots rfl rfl (fun key' hne => openLotsAt_createLot hne)
    (fun f hw => ?_) ⟨lot, Table.mem_createOnce.2 (.inr ⟨hadmits, rfl⟩), .inr rfl⟩
    ⟨row, hrow, ?_, ?_, hopen⟩
  · obtain ⟨l, hl, hw⟩ := hw
    exact ⟨l, Table.mem_createOnce_of_mem hl, hw⟩
  · exact (congrArg (·.fillId) hfacts).trans hfill.symm
  · rw [hasset, show row.asset = event.asset from congrArg (·.asset) hfacts]

/-! ### Holdings -/

/-- Writing a holding that agrees with the lots settles what is owed. -/
theorem Tracked.writeHolding {s s' : Store} {g : Ledger} (h : Tracked s g) {key : String}
    (hsettlements : s'.settlements = s.settlements) (hlots : s'.positionLots = s.positionLots)
    (hconv : s'.convertedLots = s.convertedLots)
    (hothers : ∀ key', key' ≠ key → s'.holdings.get? key' = s.holdings.get? key')
    (hagrees : HoldingAgrees s' key) : Tracked s' (Function.update g key none) := by
  have hopen : ∀ key', openLotsAt s' key' = openLotsAt s key' := fun key' => by
    unfold openLotsAt
    rw [hlots, hconv]
  have hwrote : ∀ f, WroteLots s f → WroteLots s' f := fun f hw => by
    unfold WroteLots at hw ⊢
    rw [hlots]
    exact hw
  constructor
  · intro key' hg
    by_cases hkey : key' = key
    · rw [hkey]
      exact hagrees
    · rw [Function.update_of_ne hkey] at hg
      exact (h.agrees key' hg).congr (hothers key' hkey) (hopen key')
  · intro key' f hg
    rw [hsettlements]
    by_cases hkey : key' = key
    · rw [hkey, Function.update_self] at hg
      cases hg
    · rw [Function.update_of_ne hkey] at hg
      obtain ⟨hwrote', hrest⟩ := h.owed key' f hg
      exact ⟨hwrote f hwrote', hrest⟩
  · intro e he
    exact h.ordered e (hsettlements ▸ he)
  · intro e he
    exact h.completed e (hsettlements ▸ he)

/-- A transaction that touches none of this, while the ledger forgets at most what is settled. -/
theorem Tracked.frame {s s' : Store} {g g' : Ledger} (h : Tracked s g)
    (hsettlements : s'.settlements = s.settlements) (hlots : s'.positionLots = s.positionLots)
    (hconv : s'.convertedLots = s.convertedLots) (hholdings : s'.holdings = s.holdings)
    (hsome : ∀ key f, g' key = some f → g key = some f)
    (hnone : ∀ key, g' key = none → g key = none ∨ HoldingAgrees s key) : Tracked s' g' := by
  constructor
  · intro key hg
    have hopen : openLotsAt s' key = openLotsAt s key := by
      unfold openLotsAt
      rw [hlots, hconv]
    have hagrees : HoldingAgrees s key := (hnone key hg).elim (h.agrees key) id
    exact hagrees.congr (by rw [hholdings]) hopen
  · intro key f hg
    obtain ⟨hwrote, hrest⟩ := h.owed key f (hsome key f hg)
    unfold WroteLots at hwrote ⊢
    rw [hsettlements, hlots]
    exact ⟨hwrote, hrest⟩
  · intro e he
    exact h.ordered e (hsettlements ▸ he)
  · intro e he
    exact h.completed e (hsettlements ▸ he)

end Settlement

end TradePulse
