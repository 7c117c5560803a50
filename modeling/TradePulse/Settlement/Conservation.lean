/-
**What a fill is spent on.**

A fill is spent on the quantities it closes of older lots, on the lot it opens, and on the
liability that an oversell leaves.  These are written one transaction at a time and planned again
after every failure, so conservation is a property of the whole store: here is the invariant, and
what each kind of write does to it.

Main definitions:

* `spentOn` — the quantity of a fill that lots and liabilities account for;
* `Conserved` — no fill is spent beyond its quantity, and a settled one is spent exactly;
* `Underway` — an event that is being settled is not completed.

Main results:

* `Conserved.putEvent` — rewriting an event keeps the invariant;
* `Conserved.closeLot`, `Conserved.createLiability`, `Conserved.createLot` — what the fill being
  settled may be spent on;
* `spentOn_of_project` — verified evidence shows that the fill is spent exactly.
-/

import TradePulse.Settlement.PassRule
import Mathlib.Algebra.Order.BigOperators.Group.List
import Mathlib.Tactic.Ring

set_option autoImplicit false

namespace TradePulse

namespace Settlement

open Process Storage

/-- The quantity of a liability that counts for a fill. -/
def owedOn (fillId : String) (b : ShortExposureLiability) : ℚ :=
  if b.fillId = fillId then b.quantity else 0

/-- The quantity of a fill that lots and liabilities account for. -/
def spentOn (s : Store) (fillId : String) : ℚ :=
  s.positionLots.sum (fun l => l.allocatedTo fillId)
    + s.shortExposureLiabilities.sum (owedOn fillId)

/-- No fill is spent beyond its quantity, and a settled one is spent exactly.  The other fields
say where a fill that is not settled yet may appear: what it closed is seen when it is planned
again, only a sale owes a liability, and only a purchase opens a lot. -/
structure Conserved (s : Store) : Prop where
  recorded : ∀ e ∈ s.settlements, ∃ f ∈ s.fills, f.fillId = e.fillId ∧ f.quantity = e.quantity
  spent : ∀ e ∈ s.settlements, spentOn s e.fillId ≤ e.quantity
  settled : ∀ e ∈ s.settlements, e.status = .completed → spentOn s e.fillId = e.quantity
  visible : ∀ e ∈ s.settlements, e.status ≠ .completed → ∀ l ∈ s.positionLots,
    e.fillId ∈ l.closures →
      assetIdentityKey l.asset = assetIdentityKey e.asset ∧ l.lotId ∉ s.convertedLots
  oversold : ∀ e ∈ s.settlements, e.status ≠ .completed →
    ∀ b ∈ s.shortExposureLiabilities, b.fillId = e.fillId → e.side = .sell
  bought : ∀ e ∈ s.settlements, e.status ≠ .completed →
    ∀ l ∈ s.positionLots, l.originatingFillId = e.fillId → e.side = .buy
  closer : ∀ l ∈ s.positionLots, ∀ f ∈ l.closures, ∃ e ∈ s.settlements, e.fillId = f
  opener : ∀ l ∈ s.positionLots, l.originatingFillId.startsWith adoptionFillPrefix = true ∨
    ∃ e ∈ s.settlements, e.fillId = l.originatingFillId
  owner : ∀ b ∈ s.shortExposureLiabilities, ∃ e ∈ s.settlements, e.fillId = b.fillId
  nonneg : ∀ l ∈ s.positionLots, ∀ f q, l.closures.lookup f = some q → 0 ≤ q

theorem conserved_empty : Conserved {} := by
  constructor <;> intro _ h <;> exact absurd h (by rintro ⟨⟩)

/-- The event is in the store, whatever its progress, and is not completed. -/
def Underway (event : SettlementEvent) (s : Store) : Prop :=
  ∃ row ∈ s.settlements, row.toSettlementFacts = event.toSettlementFacts ∧
    row.status ≠ .completed

theorem eq_of_fillId {s : Store} {e e' : SettlementEvent} (he : e ∈ s.settlements)
    (he' : e' ∈ s.settlements) (h : e.fillId = e'.fillId) : e = e' :=
  Table.eq_of_uniqueValue he he' (v := e'.fillId) (congrArg some h) rfl

/-! ### Transactions that leave the ledger of lots alone -/

/-- Two stores agree on what conservation is about. -/
structure SameLedger (s s' : Store) : Prop where
  settlements : s'.settlements = s.settlements
  positionLots : s'.positionLots = s.positionLots
  liabilities : s'.shortExposureLiabilities = s.shortExposureLiabilities
  convertedLots : s'.convertedLots = s.convertedLots
  fills : s'.fills = s.fills

theorem Conserved.congr {s s' : Store} (h : Conserved s) (hs : SameLedger s s') :
    Conserved s' := by
  have hspent : ∀ f, spentOn s' f = spentOn s f := fun f => by
    rw [spentOn, spentOn, hs.positionLots, hs.liabilities]
  obtain ⟨h₁, h₂, h₃, h₄, h₅, h₆, h₇, h₈, h₉, h₁₀⟩ := h
  constructor <;> simp only [hspent, hs.settlements, hs.positionLots, hs.liabilities,
    hs.convertedLots, hs.fills] <;> assumption

theorem Underway.congr {event : SettlementEvent} {s s' : Store} (h : Underway event s)
    (hs : s'.settlements = s.settlements) : Underway event s' := by
  unfold Underway
  rwa [hs]

/-- A transaction with a footprint outside the ledger of lots leaves it alone. -/
theorem sameLedger_of_frame {o : Op} {i : Outside} {s s' : Store} {r : o.Res}
    (h : exec o i s = .ok (r, s')) {parts : List Part} (ho : o.WritesIn parts)
    (hsettlements : .settlements ∉ parts) (hlots : .positionLots ∉ parts)
    (hliabilities : .liabilities ∉ parts) (hconverted : .convertedLots ∉ parts)
    (hfills : .fills ∉ parts) : SameLedger s s' where
  settlements := exec_frame h .settlements fun hp => hsettlements (ho _ hp)
  positionLots := exec_frame h .positionLots fun hp => hlots (ho _ hp)
  liabilities := exec_frame h .liabilities fun hp => hliabilities (ho _ hp)
  convertedLots := exec_frame h .convertedLots fun hp => hconverted (ho _ hp)
  fills := exec_frame h .fills fun hp => hfills (ho _ hp)

/-! ### Rewriting an event -/

/-- Rewriting an event that is not completed keeps the invariant, if an event that is written as
completed is spent exactly. -/
theorem Conserved.putEvent {s : Store} (h : Conserved s) {row event : SettlementEvent}
    (hrow : row ∈ s.settlements) (hne : row.status ≠ .completed)
    (hfacts : event.toSettlementFacts = row.toSettlementFacts)
    (hsettled : event.status = .completed → spentOn s event.fillId = event.quantity) :
    Conserved { s with settlements := s.settlements.put event } := by
  have hid : event.fillId = row.fillId := congrArg (·.fillId) hfacts
  have hq : event.quantity = row.quantity := congrArg (·.quantity) hfacts
  have hside : event.side = row.side := congrArg (·.side) hfacts
  have hasset : event.asset = row.asset := congrArg (·.asset) hfacts
  have hkeys : SameKeys row event :=
    ⟨congrArg (·.settlementEventId) hfacts.symm, congrArg some hid.symm⟩
  have hmem : ∀ {e}, e ∈ s.settlements.put event → e = event ∨ e ∈ s.settlements := fun he =>
    Table.mem_put_imp he
  have hex : ∀ {f : String}, (∃ e ∈ s.settlements, e.fillId = f) →
      ∃ e ∈ s.settlements.put event, e.fillId = f := by
    rintro f ⟨e, he, rfl⟩
    by_cases hrow' : e = row
    · exact ⟨event, (Table.mem_put hrow hkeys).2 (.inl rfl), by rw [hid, hrow']⟩
    · exact ⟨e, (Table.mem_put hrow hkeys).2 (.inr ⟨he, hrow'⟩), rfl⟩
  constructor
  · intro e he
    rcases hmem he with rfl | he
    · rw [hid, hq]
      exact h.recorded row hrow
    · exact h.recorded e he
  · intro e he
    rcases hmem he with rfl | he
    · rw [hid, hq]
      exact h.spent row hrow
    · exact h.spent e he
  · intro e he hc
    rcases hmem he with rfl | he
    · exact hsettled hc
    · exact h.settled e he hc
  · intro e he hc
    rcases hmem he with rfl | he
    · rw [hid, hasset]
      exact h.visible row hrow hne
    · exact h.visible e he hc
  · intro e he hc
    rcases hmem he with rfl | he
    · rw [hid, hside]
      exact h.oversold row hrow hne
    · exact h.oversold e he hc
  · intro e he hc
    rcases hmem he with rfl | he
    · rw [hid, hside]
      exact h.bought row hrow hne
    · exact h.bought e he hc
  · exact fun l hl f hf => hex (h.closer l hl f hf)
  · exact fun l hl => (h.opener l hl).imp_right hex
  · exact fun b hb => hex (h.owner b hb)
  · exact h.nonneg

theorem Underway.putEvent {s : Store} {c event : SettlementEvent} (h : Underway c s)
    (hfacts : event.toSettlementFacts = c.toSettlementFacts) (hne : event.status ≠ .completed) :
    Underway c { s with settlements := s.settlements.put event } := by
  obtain ⟨row, hrow, hrf, -⟩ := h
  have hkeys : SameKeys row event := by
    have hboth : row.toSettlementFacts = event.toSettlementFacts := hrf.trans hfacts.symm
    exact ⟨congrArg (·.settlementEventId) hboth, congrArg (some ·.fillId) hboth⟩
  exact ⟨event, (Table.mem_put hrow hkeys).2 (.inl rfl), hfacts, hne⟩

/-! ### Spending a fill -/

theorem PositionLot.allocatedTo_congr {l l' : PositionLot} {f : String}
    (ho : l'.originatingFillId = l.originatingFillId) (hq : l'.openedQuantity = l.openedQuantity)
    (hc : l'.closures.lookup f = l.closures.lookup f) :
    l'.allocatedTo f = l.allocatedTo f := by
  unfold PositionLot.allocatedTo
  rw [ho, hq, hc]

theorem closedLot_ok {current lot : PositionLot} {closure : LotClosure} {event : SettlementEvent}
    (h : closedLot current closure event = .ok lot) :
    lot.lotId = current.lotId ∧ lot.originatingFillId = current.originatingFillId ∧
      lot.asset = current.asset ∧ lot.openedQuantity = current.openedQuantity ∧
      lot.closures = current.closures.insert event.fillId closure.quantity := by
  have hf := PositionLot.make_eq_ok_iff.1 h
  exact ⟨congrArg (·.lotId) hf, congrArg (·.originatingFillId) hf, congrArg (·.asset) hf,
    congrArg (·.openedQuantity) hf, congrArg (·.closures) hf⟩

/-- What a closure spends: its quantity, in place of what this lot said before. -/
theorem spentOn_closeLot {s : Store} {current lot : PositionLot} {closure : LotClosure}
    {event : SettlementEvent} (hcur : current ∈ s.positionLots)
    (hlot : closedLot current closure event = .ok lot) (f : String) :
    spentOn { s with positionLots := s.positionLots.put lot } f
      = if f = event.fillId
        then spentOn s f - (current.closures.lookup f).getD 0 + closure.quantity
        else spentOn s f := by
  obtain ⟨hid, horig, -, hopen, hclos⟩ := closedLot_ok hlot
  have hkeys : SameKeys current lot := ⟨hid.symm, congrArg some horig.symm⟩
  have hsum := Table.sum_put (fun l : PositionLot => l.allocatedTo f) hcur hkeys
  unfold spentOn
  simp only [hsum]
  split
  · rename_i hf
    have hlook : lot.closures.lookup f = some closure.quantity := by
      rw [hclos, hf, AList.lookup_insert]
    simp only [PositionLot.allocatedTo, horig, hopen, hlook, Option.getD_some]
    ring
  · rename_i hf
    have hsame : lot.allocatedTo f = current.allocatedTo f := by
      refine PositionLot.allocatedTo_congr horig hopen ?_
      rw [hclos, AList.lookup_insert_ne hf]
    rw [hsame]
    ring

theorem Conserved.closeLot {s : Store} (h : Conserved s) {current lot : PositionLot}
    {closure : LotClosure} {event : SettlementEvent} (hu : Underway event s)
    (hcur : current ∈ s.positionLots) (hlot : closedLot current closure event = .ok lot)
    (hasset : assetIdentityKey current.asset = assetIdentityKey event.asset)
    (hconv : current.lotId ∉ s.convertedLots) (hq : 0 ≤ closure.quantity)
    (hroom : spentOn s event.fillId + closure.quantity ≤ event.quantity) :
    Conserved { s with positionLots := s.positionLots.put lot } := by
  obtain ⟨row, hrow, hfacts, hne⟩ := hu
  obtain ⟨hid, horig, hlasset, -, hclos⟩ := closedLot_ok hlot
  have hfill : row.fillId = event.fillId := congrArg (·.fillId) hfacts
  have hspent := spentOn_closeLot hcur hlot
  have hold : 0 ≤ (current.closures.lookup event.fillId).getD 0 := by
    cases hlook : current.closures.lookup event.fillId with
    | none => exact le_rfl
    | some q => exact h.nonneg current hcur _ q hlook
  -- the event whose fill is the one being spent is the row being settled
  have hsame : ∀ e ∈ s.settlements, e.fillId = event.fillId → e = row := fun e he hf =>
    eq_of_fillId he hrow (hf.trans hfill.symm)
  have hmem : ∀ {l}, l ∈ s.positionLots.put lot → l = lot ∨ l ∈ s.positionLots := fun hl =>
    Table.mem_put_imp hl
  constructor
  · exact h.recorded
  · intro e he
    rw [hspent]
    split
    · rename_i hf
      have hqty : e.quantity = event.quantity := by
        rw [hsame e he hf]
        exact congrArg (·.quantity) hfacts
      rw [hqty, hf]
      linarith
    · exact h.spent e he
  · intro e he hc
    rw [hspent]
    split
    · rename_i hf
      exact absurd (hsame e he hf ▸ hc) hne
    · exact h.settled e he hc
  · intro e he hc l hl hf
    rcases hmem hl with rfl | hl
    · rw [hlasset, hid]
      rw [hclos, AList.mem_insert] at hf
      rcases hf with hf | hf
      · have hrowasset : row.asset = event.asset := congrArg (·.asset) hfacts
        rw [hsame e he hf, hrowasset]
        exact ⟨hasset, hconv⟩
      · exact h.visible e he hc current hcur hf
    · exact h.visible e he hc l hl hf
  · exact h.oversold
  · intro e he hc l hl ho
    rcases hmem hl with rfl | hl
    · exact h.bought e he hc current hcur (horig ▸ ho)
    · exact h.bought e he hc l hl ho
  · intro l hl f hf
    rcases hmem hl with rfl | hl
    · rw [hclos, AList.mem_insert] at hf
      rcases hf with rfl | hf
      · exact ⟨row, hrow, hfill⟩
      · exact h.closer current hcur f hf
    · exact h.closer l hl f hf
  · intro l hl
    rcases hmem hl with rfl | hl
    · rw [horig]
      exact h.opener current hcur
    · exact h.opener l hl
  · exact h.owner
  · intro l hl f q hf
    rcases hmem hl with rfl | hl
    · rw [hclos] at hf
      by_cases hff : f = event.fillId
      · rw [hff, AList.lookup_insert] at hf
        cases hf
        exact hq
      · rw [AList.lookup_insert_ne hff] at hf
        exact h.nonneg current hcur f q hf
    · exact h.nonneg l hl f q hf

theorem spentOn_createLiability {s : Store} {b : ShortExposureLiability}
    (hadmits : s.shortExposureLiabilities.Admits b) (f : String) :
    spentOn { s with shortExposureLiabilities := s.shortExposureLiabilities.createOnce b } f
      = spentOn s f + owedOn f b := by
  unfold spentOn
  rw [Table.sum_createOnce _ hadmits, add_assoc]

theorem Conserved.createLiability {s : Store} (h : Conserved s) {b : ShortExposureLiability}
    {event : SettlementEvent} (hu : Underway event s) (hb : b.fillId = event.fillId)
    (hsell : event.side = .sell)
    (hroom : (∀ b ∈ s.shortExposureLiabilities, b.fillId ≠ event.fillId) →
      spentOn s event.fillId + b.quantity ≤ event.quantity) :
    Conserved { s with
      shortExposureLiabilities := s.shortExposureLiabilities.createOnce b } := by
  by_cases hadmits : s.shortExposureLiabilities.Admits b
  · obtain ⟨row, hrow, hfacts, hne⟩ := hu
    have hfill : row.fillId = event.fillId := congrArg (·.fillId) hfacts
    have hsame : ∀ e ∈ s.settlements, e.fillId = event.fillId → e = row := fun e he hf =>
      eq_of_fillId he hrow (hf.trans hfill.symm)
    have hnone : ∀ b' ∈ s.shortExposureLiabilities, b'.fillId ≠ event.fillId := fun b' hb' hf => by
      rcases (hadmits b' hb').2 with hn | hn
      · cases hn
      · exact hn (congrArg some (hf.trans hb.symm))
    have hspent := spentOn_createLiability hadmits
    constructor
    · exact h.recorded
    · intro e he
      rw [hspent, owedOn, hb]
      split
      · rename_i hf
        have hqty : e.quantity = event.quantity := by
          rw [hsame e he hf.symm]
          exact congrArg (·.quantity) hfacts
        rw [hqty, ← hf]
        exact hroom hnone
      · rw [add_zero]
        exact h.spent e he
    · intro e he hc
      rw [hspent, owedOn, hb]
      split
      · rename_i hf
        exact absurd (hsame e he hf.symm ▸ hc) hne
      · rw [add_zero]
        exact h.settled e he hc
    · exact h.visible
    · intro e he hc b' hb' hf
      rcases Table.mem_createOnce.1 hb' with hb' | ⟨-, rfl⟩
      · exact h.oversold e he hc b' hb' hf
      · rw [hsame e he (hf.symm.trans hb)]
        exact (congrArg (·.side) hfacts).trans hsell
    · exact h.bought
    · exact h.closer
    · exact h.opener
    · intro b' hb'
      rcases Table.mem_createOnce.1 hb' with hb' | ⟨-, rfl⟩
      · exact h.owner b' hb'
      · exact ⟨row, hrow, hfill.trans hb.symm⟩
    · exact h.nonneg
  · rw [Table.createOnce_of_not_admits hadmits]
    exact h

theorem spentOn_createLot {s : Store} {lot : PositionLot} (hadmits : s.positionLots.Admits lot)
    (f : String) :
    spentOn { s with positionLots := s.positionLots.createOnce lot } f
      = spentOn s f + lot.allocatedTo f := by
  unfold spentOn
  rw [Table.sum_createOnce _ hadmits]
  ring

theorem Conserved.createLot {s : Store} (h : Conserved s) {lot : PositionLot}
    {event : SettlementEvent} (hu : Underway event s)
    (horig : lot.originatingFillId = event.fillId) (hclos : lot.closures = ∅)
    (hbuy : event.side = .buy)
    (hroom : (∀ l ∈ s.positionLots, l.originatingFillId ≠ event.fillId) →
      spentOn s event.fillId + lot.openedQuantity ≤ event.quantity) :
    Conserved { s with positionLots := s.positionLots.createOnce lot } := by
  by_cases hadmits : s.positionLots.Admits lot
  · obtain ⟨row, hrow, hfacts, hne⟩ := hu
    have hfill : row.fillId = event.fillId := congrArg (·.fillId) hfacts
    have hsame : ∀ e ∈ s.settlements, e.fillId = event.fillId → e = row := fun e he hf =>
      eq_of_fillId he hrow (hf.trans hfill.symm)
    have hnone : ∀ l ∈ s.positionLots, l.originatingFillId ≠ event.fillId := fun l hl hf => by
      rcases (hadmits l hl).2 with hn | hn
      · cases hn
      · exact hn (congrArg some (hf.trans horig.symm))
    have hspent : ∀ f, spentOn { s with positionLots := s.positionLots.createOnce lot } f
        = spentOn s f + if event.fillId = f then lot.openedQuantity else 0 := fun f => by
      rw [spentOn_createLot hadmits, PositionLot.allocatedTo, horig, hclos]
      simp
    have hmem : ∀ {l}, l ∈ s.positionLots.createOnce lot → l ∈ s.positionLots ∨ l = lot :=
      fun hl => (Table.mem_createOnce.1 hl).imp_right (·.2)
    constructor
    · exact h.recorded
    · intro e he
      rw [hspent]
      split
      · rename_i hf
        have hqty : e.quantity = event.quantity := by
          rw [hsame e he hf.symm]
          exact congrArg (·.quantity) hfacts
        rw [hqty, ← hf]
        exact hroom hnone
      · rw [add_zero]
        exact h.spent e he
    · intro e he hc
      rw [hspent]
      split
      · rename_i hf
        exact absurd (hsame e he hf.symm ▸ hc) hne
      · rw [add_zero]
        exact h.settled e he hc
    · intro e he hc l hl hf
      rcases hmem hl with hl | rfl
      · exact h.visible e he hc l hl hf
      · rw [hclos] at hf
        exact absurd hf (AList.notMem_empty _)
    · exact h.oversold
    · intro e he hc l hl ho
      rcases hmem hl with hl | rfl
      · exact h.bought e he hc l hl ho
      · rw [hsame e he (ho.symm.trans horig)]
        exact (congrArg (·.side) hfacts).trans hbuy
    · intro l hl f hf
      rcases hmem hl with hl | rfl
      · exact h.closer l hl f hf
      · rw [hclos] at hf
        exact absurd hf (AList.notMem_empty _)
    · intro l hl
      rcases hmem hl with hl | rfl
      · exact h.opener l hl
      · exact .inr ⟨row, hrow, hfill.trans horig.symm⟩
    · exact h.owner
    · intro l hl f q hf
      rcases hmem hl with hl | rfl
      · exact h.nonneg l hl f q hf
      · rw [hclos, AList.lookup_empty] at hf
        cases hf
  · rw [Table.createOnce_of_not_admits hadmits]
    exact h

/-! ### Verified evidence -/

theorem sum_filter_add {α : Type} (xs : List α) (p : α → Bool) (f : α → ℚ) :
    ((xs.filter p).map f).sum + ((xs.filter fun x => !p x).map f).sum = (xs.map f).sum := by
  induction xs with
  | nil => simp
  | cons x xs ih =>
      cases hp : p x <;> simp [hp, ← ih] <;> ring

/-- What the liability lookup counts is what the table owes on the fill. -/
theorem owed_eq (t : Table ShortExposureLiability) (f : String) :
    ((t.findByUnique f).map fun b => b.quantity).getD 0 = t.sum (owedOn f) := by
  cases hfind : t.findByUnique f with
  | none =>
      rw [Option.map_none, Option.getD_none, Table.sum_eq_zero]
      intro b hb
      have hne := Table.findByUnique_eq_none_iff.1 hfind b hb
      exact if_neg fun hf => hne (congrArg some hf)
  | some b =>
      obtain ⟨hb, hbf⟩ := Table.findByUnique_eq_some_iff.1 hfind
      have hzero := Table.sum_delete (owedOn f) hb
      rw [Option.map_some, Option.getD_some, hzero, Table.sum_eq_zero, zero_add]
      · exact (if_pos (Option.some.inj hbf)).symm
      · intro b' hb'
        refine if_neg fun hf => ?_
        have heq := Table.eq_of_uniqueValue (Table.mem_delete.1 hb').1 hb (congrArg some hf) hbf
        exact (Table.mem_delete.1 hb').2 (congrArg Record.recordId heq)

/-- **Verified evidence shows that the fill is spent exactly.**  Lots that the evidence does not
look at could only add to what is spent, and the invariant leaves no room for them. -/
theorem spentOn_of_project {s s' : Store} (h : Conserved s) {event : SettlementEvent}
    (hu : Underway event s) {cash write : Bool}
    (hp : project s event cash true write = .ok s') :
    spentOn s event.fillId = event.quantity := by
  obtain ⟨fill, hfill, hsum⟩ := project_conservation hp
  obtain ⟨-, hid, hqty, -, -⟩ := sourceFill_ok hfill
  obtain ⟨row, hrow, hfacts, hne⟩ := hu
  have hrowfill : row.fillId = event.fillId := congrArg (·.fillId) hfacts
  have hle : spentOn s event.fillId ≤ event.quantity := by
    have hspent := h.spent row hrow
    rw [hrowfill] at hspent
    exact hspent.trans_eq (congrArg (·.quantity) hfacts)
  rw [owed_eq, hid] at hsum
  have hsplit := sum_filter_add s.positionLots.rows
    (fun l => decide (assetIdentityKey l.asset = assetIdentityKey fill.asset)
      && !s.convertedLots.contains l.lotId) fun l => l.allocatedTo event.fillId
  have hrest : 0 ≤ ((s.positionLots.rows.filter fun l =>
      !(decide (assetIdentityKey l.asset = assetIdentityKey fill.asset)
        && !s.convertedLots.contains l.lotId)).map fun l => l.allocatedTo event.fillId).sum := by
    refine List.sum_nonneg fun q hq => ?_
    obtain ⟨l, hl, rfl⟩ := List.mem_map.1 hq
    have hlmem : l ∈ s.positionLots := (List.mem_filter.1 hl).1
    unfold PositionLot.allocatedTo
    refine add_nonneg ?_ ?_
    · split
      · exact l.opened_pos.le
      · exact le_rfl
    · cases hlook : l.closures.lookup event.fillId with
      | none => exact le_rfl
      | some q => exact h.nonneg l hlmem _ q hlook
  have hlots : (evidenceLots s fill) = s.positionLots.rows.filter fun l =>
      decide (assetIdentityKey l.asset = assetIdentityKey fill.asset)
        && !s.convertedLots.contains l.lotId := by
    rw [evidenceLots, Store.lotsByAsset, List.filter_filter]
    exact List.filter_congr fun l _ => Bool.and_comm _ _
  rw [hlots] at hsum
  refine le_antisymm hle ?_
  unfold spentOn Table.sum at *
  linarith

end Settlement

end TradePulse
