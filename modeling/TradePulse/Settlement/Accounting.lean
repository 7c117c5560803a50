/-
**Cash and profit projections of a fill** (`settlement/accounting.py`).

The rows that accounting owes a fill are derived from the immutable fill, the lots it touched and
the attributions of its round trips.  The same derivation writes them and verifies them later; the
functions here run inside one transaction, so they are functions on stores that may raise.

Main definitions:

* `sourceFill`, `cashEvidence`, `pnlEvidence` — the evidence of an event;
* `project` — validate the expected rows, and write the missing ones when asked to.

Main results:

* `project_readOnly` — without writing, a successful projection leaves the store as it was;
* `project_frame` — a projection writes cash and profit rows only;
* `pnlEvidence_conservation` — evidence is only found for a fill that is spent exactly.
-/

import TradePulse.Persistence.Store
import TradePulse.Settlement.Lots

set_option autoImplicit false

namespace TradePulse

open Storage

/-- The durable fill behind an event, which must agree with it. -/
def sourceFill (s : Store) (event : SettlementEvent) : Except Raised Fill :=
  match s.fills.get? event.fillId with
  | none => .error (.projectionEvidence ("ACCOUNTING_FILL_MISSING:" ++ event.fillId))
  | some fill =>
      if fill.tradeIntentId = event.tradeIntentId ∧ fill.side = event.side ∧
          fill.executionMode = event.executionMode ∧ fill.quantity = event.quantity ∧
          fill.price = event.price ∧ fill.fees = event.fees ∧
          assetIdentityKey fill.asset = assetIdentityKey event.asset ∧
          fill.filledAt = event.occurredAt ∧ (∀ o ∈ event.brokerOrderId, fill.orderId = o) ∧
          fill.brokerFillId = event.brokerFillId then .ok fill
      else .error (.projectionEvidence ("ACCOUNTING_FILL_SETTLEMENT_MISMATCH:" ++ event.fillId))

/-- The cash movement of a fill. -/
def cashEvidence (s : Store) (event : SettlementEvent) : Except Raised CashLedgerEntry := do
  let fill ← sourceFill s event
  let multiplier ← contractMultiplierOf fill.asset
  let notional := fill.quantity * fill.price * multiplier
  let identifier := "fill:cash:" ++ fill.fillId
  return { entryId := identifier
           idempotencyKey := identifier
           amount := (if fill.side = .sell then notional else -notional) - fill.fees
           currency := "USD"
           occurredAt := fill.filledAt
           reason := "immutable fill cash; accounting-v1" }

/-- What opened a lot: its fill, or the adoption of a position. -/
structure Opening where
  asset : AssetIdentity
  price : ℚ
  filledAt : Instant
  side : Side
  quantity : ℚ
  tradeIntentId : String

/-- The adoption an adopted lot comes from (`adoption_for_lot`). -/
def adoptionForLot (s : Store) (lot : PositionLot) : Except Raised Adoption :=
  match lot.adoptionId with
  | none => .error (.valueError ("LOT_NOT_ADOPTED: " ++ lot.lotId))
  | some id =>
      match s.positionAdoptions.get? id with
      | none => .error (.valueError ("ADOPTION_MISSING: " ++ id))
      | some adoption => .ok adoption

/-- The evidence that opened a lot. -/
def openingEvidence (s : Store) (lot : PositionLot) : Except Raised Opening :=
  if lot.origin = .adopted then do
    let adoption ← adoptionForLot s lot
    raiseIf (adoption.brokerAvgEntryPrice ≠ lot.acquisitionPrice ∨
        adoption.adoptedQuantity ≠ lot.openedQuantity ∨ adoption.adoptedAt ≠ lot.openedAt)
      (.projectionEvidence ("ACCOUNTING_ADOPTION_LOT_MISMATCH:" ++ lot.lotId))
    return { asset := lot.asset
             price := lot.acquisitionPrice
             filledAt := lot.openedAt
             side := .buy
             quantity := lot.openedQuantity
             tradeIntentId := lot.originatingFillId }
  else
    match s.fills.get? lot.originatingFillId with
    | none => .error (.projectionEvidence ("ACCOUNTING_OPENING_FILL_MISSING:" ++ lot.lotId))
    | some fill =>
        .ok { asset := fill.asset
              price := fill.price
              filledAt := fill.filledAt
              side := fill.side
              quantity := fill.quantity
              tradeIntentId := fill.tradeIntentId }

/-- The quantities of a lot add up to what it opened with. -/
def PositionLot.Conserved (lot : PositionLot) : Prop :=
  lot.remainingQuantity + lot.closures.total + lot.assetFeeQuantities.total = lot.openedQuantity

instance (lot : PositionLot) : Decidable lot.Conserved := inferInstanceAs (Decidable (_ = _))

/-- The identifier of the attribution of a lot that a fill closed. -/
def attributionId (lot : PositionLot) (fillId : String) : String := lot.lotId ++ ":" ++ fillId

/-- The profit of closing `quantity` of a lot, from its opening and its attribution. -/
def closureEvidence (s : Store) (fill : Fill) (lot : PositionLot) (quantity : ℚ) :
    Except Raised ℚ := do
  let key := assetIdentityKey fill.asset
  let opening ← openingEvidence s lot
  raiseIf (assetIdentityKey opening.asset ≠ key ∨ opening.price ≠ lot.acquisitionPrice ∨
      opening.filledAt ≠ lot.openedAt ∨ opening.side = fill.side ∨
      opening.quantity < lot.openedQuantity ∨ quantity ≤ 0 ∨ ¬ lot.Conserved)
    (.projectionEvidence ("ACCOUNTING_LOT_SOURCE_MISMATCH:" ++ lot.lotId))
  let identifier := attributionId lot fill.fillId
  match s.tradeAttributions.get? identifier with
  | none => throw (.projectionEvidence ("ACCOUNTING_ATTRIBUTION_MISSING:" ++ identifier))
  | some attr =>
      let multiplier ← contractMultiplierOf fill.asset
      let gross := (fill.price - opening.price) * quantity * multiplier
      let gross := if lot.positionSide = .short then -gross else gross
      raiseIf (attr.lotId ≠ lot.lotId ∨ attr.closingFillId ≠ fill.fillId ∨
          attr.quantity ≠ quantity ∨ attr.realizedPnl ≠ gross ∨
          attr.entryPrice ≠ opening.price ∨ attr.exitPrice ≠ fill.price ∨
          attr.entryAt ≠ opening.filledAt ∨ attr.exitAt ≠ fill.filledAt ∨
          attr.openingTradeIntentId ≠ opening.tradeIntentId ∨
          attr.closingTradeIntentId ≠ fill.tradeIntentId ∨
          assetIdentityKey attr.asset ≠ key)
        (.projectionEvidence ("ACCOUNTING_ATTRIBUTION_MISMATCH:" ++ identifier))
      return gross

/-- What one lot contributes to the evidence of a fill: the quantity it holds of the fill and, if
the fill closed some of it, the attribution and the profit. -/
structure LotEvidence where
  allocated : ℚ := 0
  closure : Option (String × ℚ) := none

/-- The evidence of one lot for a fill that opened it or closed some of it. -/
def lotEvidence (s : Store) (fill : Fill) (lot : PositionLot) : Except Raised LotEvidence := do
  let opened := lot.originatingFillId = fill.fillId
  raiseIf (opened ∧ (lot.acquisitionPrice ≠ fill.price ∨ lot.openedAt ≠ fill.filledAt ∨
      lot.positionSide ≠ openingDirection fill.side ∨ ¬ lot.Conserved))
    (.projectionEvidence ("ACCOUNTING_OPENING_LOT_MISMATCH:" ++ lot.lotId))
  match lot.closures.lookup fill.fillId with
  | none => .ok { allocated := if opened then lot.openedQuantity else 0 }
  | some quantity => do
      let gross ← closureEvidence s fill lot quantity
      .ok { allocated := (if opened then lot.openedQuantity else 0) + quantity
            closure := some (attributionId lot fill.fillId, gross) }

/-- The lots that count for a fill: those of its instrument that were not converted. -/
def evidenceLots (s : Store) (fill : Fill) : List PositionLot :=
  (s.lotsByAsset fill.asset).filter fun l => !s.convertedLots.contains l.lotId

/-- The profit row of a round trip or of fees. -/
def pnlRecord (fill : Fill) (identifier : String) (realized : ℚ) : PnlRecord where
  recordId := identifier
  asset := fill.asset
  realized := realized
  unrealized := 0
  asOf := fill.filledAt

/-- The profit rows of a fill, which must be spent exactly by lots and liability. -/
def pnlEvidence (s : Store) (event : SettlementEvent) : Except Raised (List PnlRecord) := do
  let fill ← sourceFill s event
  let evidence ← (evidenceLots s fill).mapM (lotEvidence s fill)
  let closures := evidence.filterMap fun e => e.closure
  let expected := closures.map fun c => c.1
  let actual := (s.tradeAttributions.rows.filter fun a => a.closingFillId = fill.fillId).map
    fun a => a.attributionId
  let liability := ((s.shortExposureLiabilities.findByUnique fill.fillId).map
    fun l => l.quantity).getD 0
  raiseIf ((evidence.map fun e => e.allocated).sum + liability ≠ fill.quantity ∨
      ¬ (actual ⊆ expected ∧ expected ⊆ actual) ∨
      event.realizedPnl ≠ some (closures.map fun c => c.2).sum)
    (.projectionEvidence ("ACCOUNTING_CLOSURE_CONSERVATION_FAILED:" ++ fill.fillId))
  let fees := if fill.fees = 0 then [] else [pnlRecord fill ("fill:fee:" ++ fill.fillId) (-fill.fees)]
  return closures.map (fun c => pnlRecord fill ("fill:pnl:" ++ c.1) c.2) ++ fees

/-- A derived row must be there as derived; a missing one is written when asked to. -/
def persist {α : Type} [Record α] [DecidableEq α] (table : Table α) (item : α) (write : Bool) :
    Except Raised (Table α) :=
  match table.get? (Record.recordId item) with
  | some existing =>
      if existing = item then .ok table
      else .error (.projectionEvidence
        ("ACCOUNTING_DURABLE_ROW_CONFLICT:" ++ Record.recordId item))
  | none =>
      if write = false then
        .error (.projectionEvidence ("ACCOUNTING_DURABLE_ROW_MISSING:" ++ Record.recordId item))
      else if table.Admits item then .ok (table.createOnce item)
      else .error ⟨.other, "UNIQUE constraint failed"⟩

/-- Persist or verify the cash row of an event. -/
def projectCash (s : Store) (event : SettlementEvent) (write : Bool) : Except Raised Store := do
  let item ← cashEvidence s event
  let cashLedger ← persist s.cashLedger item write
  return { s with cashLedger := cashLedger }

/-- Persist or verify the profit rows of an event. -/
def projectPnl (s : Store) (event : SettlementEvent) (write : Bool) : Except Raised Store := do
  let items ← pnlEvidence s event
  let pnlRecords ← items.foldlM (fun table item => persist table item write) s.pnlRecords
  raiseIf (s.tradeIntents.get? event.tradeIntentId).isNone
    (.projectionEvidence ("ACCOUNTING_TRADE_INTENT_MISSING:" ++ event.tradeIntentId))
  return { s with pnlRecords := pnlRecords }

/-- Validate the expected rows of an event; with `write`, insert the missing ones. -/
def project (s : Store) (event : SettlementEvent) (cash trade write : Bool) :
    Except Raised Store := do
  let _ ← (if write then checkIntegrityHold s event.brokerOrderId else .ok ())
  let s ← (if cash then projectCash s event write else .ok s)
  if trade then projectPnl s event write else .ok s

/-! ### Verification changes nothing -/

theorem persist_readOnly {α : Type} [Record α] [DecidableEq α] {table table' : Table α} {item : α}
    (h : persist table item false = .ok table') : table' = table := by
  unfold persist at h
  split at h
  · split at h
    · cases h
      rfl
    · cases h
  · cases h

theorem projectCash_readOnly {s s' : Store} {event : SettlementEvent}
    (h : projectCash s event false = .ok s') : s' = s := by
  obtain ⟨item, -, h⟩ := except_bind_eq_ok.1 h
  obtain ⟨table, ht, h⟩ := except_bind_eq_ok.1 h
  cases h
  rw [persist_readOnly ht]

theorem foldlM_persist_readOnly {α : Type} [Record α] [DecidableEq α] {items : List α}
    {table table' : Table α}
    (h : items.foldlM (fun t item => persist t item false) table = .ok table') :
    table' = table := by
  induction items generalizing table with
  | nil =>
      cases h
      rfl
  | cons item items ih =>
      rw [List.foldlM_cons] at h
      obtain ⟨t, ht, hrest⟩ := except_bind_eq_ok.1 h
      rw [ih hrest, persist_readOnly ht]

theorem projectPnl_readOnly {s s' : Store} {event : SettlementEvent}
    (h : projectPnl s event false = .ok s') : s' = s := by
  obtain ⟨items, -, h⟩ := except_bind_eq_ok.1 h
  obtain ⟨table, ht, h⟩ := except_bind_eq_ok.1 h
  obtain ⟨-, -, h⟩ := except_bind_eq_ok.1 h
  cases h
  rw [foldlM_persist_readOnly ht]

/-- Without writing, a successful projection leaves the store as it was. -/
theorem project_readOnly {s s' : Store} {event : SettlementEvent} {cash trade : Bool}
    (h : project s event cash trade false = .ok s') : s' = s := by
  unfold project at h
  obtain ⟨-, -, h⟩ := except_bind_eq_ok.1 h
  obtain ⟨t, ht, h⟩ := except_bind_eq_ok.1 h
  have hts : t = s := by
    cases cash with
    | false =>
        cases ht
        rfl
    | true => exact projectCash_readOnly ht
  cases trade with
  | false =>
      cases h
      exact hts
  | true =>
      rw [← hts]
      exact projectPnl_readOnly h

/-- A projection writes cash and profit rows only. -/
theorem project_frame {s s' : Store} {event : SettlementEvent} {cash trade write : Bool}
    (h : project s event cash trade write = .ok s') :
    ∃ cashLedger pnlRecords, s' = { s with cashLedger := cashLedger, pnlRecords := pnlRecords } := by
  unfold project at h
  obtain ⟨-, -, h⟩ := except_bind_eq_ok.1 h
  obtain ⟨t, ht, h⟩ := except_bind_eq_ok.1 h
  have hts : ∃ cashLedger, t = { s with cashLedger := cashLedger } := by
    cases cash with
    | false =>
        cases ht
        exact ⟨s.cashLedger, rfl⟩
    | true =>
        obtain ⟨item, -, ht⟩ := except_bind_eq_ok.1 ht
        obtain ⟨table, -, ht⟩ := except_bind_eq_ok.1 ht
        cases ht
        exact ⟨table, rfl⟩
  obtain ⟨cashLedger, rfl⟩ := hts
  cases trade with
  | false =>
      cases h
      exact ⟨cashLedger, s.pnlRecords, rfl⟩
  | true =>
      obtain ⟨items, -, h⟩ := except_bind_eq_ok.1 h
      obtain ⟨table, -, h⟩ := except_bind_eq_ok.1 h
      obtain ⟨-, -, h⟩ := except_bind_eq_ok.1 h
      cases h
      exact ⟨cashLedger, table, rfl⟩

/-! ### Evidence is exact -/

/-- The quantity of a fill that a lot holds: what the fill opened it with and closed of it. -/
def PositionLot.allocatedTo (lot : PositionLot) (fillId : String) : ℚ :=
  (if lot.originatingFillId = fillId then lot.openedQuantity else 0)
    + (lot.closures.lookup fillId).getD 0

theorem lotEvidence_allocated {s : Store} {fill : Fill} {lot : PositionLot} {ev : LotEvidence}
    (h : lotEvidence s fill lot = .ok ev) : ev.allocated = lot.allocatedTo fill.fillId := by
  obtain ⟨-, -, h⟩ := except_bind_eq_ok.1 h
  unfold PositionLot.allocatedTo
  cases hlook : lot.closures.lookup fill.fillId with
  | none =>
      rw [hlook] at h
      cases h
      simp
  | some quantity =>
      rw [hlook] at h
      obtain ⟨gross, -, h⟩ := except_bind_eq_ok.1 h
      cases h
      simp

theorem mapM_lotEvidence_allocated {s : Store} {fill : Fill} {lots : List PositionLot}
    {evs : List LotEvidence} (h : lots.mapM (lotEvidence s fill) = .ok evs) :
    (evs.map fun e => e.allocated).sum = (lots.map fun l => l.allocatedTo fill.fillId).sum := by
  induction lots generalizing evs with
  | nil =>
      cases h
      rfl
  | cons lot lots ih =>
      rw [List.mapM_cons] at h
      obtain ⟨ev, hev, h⟩ := except_bind_eq_ok.1 h
      obtain ⟨rest, hrest, h⟩ := except_bind_eq_ok.1 h
      cases h
      simp only [List.map_cons, List.sum_cons, ih hrest, lotEvidence_allocated hev]

theorem sourceFill_ok {s : Store} {event : SettlementEvent} {fill : Fill}
    (h : sourceFill s event = .ok fill) :
    fill ∈ s.fills ∧ fill.fillId = event.fillId ∧ fill.quantity = event.quantity ∧
      fill.price = event.price ∧ assetIdentityKey fill.asset = assetIdentityKey event.asset := by
  unfold sourceFill at h
  split at h
  · cases h
  · rename_i f hf
    split at h
    · rename_i hagree
      cases h
      obtain ⟨hmem, hid⟩ := Table.get?_eq_some_iff.1 hf
      exact ⟨hmem, hid, hagree.2.2.2.1, hagree.2.2.2.2.1, hagree.2.2.2.2.2.2.1⟩
    · cases h

/-- **Evidence is only found for a fill that is spent exactly**: what its lots hold of it and its
liability make up its quantity. -/
theorem pnlEvidence_conservation {s : Store} {event : SettlementEvent} {records : List PnlRecord}
    (h : pnlEvidence s event = .ok records) :
    ∃ fill, sourceFill s event = .ok fill ∧
      ((evidenceLots s fill).map fun l => l.allocatedTo fill.fillId).sum
        + ((s.shortExposureLiabilities.findByUnique fill.fillId).map fun l => l.quantity).getD 0
      = fill.quantity := by
  unfold pnlEvidence at h
  obtain ⟨fill, hfill, h⟩ := except_bind_eq_ok.1 h
  obtain ⟨evidence, hev, h⟩ := except_bind_eq_ok.1 h
  refine ⟨fill, hfill, ?_⟩
  obtain ⟨_, hcheck, -⟩ := except_bind_eq_ok.1 h
  rw [← mapM_lotEvidence_allocated hev]
  rw [raiseIf_eq_ok_iff] at hcheck
  by_contra hne
  exact hcheck (.inl hne)

/-- A projection of profits that succeeds found the fill spent exactly. -/
theorem project_conservation {s s' : Store} {event : SettlementEvent} {cash write : Bool}
    (h : project s event cash true write = .ok s') :
    ∃ fill, sourceFill s event = .ok fill ∧
      ((evidenceLots s fill).map fun l => l.allocatedTo fill.fillId).sum
        + ((s.shortExposureLiabilities.findByUnique fill.fillId).map fun l => l.quantity).getD 0
      = fill.quantity := by
  unfold project at h
  obtain ⟨-, -, h⟩ := except_bind_eq_ok.1 h
  obtain ⟨t, ht, h⟩ := except_bind_eq_ok.1 h
  obtain ⟨items, hitems, -⟩ := except_bind_eq_ok.1 h
  obtain ⟨fill, hfill, hsum⟩ := pnlEvidence_conservation hitems
  have hts : ∃ cashLedger, t = { s with cashLedger := cashLedger } := by
    cases cash with
    | false =>
        cases ht
        exact ⟨s.cashLedger, rfl⟩
    | true =>
        obtain ⟨item, -, ht⟩ := except_bind_eq_ok.1 ht
        obtain ⟨table, -, ht⟩ := except_bind_eq_ok.1 ht
        cases ht
        exact ⟨table, rfl⟩
  obtain ⟨cashLedger, rfl⟩ := hts
  exact ⟨fill, hfill, hsum⟩

end TradePulse
