/-
**What the transactions of the quarantine do.**

`resolve` drains its execution into the open records of the instrument.  What it leaves of every
table is stated once here, and so is what the other transactions leave.

Main definitions:

* `stocks` — the open records, as stocks to drain;
* `Resolved` — what `resolve` leaves.

Main results:

* `coverRecords_ok` — the loop over the records is a draining of stocks;
* `resolve_ok` — what `resolve` leaves;
* `mem_openRecords`, `openRecords_sorted` — the open records of an instrument, in their order.
-/

import Mathlib.Data.List.Sort
import Mathlib.Data.String.Basic
import TradePulse.Quarantine.Commands
import TradePulse.Storage.Draining

set_option autoImplicit false

namespace TradePulse

namespace Quarantine

open Storage

/-! ### The order of the records -/

theorem notAfter_total (r r' : OpenRecord) : NotAfter r r' ∨ NotAfter r' r := by
  rcases lt_trichotomy r.openedAt r'.openedAt with h | h | h
  · exact .inl (.inl h)
  · rcases le_total r.recordId r'.recordId with h' | h'
    · exact .inl (.inr ⟨h, h'⟩)
    · exact .inr (.inr ⟨h.symm, h'⟩)
  · exact .inr (.inl h)

theorem NotAfter.trans {r r' r'' : OpenRecord} (h : NotAfter r r') (h' : NotAfter r' r'') :
    NotAfter r r'' := by
  rcases h with h | ⟨h, hid⟩
  · rcases h' with h' | ⟨h', -⟩
    · exact .inl (h.trans h')
    · exact .inl (h' ▸ h)
  · rcases h' with h' | ⟨h', hid'⟩
    · exact .inl (h ▸ h')
    · exact .inr ⟨h.trans h', hid.trans hid'⟩

instance : Std.Total NotAfter := ⟨notAfter_total⟩

instance : IsTrans OpenRecord NotAfter := ⟨fun _ _ _ => NotAfter.trans⟩

theorem openRecords_sorted (b : Books) (key : String) :
    (openRecords b key).Pairwise NotAfter :=
  List.pairwise_insertionSort _ _

theorem mem_openRecords {b : Books} {key : String} {r : OpenRecord} :
    r ∈ openRecords b key ↔ ∃ r₀ ∈ b.records, assetIdentityKey r₀.asset = key ∧
      0 < b.openQuantity r₀ ∧ r = { r₀ with quantity := b.openQuantity r₀ } := by
  unfold openRecords
  rw [List.mem_insertionSort, List.mem_filterMap]
  simp only [List.mem_filter, decide_eq_true_eq, Books.stillOpen, Option.ite_none_right_eq_some,
    Option.some.injEq]
  constructor
  · rintro ⟨r₀, ⟨hmem, hkey⟩, hopen, rfl⟩
    exact ⟨r₀, hmem, hkey, hopen, rfl⟩
  · rintro ⟨r₀, hmem, hkey, hopen, rfl⟩
    exact ⟨r₀, ⟨hmem, hkey⟩, hopen, rfl⟩

/-- The ids of the open records are ids of records, in some order, each as often at most. -/
theorem openRecords_ids (b : Books) (key : String) :
    ((openRecords b key).map (·.recordId)).Subperm (b.records.map (·.recordId)) := by
  have hstill : ∀ l : List OpenRecord,
      ((l.filterMap b.stillOpen).map (·.recordId)).Sublist (l.map (·.recordId)) := by
    intro l
    induction l with
    | nil => exact .slnil
    | cons r l ih =>
        rw [List.filterMap_cons]
        cases hr : b.stillOpen r with
        | none => exact ih.cons _
        | some r' =>
            have hid : r'.recordId = r.recordId := by
              simp only [Books.stillOpen, Option.ite_none_right_eq_some, Option.some.injEq] at hr
              rw [← hr.2]
            simp only [List.map_cons, hid]
            exact ih.cons_cons _
  have hperm := (List.perm_insertionSort NotAfter
    ((b.records.filter fun r => assetIdentityKey r.asset = key).filterMap b.stillOpen)).map
      (·.recordId)
  exact hperm.subperm.trans ((hstill _).trans (List.filter_sublist.map _)).subperm

/-! ### The loop over the records -/

/-- The open records, each with what is open of it. -/
def stocks (records : List OpenRecord) : List (OpenRecord × ℚ) :=
  records.map fun r => (r, r.quantity)

/-- What an execution resolves. -/
def resolutionsOf (e : QuarantineExecution) (records : List OpenRecord) (q : ℚ) (now : Instant) :
    List QuarantineResolution :=
  (drain (stocks records) q).map fun p => resolutionOf e p.1 p.2 now

/-- Only the resolutions and the recognitions may differ. -/
def SameButResolved (b b' : Books) : Prop :=
  b' = { b with
    quarantineResolutions := b'.quarantineResolutions
    quarantineFeeRecognitions := b'.quarantineFeeRecognitions }

theorem recognizeOpening_ok {b b' : Books} {e : QuarantineExecution} {r : OpenRecord} {covered : ℚ}
    {now : Instant} (h : recognizeOpening b e r covered now = .ok b') :
    ((b.unrecognized r.recordId .opening).value = 0 ∧ b' = b) ∨
      ∃ x, recognizeAtResolution r.recordId .opening r.quantity covered
          (b.unrecognized r.recordId .opening) e.activityId now = .ok x ∧
        b.quarantineFeeRecognitions.Admits x ∧
        b' = { b with quarantineFeeRecognitions := b.quarantineFeeRecognitions.createOnce x } := by
  unfold recognizeOpening at h
  dsimp only at h
  split at h
  · obtain ⟨x, hx, h⟩ := except_bind_eq_ok.1 h
    obtain ⟨t, ht, h⟩ := except_bind_eq_ok.1 h
    obtain ⟨hadmits, rfl⟩ := insertRow_eq_ok_iff.1 ht
    cases h
    exact .inr ⟨x, hx, hadmits, rfl⟩
  · rename_i hzero
    cases h
    exact .inl ⟨not_not.1 hzero, rfl⟩

theorem checkRecord_ok {α : Type} [Checked α] {a a' : α} (h : checkRecord a = .ok a') : a' = a := by
  unfold checkRecord at h
  split at h
  · cases h
    rfl
  · cases h

theorem coverRecord_ok {b b' : Books} {e : QuarantineExecution} {r : OpenRecord} {covered : ℚ}
    {now : Instant} {x : QuarantineResolution} (h : coverRecord b e r covered now = .ok (x, b')) :
    x = resolutionOf e r covered now ∧ b.quarantineResolutions.Admits x ∧
      recognizeOpening { b with quarantineResolutions := b.quarantineResolutions.createOnce x }
        e r covered now = .ok b' ∧
      b'.quarantineResolutions = b.quarantineResolutions.createOnce x ∧ SameButResolved b b' := by
  unfold coverRecord at h
  obtain ⟨y, hy, h⟩ := except_bind_eq_ok.1 h
  obtain ⟨t, ht, h⟩ := except_bind_eq_ok.1 h
  obtain ⟨b₁, hb₁, h⟩ := except_bind_eq_ok.1 h
  cases h
  obtain ⟨hadmits, rfl⟩ := insertRow_eq_ok_iff.1 ht
  refine ⟨checkRecord_ok hy, hadmits, hb₁, ?_⟩
  rcases recognizeOpening_ok hb₁ with ⟨-, rfl⟩ | ⟨_, -, -, rfl⟩ <;> exact ⟨rfl, rfl⟩

/-- **The loop drains the records.** -/
theorem coverRecords_ok {e : QuarantineExecution} {now : Instant} {records : List OpenRecord}
    {q remaining : ℚ} {b b' : Books} {xs : List QuarantineResolution}
    (h : coverRecords e now records q b = .ok ((xs, remaining), b')) :
    xs = resolutionsOf e records q now ∧ remaining = leftover (stocks records) q ∧
      b'.quarantineResolutions.rows = b.quarantineResolutions.rows ++ xs ∧
      SameButResolved b b' := by
  induction records generalizing q b xs remaining with
  | nil =>
      cases h
      exact ⟨rfl, rfl, (List.append_nil _).symm, rfl⟩
  | cons r records ih =>
      unfold coverRecords at h
      split at h
      · rename_i hq
        cases h
        refine ⟨?_, (leftover_of_nonpos hq).symm, (List.append_nil _).symm, rfl⟩
        rw [resolutionsOf, drain_of_nonpos hq]
        rfl
      · rename_i hq
        obtain ⟨⟨x, b₁⟩, hx, h⟩ := except_bind_eq_ok.1 h
        obtain ⟨⟨⟨ys, left⟩, b₂⟩, hys, h⟩ := except_bind_eq_ok.1 h
        cases h
        obtain ⟨rfl, hadmits, -, hrows, hsame⟩ := coverRecord_ok hx
        obtain ⟨rfl, rfl, hrows', hsame'⟩ := ih hys
        have hpos : 0 < q := not_le.1 hq
        refine ⟨?_, ?_, ?_, ?_⟩
        · simp only [resolutionsOf, stocks, List.map_cons, drain_cons_of_pos hpos]
        · simp only [stocks, List.map_cons, leftover_cons_of_pos hpos]
        · rw [hrows', hrows, Table.rows_createOnce hadmits, List.append_assoc]
          rfl
        · unfold SameButResolved at hsame hsame' ⊢
          rw [hsame] at hsame'
          exact hsame'

/-! ### What the transactions leave -/

/-- What `resolve` leaves. -/
structure Resolved (b b' : Books) (v : VerifiedFill) (e : QuarantineExecution) (now : Instant) :
    Prop where
  unused : b.quarantineExecutions.get? v.activityId = none
  unresolved : ∀ r ∈ b.quarantineResolutions, r.activityId ≠ v.activityId
  notFill : ∀ f ∈ b.store.fills, f.fillId ≠ v.activityId ∧ f.brokerFillId ≠ some v.activityId
  noIntent : v.orderId ≠ "" → ∀ i ∈ b.store.tradeIntents, i.brokerOrderId ≠ some v.orderId
  executions : b'.quarantineExecutions.rows = b.quarantineExecutions.rows ++ [e]
  cash : ∃ c, executionCash e = .ok c ∧ b.store.cashLedger.Admits c ∧
    b'.store.cashLedger = b.store.cashLedger.createOnce c
  resolutions : b'.quarantineResolutions.rows = b.quarantineResolutions.rows ++
    resolutionsOf e (openRecords b v.assetKey) e.quantity now
  inventory : (leftover (stocks (openRecords b v.assetKey)) e.quantity ≤ 0 ∧
      b'.unmanagedLongInventory = b.unmanagedLongInventory) ∨
    ∃ s : UnmanagedLongInventory, s.recordId = "unmanaged:" ++ e.activityId ∧
      s.coverActivityId = e.activityId ∧ 0 < s.quantity ∧
      s.quantity = leftover (stocks (openRecords b v.assetKey)) e.quantity ∧
      b'.unmanagedLongInventory.rows = b.unmanagedLongInventory.rows ++ [s]
  liabilities : b'.store.shortExposureLiabilities = b.store.shortExposureLiabilities
  fills : b'.store.fills = b.store.fills
  intents : b'.store.tradeIntents = b.store.tradeIntents
  allocations : b'.quarantineFeeAllocations = b.quarantineFeeAllocations
  /-- The recognitions are those of the loop over the open records. -/
  recognitions : ∃ b₁ b₂ xs remaining, b₁.quarantineFeeAllocations = b.quarantineFeeAllocations ∧
    b₁.quarantineFeeRecognitions = b.quarantineFeeRecognitions ∧
    coverRecords e now (openRecords b v.assetKey) e.quantity b₁ = .ok ((xs, remaining), b₂) ∧
    b'.quarantineFeeRecognitions = b₂.quarantineFeeRecognitions

theorem preflight_ok {b : Books} {v : VerifiedFill} {records : List OpenRecord} {oldest : Instant}
    (h : preflight b v = .ok (records, oldest)) :
    records = openRecords b v.assetKey ∧ b.quarantineExecutions.get? v.activityId = none ∧
      (∀ r ∈ b.quarantineResolutions, r.activityId ≠ v.activityId) ∧
      (∀ f ∈ b.store.fills, f.fillId ≠ v.activityId ∧ f.brokerFillId ≠ some v.activityId) ∧
      (v.orderId ≠ "" → ∀ i ∈ b.store.tradeIntents, i.brokerOrderId ≠ some v.orderId) := by
  unfold preflight at h
  obtain ⟨_, hused, h⟩ := except_bind_eq_ok.1 h
  obtain ⟨_, -, h⟩ := except_bind_eq_ok.1 h
  obtain ⟨_, hintent, h⟩ := except_bind_eq_ok.1 h
  rw [raiseIf_eq_ok_iff] at hused hintent
  push Not at hused hintent
  have hrecords : records = openRecords b v.assetKey := by
    cases hopen : openRecords b v.assetKey with
    | nil =>
        rw [hopen] at h
        cases h
    | cons first rest =>
        rw [hopen] at h
        obtain ⟨_, -, h⟩ := except_bind_eq_ok.1 h
        obtain ⟨_, -, h⟩ := except_bind_eq_ok.1 h
        obtain ⟨_, -, h⟩ := except_bind_eq_ok.1 h
        obtain ⟨_, -, h⟩ := except_bind_eq_ok.1 h
        cases h
        rfl
  exact ⟨hrecords, by simpa using hused.1, hused.2, hintent.1, fun hne => (hintent.2 hne).1⟩

theorem insertExecution_ok {b b' : Books} {e : QuarantineExecution}
    (h : insertExecution b e = .ok b') :
    ∃ c, executionCash e = .ok c ∧ b.store.cashLedger.Admits c ∧
      b.quarantineExecutions.Admits e ∧ b' = { b with
        quarantineExecutions := b.quarantineExecutions.createOnce e
        store := { b.store with cashLedger := b.store.cashLedger.createOnce c } } := by
  unfold insertExecution at h
  obtain ⟨c, hc, h⟩ := except_bind_eq_ok.1 h
  obtain ⟨t, ht, h⟩ := except_bind_eq_ok.1 h
  obtain ⟨u, hu, h⟩ := except_bind_eq_ok.1 h
  obtain ⟨hadmits, rfl⟩ := insertRow_eq_ok_iff.1 ht
  obtain ⟨hcash, rfl⟩ := insertRow_eq_ok_iff.1 hu
  cases h
  exact ⟨c, hc, hcash, hadmits, rfl⟩

theorem insertSurplus_ok {b b' : Books} {e : QuarantineExecution} {current : List OpenRecord}
    {remaining : ℚ} {surplus : Option UnmanagedLongInventory}
    (h : insertSurplus b e current remaining = .ok (surplus, b')) :
    (remaining ≤ 0 ∧ b' = b) ∨
      ∃ s : UnmanagedLongInventory, s.recordId = "unmanaged:" ++ e.activityId ∧
        s.coverActivityId = e.activityId ∧ 0 < s.quantity ∧ s.quantity = remaining ∧
        b.unmanagedLongInventory.Admits s ∧
        b' = { b with unmanagedLongInventory := b.unmanagedLongInventory.createOnce s } := by
  unfold insertSurplus at h
  split at h
  · rename_i hpos
    cases current with
    | nil => cases h
    | cons first rest =>
        obtain ⟨s, hs, h⟩ := except_bind_eq_ok.1 h
        obtain ⟨t, ht, h⟩ := except_bind_eq_ok.1 h
        obtain ⟨hadmits, rfl⟩ := insertRow_eq_ok_iff.1 ht
        cases h
        obtain rfl := checkRecord_ok hs
        exact .inr ⟨_, rfl, rfl, hpos, rfl, hadmits, rfl⟩
  · rename_i hpos
    cases h
    exact .inl ⟨not_lt.1 hpos, rfl⟩

/-- The outcome of an unresolved execution and the audit trail are beside the point. -/
theorem explainUnresolved_ok {b b' : Books} {e : QuarantineExecution} {now : Instant}
    (h : explainUnresolved b e now = .ok b') :
    b' = { b with unresolvedExecutionOutcomes := b'.unresolvedExecutionOutcomes } := by
  unfold explainUnresolved at h
  split at h
  · obtain ⟨t, -, h⟩ := except_bind_eq_ok.1 h
    cases h
    rfl
  · cases h
    rfl

theorem insertAuditEvent_ok {b b' : Books} {event : AuditEvent}
    (h : insertAuditEvent b event = .ok b') :
    b' = { b with store := { b.store with auditEvents := b'.store.auditEvents } } := by
  unfold insertAuditEvent at h
  obtain ⟨t, -, h⟩ := except_bind_eq_ok.1 h
  cases h
  rfl

/-- **The transaction of `resolve`.** -/
theorem resolve_ok {v : VerifiedFill} {e : QuarantineExecution} {now : Instant} {b b' : Books}
    {result : ResolveResult} (h : resolve v e now b = .ok (result, b')) :
    Resolved b b' v e now := by
  unfold resolve at h
  obtain ⟨⟨current, oldest⟩, hpre, h⟩ := except_bind_eq_ok.1 h
  obtain ⟨b₁, h₁, h⟩ := except_bind_eq_ok.1 h
  obtain ⟨⟨⟨xs, remaining⟩, b₂⟩, h₂, h⟩ := except_bind_eq_ok.1 h
  obtain ⟨⟨surplus, b₃⟩, h₃, h⟩ := except_bind_eq_ok.1 h
  obtain ⟨b₄, h₄, h⟩ := except_bind_eq_ok.1 h
  obtain ⟨b₅, h₅, h⟩ := except_bind_eq_ok.1 h
  cases h
  obtain ⟨rfl, hunused, hunresolved, hfills, hintents⟩ := preflight_ok hpre
  obtain ⟨c, hc, hcash, hadmits, rfl⟩ := insertExecution_ok h₁
  obtain ⟨rfl, rfl, hrows, hsame⟩ := coverRecords_ok h₂
  have h₄' := explainUnresolved_ok h₄
  have h₅' := insertAuditEvent_ok h₅
  -- the surplus is the only table that the third transaction may write
  have hkept : b₃ = { b₂ with unmanagedLongInventory := b₃.unmanagedLongInventory } := by
    rcases insertSurplus_ok h₃ with ⟨-, rfl⟩ | ⟨_, -, -, -, -, -, rfl⟩ <;> rfl
  have hinventory : b'.unmanagedLongInventory = b₃.unmanagedLongInventory := by
    rw [h₅', h₄']
  constructor
  case unused => exact hunused
  case unresolved => exact hunresolved
  case notFill => exact hfills
  case noIntent => exact hintents
  case executions =>
    rw [h₅', h₄', hkept, hsame]
    exact Table.rows_createOnce hadmits
  case cash => exact ⟨c, hc, hcash, by rw [h₅', h₄', hkept, hsame]⟩
  case resolutions =>
    rw [h₅', h₄', hkept]
    exact hrows
  case inventory =>
    rw [hinventory]
    rcases insertSurplus_ok h₃ with ⟨hle, rfl⟩ | ⟨s, hid, hcover, hpos, hquantity, hadmits', rfl⟩
    · exact .inl ⟨hle, by rw [hsame]⟩
    · refine .inr ⟨s, hid, hcover, hpos, hquantity, ?_⟩
      rw [hsame] at hadmits' ⊢
      exact Table.rows_createOnce hadmits'
  case recognitions =>
    refine ⟨_, b₂, _, _, ?_, ?_, h₂, ?_⟩
    · rfl
    · rfl
    · rw [h₅', h₄', hkept]
  all_goals rw [h₅', h₄', hkept, hsame]

end Quarantine

end TradePulse
