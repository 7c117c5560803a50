/-
**Conservation of the quarantine.**

Whatever oversells, conversions of legacy lots, resolutions, postings of fees and recordings of fills
happen side by side, and wherever any of them fails: no record is resolved beyond its quantity,
every execution is spent exactly, on resolutions and on the surplus it leaves, and has one cash
entry.  A step of the system resolves the oldest records first and uses an activity once.  A command
that is refused or fails has changed nothing.

`resolve` refuses an activity that is a fill, or whose order is that of an intent.  The attribution
of fills does not ask whether an activity is an execution.  No activity is both as long as every
fill is recorded for an intent on record, and no intent is given the order of an activity that is
already an execution.

Main definitions:

* `Conserved`, `Exclusive` — what holds of the tables;
* `Sound` — the invariant: with it, what the ids of the records are and where the rows come from;
* `OldestFirst`, `UsedOnce` — what holds of a step;
* `Ordered`, `OrderedOutside` — intents get their orders before activities of these are taken.

Main results:

* `Sound.opened`, `Sound.resolved` — a transaction that opens records at most, and `resolve`, keep
  the invariant;
* `oldestFirst_of_resolved` — `resolve` takes the oldest records first;
* `Unclaimed.exec`, `Unclaimed.external` — what keeps executions and fills apart;
* `quarantine_conserved` — all of it, for every run.
-/

import TradePulse.Process.Commits
import TradePulse.Quarantine.Resolving

set_option autoImplicit false

namespace TradePulse

namespace Quarantine

open Storage Process

/-! ### What is conserved -/

/-- What the resolutions from an activity add up to. -/
def Books.resolvedBy (b : Books) (activityId : String) : ℚ :=
  b.quarantineResolutions.sum fun r => if r.activityId = activityId then r.quantity else 0

/-- What an activity left over, as unmanaged inventory. -/
def Books.surplusOf (b : Books) (activityId : String) : ℚ :=
  b.unmanagedLongInventory.sum fun r => if r.coverActivityId = activityId then r.quantity else 0

/-- The cash entries of an activity. -/
def Books.cashOf (b : Books) (activityId : String) : List CashLedgerEntry :=
  b.store.cashLedger.rows.filter fun c =>
    c.entryId = "fill:cash:" ++ activityId ∨ c.idempotencyKey = "fill:cash:" ++ activityId

/-- What is conserved. -/
structure Conserved (b : Books) : Prop where
  /-- No record is resolved beyond its quantity. -/
  within : ∀ r ∈ b.records, b.resolved r.recordId ≤ r.quantity
  /-- An execution is spent on resolutions and on its surplus, exactly. -/
  whole : ∀ e ∈ b.quarantineExecutions,
    b.resolvedBy e.activityId + b.surplusOf e.activityId = e.quantity
  /-- An execution has one cash entry, its signed notional. -/
  cash : ∀ e ∈ b.quarantineExecutions, ∃ c m, b.cashOf e.activityId = [c] ∧
    contractMultiplierOf e.asset = .ok m ∧
    c.amount = (if e.side = .sell then 1 else -1) * (e.quantity * e.price * m)
  /-- What is resolved is resolved from an execution. -/
  executed : ∀ r ∈ b.quarantineResolutions, (b.quarantineExecutions.get? r.activityId).isSome

/-- No activity is a fill and an execution. -/
def Exclusive (b : Books) : Prop :=
  ∀ e ∈ b.quarantineExecutions, ∀ f ∈ b.store.fills,
    f.fillId ≠ e.activityId ∧ f.brokerFillId ≠ some e.activityId

/-- Where a step resolves a record, the records of the instrument that were opened before it are
closed after the step. -/
def OldestFirst (b b' : Books) : Prop :=
  ∀ key, ∀ r ∈ openRecords b key, ∀ r' ∈ openRecords b key, NotAfter r r' → r ≠ r' →
    b'.resolved r'.recordId ≠ b.resolved r'.recordId →
      b'.resolved r.recordId = b.resolved r.recordId + r.quantity

/-- What a step newly resolves is open before it, and from an execution that is new with it. -/
def UsedOnce (b b' : Books) : Prop :=
  (∀ e ∈ b.quarantineExecutions, e ∈ b'.quarantineExecutions) ∧
    (∀ r ∈ b.quarantineResolutions, r ∈ b'.quarantineResolutions) ∧
    ∀ x ∈ b'.quarantineResolutions, x ∉ b.quarantineResolutions →
      b.quarantineExecutions.get? x.activityId = none ∧
        ∃ r ∈ b.records, r.recordId = x.recordId ∧ 0 < b.openQuantity r

/-! ### The invariant -/

/-- The invariant. -/
structure Sound (b : Books) : Prop extends Conserved b where
  liabilityId : ∀ l ∈ b.store.shortExposureLiabilities, l.liabilityId = "liability:" ++ l.fillId
  inventoryId : ∀ r ∈ b.unmanagedLongInventory, r.recordId = "unmanaged:" ++ r.coverActivityId
  covered : ∀ r ∈ b.unmanagedLongInventory,
    (b.quarantineExecutions.get? r.coverActivityId).isSome
  recorded : ∀ x ∈ b.quarantineResolutions, ∃ r ∈ b.records, r.recordId = x.recordId
  evidence : ∀ e ∈ b.quarantineExecutions, ∀ c ∈ b.cashOf e.activityId, executionCash e = .ok c

theorem mem_records {b : Books} {r : OpenRecord} :
    r ∈ b.records ↔ (∃ l ∈ b.store.shortExposureLiabilities, ofLiability l = r) ∨
      ∃ u ∈ b.unmanagedLongInventory, ofInventory u = r := by
  simp [Books.records, Table.mem_def]

/-- Liabilities and inventory have ids of their own. -/
theorem liability_ne_unmanaged (s t : String) : "liability:" ++ s ≠ "unmanaged:" ++ t := by
  intro h
  have hchars := congrArg String.toList h
  rw [String.toList_append, String.toList_append] at hchars
  exact absurd (List.cons.inj hchars).1 (by decide)

theorem nodup_records {b : Books}
    (hl : ∀ l ∈ b.store.shortExposureLiabilities, l.liabilityId = "liability:" ++ l.fillId)
    (hu : ∀ r ∈ b.unmanagedLongInventory, r.recordId = "unmanaged:" ++ r.coverActivityId) :
    (b.records.map (·.recordId)).Nodup := by
  unfold Books.records
  rw [List.map_append, List.map_map, List.map_map, List.nodup_append']
  refine ⟨?_, ?_, ?_⟩
  · exact List.pairwise_map.2 (b.store.shortExposureLiabilities.keyed.imp fun h => h.1)
  · exact List.pairwise_map.2 (b.unmanagedLongInventory.keyed.imp fun h => h.1)
  · intro id hid hid'
    obtain ⟨l, hlmem, rfl⟩ := List.mem_map.1 hid
    obtain ⟨u, humem, heq⟩ := List.mem_map.1 hid'
    have hne := liability_ne_unmanaged l.fillId u.coverActivityId
    rw [← hl l hlmem, ← hu u humem] at hne
    exact hne heq.symm

theorem Sound.nodup {b : Books} (h : Sound b) : (b.records.map (·.recordId)).Nodup :=
  nodup_records h.liabilityId h.inventoryId

theorem Sound.resolved_eq_zero {b : Books} (h : Sound b) {id : String}
    (hid : ∀ r ∈ b.records, r.recordId ≠ id) : b.resolved id = 0 := by
  refine Table.sum_eq_zero fun x hx => if_neg fun hx' => ?_
  obtain ⟨r, hr, hrx⟩ := h.recorded x hx
  exact hid r hr (hrx.trans hx')

theorem sound_unquarantined (s : Store) (orders : List OrderRow)
    (unresolved : Table UnresolvedExecution) (generationId : Option String)
    (files : List String) :
    Sound (Books.unquarantined s orders unresolved generationId files) where
  within _ hr := by cases hr
  whole _ he := by cases he
  cash _ he := by cases he
  executed _ hr := by cases hr
  liabilityId _ hl := by cases hl
  inventoryId _ hr := by cases hr
  covered _ hr := by cases hr
  recorded _ hx := by cases hx
  evidence _ he := by cases he

/-! ### Transactions that open records at most -/

/-- A transaction that opens records at most: executions, resolutions and inventory stay, and it adds
to the cash under new keys only. -/
structure Opened (b b' : Books) : Prop where
  executions : b'.quarantineExecutions = b.quarantineExecutions
  resolutions : b'.quarantineResolutions = b.quarantineResolutions
  recognitions : b'.quarantineFeeRecognitions = b.quarantineFeeRecognitions
  inventory : b'.unmanagedLongInventory = b.unmanagedLongInventory
  liabilities : Table.ExtendedBy (fun l => l.liabilityId = "liability:" ++ l.fillId)
    b.store.shortExposureLiabilities b'.store.shortExposureLiabilities
  cash : Table.ExtendedBy (fun c => c.idempotencyKey = c.entryId ∧ b.store.cashLedger.Admits c)
    b.store.cashLedger b'.store.cashLedger

theorem Opened.refl (b : Books) : Opened b b where
  executions := rfl
  resolutions := rfl
  recognitions := rfl
  inventory := rfl
  liabilities := .refl _ _
  cash := .refl _ _

theorem liability_quantity_pos (l : ShortExposureLiability) : 0 < l.quantity :=
  (positiveCheck_fst _ "quantity").1 (l.valid _ (by simp [Checked.checks]))

theorem mem_of_extendedBy {α : Type} [Record α] {P : α → Prop} {t u : Table α}
    (h : Table.ExtendedBy P t u) {a : α} (ha : a ∈ u) : a ∈ t ∨ P a := by
  by_cases hp : P a
  · exact .inr hp
  · exact .inl ((h.mem_iff hp).1 ha)

/-- A record was there before, or it has an id of its own. -/
theorem Opened.records {b b' : Books} (h : Sound b) (ho : Opened b b') {r : OpenRecord}
    (hr : r ∈ b'.records) :
    r ∈ b.records ∨ ((∀ r' ∈ b.records, r'.recordId ≠ r.recordId) ∧ 0 < r.quantity) := by
  rcases mem_records.1 hr with ⟨l, hl, rfl⟩ | ⟨u, hu, rfl⟩
  · by_cases hold : l ∈ b.store.shortExposureLiabilities
    · exact .inl (mem_records.2 (.inl ⟨l, hold, rfl⟩))
    · have hid : l.liabilityId = "liability:" ++ l.fillId :=
        (mem_of_extendedBy ho.liabilities hl).resolve_left hold
      refine .inr ⟨fun r' hr' hsame => ?_, liability_quantity_pos l⟩
      rcases mem_records.1 hr' with ⟨l', hl', rfl⟩ | ⟨u', hu', rfl⟩
      · obtain ⟨added, hrows, -⟩ := ho.liabilities
        have hl'' : l' ∈ b'.store.shortExposureLiabilities := by
          rw [Table.mem_def, hrows]
          exact List.mem_append_left _ hl'
        exact hold (Table.eq_of_recordId hl'' hl hsame ▸ hl')
      · have hne := liability_ne_unmanaged l.fillId u'.coverActivityId
        rw [← hid, ← h.inventoryId u' hu'] at hne
        exact hne hsame.symm
  · rw [ho.inventory] at hu
    exact .inl (mem_records.2 (.inr ⟨u, hu, rfl⟩))

theorem Opened.mem_records {b b' : Books} (ho : Opened b b') {r : OpenRecord}
    (hr : r ∈ b.records) : r ∈ b'.records := by
  obtain ⟨added, hrows, -⟩ := ho.liabilities
  refine Quarantine.mem_records.2 ((Quarantine.mem_records.1 hr).imp ?_ ?_)
  · rintro ⟨l, hl, rfl⟩
    refine ⟨l, ?_, rfl⟩
    rw [Table.mem_def, hrows]
    exact List.mem_append_left _ hl
  · rintro ⟨u, hu, rfl⟩
    exact ⟨u, ho.inventory ▸ hu, rfl⟩

theorem Opened.resolved_eq {b b' : Books} (ho : Opened b b') (id : String) :
    b'.resolved id = b.resolved id := by
  unfold Books.resolved
  rw [ho.resolutions]

/-- A row with one new key is none of an execution whose cash is there. -/
theorem cash_apart {b : Books} {id : String} {c c' : CashLedgerEntry} (hcash : b.cashOf id = [c])
    (hkey : c'.idempotencyKey = c'.entryId) (hadmits : b.store.cashLedger.Admits c') :
    c'.entryId ≠ "fill:cash:" ++ id := by
  intro heq
  have hmem : c ∈ b.cashOf id := hcash ▸ List.mem_singleton_self c
  obtain ⟨hrow, hof⟩ := List.mem_filter.1 hmem
  obtain ⟨hid, hunique⟩ := hadmits c hrow
  have hunique := hunique.resolve_left (by simp [Record.uniqueValue])
  simp only [Record.recordId, Record.uniqueValue, ne_eq, Option.some.injEq, hkey, heq]
    at hid hunique
  exact (of_decide_eq_true hof).elim hid hunique

theorem Opened.cashOf_eq {b b' : Books} (ho : Opened b b') (h : Sound b) {e : QuarantineExecution}
    (he : e ∈ b.quarantineExecutions) : b'.cashOf e.activityId = b.cashOf e.activityId := by
  obtain ⟨c, m, hcash, -, -⟩ := h.cash e he
  unfold Books.cashOf
  refine ho.cash.filter_eq ?_
  rintro c' ⟨hkey, hadmits⟩
  have hne := cash_apart hcash hkey hadmits
  simp [hkey, hne]

/-- **Opening records keeps the invariant.** -/
theorem Sound.opened {b b' : Books} (h : Sound b) (ho : Opened b b') : Sound b' where
  within r hr := by
    rw [ho.resolved_eq]
    rcases ho.records h hr with hold | ⟨hnew, hpos⟩
    · exact h.within r hold
    · rw [h.resolved_eq_zero hnew]
      exact hpos.le
  whole e he := by
    have hwhole := h.whole e (ho.executions ▸ he)
    unfold Books.resolvedBy Books.surplusOf at hwhole ⊢
    rw [ho.resolutions, ho.inventory]
    exact hwhole
  cash e he := by
    rw [ho.executions] at he
    rw [ho.cashOf_eq h he]
    exact h.cash e he
  executed r hr := by
    rw [ho.executions]
    exact h.executed r (ho.resolutions ▸ hr)
  liabilityId l hl := (mem_of_extendedBy ho.liabilities hl).elim (h.liabilityId l) id
  inventoryId r hr := h.inventoryId r (ho.inventory ▸ hr)
  covered r hr := by
    rw [ho.executions]
    exact h.covered r (ho.inventory ▸ hr)
  recorded x hx := by
    obtain ⟨r, hr, hrx⟩ := h.recorded x (ho.resolutions ▸ hx)
    exact ⟨r, ho.mem_records hr, hrx⟩
  evidence e he := by
    rw [ho.executions] at he
    rw [ho.cashOf_eq h he]
    exact h.evidence e he

/-! ### Resolving -/

section Resolving

variable {b b' : Books} {v : VerifiedFill} {e : QuarantineExecution} {now : Instant}

theorem Sound.nodup_open (h : Sound b) (key : String) :
    ((openRecords b key).map (·.recordId)).Nodup := by
  obtain ⟨l, hperm, hsub⟩ := openRecords_ids b key
  exact hperm.nodup_iff.1 (hsub.nodup h.nodup)

/-- What `resolve` takes of each open record. -/
def taken (b : Books) (v : VerifiedFill) (e : QuarantineExecution) : List (OpenRecord × ℚ) :=
  drain (stocks (openRecords b v.assetKey)) e.quantity

theorem stocks_pos (b : Books) (key : String) : ∀ s ∈ stocks (openRecords b key), 0 < s.2 := by
  intro s hs
  obtain ⟨r, hr, rfl⟩ := List.mem_map.1 hs
  obtain ⟨r₀, -, -, hopen, rfl⟩ := mem_openRecords.1 hr
  exact hopen

theorem mem_taken {p : OpenRecord × ℚ} (hp : p ∈ taken b v e) :
    0 < p.2 ∧ p.1 ∈ openRecords b v.assetKey ∧ p.2 ≤ p.1.quantity := by
  obtain ⟨r, t⟩ := p
  obtain ⟨hpos, a, ha, hle⟩ := mem_drain (stocks_pos b v.assetKey) hp
  obtain ⟨r', hr', heq⟩ := List.mem_map.1 ha
  cases heq
  exact ⟨hpos, hr', hle⟩

theorem nodup_taken (h : Sound b) : ((taken b v e).map fun p => p.1.recordId).Nodup := by
  have hprefix := (keys_drain_first (stocks (openRecords b v.assetKey)) e.quantity).map
    (·.recordId)
  rw [List.map_map, stocks, List.map_map, List.map_map] at hprefix
  exact hprefix.sublist.nodup (h.nodup_open v.assetKey)

/-- What `resolve` adds to a sum over the resolutions. -/
theorem Resolved.sum (hr : Resolved b b' v e now) (f : QuarantineResolution → ℚ) :
    b'.quarantineResolutions.sum f = b.quarantineResolutions.sum f +
      ((taken b v e).map fun p => f (resolutionOf e p.1 p.2 now)).sum := by
  unfold Table.sum
  rw [hr.resolutions, List.map_append, List.sum_append, resolutionsOf, List.map_map]
  rfl

theorem Resolved.resolved_eq (hr : Resolved b b' v e now) (id : String) :
    b'.resolved id = b.resolved id +
      ((taken b v e).map fun p => if p.1.recordId = id then p.2 else 0).sum :=
  hr.sum _

theorem Resolved.untouched (hr : Resolved b b' v e now) {id : String}
    (hid : ∀ p ∈ taken b v e, p.1.recordId ≠ id) : b'.resolved id = b.resolved id := by
  rw [hr.resolved_eq, sum_eq_zero_of_forall_ne hid, add_zero]

theorem Resolved.touched (hr : Resolved b b' v e now) (h : Sound b) {p : OpenRecord × ℚ}
    (hp : p ∈ taken b v e) : b'.resolved p.1.recordId = b.resolved p.1.recordId + p.2 := by
  rw [hr.resolved_eq, sum_of_mem (nodup_taken h) hp]

theorem Sound.open_of_id (h : Sound b) {key : String} {r r₀ : OpenRecord}
    (hr : r ∈ openRecords b key) (hr₀ : r₀ ∈ b.records) (hid : r.recordId = r₀.recordId) :
    assetIdentityKey r₀.asset = key ∧ r = { r₀ with quantity := b.openQuantity r₀ } := by
  obtain ⟨r₁, hr₁, hkey, -, rfl⟩ := mem_openRecords.1 hr
  obtain rfl : r₁ = r₀ := List.inj_on_of_nodup_map h.nodup hr₁ hr₀ hid
  exact ⟨hkey, rfl⟩

theorem Resolved.mem_executions (hr : Resolved b b' v e now) {e' : QuarantineExecution} :
    e' ∈ b'.quarantineExecutions ↔ e' ∈ b.quarantineExecutions ∨ e' = e := by
  rw [Table.mem_def, hr.executions, List.mem_append, List.mem_singleton, ← Table.mem_def]

theorem Resolved.isSome_execution (hr : Resolved b b' v e now) {id : String} :
    (b'.quarantineExecutions.get? id).isSome ↔
      (b.quarantineExecutions.get? id).isSome ∨ id = e.activityId := by
  simp only [Option.isSome_iff_exists, Table.get?_eq_some_iff, hr.mem_executions]
  constructor
  · rintro ⟨e', hold | rfl, hid⟩
    · exact .inl ⟨e', hold, hid⟩
    · exact .inr hid.symm
  · rintro (⟨e', hold, hid⟩ | rfl)
    · exact ⟨e', .inl hold, hid⟩
    · exact ⟨e, .inr rfl, rfl⟩

/-- The records after `resolve`: those before it, and the surplus. -/
theorem Resolved.records (hr : Resolved b b' v e now) {r : OpenRecord} (h : r ∈ b'.records) :
    r ∈ b.records ∨ (r.recordId = "unmanaged:" ++ e.activityId ∧ 0 < r.quantity) := by
  rcases mem_records.1 h with ⟨l, hl, rfl⟩ | ⟨u, hu, rfl⟩
  · exact .inl (mem_records.2 (.inl ⟨l, hr.liabilities ▸ hl, rfl⟩))
  · rcases hr.inventory with ⟨-, hsame⟩ | ⟨s, hid, -, hpos, -, hrows⟩
    · exact .inl (mem_records.2 (.inr ⟨u, hsame ▸ hu, rfl⟩))
    · rw [Table.mem_def, hrows] at hu
      rcases List.mem_append.1 hu with hu | hu
      · exact .inl (mem_records.2 (.inr ⟨u, hu, rfl⟩))
      · obtain rfl := List.mem_singleton.1 hu
        exact .inr ⟨hid, hpos⟩

theorem Resolved.mem_records (hr : Resolved b b' v e now) {r : OpenRecord} (h : r ∈ b.records) :
    r ∈ b'.records := by
  refine Quarantine.mem_records.2 ((Quarantine.mem_records.1 h).imp ?_ ?_)
  · rintro ⟨l, hl, rfl⟩
    exact ⟨l, hr.liabilities ▸ hl, rfl⟩
  · rintro ⟨u, hu, rfl⟩
    refine ⟨u, ?_, rfl⟩
    rcases hr.inventory with ⟨-, hsame⟩ | ⟨s, -, -, -, -, hrows⟩
    · exact hsame ▸ hu
    · rw [Table.mem_def, hrows]
      exact List.mem_append_left _ hu

theorem Sound.unmanaged_new (h : Sound b) {id : String}
    (hid : b.quarantineExecutions.get? id = none) :
    ∀ r ∈ b.records, r.recordId ≠ "unmanaged:" ++ id := by
  intro r hr heq
  rcases mem_records.1 hr with ⟨l, hl, rfl⟩ | ⟨u, hu, rfl⟩
  · have hne := liability_ne_unmanaged l.fillId id
    rw [← h.liabilityId l hl] at hne
    exact hne heq
  · have hsame : "unmanaged:" ++ u.coverActivityId = "unmanaged:" ++ id := by
      rw [← h.inventoryId u hu]
      exact heq
    have hsome := h.covered u hu
    rw [(String.append_right_inj _).1 hsame, hid] at hsome
    cases hsome

/-- Nothing is taken of the record of a surplus. -/
theorem Resolved.surplus_open (hr : Resolved b b' v e now) (h : Sound b)
    (hid : e.activityId = v.activityId) : b'.resolved ("unmanaged:" ++ e.activityId) = 0 := by
  have hfresh := h.unmanaged_new (hid ▸ hr.unused)
  have hnone : ∀ p ∈ taken b v e, p.1.recordId ≠ "unmanaged:" ++ e.activityId := by
    intro p hp heq
    obtain ⟨r₀, hr₀, -, -, hp₀⟩ := mem_openRecords.1 (mem_taken hp).2.1
    refine hfresh r₀ hr₀ ?_
    rw [← heq, hp₀]
  rw [hr.untouched hnone, h.resolved_eq_zero hfresh]

/-- Records are resolved within their quantity. -/
theorem Resolved.within (hr : Resolved b b' v e now) (h : Sound b)
    (hid : e.activityId = v.activityId) {r : OpenRecord} (hmem : r ∈ b'.records) :
    b'.resolved r.recordId ≤ r.quantity := by
  rcases hr.records hmem with hold | ⟨hnew, hpos⟩
  · by_cases htouched : ∃ p ∈ taken b v e, p.1.recordId = r.recordId
    · obtain ⟨p, hp, hpid⟩ := htouched
      obtain ⟨-, hopen, hle⟩ := mem_taken hp
      have hsum := hr.touched h hp
      obtain ⟨-, heq⟩ := h.open_of_id hopen hold hpid
      have hquantity : p.1.quantity = r.quantity - b.resolved r.recordId := by
        rw [heq]
        rfl
      rw [hpid] at hsum
      rw [hsum]
      linarith
    · push Not at htouched
      rw [hr.untouched htouched]
      exact h.within r hold
  · rw [hnew, hr.surplus_open h hid]
    exact hpos.le

/-- The execution is spent on its resolutions and its surplus. -/
theorem Resolved.whole_new (hr : Resolved b b' v e now) (h : Sound b)
    (hid : e.activityId = v.activityId) (hquantity : 0 < e.quantity) :
    b'.resolvedBy e.activityId + b'.surplusOf e.activityId = e.quantity := by
  have hresolved : b'.resolvedBy e.activityId = ((taken b v e).map Prod.snd).sum := by
    have hnone : b.resolvedBy e.activityId = 0 :=
      Table.sum_eq_zero fun x hx => if_neg (hid ▸ hr.unresolved x hx)
    have hsum := hr.sum fun x => if x.activityId = e.activityId then x.quantity else 0
    have hall : ((taken b v e).map fun p =>
        if (resolutionOf e p.1 p.2 now).activityId = e.activityId
        then (resolutionOf e p.1 p.2 now).quantity else 0) = (taken b v e).map Prod.snd :=
      List.map_congr_left fun p _ => if_pos rfl
    rw [hall] at hsum
    exact hsum.trans (by rw [← Books.resolvedBy, hnone, zero_add])
  have hold : ∀ u ∈ b.unmanagedLongInventory, u.coverActivityId ≠ e.activityId := by
    intro u hu heq
    have hsome := h.covered u hu
    rw [heq, hid, hr.unused] at hsome
    cases hsome
  have hzero : b.surplusOf e.activityId = 0 :=
    Table.sum_eq_zero fun u hu => if_neg (hold u hu)
  have hconserved := sum_drain_add_leftover (stocks (openRecords b v.assetKey)) e.quantity
  rw [hresolved]
  rcases hr.inventory with ⟨hle, hsame⟩ | ⟨s, -, hcover, -, hs, hrows⟩
  · have hleft : leftover (stocks (openRecords b v.assetKey)) e.quantity = 0 :=
      le_antisymm hle (leftover_nonneg hquantity.le)
    rw [hleft] at hconserved
    unfold Books.surplusOf at hzero ⊢
    rw [hsame, hzero]
    exact hconserved
  · have hsurplus : b'.surplusOf e.activityId = s.quantity := by
      unfold Books.surplusOf Table.sum at hzero ⊢
      rw [hrows, List.map_append, List.sum_append, hzero]
      simp [hcover]
    rw [hsurplus, hs]
    exact hconserved

/-- What another execution was spent on is as it was. -/
theorem Resolved.whole_old (hr : Resolved b b' v e now) {e' : QuarantineExecution}
    (hne : e'.activityId ≠ e.activityId) :
    b'.resolvedBy e'.activityId = b.resolvedBy e'.activityId ∧
      b'.surplusOf e'.activityId = b.surplusOf e'.activityId := by
  constructor
  · have hsum := hr.sum fun x => if x.activityId = e'.activityId then x.quantity else 0
    have hnone : ((taken b v e).map fun p =>
        if (resolutionOf e p.1 p.2 now).activityId = e'.activityId
        then (resolutionOf e p.1 p.2 now).quantity else 0).sum = 0 := by
      refine List.sum_eq_zero fun y hy => ?_
      obtain ⟨p, -, rfl⟩ := List.mem_map.1 hy
      exact if_neg hne.symm
    rw [hnone, add_zero] at hsum
    exact hsum
  · unfold Books.surplusOf
    rcases hr.inventory with ⟨-, hsame⟩ | ⟨s, -, hcover, -, -, hrows⟩
    · rw [hsame]
    · unfold Table.sum
      rw [hrows, List.map_append, List.sum_append]
      simp [hcover, hne.symm]

/-- The cash entries: one more for the execution, and nothing for any other. -/
theorem Resolved.cash_eq (hr : Resolved b b' v e now) :
    (∃ c, executionCash e = .ok c ∧ b'.cashOf e.activityId = [c]) ∧
      ∀ id, id ≠ e.activityId → b'.cashOf id = b.cashOf id := by
  obtain ⟨c, hc, hadmits, hledger⟩ := hr.cash
  obtain ⟨m, -, hc'⟩ := except_bind_eq_ok.1 hc
  have hrows : b'.store.cashLedger.rows = b.store.cashLedger.rows ++ [c] := by
    rw [hledger, Table.rows_createOnce hadmits]
  have hentry : c.entryId = "fill:cash:" ++ e.activityId := by cases hc'; rfl
  have hkey : c.idempotencyKey = "fill:cash:" ++ e.activityId := by cases hc'; rfl
  constructor
  · refine ⟨c, hc, ?_⟩
    unfold Books.cashOf
    rw [hrows, List.filter_append, List.filter_eq_nil_iff.2, List.nil_append]
    · simp [hentry]
    · intro a ha
      obtain ⟨hid, hunique⟩ := hadmits a ha
      have hunique := hunique.resolve_left (by simp [Record.uniqueValue])
      simp only [Record.recordId, Record.uniqueValue, hentry, hkey, ne_eq, Option.some.injEq]
        at hid hunique
      simp [hid, hunique]
  · intro id hne
    unfold Books.cashOf
    rw [hrows, List.filter_append, List.filter_cons_of_neg, List.filter_nil, List.append_nil]
    simp [hentry, hkey, String.append_right_inj, hne.symm]

/-- **Resolving keeps the invariant.** -/
theorem Sound.resolved (h : Sound b) (hr : Resolved b b' v e now)
    (hid : e.activityId = v.activityId) (hquantity : 0 < e.quantity) : Sound b' := by
  have hother : ∀ e' ∈ b.quarantineExecutions, e'.activityId ≠ e.activityId := by
    intro e' he' heq
    exact Table.get?_eq_none_iff.1 hr.unused e' he' (heq.trans hid)
  -- an activity that is used up is refused, so its execution is new
  refine { within := fun r hmem => hr.within h hid hmem, whole := ?_, cash := ?_,
           executed := ?_, liabilityId := ?_, inventoryId := ?_, covered := ?_, recorded := ?_,
           evidence := ?_ }
  · intro e' he'
    rcases hr.mem_executions.1 he' with hold | rfl
    · obtain ⟨hresolved, hsurplus⟩ := hr.whole_old (hother e' hold)
      rw [hresolved, hsurplus]
      exact h.whole e' hold
    · exact hr.whole_new h hid hquantity
  · intro e' he'
    rcases hr.mem_executions.1 he' with hold | rfl
    · rw [hr.cash_eq.2 _ (hother e' hold)]
      exact h.cash e' hold
    · obtain ⟨c, hc, hcash⟩ := hr.cash_eq.1
      obtain ⟨m, hm, hc⟩ := except_bind_eq_ok.1 hc
      refine ⟨c, m, hcash, hm, ?_⟩
      cases hc
      split <;> simp
  · intro x hx
    rw [hr.isSome_execution]
    rw [Table.mem_def, hr.resolutions] at hx
    rcases List.mem_append.1 hx with hx | hx
    · exact .inl (h.executed x hx)
    · obtain ⟨p, -, rfl⟩ := List.mem_map.1 hx
      exact .inr rfl
  · intro l hl
    exact h.liabilityId l (hr.liabilities ▸ hl)
  · intro u hu
    rcases hr.inventory with ⟨-, hsame⟩ | ⟨s, hs, hcover, -, -, hrows⟩
    · exact h.inventoryId u (hsame ▸ hu)
    · rw [Table.mem_def, hrows] at hu
      rcases List.mem_append.1 hu with hu | hu
      · exact h.inventoryId u hu
      · obtain rfl := List.mem_singleton.1 hu
        rw [hs, hcover]
  · intro u hu
    rw [hr.isSome_execution]
    rcases hr.inventory with ⟨-, hsame⟩ | ⟨s, -, hcover, -, -, hrows⟩
    · exact .inl (h.covered u (hsame ▸ hu))
    · rw [Table.mem_def, hrows] at hu
      rcases List.mem_append.1 hu with hu | hu
      · exact .inl (h.covered u hu)
      · obtain rfl := List.mem_singleton.1 hu
        exact .inr hcover
  · intro x hx
    rw [Table.mem_def, hr.resolutions] at hx
    rcases List.mem_append.1 hx with hx | hx
    · obtain ⟨r, hmem, hrx⟩ := h.recorded x hx
      exact ⟨r, hr.mem_records hmem, hrx⟩
    · obtain ⟨p, hp, rfl⟩ := List.mem_map.1 hx
      obtain ⟨r₀, hr₀, -, -, hp₀⟩ := mem_openRecords.1 (mem_taken hp).2.1
      exact ⟨r₀, hr.mem_records hr₀, by rw [resolutionOf, hp₀]⟩
  · intro e' he' c' hc'
    rcases hr.mem_executions.1 he' with hold | rfl
    · exact h.evidence e' hold c' (hr.cash_eq.2 _ (hother e' hold) ▸ hc')
    · obtain ⟨c, hc, hcash⟩ := hr.cash_eq.1
      obtain rfl : c' = c := List.mem_singleton.1 (hcash ▸ hc')
      exact hc

/-! ### Steps -/

/-- **The oldest records first.** -/
theorem oldestFirst_of_resolved (h : Sound b) (hr : Resolved b b' v e now) : OldestFirst b b' := by
  intro key r hmem r' hmem' hle hne hchanged
  obtain ⟨p, hp, hpid⟩ : ∃ p ∈ taken b v e, p.1.recordId = r'.recordId := by
    by_contra hnone
    push Not at hnone
    exact hchanged (hr.untouched hnone)
  -- the record that was touched is of the instrument of the execution
  obtain ⟨r₀, hr₀, hkey, -, hr₀'⟩ := mem_openRecords.1 hmem'
  obtain ⟨hkey', hp₀⟩ := h.open_of_id (mem_taken hp).2.1 hr₀ (by rw [hpid, hr₀'])
  obtain rfl : p.1 = r' := hp₀.trans hr₀'.symm
  obtain rfl : key = v.assetKey := hkey.symm.trans hkey'
  -- of two open records one comes first, and only then it is taken whole
  let Before (x y : OpenRecord) : Prop :=
    NotAfter x y ∧ (y ∈ (taken b v e).map Prod.fst → (x, x.quantity) ∈ taken b v e)
  have hordered : (openRecords b v.assetKey).Pairwise Before := by
    have hkeys : ((stocks (openRecords b v.assetKey)).map Prod.fst).Nodup := by
      rw [stocks, List.map_map]
      exact (List.Nodup.of_map _ (h.nodup_open v.assetKey)).map fun _ _ heq => heq
    exact (openRecords_sorted b v.assetKey).and
      (List.pairwise_map.1 (drain_in_order hkeys e.quantity))
  have hsymm : Std.Symm fun x y => Before x y ∨ Before y x := ⟨fun _ _ => Or.symm⟩
  have heither : (openRecords b v.assetKey).Pairwise fun x y => Before x y ∨ Before y x :=
    hordered.imp Or.inl
  rcases heither.forall hmem hmem' hne with hbefore | hbefore
  · exact hr.touched h (hbefore.2 (List.mem_map_of_mem hp))
  · have hids : r.recordId = p.1.recordId := by
      rcases hle with hlt | ⟨htime, hid⟩
      · rcases hbefore.1 with hlt' | ⟨htime', -⟩
        · exact absurd (hlt.trans hlt') (lt_irrefl _)
        · exact absurd (htime' ▸ hlt) (lt_irrefl _)
      · rcases hbefore.1 with hlt' | ⟨-, hid'⟩
        · exact absurd (htime ▸ hlt') (lt_irrefl _)
        · exact le_antisymm hid hid'
    exact absurd (List.inj_on_of_nodup_map (h.nodup_open v.assetKey) hmem hmem' hids) hne

theorem usedOnce_of_resolved (hr : Resolved b b' v e now) (hid : e.activityId = v.activityId) :
    UsedOnce b b' := by
  refine ⟨fun e' he' => hr.mem_executions.2 (.inl he'), fun x hx => ?_, fun x hx hnew => ?_⟩
  · rw [Table.mem_def, hr.resolutions]
    exact List.mem_append_left _ hx
  · rw [Table.mem_def, hr.resolutions] at hx
    rcases List.mem_append.1 hx with hx | hx
    · exact absurd hx hnew
    · obtain ⟨p, hp, rfl⟩ := List.mem_map.1 hx
      obtain ⟨r₀, hr₀, -, hopen, hp₀⟩ := mem_openRecords.1 (mem_taken hp).2.1
      refine ⟨?_, r₀, hr₀, by rw [resolutionOf, hp₀], hopen⟩
      rw [show (resolutionOf e p.1 p.2 now).activityId = v.activityId from hid]
      exact hr.unused

end Resolving

theorem Opened.oldestFirst {b b' : Books} (ho : Opened b b') : OldestFirst b b' :=
  fun _ _ _ r' _ _ _ hchanged => absurd (ho.resolved_eq r'.recordId) hchanged

theorem Opened.usedOnce {b b' : Books} (ho : Opened b b') : UsedOnce b b' := by
  refine ⟨fun e he => ho.executions ▸ he, fun x hx => ho.resolutions ▸ hx, fun x hx hnew => ?_⟩
  rw [ho.resolutions] at hx
  exact absurd hx hnew

/-! ### What the transactions do -/

/-- What is known of a transaction from the program that performs it. -/
def Suits : Settlement.Op ⊕ Op → Prop
  | .inl (.createLiability l) => l.liabilityId = "liability:" ++ l.fillId
  | .inr (.resolve v e _) => e.activityId = v.activityId ∧ 0 < e.quantity
  | .inr (.adopt _ _ l _ _ _) => l.liabilityId = "liability:" ++ l.fillId
  | _ => True

/-- The cash row that a projection adds has one new key. -/
theorem project_cash {s s' : Store} {event : SettlementEvent} {cash trade write : Bool}
    (h : project s event cash trade write = .ok s') :
    Table.ExtendedBy (fun c => c.idempotencyKey = c.entryId ∧ s.cashLedger.Admits c)
      s.cashLedger s'.cashLedger := by
  unfold project at h
  obtain ⟨-, -, h⟩ := except_bind_eq_ok.1 h
  obtain ⟨t, ht, h⟩ := except_bind_eq_ok.1 h
  have hsame : s'.cashLedger = t.cashLedger := by
    cases trade with
    | false =>
        cases h
        rfl
    | true =>
        obtain ⟨items, -, h⟩ := except_bind_eq_ok.1 h
        obtain ⟨table, -, h⟩ := except_bind_eq_ok.1 h
        obtain ⟨-, -, h⟩ := except_bind_eq_ok.1 h
        cases h
        rfl
  rw [hsame]
  cases cash with
  | false =>
      cases ht
      exact .refl _ _
  | true =>
      obtain ⟨item, hitem, ht⟩ := except_bind_eq_ok.1 ht
      obtain ⟨table, htable, ht⟩ := except_bind_eq_ok.1 ht
      cases ht
      obtain ⟨fill, -, hitem⟩ := except_bind_eq_ok.1 hitem
      obtain ⟨m, -, hitem⟩ := except_bind_eq_ok.1 hitem
      unfold persist at htable
      split at htable
      · split at htable <;> cases htable
        exact .refl _ _
      · split at htable
        · cases htable
        · split at htable
          · rename_i hadmits
            cases htable
            refine .createOnce _ ⟨?_, hadmits⟩
            cases hitem
            rfl
          · cases htable

/-- A transaction of the settlement processor opens records at most. -/
theorem settlementExec_opened {o : Settlement.Op} {i : Settlement.Outside} {b b' : Books}
    {r : o.Res} (ho : Suits (.inl o)) (hx : settlementExec o i b = .ok (r, b')) :
    Opened b b' := by
  unfold settlementExec at hx
  cases hs : Settlement.exec o i b.store with
  | error e =>
      rw [hs] at hx
      cases hx
  | ok p =>
      obtain ⟨r', s'⟩ := p
      rw [hs] at hx
      cases hx
      refine ⟨rfl, rfl, rfl, rfl, ?_, ?_⟩
      · by_cases howes : o.writes = some .liabilities
        · cases o with
          | createLiability l =>
              cases hs
              exact .createOnce _ ho
          | _ => simp [Settlement.Op.writes] at howes
        · have hsame : s'.shortExposureLiabilities = b.store.shortExposureLiabilities :=
            Settlement.exec_frame hs .liabilities howes
          show Table.ExtendedBy _ _ s'.shortExposureLiabilities
          rw [hsame]
          exact .refl _ _
      · by_cases hcash : o.writes = some .accounting
        · cases o with
          | projectAccounting event cash trade =>
              simp only [Settlement.exec] at hs
              obtain ⟨t, ht, hs⟩ := except_bind_eq_ok.1 hs
              cases hs
              exact project_cash ht
          | _ => simp [Settlement.Op.writes] at hcash
        · have hsame : s'.cashLedger = b.store.cashLedger :=
            (Settlement.exec_frame hs .accounting hcash).1
          show Table.ExtendedBy _ _ s'.cashLedger
          rw [hsame]
          exact .refl _ _

/-- `adopt-legacy-lot` opens a record, and leaves fills and intents alone. -/
theorem adopt_opened {lotId activityId digest : String} {seen : PositionLot}
    {liability : ShortExposureLiability} {now : Instant} {b b' : Books} {r : Unit}
    (hid : liability.liabilityId = "liability:" ++ liability.fillId)
    (hx : adopt lotId seen liability activityId digest now b = .ok (r, b')) :
    Opened b b' ∧ b'.store.fills = b.store.fills ∧
      b'.store.tradeIntents = b.store.tradeIntents := by
  unfold adopt at hx
  obtain ⟨⟨current, fill⟩, -, hx⟩ := except_bind_eq_ok.1 hx
  obtain ⟨_, -, hx⟩ := except_bind_eq_ok.1 hx
  obtain ⟨_, -, hx⟩ := except_bind_eq_ok.1 hx
  obtain ⟨liabilities, hl, hx⟩ := except_bind_eq_ok.1 hx
  obtain ⟨auditEvents, -, hx⟩ := except_bind_eq_ok.1 hx
  cases hx
  obtain ⟨-, rfl⟩ := insertRow_eq_ok_iff.1 hl
  exact ⟨⟨rfl, rfl, rfl, rfl, .createOnce _ hid, .refl _ _⟩, rfl, rfl⟩

/-- Allocations are all that `insert_allocations` adds. -/
theorem insertAllocations_ok {shares : List QuarantineFeeAllocation} {b b' : Books}
    (h : insertAllocations b shares = .ok b') :
    b' = { b with quarantineFeeAllocations := b'.quarantineFeeAllocations } := by
  unfold insertAllocations at h
  induction shares generalizing b with
  | nil =>
      cases h
      rfl
  | cons share shares ih =>
      rw [List.foldlM_cons] at h
      obtain ⟨b₁, h₁, h⟩ := except_bind_eq_ok.1 h
      have hone : b₁ = { b with quarantineFeeAllocations := b₁.quarantineFeeAllocations } := by
        unfold insertAllocation at h₁
        split at h₁
        · cases h₁
          rfl
        · split at h₁
          · split at h₁ <;> cases h₁
            rfl
          · obtain ⟨t, -, h₁⟩ := except_bind_eq_ok.1 h₁
            cases h₁
            rfl
      have hrest := ih h
      rw [hone] at hrest
      exact hrest

/-- The operations that only ask. -/
def Op.Reads : Op → Prop
  | .verifyLease | .getActivities _ | .preflight _ | .loadLot _ => True
  | .resolve _ _ _ | .adopt _ _ _ _ _ _ | .insertAllocations _ => False

theorem exec_reads {o : Op} (ho : o.Reads) {i : Outside} {b b' : Books} {r : o.Res}
    (hx : exec o i b = .ok (r, b')) : b' = b := by
  cases o with
  | verifyLease =>
      simp only [exec] at hx
      split at hx <;> cases hx
      rfl
  | getActivities since =>
      cases hx
      rfl
  | preflight v =>
      simp only [exec] at hx
      cases hpre : preflight b v <;> rw [hpre] at hx <;> cases hx
      rfl
  | loadLot lotId =>
      simp only [exec] at hx
      cases hload : loadLot b lotId <;> rw [hload] at hx <;> cases hx
      rfl
  | resolve v e now => cases ho
  | adopt lotId seen liability activityId digest now => cases ho
  | insertAllocations shares => cases ho

/-- The activity that an operation takes as an execution. -/
def activityTaken : Op → Option VerifiedFill
  | .resolve v _ _ => some v
  | _ => none

/-- **What a transaction of a command does**: it opens records at most, or it resolves. -/
theorem exec_cases {o : Op} {i : Outside} {b b' : Books} {r : o.Res} (ho : Suits (.inr o))
    (hx : exec o i b = .ok (r, b')) :
    (Opened b b' ∧ b'.store.fills = b.store.fills ∧
        b'.store.tradeIntents = b.store.tradeIntents) ∨
      ∃ v e now, activityTaken o = some v ∧ e.activityId = v.activityId ∧ 0 < e.quantity ∧
        Resolved b b' v e now := by
  have read : o.Reads → Opened b b' ∧ b'.store.fills = b.store.fills ∧
      b'.store.tradeIntents = b.store.tradeIntents := fun hreads => by
    rw [exec_reads hreads hx]
    exact ⟨.refl b, rfl, rfl⟩
  cases o with
  | resolve v e now => exact .inr ⟨v, e, now, rfl, ho.1, ho.2, resolve_ok hx⟩
  | adopt lotId seen liability activityId digest now => exact .inl (adopt_opened ho hx)
  | insertAllocations shares =>
      simp only [exec] at hx
      cases hins : insertAllocations b shares with
      | error e =>
          rw [hins] at hx
          cases hx
      | ok b₁ =>
          rw [hins] at hx
          cases hx
          rw [insertAllocations_ok hins]
          exact .inl ⟨⟨rfl, rfl, rfl, rfl, .refl _ _, .refl _ _⟩, rfl, rfl⟩
  | _ => exact .inl (read trivial)

/-- What the rest of the program does opens records at most. -/
theorem external_opened {t : External} {b b' : Books} (ht : external t b = some b') :
    Opened b b' := by
  cases t <;> cases ht <;> exact ⟨rfl, rfl, rfl, rfl, .refl _ _, .refl _ _⟩

/-! ### What the calls use -/

theorem uses_processPending (args : Settlement.PassArgs) :
    (Settlement.processPending args).Uses fun o => Suits (.inl o) := by
  have notOwed : ∀ o : Settlement.Op, o.writes ≠ some .liabilities → Suits (.inl o) := by
    intro o ho
    cases o with
    | createLiability l => exact absurd rfl ho
    | _ => trivial
  refine Settlement.uses_processPending (fun o ho => notOwed o (by rw [ho]; simp))
    (fun o ho => notOwed o (by rw [ho]; simp)) (fun _ _ => trivial) (fun st state => ?_) args
  by_cases hst : st = .projectLot
  · subst hst
    have reads : ∀ {α : Type} {p : Settlement.Settle α} {parts : List Part},
        Part.liabilities ∉ parts → p.Uses (Settlement.Op.WritesIn parts) →
          p.Uses fun o => Suits (.inl o) := fun hparts hp =>
      hp.mono fun o ho => notOwed o fun hw => hparts (ho _ hw)
    refine Prog.Uses.bind (fun lots => ?_)
      (reads List.not_mem_nil (Settlement.uses_unconvertedLots _ _))
    refine Prog.Uses.bind (fun plan => ?_) (Prog.uses_ofExcept _)
    refine Prog.Uses.bind (fun _ => ?_) (Prog.uses_ofExcept _)
    refine Prog.Uses.bind (fun _ => ?_) (Prog.Uses.forEach fun closure _ =>
      Prog.Uses.bind (fun _ => Prog.uses_done _) ((Prog.uses_perform _).2 trivial))
    refine Prog.Uses.bind (fun _ => Prog.uses_done _) ?_
    unfold Settlement.openPosition
    split
    · split
      · refine Prog.Uses.ofExcept_bind fun l hl => ?_
        refine Prog.Uses.bind (fun _ => Prog.uses_done _) ((Prog.uses_perform _).2 ?_)
        obtain ⟨_, -, hl⟩ := except_bind_eq_ok.1 hl
        obtain ⟨m, -, hl⟩ := except_bind_eq_ok.1 hl
        have hfields := ShortExposureLiability.make_eq_ok_iff.1 hl
        show l.liabilityId = "liability:" ++ l.fillId
        rw [hfields]
      · split
        · exact reads (by decide) (Settlement.uses_mixedLotOrigin state)
        · refine Prog.Uses.bind (fun _ => ?_) ((Prog.uses_perform _).2 trivial)
          refine Prog.Uses.bind (fun _ => ?_) (Prog.uses_ofExcept _)
          exact Prog.Uses.bind (fun _ => Prog.uses_done _) ((Prog.uses_perform _).2 trivial)
    · exact Prog.uses_done _
  · have hparts : Part.liabilities ∉ Settlement.stageWrites st :=
      Settlement.notMem_stageWrites hst _ (by decide)
    exact (Settlement.uses_handlers st state).mono fun o ho =>
      notOwed o fun hw => hparts (ho _ hw)

/-- A command resolves with the execution of the activity it verified, and adopts with a liability
under its own id. -/
theorem uses_program (c : Call) : c.program.Uses fun o => Suits (.inr o) := by
  have one : ∀ {o : Op}, Suits (.inr o) → (perform o).Uses fun o => Suits (.inr o) :=
    fun {o} h => (Prog.uses_perform o).2 h
  cases c with
  | resolve activityId reason now =>
      refine Prog.Uses.bind (fun _ => Prog.uses_done _) ?_
      refine Prog.Uses.bind (fun _ => ?_) (Prog.uses_ofExcept _)
      refine Prog.Uses.bind (fun _ => ?_) (one trivial)
      refine Prog.Uses.bind (fun activities => ?_) (one trivial)
      refine Prog.Uses.bind (fun activity => ?_) (Prog.uses_ofExcept _)
      refine Prog.Uses.bind (fun v => ?_) (Prog.uses_ofExcept _)
      refine Prog.Uses.bind (fun r => ?_) (one trivial)
      refine Prog.Uses.bind (fun since => ?_) (one trivial)
      refine Prog.Uses.bind (fun blocked => ?_) (Prog.uses_ofExcept _)
      split
      · exact Prog.uses_fail _
      · exact Prog.uses_fail _
      · refine Prog.Uses.bind (fun _ => ?_) (one trivial)
        refine Prog.Uses.ofExcept_bind fun e he => one ?_
        obtain rfl := checkRecord_ok he
        exact ⟨rfl, v.qty_pos⟩
  | adoptLegacyLot lotId reason now =>
      refine Prog.Uses.bind (fun _ => ?_) (Prog.uses_ofExcept _)
      refine Prog.Uses.bind (fun _ => ?_) (one trivial)
      refine Prog.Uses.bind (fun r => ?_) (one trivial)
      dsimp only
      split
      · exact Prog.uses_fail _
      · refine Prog.Uses.bind (fun _ => ?_) (Prog.uses_ofExcept _)
        refine Prog.Uses.bind (fun activities => ?_) (one trivial)
        split
        · refine Prog.Uses.bind (fun _ => ?_) (Prog.uses_ofExcept _)
          refine Prog.Uses.bind (fun _ => ?_) (one trivial)
          refine Prog.Uses.ofExcept_bind fun l hl => one ?_
          obtain ⟨m, -, hl⟩ := except_bind_eq_ok.1 hl
          have hfields := ShortExposureLiability.make_eq_ok_iff.1 hl
          show l.liabilityId = "liability:" ++ l.fillId
          rw [hfields]
        · exact Prog.uses_fail _
  | recordAllocations shares => exact one trivial

theorem commitsLast_program (c : Call) : c.program.CommitsLast exec := by
  have read : ∀ {o : Op} {α : Type} {f : o.Res → Command α}, o.Reads →
      (∀ r, (f r).CommitsLast exec) → ((perform o).bind f).CommitsLast exec := fun ho hf =>
    .read (fun _ _ _ _ hx => exec_reads ho hx) hf
  cases c with
  | resolve activityId reason now =>
      refine Prog.CommitsLast.map _ ?_
      refine Prog.CommitsLast.ofExcept fun _ _ => ?_
      refine read trivial fun _ => ?_
      refine read trivial fun _ => ?_
      refine Prog.CommitsLast.ofExcept fun _ _ => ?_
      refine Prog.CommitsLast.ofExcept fun v _ => ?_
      refine read trivial fun r => ?_
      refine read trivial fun _ => ?_
      refine Prog.CommitsLast.ofExcept fun _ _ => ?_
      split
      · trivial
      · trivial
      · refine read trivial fun _ => ?_
        exact Prog.CommitsLast.ofExcept fun _ _ => .last _
  | adoptLegacyLot lotId reason now =>
      refine Prog.CommitsLast.ofExcept fun _ _ => ?_
      refine read trivial fun _ => ?_
      refine read trivial fun r => ?_
      dsimp only
      split
      · trivial
      · refine Prog.CommitsLast.ofExcept fun _ _ => ?_
        refine read trivial fun _ => ?_
        split
        · refine Prog.CommitsLast.ofExcept fun _ _ => ?_
          refine read trivial fun _ => ?_
          exact Prog.CommitsLast.ofExcept fun _ _ => .last _
        · trivial
  | recordAllocations shares => exact .last _

/-! ### Side by side -/

/-- The invariant as everybody keeps it: what a step does besides is said of the step alone. -/
def keeping : Setting Books (Settlement.Outside × Outside) Raised
    (ResPar Settlement.Op.Res Op.Res) where
  exec := system.exec
  inv := Sound
  rely _ _ := True
  cond _ _ _ := True
  guar _ b b' := OldestFirst b b' ∧ UsedOnce b b'

/-- **A transaction, whoever performs it.** -/
theorem Sound.exec {o : Settlement.Op ⊕ Op} {i : Settlement.Outside × Outside} {b b' : Books}
    {r : ResPar Settlement.Op.Res Op.Res o} (h : Sound b) (ho : Suits o)
    (hx : system.exec o i b = .ok (r, b')) : Sound b' ∧ OldestFirst b b' ∧ UsedOnce b b' := by
  have opened : Opened b b' → Sound b' ∧ OldestFirst b b' ∧ UsedOnce b b' := fun hopened =>
    ⟨h.opened hopened, hopened.oldestFirst, hopened.usedOnce⟩
  cases o with
  | inl o => exact opened (settlementExec_opened ho hx)
  | inr o =>
      rcases exec_cases ho hx with ⟨hopened, -, -⟩ | ⟨v, e, now, -, hid, hquantity, hr⟩
      · exact opened hopened
      · exact ⟨h.resolved hr hid hquantity, oldestFirst_of_resolved h hr, usedOnce_of_resolved hr hid⟩

theorem uses_call (c : Settlement.PassArgs ⊕ Call) : (system.call c).Uses Suits := by
  cases c with
  | inl args =>
      refine Prog.Uses.lift ?_
      exact Prog.Uses.bind (fun _ => Prog.uses_done _) (uses_processPending args)
  | inr c => exact Prog.Uses.lift (uses_program c)

theorem sound_keeping : Pool.Sound system keeping where
  exec := rfl
  guar _ _ _ _ _ _ := trivial
  env t b b' h ht := by
    cases t with
    | inl t => cases t
    | inr t => exact ⟨h.opened (external_opened ht), trivial⟩
  call c b _ := by
    refine ⟨fun _ => True, .const True, trivial, ?_⟩
    refine (Sat.of_uses (.const True) (fun o i s r s' ho hs _ _ hx => ?_) (uses_call c)).mono
      (fun _ _ h => h) (fun _ _ _ _ => trivial) fun _ _ _ _ => trivial
    obtain ⟨hsound, hstep⟩ := hs.exec ho hx
    exact ⟨hsound, hstep, trivial⟩

/-! ### Executions and fills -/

section Exclusivity

variable (orderOf : String → String)

/-- The broker gives an activity one order.  The intent has the order of no execution. -/
def OfNoExecution (b : Books) (intent : TradeIntent) : Prop :=
  ∀ e ∈ b.quarantineExecutions.rows, orderOf e.activityId ≠ "" →
    intent.brokerOrderId ≠ some (orderOf e.activityId)

instance (b : Books) (intent : TradeIntent) : Decidable (OfNoExecution orderOf b intent) :=
  inferInstanceAs (Decidable (∀ e ∈ _, _ → _))

/-- No activity is a fill and an execution, nor is there an intent for the order of an execution. -/
structure Unclaimed (b : Books) : Prop where
  exclusive : Exclusive b
  intents : ∀ i ∈ b.store.tradeIntents, OfNoExecution orderOf b i

/-- The intent that an operation of the processor writes. -/
def intentWritten : Settlement.Op → Option TradeIntent
  | .updateTradeIntent intent _ => some intent
  | _ => none

/-- An intent that is written has the order of no execution, and the activity that is taken has its
own order. -/
def Ordered : Settlement.Op ⊕ Op → Settlement.Outside × Outside → Books → Prop
  | .inl o, _, b => ∀ intent ∈ intentWritten o, OfNoExecution orderOf b intent
  | .inr o, _, _ => ∀ v ∈ activityTaken o, v.orderId = orderOf v.activityId

instance : ∀ o i b, Decidable (Ordered orderOf o i b)
  | .inl _, _, _ => inferInstanceAs (Decidable (∀ intent ∈ _, _))
  | .inr _, _, _ => inferInstanceAs (Decidable (∀ v ∈ _, _))

/-- The same outside: a fill is recorded under the id of its activity, for the order of an intent on
record. -/
def OrderedOutside : Empty ⊕ External → Books → Prop
  | .inr (.recordFill fill), b =>
      fill.brokerFillId = some fill.fillId ∧ fill.orderId = orderOf fill.fillId ∧
        ∃ intent ∈ b.store.tradeIntents.rows, intent.brokerOrderId = some fill.orderId
  | .inr (.storeIntent intent), b => OfNoExecution orderOf b intent
  | .inr (.elsewhere _ _ _ _), _ => True
  | .inl _, _ => True

instance : ∀ t b, Decidable (OrderedOutside orderOf t b)
  | .inr (.recordFill _), _ => inferInstanceAs (Decidable (_ ∧ _ ∧ ∃ intent ∈ _, _))
  | .inr (.storeIntent _), _ => inferInstanceAs (Decidable (OfNoExecution _ _ _))
  | .inr (.elsewhere _ _ _ _), _ => isTrue trivial
  | .inl _, _ => isTrue trivial

variable {orderOf} {b b' : Books}

theorem unclaimed_unquarantined (s : Store) (orders : List OrderRow)
    (unresolved : Table UnresolvedExecution) (generationId : Option String)
    (files : List String) :
    Unclaimed orderOf (Books.unquarantined s orders unresolved generationId files) where
  exclusive _ he := by cases he
  intents _ _ _ he := by cases he

/-- Where executions and fills stay, only the intents that are new matter. -/
theorem Unclaimed.kept (h : Unclaimed orderOf b)
    (hexecutions : b'.quarantineExecutions = b.quarantineExecutions)
    (hfills : b'.store.fills = b.store.fills)
    (hintents : ∀ i ∈ b'.store.tradeIntents, i ∈ b.store.tradeIntents ∨ OfNoExecution orderOf b i) :
    Unclaimed orderOf b' where
  exclusive e he f hf := h.exclusive e (hexecutions ▸ he) f (hfills ▸ hf)
  intents i hi e he := by
    rw [hexecutions] at he
    exact (hintents i hi).elim (fun hold => h.intents i hold e he) fun hnew => hnew e he

/-- **An activity is taken**: its id is that of no fill, and its order that of no intent. -/
theorem Unclaimed.resolved {v : VerifiedFill} {e : QuarantineExecution} {now : Instant}
    (h : Unclaimed orderOf b) (hr : Resolved b b' v e now) (hid : e.activityId = v.activityId)
    (horder : v.orderId = orderOf v.activityId) : Unclaimed orderOf b' where
  exclusive e' he' f hf := by
    rw [hr.fills] at hf
    rcases hr.mem_executions.1 he' with hold | rfl
    · exact h.exclusive e' hold f hf
    · exact hid ▸ hr.notFill f hf
  intents i hi e' he' := by
    rw [hr.intents] at hi
    rcases hr.mem_executions.1 he' with hold | rfl
    · exact h.intents i hi e' hold
    · rw [hid, ← horder]
      exact fun hne => hr.noIntent hne i hi

/-- **A fill is recorded**: the order of an intent on record is that of no execution. -/
theorem Unclaimed.recordFill {fill : Fill} (h : Unclaimed orderOf b)
    (hfill : OrderedOutside orderOf (.inr (.recordFill fill)) b) :
    Unclaimed orderOf
      { b with store := { b.store with fills := b.store.fills.createOnce fill } } where
  exclusive e he f hf := by
    rcases Table.mem_createOnce.1 hf with hold | ⟨-, rfl⟩
    · exact h.exclusive e he f hold
    · obtain ⟨hbroker, horder, intent, hintent, hnames⟩ := hfill
      have hne : orderOf f.fillId ≠ "" := fun hempty =>
        f.orderId_ne_empty (horder.trans hempty)
      have hapart : f.fillId ≠ e.activityId := by
        intro heq
        rw [horder, heq] at hnames
        exact h.intents intent hintent e he (heq ▸ hne) hnames
      exact ⟨hapart, fun hsame => hapart (Option.some.inj (hbroker.symm.trans hsame))⟩
  intents i hi := h.intents i hi

/-- **What happens outside.** -/
theorem Unclaimed.external {t : External} (h : Unclaimed orderOf b)
    (hmay : OrderedOutside orderOf (.inr t) b) (ht : external t b = some b') :
    Unclaimed orderOf b' := by
  cases t with
  | recordFill fill =>
      cases ht
      exact h.recordFill hmay
  | storeIntent intent =>
      cases ht
      refine h.kept rfl rfl fun i hi => ?_
      rcases Table.mem_put_imp hi with rfl | hi
      · exact .inr hmay
      · rcases Table.mem_createOnce.1 hi with hold | ⟨-, rfl⟩
        · exact .inl hold
        · exact .inr hmay
  | elsewhere t orders unresolved outcomes =>
      cases ht
      exact h.kept rfl rfl fun i hi => .inl hi

/-- **A transaction, whoever performs it.** -/
theorem Unclaimed.exec {o : Settlement.Op ⊕ Op} {i : Settlement.Outside × Outside}
    {r : ResPar Settlement.Op.Res Op.Res o} (h : Unclaimed orderOf b) (ho : Suits o)
    (hordered : Ordered orderOf o i b) (hx : system.exec o i b = .ok (r, b')) :
    Unclaimed orderOf b' := by
  cases o with
  | inl o =>
      change settlementExec o i.1 b = .ok (r, b') at hx
      unfold settlementExec at hx
      cases hs : Settlement.exec o i.1 b.store with
      | error e =>
          rw [hs] at hx
          cases hx
      | ok p =>
          rw [hs] at hx
          cases hx
          have hfills : p.2.fills = b.store.fills :=
            Settlement.exec_frame hs .fills (by cases o <;> simp [Settlement.Op.writes])
          refine h.kept rfl hfills fun intent hi => ?_
          -- of the tables that matter a pass writes intents only
          by_cases hwrites : o.writes = some .tradeIntents
          · cases o with
            | updateTradeIntent written guardKey =>
                obtain ⟨_, -, hs⟩ := except_bind_eq_ok.1 hs
                cases hs
                rcases Table.mem_put_imp hi with rfl | hold
                · exact .inr (hordered _ rfl)
                · exact .inl hold
            | _ => simp [Settlement.Op.writes] at hwrites
          · have hsame : p.2.tradeIntents = b.store.tradeIntents :=
              Settlement.exec_frame hs .tradeIntents hwrites
            exact .inl (hsame ▸ hi)
  | inr o =>
      rcases exec_cases ho hx with ⟨hopened, hfills, hintents⟩ | ⟨v, e, now, hv, hid, -, hr⟩
      · exact h.kept hopened.executions hfills fun i hi => .inl (hintents ▸ hi)
      · exact h.resolved hr hid (hordered v hv)

/-- The invariant, where intents get their orders before activities of these are taken. -/
def claiming (orderOf : String → String) : Setting Books (Settlement.Outside × Outside) Raised
    (ResPar Settlement.Op.Res Op.Res) where
  exec := system.exec
  inv := Unclaimed orderOf
  rely _ _ := True
  cond := Ordered orderOf
  guar _ _ _ := True

theorem sound_claiming (orderOf : String → String) :
    Pool.Sound (system.within (OrderedOutside orderOf)) (claiming orderOf) where
  exec := rfl
  guar _ _ _ _ _ _ := trivial
  env t b b' h ht := by
    obtain ⟨hmay, ht⟩ := Option.ite_none_right_eq_some.1 ht
    cases t with
    | inl t => cases t
    | inr t => exact ⟨h.external hmay ht, trivial⟩
  call c b _ := by
    refine ⟨fun _ => True, .const True, trivial, ?_⟩
    refine (Sat.of_uses (.const True) (fun o i s r s' ho hs _ hordered hx => ?_)
      (uses_call c)).mono (fun _ _ h => h) (fun _ _ _ _ => trivial) fun _ _ _ _ => trivial
    exact ⟨hs.exec ho hordered hx, trivial, trivial⟩

end Exclusivity

theorem good_of_reaches {s : Store} {orders : List OrderRow}
    {unresolved : Table UnresolvedExecution} {generationId : Option String} {files : List String}
    {w : Process.Pool Books Raised (ResPar Settlement.Op.Res Op.Res)}
    (hreach : concurrent.Reaches (fun _ _ => True)
      ⟨.unquarantined s orders unresolved generationId files, []⟩ w) :
    Pool.Good keeping w :=
  sound_keeping.good (Pool.good_init (sound_unquarantined s orders unresolved generationId files))
    (hreach.mono fun _ _ _ => Pool.meets_of_forall fun _ _ _ => trivial)

/-- **The quarantine is conserved.**  Whatever happens side by side: what is resolved and spent adds
up in every state reached, a step resolves the oldest records first and uses an activity once, and a
command that has not returned has changed nothing.  No activity is a fill and an execution as long
as intents get their orders before activities of these are taken. -/
theorem quarantine_conserved {s : Store} {orders : List OrderRow}
    {unresolved : Table UnresolvedExecution} {generationId : Option String} {files : List String}
    {w : Process.Pool Books Raised (ResPar Settlement.Op.Res Op.Res)}
    (hreach : concurrent.Reaches (fun _ _ => True)
      ⟨.unquarantined s orders unresolved generationId files, []⟩ w) :
    Conserved w.store ∧
      (∀ a w', concurrent.step w a = some w' →
        OldestFirst w.store w'.store ∧ UsedOnce w.store w'.store) ∧
      (∀ c w₁ w₂, concurrent.step w (.start (.inr c)) = some w₁ →
        concurrent.Reaches (fun _ _ => True) w₁ w₂ →
        ∀ a w₃, a.IsOf w.procs.length → concurrent.step w₂ a = some w₃ →
          w₃.store = w₂.store ∨ w₃.procs[w.procs.length]? = some (.done ())) ∧
      ∀ orderOf : String → String,
        concurrent.Reaches (Pool.Within (Ordered orderOf) (OrderedOutside orderOf))
          ⟨.unquarantined s orders unresolved generationId files, []⟩ w → Exclusive w.store := by
  have hgood := good_of_reaches hreach
  refine ⟨hgood.1.toConserved, fun a w' hstep => ?_,
    fun c w₁ w₂ hstart hrun a w₃ ha hstep => ?_, fun orderOf hordered => ?_⟩
  · obtain ⟨-, hmoves⟩ :=
      sound_keeping.step_good hgood (Pool.meets_of_forall fun _ _ _ => trivial) hstep
    have still : ∀ {b b' : Books}, Opened b b' → OldestFirst b b' ∧ UsedOnce b b' :=
      fun ho => ⟨ho.oldestFirst, ho.usedOnce⟩
    rcases hmoves with hsame | ⟨o, hguar⟩ | ⟨t, ht⟩
    · rw [hsame]
      exact still (.refl _)
    · exact hguar
    · cases t with
      | inl t => cases t
      | inr t => exact still (external_opened ht)
  · have hcall : (system.call (.inr c)).CommitsLast system.exec :=
      Prog.CommitsLast.lift (fun _ => Prod.snd) (fun _ _ _ => rfl) (commitsLast_program c)
    obtain ⟨p, hp, hlast⟩ := Pool.commitsLast_of_reaches hcall hstart hrun
    exact Pool.unchanged_or_done hp hlast ha hstep
  · have hclaimed : Pool.Good (claiming orderOf) w := (sound_claiming orderOf).good
      (Pool.good_init (unclaimed_unquarantined s orders unresolved generationId files))
      (Pool.reaches_within system hordered)
    exact hclaimed.1.exclusive

/-- A sale of two shares is on record, none of which was ever bought. -/
def oversold : Store :=
  match Settlement.execution "sale" .sell 2 12 1 with
  | .ok f =>
      match Settlement.recordedEvent f with
      | .ok e =>
          { tradeIntents := Table.createOnce default (Settlement.intentOf f)
            fills := Table.createOnce default f
            settlements := Table.createOnce default e }
      | .error _ => {}
  | .error _ => {}

/-- A purchase that the broker made by itself. -/
def buyIn (id : String) (quantity price : ℚ) (time : Instant) : Activity where
  activityId := id
  activityType := "FILL"
  symbol := "AAPL"
  side := some .buy
  qty := some quantity
  price := some price
  transactionTime := some time
  orderId := ""
  rawSha256 := "digest-" ++ id

abbrev Action : Type :=
  Act (Settlement.Outside × Outside) Raised (Settlement.PassArgs ⊕ Call) (Empty ⊕ External)

/-- A pass projects the sale; then three shares cover the liability. -/
def covered : List Action :=
  List.flatten
    [ [.start (.inl {})], List.replicate 12 (.run 0 ({ now := 1 }, {})),
      [.start (.inr (.resolve "cover" "bought in by the broker" 3))],
      List.replicate 6 (.run 1 ({}, { activities :=
        [{ buyIn "cover" 3 11 2 with orderId := "order-cover" }] })) ]

/-- A purchase for an intent: the intent before and after the broker has named its order, and the
fill. -/
def bought (id : String) : List Action × List Action :=
  match Settlement.execution id .buy 3 11 2 with
  | .ok f =>
      ([.env (.inr (.storeIntent { Settlement.intentOf f with brokerOrderId := none }))],
        [.env (.inr (.storeIntent (Settlement.intentOf f))), .env (.inr (.recordFill f))])
  | .error _ => ([], [])

/-- A purchase of three covers a liability of two, and one share is left over; another purchase is
recorded as a fill. -/
theorem quarantine_conserved_covered :
    ∃ w : Process.Pool Books Raised (ResPar Settlement.Op.Res Op.Res),
      (w.store.quarantineExecutions.rows.map (·.activityId) = ["cover"] ∧
        w.store.quarantineResolutions.rows.length = 1 ∧
        w.store.unmanagedLongInventory.rows.length = 1 ∧
        w.store.store.fills.rows.map (·.fillId) = ["sale", "purchase"]) ∧
      Conserved w.store ∧ Exclusive w.store := by
  have hrun : (concurrent.runUnder
      (Pool.Within (Ordered fun id => "order-" ++ id) (OrderedOutside fun id => "order-" ++ id))
      ⟨.unquarantined oversold [] default none [], []⟩
      (covered ++ (bought "purchase").1 ++ (bought "purchase").2)).any (fun w =>
        decide (w.store.quarantineExecutions.rows.map (·.activityId) = ["cover"] ∧
          w.store.quarantineResolutions.rows.length = 1 ∧
          w.store.unmanagedLongInventory.rows.length = 1 ∧
          w.store.store.fills.rows.map (·.fillId) = ["sale", "purchase"])) = true := by
    decide +kernel
  obtain ⟨w, hreach, hrows⟩ := Machine.exists_of_runUnder hrun
  have hall := quarantine_conserved (hreach.mono fun _ _ _ => trivial)
  exact ⟨w, hrows, hall.1, hall.2.2.2 _ hreach⟩

/-- **One activity as an execution and as a fill.**  An intent is on record without its order; its
execution is taken to cover the liability; then the intent is given its order, and the execution is
recorded as its fill. -/
theorem execution_recorded_as_fill :
    ∃ w, concurrent.Reaches (fun _ _ => True) ⟨.unquarantined oversold [] default none [], []⟩ w ∧
      ¬ Exclusive w.store := by
  have hrun : (concurrent.run ⟨.unquarantined oversold [] default none [], []⟩
      ((bought "cover").1 ++ covered ++ (bought "cover").2)).any (fun w =>
        decide (∃ e ∈ w.store.quarantineExecutions.rows, ∃ f ∈ w.store.store.fills.rows,
          f.fillId = e.activityId)) = true := by
    decide +kernel
  obtain ⟨w, hreach, e, he, f, hf, hsame⟩ := Machine.exists_of_run hrun
  exact ⟨w, hreach, fun h => (h e he f hf).1 hsame⟩

end Quarantine

end TradePulse
