/-
**Recognition of the fees of quarantined records.**

A resolution recognises what it takes with it of the opening fees of a record, and all that is left
of them where it closes the record.  Nothing else recognises a fee: `recognize_adjustment` is there,
but no caller posts one.  So the balance of a pool is closed as long as no posting adds anything to a
cover pool or to a record that is fully resolved already, and the first posting that does leaves it
open.

Main definitions:

* `Recognised` — no balance is left of the cover pools, nor of a record that is fully resolved;
* `posted` — the shares that a posting adds;
* `NeedsNoAdjustment` — a posting after which nothing is left to be recognised by an adjustment.

Main results:

* `coverRecords_balance` — what the loop of `resolve` does to the balances;
* `recognised_insertAllocations` — a posting keeps the balances closed if and only if it needs no
  adjustment;
* `recognised_of_reaches` — so it is for every run.
-/

import TradePulse.Quarantine.Conservation

set_option autoImplicit false

namespace TradePulse

namespace Quarantine

open Storage Process

/-! ### Balances -/

/-- What a share adds to a record and pool. -/
def QuarantineFeeAllocation.addsTo (id : String) (pool : FeePool) (a : QuarantineFeeAllocation) : ℚ :=
  if a.recordId = id ∧ a.pool = pool then a.amount.value else 0

/-- What a recognition takes from a record and pool. -/
def QuarantineFeeRecognition.takesFrom (id : String) (pool : FeePool)
    (r : QuarantineFeeRecognition) : ℚ :=
  if r.recordId = id ∧ r.pool = pool then r.amount.value else 0

theorem sum_map_filter {α : Type} (p : α → Prop) [DecidablePred p] (f : α → ℚ) (l : List α) :
    ((l.filter fun a => p a).map f).sum = (l.map fun a => if p a then f a else 0).sum := by
  induction l with
  | nil => rfl
  | cons a l ih =>
      by_cases h : p a
      · simp [h, ih]
      · simp [h, ih]

theorem Books.unrecognized_value (b : Books) (id : String) (pool : FeePool) :
    (b.unrecognized id pool).value =
      b.quarantineFeeAllocations.sum (·.addsTo id pool) -
        b.quarantineFeeRecognitions.sum (·.takesFrom id pool) := by
  show ((List.map _ _).map Amount.value).sum - ((List.map _ _).map Amount.value).sum = _
  rw [List.map_map, List.map_map, sum_map_filter, sum_map_filter]
  rfl

theorem Books.unrecognized_congr {b b' : Books}
    (ha : b'.quarantineFeeAllocations = b.quarantineFeeAllocations)
    (hr : b'.quarantineFeeRecognitions = b.quarantineFeeRecognitions) (id : String)
    (pool : FeePool) : b'.unrecognized id pool = b.unrecognized id pool := by
  unfold Books.unrecognized Books.allocated Books.recognized
  rw [ha, hr]

/-- What is left to recognise: nothing of a cover pool, and nothing of a record that is fully
resolved. -/
structure Recognised (b : Books) : Prop where
  closed : ∀ r ∈ b.records, b.openQuantity r = 0 → ∀ pool, (b.unrecognized r.recordId pool).value = 0
  cover : ∀ id, (b.unrecognized id .cover).value = 0

theorem recognised_unquarantined (s : Store) (orders : List OrderRow)
    (unresolved : Table UnresolvedExecution) (generationId : Option String)
    (files : List String) :
    Recognised (Books.unquarantined s orders unresolved generationId files) where
  closed _ hr := by cases hr
  cover _ := (Books.unrecognized_value _ _ _).trans (sub_self 0)

/-! ### Posting -/

/-- The shares that `insert_allocations` adds to the table: those of attributions are passed over,
and so are those that are there. -/
def posted (t : Table QuarantineFeeAllocation) :
    List QuarantineFeeAllocation → List QuarantineFeeAllocation
  | [] => []
  | share :: shares =>
      if share.recordId.startsWith "attribution:" ∨ (t.findByUnique share.key).isSome then
        posted t shares
      else share :: posted (t.createOnce share) shares

/-- What a posting adds to a record and pool. -/
def posting (b : Books) (shares : List QuarantineFeeAllocation) (id : String) (pool : FeePool) : ℚ :=
  ((posted b.quarantineFeeAllocations shares).map (·.addsTo id pool)).sum

/-- A posting that adds nothing, all in all, to any cover pool, nor to a record that is fully
resolved. -/
def NeedsNoAdjustment (b : Books) (shares : List QuarantineFeeAllocation) : Prop :=
  ∀ a ∈ posted b.quarantineFeeAllocations shares,
    (a.pool = .cover ∨ ∃ r ∈ b.records, r.recordId = a.recordId ∧ b.openQuantity r = 0) →
      posting b shares a.recordId a.pool = 0

instance (b : Books) (shares : List QuarantineFeeAllocation) :
    Decidable (NeedsNoAdjustment b shares) := inferInstanceAs (Decidable (∀ _ ∈ _, _ → _))

theorem sum_insertAllocations {shares : List QuarantineFeeAllocation} {b b' : Books}
    (h : insertAllocations b shares = .ok b') (f : QuarantineFeeAllocation → ℚ) :
    b'.quarantineFeeAllocations.sum f = b.quarantineFeeAllocations.sum f +
      ((posted b.quarantineFeeAllocations shares).map f).sum := by
  unfold insertAllocations at h
  induction shares generalizing b with
  | nil =>
      cases h
      simp [posted]
  | cons share shares ih =>
      rw [List.foldlM_cons] at h
      obtain ⟨b₁, h₁, h⟩ := except_bind_eq_ok.1 h
      have hrest := ih h
      unfold insertAllocation at h₁
      unfold posted
      split at h₁
      · rename_i hattribution
        cases h₁
        rw [if_pos (.inl hattribution)]
        exact hrest
      · rename_i hattribution
        split at h₁
        · rename_i old hold
          split at h₁ <;> cases h₁
          rw [if_pos (.inr (by rw [hold]; rfl))]
          exact hrest
        · rename_i hnone
          obtain ⟨t, ht, h₁⟩ := except_bind_eq_ok.1 h₁
          obtain ⟨hadmits, rfl⟩ := insertRow_eq_ok_iff.1 ht
          cases h₁
          rw [if_neg (by simp [hattribution, hnone]), hrest, Table.sum_createOnce f hadmits,
            List.map_cons, List.sum_cons, add_assoc]

/-- A posting moves the balances by what it adds. -/
theorem unrecognized_insertAllocations {shares : List QuarantineFeeAllocation} {b b' : Books}
    (h : insertAllocations b shares = .ok b') (id : String) (pool : FeePool) :
    (b'.unrecognized id pool).value =
      (b.unrecognized id pool).value + posting b shares id pool := by
  have hrecognitions : b'.quarantineFeeRecognitions = b.quarantineFeeRecognitions := by
    rw [insertAllocations_ok h]
  rw [Books.unrecognized_value, Books.unrecognized_value, sum_insertAllocations h, hrecognitions,
    posting]
  ring

/-- **A posting and its adjustments.**  Where the balances were closed, a posting keeps them closed
if and only if it needs no adjustment. -/
theorem recognised_insertAllocations {shares : List QuarantineFeeAllocation} {b b' : Books}
    (hb : Recognised b) (h : insertAllocations b shares = .ok b') :
    Recognised b' ↔ NeedsNoAdjustment b shares := by
  have hrecords : b'.records = b.records := by rw [insertAllocations_ok h]; rfl
  have hopen : ∀ r, b'.openQuantity r = b.openQuantity r := fun r => by
    rw [insertAllocations_ok h]
    rfl
  have hmoves := unrecognized_insertAllocations h
  constructor
  · intro hb' a _ hclosed
    rcases hclosed with hcover | ⟨r, hr, hid, hzero⟩
    · have hmove := hmoves a.recordId .cover
      rw [hb'.cover, hb.cover] at hmove
      rw [hcover]
      linarith
    · have hmove := hmoves a.recordId a.pool
      rw [← hid, hb.closed r hr hzero,
        hb'.closed r (hrecords ▸ hr) ((hopen r).trans hzero), hid] at hmove
      linarith
  · intro hneeds
    -- a pool that no share goes to is left as it was
    have hzero : ∀ id pool, (pool = .cover ∨ ∃ r ∈ b.records, r.recordId = id ∧
        b.openQuantity r = 0) → posting b shares id pool = 0 := by
      intro id pool hclosed
      by_cases hany : ∃ a ∈ posted b.quarantineFeeAllocations shares,
          a.recordId = id ∧ a.pool = pool
      · obtain ⟨a, ha, rfl, rfl⟩ := hany
        exact hneeds a ha hclosed
      · push Not at hany
        refine List.sum_eq_zero fun x hx => ?_
        obtain ⟨a, ha, rfl⟩ := List.mem_map.1 hx
        exact if_neg fun hsame => hany a ha hsame.1 hsame.2
    constructor
    · intro r hr hclosed pool
      rw [hrecords] at hr
      rw [hopen] at hclosed
      rw [hmoves, hb.closed r hr hclosed, hzero _ _ (.inr ⟨r, hr, rfl, hclosed⟩), add_zero]
    · intro id
      rw [hmoves, hb.cover, hzero _ _ (.inl rfl), add_zero]

/-! ### Resolving -/

section Resolving

variable {b b' : Books} {e : QuarantineExecution} {now : Instant}

/-- A recognition takes its amount from its balance. -/
theorem unrecognized_createOnce {x : QuarantineFeeRecognition}
    (hadmits : b.quarantineFeeRecognitions.Admits x) (id : String) (pool : FeePool) :
    (Books.unrecognized { b with
      quarantineFeeRecognitions := b.quarantineFeeRecognitions.createOnce x } id pool).value =
        (b.unrecognized id pool).value - x.takesFrom id pool := by
  rw [Books.unrecognized_value, Books.unrecognized_value, Table.sum_createOnce _ hadmits]
  ring

/-- One recognition: the other balances stay, and all is recognised where the record is closed. -/
theorem recognizeOpening_balance {r : OpenRecord} {covered : ℚ}
    (h : recognizeOpening b e r covered now = .ok b') :
    (∀ id pool, (id = r.recordId → pool ≠ .opening) →
        (b'.unrecognized id pool).value = (b.unrecognized id pool).value) ∧
      (covered = r.quantity → (b'.unrecognized r.recordId .opening).value = 0) := by
  rcases recognizeOpening_ok h with ⟨hzero, rfl⟩ | ⟨x, hx, hadmits, rfl⟩
  · exact ⟨fun _ _ _ => rfl, fun _ => hzero⟩
  · unfold recognizeAtResolution at hx
    obtain ⟨_, -, hx⟩ := except_bind_eq_ok.1 hx
    cases hx
    refine ⟨fun id pool hne => ?_, fun hall => ?_⟩
    · rw [unrecognized_createOnce hadmits, QuarantineFeeRecognition.takesFrom, if_neg, sub_zero]
      rintro ⟨hid, hpool⟩
      exact hne hid.symm hpool.symm
    · rw [unrecognized_createOnce hadmits, QuarantineFeeRecognition.takesFrom, if_pos ⟨rfl, rfl⟩,
        if_pos hall, sub_self]

/-- **What the loop does to the balances**: only the opening balances of the records that it takes
from change, and none is left of a record that it takes whole. -/
theorem coverRecords_balance {records : List OpenRecord} {q remaining : ℚ}
    {xs : List QuarantineResolution} (hids : (records.map (·.recordId)).Nodup)
    (h : coverRecords e now records q b = .ok ((xs, remaining), b')) :
    (∀ id pool, ((∃ p ∈ drain (stocks records) q, p.1.recordId = id) → pool ≠ .opening) →
        (b'.unrecognized id pool).value = (b.unrecognized id pool).value) ∧
      ∀ p ∈ drain (stocks records) q, p.2 = p.1.quantity →
        (b'.unrecognized p.1.recordId .opening).value = 0 := by
  induction records generalizing q b xs remaining with
  | nil =>
      cases h
      exact ⟨fun _ _ _ => rfl, fun _ hp => by cases hp⟩
  | cons r records ih =>
      unfold coverRecords at h
      split at h
      · rename_i hq
        cases h
        refine ⟨fun _ _ _ => rfl, fun p hp => ?_⟩
        rw [drain_of_nonpos hq] at hp
        cases hp
      · rename_i hq
        obtain ⟨⟨x, b₁⟩, hx, h⟩ := except_bind_eq_ok.1 h
        obtain ⟨⟨⟨ys, left⟩, b₂⟩, hys, h⟩ := except_bind_eq_ok.1 h
        cases h
        rw [List.map_cons, List.nodup_cons] at hids
        obtain ⟨-, -, hrecognize, -⟩ := coverRecord_ok hx
        obtain ⟨hfirst, hwhole⟩ := recognizeOpening_balance hrecognize
        obtain ⟨hrest, hrestWhole⟩ := ih hids.2 hys
        rw [stocks, List.map_cons, drain_cons_of_pos (not_le.1 hq), ← stocks]
        refine ⟨fun id pool hne => ?_, fun p hp hall => ?_⟩
        · rw [hrest, hfirst]
          · rfl
          · rintro rfl
            exact hne ⟨_, List.mem_cons_self, rfl⟩
          · rintro ⟨p, hp, rfl⟩
            exact hne ⟨p, List.mem_cons_of_mem _ hp, rfl⟩
        · rcases List.mem_cons.1 hp with rfl | hp
          · -- the records that come later are others
            rw [hrest]
            · exact hwhole hall
            · rintro ⟨p, hp, hid⟩
              obtain ⟨s, hs, rfl⟩ : ∃ s ∈ records, p.1 = s := by
                have hkeys := (keys_drain_first (stocks records) _).subset
                  (List.mem_map_of_mem hp)
                obtain ⟨s, hs, heq⟩ := List.mem_map.1 hkeys
                obtain ⟨r', hr', rfl⟩ := List.mem_map.1 hs
                exact ⟨r', hr', heq.symm⟩
              exact absurd (hid ▸ List.mem_map_of_mem hs) hids.1
          · exact hrestWhole p hp hall

end Resolving

/-- **`resolve` keeps the balances closed.** -/
theorem Recognised.resolved {b b' : Books} {v : VerifiedFill} {e : QuarantineExecution}
    {now : Instant} (hb : Recognised b) (h : Sound b) (hr : Resolved b b' v e now)
    (hid : e.activityId = v.activityId) : Recognised b' := by
  obtain ⟨b₁, b₂, xs, remaining, ha, hrec, hloop, hrec'⟩ := hr.recognitions
  obtain ⟨hother, hwhole⟩ := coverRecords_balance (h.nodup_open v.assetKey) hloop
  have hafter : ∀ id pool, b'.unrecognized id pool = b₂.unrecognized id pool := by
    intro id pool
    refine Books.unrecognized_congr ?_ hrec' id pool
    obtain ⟨-, -, -, hsame⟩ := coverRecords_ok hloop
    rw [hr.allocations, hsame]
    exact ha.symm
  have hbefore : ∀ id pool, b₁.unrecognized id pool = b.unrecognized id pool :=
    Books.unrecognized_congr ha hrec
  constructor
  · intro r hmem hclosed pool
    rcases hr.records hmem with hold | ⟨hnew, hpos⟩
    · by_cases htaken : ∃ p ∈ taken b v e, p.1.recordId = r.recordId
      · obtain ⟨p, hp, hpid⟩ := htaken
        cases pool with
        | cover =>
            rw [hafter, hother _ _ fun _ => by simp, hbefore]
            exact hb.cover _
        | opening =>
            obtain ⟨-, heq⟩ := h.open_of_id (mem_taken hp).2.1 hold hpid
            have hsum := hr.touched h hp
            have hall : p.2 = p.1.quantity := by
              have hquantity : p.1.quantity = r.quantity - b.resolved r.recordId := by
                rw [heq]
                rfl
              have hzero : r.quantity - b'.resolved r.recordId = 0 := hclosed
              rw [hpid] at hsum
              linarith
            rw [hafter, ← hpid]
            exact hwhole p hp hall
      · have hsame : b'.resolved r.recordId = b.resolved r.recordId :=
          hr.untouched fun p hp heq => htaken ⟨p, hp, heq⟩
        have hclosed' : b.openQuantity r = 0 := by
          rw [← hclosed, Books.openQuantity, Books.openQuantity, hsame]
        rw [hafter, hother _ _ fun hany => absurd hany htaken, hbefore]
        exact hb.closed r hold hclosed' pool
    · have hzero := hr.surplus_open h hid
      rw [Books.openQuantity, hnew, hzero, sub_zero] at hclosed
      exact absurd hclosed hpos.ne'
  · intro id
    rw [hafter, hother _ _ fun _ => by simp, hbefore]
    exact hb.cover id

/-- **Opening records keeps the balances closed**, where it leaves the allocations alone. -/
theorem Recognised.opened {b b' : Books} (hb : Recognised b) (h : Sound b) (ho : Opened b b')
    (ha : b'.quarantineFeeAllocations = b.quarantineFeeAllocations) : Recognised b' := by
  have hsame := Books.unrecognized_congr ha ho.recognitions
  constructor
  · intro r hmem hclosed pool
    rw [hsame]
    rw [Books.openQuantity, ho.resolved_eq] at hclosed
    rcases ho.records h hmem with hold | ⟨hnew, hpos⟩
    · exact hb.closed r hold hclosed pool
    · rw [h.resolved_eq_zero hnew, sub_zero] at hclosed
      exact absurd hclosed hpos.ne'
  · intro id
    rw [hsame]
    exact hb.cover id

/-! ### Side by side -/

/-- A step posts only what needs no adjustment. -/
def Unadjusted : (o : Settlement.Op ⊕ Op) → Settlement.Outside × Outside → Books → Prop
  | .inr (.insertAllocations shares), _, b => NeedsNoAdjustment b shares
  | _, _, _ => True

instance : ∀ o i b, Decidable (Unadjusted o i b)
  | .inr (.insertAllocations _), _, _ => inferInstanceAs (Decidable (NeedsNoAdjustment _ _))
  | .inr .verifyLease, _, _ => isTrue trivial
  | .inr (.getActivities _), _, _ => isTrue trivial
  | .inr (.preflight _), _, _ => isTrue trivial
  | .inr (.resolve _ _ _), _, _ => isTrue trivial
  | .inr (.loadLot _), _, _ => isTrue trivial
  | .inr (.adopt _ _ _ _ _ _), _, _ => isTrue trivial
  | .inl _, _, _ => isTrue trivial

/-- The invariant as everybody keeps it, as long as postings need no adjustment. -/
def recognising : Setting Books (Settlement.Outside × Outside) Raised
    (ResPar Settlement.Op.Res Op.Res) where
  exec := system.exec
  inv b := Sound b ∧ Recognised b
  rely _ _ := True
  cond := Unadjusted
  guar _ _ _ := True

/-- **A transaction, whoever performs it.** -/
theorem Recognised.exec {o : Settlement.Op ⊕ Op} {i : Settlement.Outside × Outside} {b b' : Books}
    {r : ResPar Settlement.Op.Res Op.Res o} (hb : Recognised b) (h : Sound b) (ho : Suits o)
    (hneeds : Unadjusted o i b) (hx : system.exec o i b = .ok (r, b')) : Recognised b' := by
  cases o with
  | inl o =>
      refine hb.opened h (settlementExec_opened ho hx) ?_
      change settlementExec o i.1 b = .ok (r, b') at hx
      unfold settlementExec at hx
      cases hs : Settlement.exec o i.1 b.store <;> rw [hs] at hx <;> cases hx
      rfl
  | inr o =>
      change Quarantine.exec o i.2 b = .ok (r, b') at hx
      have read : o.Reads → Recognised b' := fun hreads => by
        rw [exec_reads hreads hx]
        exact hb
      cases o with
      | insertAllocations shares =>
          simp only [Quarantine.exec] at hx
          cases hins : insertAllocations b shares with
          | error e =>
              rw [hins] at hx
              cases hx
          | ok b₁ =>
              rw [hins] at hx
              cases hx
              exact (recognised_insertAllocations hb hins).2 hneeds
      | resolve v e now => exact hb.resolved h (resolve_ok hx) ho.1
      | adopt lotId seen liability activityId digest now =>
          refine hb.opened h (adopt_opened ho hx).1 ?_
          simp only [Quarantine.exec, adopt] at hx
          obtain ⟨_, -, hx⟩ := except_bind_eq_ok.1 hx
          obtain ⟨_, -, hx⟩ := except_bind_eq_ok.1 hx
          obtain ⟨_, -, hx⟩ := except_bind_eq_ok.1 hx
          obtain ⟨_, -, hx⟩ := except_bind_eq_ok.1 hx
          obtain ⟨_, -, hx⟩ := except_bind_eq_ok.1 hx
          cases hx
          rfl
      | _ => exact read trivial

theorem sound_recognising : Pool.Sound system recognising where
  exec := rfl
  guar _ _ _ _ _ _ := trivial
  env t b b' h ht := by
    cases t with
    | inl t => cases t
    | inr t =>
        have hopened := external_opened ht
        refine ⟨⟨h.1.opened hopened, h.2.opened h.1 hopened ?_⟩, trivial⟩
        cases t <;> cases ht <;> rfl
  call c b _ := by
    refine ⟨fun _ => True, .const True, trivial, ?_⟩
    refine (Sat.of_uses (.const True) (fun o i s r s' ho hs _ hneeds hx => ?_)
      (uses_call c)).mono (fun _ _ h => h) (fun _ _ _ _ => trivial) fun _ _ _ _ => trivial
    exact ⟨⟨(hs.1.exec ho hx).1, hs.2.exec hs.1 ho hneeds hx⟩, trivial, trivial⟩

/-- **What is recognised, for every run**: as long as every posting needs no adjustment, the
balances are closed in every state reached, and the first posting that needs one leaves a balance
open. -/
theorem recognised_of_reaches {s : Store} {orders : List OrderRow}
    {unresolved : Table UnresolvedExecution} {generationId : Option String} {files : List String}
    {w : Process.Pool Books Raised (ResPar Settlement.Op.Res Op.Res)}
    (hreach : concurrent.Reaches (Pool.Meets Unadjusted)
      ⟨.unquarantined s orders unresolved generationId files, []⟩ w) :
    Recognised w.store ∧ ∀ shares i b', exec (.insertAllocations shares) i w.store = .ok ((), b') →
      (Recognised b' ↔ NeedsNoAdjustment w.store shares) := by
  have hgood : Pool.Good recognising w := sound_recognising.good
    (Pool.good_init ⟨sound_unquarantined s orders unresolved generationId files,
      recognised_unquarantined s orders unresolved generationId files⟩) hreach
  refine ⟨hgood.1.2, fun shares i b' hx => ?_⟩
  simp only [exec] at hx
  cases hins : insertAllocations w.store shares with
  | error e =>
      rw [hins] at hx
      cases hx
  | ok b₁ =>
      rw [hins] at hx
      cases hx
      exact recognised_insertAllocations hgood.1.2 hins

/-- A share of a fee of the sale. -/
def fee (id : String) (pool : FeePool) (value : ℚ) : QuarantineFeeAllocation where
  feeCanonicalId := id
  recordId := "liability:sale"
  pool := pool
  amount := ⟨value, -2⟩

/-- A pass projects the sale; a fee is posted; one share is covered, and then the other. -/
def coveredInTwo : List Action :=
  List.flatten
    [ [.start (.inl {})], List.replicate 12 (.run 0 ({ now := 1 }, {})),
      [.start (.inr (.recordAllocations [fee "fee" .opening (7 / 100)])), .run 1 ({}, {})],
      [.start (.inr (.resolve "cover-1" "bought in by the broker" 3))],
      List.replicate 6 (.run 2 ({}, { activities := [buyIn "cover-1" 1 11 2] })),
      [.start (.inr (.resolve "cover-2" "bought in by the broker" 4))],
      List.replicate 6 (.run 3 ({}, { activities := [buyIn "cover-2" 1 11 3] })) ]

/-- Three cents are recognised with the first share, and four with the second. -/
theorem recognised_coveredInTwo :
    ∃ w : Process.Pool Books Raised (ResPar Settlement.Op.Res Op.Res),
      w.store.quarantineFeeRecognitions.rows.map (·.amount.value) = [3 / 100, 4 / 100] ∧
        Recognised w.store := by
  have hrun : (concurrent.runUnder (Pool.Meets Unadjusted)
      ⟨.unquarantined oversold [] default none [], []⟩ coveredInTwo).any (fun w =>
        decide (w.store.quarantineFeeRecognitions.rows.map (·.amount.value) =
          [3 / 100, 4 / 100])) = true := by
    decide +kernel
  obtain ⟨w, hreach, hrows⟩ := Machine.exists_of_runUnder hrun
  exact ⟨w, hrows, (recognised_of_reaches hreach).1⟩

/-- **A fee that is posted late stays unrecognised**: an opening fee of a record that is fully
resolved, and a fee of the cover. -/
theorem unrecognized_of_late :
    ∃ w, concurrent.Reaches (fun _ _ => True) ⟨.unquarantined oversold [] default none [], []⟩ w ∧
      ¬ Recognised w.store ∧ (∃ r ∈ w.store.records, w.store.openQuantity r = 0 ∧
        (w.store.unrecognized r.recordId .opening).value ≠ 0 ∧
        (w.store.unrecognized r.recordId .cover).value ≠ 0) := by
  have hrun : (concurrent.run ⟨.unquarantined oversold [] default none [], []⟩ (coveredInTwo ++
      [.start (.inr (.recordAllocations [fee "late" .opening (2 / 100),
        fee "cover-fee" .cover (1 / 100)])), .run 4 ({}, {})])).any (fun w =>
        decide (∃ r ∈ w.store.records, w.store.openQuantity r = 0 ∧
          (w.store.unrecognized r.recordId .opening).value ≠ 0 ∧
          (w.store.unrecognized r.recordId .cover).value ≠ 0)) = true := by
    decide +kernel
  obtain ⟨w, hreach, hopen⟩ := Machine.exists_of_run hrun
  obtain ⟨r, hr, hzero, hleft, hcover⟩ := hopen
  exact ⟨w, hreach, fun h => hleft (h.closed r hr hzero _), r, hr, hzero, hleft, hcover⟩

end Quarantine

end TradePulse
