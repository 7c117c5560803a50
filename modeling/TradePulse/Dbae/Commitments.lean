/-
**What pending buys keep reserved.**

`pending_buy_funding` adds up what each pending intent contributes.  The contribution of a buy is a
function of the buy, of the quantity attributed to it and of the profile, and of nothing else.  For
a buy that can be priced it is the unattributed quantity times the larger of two costs of a unit, so
a fill lowers it by at most that cost of the quantity filled, and never below what the frozen record
commits for the rest.

Main definitions:

* `commitmentOf`, `share` — what one intent contributes;
* `unattributed` — the reserved quantity that no fill is attributed to;
* `Priced` — the frozen commitment and the current cost of a unit of a buy that can be priced;
* `Committed` — what the total and the two lists say about every pending intent.

Main results:

* `share_eq` — the contribution of a priced buy;
* `pendingBuyFunding_committed` — **every commitment is counted or reported**;
* `total_fill` — **a fill lowers the total by at most its own cost**.
-/

import Mathlib.Algebra.Order.BigOperators.Group.List
import TradePulse.Dbae.Funding
import TradePulse.Storage.OrderedDict

set_option autoImplicit false

namespace TradePulse.Dbae

/-! ### What one intent contributes -/

/-- What one stored intent adds to the total and to the two lists. -/
def commitmentOf (limits : EntryLimits) (settlements : List SettlementEvent) (row : StoredIntent) :
    Except Raised PendingFunding := do
  let r ← remainderOf settlements row
  remainderFunding limits r

/-- The amount one stored intent adds to the total. -/
def share (limits : EntryLimits) (settlements : List SettlementEvent) (row : StoredIntent) : ℚ :=
  match commitmentOf limits settlements row with
  | .ok c => c.total
  | .error _ => 0

/-- The reserved quantity of a buy that no fill is attributed to. -/
def unattributed (settlements : List SettlementEvent) (row : StoredIntent) (requested : ℚ) : ℚ :=
  reservedQty row requested - attributedQty settlements row.intent.tradeIntentId

/-- A buy that can be priced: the recorded quantity, the commitment frozen for it, and what a unit
costs under the current profile. -/
structure Priced (limits : EntryLimits) (row : StoredIntent) (recorded frozen unit : ℚ) : Prop where
  buy : row.intent.side = .buy
  quantity : recordedQty row = some recorded
  proven : ∃ record, row.dbae = .block record ∧ ProvenRecord record recorded row.intent frozen
  cost : ∃ price multiplier, row.intent.referencePrice = some price ∧
    contractMultiplierOf row.intent.asset = .ok multiplier ∧
    unit = fundingFor 1 price multiplier (limits.slippageLimitFor row.intent.asset.assetClass)
      (buyFeePct row.intent.asset.assetClass)

section Shares

variable {limits : EntryLimits} {settlements : List SettlementEvent} {row : StoredIntent}
  {requested : ℚ}

theorem recordedQty_pos {recorded : ℚ} (h : recordedQty row = some recorded) : 0 < recorded := by
  obtain ⟨record, -, hread⟩ := Option.bind_eq_some_iff.1 h
  obtain ⟨-, hnonneg, hzero⟩ := frozenDecimal_eq_some_iff.1 hread
  exact hnonneg.lt_of_ne' fun h => by simpa using hzero h

/-- The larger of the two quantities is reserved. -/
theorem reservedQty_eq_max {recorded : ℚ} (h : recordedQty row = some recorded) :
    reservedQty row requested = max requested recorded := by
  rw [reservedQty, h]
  dsimp only
  split
  · rfl
  · rename_i hsame
    rw [not_ne_iff.1 hsame, max_self]

/-- What a stored buy contributes, case by case. -/
theorem commitmentOf_buy (hbuy : row.intent.side = .buy)
    (hrequested : row.intent.requestedQuantity = some requested) :
    commitmentOf limits settlements row =
      if recordedQty row = none ∧ row.dbae ≠ .absent then .ok (unpricedOf row)
      else if unattributed settlements row requested ≤ 0 then .ok (mismatchOf row requested)
      else (do
        let frozen ← frozenOf row
        match frozen, recordedQty row, row.intent.referencePrice with
        | some frozen, some recorded, some price => do
            let current ← maxFunding (unattributed settlements row requested) price
              row.intent.asset (limits.slippageLimitFor row.intent.asset.assetClass)
            .ok { mismatchOf row requested with
              total := max (frozen * unattributed settlements row requested / recorded) current }
        | _, _, _ => .ok ((mismatchOf row requested).add (unpricedOf row))) := by
  have hremainder : commitmentOf limits settlements row = remainderFunding limits
      ⟨row, requested, requested - attributedQty settlements row.intent.tradeIntentId⟩ := by
    rw [commitmentOf, remainderOf, hrequested]
    rfl
  rw [hremainder]
  simp only [remainderFunding, hbuy, ne_eq, not_true_eq_false, if_false, sub_sub_cancel]
  rfl

theorem commitmentOf_sell {c : PendingFunding} (hsell : row.intent.side ≠ .buy)
    (h : commitmentOf limits settlements row = .ok c) : c = {} := by
  obtain ⟨r, hr, h⟩ := except_bind_eq_ok.1 h
  unfold remainderOf at hr
  split at hr
  · cases hr
  · cases hr
    simp only [remainderFunding, ne_eq, hsell, not_false_eq_true, if_true] at h
    cases h
    rfl

@[simp] theorem mismatchOf_total (row : StoredIntent) (requested : ℚ) :
    (mismatchOf row requested).total = 0 := by
  unfold mismatchOf
  split <;> rfl

theorem mem_mismatchOf {recorded : ℚ} (h : recordedQty row = some recorded)
    (hne : recorded ≠ requested) :
    row.intent.tradeIntentId ∈ (mismatchOf row requested).mismatches := by
  simp [mismatchOf, h, hne]

theorem frozenOf_eq_some {recorded frozen : ℚ} (h : recordedQty row = some recorded) :
    frozenOf row = .ok (some frozen) ↔
      ∃ record, row.dbae = .block record ∧ ProvenRecord record recorded row.intent frozen := by
  cases hdbae : row.dbae with
  | block record => simp [frozenOf, hdbae, DbaeEntry.block?, h, frozenMaxFunding_some]
  | absent => simp [recordedQty, hdbae, DbaeEntry.block?] at h
  | notMapping => simp [recordedQty, hdbae, DbaeEntry.block?] at h

theorem Priced.cost_pos {recorded frozen unit : ℚ} (h : Priced limits row recorded frozen unit) :
    0 < max (frozen / recorded) unit := by
  obtain ⟨record, -, hproven⟩ := h.proven
  exact (div_pos hproven.pos (recordedQty_pos h.quantity)).trans_le (le_max_left _ _)

/-- **What a priced buy contributes.** -/
theorem commitmentOf_priced (hrequested : row.intent.requestedQuantity = some requested)
    {recorded frozen unit : ℚ} (h : Priced limits row recorded frozen unit) :
    commitmentOf limits settlements row = .ok { mismatchOf row requested with
      total := max (unattributed settlements row requested) 0 * max (frozen / recorded) unit } := by
  obtain ⟨price, multiplier, hprice, hmultiplier, rfl⟩ := h.cost
  have hfrozen := (frozenOf_eq_some h.quantity).2 h.proven
  rw [commitmentOf_buy h.buy hrequested, if_neg (by simp [h.quantity])]
  rcases le_or_gt (unattributed settlements row requested) 0 with hnone | hleft
  · rw [if_pos hnone, max_eq_right hnone, zero_mul, ← mismatchOf_total row requested]
  · rw [if_neg hleft.not_ge, hfrozen, h.quantity, hprice]
    simp only [bind, Except.bind, maxFunding, hmultiplier]
    rw [fundingFor_eq, max_eq_left hleft.le, mul_max_of_nonneg _ _ hleft.le, mul_div_right_comm,
      mul_comm (frozen / recorded)]

/-- A buy that contributes something is priced. -/
theorem priced_or_unpriced (hbuy : row.intent.side = .buy)
    (hrequested : row.intent.requestedQuantity = some requested) {c : PendingFunding}
    (h : commitmentOf limits settlements row = .ok c) :
    (∃ recorded frozen unit, Priced limits row recorded frozen unit) ∨
      (c.total = 0 ∧ (0 < unattributed settlements row requested →
        row.intent.tradeIntentId ∈ c.unpriced)) := by
  rw [commitmentOf_buy hbuy hrequested] at h
  split at h
  · cases h
    exact .inr ⟨rfl, fun _ => List.mem_singleton_self _⟩
  split at h
  · rename_i hnone
    cases h
    exact .inr ⟨mismatchOf_total row requested, fun hleft => absurd hleft hnone.not_gt⟩
  obtain ⟨frozen, hfrozen, h⟩ := except_bind_eq_ok.1 h
  split at h
  · rename_i frozen recorded price hquantity hprice
    obtain ⟨current, hcurrent, -⟩ := except_bind_eq_ok.1 h
    obtain ⟨multiplier, hmultiplier, -⟩ := except_bind_eq_ok.1 hcurrent
    exact .inl ⟨recorded, frozen, _, hbuy, hquantity, (frozenOf_eq_some hquantity).1 hfrozen,
      price, multiplier, hprice, hmultiplier, rfl⟩
  · cases h
    refine .inr ⟨?_, fun _ => ?_⟩
    · simp [PendingFunding.add, unpricedOf]
    · simp [PendingFunding.add, unpricedOf]

end Shares

/-! ### The total -/

section Total

variable {limits : EntryLimits} {settlements : List SettlementEvent} {rows : List StoredIntent}
  {p : PendingFunding}

theorem foldl_add_total (cs : List PendingFunding) (acc : PendingFunding) :
    (cs.foldl PendingFunding.add acc).total = acc.total + (cs.map fun c => c.total).sum := by
  induction cs generalizing acc with
  | nil => simp
  | cons c cs ih =>
      rw [List.foldl_cons, ih, List.map_cons, List.sum_cons, ← add_assoc]
      rfl

theorem foldl_add_lists (cs : List PendingFunding) (acc : PendingFunding) :
    (cs.foldl PendingFunding.add acc).mismatches =
        acc.mismatches ++ cs.flatMap (fun c => c.mismatches) ∧
      (cs.foldl PendingFunding.add acc).unpriced =
        acc.unpriced ++ cs.flatMap fun c => c.unpriced := by
  induction cs generalizing acc with
  | nil => simp
  | cons c cs ih =>
      rw [List.foldl_cons, (ih _).1, (ih _).2]
      simp [PendingFunding.add]

/-- The loop adds up what each remainder contributes. -/
theorem fundingLoop_ok {rs : List PendingIntentRemainder} {acc : PendingFunding}
    (h : rs.foldlM (fun acc r => do .ok (acc.add (← remainderFunding limits r))) acc = .ok p) :
    ∃ cs, List.Forall₂ (fun r c => remainderFunding limits r = .ok c) rs cs ∧
      p = cs.foldl PendingFunding.add acc := by
  induction rs generalizing acc with
  | nil =>
      cases h
      exact ⟨[], .nil, rfl⟩
  | cons r rs ih =>
      obtain ⟨acc', hstep, h⟩ := except_bind_eq_ok.1 h
      obtain ⟨c, hc, hacc⟩ := except_bind_eq_ok.1 hstep
      cases hacc
      obtain ⟨cs, hcs, rfl⟩ := ih h
      exact ⟨c :: cs, .cons hc hcs, rfl⟩

/-- **The total is the sum of what every pending intent contributes.** -/
theorem pendingBuyFunding_ok (h : pendingBuyFunding rows settlements limits = .ok p) :
    ∃ cs, List.Forall₂ (fun row c => commitmentOf limits settlements row = .ok c)
        (pendingRows rows) cs ∧
      p = cs.foldl PendingFunding.add {} := by
  obtain ⟨rs, hrs, hloop⟩ := except_bind_eq_ok.1 h
  obtain ⟨cs, hcs, rfl⟩ := fundingLoop_ok hloop
  refine ⟨cs, ?_, rfl⟩
  have hrows := Storage.forall₂_of_mapM hrs
  clear h hrs hloop
  generalize pendingRows rows = l at hrows ⊢
  induction hrows generalizing cs with
  | nil =>
      cases hcs
      exact .nil
  | cons hr _ ih =>
      cases hcs with
      | cons hc hcs =>
          refine .cons ?_ (ih _ hcs)
          rw [commitmentOf, hr]
          exact hc

theorem share_of_ok {row : StoredIntent} {c : PendingFunding}
    (h : commitmentOf limits settlements row = .ok c) : share limits settlements row = c.total := by
  rw [share, h]

theorem total_eq (h : pendingBuyFunding rows settlements limits = .ok p) :
    p.total = ((pendingRows rows).map (share limits settlements)).sum := by
  obtain ⟨cs, hcs, rfl⟩ := pendingBuyFunding_ok h
  rw [foldl_add_total, zero_add]
  congr 1
  clear h
  generalize pendingRows rows = l at hcs ⊢
  induction hcs with
  | nil => rfl
  | cons hc _ ih => rw [List.map_cons, List.map_cons, ih, share_of_ok hc]

theorem exists_related {α β : Type} {r : α → β → Prop} {l : List α} {l' : List β}
    (h : List.Forall₂ r l l') {a : α} (ha : a ∈ l) : ∃ b ∈ l', r a b := by
  induction h with
  | nil => cases ha
  | @cons x y _ _ hxy _ ih =>
      rcases List.mem_cons.1 ha with rfl | ha
      · exact ⟨y, List.mem_cons_self, hxy⟩
      · obtain ⟨b, hb, hab⟩ := ih ha
        exact ⟨b, List.mem_cons_of_mem _ hb, hab⟩

/-- What each pending intent contributed, and where it is reported. -/
theorem commitment_of_mem (h : pendingBuyFunding rows settlements limits = .ok p)
    {row : StoredIntent} (hrow : row ∈ pendingRows rows) :
    ∃ c, commitmentOf limits settlements row = .ok c ∧ c.mismatches ⊆ p.mismatches ∧
      c.unpriced ⊆ p.unpriced := by
  obtain ⟨cs, hcs, rfl⟩ := pendingBuyFunding_ok h
  obtain ⟨hmismatches, hunpriced⟩ := foldl_add_lists cs {}
  obtain ⟨c, hc, hcommitment⟩ := exists_related hcs hrow
  refine ⟨c, hcommitment, ?_, ?_⟩
  · rw [hmismatches]
    exact fun id hid => List.mem_append_right _ (List.mem_flatMap.2 ⟨c, hc, hid⟩)
  · rw [hunpriced]
    exact fun id hid => List.mem_append_right _ (List.mem_flatMap.2 ⟨c, hc, hid⟩)

end Total

/-! ### Every commitment is counted or reported -/

/-- What the total and the two lists say about every pending intent. -/
structure Committed (limits : EntryLimits) (rows : List StoredIntent)
    (settlements : List SettlementEvent) (p : PendingFunding) : Prop where
  /-- The total is the sum of the shares, each of which is a function of one intent alone. -/
  total : p.total = ((pendingRows rows).map (share limits settlements)).sum
  nonneg : ∀ row ∈ pendingRows rows, 0 ≤ share limits settlements row
  /-- A buy with an unattributed remainder is reported as unpriced, or its share covers what the
  frozen record and what the current profile ask for the remainder. -/
  covered : ∀ row ∈ pendingRows rows, row.intent.side = .buy →
    ∀ requested, row.intent.requestedQuantity = some requested →
      0 < unattributed settlements row requested →
      row.intent.tradeIntentId ∈ p.unpriced ∨
        ∃ recorded frozen unit, Priced limits row recorded frozen unit ∧
          frozen * unattributed settlements row requested / recorded ≤
            share limits settlements row ∧
          unit * unattributed settlements row requested ≤ share limits settlements row
  /-- A buy whose two quantities differ is reported, and reserved on the larger. -/
  mismatched : ∀ row ∈ pendingRows rows, row.intent.side = .buy →
    ∀ requested recorded, row.intent.requestedQuantity = some requested →
      recordedQty row = some recorded → recorded ≠ requested →
      reservedQty row requested = max requested recorded ∧
        row.intent.tradeIntentId ∈ p.mismatches
  /-- A sell reserves nothing. -/
  sells : ∀ row ∈ pendingRows rows, row.intent.side ≠ .buy → share limits settlements row = 0

section Law

variable {limits : EntryLimits} {settlements : List SettlementEvent} {rows : List StoredIntent}
  {row : StoredIntent} {requested : ℚ} {p : PendingFunding}

theorem share_priced (hrequested : row.intent.requestedQuantity = some requested)
    {recorded frozen unit : ℚ} (h : Priced limits row recorded frozen unit) :
    share limits settlements row =
      max (unattributed settlements row requested) 0 * max (frozen / recorded) unit :=
  share_of_ok (commitmentOf_priced hrequested h)

theorem requested_of_commitment {c : PendingFunding}
    (h : commitmentOf limits settlements row = .ok c) :
    ∃ requested, row.intent.requestedQuantity = some requested := by
  obtain ⟨r, hr, -⟩ := except_bind_eq_ok.1 h
  unfold remainderOf at hr
  cases hrequested : row.intent.requestedQuantity with
  | none =>
      rw [hrequested] at hr
      cases hr
  | some requested => exact ⟨requested, rfl⟩

theorem share_nonneg {c : PendingFunding} (h : commitmentOf limits settlements row = .ok c) :
    0 ≤ share limits settlements row := by
  obtain ⟨requested, hrequested⟩ := requested_of_commitment h
  by_cases hbuy : row.intent.side = .buy
  · rcases priced_or_unpriced hbuy hrequested h with ⟨_, _, _, hpriced⟩ | ⟨hzero, -⟩
    · rw [share_priced hrequested hpriced]
      exact mul_nonneg (le_max_right _ _) hpriced.cost_pos.le
    · rw [share_of_ok h, hzero]
  · rw [share_of_ok h, commitmentOf_sell hbuy h]

/-- **Every commitment is counted or reported.** -/
theorem pendingBuyFunding_committed (h : pendingBuyFunding rows settlements limits = .ok p) :
    Committed limits rows settlements p where
  total := total_eq h
  nonneg := by
    intro row hrow
    obtain ⟨c, hc, -⟩ := commitment_of_mem h hrow
    exact share_nonneg hc
  covered := by
    intro row hrow hbuy requested hrequested hleft
    obtain ⟨c, hc, -, hunpriced⟩ := commitment_of_mem h hrow
    rcases priced_or_unpriced hbuy hrequested hc with ⟨recorded, frozen, unit, hpriced⟩ | ⟨-, hlist⟩
    · refine .inr ⟨recorded, frozen, unit, hpriced, ?_⟩
      rw [share_priced hrequested hpriced, max_eq_left hleft.le, mul_div_right_comm,
        mul_comm (frozen / recorded), mul_comm unit]
      exact ⟨mul_le_mul_of_nonneg_left (le_max_left _ _) hleft.le,
        mul_le_mul_of_nonneg_left (le_max_right _ _) hleft.le⟩
    · exact .inl (hunpriced (hlist hleft))
  mismatched := by
    intro row hrow hbuy requested recorded hrequested hrecorded hne
    refine ⟨reservedQty_eq_max hrecorded, ?_⟩
    obtain ⟨c, hc, hmismatches, -⟩ := commitment_of_mem h hrow
    refine hmismatches ?_
    have hmem := mem_mismatchOf hrecorded hne
    rw [commitmentOf_buy hbuy hrequested, if_neg (by simp [hrecorded])] at hc
    split at hc
    · cases hc
      exact hmem
    obtain ⟨frozen, -, hc⟩ := except_bind_eq_ok.1 hc
    split at hc
    · obtain ⟨current, -, hc⟩ := except_bind_eq_ok.1 hc
      cases hc
      exact hmem
    · cases hc
      exact List.mem_append_left _ hmem
  sells := by
    intro row hrow hsell
    obtain ⟨c, hc, -⟩ := commitment_of_mem h hrow
    rw [share_of_ok hc, commitmentOf_sell hsell hc]

end Law

/-! ### A further fill -/

section Fill

variable {limits : EntryLimits} {settlements : List SettlementEvent} {rows : List StoredIntent}
  {row : StoredIntent} {requested : ℚ} {e : SettlementEvent}

theorem attributedQty_append (id : String) :
    attributedQty (settlements ++ [e]) id =
      attributedQty settlements id + if e.tradeIntentId = id then e.quantity else 0 := by
  unfold attributedQty eventsOf
  rw [List.filter_append, List.map_append, List.sum_append]
  by_cases h : e.tradeIntentId = id <;> simp [h]

/-- A fill of another intent leaves the share alone. -/
theorem share_fill_other (h : e.tradeIntentId ≠ row.intent.tradeIntentId) :
    share limits (settlements ++ [e]) row = share limits settlements row := by
  have hsame : remainderOf (settlements ++ [e]) row = remainderOf settlements row := by
    simp only [remainderOf, attributedQty_append, if_neg h, add_zero]
  simp only [share, commitmentOf, hsame]

/-- A fill of a priced buy lowers its share by at most what the fill costs. -/
theorem share_fill_priced (h : e.tradeIntentId = row.intent.tradeIntentId)
    (hrequested : row.intent.requestedQuantity = some requested) {recorded frozen unit : ℚ}
    (hpriced : Priced limits row recorded frozen unit) :
    share limits settlements row - share limits (settlements ++ [e]) row ≤
        max (frozen / recorded) unit * e.quantity ∧
      share limits (settlements ++ [e]) row ≤ share limits settlements row := by
  have hcost := hpriced.cost_pos
  have hfill := e.quantity_pos
  have hleft : unattributed (settlements ++ [e]) row requested =
      unattributed settlements row requested - e.quantity := by
    rw [unattributed, unattributed, attributedQty_append, if_pos h]
    ring
  rw [share_priced hrequested hpriced, share_priced hrequested hpriced, hleft, ← sub_mul,
    mul_comm _ e.quantity]
  constructor
  · refine mul_le_mul_of_nonneg_right ?_ hcost.le
    rcases le_total (unattributed settlements row requested) 0 with hnone | hsome
    · rw [max_eq_right hnone]
      linarith [le_max_right (unattributed settlements row requested - e.quantity) 0]
    · rw [max_eq_left hsome]
      linarith [le_max_left (unattributed settlements row requested - e.quantity) 0]
  · exact mul_le_mul_of_nonneg_right (max_le_max (by linarith) le_rfl) hcost.le

theorem sum_map_sub_of_unique {α β : Type} {key : α → β} {f g : α → ℚ} {l : List α}
    (hnodup : (l.map key).Nodup) {x : α} (hx : x ∈ l)
    (h : ∀ y ∈ l, key y ≠ key x → f y = g y) :
    (l.map f).sum - (l.map g).sum = f x - g x := by
  induction l with
  | nil => cases hx
  | cons a l ih =>
      rw [List.map_cons, List.nodup_cons] at hnodup
      simp only [List.map_cons, List.sum_cons]
      rcases List.mem_cons.1 hx with rfl | hx
      · have hrest : l.map f = l.map g := by
          refine List.map_congr_left fun y hy => h y (List.mem_cons_of_mem _ hy) ?_
          exact fun hkey => hnodup.1 (List.mem_map.2 ⟨y, hy, hkey⟩)
        rw [hrest]
        ring
      · have hne : key a ≠ key x := fun hkey => hnodup.1 (List.mem_map.2 ⟨x, hx, hkey.symm⟩)
        have hrest := ih hnodup.2 hx fun y hy => h y (List.mem_cons_of_mem _ hy)
        rw [h a List.mem_cons_self hne]
        linarith

/-- **A fill lowers the total by at most its own cost**: by none when no priced buy is filled. -/
theorem total_fill (hids : (rows.map fun row => row.intent.tradeIntentId).Nodup)
    {p p' : PendingFunding} (h : pendingBuyFunding rows settlements limits = .ok p)
    (h' : pendingBuyFunding rows (settlements ++ [e]) limits = .ok p') :
    p'.total = p.total ∨
      ∃ row ∈ pendingRows rows, row.intent.tradeIntentId = e.tradeIntentId ∧
        ∃ recorded frozen unit, Priced limits row recorded frozen unit ∧
          p'.total ≤ p.total ∧
          p.total - p'.total ≤ max (frozen / recorded) unit * e.quantity := by
  have hpending : ((pendingRows rows).map fun row => row.intent.tradeIntentId).Nodup :=
    hids.sublist (List.filter_sublist.map _)
  rw [total_eq h, total_eq h']
  by_cases hfilled : ∃ row ∈ pendingRows rows, row.intent.tradeIntentId = e.tradeIntentId
  · obtain ⟨row, hrow, hid⟩ := hfilled
    have hdiff := sum_map_sub_of_unique (f := share limits settlements)
      (g := share limits (settlements ++ [e])) hpending hrow fun y _ hkey =>
        (share_fill_other fun hsame => hkey (hsame.symm.trans hid.symm)).symm
    obtain ⟨c, hc, -⟩ := commitment_of_mem h hrow
    obtain ⟨c', hc', -⟩ := commitment_of_mem h' hrow
    obtain ⟨requested, hrequested⟩ := requested_of_commitment hc
    by_cases hpriced : ∃ recorded frozen unit, Priced limits row recorded frozen unit
    · obtain ⟨recorded, frozen, unit, hpriced⟩ := hpriced
      have hbounds : share limits settlements row - share limits (settlements ++ [e]) row ≤ _ ∧
          share limits (settlements ++ [e]) row ≤ share limits settlements row :=
        share_fill_priced hid.symm hrequested hpriced
      obtain ⟨hcost, hless⟩ := hbounds
      refine .inr ⟨row, hrow, hid, recorded, frozen, unit, hpriced, ?_, ?_⟩ <;> linarith
    · -- a buy that cannot be priced, and a sell, contribute nothing before and after
      have hzero : ∀ {events : List SettlementEvent} {c : PendingFunding},
          commitmentOf limits events row = .ok c → share limits events row = 0 := by
        intro events c hc
        by_cases hbuy : row.intent.side = .buy
        · rcases priced_or_unpriced hbuy hrequested hc with hyes | ⟨hzero, -⟩
          · exact absurd hyes hpriced
          · rw [share_of_ok hc, hzero]
        · rw [share_of_ok hc, commitmentOf_sell hbuy hc]
      rw [hzero hc, hzero hc', sub_zero] at hdiff
      exact .inl (by linarith)
  · push Not at hfilled
    refine .inl (congrArg List.sum (List.map_congr_left fun row hrow => ?_))
    exact share_fill_other fun hsame => hfilled row hrow hsame.symm

end Fill

end TradePulse.Dbae
