/-
**What the holders of a dividend are entitled to.**

Who held an instrument when the ex-date began is read off the fills of the strategy's lots and off
the evidence for an inherited holding.  An inherited holding may be short; the amount of an activity
is still split among the holders to the cent, and each of them is named once.

Main definitions:

* `Before`, `heldAtStart` — what was held when the ex-date began;
* `Shareable` — holders that weigh something together, at most one of them short;
* `Weighed` — how the holders of a group are weighed.

Main results:

* `closedBefore_eq`, `entitled_some` — an eligible quantity is what was held;
* `sum_roundedShares` — one short holder does no harm;
* `rowsOf_sound`, `sum_eligibleQty` — the rows of an activity sum to its amount, and their
  quantities to the weights;
* `weigh_sound` — the holders of a verified group weigh the quantity that was paid for.
-/

import TradePulse.Reconciliation.FeeShares
import TradePulse.Storage.Agreement

set_option autoImplicit false

namespace TradePulse

namespace Dividends

open HistoricalFees Storage Sizing

/-! ### What was held when the ex-date began -/

section Held

variable {newYork : Instant → LocalTime} {exDate : ℤ}

/-- Traded before the trade date of the ex-date begins, on the evening of the day before. -/
def Before (newYork : Instant → LocalTime) (exDate : ℤ) (t : Instant) : Prop :=
  (newYork t).day < exDate - 1 ∨
    ((newYork t).day = exDate - 1 ∧ (newYork t).sinceMidnight < evening)

instance (newYork : Instant → LocalTime) (exDate : ℤ) (t : Instant) :
    Decidable (Before newYork exDate t) := inferInstanceAs (Decidable (_ ∨ _))

/-- What of a lot was held. -/
def heldAtStart (newYork : Instant → LocalTime) (exDate : ℤ) (lot : StrategyLot) : ℚ :=
  lot.openedQuantity - ((lot.closures.filter fun c => Before newYork exDate c.2).map Prod.fst).sum

theorem tradeDate_error {t : Instant} {reason : String}
    (h : tradeDate newYork t exDate = .error reason) :
    reason = "DIVIDEND_TRADE_DATE_AMBIGUOUS" := by
  unfold tradeDate at h
  dsimp only at h
  split at h
  · exact (Except.error.inj h).symm
  · split at h <;> cases h

/-- A trade date lies before the ex-date exactly when the trade does. -/
theorem tradeDate_lt_iff {t : Instant} {day : ℤ} (h : tradeDate newYork t exDate = .ok day) :
    day < exDate ↔ Before newYork exDate t := by
  unfold tradeDate at h
  dsimp only at h
  unfold Before
  split at h
  · cases h
  rename_i hclear
  split at h
  · rename_i hevening
    obtain rfl := Except.ok.inj h
    constructor
    · intro hlt
      exact .inl (by omega)
    · rintro (hlt | ⟨-, hlt⟩)
      · omega
      · exact absurd hevening (not_le.2 hlt)
  · rename_i hday
    obtain rfl := Except.ok.inj h
    constructor
    · intro hlt
      rcases (Int.le_sub_one_of_lt hlt).lt_or_eq with hlt | heq
      · exact .inl hlt
      · exact .inr ⟨heq, not_le.1 hday⟩
    · rintro (hlt | ⟨heq, -⟩) <;> omega

theorem closedBefore_error {closures : List (ℚ × Instant)} {reason : String}
    (h : closedBefore newYork exDate closures = .error reason) :
    reason = "DIVIDEND_TRADE_DATE_AMBIGUOUS" := by
  induction closures with
  | nil => cases h
  | cons c rest ih =>
      obtain ⟨quantity, closedAt⟩ := c
      cases hday : tradeDate newYork closedAt exDate with
      | error e =>
          simp only [closedBefore, hday, bind, Except.bind, Except.error.injEq] at h
          exact h ▸ tradeDate_error hday
      | ok day =>
          cases hrest : closedBefore newYork exDate rest with
          | error e =>
              simp only [closedBefore, hday, hrest, bind, Except.bind, Except.error.injEq] at h
              exact ih (h ▸ hrest)
          | ok others => simp [closedBefore, hday, hrest, bind, Except.bind, pure, Except.pure] at h

theorem closedBefore_eq {closures : List (ℚ × Instant)} {q : ℚ}
    (h : closedBefore newYork exDate closures = .ok q) :
    q = ((closures.filter fun c => Before newYork exDate c.2).map Prod.fst).sum := by
  induction closures generalizing q with
  | nil => exact (Except.ok.inj h).symm
  | cons c rest ih =>
      obtain ⟨quantity, closedAt⟩ := c
      obtain ⟨day, hday, h⟩ := except_bind_eq_ok.1 h
      obtain ⟨others, hothers, h⟩ := except_bind_eq_ok.1 h
      obtain rfl := Except.ok.inj h
      have hbefore := tradeDate_lt_iff hday
      by_cases hlt : day < exDate
      · rw [if_pos hlt, List.filter_cons_of_pos (by simpa using hbefore.1 hlt), ih hothers]
        simp
      · rw [if_neg hlt, List.filter_cons_of_neg (by simpa using fun h => hlt (hbefore.2 h)),
          ih hothers]

/-- What one lot is entitled to. -/
def entitled (newYork : Instant → LocalTime) (exDate : ℤ) (lot : StrategyLot) :
    Except String (Option (String × ℚ)) := do
  let opened ← tradeDate newYork lot.openedAt exDate
  if exDate ≤ opened then return none
  else
    let closed ← closedBefore newYork exDate lot.closures
    let held := lot.openedQuantity - closed
    return if 0 < held then some (lot.lotId, held) else none

theorem entitled_error {lot : StrategyLot} {reason : String}
    (h : entitled newYork exDate lot = .error reason) :
    reason = "DIVIDEND_TRADE_DATE_AMBIGUOUS" := by
  unfold entitled at h
  cases hopened : tradeDate newYork lot.openedAt exDate with
  | error e =>
      rw [hopened] at h
      exact Except.error.inj h ▸ tradeDate_error hopened
  | ok opened =>
      rw [hopened] at h
      simp only [bind, Except.bind] at h
      split at h
      · cases h
      · cases hclosed : closedBefore newYork exDate lot.closures with
        | error e =>
            rw [hclosed] at h
            exact Except.error.inj h ▸ closedBefore_error hclosed
        | ok closed =>
            rw [hclosed] at h
            cases h

/-- An eligible quantity is what was held, of a lot that was opened before the ex-date. -/
theorem entitled_some {lot : StrategyLot} {e : String × ℚ}
    (h : entitled newYork exDate lot = .ok (some e)) :
    e.1 = lot.lotId ∧ Before newYork exDate lot.openedAt ∧
      e.2 = heldAtStart newYork exDate lot ∧ 0 < e.2 := by
  obtain ⟨opened, hopened, h⟩ := except_bind_eq_ok.1 h
  split at h
  · cases h
  rename_i hlt
  obtain ⟨closed, hclosed, h⟩ := except_bind_eq_ok.1 h
  have h := Except.ok.inj h
  split at h
  · rename_i hpos
    obtain rfl := Option.some.inj h
    refine ⟨rfl, (tradeDate_lt_iff hopened).1 (not_le.1 hlt), ?_, hpos⟩
    rw [heldAtStart, ← closedBefore_eq hclosed]
  · cases h

theorem eligibleStrategy_eq (lots : List StrategyLot) (eligible : OrderedDict String ℚ) :
    eligibleStrategy newYork exDate lots eligible = do
      let found ← lots.mapM (entitled newYork exDate)
      return found.reduceOption.foldl (fun d e => d.insert e.1 e.2) eligible := by
  induction lots generalizing eligible with
  | nil => rfl
  | cons lot rest ih =>
      rw [List.mapM_cons, eligibleStrategy.eq_def, entitled]
      cases hopened : tradeDate newYork lot.openedAt exDate with
      | error e => simp only [hopened, bind, Except.bind]
      | ok opened =>
          simp only [hopened, bind, Except.bind]
          by_cases hle : exDate ≤ opened
          · simp only [if_pos hle, ih]
            cases hrest : rest.mapM (entitled newYork exDate) with
            | error e => rfl
            | ok found => simp [bind, Except.bind, pure, Except.pure]
          · simp only [if_neg hle]
            cases hclosed : closedBefore newYork exDate lot.closures with
            | error e => rfl
            | ok closed =>
                simp only [ih]
                cases hrest : rest.mapM (entitled newYork exDate) with
                | error e => rfl
                | ok found =>
                    by_cases hpos : 0 < lot.openedQuantity - closed <;>
                      simp [hpos, bind, Except.bind, pure, Except.pure]

end Held

section Eligible

variable {newYork : Instant → LocalTime} {exDate : ℤ} {lots lots' : List StrategyLot}

theorem sublist_entitled {found : List (Option (String × ℚ))}
    (h : lots.mapM (entitled newYork exDate) = .ok found) :
    (found.reduceOption.map Prod.fst).Sublist (lots.map StrategyLot.lotId) := by
  induction lots generalizing found with
  | nil =>
      obtain rfl := Except.ok.inj h
      exact .slnil
  | cons lot rest ih =>
      rw [List.mapM_cons] at h
      obtain ⟨first, hfirst, h⟩ := except_bind_eq_ok.1 h
      obtain ⟨others, hothers, h⟩ := except_bind_eq_ok.1 h
      obtain rfl := Except.ok.inj h
      cases first with
      | none => exact (ih hothers).cons _
      | some e =>
          rw [List.reduceOption_cons_of_some, List.map_cons, List.map_cons,
            (entitled_some hfirst).1]
          exact (ih hothers).cons_cons _

/-- Who is eligible, in the order of the lots. -/
theorem eligibleStrategy_ok (hids : (lots.map StrategyLot.lotId).Nodup)
    {strategy : OrderedDict String ℚ}
    (h : eligibleStrategy newYork exDate lots OrderedDict.empty = .ok strategy) :
    ∃ found, lots.mapM (entitled newYork exDate) = .ok found ∧
      strategy.entries = found.reduceOption := by
  rw [eligibleStrategy_eq] at h
  obtain ⟨found, hfound, h⟩ := except_bind_eq_ok.1 h
  obtain rfl := Except.ok.inj h
  exact ⟨found, hfound, OrderedDict.entries_ofList ((sublist_entitled hfound).nodup hids)⟩

/-- **Everyone who is eligible held it when the ex-date began.** -/
theorem held_of_eligible (hids : (lots.map StrategyLot.lotId).Nodup)
    {strategy : OrderedDict String ℚ}
    (h : eligibleStrategy newYork exDate lots OrderedDict.empty = .ok strategy) {k : String} {q : ℚ}
    (hmem : (k, q) ∈ strategy.entries) :
    ∃ lot ∈ lots, lot.lotId = k ∧ Before newYork exDate lot.openedAt ∧
      q = heldAtStart newYork exDate lot ∧ 0 < q := by
  obtain ⟨found, hfound, hentries⟩ := eligibleStrategy_ok hids h
  rw [hentries, List.reduceOption_mem_iff] at hmem
  obtain ⟨lot, hlot, hok⟩ := exists_left_of_forall₂ (forall₂_of_mapM hfound) hmem
  obtain ⟨hid, hbefore, hheld, hpos⟩ := entitled_some hok
  exact ⟨lot, hlot, hid.symm, hbefore, hheld, hpos⟩

theorem eligibleStrategy_perm (hids : (lots.map StrategyLot.lotId).Nodup)
    (hlots : lots.Perm lots') :
    Agrees (fun s s' => s.entries.Perm s'.entries)
      (eligibleStrategy newYork exDate lots OrderedDict.empty)
      (eligibleStrategy newYork exDate lots' OrderedDict.empty) := by
  have hids' : (lots'.map StrategyLot.lotId).Nodup := (hlots.map _).nodup_iff.1 hids
  have hfound := agrees_mapM_perm (f := entitled newYork exDate) hlots
    fun lot _ e he => entitled_error he
  rw [eligibleStrategy_eq, eligibleStrategy_eq]
  cases hok : lots.mapM (entitled newYork exDate) with
  | error e =>
      rw [hok] at hfound
      cases hfound' : lots'.mapM (entitled newYork exDate) with
      | error e' =>
          rw [hfound'] at hfound
          cases hfound
          exact .error _
      | ok found' =>
          rw [hfound'] at hfound
          cases hfound
  | ok found =>
      obtain ⟨found', hok', hperm⟩ := hfound.exists_ok hok
      rw [hok']
      refine .ok ?_
      have hentries := OrderedDict.entries_ofList ((sublist_entitled hok).nodup hids)
      have hentries' := OrderedDict.entries_ofList ((sublist_entitled hok').nodup hids')
      simp only [OrderedDict.ofList] at hentries hentries'
      rw [hentries, hentries']
      exact hperm.filterMap _

end Eligible

/-! ### Splitting with one short holder -/

section Short

variable {exact exact' : List (String × ℚ)} {units : ℤ}

/-- What rounding toward zero cuts off. -/
def cutOff (q : ℚ) : ℚ := q - truncated q

theorem cutOff_of_nonneg {q : ℚ} (h : 0 ≤ q) : 0 ≤ cutOff q ∧ cutOff q < 1 := by
  rw [cutOff, truncated_of_nonneg h]
  exact ⟨sub_nonneg.2 (Int.floor_le q), by linarith [Int.lt_floor_add_one q]⟩

theorem cutOff_of_neg {q : ℚ} (h : q < 0) : -1 < cutOff q ∧ cutOff q ≤ 0 := by
  rw [cutOff, truncated, if_neg (not_le.2 h)]
  exact ⟨by linarith [Int.ceil_lt_add_one q], sub_nonpos.2 (Int.le_ceil q)⟩

/-- With at most one short holder less than a unit is missing, and no more than one for each holder
is left over. -/
theorem sum_cutOff : (exact.countP (fun e => decide (e.2 < 0)) = 0 →
      0 ≤ (exact.map fun e => cutOff e.2).sum) ∧
    (exact.countP (fun e => decide (e.2 < 0)) ≤ 1 →
      -1 < (exact.map fun e => cutOff e.2).sum) ∧
    (exact.map fun e => cutOff e.2).sum ≤ exact.length := by
  induction exact with
  | nil => simp
  | cons e rest ih =>
      obtain ⟨hnone, hone, hle⟩ := ih
      rw [List.map_cons, List.sum_cons, List.length_cons]
      push_cast
      by_cases hneg : e.2 < 0
      · obtain ⟨hlow, hhigh⟩ := cutOff_of_neg hneg
        rw [List.countP_cons_of_pos (by simpa using hneg)]
        refine ⟨by omega, fun hcount => ?_, by linarith⟩
        have hrest := hnone (by omega)
        linarith
      · obtain ⟨hlow, hhigh⟩ := cutOff_of_nonneg (not_lt.1 hneg)
        rw [List.countP_cons_of_neg (by simpa using hneg)]
        refine ⟨fun hcount => add_nonneg hlow (hnone hcount), fun hcount => ?_, by linarith⟩
        have hrest := hone hcount
        linarith

theorem insertionSort_largerRemainder (l : List (String × ℚ)) :
    l.insertionSort LargerRemainder = l.insertionSort (LargerBy cutOff) := by
  have hmap := List.map_insertionSort (r := LargerRemainder) (s := LargerBy cutOff) id l
    fun a _ b _ => Iff.rfl
  simpa using hmap

theorem leftOver_of_short (hshort : exact.countP (fun e => decide (e.2 < 0)) ≤ 1)
    (hsum : (exact.map Prod.snd).sum = units) :
    0 ≤ units - (exact.map fun e => truncated e.2).sum ∧
      units - (exact.map fun e => truncated e.2).sum ≤ exact.length := by
  have hbounds : _ ∧ _ ∧ (exact.map fun e => cutOff e.2).sum ≤ exact.length := sum_cutOff
  obtain ⟨-, hone, hle⟩ := hbounds
  have hcut : (exact.map fun e => cutOff e.2).sum =
      (exact.map Prod.snd).sum - ((exact.map fun e => truncated e.2).sum : ℤ) := by
    clear hshort hsum hone hle
    induction exact with
    | nil => simp
    | cons e rest ih =>
        simp only [List.map_cons, List.sum_cons, ih]
        rw [cutOff]
        push_cast
        ring
  have hlow := hone hshort
  rw [hcut, hsum] at hlow hle
  have hlow' : -1 < units - (exact.map fun e => truncated e.2).sum := by exact_mod_cast hlow
  exact ⟨by omega, by exact_mod_cast hle⟩

/-- **One short holder does no harm**: the shares still sum to the whole. -/
theorem sum_roundedShares (hnodup : (exact.map Prod.fst).Nodup)
    (hshort : exact.countP (fun e => decide (e.2 < 0)) ≤ 1)
    (hsum : (exact.map Prod.snd).sum = units) :
    ((roundedShares units exact).map Prod.snd).sum = units := by
  obtain ⟨hlow, hhigh⟩ := leftOver_of_short hshort hsum
  have hle : (units - (exact.map fun e => truncated e.2).sum).toNat ≤ exact.length := by omega
  have hrounded : (roundedShares units exact).map Prod.snd = exact.map fun e => truncated e.2 +
      if e.1 ∈ favoured cutOff (units - (exact.map fun e => truncated e.2).sum).toNat exact
      then 1 else 0 := by
    rw [roundedShares, sliceTo, if_pos hlow, insertionSort_largerRemainder, List.map_map]
    rfl
  rw [hrounded, sum_favoured cutOff (fun e => truncated e.2) hnodup hle]
  omega

/-- The shares do not depend on the order of the holders. -/
theorem roundedShares_perm (hnodup : (exact.map Prod.fst).Nodup) (h : exact.Perm exact') :
    (roundedShares units exact).Perm (roundedShares units exact') := by
  have hsame : exact.insertionSort LargerRemainder = exact'.insertionSort LargerRemainder := by
    rw [insertionSort_largerRemainder, insertionSort_largerRemainder]
    exact insertionSort_largerBy_perm cutOff hnodup h
  rw [roundedShares, roundedShares, hsame, (h.map fun e => truncated e.2).sum_eq]
  exact h.map _

end Short

/-! ### The rows of an activity -/

section Rows

variable {a : AnnouncementRef} {weights weights' : OrderedDict String Share} {m : Member}
  {amount : ℚ} {parts : List (String × ℚ)} {rows : List AttributionRow}

/-- The holders weigh something together, and at most one of them is short. -/
structure Shareable (weights : OrderedDict String Share) : Prop where
  total_pos : 0 < ((weightsOf weights).map Prod.snd).sum
  short : (weightsOf weights).countP (fun e => decide (e.2 < 0)) ≤ 1

theorem wholeUnits_of_roundToCent (h : amount = roundToCent amount) :
    WholeUnits (1 / 100) amount := by
  rw [h, roundToCent]
  split
  · exact ⟨_, div_eq_mul_one_div _ _⟩
  · exact ⟨-⌊-amount * 100 + 1 / 2⌋, by push_cast; ring⟩

theorem countP_quotas (hs : Shareable weights) {units : ℤ} (hunits : 0 ≤ units) :
    (quotas units (weightsOf weights)).countP (fun e => decide (e.2 < 0)) ≤ 1 := by
  refine le_trans ?_ hs.short
  rw [quotas, List.countP_map]
  refine List.countP_mono_left fun e _ hneg => ?_
  simp only [Function.comp_apply, decide_eq_true_eq] at hneg ⊢
  by_contra hnonneg
  have hshare : 0 ≤ (units : ℚ) * e.2 :=
    mul_nonneg (by exact_mod_cast hunits) (not_lt.1 hnonneg)
  exact hneg.not_ge (div_nonneg hshare hs.total_pos.le)

theorem split_whole (hs : Shareable weights) (h : split amount weights = .ok parts) :
    (parts.map Prod.snd).sum = amount ∧ parts.map Prod.fst = weights.keys := by
  obtain ⟨_, hcents, -⟩ := except_bind_eq_ok.1 h
  have hwhole := wholeUnits_of_roundToCent (not_not.1 (haltIf_eq_ok_iff.1 hcents))
  have hunits : 0 ≤ centsOf amount := (abs_eq_units (by norm_num) hwhole).1
  have habs : |amount| = (centsOf amount : ℚ) * (1 / 100) :=
    (abs_eq_units (by norm_num) hwhole).2
  have hsum : ((quotas (centsOf amount) (weightsOf weights)).map Prod.snd).sum =
      (centsOf amount : ℚ) := sum_quotas hs.total_pos.ne'
  have hkeys : (quotas (centsOf amount) (weightsOf weights)).map Prod.fst = weights.keys := by
    rw [keys_quotas, keys_weightsOf]
  have hrounded := sum_roundedShares (by rw [hkeys]; exact weights.nodup_keys)
    (countP_quotas hs hunits) hsum
  rw [split_ok hwhole hs.total_pos.ne'] at h
  obtain rfl := Except.ok.inj h
  constructor
  · have hscale : ∀ (l : List (String × ℤ)) (s : ℚ),
        ((l.map fun e => (e.1, s * (e.2 : ℚ) * (1 / 100))).map Prod.snd).sum =
          s * (((l.map Prod.snd).sum : ℤ) * (1 / 100)) := by
      intro l s
      induction l with
      | nil => simp
      | cons e rest ih =>
          simp only [List.map_cons, List.sum_cons, ih]
          push_cast
          ring
    rw [hscale, hrounded, ← habs, signed_abs]
  · rw [← hkeys, roundedShares, List.map_map, List.map_map]
    rfl

/-- A row, as it is built from a part. -/
structure RowOf (weights : OrderedDict String Share) (m : Member) (part : String × ℚ)
    (row : AttributionRow) : Prop where
  activityId : row.activityId = m.activityId
  holderId : row.holderId = part.1
  amount : row.amount = part.2
  share : ∃ share, weights.get? part.1 = some share ∧ row.bucket = share.bucket ∧
    row.eligibleQty = if share.bucket = "excluded_unallocated" then none else some share.weight

theorem forall₂_filterMap {α β : Type} {R : α → β → Prop} {f : α → Option β} {l : List α}
    (h : ∀ x ∈ l, ∃ y, f x = some y ∧ R x y) : List.Forall₂ R l (l.filterMap f) := by
  induction l with
  | nil => exact .nil
  | cons x rest ih =>
      obtain ⟨y, hy, hR⟩ := h x List.mem_cons_self
      rw [List.filterMap_cons_some hy]
      exact .cons hR (ih fun z hz => h z (List.mem_cons_of_mem _ hz))

theorem forall₂_rowsOf (hs : Shareable weights) (h : rowsOf a weights m = .ok rows) :
    ∃ parts, split m.amount weights = .ok parts ∧ List.Forall₂ (RowOf weights m) parts rows := by
  obtain ⟨parts, hparts, h⟩ := except_bind_eq_ok.1 h
  obtain rfl := Except.ok.inj h
  refine ⟨parts, hparts, forall₂_filterMap fun p hp => ?_⟩
  have hkey : p.1 ∈ weights.keys := by
    rw [← (split_whole hs hparts).2]
    exact List.mem_map_of_mem hp
  obtain ⟨share, hshare⟩ := OrderedDict.mem_keys.1 hkey
  have hget := OrderedDict.get?_eq_some_iff.2 hshare
  exact ⟨_, by rw [hget]; rfl, rfl, rfl, rfl, share, hget, rfl, rfl⟩

/-- **The rows of an activity sum to its amount, and name each holder once.** -/
theorem rowsOf_sound (hs : Shareable weights) (h : rowsOf a weights m = .ok rows) :
    (rows.map (·.amount)).sum = m.amount ∧ rows.map (·.holderId) = weights.keys := by
  obtain ⟨parts, hparts, hrows⟩ := forall₂_rowsOf hs h
  obtain ⟨hsum, hkeys⟩ := split_whole hs hparts
  have hamounts : parts.map Prod.snd = rows.map (·.amount) :=
    map_eq_of_forall₂ hrows fun _ _ hrow => hrow.amount.symm
  have hholders : parts.map Prod.fst = rows.map (·.holderId) :=
    map_eq_of_forall₂ hrows fun _ _ hrow => hrow.holderId.symm
  rw [← hamounts, ← hholders]
  exact ⟨hsum, hkeys⟩

theorem share_of_row (hs : Shareable weights) (h : rowsOf a weights m = .ok rows)
    {row : AttributionRow} (hrow : row ∈ rows) :
    ∃ share, weights.get? row.holderId = some share ∧ row.bucket = share.bucket ∧
      row.eligibleQty =
        if share.bucket = "excluded_unallocated" then none else some share.weight := by
  obtain ⟨parts, -, hrows⟩ := forall₂_rowsOf hs h
  obtain ⟨part, -, hpart⟩ := exists_left_of_forall₂ hrows hrow
  rw [hpart.holderId]
  exact hpart.share

theorem sum_eligibleQty (hs : Shareable weights) (h : rowsOf a weights m = .ok rows)
    (hbuckets : ∀ share ∈ weights.values, share.bucket ≠ "excluded_unallocated") :
    (rows.map fun row => row.eligibleQty.getD 0).sum = ((weightsOf weights).map Prod.snd).sum := by
  have hrows : (rows.map fun row => row.eligibleQty.getD 0) =
      (rows.map (·.holderId)).map fun k => ((weights.get? k).map Share.weight).getD 0 := by
    rw [List.map_map]
    refine List.map_congr_left fun row hrow => ?_
    obtain ⟨share, hget, -, heligible⟩ := share_of_row hs h hrow
    have hmem : share ∈ weights.values :=
      OrderedDict.mem_values.2 ⟨_, OrderedDict.get?_eq_some_iff.1 hget⟩
    rw [heligible, if_neg (hbuckets share hmem), Function.comp_apply, hget]
    rfl
  have hweights : (weights.keys.map fun k => ((weights.get? k).map Share.weight).getD 0) =
      (weightsOf weights).map Prod.snd := by
    rw [OrderedDict.keys, weightsOf, List.map_map, List.map_map]
    refine List.map_congr_left fun e he => ?_
    have hget : weights.get? e.1 = some e.2 := OrderedDict.get?_eq_some_iff.2 he
    simp [hget]
  rw [hrows, (rowsOf_sound hs h).2, hweights]

/-- What can go wrong with the rows of an activity. -/
theorem rowsOf_error (hs : Shareable weights) {halt : Halt} (h : rowsOf a weights m = .error halt) :
    halt = .unresolved "DIVIDEND_AMOUNT_NOT_CENTS" none := by
  unfold rowsOf at h
  by_cases hcents : m.amount = roundToCent m.amount
  · rw [split_ok (wholeUnits_of_roundToCent hcents) hs.total_pos.ne'] at h
    cases h
  · have hsplit : split m.amount weights =
        .error (.unresolved "DIVIDEND_AMOUNT_NOT_CENTS" none) := by
      rw [split, haltIf, if_pos hcents]
      rfl
    rw [hsplit] at h
    exact (Except.error.inj h).symm

end Rows

/-! ### The weights of the holders -/

section Weights

variable {strategy strategy' : OrderedDict String ℚ} {one : Evaluated} {qty : ℚ} {w : Weighing}

theorem entries_strategyShares (strategy : OrderedDict String ℚ) :
    (strategyShares strategy).entries =
      strategy.entries.map fun e => (e.1, ⟨e.2, "strategy", "fills"⟩) := by
  refine OrderedDict.entries_ofList ?_
  rw [List.map_map]
  exact strategy.nodup

theorem keys_strategyShares (strategy : OrderedDict String ℚ) :
    (strategyShares strategy).keys = strategy.keys := by
  rw [OrderedDict.keys, entries_strategyShares, List.map_map]
  rfl

theorem weightsOf_strategyShares (strategy : OrderedDict String ℚ) :
    weightsOf (strategyShares strategy) = strategy.entries := by
  rw [weightsOf, entries_strategyShares, List.map_map]
  exact List.map_id' _

/-- The strategy's lots, and an inherited holding after them. -/
theorem entries_insert_inherited {i : Inherited} {share : Share} (h : i.holderId ∉ strategy.keys) :
    ((strategyShares strategy).insert i.holderId share).entries =
      (strategyShares strategy).entries ++ [(i.holderId, share)] :=
  OrderedDict.entries_insert_of_notMem (by rwa [keys_strategyShares])

theorem countP_positive (hpos : ∀ e ∈ strategy.entries, 0 < e.2) :
    strategy.entries.countP (fun e => decide (e.2 < 0)) = 0 :=
  List.countP_eq_zero.2 fun e he => by simpa using (hpos e he).le

/-- How the holders of a group are weighed. -/
inductive Weighed (one : Evaluated) (qty : ℚ) : Weighing → Prop
  | unallocated (hzero : one.total = 0) :
      Weighed one qty ⟨.excludedUnallocated, false, OrderedDict.ofList
        [("excluded_unallocated", ⟨1, "excluded_unallocated", "not_established"⟩)]⟩
  | strategy (htotal : one.total = qty) :
      Weighed one qty ⟨.verified, true, strategyShares one.strategy⟩
  | inherited (i : Inherited) (hi : one.inherited = some i)
      (htotal : one.total + i.quantity.getD 0 = qty) :
      Weighed one qty ⟨.verified, true, (strategyShares one.strategy).insert i.holderId
        ⟨i.quantity.getD 0, i.bucket, "checkpoint_plus_activity"⟩⟩

/-- The announcement that is attributed explains the quantity, or nothing is known of what was
inherited. -/
theorem chosen_ok {evaluated : List Evaluated} (h : chosen evaluated qty = .ok one) :
    one ∈ evaluated ∧ (one.explains qty = true ∨ one.unestablished = true) := by
  unfold chosen at h
  split at h
  · rename_i e hfilter
    obtain rfl := Except.ok.inj h
    have hmem : e ∈ evaluated.filter (·.explains qty) := by simp [hfilter]
    exact ⟨(List.mem_filter.1 hmem).1, .inl (List.mem_filter.1 hmem).2⟩
  · cases h
  · split at h
    · rename_i hall
      split at h
      · obtain rfl := Except.ok.inj h
        refine ⟨List.mem_singleton.2 rfl, .inr ?_⟩
        exact List.all_eq_true.1 hall _ (List.mem_singleton.2 rfl)
      · cases h
    · cases h

theorem weigh_ok (hchosen : one.explains qty = true ∨ one.unestablished = true)
    (h : weigh one qty = .ok w) : Weighed one qty w := by
  unfold weigh at h
  dsimp only at h
  unfold Evaluated.explains Evaluated.unestablished at hchosen
  cases hinherited : one.inherited with
  | none =>
      rw [hinherited] at h
      dsimp only at h
      split at h
      · rename_i hzero
        obtain rfl := Except.ok.inj h
        exact .unallocated hzero
      · split at h
        · rename_i htotal
          obtain rfl := Except.ok.inj h
          exact .strategy htotal
        · cases h
  | some i =>
      rw [hinherited] at h hchosen
      dsimp only at h
      split at h
      · rename_i hestablished
        have htotal : one.total + i.quantity.getD 0 = qty := by
          simpa [hestablished] using hchosen
        obtain rfl := Except.ok.inj h
        by_cases hquantity : i.quantity.getD 0 = 0
        · rw [hquantity, add_zero] at htotal
          simp only [hquantity, if_true]
          exact .strategy htotal
        · simp only [if_neg hquantity]
          exact .inherited i hinherited htotal
      · split at h
        · rename_i hzero
          obtain rfl := Except.ok.inj h
          exact .unallocated hzero
        · cases h

/-- **The holders of a verified group weigh the quantity that was paid for**, and at most the
inherited holding is short. -/
theorem weigh_sound (hpos : ∀ e ∈ one.strategy.entries, 0 < e.2)
    (hholder : ∀ i, one.inherited = some i → i.holderId ∉ one.strategy.keys) (hqty : 0 < qty)
    (h : Weighed one qty w) :
    Shareable w.weights ∧
      (w.status = .verified → ((weightsOf w.weights).map Prod.snd).sum = qty) := by
  cases h with
  | unallocated hzero => exact ⟨⟨by decide +kernel, by decide +kernel⟩, by rintro ⟨⟩⟩
  | strategy htotal =>
      have hsum : ((weightsOf (strategyShares one.strategy)).map Prod.snd).sum = qty := by
        rw [weightsOf_strategyShares]
        exact htotal
      refine ⟨⟨hsum ▸ hqty, ?_⟩, fun _ => hsum⟩
      rw [weightsOf_strategyShares, countP_positive hpos]
      exact zero_le_one
  | inherited i hi htotal =>
      have hweights : weightsOf ((strategyShares one.strategy).insert i.holderId
          ⟨i.quantity.getD 0, i.bucket, "checkpoint_plus_activity"⟩) =
            one.strategy.entries ++ [(i.holderId, i.quantity.getD 0)] := by
        rw [weightsOf, entries_insert_inherited (hholder i hi), List.map_append, ← weightsOf,
          weightsOf_strategyShares]
        rfl
      have hsum : ((one.strategy.entries ++ [(i.holderId, i.quantity.getD 0)]).map Prod.snd).sum =
          qty := by
        rw [List.map_append, List.sum_append, ← htotal]
        simp [Evaluated.total, OrderedDict.values]
      refine ⟨⟨by rw [hweights, hsum]; exact hqty, ?_⟩, fun _ => by rw [hweights]; exact hsum⟩
      rw [hweights, List.countP_append, countP_positive hpos, zero_add]
      exact List.countP_le_length

/-- The buckets of a verified group: the strategy's lots, and the inherited holding. -/
theorem bucket_of_weighed (h : Weighed one qty w) (hverified : w.status = .verified) {k : String}
    {share : Share} (hget : w.weights.get? k = some share) :
    (share.bucket = "strategy" ∧ (k, share.weight) ∈ one.strategy.entries) ∨
      ∃ i, one.inherited = some i ∧ share.bucket = i.bucket := by
  have hmem := OrderedDict.get?_eq_some_iff.1 hget
  have hlots : ∀ e ∈ (strategyShares one.strategy).entries,
      e.2.bucket = "strategy" ∧ (e.1, e.2.weight) ∈ one.strategy.entries := by
    intro e he
    rw [entries_strategyShares] at he
    obtain ⟨f, hf, rfl⟩ := List.mem_map.1 he
    exact ⟨rfl, hf⟩
  cases h with
  | unallocated hzero => cases hverified
  | strategy htotal => exact .inl (hlots _ hmem)
  | inherited i hi htotal =>
      rcases OrderedDict.mem_insert.1 hmem with ⟨rfl, rfl⟩ | ⟨-, hold⟩
      · exact .inr ⟨i, hi, rfl⟩
      · exact .inl (hlots _ hold)

end Weights

end Dividends

end TradePulse
