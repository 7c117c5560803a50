/-
**Three builders of a holding.**

A holding is derived from the lots of its instrument, in three places.  Settlement sums the open
lots and takes the protective levels of the entry behind the oldest one, and the sector of the
execution it settles.  Reconciliation does so again where a holding is missing or wrong, and knows
no sector.  A replay of fees recomputes the quantity and the average price of the holding that is
there, and leaves its levels and its sector as they are, although the fees may have consumed the
oldest lot.

Main definitions:

* `HoldingView` — what the three are to agree on;
* `entryLevels` — the levels of the entry behind a lot;
* `settledHolding`, `rebuildHoldingFromLots` — the builders of settlement and of reconciliation;
* `ReplayedFrom` — a replay of fees that led to a store;
* `BuildersAgree`, `SameOrigin` — agreement, and when there is.

Main results:

* `view_settled`, `view_rebuilt`, `view_replayed` — what each of the builders gives;
* `builders_agree_iff` — **when the three agree**;
* `builders_disagree` — a replay that consumes the first entry keeps its levels.
-/

import TradePulse.Quarantine.Commands
import TradePulse.Reconciliation.FeeReplay
import TradePulse.Settlement.Resuming

set_option autoImplicit false

namespace TradePulse

namespace HistoricalFees

open Process Settlement Storage

/-! ### The builders -/

/-- What the builders of a holding are to agree on. -/
structure HoldingView where
  quantity : ℚ
  averagePrice : ℚ
  stopLoss : Option ℚ
  targetPrice : Option ℚ
  sector : Option String
  deriving DecidableEq

/-- What the builders are to agree on, of a holding. -/
def viewOf (h : Holding) : HoldingView :=
  ⟨h.quantity, h.averagePrice, h.stopLoss, h.targetPrice, h.sector⟩

/-- The lots that settlement and reconciliation sum. -/
def openLots (s : Store) (asset : AssetIdentity) : List PositionLot :=
  (visibleLots s asset).filter fun l => l.isOpen

/-- The holding after settlement projected it, with nothing in between. -/
def settledHolding (i : Outside) (event : SettlementEvent) (s : Store) :
    Except Raised (Option Holding) :=
  match alone exec i (projectHolding event) s with
  | (.ok _, t) => .ok (t.holdings.get? (holdingRecordId event.asset))
  | (.error e, _) => .error e

/-- `_rebuild_holding_from_lots`. -/
def rebuildHoldingFromLots (s : Store) (asset : AssetIdentity) (now : Instant)
    (previous : Option Holding) : Except Raised (Option Holding) :=
  match oldestLot (openLots s asset) with
  | none => .ok none
  | some oldest =>
      let lots := openLots s asset
      let rebuilt : HoldingFields :=
        { asset := asset
          quantity := sumOver lots fun l => l.signedQuantity
          averagePrice := averagePrice lots
          updatedAt := now }
      if oldest.origin = .adopted then do
        let adoption ← adoptionForLot s oldest
        match previous with
        | some p =>
            -- a rebuild never lowers the ratcheted stop or repeats a scale-out
            let holding ← Holding.make
              { rebuilt with
                stopLoss := some adoption.stopLoss
                currentStop := p.currentStop
                scaledOut := p.scaledOut }
            return some holding
        | none =>
            let sold := lots.any fun l => !l.closures.entries.isEmpty
            let holding ← Holding.make
              { rebuilt with
                stopLoss := some adoption.stopLoss
                currentStop := if sold then some (averagePrice lots) else none
                scaledOut := sold }
            return some holding
      else do
        let intent := (s.fills.get? oldest.originatingFillId).bind fun fill =>
          s.tradeIntents.get? fill.tradeIntentId
        let holding ← Holding.make
          { rebuilt with
            stopLoss := intent.bind fun t => t.stopLoss
            targetPrice := intent.bind fun t => t.targetPrice }
        return some holding

/-- A replay of fees that led to a store. -/
structure ReplayedFrom (asset : AssetIdentity) (s : Store) where
  before : Store
  population : Except Raised ReplayPopulation
  records : Except Raised Unit
  now : Instant
  committed : replayAssetFees before asset population records now = .ok s

/-- Only short lots were converted. -/
def OnlyShortConverted (s : Store) : Prop :=
  ∀ l ∈ s.positionLots, l.lotId ∈ s.convertedLots → l.positionSide = .short

/-! ### What each of the builders gives -/

/-- The levels of the entry behind a lot. -/
def entryLevels (s : Store) (lot : PositionLot) : Except Raised (Option ℚ × Option ℚ) :=
  if lot.origin = .adopted then (adoptionForLot s lot).map fun a => (some a.stopLoss, none)
  else
    let intent := (s.fills.get? lot.originatingFillId).bind fun fill =>
      s.tradeIntents.get? fill.tradeIntentId
    .ok (intent.bind fun t => t.stopLoss, intent.bind fun t => t.targetPrice)

/-- The sums over the open lots, with the given levels and sector. -/
def summed (lots : List PositionLot) (levels : Option ℚ × Option ℚ) (sector : Option String) :
    HoldingView :=
  ⟨sumOver lots fun l => l.signedQuantity, averagePrice lots, levels.1, levels.2, sector⟩

section

variable {s t : Store} {asset : AssetIdentity} {event : SettlementEvent} {i : Outside}

theorem alone_entryProtectiveLevels (lot : PositionLot) :
    alone exec i (entryProtectiveLevels lot) s = (entryLevels s lot, s) := by
  unfold entryProtectiveLevels entryLevels
  split
  · cases hadoption : adoptionForLot s lot with
    | error e =>
        simp only [Prog.bind_eq, alone_bind, alone_perform, once, exec, hadoption]
        rfl
    | ok a =>
        simp only [Prog.bind_eq, alone_bind, alone_perform, once, exec, hadoption]
        rfl
  · unfold openingIntentOf
    cases hfill : s.fills.get? lot.originatingFillId with
    | none =>
        simp only [Prog.bind_eq, alone_bind, alone_perform, once, exec, hfill]
        rfl
    | some fill =>
        cases hintent : s.tradeIntents.get? fill.tradeIntentId with
        | none =>
            simp only [Prog.bind_eq, alone_bind, alone_perform, once, exec, hfill, hintent,
              andThen_ok, Option.bind_some]
            rfl
        | some intent =>
            simp only [Prog.bind_eq, alone_bind, alone_perform, once, exec, hfill, hintent,
              andThen_ok, Option.bind_some]
            rfl

/-- The fields that settlement and reconciliation derive. -/
def projectedFields (asset : AssetIdentity) (updatedAt : Instant) (lots : List PositionLot)
    (levels : Option ℚ × Option ℚ) (sector : Option String) : HoldingFields where
  asset := asset
  quantity := sumOver lots fun l => l.signedQuantity
  averagePrice := averagePrice lots
  updatedAt := updatedAt
  sector := sector
  stopLoss := levels.1
  targetPrice := levels.2

theorem get?_createHolding {lots : List PositionLot} {made : Holding} {guardKey : Option String} {u : Unit}
    (hrow : s.holdings.get? (holdingRecordId made.asset) = none)
    (h : andThen (once exec (.createHolding lots made guardKey) i s)
      (fun _ v => (.ok (), v)) = (.ok u, t)) :
    ∃ holding, t.holdings.get? (holdingRecordId made.asset) = some holding ∧
      viewOf holding = viewOf made := by
  have hadmits : s.holdings.Admits made := fun a ha =>
    ⟨Table.get?_eq_none_iff.1 hrow a ha, .inl rfl⟩
  simp only [once, exec] at h
  cases hheld : checkIntegrityHold s guardKey with
  | error e =>
      rw [hheld] at h
      cases h
  | ok _ =>
      rw [hheld] at h
      cases h
      exact ⟨made, Table.get?_createOnce_self hadmits, rfl⟩

theorem get?_mutateHolding {lots : List PositionLot} {made row : Holding} {guardKey : Option String} {u : Unit}
    (hrow : s.holdings.get? (holdingRecordId made.asset) = some row)
    (h : andThen (once exec (.mutateHolding lots made guardKey) i s)
      (fun _ v => (.ok (), v)) = (.ok u, t)) :
    ∃ holding, t.holdings.get? (holdingRecordId made.asset) = some holding ∧
      viewOf holding = viewOf made := by
  simp only [once, exec] at h
  cases hmutate : mutateHolding s made guardKey with
  | error e =>
      rw [hmutate] at h
      cases h
  | ok r =>
      rw [hmutate] at h
      cases h
      obtain ⟨hnone, -, -⟩ | ⟨current, holding, hget, hfields, -, hstore⟩ :=
        mutateHolding_ok (show mutateHolding s made guardKey = .ok (r.1, r.2) from hmutate)
      · rw [hrow] at hnone
        cases hnone
      · have hid : holdingRecordId holding.asset = holdingRecordId made.asset :=
          (congrArg (fun f : HoldingFields => holdingRecordId f.asset) hfields).trans rfl
        obtain ⟨hmem, hkey⟩ := Table.get?_eq_some_iff.1 hrow
        refine ⟨holding, ?_, ?_⟩
        · rw [hstore, ← hid]
          exact Table.get?_put_self hmem ⟨hkey.trans hid.symm, rfl⟩
        · exact (congrArg (fun f : HoldingFields => (⟨f.quantity, f.averagePrice, f.stopLoss,
            f.targetPrice, f.sector⟩ : HoldingView)) hfields).trans rfl

/-- What a projection that completes leaves: no holding, or one of the fields that it derives. -/
theorem projectHolding_ok {u : Unit} (h : alone exec i (projectHolding event) s = (.ok u, t)) :
    (oldestLot (openLots s event.asset) = none ∧
      t.holdings.get? (holdingRecordId event.asset) = none) ∨
    ∃ oldest levels made holding, oldestLot (openLots s event.asset) = some oldest ∧
      entryLevels s oldest = .ok levels ∧
      Holding.make (projectedFields event.asset event.occurredAt (openLots s event.asset) levels
        event.sector) = .ok made ∧
      t.holdings.get? (holdingRecordId event.asset) = some holding ∧
      viewOf holding = viewOf made := by
  have hread : alone exec i (unconvertedLots .projectHolding event.asset) s
      = (.ok (visibleLots s event.asset), s) := rfl
  unfold projectHolding at h
  simp only [Prog.bind_eq, alone_bind, hread, andThen_ok, alone_perform, once, exec] at h
  change alone exec i (match oldestLot (openLots s event.asset) with
    | none => _
    | some _ => _) s = _ at h
  cases holdest : oldestLot (openLots s event.asset) with
  | none =>
      left
      refine ⟨rfl, ?_⟩
      rw [holdest] at h
      cases hrow : s.holdings.get? (holdingRecordId event.asset) with
      | none =>
          rw [hrow] at h
          cases h
          exact hrow
      | some row =>
          rw [hrow] at h
          simp only [Option.isSome_some, if_true, alone_bind, alone_perform, once, exec] at h
          cases hheld : checkIntegrityHold s event.brokerOrderId with
          | error e =>
              rw [hheld] at h
              cases h
          | ok _ =>
              rw [hheld] at h
              cases h
              exact Table.get?_eq_none_iff.2 fun a ha => (Table.mem_delete.1 ha).2
  | some oldest =>
      right
      rw [holdest] at h
      simp only [alone_bind, alone_entryProtectiveLevels, alone_ofExcept] at h
      cases hlevels : entryLevels s oldest with
      | error e =>
          rw [hlevels] at h
          cases h
      | ok levels =>
          simp only [hlevels, andThen_ok] at h
          change andThen (Holding.make (projectedFields event.asset event.occurredAt
            (openLots s event.asset) levels event.sector), s) _ = _ at h
          cases hmade : Holding.make (projectedFields event.asset event.occurredAt
              (openLots s event.asset) levels event.sector) with
          | error e =>
              rw [hmade] at h
              cases h
          | ok made =>
              rw [hmade, andThen_ok] at h
              have hfields := Holding.make_eq_ok_iff.1 hmade
              have hasset : made.asset = event.asset := congrArg (·.asset) hfields
              refine ⟨oldest, levels, made, ?_⟩
              cases hrow : s.holdings.get? (holdingRecordId event.asset) with
              | none =>
                  simp only [hrow, Option.isSome_none, Bool.false_eq_true, if_false, alone_bind,
                    alone_perform] at h
                  obtain ⟨holding, hget, hview⟩ := get?_createHolding (hasset ▸ hrow) h
                  exact ⟨holding, rfl, hlevels, hmade, hasset ▸ hget, hview⟩
              | some row =>
                  simp only [hrow, Option.isSome_some, if_true, alone_bind, alone_perform] at h
                  obtain ⟨holding, hget, hview⟩ := get?_mutateHolding (hasset ▸ hrow) h
                  exact ⟨holding, rfl, hlevels, hmade, hasset ▸ hget, hview⟩

theorem exists_make {f g : HoldingFields} {made : Holding} (hmade : Holding.make f = .ok made)
    (hquantity : g.quantity = f.quantity) (hprice : g.averagePrice = f.averagePrice)
    (hstop : g.stopLoss = f.stopLoss) (htarget : g.targetPrice = f.targetPrice)
    (hcurrent : ∀ x ∈ g.currentStop, 0 < x) :
    ∃ holding, Holding.make g = .ok holding ∧ holding.toHoldingFields = g := by
  have hvalid : Valid f := Holding.make_eq_ok_iff.1 hmade ▸ made.valid
  have hg : Valid g := by
    simp only [Valid, Checked.checks, List.mem_cons, List.not_mem_nil, or_false,
      forall_eq_or_imp, forall_eq, optionalPositiveCheck_fst] at hvalid ⊢
    obtain ⟨h₁, h₂, h₃, h₄, -⟩ := hvalid
    refine ⟨?_, ?_, ?_, ?_, hcurrent⟩
    · rw [hprice]
      exact h₁
    · rw [hquantity]
      exact h₂
    · rw [hstop]
      exact h₃
    · rw [htarget]
      exact h₄
  exact ⟨⟨g, hg⟩, Holding.make_eq_ok_iff.2 rfl, rfl⟩

theorem averagePrice_pos {f : HoldingFields} {made : Holding} (hmade : Holding.make f = .ok made) :
    0 < f.averagePrice := by
  have hvalid := made.valid
  rw [Holding.make_eq_ok_iff.1 hmade] at hvalid
  exact (positiveCheck_fst _ "average_price").1 (hvalid _ (by simp [Checked.checks]))

theorem currentStop_pos (holding : Holding) : ∀ x ∈ holding.currentStop, 0 < x :=
  (optionalPositiveCheck_fst _ "current_stop").1 (holding.valid _ (by simp [Checked.checks]))

theorem openLots_congr (hkey : assetIdentityKey asset = assetIdentityKey event.asset) :
    openLots s asset = openLots s event.asset := by
  unfold openLots visibleLots Store.lotsByAsset
  rw [hkey]

/-- The fields that settlement derives, with another time and other fields of the monitor, and
without a sector. -/
theorem exists_rebuilt {lots : List PositionLot} {levels : Option ℚ × Option ℚ} {made : Holding}
    {b : Option ℚ} {asset' : AssetIdentity} {at' : Instant} {sector : Option String}
    (asset : AssetIdentity)
    (hmade : Holding.make (projectedFields asset' at' lots levels sector) = .ok made)
    (now : Instant) (scaledOut : Bool) (hb : ∀ x ∈ b, 0 < x) :
    ∃ holding, Holding.make
        { projectedFields asset now lots levels none with
          currentStop := b
          scaledOut := scaledOut } = .ok holding ∧
      viewOf holding = summed lots levels none := by
  obtain ⟨holding, hok, hfields⟩ := exists_make hmade (g :=
    { projectedFields asset now lots levels none with
      currentStop := b
      scaledOut := scaledOut }) rfl rfl rfl rfl hb
  refine ⟨holding, hok, ?_⟩
  exact (congrArg (fun f : HoldingFields => (⟨f.quantity, f.averagePrice, f.stopLoss,
    f.targetPrice, f.sector⟩ : HoldingView)) hfields).trans rfl

/-- Where settlement can project a holding, reconciliation can rebuild it: with the same sums and
levels, and without a sector. -/
theorem rebuilt_ok (hkey : assetIdentityKey asset = assetIdentityKey event.asset) (now : Instant)
    (previous : Option Holding) {oldest : PositionLot} {levels : Option ℚ × Option ℚ}
    {made : Holding} (holdest : oldestLot (openLots s event.asset) = some oldest)
    (hlevels : entryLevels s oldest = .ok levels)
    (hmade : Holding.make (projectedFields event.asset event.occurredAt (openLots s event.asset)
      levels event.sector) = .ok made) :
    ∃ holding, rebuildHoldingFromLots s asset now previous = .ok (some holding) ∧
      viewOf holding = summed (openLots s event.asset) levels none := by
  unfold rebuildHoldingFromLots entryLevels at *
  rw [openLots_congr hkey, holdest]
  by_cases hadopted : oldest.origin = .adopted
  · simp only [hadopted, if_true] at hlevels ⊢
    cases hadoption : adoptionForLot s oldest with
    | error e =>
        rw [hadoption] at hlevels
        cases hlevels
    | ok adoption =>
        rw [hadoption] at hlevels
        cases hlevels
        cases previous with
        | some p =>
            obtain ⟨holding, hok, hview⟩ :=
              exists_rebuilt asset hmade now p.scaledOut (currentStop_pos p)
            exact ⟨holding, except_bind_eq_ok.2 ⟨adoption, rfl,
              except_bind_eq_ok.2 ⟨holding, hok, rfl⟩⟩, hview⟩
        | none =>
            have hstop : ∀ x ∈ (if (openLots s event.asset).any (fun l => !l.closures.entries.isEmpty)
                then some (averagePrice (openLots s event.asset)) else none), 0 < x := by
              intro x hx
              split at hx
              · cases hx
                exact averagePrice_pos hmade
              · cases hx
            obtain ⟨holding, hok, hview⟩ := exists_rebuilt asset hmade now
              ((openLots s event.asset).any fun l => !l.closures.entries.isEmpty) hstop
            exact ⟨holding, except_bind_eq_ok.2 ⟨adoption, rfl,
              except_bind_eq_ok.2 ⟨holding, hok, rfl⟩⟩, hview⟩
  · simp only [hadopted, if_false] at hlevels ⊢
    cases hlevels
    obtain ⟨holding, hok, hview⟩ :=
      exists_rebuilt (b := none) asset hmade now false (by simp)
    exact ⟨holding, except_bind_eq_ok.2 ⟨holding, hok, rfl⟩, hview⟩

/-! ### The sums over the open lots -/

/-- Lots of which nothing remains do not count. -/
theorem sumOver_isOpen {f : PositionLot → ℚ} (hf : ∀ l, l.remainingQuantity = 0 → f l = 0)
    (lots : List PositionLot) : sumOver (lots.filter fun l => l.isOpen) f = sumOver lots f := by
  induction lots with
  | nil => rfl
  | cons l lots ih =>
      unfold sumOver at ih ⊢
      by_cases hopen : l.isOpen = true
      · rw [List.filter_cons_of_pos hopen, List.map_cons, List.sum_cons, ih, List.map_cons,
          List.sum_cons]
      · have hzero : l.remainingQuantity = 0 :=
          le_antisymm (not_lt.1 fun hpos => hopen (PositionLot.isOpen_iff.2 hpos))
            l.remaining_nonneg
        rw [List.filter_cons_of_neg hopen, ih, List.map_cons, List.sum_cons, hf l hzero, zero_add]

theorem sumOver_perm {f : PositionLot → ℚ} {lots lots' : List PositionLot} (h : lots.Perm lots') :
    sumOver lots f = sumOver lots' f := (h.map f).sum_eq

theorem sumOver_congr {f g : PositionLot → ℚ} {lots : List PositionLot}
    (h : ∀ l ∈ lots, f l = g l) : sumOver lots f = sumOver lots g :=
  congrArg List.sum (List.map_congr_left h)

theorem signedQuantity_of_remaining (l : PositionLot) (h : l.remainingQuantity = 0) :
    l.signedQuantity = 0 := by
  unfold PositionLot.signedQuantity
  split <;> simp [h]

theorem signedQuantity_of_long {l : PositionLot} (h : l.positionSide = .long) :
    l.signedQuantity = l.remainingQuantity := by
  simp [PositionLot.signedQuantity, h]

theorem oldestLot_eq_none {lots : List PositionLot} : oldestLot lots = none ↔ lots = [] := by
  cases lots <;> simp [oldestLot]

/-- What long lots hold is positive while one of them is open. -/
theorem quantityOf_eq_zero {lots : List PositionLot} (hlong : ∀ l ∈ lots, l.positionSide = .long) :
    quantityOf lots = 0 ↔ lots.filter (fun l => l.isOpen) = [] := by
  unfold quantityOf
  rw [← sumOver_isOpen signedQuantity_of_remaining]
  constructor
  · intro hzero
    by_contra hne
    have hpos : 0 < sumOver (lots.filter fun l => l.isOpen) fun l => l.signedQuantity := by
      refine List.sum_pos _ (fun q hq => ?_) (by simpa using hne)
      obtain ⟨l, hl, rfl⟩ := List.mem_map.1 hq
      obtain ⟨hmem, hopen⟩ := List.mem_filter.1 hl
      rw [signedQuantity_of_long (hlong l hmem)]
      exact PositionLot.isOpen_iff.1 hopen
    exact hpos.ne' hzero
  · intro hempty
    rw [hempty]
    rfl

/-- The lots that were replayed are all visible. -/
theorem openLots_of_long (honly : OnlyShortConverted s)
    (hlong : ∀ l ∈ s.lotsByAsset asset, l.positionSide = .long) :
    openLots s asset = (s.lotsByAsset asset).filter fun l => l.isOpen := by
  unfold openLots
  congr 1
  refine List.filter_eq_self.2 fun l hl => ?_
  by_contra hconverted
  have hmem : l.lotId ∈ s.convertedLots := by simpa using hconverted
  have hshort := honly l (Store.mem_lotsByAsset.1 hl).1 hmem
  rw [hlong l hl] at hshort
  cases hshort

/-- What a replay leaves: no holding, or the sums with the levels and the sector of before. -/
theorem view_replayed (r : ReplayedFrom asset s) (honly : OnlyShortConverted s) :
    (oldestLot (openLots s asset) = none ∧ s.holdings.get? (holdingRecordId asset) = none) ∨
    (oldestLot (openLots s asset) ≠ none ∧
      ∃ previous holding, r.before.holdings.get? (holdingRecordId asset) = some previous ∧
        s.holdings.get? (holdingRecordId asset) = some holding ∧
        viewOf holding
          = summed (openLots s asset) (previous.stopLoss, previous.targetPrice) previous.sector) := by
  obtain ⟨p, restated, -, ⟨realized, hrestated⟩, hwrite⟩ := replayAssetFees_ok r.committed
  have hwrote := Restatement.write_ok hwrite
  have hperm := hrestated.perm_lotsByAsset hwrote
  have hlong : ∀ l ∈ s.lotsByAsset asset, l.positionSide = .long :=
    fun l hl => hrestated.long (hperm.subset hl)
  have hopen := openLots_of_long honly hlong
  have hquantity : quantityOf restated.lots = quantityOf (s.lotsByAsset asset) :=
    (sumOver_perm hperm).symm
  have hsigned : quantityOf (s.lotsByAsset asset)
      = sumOver (openLots s asset) fun l => l.signedQuantity := by
    rw [hopen, sumOver_isOpen signedQuantity_of_remaining]
    rfl
  rw [hrestated.get?_holding hwrote, ne_eq, oldestLot_eq_none]
  obtain ⟨hzero, hnone⟩ | ⟨previous, holding, hne, hprevious, hholding, hfrom⟩ :=
    restatedHolding_ok hrestated.holding
  · left
    rw [hquantity, quantityOf_eq_zero hlong] at hzero
    exact ⟨hopen.trans hzero, hnone⟩
  · right
    rw [hquantity, ne_eq, quantityOf_eq_zero hlong] at hne
    refine ⟨fun hempty => hne (hopen.symm.trans hempty), previous, holding, hprevious, hholding, ?_⟩
    have hcost : sumOver restated.lots (fun l => l.remainingQuantity * l.acquisitionPrice)
        = sumOver (openLots s asset) fun l => l.remainingQuantity * l.acquisitionPrice := by
      rw [hopen, sumOver_isOpen fun l hl => by rw [hl, zero_mul]]
      exact (sumOver_perm hperm).symm
    have hremaining : (sumOver (openLots s asset) fun l => l.signedQuantity)
        = sumOver (openLots s asset) fun l => l.remainingQuantity := by
      refine sumOver_congr fun l hl => signedQuantity_of_long (hlong l ?_)
      rw [hopen] at hl
      exact (List.mem_filter.1 hl).1
    unfold viewOf summed averagePrice
    rw [hfrom.quantity, hfrom.averagePrice, hfrom.levels.1, hfrom.levels.2, hfrom.sector, hquantity,
      hsigned, hcost, hremaining]

/-! ### When the builders agree -/

/-- Settlement projects a holding, reconciliation rebuilds it, and both are what a replay of fees
left, where there was one; or none of them has a holding. -/
def BuildersAgree (i : Outside) (event : SettlementEvent) (now : Instant)
    (previous : Option Holding) (s : Store) (replay : Option (ReplayedFrom event.asset s)) : Prop :=
  ∃ settled rebuilt, settledHolding i event s = .ok settled ∧
    rebuildHoldingFromLots s event.asset now previous = .ok rebuilt ∧
    rebuilt.map viewOf = settled.map viewOf ∧
    ∀ _ ∈ replay, (s.holdings.get? (holdingRecordId event.asset)).map viewOf = settled.map viewOf

/-- No lot is open; or the execution names no sector and, where fees were replayed, neither did the
holding of before, which had the levels of the entry behind the lot that is the oldest now. -/
def SameOrigin (event : SettlementEvent) (s : Store)
    (replay : Option (ReplayedFrom event.asset s)) : Prop :=
  ∀ oldest ∈ oldestLot (openLots s event.asset), event.sector = none ∧
    ∀ r ∈ replay, ∀ p ∈ r.before.holdings.get? (holdingRecordId event.asset),
      p.sector = none ∧ entryLevels s oldest = .ok (p.stopLoss, p.targetPrice)

/-- **When the builders agree.**  Of any lots of which only short ones were converted, where
settlement can project the holding: the three builders give the same exactly if no lot is open, or
the execution that is settled names no sector and a replay of fees found the levels of the entry
that governs after it. -/
theorem builders_agree_iff {now : Instant} {previous : Option Holding}
    {replay : Option (ReplayedFrom event.asset s)} (honly : OnlyShortConverted s)
    (hsettles : ∃ settled, settledHolding i event s = .ok settled) :
    BuildersAgree i event now previous s replay ↔ SameOrigin event s replay := by
  obtain ⟨settled, hsettled⟩ := hsettles
  have hrun : ∃ u t, alone exec i (projectHolding event) s = (.ok u, t) ∧
      t.holdings.get? (holdingRecordId event.asset) = settled := by
    unfold settledHolding at hsettled
    split at hsettled
    · rename_i u t halone
      exact ⟨u, t, halone, Except.ok.inj hsettled⟩
    · cases hsettled
  obtain ⟨u, t, halone, hfinal⟩ := hrun
  obtain ⟨hnone, hgone⟩ | ⟨oldest, levels, made, holding, holdest, hlevels, hmade, hget, hview⟩ :=
    projectHolding_ok halone
  · -- no lot is open: none of them has a holding
    have hsettledNone : settled = none := hfinal.symm.trans hgone
    refine iff_of_true ⟨settled, none, hsettled, ?_, by rw [hsettledNone], fun r _ => ?_⟩ ?_
    · unfold rebuildHoldingFromLots
      rw [hnone]
    · obtain ⟨-, hrow⟩ | ⟨hsome, -⟩ := view_replayed r honly
      · rw [hrow, hsettledNone]
      · exact absurd hnone hsome
    · intro oldest holdest
      rw [hnone] at holdest
      cases holdest
  · have hsettledSome : settled = some holding := hfinal.symm.trans hget
    have hsettledView : viewOf holding = summed (openLots s event.asset) levels event.sector := by
      rw [hview]
      have hfields := Holding.make_eq_ok_iff.1 hmade
      exact (congrArg (fun f : HoldingFields => (⟨f.quantity, f.averagePrice, f.stopLoss,
        f.targetPrice, f.sector⟩ : HoldingView)) hfields).trans rfl
    obtain ⟨rebuilt, hrebuilt, hrebuiltView⟩ :=
      rebuilt_ok rfl now previous holdest hlevels hmade
    constructor
    · rintro ⟨settled', rebuilt', hs, hr, hsame, hreplayed⟩ oldest' holdest'
      rw [holdest] at holdest'
      cases holdest'
      rw [hsettled] at hs
      cases hs
      rw [hrebuilt] at hr
      cases hr
      rw [hsettledSome, Option.map_some, Option.map_some, hsettledView, hrebuiltView] at hsame
      have hsector : event.sector = none := by
        have := congrArg HoldingView.sector (Option.some.inj hsame)
        exact this.symm
      refine ⟨hsector, fun r hr p hp => ?_⟩
      have hrow := hreplayed r hr
      obtain ⟨hnone, -⟩ | ⟨-, before, after, hbefore, hafter, hafterView⟩ := view_replayed r honly
      · rw [holdest] at hnone
        cases hnone
      · rw [hbefore] at hp
        cases hp
        rw [hafter, hsettledSome, Option.map_some, Option.map_some, hafterView, hsettledView] at hrow
        have hview := Option.some.inj hrow
        have hstop : p.stopLoss = levels.1 := congrArg HoldingView.stopLoss hview
        have htarget : p.targetPrice = levels.2 := congrArg HoldingView.targetPrice hview
        refine ⟨(congrArg HoldingView.sector hview).trans hsector, ?_⟩
        rw [hlevels, hstop, htarget]
    · intro hsame
      obtain ⟨hsector, hreplayed⟩ := hsame oldest holdest
      refine ⟨settled, some rebuilt, hsettled, hrebuilt, ?_, fun r hr => ?_⟩
      · rw [hsettledSome, Option.map_some, Option.map_some, hsettledView, hrebuiltView, hsector]
      · obtain ⟨hnone, -⟩ | ⟨-, before, after, hbefore, hafter, hafterView⟩ :=
          view_replayed r honly
        · rw [holdest] at hnone
          cases hnone
        · obtain ⟨hbeforeSector, hbeforeLevels⟩ := hreplayed r hr before hbefore
          rw [hlevels] at hbeforeLevels
          rw [hafter, hsettledSome, Option.map_some, Option.map_some, hafterView, hsettledView,
            hsector, hbeforeSector, Except.ok.inj hbeforeLevels]

end

/-! ### A replay that consumes the first entry -/

/-- A purchase of the examples, for an intent of its own and an order of its own. -/
def purchase (id : String) (quantity : ℚ) (occurredAt : Instant) : SettlementEventFields :=
  { settledFill id .buy quantity occurredAt with
    tradeIntentId := id
    brokerOrderId := some id }

/-- The fill behind an execution. -/
def fillBehind (event : SettlementEventFields) : FillFields :=
  { fillId := event.fillId
    orderId := event.brokerOrderId.getD ""
    tradeIntentId := event.tradeIntentId
    asset := event.asset
    side := event.side
    executionMode := event.executionMode
    quantity := event.quantity
    price := event.price
    fees := event.fees
    filledAt := event.occurredAt
    brokerFillId := event.brokerFillId }

/-- The intent behind an execution. -/
def intentBehind (event : SettlementEventFields) (stopLoss : ℚ) : TradeIntent :=
  { tradeIntentId := event.tradeIntentId
    idempotencyKey := event.tradeIntentId
    correlationId := event.tradeIntentId
    asset := event.asset
    side := event.side
    executionMode := event.executionMode
    strategy := "strategy"
    createdAt := 0
    stopLoss := some stopLoss }

def firstEntry : SettlementEvent := ⟨purchase "first" 1 1, by decide +kernel⟩
def secondEntry : SettlementEvent := ⟨purchase "second" 2 2, by decide +kernel⟩
def firstLot : PositionLot := ⟨openedBy "lot 1" firstEntry, by decide +kernel⟩
def secondLot : PositionLot := ⟨openedBy "lot 2" secondEntry, by decide +kernel⟩

/-- Two entries, the second with a higher stop, and the holding that settlement projected. -/
def twoEntries : Store :=
  { settlements := ⟨[firstEntry, secondEntry], by decide +kernel⟩
    positionLots := ⟨[firstLot, secondLot], by decide +kernel⟩
    fills := ⟨[⟨fillBehind (purchase "first" 1 1), by decide +kernel⟩,
      ⟨fillBehind (purchase "second" 2 2), by decide +kernel⟩], by decide +kernel⟩
    tradeIntents := ⟨[intentBehind (purchase "first" 1 1) 90,
      intentBehind (purchase "second" 2 2) 95], by decide +kernel⟩
    holdings := ⟨[⟨{ asset := bitcoin
                     quantity := 3
                     averagePrice := 100
                     updatedAt := 2
                     stopLoss := some 90 }, by decide +kernel⟩], by decide +kernel⟩ }

/-- A fee of as many coins as are given. -/
def feeOf (quantity : ℚ) : AssetFee :=
  { coinFee with
    quantity := quantity
    receipt := { coinFee.receipt with qty := .exact (-quantity) } }

/-- The population of two entries and a fee. -/
def populationWith (quantity : ℚ) : ReplayPopulation :=
  { fees := [feeOf quantity]
    brokerQuantity := 3 - quantity }

/-- What settlement projects, what is stored, and the levels of the entry that governs. -/
def Shows (s : Store) (settled stored : Option HoldingView) (levels : Option ℚ × Option ℚ) : Prop :=
  (settledHolding {} secondEntry s).toOption.map (·.map viewOf) = some settled ∧
    (s.holdings.get? (holdingRecordId bitcoin)).map viewOf = stored ∧ s.convertedLots = [] ∧
    (oldestLot (openLots s bitcoin)).map (fun l => (entryLevels s l).toOption) = some (some levels)

instance (s : Store) (settled stored : Option HoldingView) (levels : Option ℚ × Option ℚ) :
    Decidable (Shows s settled stored levels) := inferInstanceAs (Decidable (_ ∧ _))

theorem Shows.settles {s : Store} {settled stored : Option HoldingView}
    {levels : Option ℚ × Option ℚ} (h : Shows s settled stored levels) :
    ∃ x, settledHolding {} secondEntry s = .ok x ∧ x.map viewOf = settled := by
  obtain ⟨hsettled, -⟩ := h
  cases hx : settledHolding {} secondEntry s with
  | error e =>
      rw [hx] at hsettled
      cases hsettled
  | ok x =>
      rw [hx] at hsettled
      exact ⟨x, rfl, Option.some.inj hsettled⟩

theorem Shows.onlyShortConverted {s : Store} {settled stored : Option HoldingView}
    {levels : Option ℚ × Option ℚ} (h : Shows s settled stored levels) : OnlyShortConverted s := by
  intro l _ hconverted
  rw [h.2.2.1] at hconverted
  cases hconverted

/-- Half a coin leaves the first entry in place. -/
theorem builders_agree_half : ∃ (s : Store) (r : ReplayedFrom bitcoin s),
    BuildersAgree {} secondEntry 4 none s (some r) := by
  obtain ⟨s, hcommitted, hshows⟩ :
      ∃ s, replayAssetFees twoEntries bitcoin (.ok (populationWith (1 / 2))) (.ok ()) 4 = .ok s ∧
        Shows s (some ⟨5 / 2, 100, some 90, none, none⟩) (some ⟨5 / 2, 100, some 90, none, none⟩)
          (some 90, none) :=
    exists_ok_of_any (by decide +kernel)
  obtain ⟨x, hx, -⟩ := hshows.settles
  refine ⟨s, ⟨twoEntries, _, _, _, hcommitted⟩,
    (builders_agree_iff hshows.onlyShortConverted ⟨x, hx⟩).2 ?_⟩
  intro oldest holdest
  refine ⟨rfl, ?_⟩
  rintro r ⟨⟩ p hp
  have hbefore : (twoEntries.holdings.get? (holdingRecordId bitcoin)).map viewOf
      = some ⟨3, 100, some 90, none, none⟩ := by decide +kernel
  have hview : viewOf p = ⟨3, 100, some 90, none, none⟩ := by
    have hrow : twoEntries.holdings.get? (holdingRecordId bitcoin) = some p := hp
    rw [hrow] at hbefore
    exact Option.some.inj hbefore
  have hlevels := hshows.2.2.2
  have holdest' : oldestLot (openLots s bitcoin) = some oldest := holdest
  rw [holdest', Option.map_some] at hlevels
  have hstop : p.stopLoss = some 90 := congrArg HoldingView.stopLoss hview
  have htarget : p.targetPrice = none := congrArg HoldingView.targetPrice hview
  refine ⟨congrArg HoldingView.sector hview, ?_⟩
  rw [hstop, htarget]
  cases hentry : entryLevels s oldest with
  | error e =>
      rw [hentry] at hlevels
      cases hlevels
  | ok levels =>
      rw [hentry] at hlevels
      exact congrArg Except.ok (Option.some.inj (Option.some.inj hlevels))

/-- One coin consumes the first entry: settlement and reconciliation take the stop of the second,
and the replay keeps the stop of the first. -/
theorem builders_disagree : ∃ (s : Store) (r : ReplayedFrom bitcoin s), OnlyShortConverted s ∧
    (∃ x, settledHolding {} secondEntry s = .ok x) ∧
    ¬ BuildersAgree {} secondEntry 4 none s (some r) := by
  obtain ⟨s, hcommitted, hshows⟩ :
      ∃ s, replayAssetFees twoEntries bitcoin (.ok (populationWith 1)) (.ok ()) 4 = .ok s ∧
        Shows s (some ⟨2, 100, some 95, none, none⟩) (some ⟨2, 100, some 90, none, none⟩)
          (some 95, none) :=
    exists_ok_of_any (by decide +kernel)
  obtain ⟨x, hx, hview⟩ := hshows.settles
  refine ⟨s, ⟨twoEntries, _, _, _, hcommitted⟩, hshows.onlyShortConverted, ⟨x, hx⟩, ?_⟩
  rintro ⟨settled, rebuilt, hsettled, -, -, hstored⟩
  rw [hx] at hsettled
  cases hsettled
  have hsame := hstored _ rfl
  have hbefore : (s.holdings.get? (holdingRecordId bitcoin)).map viewOf
      = some ⟨2, 100, some 90, none, none⟩ := hshows.2.1
  rw [hview] at hsame
  cases hbefore.symm.trans hsame

end HistoricalFees

end TradePulse
