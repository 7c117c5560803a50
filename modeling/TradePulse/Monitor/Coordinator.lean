/-
**The position monitor** (`monitor/coordinator.py`).

In each cycle, and for each open position, the monitor folds the observed price into the extremes
of the lots, ratchets the protective stop, and may take a partial profit.  Lots and holdings are
also written by settlement, so each of these writes reads the row anew in its own transaction.

Main definitions:

* `Monitor.Op`, `Monitor.exec` — the transactions of the monitor;
* `Monitor.foldLotExtrema`, `Monitor.ratchetStop`, `Monitor.scaleOut` — its steps;
* `Monitor.system` — the monitor's steps as calls over the store.
-/

import TradePulse.Persistence.Store
import TradePulse.Process.Pool

set_option autoImplicit false

namespace TradePulse

namespace Monitor

open Process Storage

/-- The transactions of the monitor, and its questions to the world outside. -/
inductive Op
  | foldLot (lotId : String) (price : ℚ)
  | fetchAtr (asset : AssetIdentity)
  /-- Move the stop of a holding to a candidate that is more favourable.  With it goes the average
  price of the holding that was handed over, which the transaction does not use. -/
  | ratchet (recordId : String) (averagePrice : ℚ) (isLong : Bool) (candidate : ℚ)
  | reserveSymbol (asset : AssetIdentity)
  /-- Mark a holding as scaled out, with its stop at break-even. -/
  | mark (recordId : String)
  | unmark (recordId : String)
  | executeIntent (asset : AssetIdentity)

@[reducible] def Op.Res : Op → Type
  | .foldLot _ _ => Option PositionLot
  | .fetchAtr _ => Option ℚ
  | .ratchet _ _ _ _ => Option Holding
  | .reserveSymbol _ => Bool
  | .mark _ => Option Holding
  | .unmark _ => Option Holding
  | .executeIntent _ => Bool

/-- What the world outside answers. -/
structure Outside where
  atr : Option ℚ := none
  reserved : Bool := true
  refused : Bool := false

abbrev Watch (α : Type) := Prog Raised Op.Res α

/-- `position_lots.mutate` with the fold of a price. -/
def foldLot (s : Store) (lotId : String) (price : ℚ) :
    Except Raised (Option PositionLot × Store) :=
  match s.positionLots.get? lotId with
  | none => .ok (none, s)
  | some current =>
      if current.isOpen then
        let extremes :=
          foldPriceExtremum current.positionSide current.mfePrice current.maePrice price
        if some extremes.1 = current.mfePrice ∧ some extremes.2 = current.maePrice then
          .ok (none, s)
        else do
          let lot ← PositionLot.make
            { current.toPositionLotFields with
              mfePrice := some extremes.1
              maePrice := some extremes.2 }
          .ok (some lot, { s with positionLots := s.positionLots.put lot })
      else .ok (none, s)

/-- `holdings.mutate`: a decision about the current row, which is written if it changes it. -/
def mutateHolding (s : Store) (recordId : String) (decide : Holding → Option HoldingFields) :
    Except Raised (Option Holding × Store) :=
  match s.holdings.get? recordId with
  | none => .ok (none, s)
  | some current =>
      match decide current with
      | none => .ok (none, s)
      | some fields => do
          let h ← Holding.make fields
          .ok (some h, { s with holdings := s.holdings.put h })

/-- The more favourable of two stops. -/
def favourable (isLong : Bool) (a b : ℚ) : ℚ := if isLong then max a b else min a b

/-- `_ratchet_stop`'s decision. -/
def ratchetDecision (isLong : Bool) (candidate : ℚ) (current : Holding) : Option HoldingFields :=
  let merged := match current.currentStop with
    | none => candidate
    | some stop => favourable isLong stop candidate
  if some merged = current.currentStop then none
  else some { current.toHoldingFields with currentStop := some merged }

/-- `_mark`: the scale-out is recorded, and the stop is at least break-even. -/
def markDecision (current : Holding) : Option HoldingFields :=
  if current.scaledOut then none
  else
    let floor := match current.currentStop with
      | none => current.averagePrice
      | some stop => max stop current.averagePrice
    some { current.toHoldingFields with scaledOut := true, currentStop := some floor }

/-- `_unmark`: nothing was sold, so the next cycle may try again. -/
def unmarkDecision (current : Holding) : Option HoldingFields :=
  if current.scaledOut then some { current.toHoldingFields with scaledOut := false } else none

/-- What a transaction does to the store. -/
def exec : (o : Op) → Outside → Store → Except Raised (o.Res × Store)
  | .foldLot lotId price, _, s => foldLot s lotId price
  | .fetchAtr _, i, s => .ok (i.atr, s)
  | .ratchet recordId _ isLong candidate, _, s => do
      let (updated, s') ← mutateHolding s recordId (ratchetDecision isLong candidate)
      -- an unchanged stop returns the row as it was observed
      .ok (match updated with | none => s.holdings.get? recordId | some h => some h, s')
  | .reserveSymbol _, i, s => .ok (i.reserved, s)
  | .mark recordId, _, s => mutateHolding s recordId markDecision
  | .unmark recordId, _, s => mutateHolding s recordId unmarkDecision
  | .executeIntent _, i, s => .ok (i.refused, s)

abbrev perform (o : Op) : Watch o.Res := Prog.perform o

/-- `_fold_lot_extrema`: fold a price into every lot of a position. -/
def foldLotExtrema (lots : List PositionLot) (price : ℚ) : Watch Unit :=
  Prog.forEach lots fun lot => do
    let _ ← perform (.foldLot lot.lotId price)
    return ()

/-- The best price the lots have seen. -/
def runningExtreme (isLong : Bool) (lots : List PositionLot) : Option ℚ :=
  match lots.filterMap fun l => l.mfePrice with
  | [] => none
  | p :: ps => some (ps.foldl (favourable isLong) p)

/-- `_ratchet_stop`: break-even once it is earned, and the trailing stop after it. -/
def ratchetStop (limits : RiskLimits) (holding : Holding) (lots : List PositionLot) (price : ℚ) :
    Watch (Option Holding) :=
  let isLong := decide (0 < holding.quantity)
  let gain := if isLong then price - holding.averagePrice else holding.averagePrice - price
  let gainPct := gain / holding.averagePrice * 100
  if holding.stopLoss = none then return some holding
  else if holding.currentStop = none ∧ gainPct < limits.breakEvenTriggerPct then
    return some holding
  else do
    let candidate ← (match runningExtreme isLong lots with
      | some extreme =>
          if holding.asset.assetClass ≠ .option ∧ 0 < limits.trailingAtrMultiplier then do
            match ← perform (.fetchAtr holding.asset) with
            | none => return holding.averagePrice
            | some atr =>
                let distance := atr * limits.trailingAtrMultiplier
                let trail := if isLong then extreme - distance else extreme + distance
                return favourable isLong holding.averagePrice trail
          else return holding.averagePrice
      | none => return holding.averagePrice : Watch ℚ)
    perform (.ratchet (assetIdentityKey holding.asset) holding.averagePrice isLong candidate)

/-- The partial profit of a position: mark it, sell, and unmark it if nothing was sold. -/
def scaleOut (holding : Holding) : Watch Unit := do
  let recordId := assetIdentityKey holding.asset
  if ← perform (.reserveSymbol holding.asset) then
    match ← perform (.mark recordId) with
    | none => return ()
    | some marked =>
        if marked.scaledOut then
          if ← perform (.executeIntent holding.asset) then
            let _ ← perform (.unmark recordId)
            return ()
          else return ()
        else return ()
  else return ()

/-- The steps of the monitor. -/
inductive Call
  | foldLotExtrema (lots : List PositionLot) (price : ℚ)
  | ratchetStop (limits : RiskLimits) (holding : Holding) (lots : List PositionLot) (price : ℚ)
  | scaleOut (holding : Holding)

/-- The steps of the monitor, as calls over the store. -/
def system : System Store Outside Raised Call Empty Op.Res where
  exec := exec
  call
    | .foldLotExtrema lots price => foldLotExtrema lots price
    | .ratchetStop limits holding lots price =>
        (ratchetStop limits holding lots price).bind fun _ => .done ()
    | .scaleOut holding => scaleOut holding
  env t _ := t.elim

/-! ### What the steps ask for -/

/-- A job that ratchets the stop of a holding touches no other holding, and in no other way.  For a
long one it asks for its average price at least. -/
def RatchetsOnly (holding : Holding) : Op → Prop
  | .ratchet recordId averagePrice isLong candidate =>
      recordId = assetIdentityKey holding.asset ∧ (isLong = true → averagePrice ≤ candidate)
  | .fetchAtr _ => True
  | _ => False

/-- A job that does not ratchet. -/
def Ratchetless : Op → Prop
  | .ratchet _ _ _ _ => False
  | _ => True

theorem uses_ite {ε Op α : Type} {Res : Op → Type} {A : Op → Prop} {p q : Prog ε Res α} {c : Prop}
    [Decidable c] (hp : p.Uses A) (hq : q.Uses A) : (if c then p else q).Uses A := by
  split
  · exact hp
  · exact hq

/-- **The break-even floor**: whatever price was seen and whatever range is fetched, a trailing stop
only raises the candidate of a long holding above its average price. -/
theorem uses_ratchetStop (limits : RiskLimits) (holding : Holding) (lots : List PositionLot)
    (price : ℚ) : (ratchetStop limits holding lots price).Uses (RatchetsOnly holding) := by
  unfold ratchetStop
  refine uses_ite (Prog.uses_done _) (uses_ite (Prog.uses_done _) ?_)
  have hasks : ∀ candidate,
      (decide (0 < holding.quantity) = true → holding.averagePrice ≤ candidate) →
      (perform (.ratchet (assetIdentityKey holding.asset) holding.averagePrice
        (decide (0 < holding.quantity)) candidate)).Uses (RatchetsOnly holding) :=
    fun _ h => (Prog.uses_perform _).2 ⟨rfl, h⟩
  cases runningExtreme (decide (0 < holding.quantity)) lots with
  | none => exact hasks _ fun _ => le_rfl
  | some extreme =>
      dsimp only
      split
      · refine ⟨trivial, fun atr => ?_⟩
        cases atr with
        | error e => exact Prog.uses_fail e
        | ok atr =>
            cases atr with
            | none => exact hasks _ fun _ => le_rfl
            | some atr =>
                refine hasks _ fun hlong => ?_
                rw [hlong]
                exact le_max_left _ _
      · exact hasks _ fun _ => le_rfl

theorem uses_call_ratchetless {c : Call} (hc : ∀ limits holding lots price,
    c ≠ .ratchetStop limits holding lots price) : (system.call c).Uses Ratchetless := by
  cases c with
  | ratchetStop limits holding lots price => exact absurd rfl (hc _ _ _ _)
  | foldLotExtrema lots price =>
      refine Prog.Uses.forEach fun lot _ => ?_
      exact Prog.Uses.bind (fun _ => Prog.uses_done _) ((Prog.uses_perform _).2 trivial)
  | scaleOut holding =>
      refine Prog.Uses.bind (fun reserved => ?_) ((Prog.uses_perform _).2 trivial)
      split
      · refine Prog.Uses.bind (fun marked => ?_) ((Prog.uses_perform _).2 trivial)
        split
        · exact Prog.uses_done _
        · split
          · refine Prog.Uses.bind (fun refused => ?_) ((Prog.uses_perform _).2 trivial)
            split
            · exact Prog.Uses.bind (fun _ => Prog.uses_done _) ((Prog.uses_perform _).2 trivial)
            · exact Prog.uses_done _
          · exact Prog.uses_done _
      · exact Prog.uses_done _

/-! ### What each transaction did -/

theorem foldLot_ok {s s' : Store} {lotId : String} {price : ℚ} {r : Option PositionLot}
    (h : foldLot s lotId price = .ok (r, s')) :
    s' = s ∨ ∃ current lot : PositionLot, s.positionLots.get? lotId = some current ∧
      (∃ mfe mae, lot.toPositionLotFields = { current.toPositionLotFields with
        mfePrice := mfe
        maePrice := mae }) ∧ s' = { s with positionLots := s.positionLots.put lot } := by
  unfold foldLot at h
  split at h
  · cases h
    exact .inl rfl
  · rename_i current hget
    split at h
    · dsimp only at h
      split at h
      · cases h
        exact .inl rfl
      · obtain ⟨lot, hmake, h⟩ := except_bind_eq_ok.1 h
        cases h
        exact .inr ⟨current, lot, hget, ⟨_, _, PositionLot.make_eq_ok_iff.1 hmake⟩, rfl⟩
    · cases h
      exact .inl rfl

theorem mutateHolding_ok {s s' : Store} {recordId : String}
    {decide : Holding → Option HoldingFields} {r : Option Holding}
    (h : mutateHolding s recordId decide = .ok (r, s')) :
    (r = none ∧ s' = s) ∨ ∃ current h' : Holding, s.holdings.get? recordId = some current ∧
      decide current = some h'.toHoldingFields ∧ r = some h' ∧
        s' = { s with holdings := s.holdings.put h' } := by
  unfold mutateHolding at h
  split at h
  · cases h
    exact .inl ⟨rfl, rfl⟩
  · rename_i current hget
    split at h
    · cases h
      exact .inl ⟨rfl, rfl⟩
    · rename_i fields hdecide
      obtain ⟨h', hmake, h⟩ := except_bind_eq_ok.1 h
      cases h
      refine .inr ⟨current, h', hget, ?_, rfl, rfl⟩
      rw [hdecide, Holding.make_eq_ok_iff.1 hmake]

theorem exec_of_ne_foldLot {o : Op} {i : Outside} {s s' : Store} {r : o.Res}
    (ho : ∀ lotId price, o ≠ .foldLot lotId price) (h : exec o i s = .ok (r, s')) :
    ∃ holdings, s' = { s with holdings := holdings } := by
  have mutated : ∀ {recordId : String} {decide : Holding → Option HoldingFields}
      {r : Option Holding} {t : Store}, mutateHolding s recordId decide = .ok (r, t) →
      ∃ holdings, t = { s with holdings := holdings } := by
    intro recordId decide r t ht
    rcases mutateHolding_ok ht with ⟨-, rfl⟩ | ⟨_, h', -, -, -, rfl⟩
    · exact ⟨_, rfl⟩
    · exact ⟨_, rfl⟩
  cases o with
  | foldLot lotId price => exact absurd rfl (ho lotId price)
  | ratchet recordId isLong candidate =>
      obtain ⟨⟨updated, t⟩, ht, h⟩ := except_bind_eq_ok.1 h
      cases h
      exact mutated ht
  | mark recordId => exact mutated h
  | unmark recordId => exact mutated h
  | fetchAtr asset => cases h; exact ⟨_, rfl⟩
  | reserveSymbol asset => cases h; exact ⟨_, rfl⟩
  | executeIntent asset => cases h; exact ⟨_, rfl⟩

end Monitor

end TradePulse
