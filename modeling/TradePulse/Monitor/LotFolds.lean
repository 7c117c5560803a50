/-
**Lots under passes and monitor steps that run side by side.**

Two lanes write lots: passes of the settlement processor close them, and the monitor folds prices
into their extremes.  The folds touch nothing that a lot says about its quantities and its profit.

Main definitions:

* `representing` — the setting of the monitor's steps;
* `lanes` — passes and monitor steps side by side.

Main results:

* `lots_represented` — as long as closures are fresh, every long lot that a fill opened has what
  remains and what was closed make up what was opened, and the profit of its closures;
* `closed_twice` — a pass and the pass that takes its event over apply the same closure twice.
-/

import TradePulse.Monitor.Coordinator
import TradePulse.Process.Parallel
import TradePulse.Settlement.Representation

set_option autoImplicit false

namespace TradePulse

namespace Monitor

open Process Storage Settlement

/-- The setting of the monitor's steps, beside passes of the processor. -/
def representing : Setting Store Outside Raised Op.Res where
  exec := exec
  inv := Represented
  rely := Keeps
  cond _ _ _ := True
  guar _ := Keeps

/-- A fold keeps the representation: it changes the extremes of a lot only. -/
theorem represented_foldLot {s s' : Store} {lotId : String} {price : ℚ} {r : Option PositionLot}
    (h : Represented s) (hx : foldLot s lotId price = .ok (r, s')) :
    Represented s' ∧ Keeps s s' := by
  rcases foldLot_ok hx with rfl | ⟨current, lot, hget, ⟨mfe, mae, hf⟩, rfl⟩
  · exact ⟨h, .refl _⟩
  · obtain ⟨hcur, -⟩ := Table.get?_eq_some_iff.1 hget
    have hid : lot.lotId = current.lotId := congrArg (·.lotId) hf
    have hside : lot.positionSide = current.positionSide := congrArg (·.positionSide) hf
    have hprice : lot.acquisitionPrice = current.acquisitionPrice :=
      congrArg (·.acquisitionPrice) hf
    have hopened : lot.openedQuantity = current.openedQuantity := congrArg (·.openedQuantity) hf
    have hremaining : lot.remainingQuantity = current.remainingQuantity :=
      congrArg (·.remainingQuantity) hf
    have hrealized : lot.realizedPnl = current.realizedPnl := congrArg (·.realizedPnl) hf
    have hclosures : lot.closures = current.closures := congrArg (·.closures) hf
    have hfees : lot.assetFeeQuantities = current.assetFeeQuantities :=
      congrArg (·.assetFeeQuantities) hf
    have hplain : PlainLong lot → PlainLong current := by
      rintro ⟨hl, ho, ha⟩
      refine ⟨hside ▸ hl, ?_, hfees ▸ ha⟩
      unfold PositionLot.origin at ho ⊢
      rw [← hid]
      exact ho
    have hkeeps := keeps_putLot hcur hid (congrArg (·.originatingFillId) hf) hside hprice
    refine ⟨⟨fun l hl hp => ?_, fun l hl hp => ?_, fun l hl c hc => ?_⟩, hkeeps⟩
    · rcases Table.mem_put_imp hl with rfl | hl
      · rw [hremaining, hopened, hclosures]
        exact h.quantity current hcur (hplain hp)
      · exact h.quantity l hl hp
    · rcases Table.mem_put_imp hl with rfl | hl
      · rw [hrealized, h.pnl current hcur (hplain hp), hclosures]
        refine congrArg List.sum (List.map_congr_left fun c _ => ?_)
        unfold closingPnl
        rw [hprice]
      · exact h.pnl l hl hp
    · rcases Table.mem_put_imp hl with rfl | hl
      · rw [hclosures] at hc
        exact h.closer current hcur c hc
      · exact h.closer l hl c hc

/-- Every transaction of the monitor keeps the representation of lots. -/
theorem represented_exec {o : Op} {i : Outside} {s s' : Store} {r : o.Res} (h : Represented s)
    (hx : exec o i s = .ok (r, s')) : Represented s' ∧ Keeps s s' := by
  by_cases ho : ∃ lotId price, o = .foldLot lotId price
  · obtain ⟨lotId, price, rfl⟩ := ho
    exact represented_foldLot h hx
  · have hne : ∀ lotId price, o ≠ .foldLot lotId price := fun lotId price heq =>
      ho ⟨lotId, price, heq⟩
    obtain ⟨holdings, rfl⟩ := exec_of_ne_foldLot hne hx
    have hkeeps : Keeps s { s with holdings := holdings } := .of_eq rfl rfl
    exact ⟨h.of_keeps hkeeps fun _ hl => hl, hkeeps⟩

theorem sound_representing : Pool.Sound system representing where
  exec := rfl
  guar _ _ _ _ _ hg := hg
  env t := t.elim
  call c s _ := by
    refine ⟨fun _ => True, .const True, trivial, ?_⟩
    refine (Sat.of_stable (A := fun _ => True) (.const True) (fun _ _ _ _ _ hg => hg)
      (fun _ _ _ _ _ _ hs _ hx => represented_exec hs hx) ?_).mono (fun _ _ h => h)
      (fun _ _ _ _ => trivial) fun _ _ _ _ => trivial
    exact Prog.uses_true _

/-- Passes of the processor and steps of the monitor, side by side. -/
def lanes : Machine (Pool Store Raised (ResPar Settlement.Op.Res Op.Res))
    (Act (Settlement.Outside × Outside) Raised (PassArgs ⊕ Call) (External ⊕ Empty)) :=
  Pool.machine (Settlement.system.par system)

/-- Closures are fresh; the monitor may do what it does. -/
abbrev FreshClosures := CondPar Fresh fun (_ : Op) (_ : Outside) (_ : Store) => True

/-- **The representation of lots.**  In every state that passes and monitor steps reach side by
side, taking over from one another and crashing anywhere, as long as no closure is applied to a
lot that already records one of the same fill: what remains of a long lot that a fill opened is not
negative, with what was closed it makes up what was opened, and its profit is that of its
closures. -/
theorem lots_represented {s₀ : Store} {w : Pool Store Raised (ResPar Settlement.Op.Res Op.Res)}
    (h₀ : Represented s₀) (h : lanes.Reaches (Pool.Meets FreshClosures) ⟨s₀, []⟩ w) :
    ∀ l ∈ w.store.positionLots, l.positionSide = .long → l.origin = .fill →
      l.assetFeeQuantities = ∅ →
        0 ≤ l.remainingQuantity ∧ l.remainingQuantity + l.closures.total = l.openedQuantity ∧
          l.realizedPnl
            = (l.closures.entries.map fun c => closingPnl w.store l c.1 c.2).sum := by
  have hsound := Pool.Sound.par Settlement.sound_representing sound_representing rfl rfl
  have hgood : Represented w.store := (hsound.good (Pool.good_init h₀) h).1
  intro l hl hside horigin hfees
  have hplain : PlainLong l := ⟨hside, horigin, hfees⟩
  exact ⟨l.remaining_nonneg, hgood.quantity l hl hplain, hgood.pnl l hl hplain⟩

/-- An action of the passes, beside the monitor. -/
def ofPasses : Action →
    Act (Settlement.Outside × Outside) Raised (PassArgs ⊕ Call) (External ⊕ Empty)
  | .start args => .start (.inl args)
  | .run j i => .run j (i, {})
  | .raise j e => .raise j e
  | .crash j => .crash j
  | .env t => .env (.inl t)

/-- Ten shares are bought and settled. -/
def bought : List Action :=
  [ordered [execution "b1" .buy 10 10 0, execution "sale" .sell 3 12 1]] ++
  arrival (execution "b1" .buy 10 10 0) ++ [.start {}] ++ goOn 0 41 { now := 1, uuid := "lot-1" }

/-- The monitor folds a price while a sale of three is between its plan and its closure. -/
def foldedBetween : List Action := bought ++ arrival (execution "sale" .sell 3 12 1) ++
  [.start {}] ++ goOn 1 11 { now := 2 }

/-- The lot records the sale and the fold, and its quantities and its profit agree. -/
theorem lots_represented_foldedBetween :
    ∃ w : Pool Store Raised (ResPar Settlement.Op.Res Op.Res),
      (∃ l ∈ w.store.positionLots.rows, l.closures.entries.length = 1 ∧ l.mfePrice = some 15) ∧
        ∀ l ∈ w.store.positionLots, l.positionSide = .long → l.origin = .fill →
          l.assetFeeQuantities = ∅ →
            0 ≤ l.remainingQuantity ∧ l.remainingQuantity + l.closures.total = l.openedQuantity ∧
              l.realizedPnl
                = (l.closures.entries.map fun c => closingPnl w.store l c.1 c.2).sum := by
  have hrun : (lanes.runUnder (Pool.Meets FreshClosures) ⟨{}, []⟩
      (foldedBetween.map ofPasses)).any (fun v =>
        (lanes.runUnder (Pool.Meets FreshClosures) v [.start (.inr (.foldLotExtrema
          v.store.positionLots.rows 15)), .run 2 ({}, {}), .run 1 ({ now := 2 }, {})]).any
            fun w => decide (∃ l ∈ w.store.positionLots.rows,
              l.closures.entries.length = 1 ∧ l.mfePrice = some 15)) = true := by
    decide +kernel
  obtain ⟨v, hreach, hrest⟩ := Machine.exists_of_runUnder (P := fun v => _ = true)
    (by simpa using hrun)
  obtain ⟨w, hreach', hlot⟩ := Machine.exists_of_runUnder hrest
  exact ⟨w, hlot, lots_represented represented_empty (hreach.trans hreach')⟩

/-- A pass plans the sale of three; a second pass takes the sale over and closes; then the first one
closes as well. -/
def closedByBoth : List Action := foldedBetween ++
  [.start {}] ++ goOn 2 12 { now := seconds 200 } ++ goOn 1 1 { now := 2 }

/-- **A closure can be applied twice**: the lot loses three shares twice and records the sale
once. -/
theorem closed_twice : ∃ w, lanes.Reaches (fun _ _ => True) ⟨{}, []⟩ w ∧
    ∃ l ∈ w.store.positionLots.rows, l.positionSide = .long ∧ l.origin = .fill ∧
      l.assetFeeQuantities.entries.length = 0 ∧
        l.remainingQuantity + l.closures.total ≠ l.openedQuantity := by
  have hrun : (lanes.run ⟨{}, []⟩ (closedByBoth.map ofPasses)).any (fun w =>
      decide (∃ l ∈ w.store.positionLots.rows, l.positionSide = .long ∧ l.origin = .fill ∧
        l.assetFeeQuantities.entries.length = 0 ∧
          l.remainingQuantity + l.closures.total ≠ l.openedQuantity)) = true := by
    decide +kernel
  exact Machine.exists_of_run hrun

end Monitor

end TradePulse
