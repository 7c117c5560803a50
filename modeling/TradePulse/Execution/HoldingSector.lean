/-
**The sector of a holding.**

A sector is named by the request of an order; the intent of the order copies it, the settlement
event of an execution copies it from the intent, and the holding takes it from the event that was
settled last.  The view of the portfolio charges the value of the holding to it.

Passes run side by side, each transaction labelled with the event it is made for.  Whatever else is
done to a holding leaves its sector as it is.

Main definitions:

* `OrderAsk`, `OrderAsk.intent`, `exitAsk` — requests, their intents, and those of the monitor;
* `NamesSector` — a holding is written only for an event that names the sector;
* `SectorKept` — the holding names the sector, and its value is charged to it.

Main results:

* `attemptRule_projects` — a holding is written with the asset and the sector of the event it is
  written for;
* `sector_kept` — **as long as holdings are written for events that name the sector, the value of
  the holding is charged to it**;
* `sector_lost` — a sale by the monitor moves what is left to `Other`.
-/

import TradePulse.Execution.Attribution
import TradePulse.Execution.Submission
import TradePulse.Monitor.BreakEven
import TradePulse.Risk.Exposure
import TradePulse.Settlement.Labelled

set_option autoImplicit false

namespace TradePulse.Execution

open Process Storage Settlement Risk Record

/-! ### From a request to an event -/

/-- A request with the fields that its intent copies (`ExecutionRequest`). -/
structure OrderAsk extends Submission.ExecutionRequest where
  decisionId : Option String := none
  sector : Option String := none
  stopLoss : Option ℚ := none
  targetPrice : Option ℚ := none

/-- The intent that is proposed for a request; `uuid` stands for the keys that are drawn. -/
def OrderAsk.intent (ask : OrderAsk) (tradeIntentId uuid : String) (createdAt : Instant)
    (referencePrice : ℚ) : TradeIntent :=
  { (ask.toExecutionRequest.draft createdAt).intent with
    tradeIntentId := tradeIntentId
    idempotencyKey := ask.idempotencyKey.getD uuid
    correlationId := ask.decisionId.getD tradeIntentId
    referencePrice := some referencePrice
    sector := ask.sector
    stopLoss := ask.stopLoss
    targetPrice := ask.targetPrice }

/-- What the monitor asks for to sell a position of `qty` units, or some of it: no sector. -/
def exitAsk (asset : AssetIdentity) (qty requestedQuantity : ℚ) (decisionId : String)
    (now : Instant) : OrderAsk where
  asset := asset
  side := if 0 < qty then .sell else .buy
  requestedQuantity := requestedQuantity
  strategy := "position_monitor"
  idempotencyKey := none
  now := now
  decisionId := some decisionId

/-! ### Holdings are written for events -/

/-- A holding is written with the asset and the sector of the event it is written for. -/
def Projects (g : Work) : Settlement.Op → Prop
  | .createHolding _ holding _ =>
      ∃ c ∈ g.claimed, holding.asset = c.asset ∧ holding.sector = c.sector
  | .mutateHolding _ holding _ =>
      ∃ c ∈ g.claimed, holding.asset = c.asset ∧ holding.sector = c.sector
  | _ => True

theorem projects_of_writesIn {g : Work} {o : Settlement.Op} (parts : List Part)
    (h : o.WritesIn parts) (hparts : Part.holdings ∉ parts) : Projects g o := by
  cases o with
  | createHolding openLots holding guardKey => exact absurd (h .holdings rfl) hparts
  | mutateHolding openLots holding guardKey => exact absurd (h .holdings rfl) hparts
  | _ => trivial

theorem uses_projects {α : Type} (g : Work) (parts : List Part) {p : Settle α}
    (hp : p.Uses (Settlement.Op.WritesIn parts)) (hparts : Part.holdings ∉ parts) :
    p.Uses (Projects g) :=
  hp.mono fun _ ho => projects_of_writesIn parts ho hparts

theorem uses_projects_projectHolding {g : Work} {c event : SettlementEvent}
    (hclaimed : g.claimed = some c) (hfacts : event.toSettlementFacts = c.toSettlementFacts) :
    (projectHolding event).Uses (Projects g) := by
  refine Prog.Uses.bind (fun lots => ?_) (uses_projects g [] (uses_unconvertedLots _ _) (by simp))
  refine Prog.Uses.bind (fun existing => ?_) ((Prog.uses_perform _).2 trivial)
  split
  · split
    · exact Prog.Uses.bind (fun _ => Prog.uses_done _) ((Prog.uses_perform _).2 trivial)
    · exact Prog.uses_done _
  · refine Prog.Uses.bind (fun levels => ?_)
      (uses_projects g [] (uses_entryProtectiveLevels _) (by simp))
    refine Prog.Uses.ofExcept_bind fun holding hmake => ?_
    have hfields := Holding.make_eq_ok_iff.1 hmake
    have hof : ∃ c ∈ g.claimed, holding.asset = c.asset ∧ holding.sector = c.sector :=
      ⟨c, hclaimed, (congrArg (·.asset) hfields).trans (congrArg (·.asset) hfacts),
        (congrArg (·.sector) hfields).trans (congrArg (·.sector) hfacts)⟩
    split
    · exact Prog.Uses.bind (fun _ => Prog.uses_done _) ((Prog.uses_perform _).2 hof)
    · exact Prog.Uses.bind (fun _ => Prog.uses_done _) ((Prog.uses_perform _).2 hof)

theorem attemptRule_projects :
    AttemptRule Projects fun c state => state.toSettlementFacts = c.toSettlementFacts where
  reads g o ho := projects_of_writesIn [] (.of_none ho) (by simp)
  claims _ _ _ _ _ := trivial
  claimed _ _ := rfl
  after _ _ _ _ _ hstate hstate' := (congrArg (·.toSettlementFacts) hstate').trans hstate
  stage g c state st hclaimed hstate := by
    by_cases hst : st = .projectHolding
    · subst hst
      refine Prog.Uses.bind (fun _ => ?_) (uses_projects_projectHolding hclaimed hstate)
      exact Prog.uses_done _
    · refine uses_projects g _ (uses_handlers st state) ?_
      cases st with
      | projectHolding => exact absurd rfl hst
      | _ => decide
  mark _ _ _ _ _ := trivial
  done _ _ _ _ _ _ _ := trivial
  fail _ _ _ _ _ _ _ _ _ := trivial
  latch _ _ _ _ _ _ _ _ _ := trivial

/-! ### Runs -/

/-- The event that a pass is working on names the sector, if it is of the asset. -/
def Names (key sector : String) (g : Work) : Prop :=
  ∀ c ∈ g.claimed, assetIdentityKey c.asset = key → c.sector = some sector

instance (key sector : String) (g : Work) : Decidable (Names key sector g) :=
  inferInstanceAs (Decidable (∀ c ∈ g.claimed, _))

/-- A position of the asset is left open only by an event that names the sector. -/
def NamesSector (key sector : String) : WorkOp → Settlement.Outside → Store → Prop
  | (g, .createHolding _ _ _), _, _ => Names key sector g
  | (g, .mutateHolding _ _ _), _, _ => Names key sector g
  | _, _, _ => True

instance (key sector : String) (o : WorkOp) (i : Settlement.Outside) (s : Store) :
    Decidable (NamesSector key sector o i s) := by
  obtain ⟨g, o⟩ := o
  apply Settlement.Op.casesOn (motive := fun o => Decidable (NamesSector key sector (g, o) i s)) o
  case createHolding =>
    intro openLots holding guardKey
    exact inferInstanceAs (Decidable (Names key sector g))
  case mutateHolding =>
    intro openLots holding guardKey
    exact inferInstanceAs (Decidable (Names key sector g))
  all_goals
    intros
    exact isTrue trivial

/-- Every holding of the asset names the sector of one that was there before. -/
def SectorsStay (key : String) (s s' : Store) : Prop :=
  ∀ row' ∈ s'.holdings.rows, recordId row' = key →
    ∃ row ∈ s.holdings.rows, recordId row = key ∧ row'.sector = row.sector

instance (key : String) (s s' : Store) : Decidable (SectorsStay key s s') :=
  inferInstanceAs (Decidable (∀ row' ∈ s'.holdings.rows, _))

/-- What else is done to the holding of the asset leaves its sector as it is. -/
def OthersKeep (key : String) (w : LabelledPool) :
    Act Settlement.Outside Raised PassArgs (Store → Store) → Prop
  | .env change => SectorsStay key w.store (change w.store)
  | _ => True

instance (key : String) (w : LabelledPool) :
    ∀ a : Act Settlement.Outside Raised PassArgs (Store → Store), Decidable (OthersKeep key w a)
  | .env _ => inferInstanceAs (Decidable (SectorsStay _ _ _))
  | .start _ => isTrue trivial
  | .run _ _ => isTrue trivial
  | .raise _ _ => isTrue trivial
  | .crash _ => isTrue trivial

/-- The conditions on a step. -/
def KeepsSector (key sector : String) (w : LabelledPool)
    (a : Act Settlement.Outside Raised PassArgs (Store → Store)) : Prop :=
  Pool.Meets (NamesSector key sector) w a ∧ OthersKeep key w a

instance (key sector : String) (w : LabelledPool)
    (a : Act Settlement.Outside Raised PassArgs (Store → Store)) :
    Decidable (KeepsSector key sector w a) :=
  inferInstanceAs (Decidable (_ ∧ _))

/-- The holding of the asset names the sector. -/
def HeldUnder (key sector : String) (s : Store) : Prop :=
  ∀ row ∈ s.holdings, recordId row = key → row.sector = some sector

section Step

variable {key sector : String} {w w' : LabelledPool}

theorem HeldUnder.stay {s s' : Store} (h : HeldUnder key sector s) (hs : SectorsStay key s s') :
    HeldUnder key sector s' := by
  intro row' hrow' hkey
  obtain ⟨row, hrow, hid, hsector⟩ := hs row' hrow' hkey
  rw [hsector]
  exact h row hrow hid

theorem HeldUnder.projects {s s' : Store} (h : HeldUnder key sector s) {g : Work}
    {o : Settlement.Op} {i : Settlement.Outside} {r : o.Res} (hsuits : Projects g o)
    (hnames : NamesSector key sector (g, o) i s) (hx : Settlement.exec o i s = .ok (r, s')) :
    HeldUnder key sector s' := by
  intro row hrow hkey
  cases holdingsAfter hx with
  | same heq =>
      rw [heq] at hrow
      exact h row hrow hkey
  | deleted heq =>
      rw [heq] at hrow
      exact h row (Table.mem_delete.1 hrow).1 hkey
  | @mutated openLots holding guardKey old row' hget hf heq =>
      rw [heq] at hrow
      rcases Table.mem_put_imp hrow with rfl | hold
      · obtain ⟨c, hc, hasset, hsector⟩ := hsuits
        have hid : assetIdentityKey c.asset = key := by
          rw [← hasset, ← hkey]
          exact congrArg assetIdentityKey (congrArg (·.asset) hf).symm
        have hrow' : row.sector = holding.sector := congrArg (·.sector) hf
        rw [hrow', hsector]
        exact hnames c hc hid
      · exact h row hold hkey
  | @created openLots holding guardKey heq =>
      rw [heq] at hrow
      rcases Table.mem_createOnce.1 hrow with hold | ⟨-, rfl⟩
      · exact h row hold hkey
      · obtain ⟨c, hc, hasset, hsector⟩ := hsuits
        have hid : assetIdentityKey c.asset = key := by
          rw [← hasset, ← hkey]
          rfl
        rw [hsector]
        exact hnames c hc hid

end Step

section Runs

variable {key sector : String} {w w' : LabelledPool}

theorem HeldUnder.step {s₀ : Store} (h : HeldUnder key sector w.store)
    (hreach : labelled.Reaches (fun _ _ => True) ⟨s₀, []⟩ w)
    {a : Act Settlement.Outside Raised PassArgs (Store → Store)}
    (hkeeps : KeepsSector key sector w a)
    (hstep : labelled.step w a = some w') : HeldUnder key sector w'.store := by
  obtain ⟨hmeets, hothers⟩ := hkeeps
  cases a with
  | start c =>
      cases hstep
      exact h
  | run j i =>
      simp only [labelled, Pool.machine, Pool.step, Option.bind_eq_some_iff,
        Option.map_eq_some_iff] at hstep
      obtain ⟨p, hj, ⟨s', p'⟩, hadvance, rfl⟩ := hstep
      cases p with
      | done a => cases hadvance
      | fail e => cases hadvance
      | step o next =>
          obtain ⟨g, o⟩ := o
          have hsuits : Projects g o :=
            attemptRule_projects.next hreach (j := j) (by rw [hj]; rfl)
          have hnames : NamesSector key sector (g, o) i w.store := by
            simpa [Pool.Meets, List.getD, hj, NextMeets] using hmeets
          simp only [System.advance, labelledSystem] at hadvance
          split at hadvance
          · rename_i r t hx
            cases hadvance
            exact h.projects hsuits hnames hx
          · cases hadvance
            exact h
  | raise j e =>
      simp only [labelled, Pool.machine, Pool.step, Option.bind_eq_some_iff,
        Option.map_eq_some_iff] at hstep
      obtain ⟨p, -, p', -, rfl⟩ := hstep
      exact h
  | crash j =>
      cases hstep
      exact h
  | env change =>
      cases hstep
      exact h.stay hothers

/-- The holding of the asset names the sector, and in every view of the portfolio that is built from
it, what it is worth is charged to the sector. -/
def SectorKept (key sector : String) (s : Store) : Prop :=
  ∀ row ∈ s.holdings, recordId row = key → row.sector = some sector ∧
    ∀ v : ViewSources, v.holdings = s.holdings.rows → ∀ cs, v.charges = .ok cs →
      ∀ c ∈ cs, c.source.Values key → c.sector = sector

/-- **A sector stays with the position**, as long as the position is left open only by events that
name it. -/
theorem sector_kept {s₀ : Store} (hsector : sector ≠ "") (h₀ : HeldUnder key sector s₀)
    (h : labelled.Reaches (KeepsSector key sector) ⟨s₀, []⟩ w) : SectorKept key sector w.store := by
  have hheld : HeldUnder key sector w.store := by
    induction h with
    | refl => exact h₀
    | tail hreach hkeeps hstep ih => exact ih.step (hreach.mono fun _ _ _ => trivial) hkeeps hstep
  intro row hrow hkey
  refine ⟨hheld row hrow hkey, fun v hv cs hcs c hc hvalues => ?_⟩
  have hmem : row ∈ v.holdings := hv ▸ hrow
  refine ViewSources.charge_of_holding hcs hsector ⟨row, hmem, hkey⟩ (fun holding hh hid => ?_) hc
    hvalues
  rw [hv] at hh
  exact hheld holding hh hid

end Runs

/-! ### Two runs -/

def apple : AssetIdentity :=
  { symbol := "AAPL", assetClass := .equity, nativeAssetId := "alpaca:AAPL" }

/-- A buy of the scanner. -/
def scanned (quantity : ℚ) : OrderAsk where
  asset := apple
  side := .buy
  requestedQuantity := quantity
  strategy := "ai_scan"
  idempotencyKey := none
  now := 0
  sector := some "Technology"
  stopLoss := some 95

/-- The order of a request is filled at once, and the execution is attributed to its intent. -/
def filledAt (ask : OrderAsk) (id : String) (price : ℚ) (t : Instant) (s : Store) : Store :=
  let intent := { ask.intent ("intent-" ++ id) ("key-" ++ id) t price with
    status := .submitted
    brokerOrderId := some ("order-" ++ id) }
  let activity : BrokerActivity := ⟨id, ask.asset.symbol, some ask.side,
    some ask.requestedQuantity, some price, some t, "order-" ++ id, none⟩
  match (Attribution.validatedFill activity intent).map fun v =>
      (Fill.make (Attribution.fillOf intent ("order-" ++ id) v),
        SettlementEvent.make (Attribution.eventOf intent ("order-" ++ id) v)) with
  | some (.ok fill, .ok event) =>
      { s with
        tradeIntents := s.tradeIntents.createOnce intent
        fills := s.fills.createOnce fill
        settlements := s.settlements.createOnce event }
  | _ => s

/-- One change and one pass after another, each pass with its transactions. -/
def passes (n : ℕ) : List ((Store → Store) × ℕ) →
    List (Act Settlement.Outside Raised PassArgs (Store → Store))
  | [] => []
  | (change, transactions) :: rest =>
      [.env change, .start {}] ++
        List.replicate transactions (.run n { now := n + 1, uuid := "lot" }) ++ passes (n + 1) rest

/-- Ten shares are bought, four are sold under the sector, the other six without one. -/
def soldOut : List ((Store → Store) × ℕ) :=
  [(filledAt (scanned 10) "b1" 100 0, 41),
    (filledAt { exitAsk apple 10 4 "scale-out" 1 with sector := some "Technology" } "s1" 110 1, 43),
    (filledAt (exitAsk apple 6 6 "exit" 2) "s2" 110 2, 41)]

/-- The sale of the last six names no sector and leaves none of them. -/
theorem sector_kept_soldOut : ∃ w : LabelledPool,
    SectorKept (assetIdentityKey apple) "Technology" w.store ∧
      (∃ e ∈ w.store.settlements.rows, e.side = .sell ∧ e.status = .completed ∧ e.sector = none) ∧
      w.store.holdings.rows = [] := by
  have hrun : (labelled.runUnder (KeepsSector (assetIdentityKey apple) "Technology") ⟨{}, []⟩
      (passes 0 soldOut)).any (fun w =>
        decide ((∃ e ∈ w.store.settlements.rows, e.side = .sell ∧ e.status = .completed ∧
          e.sector = none) ∧ w.store.holdings.rows = [])) = true := by
    decide +kernel
  obtain ⟨w, hreach, hsold⟩ := Machine.exists_of_runUnder hrun
  have h₀ : HeldUnder (assetIdentityKey apple) "Technology" {} := by
    intro row hrow
    cases hrow
  exact ⟨w, sector_kept (by decide) h₀ hreach, hsold⟩

/-- **A sale by the monitor moves what is left to `Other`**: ten shares bought under a sector, four
of them sold. -/
theorem sector_lost : ∃ w : LabelledPool,
    labelled.Reaches (fun _ _ => True) ⟨{}, []⟩ w ∧
      (∀ e ∈ w.store.settlements.rows, e.side = .buy → e.sector = some "Technology") ∧
      ¬ SectorKept (assetIdentityKey apple) "Technology" w.store ∧
      ∃ row ∈ w.store.holdings.rows, recordId row = assetIdentityKey apple ∧ row.quantity = 6 ∧
        row.sector = none ∧ (ViewSources.charges { holdings := w.store.holdings.rows }).toOption
          = some [⟨.holding (assetIdentityKey apple), "Other", 600⟩] := by
  have hrun : (labelled.run ⟨{}, []⟩ (passes 0
      [(filledAt (scanned 10) "b1" 100 0, 41),
        (filledAt (exitAsk apple 10 4 "scale-out" 1) "s1" 110 1, 43)])).any (fun w =>
        decide ((∀ e ∈ w.store.settlements.rows, e.side = .buy → e.sector = some "Technology") ∧
          ∃ row ∈ w.store.holdings.rows, recordId row = assetIdentityKey apple ∧
            row.quantity = 6 ∧ row.sector = none ∧
            (ViewSources.charges { holdings := w.store.holdings.rows }).toOption
              = some [⟨.holding (assetIdentityKey apple), "Other", 600⟩])) = true := by
    decide +kernel
  obtain ⟨w, hreach, hbuys, row, hrow, hkey, hquantity, hnone, hcharges⟩ :=
    Machine.exists_of_run hrun
  refine ⟨w, hreach, hbuys, fun hkept => ?_, row, hrow, hkey, hquantity, hnone, hcharges⟩
  have hsome := (hkept row hrow hkey).1
  rw [hnone] at hsome
  cases hsome

end TradePulse.Execution
