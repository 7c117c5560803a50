/-
**An integrity hold fences settlement.**

Every financial write of a stage passes the broker order of its event as a guard, and a guarded
write is refused inside its own transaction while that order is held.  The one write that passes no
guard is the liability of an oversell.

Main definitions:

* `Op.GuardedBy` — the guard of a financial write;
* `LedgerKept` — two stores agree on everything financial.

Main results:

* `uses_guarded_handlers` — every stage passes the order of its event to every guard;
* `hold_fences_iff` — while the order is held, a transaction changes the ledger exactly if it
  creates a new liability.
-/

import TradePulse.Settlement.Labelled

set_option autoImplicit false

namespace TradePulse

namespace Settlement

open Process Storage

/-! ### The guards of the stages -/

/-- The guard that a financial write passes. -/
def Op.GuardedBy (key : Option String) : Op → Prop
  | .closeLot _ event => event.brokerOrderId = key
  | .createLot _ guardKey => guardKey = key
  | .projectAccounting event _ _ => event.brokerOrderId = key
  | .deleteHolding _ guardKey => guardKey = key
  | .mutateHolding _ _ guardKey => guardKey = key
  | .createHolding _ _ guardKey => guardKey = key
  | .updateTradeIntent _ guardKey => guardKey = key
  | _ => True

variable {key : Option String} {α : Type}

theorem uses_guarded {o : Op} {f : o.Res → Settle α} (ho : o.GuardedBy key)
    (hf : ∀ r, (f r).Uses (Op.GuardedBy key)) :
    (Prog.bind (perform o) f).Uses (Op.GuardedBy key) :=
  Prog.Uses.bind hf ((Prog.uses_perform o).2 ho)

theorem uses_guarded_of_writes {parts : List Part} {p : Settle α} (hp : p.Uses (Op.WritesIn parts))
    (hparts : ∀ q ∈ [Part.positionLots, .accounting, .holdings, .tradeIntents], q ∉ parts) :
    p.Uses (Op.GuardedBy key) := by
  refine hp.mono fun o ho => ?_
  have hnone : ∀ q ∈ [Part.positionLots, .accounting, .holdings, .tradeIntents],
      o.writes ≠ some q := fun q hq hw => hparts q hq (ho q hw)
  cases o with
  | closeLot closure event => exact absurd rfl (hnone .positionLots (by simp))
  | createLot lot guardKey => exact absurd rfl (hnone .positionLots (by simp))
  | projectAccounting event cash trade => exact absurd rfl (hnone .accounting (by simp))
  | deleteHolding asset guardKey => exact absurd rfl (hnone .holdings (by simp))
  | mutateHolding openLots holding guardKey => exact absurd rfl (hnone .holdings (by simp))
  | createHolding openLots holding guardKey => exact absurd rfl (hnone .holdings (by simp))
  | updateTradeIntent intent guardKey => exact absurd rfl (hnone .tradeIntents (by simp))
  | _ => trivial

theorem uses_guarded_of_reads {p : Settle α} (hp : p.Uses (Op.WritesIn [])) :
    p.Uses (Op.GuardedBy key) :=
  uses_guarded_of_writes hp (by simp)

theorem uses_guarded_projectLot (event : SettlementEvent) :
    (projectLot event).Uses (Op.GuardedBy event.brokerOrderId) := by
  refine Prog.Uses.bind (fun lots => ?_)
    (uses_guarded_of_reads (uses_unconvertedLots _ _))
  refine Prog.Uses.bind (fun plan => ?_) (Prog.uses_ofExcept _)
  refine Prog.Uses.bind (fun _ => ?_) (Prog.uses_ofExcept _)
  refine Prog.Uses.bind (fun _ => ?_) (Prog.Uses.forEach fun closure _ => ?_)
  · refine Prog.Uses.bind (fun _ => Prog.uses_done _) ?_
    unfold openPosition
    split
    · split
      · refine Prog.Uses.bind (fun _ => ?_) (Prog.uses_ofExcept _)
        exact uses_guarded trivial fun _ => Prog.uses_done _
      · split
        · exact uses_guarded_of_writes (uses_mixedLotOrigin event) (by decide)
        · refine uses_guarded trivial fun _ => ?_
          refine Prog.Uses.bind (fun _ => ?_) (Prog.uses_ofExcept _)
          exact uses_guarded rfl fun _ => Prog.uses_done _
    · exact Prog.uses_done _
  · exact uses_guarded rfl fun _ => Prog.uses_done _

theorem uses_guarded_projectHolding (event : SettlementEvent) :
    (projectHolding event).Uses (Op.GuardedBy event.brokerOrderId) := by
  refine Prog.Uses.bind (fun lots => ?_)
    (uses_guarded_of_reads (uses_unconvertedLots _ _))
  refine uses_guarded trivial fun existing => ?_
  split
  · split
    · exact uses_guarded rfl fun _ => Prog.uses_done _
    · exact Prog.uses_done _
  · refine Prog.Uses.bind (fun levels => ?_)
      (uses_guarded_of_reads (uses_entryProtectiveLevels _))
    refine Prog.Uses.bind (fun holding => ?_) (Prog.uses_ofExcept _)
    split
    · exact uses_guarded rfl fun _ => Prog.uses_done _
    · exact uses_guarded rfl fun _ => Prog.uses_done _

theorem uses_guarded_projectTrade (event : SettlementEvent) :
    (projectTrade event).Uses (Op.GuardedBy event.brokerOrderId) := by
  refine uses_guarded trivial fun intent => ?_
  cases intent with
  | none => exact Prog.uses_done _
  | some intent =>
      exact uses_guarded trivial fun _ => uses_guarded trivial fun _ =>
        uses_guarded rfl fun _ => Prog.uses_done _

/-- **Every stage passes the order of its event to every guard.** -/
theorem uses_guarded_handlers (stage : Stage) (state : SettlementEvent) :
    (handlers stage state).Uses (Op.GuardedBy state.brokerOrderId) := by
  have quiet : ∀ {p : Settle Unit}, p.Uses (Op.GuardedBy state.brokerOrderId) →
      (p.bind fun _ => Prog.done (none : Option ℚ)).Uses (Op.GuardedBy state.brokerOrderId) :=
    fun hp => Prog.Uses.bind (fun _ => Prog.uses_done _) hp
  cases stage with
  | projectLot => exact uses_guarded_projectLot state
  | projectAttribution =>
      exact quiet (uses_guarded_of_writes (uses_projectAttribution state) (by decide))
  | projectCash => exact quiet ((Prog.uses_perform _).2 rfl)
  | projectHolding => exact quiet (uses_guarded_projectHolding state)
  | projectTrade => exact uses_guarded rfl fun _ => quiet (uses_guarded_projectTrade state)
  | verifyIntegrity =>
      exact quiet (uses_guarded_of_reads (uses_verifyIntegrity state true))
  | projectLiabilityHold =>
      exact quiet (uses_guarded_of_writes (uses_projectLiabilityHold state) (by decide))

/-! ### What a hold refuses -/

/-- Two stores agree on lots, holdings, intents, accounting rows and liabilities. -/
def LedgerKept (s s' : Store) : Prop :=
  ∀ p ∈ [Part.positionLots, .holdings, .tradeIntents, .accounting, .liabilities],
    Store.SameAt p s s'

/-- The transaction inserts a liability for a fill that had none. -/
def Op.NewLiability (s : Store) : Op → Prop
  | .createLiability l => s.shortExposureLiabilities.Admits l
  | _ => False

instance (s : Store) (o : Op) : Decidable (o.NewLiability s) := by
  apply Op.casesOn (motive := fun o => Decidable (Op.NewLiability s o)) o
  case createLiability =>
    intro l
    exact inferInstanceAs (Decidable (s.shortExposureLiabilities.Admits l))
  all_goals
    intros
    exact isFalse not_false

theorem LedgerKept.refl (s : Store) : LedgerKept s s := fun p _ => Store.SameAt.refl p s

theorem guard_refuses {β : Type} {s s' : Store} {key : Option String} {id : String} {r : β}
    {f : Unit → Except Raised (β × Store)} (hkey : key = some id)
    (hheld : (s.integrityHolds.get? id).isSome) :
    (checkIntegrityHold s key >>= f) ≠ .ok (r, s') := by
  obtain ⟨hold, hget⟩ := Option.isSome_iff_exists.1 hheld
  intro hx
  obtain ⟨_, hok, -⟩ := except_bind_eq_ok.1 hx
  rw [hkey, checkIntegrityHold, Option.bind_some, hget] at hok
  cases hok

/-- **A guarded transaction under a hold**: the ledger stays, unless a liability is new. -/
theorem exec_held {o : Op} {i : Outside} {s s' : Store} {r : o.Res} {id : String}
    (ho : o.GuardedBy (some id)) (hheld : (s.integrityHolds.get? id).isSome)
    (hx : exec o i s = .ok (r, s')) (hnew : ¬ o.NewLiability s) : LedgerKept s s' := by
  intro p hp
  by_cases hw : o.writes = some p
  · cases o with
    | closeLot closure event => exact absurd hx (guard_refuses ho hheld)
    | createLot lot guardKey => exact absurd hx (guard_refuses ho hheld)
    | deleteHolding asset guardKey => exact absurd hx (guard_refuses ho hheld)
    | mutateHolding openLots holding guardKey => exact absurd hx (guard_refuses ho hheld)
    | createHolding openLots holding guardKey => exact absurd hx (guard_refuses ho hheld)
    | updateTradeIntent intent guardKey => exact absurd hx (guard_refuses ho hheld)
    | projectAccounting event cash trade =>
        obtain ⟨t, ht, -⟩ := except_bind_eq_ok.1 hx
        obtain ⟨_, hcheck, -⟩ := except_bind_eq_ok.1 ht
        exact absurd (congrArg (Except.map fun u => (u, s)) hcheck) (guard_refuses ho hheld)
    | createLiability l =>
        cases hx
        rw [Table.createOnce_of_not_admits hnew]
        exact Store.SameAt.refl p s
    | _ => cases hw <;> simp at hp
  · exact exec_frame hx p hw

theorem not_ledgerKept_of_newLiability {o : Op} {i : Outside} {s s' : Store} {r : o.Res}
    (hx : exec o i s = .ok (r, s')) (hnew : o.NewLiability s) : ¬ LedgerKept s s' := by
  intro hkept
  cases o with
  | createLiability l =>
      cases hx
      have hrows := congrArg (·.rows.length) (hkept .liabilities (by simp))
      simp [Table.rows_createOnce hnew] at hrows
  | _ => exact hnew

/-! ### Every transaction of a pass -/

/-- A transaction passes the order of its event to its guard. -/
def GuardedFor (g : Work) (o : Op) : Prop :=
  ∀ event, g.claimed = some event → o.GuardedBy event.brokerOrderId

/-- The events of an attempt belong to one order. -/
theorem attemptRule_guardedFor :
    AttemptRule GuardedFor fun claimed state => state.brokerOrderId = claimed.brokerOrderId where
  reads g o ho event _ := by
    cases o with
    | closeLot closure event => cases ho
    | createLot lot guardKey => cases ho
    | projectAccounting event cash trade => cases ho
    | deleteHolding asset guardKey => cases ho
    | mutateHolding openLots holding guardKey => cases ho
    | createHolding openLots holding guardKey => cases ho
    | updateTradeIntent intent guardKey => cases ho
    | _ => trivial
  claims _ _ _ _ _ _ _ := trivial
  claimed _ _ := rfl
  after c state st r state' hstate hfields := by
    rw [← hstate]
    exact congrArg (·.brokerOrderId) hfields
  stage g c state st hclaimed hstate := by
    refine (uses_guarded_handlers st state).mono fun o ho event hevent => ?_
    obtain rfl : c = event := Option.some.inj (hclaimed.symm.trans hevent)
    exact hstate ▸ ho
  mark _ _ _ _ _ _ _ := trivial
  done _ _ _ _ _ _ _ _ _ := trivial
  fail _ _ _ _ _ _ _ _ _ _ _ := trivial
  latch _ _ _ _ _ _ _ _ _ _ _ := trivial

/-- The step lemma: a guarded transaction of an event whose order is held. -/
theorem ledgerKept_step {w w' : LabelledPool} {j : ℕ} {i : Outside}
    (hstep : labelled.step w (.run j i) = some w') {g : Work} {o : Op}
    (hnext : (w.procs[j]?).bind Prog.next? = some (g, o)) {id : String}
    (hguarded : o.GuardedBy (some id)) (hheld : (w.store.integrityHolds.get? id).isSome) :
    LedgerKept w.store w'.store ↔ ¬ o.NewLiability w.store := by
  obtain ⟨p, hp, hnext⟩ := Option.bind_eq_some_iff.1 hnext
  simp only [labelled, Pool.machine, Pool.step, hp, Option.bind_some, Option.map_eq_some_iff]
    at hstep
  obtain ⟨⟨s', p'⟩, hadvance, rfl⟩ := hstep
  cases p with
  | done a => cases hnext
  | fail e => cases hnext
  | step o' next =>
      cases hnext
      simp only [System.advance, labelledSystem] at hadvance
      split at hadvance
      · rename_i r t hx
        cases hadvance
        exact ⟨fun hkept hnew => not_ledgerKept_of_newLiability hx hnew hkept,
          fun hnew => exec_held hguarded hheld hx hnew⟩
      · -- the transaction raised: it changed nothing and inserted nothing
        rename_i e hx
        cases hadvance
        refine ⟨fun _ hnew => ?_, fun _ => .refl _⟩
        cases o with
        | createLiability l => cases hx
        | _ => exact hnew

/-- **A hold fences settlement, but for new liabilities.**  In every interleaving of passes with
each other and with anything that happens to the store, a transaction made for an event whose order
is held leaves lots, holdings, intents, accounting rows and liabilities as they were if and only if
it does not insert the liability of an oversell that had none yet. -/
theorem hold_fences_iff {s₀ : Store} {w w' : LabelledPool}
    (h : labelled.Reaches (fun _ _ => True) ⟨s₀, []⟩ w) {j : ℕ} {i : Outside}
    (hstep : labelled.step w (.run j i) = some w') {g : Work} {o : Op}
    (hnext : (w.procs[j]?).bind Prog.next? = some (g, o)) {event : SettlementEvent}
    (hevent : g.claimed = some event) {id : String} (horder : event.brokerOrderId = some id)
    (hheld : (w.store.integrityHolds.get? id).isSome) :
    LedgerKept w.store w'.store ↔ ¬ o.NewLiability w.store := by
  have hguarded : o.GuardedBy event.brokerOrderId := attemptRule_guardedFor.next h hnext event hevent
  exact ledgerKept_step hstep hnext (horder ▸ hguarded) hheld

/-- Record an execution and its event. -/
def recordsExecution (fill : Except Raised Fill) (s : Store) : Store :=
  match fill.bind fun f => (recordedEvent f).map fun e => (f, e) with
  | .ok (f, e) =>
      { s with
        fills := s.fills.createOnce f
        settlements := s.settlements.createOnce e }
  | .error _ => s

/-- Hold an order whose quantities could not be verified. -/
def holdsOrder (id : String) (s : Store) : Store :=
  let hold : IntegrityHold :=
    { brokerOrderId := id
      tradeIntentId := "intent"
      holdType := .verificationPending
      reason := "broker unavailable"
      createdAt := 1 }
  { s with integrityHolds := s.integrityHolds.createOnce hold }

/-- A pass settles an execution of an order and is about to open what it planned; then the order is
held. -/
def heldBeforeOpening (fill : Except Raised Fill) (id : String) (n : ℕ) :
    List (Act Outside Raised PassArgs (Store → Store)) :=
  List.flatten
    [ [.env (recordsExecution fill), .start {}],
      List.replicate n (.run 0 { now := 2, uuid := "lot" }), [.env (holdsOrder id)] ]

/-- The pass is about to make a transaction for an event of the order, which is held. -/
def AboutToWrite (w : LabelledPool) (id : String)
    (P : Op → Prop) [DecidablePred P] : Prop :=
  (w.store.integrityHolds.get? id).isSome = true ∧
    ((w.procs[0]?).bind Prog.next?).any (fun q =>
      q.1.claimed.any (fun e => decide (e.brokerOrderId = some id)) && decide (P q.2)) = true

instance (w : LabelledPool) (id : String)
    (P : Op → Prop) [DecidablePred P] : Decidable (AboutToWrite w id P) :=
  inferInstanceAs (Decidable (_ ∧ _))

theorem AboutToWrite.next {w : LabelledPool} {id : String}
    {P : Op → Prop} [DecidablePred P] (h : AboutToWrite w id P) :
    ∃ g o event, (w.procs[0]?).bind Prog.next? = some (g, o) ∧ g.claimed = some event ∧
      event.brokerOrderId = some id ∧ P o := by
  obtain ⟨⟨g, o⟩, hnext, hq⟩ := (Option.any_eq_true _ _).1 h.2
  rw [Bool.and_eq_true] at hq
  obtain ⟨event, hevent, he⟩ := (Option.any_eq_true _ _).1 hq.1
  exact ⟨g, o, event, hnext, hevent, of_decide_eq_true he, of_decide_eq_true hq.2⟩

/-- The write of a lot finds the hold and leaves the ledger as it was. -/
theorem hold_fences_iff_purchase : ∃ w w' : LabelledPool,
    labelled.Reaches (fun _ _ => True) ⟨{}, []⟩ w ∧
      AboutToWrite w "order-b1" (fun o => o.writes = some .positionLots) ∧
      labelled.step w (.run 0 { now := 3 }) = some w' ∧ LedgerKept w.store w'.store := by
  have hrun : (labelled.run ⟨{}, []⟩
      (heldBeforeOpening (execution "b1" .buy 4 10 0) "order-b1" 12)).any (fun w =>
        decide (AboutToWrite w "order-b1" (fun o => o.writes = some .positionLots) ∧
          (labelled.step w (.run 0 { now := 3 })).isSome = true)) = true := by
    decide +kernel
  obtain ⟨w, hreach, habout, hstep⟩ := Machine.exists_of_run hrun
  obtain ⟨w', hstep⟩ := Option.isSome_iff_exists.1 hstep
  obtain ⟨g, o, event, hnext, hevent, horder, hwrites⟩ := habout.next
  have hnew : ¬ o.NewLiability w.store := by
    intro hnew
    cases o with
    | createLiability l => cases hwrites
    | _ => exact hnew
  exact ⟨w, w', hreach, habout, hstep,
    (hold_fences_iff hreach hstep hnext hevent horder habout.1).2 hnew⟩

/-- **A liability is written under a hold.**  The order of an oversell is held after the sale was
planned; its liability is created nonetheless. -/
theorem liability_created_while_held :
    ∃ (w w' : LabelledPool) (g : Work) (o : Op) (event : SettlementEvent),
      labelled.Reaches (fun _ _ => True) ⟨{}, []⟩ w ∧
        labelled.step w (.run 0 { now := 3 }) = some w' ∧
        (w.procs[0]?).bind Prog.next? = some (g, o) ∧ g.claimed = some event ∧
        event.brokerOrderId = some "order-s1" ∧
        (w.store.integrityHolds.get? "order-s1").isSome = true ∧
        ¬ LedgerKept w.store w'.store := by
  have hrun : (labelled.run ⟨{}, []⟩
      (heldBeforeOpening (execution "s1" .sell 10 10 0) "order-s1" 11)).any (fun w =>
        decide (AboutToWrite w "order-s1" (fun o => o.NewLiability w.store) ∧
          (labelled.step w (.run 0 { now := 3 })).isSome = true)) = true := by
    decide +kernel
  obtain ⟨w, hreach, habout, hstep⟩ := Machine.exists_of_run hrun
  obtain ⟨w', hstep⟩ := Option.isSome_iff_exists.1 hstep
  obtain ⟨g, o, event, hnext, hevent, horder, hnew⟩ := habout.next
  have hguarded : o.GuardedBy event.brokerOrderId :=
    attemptRule_guardedFor.next hreach hnext event hevent
  exact ⟨w, w', g, o, event, hreach, hstep, hnext, hevent, horder, habout.1, fun hkept =>
    (ledgerKept_step hstep hnext (horder ▸ hguarded) habout.1).1 hkept hnew⟩

end Settlement

end TradePulse
