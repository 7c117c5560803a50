/-
**Attempts refused by a pending verification.**

While the broker cannot be asked about an order, the order is held and every attempt at its events
is refused.  A refusal counts as a failed attempt: the event is retried, up to the limit on attempts
that every failure shares, and the eighth refusal is recorded as a failure for good.

Main definitions:

* `NamesPending` — a text of a refusal by a hold that is no proven dispute;
* `Op.RecordsRefusal`, `Op.Spares` — the transactions that follow a refusal, and the harmless ones.

Main results:

* `heldText_namesPending`, `checkIntegrityHold_namesPending` — both refusals are named so;
* `refusal_spares_iff` — a refusal is harmless exactly if fewer than seven attempts had failed.
-/

import TradePulse.Settlement.Fence

set_option autoImplicit false

namespace TradePulse

namespace Settlement

open Process Storage

/-! ### The texts of refusals -/

/-- The text, after its lead, is that of a refusal by a hold that is no proven dispute. -/
def NamesPending (lead text : String) : Prop :=
  (lead ++ "VERIFICATION_PENDING").toList <+: text.toList

instance (lead text : String) : Decidable (NamesPending lead text) :=
  inferInstanceAs (Decidable (_ <+: _))

/-- What names a pending verification is no integrity violation. -/
theorem NamesPending.not_violation {text : String} (h : NamesPending "" text) :
    ¬ text.startsWith "INTEGRITY_VIOLATION" = true := by
  intro hviolation
  have hboth : "INTEGRITY_VIOLATION".toList <+: "VERIFICATION_PENDING".toList :=
    List.prefix_of_prefix_length_le (String.startsWith_string_iff.1 hviolation) h (by decide)
  exact absurd hboth (by decide)

theorem NamesPending.of_take {text : String} {n : ℕ}
    (h : NamesPending "" (String.ofList (text.toList.take n))) : NamesPending "" text := by
  unfold NamesPending at h ⊢
  rw [String.toList_ofList] at h
  exact h.trans (List.take_prefix n _)

theorem NamesPending.of_lead {lead text : String} (h : NamesPending lead (lead ++ text)) :
    NamesPending "" text := by
  unfold NamesPending at h ⊢
  rw [String.toList_append, String.toList_append] at h
  exact (List.prefix_append_right_inj _).1 h

/-! ### What follows a refusal -/

/-- The leads of the two reasons that the record of a failure stops trading with. -/
def blockedLead : String := "Settlement integrity blocked: "

def failedLead : String := "Settlement permanently failed for a real broker fill: "

/-- The transaction follows a refusal by a hold that is no proven dispute: it records the attempt as
failed, or stops trading for it. -/
def Op.RecordsRefusal : Op → Prop
  | .checkpoint d => d.status ≠ .processing ∧ d.status ≠ .completed ∧
      ∃ text ∈ d.errorCode, NamesPending "" text
  | .latchFinancialIntegrityBlock reason _ =>
      NamesPending blockedLead reason ∨ NamesPending failedLead reason
  | _ => False

instance (o : Op) : Decidable o.RecordsRefusal := by
  apply Op.casesOn (motive := fun o => Decidable (Op.RecordsRefusal o)) o
  case checkpoint =>
    intro d
    exact inferInstanceAs (Decidable (_ ∧ _ ∧ ∃ text ∈ d.errorCode, _))
  case latchFinancialIntegrityBlock =>
    intro reason now
    exact inferInstanceAs (Decidable (_ ∨ _))
  all_goals
    intros
    exact isFalse not_false

/-- The transaction leaves the event open: it is to be retried, and from some instant on every pass
may claim it.  Trading goes on. -/
def Op.Spares : Op → Prop
  | .checkpoint d => d.status = .retryableFailed ∧
      ∃ t, ∀ now, t ≤ now → ∀ stale force, isSettlementProcessable d now stale force = true
  | .latchFinancialIntegrityBlock _ _ => False
  | _ => True

/-- After a refusal, the transaction is harmless exactly if fewer than seven attempts had failed. -/
def SparesUpToSeven (g : Work) (o : Op) : Prop :=
  ∀ event, g.event = some event → o.RecordsRefusal →
    (o.Spares ↔ event.attemptCount + 1 < maxSettlementAttempts)

/-- A transaction of a stage records no failure. -/
def Op.NoFailure : Op → Prop
  | .checkpoint _ => False
  | .latchFinancialIntegrityBlock reason _ => ¬ ("Settlement".toList <+: reason.toList)
  | _ => True

theorem Op.NoFailure.not_recordsRefusal {o : Op} (h : o.NoFailure) : ¬ o.RecordsRefusal := by
  intro hrefusal
  cases o with
  | checkpoint d => exact h
  | latchFinancialIntegrityBlock reason now =>
      refine h ?_
      rcases hrefusal with hrefusal | hrefusal
      · exact (by decide : "Settlement".toList <+: (blockedLead ++ "VERIFICATION_PENDING").toList).trans
          hrefusal
      · exact (by decide : "Settlement".toList <+: (failedLead ++ "VERIFICATION_PENDING").toList).trans
          hrefusal
  | _ => exact hrefusal

variable {α : Type}

theorem uses_noFailure {parts : List Part} {p : Settle α} (hp : p.Uses (Op.WritesIn parts))
    (hparts : Part.settlements ∉ parts ∧ Part.session ∉ parts) : p.Uses Op.NoFailure := by
  refine hp.mono fun o ho => ?_
  cases o with
  | checkpoint d => exact absurd (ho .settlements rfl) hparts.1
  | latchFinancialIntegrityBlock reason now => exact absurd (ho .session rfl) hparts.2
  | _ => trivial

theorem uses_noFailure_then {o : Op} {f : o.Res → Settle α} (ho : o.NoFailure)
    (hf : ∀ r, (f r).Uses Op.NoFailure) : (Prog.bind (perform o) f).Uses Op.NoFailure :=
  Prog.Uses.bind hf ((Prog.uses_perform o).2 ho)

theorem uses_noFailure_projectLot (event : SettlementEvent) :
    (projectLot event).Uses Op.NoFailure := by
  have hlead : ∀ symbol : String, ¬ ("Settlement".toList <+: ("MIXED_LOT_ORIGIN: " ++ symbol).toList) :=
    fun symbol h => by
      rw [String.toList_append] at h
      exact absurd ((List.cons_prefix_cons.1 h).1) (by decide)
  refine Prog.Uses.bind (fun lots => ?_)
    (uses_noFailure (show (unconvertedLots _ _).Uses (Op.WritesIn []) from uses_unconvertedLots _ _)
      (by simp))
  refine Prog.Uses.bind (fun plan => ?_) (Prog.uses_ofExcept _)
  refine Prog.Uses.bind (fun _ => ?_) (Prog.uses_ofExcept _)
  refine Prog.Uses.bind (fun _ => ?_) (Prog.Uses.forEach fun closure _ => ?_)
  · refine Prog.Uses.bind (fun _ => Prog.uses_done _) ?_
    unfold openPosition
    split
    · split
      · refine Prog.Uses.bind (fun _ => ?_) (Prog.uses_ofExcept _)
        exact uses_noFailure_then trivial fun _ => Prog.uses_done _
      · split
        · refine uses_noFailure_then ?_ fun _ => uses_noFailure_then trivial fun _ => ?_
          · simp only [Op.NoFailure, String.append_assoc]
            exact hlead _
          · exact Prog.uses_fail _
        · refine uses_noFailure_then trivial fun _ => ?_
          refine Prog.Uses.bind (fun _ => ?_) (Prog.uses_ofExcept _)
          exact uses_noFailure_then trivial fun _ => Prog.uses_done _
    · exact Prog.uses_done _
  · exact uses_noFailure_then trivial fun _ => Prog.uses_done _

theorem uses_noFailure_projectLiabilityHold (event : SettlementEvent) :
    (projectLiabilityHold event).Uses Op.NoFailure := by
  have hlead : ∀ id : String,
      ¬ ("Settlement".toList <+: ("UNSUPPORTED_SHORT_POSITION: " ++ id).toList) := fun id h => by
    rw [String.toList_append] at h
    exact absurd ((List.cons_prefix_cons.1 h).1) (by decide)
  refine uses_noFailure_then trivial fun liability => ?_
  cases liability with
  | none => exact Prog.uses_done _
  | some liability =>
      exact uses_noFailure_then (hlead _) fun _ => uses_noFailure_then trivial fun _ =>
        uses_noFailure_then trivial fun _ => uses_noFailure_then trivial fun _ => Prog.uses_done _

theorem uses_noFailure_handlers (stage : Stage) (state : SettlementEvent) :
    (handlers stage state).Uses Op.NoFailure := by
  cases stage with
  | projectLot => exact uses_noFailure_projectLot state
  | projectLiabilityHold =>
      exact Prog.Uses.bind (fun _ => Prog.uses_done _) (uses_noFailure_projectLiabilityHold state)
  | projectAttribution => exact uses_noFailure (uses_handlers .projectAttribution state) (by decide)
  | projectCash => exact uses_noFailure (uses_handlers .projectCash state) (by decide)
  | projectHolding => exact uses_noFailure (uses_handlers .projectHolding state) (by decide)
  | projectTrade => exact uses_noFailure (uses_handlers .projectTrade state) (by decide)
  | verifyIntegrity => exact uses_noFailure (uses_handlers .verifyIntegrity state) (by decide)

/-! ### What a refusal leads to -/

/-- A failure that is no integrity violation is retried until the attempts are exhausted. -/
theorem classifySettlementFailure_retries {attempts : ℕ} {exc : Raised} {now : Instant}
    (h : ¬ exc.text.startsWith "INTEGRITY_VIOLATION" = true) :
    (attempts + 1 < maxSettlementAttempts →
      (classifySettlementFailure attempts exc now).status = .retryableFailed) ∧
    (¬ attempts + 1 < maxSettlementAttempts →
      (classifySettlementFailure attempts exc now).status = .terminalFailed) := by
  simp only [classifySettlementFailure, if_neg h]
  constructor
  · intro hfew
    rw [if_neg (by omega)]
  · intro hmany
    rw [if_pos (by omega)]

/-- An event that is to be retried may be claimed from some instant on. -/
theorem processable_of_retryable {d : SettlementEvent} (h : d.status = .retryableFailed) :
    ∃ t, ∀ now, t ≤ now → ∀ stale force, isSettlementProcessable d now stale force = true := by
  refine ⟨d.nextRetryAt.getD 0, fun now hnow stale force => ?_⟩
  unfold isSettlementProcessable
  rw [h]
  cases hretry : d.nextRetryAt with
  | none => simp
  | some t =>
      rw [hretry, Option.getD_some] at hnow
      simp [hnow]

theorem spares_failedEvent {event claimed d : SettlementEvent} {exc : Raised} {now : Instant}
    (hd : failedEvent claimed (classifySettlementFailure event.attemptCount exc now) = .ok d)
    (hrefusal : (Op.checkpoint d).RecordsRefusal) :
    (Op.checkpoint d).Spares ↔ event.attemptCount + 1 < maxSettlementAttempts := by
  obtain ⟨-, -, text, htext, hnames⟩ := hrefusal
  have hf := SettlementEvent.make_eq_ok_iff.1 hd
  have herror : d.errorCode = some (String.ofList (exc.text.toList.take 200)) :=
    congrArg (·.errorCode) hf
  have hstatus : d.status = (classifySettlementFailure event.attemptCount exc now).status :=
    congrArg (·.status) hf
  obtain rfl : text = _ := Option.some.inj (htext.symm.trans herror)
  have hclass := @classifySettlementFailure_retries event.attemptCount exc now
    hnames.of_take.not_violation
  constructor
  · intro hspares
    by_contra hmany
    have hterminal := hclass.2 hmany
    rw [← hstatus, hspares.1] at hterminal
    cases hterminal
  · intro hfew
    have hretry : d.status = .retryableFailed := hstatus.trans (hclass.1 hfew)
    exact ⟨hretry, processable_of_retryable hretry⟩

/-- A record that stops trading for a refusal comes after the attempts are exhausted. -/
theorem exhausted_of_latch {attempts : ℕ} {exc : Raised} {now clock : Instant}
    (hstatus : (classifySettlementFailure attempts exc now).status = .integrityBlocked ∨
      (classifySettlementFailure attempts exc now).status = .terminalFailed)
    (hrefusal : (Op.latchFinancialIntegrityBlock
      (failureReason (classifySettlementFailure attempts exc now)) clock).RecordsRefusal) :
    ¬ attempts + 1 < maxSettlementAttempts := by
  intro hfew
  rcases hstatus with hblocked | hterminal
  · -- only a violation is blocked, and no violation names a pending verification
    rw [failureReason, if_pos hblocked] at hrefusal
    have hnames : NamesPending "" (classifySettlementFailure attempts exc now).error := by
      rcases hrefusal with hrefusal | hrefusal
      · exact hrefusal.of_lead
      · have hlead : blockedLead.toList <+: (failedLead ++ "VERIFICATION_PENDING").toList := by
          refine List.prefix_of_prefix_length_le ?_ hrefusal (by decide)
          rw [String.toList_append]
          exact List.prefix_append _ _
        exact absurd hlead (by decide)
    have hretry := (@classifySettlementFailure_retries attempts exc now hnames.not_violation).1 hfew
    rw [hblocked] at hretry
    cases hretry
  · simp only [classifySettlementFailure] at hterminal
    split at hterminal
    · cases hterminal
    · rw [if_neg (by omega)] at hterminal
      cases hterminal

theorem attemptRule_sparesUpToSeven :
    AttemptRule SparesUpToSeven fun _ state => state.status = .processing where
  reads g o ho event _ hrefusal := by
    cases o with
    | checkpoint d => cases ho
    | latchFinancialIntegrityBlock reason now => cases ho
    | _ => exact absurd hrefusal not_false
  claims _ _ _ _ _ _ _ hrefusal := absurd hrefusal not_false
  claimed _ h := h
  after c state st r state' hstate hfields := by
    rw [← hstate]
    exact congrArg (·.status) hfields
  stage g c state st _ _ := (uses_noFailure_handlers st state).mono fun o ho event _ hrefusal =>
    absurd hrefusal ho.not_recordsRefusal
  mark _ _ _ _ hstate _ _ hrefusal := absurd hstate hrefusal.1
  done g c state d _ _ hd event _ hrefusal := by
    have hstatus : d.status = .completed := congrArg (·.status) (SettlementEvent.make_eq_ok_iff.1 hd)
    exact absurd hstatus hrefusal.2.1
  fail g e c exc now d hevent _ hd event hevent' hrefusal := by
    obtain rfl : e = event := Option.some.inj (hevent.symm.trans hevent')
    exact spares_failedEvent hd hrefusal
  latch g e c exc now clock hevent _ hstatus event hevent' hrefusal := by
    obtain rfl : e = event := Option.some.inj (hevent.symm.trans hevent')
    exact ⟨fun h => absurd h not_false, fun hfew => exhausted_of_latch hstatus hrefusal hfew⟩

/-- **A refusal is harmless exactly if fewer than seven attempts had failed.**  In every
interleaving of passes with each other and with anything that happens to the store, the transactions
that follow a refusal by a hold that is no proven dispute leave the event to be retried, and
processable from some instant on, if and only if the pass listed the event with fewer than seven
failed attempts; otherwise the event has failed for good and trading stops. -/
theorem refusal_spares_iff {s₀ : Store} {w : LabelledPool}
    (h : labelled.Reaches (fun _ _ => True) ⟨s₀, []⟩ w) {j : ℕ} {g : Work} {o : Op}
    (hnext : (w.procs[j]?).bind Prog.next? = some (g, o)) {event : SettlementEvent}
    (hevent : g.event = some event) (hrefusal : o.RecordsRefusal) :
    o.Spares ↔ event.attemptCount + 1 < maxSettlementAttempts :=
  attemptRule_sparesUpToSeven.next h hnext event hevent hrefusal

/-- A pass that finds an order held, some time after the pass before it. -/
def refusedPass (k n : ℕ) : List (Act Outside Raised PassArgs (Store → Store)) :=
  .start {} :: List.replicate n (.run k { now := seconds (1000 * (k + 1)) })

/-- The broker cannot be asked about an executed order, and some passes go by. -/
def refusedPasses (k : ℕ) : List (Act Outside Raised PassArgs (Store → Store)) :=
  [.env (recordsExecution (execution "b1" .buy 4 10 0)), .env (holdsOrder "order-b1")] ++
    (List.range k).flatMap fun k => refusedPass k 7

/-- The verification succeeds. -/
def clearsHold (id : String) (s : Store) : Store :=
  { s with integrityHolds := s.integrityHolds.delete id }

/-- The first refusal leaves the event to be retried. -/
theorem refusal_spares_iff_first : ∃ (w : LabelledPool) (g : Work) (o : Op),
    labelled.Reaches (fun _ _ => True) ⟨{}, []⟩ w ∧
      (w.procs[0]?).bind Prog.next? = some (g, o) ∧ o.RecordsRefusal ∧ o.Spares := by
  have hrun : (labelled.run ⟨{}, []⟩ (refusedPasses 0 ++ refusedPass 0 5)).any (fun w =>
      decide (((w.procs[0]?).bind Prog.next?).any (fun q =>
        q.1.event.any (fun e => decide (e.attemptCount = 0)) && decide q.2.RecordsRefusal)
          = true)) = true := by
    decide +kernel
  obtain ⟨w, hreach, hw⟩ := Machine.exists_of_run hrun
  obtain ⟨⟨g, o⟩, hnext, hq⟩ := (Option.any_eq_true _ _).1 hw
  rw [Bool.and_eq_true] at hq
  obtain ⟨event, hevent, hattempts⟩ := (Option.any_eq_true _ _).1 hq.1
  have hrefusal : o.RecordsRefusal := of_decide_eq_true hq.2
  have hfew : event.attemptCount + 1 < maxSettlementAttempts := by
    rw [of_decide_eq_true hattempts]
    decide
  exact ⟨w, g, o, hreach, hnext, hrefusal, (refusal_spares_iff hreach hnext hevent hrefusal).2 hfew⟩

/-- Every hold is a pending verification. -/
def OnlyPending (w : LabelledPool) : Prop :=
  ∀ hold ∈ w.store.integrityHolds.rows, hold.holdType = .verificationPending

instance (w : LabelledPool) : Decidable (OnlyPending w) :=
  inferInstanceAs (Decidable (∀ hold ∈ w.store.integrityHolds.rows, _))

/-- **An outage becomes a failure for good.**  Eight passes find an order held by a pending
verification, and nothing else goes wrong; when the verification has succeeded, the event has failed
for good and trading has stopped. -/
theorem outage_becomes_permanent : ∃ w : LabelledPool,
    labelled.Reaches (fun w _ => OnlyPending w) ⟨{}, []⟩ w ∧ w.store.integrityHolds.rows = [] ∧
      w.store.session.state = .financialIntegrityBlocked ∧
        ∃ e ∈ w.store.settlements.rows, e.brokerOrderId = some "order-b1" ∧
          e.status = .terminalFailed := by
  have hrun : (labelled.runUnder (fun w _ => OnlyPending w) ⟨{}, []⟩
      (refusedPasses 7 ++ refusedPass 7 10 ++ [.env (clearsHold "order-b1")])).any (fun w =>
        decide (w.store.integrityHolds.rows = [] ∧
          w.store.session.state = .financialIntegrityBlocked ∧
          ∃ e ∈ w.store.settlements.rows, e.brokerOrderId = some "order-b1" ∧
            e.status = .terminalFailed)) = true := by
    decide +kernel
  exact Machine.exists_of_runUnder hrun

end Settlement

end TradePulse
