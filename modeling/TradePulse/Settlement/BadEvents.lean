/-
**One bad event in a batch.**

A pass records the failure of an attempt through the same checkpoint that verifies accounting.  The
event is written back with the flags it was claimed with, so a row that no longer matches one of
these flags refuses the record of the failure as well.  The exception then leaves the pass: the
event stays claimed, and the events after it are not attempted.

Main definitions:

* `Watched`, `watch` — a store, and the transactions that a pass tried;
* `MayRaise` — whatever is done for one event may raise, at any point of its attempt;
* `Orderly` — one bad event does not stop the batch;
* `Supported` — whenever a failure is recorded, the flags of the event are backed by its evidence.

Main results:

* `batch_survives_iff` — **a pass is orderly if and only if its failures were supported**;
* `batch_stopped` — a cash row that was changed stops the batch.
-/

import TradePulse.Process.Endings
import TradePulse.Settlement.Labelled

set_option autoImplicit false

namespace TradePulse

namespace Settlement

open Process Storage

/-! ### Watched passes -/

/-- A transaction that a pass tried, the store it found, and what the world outside answered. -/
structure Tried where
  op : Op
  before : Store
  outside : Outside

/-- A store, and what a pass has tried on it so far. -/
structure Watched where
  store : Store
  tried : List Tried := []

/-- Try a transaction; one that is refused changes nothing. -/
def watch (o : Op) (i : Outside) (w : Watched) : Except Raised o.Res × Watched :=
  match exec o i w.store with
  | .ok (r, s) => (.ok r, { store := s, tried := w.tried ++ [⟨o, w.store, i⟩] })
  | .error e => (.error e, { w with tried := w.tried ++ [⟨o, w.store, i⟩] })

/-- The status of an event whose attempt failed. -/
def Failing (e : SettlementEvent) : Prop :=
  e.status = .integrityBlocked ∨ e.status = .terminalFailed ∨ e.status = .retryableFailed

instance (e : SettlementEvent) : Decidable (Failing e) :=
  inferInstanceAs (Decidable (_ ∨ _ ∨ _))

/-- What a transaction makes of an attempt that is going on. -/
def attemptingAfter (going : Bool) : Op → Bool
  | .claimIfProcessable _ _ _ _ => true
  | .checkpoint e => going && e.status == .processing
  | _ => going

/-- An event is claimed, and neither its completion nor its failure was tried. -/
def attempting (tried : List Tried) : Bool :=
  tried.foldl (fun going t => attemptingAfter going t.op) false

/-- The transactions of the loop around the attempts, and the record of a failure. -/
def Op.ofLoop : Op → Bool
  | .clock => true
  | .leaseLost => true
  | .listByStatuses _ => true
  | .claimIfProcessable _ _ _ _ => true
  | .checkpoint e => decide (Failing e)
  | _ => false

/-- Anything may be raised, anywhere in an attempt.  Elsewhere only the database could fail. -/
def MayRaise (o : Op) (w : Watched) : Prop := attempting w.tried = true ∧ o.ofLoop = false

instance (o : Op) (w : Watched) : Decidable (MayRaise o w) := inferInstanceAs (Decidable (_ ∧ _))

/-! ### What is claimed of a pass -/

/-- The accounting rows that the flags of an event stand for are as its evidence derives them. -/
def Accepts (s : Store) (e : SettlementEvent) : Prop :=
  (project s e e.cashProjected e.tradeProjected false).toOption.isSome

instance (s : Store) (e : SettlementEvent) : Decidable (Accepts s e) :=
  inferInstanceAs (Decidable (_ = true))

/-- Whenever a failure is recorded, the flags of the event are backed by its evidence. -/
def Supported (tried : List Tried) : Prop :=
  ∀ t ∈ tried, ∀ e, t.op = .checkpoint e → Failing e → Accepts t.before e

/-- The events that are due when a pass lists them. -/
def dueAt (s : Store) (args : PassArgs) (now : Instant) : List SettlementEvent :=
  dueEvents (s.settlements.rows.filter fun e =>
    [SettlementStatus.pending, .retryableFailed, .processing].contains e.status)
    now args.staleLeaseSeconds args.forceRetry args.limit

/-- The instant at which a pass began. -/
def startOf (tried : List Tried) : Instant := (tried.head?.map fun t => t.outside.now).getD 0

/-- The pass was told that the lease of its command is lost. -/
def Tried.lost (t : Tried) : Bool :=
  match t.op with
  | .leaseLost => t.outside.leaseLost
  | _ => false

/-- The pass tried to claim the event. -/
def Tried.claims (t : Tried) (id : String) : Bool :=
  match t.op with
  | .claimIfProcessable id' _ _ _ => id' == id
  | _ => false

/-- The pass tried to claim the event, or was told that the lease of its command is lost. -/
def Offered (tried : List Tried) (id : String) : Prop :=
  ∃ t ∈ tried, t.lost = true ∨ t.claims id = true

instance (tried : List Tried) (id : String) : Decidable (Offered tried id) :=
  inferInstanceAs (Decidable (∃ t ∈ tried, _))

/-- The row of an event that was claimed tells how its attempt ended. -/
def OutcomeKept (current e : SettlementEvent) : Prop :=
  e.status = .completed ∧ e.attemptCount = current.attemptCount ∨
    Failing e ∧ e.attemptCount = current.attemptCount + 1

/-- The event that a transaction claims has left `PROCESSING`. -/
def Left (s : Store) (t : Tried) : Prop :=
  ∀ id now stale force current, t.op = .claimIfProcessable id now stale force →
    t.before.settlements.get? id = some current →
      isSettlementProcessable current now stale force = true →
        ∃ e, s.settlements.get? id = some e ∧ OutcomeKept current e

/-- **One bad event does not stop the batch**: the pass returns, every due event was attempted, and
every event it claimed has left `PROCESSING` with a status and a number of attempts. -/
structure Orderly (args : PassArgs) (s : Store) (x : Except Raised SettlementBatchSummary)
    (w : Watched) : Prop where
  returned : ∃ summary, x = .ok summary
  offered : ∀ e ∈ dueAt s args (startOf w.tried), Offered w.tried e.settlementEventId
  left : ∀ t ∈ w.tried, Left w.store t

/-! ### What an attempt tries -/

section Attempts

variable {c : SettlementEvent} {w w' w'' : Watched}

theorem watch_store (o : Op) (i : Outside) (w : Watched) :
    (watch o i w).2.store = w.store ∨ ∃ r s, exec o i w.store = .ok (r, s) ∧
      (watch o i w).2.store = s := by
  unfold watch
  split
  · rename_i r s hx
    exact .inr ⟨r, s, hx, rfl⟩
  · exact .inl rfl

@[simp] theorem watch_tried (o : Op) (i : Outside) (w : Watched) :
    (watch o i w).2.tried = w.tried ++ [⟨o, w.store, i⟩] := by
  unfold watch
  split <;> rfl

theorem exec_of_watch {o : Op} {i : Outside} {r : o.Res} (h : (watch o i w).1 = .ok r) :
    exec o i w.store = .ok (r, (watch o i w).2.store) := by
  unfold watch at h ⊢
  split at h
  · rename_i r' s hx
    cases h
    rw [hx]
  · cases h

theorem store_of_watch_error {o : Op} {i : Outside} {e : Raised} (h : (watch o i w).1 = .error e) :
    exec o i w.store = .error e ∧ (watch o i w).2.store = w.store := by
  unfold watch at h ⊢
  split at h
  · cases h
  · rename_i e' hx
    cases h
    rw [hx]
    exact ⟨rfl, rfl⟩

/-- What is tried for a claimed event: it claims no other, records nothing that is not supported,
writes no other event and takes away no row. -/
structure Works (c : SettlementEvent) (w w' : Watched) : Prop where
  tried : ∃ l, w'.tried = w.tried ++ l ∧ Supported l ∧ ∀ t ∈ l, t.op.NoClaim
  others : ∀ id, id ≠ c.settlementEventId →
    w'.store.settlements.get? id = w.store.settlements.get? id
  kept : (∃ row ∈ w.store.settlements, SameKeys row c) →
    ∃ row ∈ w'.store.settlements, SameKeys row c

theorem Works.refl (c : SettlementEvent) (w : Watched) : Works c w w where
  tried := ⟨[], by simp, by simp [Supported], by simp⟩
  others := fun _ _ => rfl
  kept := id

theorem Works.trans (h : Works c w w') (h' : Works c w' w'') : Works c w w'' := by
  obtain ⟨l, hl, hsupported, hclaims⟩ := h.tried
  obtain ⟨l', hl', hsupported', hclaims'⟩ := h'.tried
  refine ⟨⟨l ++ l', by rw [hl', hl, List.append_assoc], fun t ht => ?_, fun t ht => ?_⟩,
    fun id hid => (h'.others id hid).trans (h.others id hid), fun hrow => h'.kept (h.kept hrow)⟩
  · exact (List.mem_append.1 ht).elim (hsupported t) (hsupported' t)
  · exact (List.mem_append.1 ht).elim (hclaims t) (hclaims' t)

/-- A transaction of an attempt at the event. -/
def Inner (c : SettlementEvent) : Op → Prop
  | .claimIfProcessable _ _ _ _ => False
  | .checkpoint e => e.toSettlementFacts = c.toSettlementFacts ∧ ¬ Failing e
  | _ => True

theorem inner_of_writesIn {parts : List Part} (hparts : Part.settlements ∉ parts) {o : Op}
    (ho : o.WritesIn parts) : Inner c o := by
  cases o with
  | claimIfProcessable id now stale force => exact absurd (ho .settlements rfl) hparts
  | checkpoint e => exact absurd (ho .settlements rfl) hparts
  | _ => trivial

/-- One transaction: it wrote no event, or the event that was claimed. -/
theorem works_watch {o : Op} {i : Outside} (hclaim : o.NoClaim)
    (hsupported : Supported [⟨o, w.store, i⟩])
    (hwrites : (watch o i w).2.store.settlements = w.store.settlements ∨
      ∃ e : SettlementEvent, e.toSettlementFacts = c.toSettlementFacts ∧
        (watch o i w).2.store.settlements = w.store.settlements.put e) :
    Works c w (watch o i w).2 := by
  refine { tried := ⟨_, watch_tried o i w, hsupported, by simpa using hclaim⟩,
           others := fun id hid => ?_, kept := fun ⟨row, hrow, hkeys⟩ => ?_ }
  · rcases hwrites with hsame | ⟨e, hfacts, hput⟩
    · rw [hsame]
    · have hrecord : id ≠ Record.recordId e :=
        fun h => hid (h.trans (congrArg (·.settlementEventId) hfacts))
      rw [hput, Table.get?_put_of_ne hrecord]
  · rcases hwrites with hsame | ⟨e, hfacts, hput⟩
    · exact ⟨row, hsame.symm ▸ hrow, hkeys⟩
    · obtain ⟨row', hrow', hkeys'⟩ := Table.exists_mem_put (r := e) hrow
      exact ⟨row', hput.symm ▸ hrow', hkeys'.1.symm.trans hkeys.1, hkeys'.2.symm.trans hkeys.2⟩

theorem works_inner {o : Op} (ho : Inner c o) (i : Outside) : Works c w (watch o i w).2 := by
  have hclaim : o.NoClaim := by
    cases o with
    | claimIfProcessable id now stale force => exact ho
    | _ => trivial
  have hsupported : Supported [⟨o, w.store, i⟩] := by
    intro t ht e hop hfailing
    rw [List.mem_singleton.1 ht] at hop
    subst hop
    exact absurd hfailing ho.2
  refine works_watch hclaim hsupported ?_
  rcases watch_store o i w with hsame | ⟨r, s, hx, hs⟩
  · exact .inl (by rw [hsame])
  · rw [hs]
    cases o with
    | claimIfProcessable id now stale force => exact absurd ho not_false
    | checkpoint e =>
        obtain ⟨-, -, rfl⟩ := checkpoint_ok hx
        exact .inr ⟨e, ho.1, rfl⟩
    | _ => exact .inl (exec_frame hx .settlements (by simp [Op.writes]))

theorem ends_inner {α : Type} {p : Settle α} (hp : p.Uses (Inner c)) :
    p.Ends watch MayRaise w (fun _ w' => Works c w w') fun _ w' => Works c w w' :=
  Prog.Ends.of_uses (Works.refl c) (fun _ _ _ => Works.trans) (fun _ i _ ho => works_inner ho i) w hp

/-- The event as it goes through the stages of an attempt. -/
def InStages (c state : SettlementEvent) : Prop :=
  state.toSettlementFacts = c.toSettlementFacts ∧ state.status = .processing ∧
    state.attemptCount = c.attemptCount

theorem ends_checkpoint {e : SettlementEvent} (hfacts : e.toSettlementFacts = c.toSettlementFacts)
    (hstatus : ¬ Failing e) (hrow : ∃ row ∈ w.store.settlements, SameKeys row c) :
    (perform (.checkpoint e)).Ends watch MayRaise w
      (fun _ w' => Works c w w' ∧ w'.store.settlements.get? c.settlementEventId = some e)
      fun _ w' => Works c w w' := by
  have hinner : Inner c (.checkpoint e) := ⟨hfacts, hstatus⟩
  refine Prog.Ends.perform (fun i r hx => ?_) (fun i _ _ => ?_) fun _ _ => Works.refl c w
  · obtain ⟨-, -, hs⟩ := checkpoint_ok (exec_of_watch hx)
    obtain ⟨row, hmem, hkeys⟩ := hrow
    refine ⟨works_inner hinner i, ?_⟩
    have hsame : SameKeys row e := ⟨hkeys.1.trans (congrArg (·.settlementEventId) hfacts).symm,
      hkeys.2.trans (congrArg (fun f => some f.fillId) hfacts).symm⟩
    have hid : c.settlementEventId = Record.recordId e :=
      (congrArg (·.settlementEventId) hfacts).symm
    rw [hs, hid]
    exact Table.get?_put_self hmem hsame
  · exact works_inner hinner i

theorem ends_runSettlementStages (hc : c.status = .processing)
    (hrow : ∃ row ∈ w.store.settlements, SameKeys row c) :
    (runSettlementStages c handlers fun e => perform (.checkpoint e)).Ends watch MayRaise w
      (fun state w' => Works c w w' ∧ InStages c state) fun _ w' => Works c w w' := by
  refine Prog.Ends.foldEach (L := fun _ state w' => Works c w w' ∧ InStages c state)
    (fun st _ state u hu => ?_) ⟨Works.refl c w, rfl, hc, rfl⟩
  obtain ⟨hworks, hfacts, hstatus, hattempts⟩ := hu
  unfold runStage
  split
  · exact ⟨hworks, hfacts, hstatus, hattempts⟩
  refine Prog.Ends.bind (Q := fun _ w' => Works c w w') (fun result u' hu' => ?_) ?_
  · refine Prog.Ends.bind (Q := fun state' w' => Works c w w' ∧ InStages c state')
      (fun state' v hv => ?_) (Prog.Ends.ofExcept (fun state' hmake => ?_) fun _ _ => hu')
    · obtain ⟨hv, hunder⟩ := hv
      have hpending : ¬ Failing state' := by
        simp [Failing, hunder.2.1]
      refine Prog.Ends.bind (Q := fun _ w' => Works c w w') (fun _ v' hv' => ?_)
        ((ends_checkpoint hunder.1 hpending (hv.kept hrow)).mono (fun _ _ h => hv.trans h.1)
          fun _ _ h => hv.trans h)
      exact (show Works c w v' ∧ InStages c state' from ⟨hv', hunder⟩)
    · have hfields := SettlementEvent.make_eq_ok_iff.1 hmake
      refine ⟨hu', ?_, ?_, ?_⟩
      · rw [hfields, ← hfacts]
        rfl
      · rw [hfields, ← hstatus]
        rfl
      · rw [hfields, ← hattempts]
        rfl
  · have hinner : (handlers st state).Uses (Inner c) :=
      (uses_handlers st state).mono fun _ => inner_of_writesIn (settlements_notMem_stageWrites st)
    exact (ends_inner hinner).mono (fun _ _ h => hworks.trans h) fun _ _ h => hworks.trans h

/-- **An attempt** completes the event, or raises; either way it leaves the other events alone. -/
theorem ends_attempt (hc : c.status = .processing)
    (hrow : ∃ row ∈ w.store.settlements, SameKeys row c) :
    (attempt c).Ends watch MayRaise w
      (fun _ w' => Works c w w' ∧ ∃ e, w'.store.settlements.get? c.settlementEventId = some e ∧
        e.status = .completed ∧ e.attemptCount = c.attemptCount) fun _ w' => Works c w w' := by
  have hverify : (verifyIntegrity c false).Uses (Inner c) := by
    have hreads : (verifyIntegrity c false).Uses (Op.WritesIn []) := uses_verifyIntegrity c false
    exact hreads.mono fun _ => inner_of_writesIn (by simp)
  refine Prog.Ends.bind (fun _ u hu => ?_) (ends_inner hverify)
  refine Prog.Ends.bind (fun final v hv => ?_)
    ((ends_runSettlementStages hc (hu.kept hrow)).mono (fun _ _ h => h) fun _ _ h => hu.trans h)
  obtain ⟨hv, hunder⟩ := hv
  have hworks := hu.trans hv
  refine Prog.Ends.bind (Q := fun d v' => v' = v ∧ doneEvent final = .ok d) (fun d v' hd => ?_)
    (Prog.Ends.ofExcept (fun d hd => ⟨rfl, hd⟩) fun _ _ => hworks)
  obtain ⟨rfl, hd⟩ := hd
  have hfields := SettlementEvent.make_eq_ok_iff.1 hd
  have hstatus : d.status = .completed := congrArg (·.status) hfields
  have hfacts : d.toSettlementFacts = c.toSettlementFacts :=
    (congrArg (·.toSettlementFacts) hfields).trans hunder.1
  have hattempts : d.attemptCount = c.attemptCount :=
    (congrArg (·.attemptCount) hfields).trans hunder.2.2
  have hdone : ¬ Failing d := by
    simp [Failing, hstatus]
  refine (ends_checkpoint hfacts hdone (hworks.kept hrow)).mono (fun _ _ h => ?_)
    fun _ _ h => hworks.trans h
  exact ⟨hworks.trans h.1, d, h.2, hstatus, hattempts⟩

/-! ### The record of a failure -/

/-- A check that passed for an event passes for it in any other state of progress. -/
theorem valid_of_facts {f : SettlementEventFields} (e : SettlementEvent)
    (hfacts : f.toSettlementFacts = e.toSettlementFacts) (hstatus : f.status ≠ .completed) :
    Valid f := by
  have hvalid := e.valid
  simp only [Valid, Checked.checks, List.mem_cons, List.not_mem_nil, or_false, forall_eq_or_imp,
    forall_eq] at hvalid ⊢
  rw [hfacts]
  obtain ⟨h₁, h₂, h₃, h₄, h₅, h₆, -⟩ := hvalid
  exact ⟨h₁, h₂, h₃, h₄, h₅, h₆, by simp [hstatus]⟩

theorem exists_make {f : SettlementEventFields} (e : SettlementEvent)
    (hfacts : f.toSettlementFacts = e.toSettlementFacts) (hstatus : f.status ≠ .completed) :
    ∃ d, SettlementEvent.make f = .ok d :=
  ⟨⟨f, valid_of_facts e hfacts hstatus⟩, SettlementEvent.make_eq_ok_iff.2 rfl⟩

@[simp] theorem attempting_concat (tried : List Tried) (t : Tried) :
    attempting (tried ++ [t]) = attemptingAfter (attempting tried) t.op := by
  simp [attempting, List.foldl_append]

theorem ends_quiet {o : Op} (hinner : Inner c o) (hwrites : o.writes ≠ some .settlements)
    (hgoing : attemptingAfter false o = false) (hok : ∀ i s, ∃ r s', exec o i s = .ok (r, s'))
    (hw : attempting w.tried = false) {E : Raised → Watched → Prop} :
    (perform o).Ends watch MayRaise w (fun _ w' => Works c w w' ∧
      w'.store.settlements = w.store.settlements ∧ attempting w'.tried = false) E := by
  refine Prog.Ends.perform (fun i r hx => ?_) (fun i e hx => ?_) fun hmay _ => ?_
  · refine ⟨works_inner hinner i, exec_frame (exec_of_watch hx) .settlements hwrites, ?_⟩
    rw [watch_tried, attempting_concat, hw]
    exact hgoing
  · obtain ⟨r, s', hr⟩ := hok i w.store
    rw [(store_of_watch_error hx).1] at hr
    cases hr
  · exact absurd (hw.symm.trans hmay.1) Bool.false_ne_true

/-- The checkpoint of a failure is refused by the evidence alone. -/
theorem accepts_of_checkpoint {s : Store} {d : SettlementEvent} (hfailing : Failing d) :
    (∃ r, checkpoint s d = .ok r) ↔ Accepts s d := by
  have hstatus : d.status ≠ .completed := by
    rintro h
    simp [Failing, h] at hfailing
  unfold checkpoint Accepts
  rw [raiseIf, if_neg fun h => hstatus h.1]
  cases project s d d.cashProjected d.tradeProjected false with
  | ok t => simp [bind, Except.bind, Except.toOption]
  | error e => simp [bind, Except.bind, Except.toOption]

/-- **The record of a failure** is written if the flags of the event are backed by its evidence;
otherwise it raises. -/
theorem ends_recordFailure {e : SettlementEvent} {exc : Raised} {now : Instant}
    (hrow : ∃ row ∈ w.store.settlements, SameKeys row c) :
    (recordFailure e c exc now).Ends watch MayRaise w
      (fun _ w' => Works c w w' ∧ ∃ d, w'.store.settlements.get? c.settlementEventId = some d ∧
        Failing d ∧ d.attemptCount = e.attemptCount + 1) fun _ w' => ¬ Supported w'.tried := by
  have hclass := classifySettlementFailure_status e.attemptCount exc now
  have hattempts : (classifySettlementFailure e.attemptCount exc now).attemptCount =
      e.attemptCount + 1 := rfl
  unfold recordFailure
  dsimp only
  generalize classifySettlementFailure e.attemptCount exc now = failure at hclass hattempts ⊢
  have hne : failure.status ≠ .completed := by
    rintro h
    simp [h] at hclass
  obtain ⟨d, hd⟩ := exists_make (f := { c.toSettlementEventFields with
    status := failure.status
    attemptCount := failure.attemptCount
    errorCode := some (String.ofList (failure.error.toList.take 200))
    nextRetryAt := failure.nextRetryAt
    processingOwner := none
    processingStartedAt := none }) c rfl hne
  have hfields := SettlementEvent.make_eq_ok_iff.1 hd
  have hfacts : d.toSettlementFacts = c.toSettlementFacts :=
    congrArg (·.toSettlementFacts) hfields
  have hstatus : d.status = failure.status := congrArg (·.status) hfields
  have hfailing : Failing d := by
    unfold Failing
    rw [hstatus]
    exact hclass
  have hcount : d.attemptCount = e.attemptCount + 1 :=
    (congrArg (·.attemptCount) hfields).trans hattempts
  have hmade : failedEvent c failure = .ok d := hd
  rw [hmade]
  refine Prog.Ends.bind (Q := fun d' u => d' = d ∧ u = w) (fun d' u h₀ => ?_)
    (Prog.Ends.ofExcept (fun d' hd' => ⟨Except.ok.inj hd'.symm, rfl⟩) fun _ hx => nomatch hx)
  rw [h₀.1, h₀.2]
  refine Prog.Ends.bind (Q := fun _ u => Works c w u ∧
    u.store.settlements.get? c.settlementEventId = some d ∧ attempting u.tried = false)
    (fun _ u hu => ?_) ?_
  · -- an alert and the latch may follow
    have hends : ∀ u', Works c u u' ∧ u'.store.settlements = u.store.settlements ∧
        attempting u'.tried = false →
          Works c w u' ∧ ∃ d, u'.store.settlements.get? c.settlementEventId = some d ∧
            Failing d ∧ d.attemptCount = e.attemptCount + 1 := by
      rintro u' ⟨hworks, hsame, -⟩
      exact ⟨hu.1.trans hworks, d, hsame.symm ▸ hu.2.1, hfailing, hcount⟩
    split
    · refine Prog.Ends.bind (fun _ u₁ h₁ => ?_)
        (ends_quiet (c := c) (o := .sendAlert) trivial (by simp [Op.writes]) rfl
          (fun i s => ⟨_, _, rfl⟩) hu.2.2)
      refine Prog.Ends.bind (fun clock u₂ h₂ => ?_)
        (ends_quiet (c := c) (o := .clock) trivial (by simp [Op.writes]) rfl (fun i s => ⟨_, _, rfl⟩) h₁.2.2)
      refine Prog.Ends.bind (fun _ u₃ h₃ => ?_)
        (ends_quiet (c := c) (o := .latchFinancialIntegrityBlock _ clock) trivial (by simp [Op.writes]) rfl
          (fun i s => ⟨_, _, rfl⟩) h₂.2.2)
      exact hends u₃ ⟨h₁.1.trans (h₂.1.trans h₃.1), h₃.2.1.trans (h₂.2.1.trans h₁.2.1), h₃.2.2⟩
    · exact hends u ⟨Works.refl c u, rfl, hu.2.2⟩
  · refine Prog.Ends.perform (fun i r hx => ?_) (fun i x hx => ?_) fun hmay _ => ?_
    · have hexec := exec_of_watch hx
      obtain ⟨-, -, hs⟩ := checkpoint_ok hexec
      have haccepts : Accepts w.store d := (accepts_of_checkpoint hfailing).1 ⟨_, hexec⟩
      obtain ⟨row, hmem, hkeys⟩ := hrow
      have hsame : SameKeys row d := ⟨hkeys.1.trans (congrArg (·.settlementEventId) hfacts).symm,
        hkeys.2.trans (congrArg (fun f => some f.fillId) hfacts).symm⟩
      have hid : c.settlementEventId = Record.recordId d :=
        (congrArg (·.settlementEventId) hfacts).symm
      refine ⟨works_watch trivial ?_ (.inr ⟨d, hfacts, by rw [hs]⟩), ?_, ?_⟩
      · intro t ht e' hop _
        rw [List.mem_singleton.1 ht] at hop ⊢
        cases hop
        exact haccepts
      · rw [hs, hid]
        exact Table.get?_put_self hmem hsame
      · have hprocessing : (d.status == .processing) = false := by
          rcases hfailing with h | h | h <;> rw [h] <;> rfl
        rw [watch_tried, attempting_concat]
        simp [attemptingAfter, hprocessing]
    · intro hsupported
      have htried := hsupported ⟨.checkpoint d, w.store, i⟩ (by simp) d rfl hfailing
      obtain ⟨r, hr⟩ := (accepts_of_checkpoint hfailing).2 htried
      have herror : checkpoint w.store d = .error x := (store_of_watch_error hx).1
      rw [hr] at herror
      cases herror
    · simp [MayRaise, Op.ofLoop, hfailing] at hmay

end Attempts

/-! ### The batch -/

section Batch

variable {args : PassArgs} {s : Store} {now : Instant} {e : SettlementEvent}
  {rest : List SettlementEvent} {w w' : Watched}

/-- The pass is about to work on the events in `rest`. -/
structure Going (args : PassArgs) (s : Store) (now : Instant) (rest : List SettlementEvent)
    (w : Watched) : Prop where
  supported : Supported w.tried
  start : ∃ t l, w.tried = t :: l ∧ t.outside.now = now
  left : ∀ t ∈ w.tried, Left w.store t
  waiting : ∀ e ∈ rest, w.store.settlements.get? e.settlementEventId = some e
  apart : ∀ t ∈ w.tried, ∀ id now stale force, t.op = .claimIfProcessable id now stale force →
    ∀ e ∈ rest, e.settlementEventId ≠ id
  distinct : rest.Pairwise fun a b => a.settlementEventId ≠ b.settlementEventId
  offered : ∀ e ∈ dueAt s args now, e ∈ rest ∨ Offered w.tried e.settlementEventId

theorem Offered.mono {tried tried' : List Tried} {id : String} (h : Offered tried id)
    (hsub : ∀ t ∈ tried, t ∈ tried') : Offered tried' id := by
  obtain ⟨t, ht, hoffered⟩ := h
  exact ⟨t, hsub t ht, hoffered⟩

/-- **The step lemma of the batch**: what was tried for one event leaves the others as they were. -/
theorem Going.next (h : Going args s now (e :: rest) w) {l : List Tried}
    (htried : w'.tried = w.tried ++ l) (hsupported : Supported l)
    (hothers : ∀ id, id ≠ e.settlementEventId →
      w'.store.settlements.get? id = w.store.settlements.get? id)
    (hclaims : ∀ t ∈ l, ∀ id now stale force, t.op = .claimIfProcessable id now stale force →
      id = e.settlementEventId)
    (hleft : ∀ t ∈ l, Left w'.store t) (hoffered : Offered w'.tried e.settlementEventId) :
    Going args s now rest w' := by
  obtain ⟨hapart, hdistinct⟩ := List.pairwise_cons.1 h.distinct
  have hsub : ∀ t ∈ w.tried, t ∈ w'.tried := fun t ht => htried ▸ List.mem_append_left l ht
  constructor
  · intro t ht
    rw [htried] at ht
    exact (List.mem_append.1 ht).elim (h.supported t) (hsupported t)
  · obtain ⟨t, l₀, hhead, hnow⟩ := h.start
    exact ⟨t, l₀ ++ l, by rw [htried, hhead, List.cons_append], hnow⟩
  · intro t ht
    rw [htried] at ht
    rcases List.mem_append.1 ht with ht | ht
    · intro id now' stale force current hop hrow hdue
      have hne : id ≠ e.settlementEventId :=
        (h.apart t ht id now' stale force hop e List.mem_cons_self).symm
      rw [hothers id hne]
      exact h.left t ht id now' stale force current hop hrow hdue
    · exact hleft t ht
  · intro x hx
    rw [hothers _ (hapart x hx).symm]
    exact h.waiting x (List.mem_cons_of_mem e hx)
  · intro t ht id now' stale force hop x hx
    rw [htried] at ht
    rcases List.mem_append.1 ht with ht | ht
    · exact h.apart t ht id now' stale force hop x (List.mem_cons_of_mem e hx)
    · rw [hclaims t ht id now' stale force hop]
      exact (hapart x hx).symm
  · exact hdistinct
  · intro x hx
    rcases h.offered x hx with hmem | hoff
    · rcases List.mem_cons.1 hmem with rfl | hmem
      · exact .inr hoffered
      · exact .inl hmem
    · exact .inr (hoff.mono hsub)

/-- A transaction of the loop that claims nothing and changes no event. -/
theorem Going.quiet (h : Going args s now rest w) {o : Op} {i : Outside} (ho : o.writes = none)
    (hstore : w'.store.settlements = w.store.settlements)
    (htried : w'.tried = w.tried ++ [⟨o, w.store, i⟩]) : Going args s now rest w' := by
  have hmem : ∀ t ∈ w'.tried, t ∈ w.tried ∨ t.op.writes = none := by
    intro t ht
    rw [htried] at ht
    exact (List.mem_append.1 ht).imp_right fun hlast => by rw [List.mem_singleton.1 hlast]; exact ho
  constructor
  · intro t ht x hop
    rcases hmem t ht with ht | hnone
    · exact h.supported t ht x hop
    · rw [hop] at hnone
      cases hnone
  · obtain ⟨t, l, hhead, hnow⟩ := h.start
    exact ⟨t, l ++ [⟨o, w.store, i⟩], by rw [htried, hhead, List.cons_append], hnow⟩
  · intro t ht id now' stale force current hop
    rcases hmem t ht with ht | hnone
    · rw [hstore]
      exact h.left t ht id now' stale force current hop
    · rw [hop] at hnone
      cases hnone
  · rw [hstore]
    exact h.waiting
  · intro t ht id now' stale force hop
    rcases hmem t ht with ht | hnone
    · exact h.apart t ht id now' stale force hop
    · rw [hop] at hnone
      cases hnone
  · exact h.distinct
  · exact fun x hx => (h.offered x hx).imp_right fun hoff => hoff.mono fun t ht =>
      htried ▸ List.mem_append_left _ ht

/-- A transaction of the loop is never refused from outside. -/
theorem not_mayRaise {o : Op} (ho : o.ofLoop = true) : ¬ MayRaise o w := by
  rintro ⟨-, hloop⟩
  exact absurd (ho.symm.trans hloop) (by simp)

theorem ends_read {o : Op} (hloop : o.ofLoop = true) (v : Outside → Store → o.Res)
    (hv : ∀ i s, exec o i s = .ok (v i s, s)) {E : Raised → Watched → Prop} :
    (perform o).Ends watch MayRaise w (fun r u => ∃ i, r = v i w.store ∧ u.store = w.store ∧
      u.tried = w.tried ++ [⟨o, w.store, i⟩]) E := by
  refine Prog.Ends.perform (fun i r hx => ?_) (fun i x hx => ?_)
    fun hmay => absurd hmay (not_mayRaise hloop)
  · have hexec := exec_of_watch hx
    rw [hv] at hexec
    obtain ⟨hr, hs⟩ := Prod.mk.inj (Except.ok.inj hexec)
    exact ⟨i, hr.symm, hs.symm, watch_tried o i w⟩
  · have herror := (store_of_watch_error hx).1
    rw [hv] at herror
    cases herror

theorem claimIfProcessable_of_get? (now : Instant) (stale : ℕ) (force : Bool)
    (hget : s.settlements.get? e.settlementEventId = some e) :
    (isSettlementProcessable e now stale force = true ∧ ∃ c,
        claimIfProcessable s e.settlementEventId now stale force
          = .ok (some c, { s with settlements := s.settlements.put c }) ∧
        c.toSettlementFacts = e.toSettlementFacts ∧ c.status = .processing ∧
          c.attemptCount = e.attemptCount) ∨
      isSettlementProcessable e now stale force = false ∧
        claimIfProcessable s e.settlementEventId now stale force = .ok (none, s) := by
  unfold claimIfProcessable
  rw [hget]
  dsimp only
  split
  · rename_i hdue
    obtain ⟨c, hc⟩ := exists_make (f := { e.toSettlementEventFields with
      status := .processing
      processingOwner := some "settle"
      processingStartedAt := some now }) e rfl (by simp)
    have hfields := SettlementEvent.make_eq_ok_iff.1 hc
    refine .inl ⟨hdue, c, ?_, congrArg (·.toSettlementFacts) hfields,
      congrArg (·.status) hfields, congrArg (·.attemptCount) hfields⟩
    rw [hc]
    rfl
  · rename_i hdue
    exact .inr ⟨by simpa using hdue, rfl⟩

theorem ends_attemptOrRecord {c : SettlementEvent} {counts : BatchCounts}
    (hc : c.status = .processing) (hattempts : c.attemptCount = e.attemptCount)
    (hrow : ∃ row ∈ w.store.settlements, SameKeys row c) :
    (Prog.tryCatch
      (do
        attempt c
        return { counts with completed := counts.completed + 1 })
      fun exc => do
        let status ← recordFailure e c exc now
        return counts.fail status).Ends watch MayRaise w
      (fun _ w' => Works c w w' ∧ ∃ d, w'.store.settlements.get? c.settlementEventId = some d ∧
        OutcomeKept e d) fun _ w' => ¬ Supported w'.tried := by
  refine Prog.Ends.tryCatch (F := fun _ w' => Works c w w') (fun exc v hworks => ?_) ?_
  · refine Prog.Ends.bind (fun status v' hv' => ?_) (ends_recordFailure (hworks.kept hrow))
    obtain ⟨hworks', d, hd, hfailing, hcount⟩ := hv'
    exact ⟨hworks.trans hworks', d, hd, .inr ⟨hfailing, hcount⟩⟩
  · refine Prog.Ends.bind (fun _ v hv => ?_) (ends_attempt hc hrow)
    obtain ⟨hworks, d, hd, hdone, hcount⟩ := hv
    exact ⟨hworks, d, hd, .inl ⟨hdone, hcount.trans hattempts⟩⟩

/-- The event was claimed, and then worked on. -/
theorem Going.worked {stale : ℕ} {force : Bool} {i : Outside} {u : Watched} {l : List Tried}
    (h : Going args s now (e :: rest) w)
    (hclaim : u.tried = w.tried ++
      [⟨.claimIfProcessable e.settlementEventId now stale force, w.store, i⟩])
    (htried : w'.tried = u.tried ++ l) (hsupported : Supported l) (hclaims : ∀ t ∈ l, t.op.NoClaim)
    (hothers : ∀ id, id ≠ e.settlementEventId →
      w'.store.settlements.get? id = w.store.settlements.get? id)
    (hrecorded : isSettlementProcessable e now stale force = true →
      ∃ d, w'.store.settlements.get? e.settlementEventId = some d ∧ OutcomeKept e d) :
    Going args s now rest w' := by
  have hget := h.waiting e List.mem_cons_self
  have hall : w'.tried = w.tried ++
      (⟨.claimIfProcessable e.settlementEventId now stale force, w.store, i⟩ :: l) := by
    rw [htried, hclaim, List.append_assoc]
    rfl
  have hnoclaim : ∀ t ∈ l, ∀ id now' stale' force',
      t.op ≠ .claimIfProcessable id now' stale' force' := by
    intro t ht id now' stale' force' hop
    have hno := hclaims t ht
    rw [hop] at hno
    exact hno
  refine h.next hall ?_ hothers ?_ ?_
    ⟨⟨.claimIfProcessable e.settlementEventId now stale force, w.store, i⟩, ?_,
      .inr (beq_self_eq_true _)⟩
  · intro t ht x hop
    rcases List.mem_cons.1 ht with rfl | ht
    · cases hop
    · exact hsupported t ht x hop
  · intro t ht id now' stale' force' hop
    rcases List.mem_cons.1 ht with rfl | ht
    · cases hop
      rfl
    · exact absurd hop (hnoclaim t ht id now' stale' force')
  · intro t ht id now' stale' force' current hop hrow hdue
    rcases List.mem_cons.1 ht with rfl | ht
    · cases hop
      rw [hget] at hrow
      cases hrow
      exact hrecorded hdue
    · exact absurd hop (hnoclaim t ht id now' stale' force')
  · rw [hall]
    exact List.mem_append_right _ List.mem_cons_self

/-- **One due event**: the pass goes on with the others, or its failure was not supported. -/
theorem ends_processEvent {stale : ℕ} {force : Bool} {counts : BatchCounts}
    (h : Going args s now (e :: rest) w) :
    (processEvent now stale force counts e).Ends watch MayRaise w
      (fun _ w' => Going args s now rest w') fun _ w' => ¬ Supported w'.tried := by
  refine Prog.Ends.bind (fun lost u hu => ?_)
    (ends_read (o := .leaseLost) rfl (fun i _ => i.leaseLost) fun _ _ => rfl)
  obtain ⟨i, rfl, hstore, htried⟩ := hu
  have hu : Going args s now (e :: rest) u := h.quiet rfl (by rw [hstore]) htried
  cases hlost : i.leaseLost with
  | true =>
      -- the lease of the command is lost, so nothing more is started
      refine hu.next (l := []) (by simp) (by simp [Supported]) (fun _ _ => rfl) (by simp) (by simp)
        ⟨⟨.leaseLost, w.store, i⟩, ?_, .inl hlost⟩
      rw [htried]
      exact List.mem_append_right _ List.mem_cons_self
  | false =>
      have hget := hu.waiting e List.mem_cons_self
      have hclaim := claimIfProcessable_of_get? now stale force hget
      refine Prog.Ends.bind (Q := fun r (v : Watched) =>
        claimIfProcessable u.store e.settlementEventId now stale force = .ok (r, v.store) ∧
          ∃ j, v.tried = u.tried ++
            [⟨.claimIfProcessable e.settlementEventId now stale force, u.store, j⟩])
        (fun r v hv => ?_)
        (Prog.Ends.perform (fun j r hx => ⟨exec_of_watch hx, j, watch_tried _ j u⟩)
          (fun j x hx => ?_) fun hmay => absurd hmay (not_mayRaise rfl))
      · obtain ⟨hexec, j, hvtried⟩ := hv
        rcases hclaim with ⟨-, c, hok, hfacts, hstatus, hattempts⟩ | ⟨hdue, hok⟩
        · rw [hok] at hexec
          obtain ⟨rfl, hv⟩ := Prod.mk.inj (Except.ok.inj hexec)
          have hcid : c.settlementEventId = e.settlementEventId :=
            congrArg (·.settlementEventId) hfacts
          have hkeys : SameKeys e c := ⟨hcid.symm, (congrArg (fun f => some f.fillId) hfacts).symm⟩
          have hrow : ∃ row ∈ v.store.settlements, SameKeys row c := by
            rw [← hv]
            exact ⟨c, Table.mem_put_self (Table.get?_eq_some_iff.1 hget).1 hkeys, rfl, rfl⟩
          refine (ends_attemptOrRecord hstatus hattempts hrow).mono (fun _ w' hw' => ?_)
            fun _ _ hx => hx
          obtain ⟨hworks, hrecorded⟩ := hw'
          obtain ⟨l, hl, hsupported, hclaims⟩ := hworks.tried
          refine hu.worked hvtried hl hsupported hclaims (fun id hid => ?_)
            fun _ => hcid ▸ hrecorded
          have hid' : id ≠ c.settlementEventId := fun heq => hid (heq.trans hcid)
          rw [hworks.others id hid', ← hv]
          exact Table.get?_put_of_ne hid'
        · rw [hok] at hexec
          obtain ⟨rfl, hv⟩ := Prod.mk.inj (Except.ok.inj hexec)
          refine hu.worked (l := []) hvtried (by simp) (by simp [Supported]) (by simp)
            (fun id _ => by rw [← hv]) fun hdue' => ?_
          rw [hdue] at hdue'
          cases hdue'
      · -- the claim is not refused
        have herror := (store_of_watch_error hx).1
        change claimIfProcessable u.store e.settlementEventId now stale force = .error x at herror
        rcases hclaim with ⟨-, c, hok, -⟩ | ⟨-, hok⟩
        · rw [hok] at herror
          cases herror
        · rw [hok] at herror
          cases herror

theorem going_dueAt (args : PassArgs) (s : Store) (now : Instant) (hw : w.store = s)
    (hstart : ∃ t l, w.tried = t :: l ∧ t.outside.now = now)
    (hreads : ∀ t ∈ w.tried, t.op.writes = none) : Going args s now (dueAt s args now) w := by
  have hmem : ∀ e ∈ dueAt s args now, e ∈ s.settlements := by
    intro e he
    have hsorted := List.mem_of_mem_take he
    rw [List.mem_insertionSort] at hsorted
    exact List.mem_of_mem_filter (List.mem_of_mem_filter hsorted)
  have hnowrite : ∀ t ∈ w.tried, ∀ o : Op, t.op = o → o.writes = none := by
    intro t ht o hop
    exact hop ▸ hreads t ht
  constructor
  · intro t ht x hop
    cases hnowrite t ht _ hop
  · exact hstart
  · intro t ht id now' stale force current hop
    cases hnowrite t ht _ hop
  · intro e he
    rw [hw]
    exact Table.get?_eq_some_iff.2 ⟨hmem e he, rfl⟩
  · intro t ht id now' stale force hop
    cases hnowrite t ht _ hop
  · have hrows : s.settlements.rows.Pairwise fun a b => a.settlementEventId ≠ b.settlementEventId :=
      s.settlements.keyed.imp fun h => h.1
    have hfiltered := (hrows.filter fun e =>
      [SettlementStatus.pending, .retryableFailed, .processing].contains e.status).filter fun e =>
        isSettlementProcessable e now args.staleLeaseSeconds args.forceRetry
    have hsorted := List.perm_insertionSort
      (fun a b : SettlementEvent => a.occurredAt ≤ b.occurredAt)
      ((s.settlements.rows.filter fun e =>
        [SettlementStatus.pending, .retryableFailed, .processing].contains e.status).filter fun e =>
          isSettlementProcessable e now args.staleLeaseSeconds args.forceRetry)
    exact (hfiltered.perm hsorted.symm fun h => h.symm).sublist (List.take_sublist _ _)
  · exact fun e he => .inl he

/-- **One bad event and the batch.**  However a pass ends, whatever any handler, guard or check of
an event raised in it: it returned, offered an attempt to every due event, and left every event it
claimed with a status and a number of attempts, if and only if each failure was recorded on an
event whose accounting flags were backed by its evidence. -/
theorem batch_survives_iff (args : PassArgs) (s : Store) :
    (processPending args).Ends watch MayRaise { store := s }
      (fun summary w => Orderly args s (.ok summary) w ↔ Supported w.tried)
      (fun exc w => Orderly args s (.error exc) w ↔ Supported w.tried) := by
  have hraised : ∀ (exc : Raised) (w : Watched), ¬ Supported w.tried →
      (Orderly args s (.error exc) w ↔ Supported w.tried) := by
    intro exc w hunsupported
    refine iff_of_false (fun horderly => ?_) hunsupported
    obtain ⟨summary, hsummary⟩ := horderly.returned
    cases hsummary
  refine Prog.Ends.bind (fun now u hu => ?_)
    (ends_read (o := .clock) rfl (fun i _ => i.now) fun _ _ => rfl)
  obtain ⟨i, rfl, hstore, htried⟩ := hu
  refine Prog.Ends.bind (fun events v hv => ?_)
    (ends_read (o := .listByStatuses [.pending, .retryableFailed, .processing]) rfl
      (fun _ s => s.settlements.rows.filter fun e =>
        [SettlementStatus.pending, .retryableFailed, .processing].contains e.status)
      fun _ _ => rfl)
  obtain ⟨j, rfl, hvstore, hvtried⟩ := hv
  rw [htried] at hvtried
  have hgoing : Going args s i.now (dueAt s args i.now) v := by
    refine going_dueAt args s i.now (hvstore.trans hstore) ⟨_, _, hvtried, rfl⟩ ?_
    intro t ht
    rw [hvtried] at ht
    simp only [List.nil_append, List.cons_append, List.mem_cons, List.not_mem_nil, or_false] at ht
    rcases ht with rfl | rfl <;> rfl
  rw [hstore]
  refine Prog.Ends.bind (Q := fun _ w' => Going args s i.now [] w') (fun counts w' hw' => ?_) ?_
  · refine Prog.Ends.bind (fun unresolved w'' hw'' => ?_)
      (ends_read (o := .listByStatuses [.pending, .processing, .retryableFailed, .integrityBlocked,
        .terminalFailed]) rfl (fun _ s => s.settlements.rows.filter fun e =>
          [SettlementStatus.pending, .processing, .retryableFailed, .integrityBlocked,
            .terminalFailed].contains e.status) fun _ _ => rfl)
    obtain ⟨k, -, hlast, hlastTried⟩ := hw''
    have hend := hw'.quiet rfl (by rw [hlast]) hlastTried
    refine iff_of_true ⟨⟨_, rfl⟩, fun e he => ?_, hend.left⟩ hend.supported
    obtain ⟨t, l, hhead, hnow⟩ := hend.start
    have hstartOf : startOf w''.tried = i.now := by
      simp [startOf, hhead, hnow]
    rw [hstartOf] at he
    exact (hend.offered e he).resolve_left (List.not_mem_nil)
  · refine (Prog.Ends.foldEach (L := fun rest _ w => Going args s i.now rest w)
      (fun e rest counts w hw => ends_processEvent hw) hgoing).mono (fun _ _ h => h) ?_
    exact fun exc w h => hraised exc w h

/-- Two purchases are due, and a pass crashes once it has flagged the cash of the first. -/
def crashedAfterCash : List Action :=
  List.flatten
    [ [ordered [execution "b1" .buy 4 10 0, execution "b2" .buy 1 20 5]],
      arrival (execution "b1" .buy 4 10 0), arrival (execution "b2" .buy 1 20 5), [.start {}],
      goOn 0 18 { now := 1, uuid := "lot-1" }, [.crash 0] ]

/-- The cash rows of a store are changed. -/
def changeCash (s : Store) : Store :=
  { s with cashLedger :=
    s.cashLedger.rows.foldl (fun table row => table.put { row with amount := 0 }) s.cashLedger }

/-- **A cash row that no longer matches stops the batch**: the next pass raises, the event of the
row stays claimed, and the other event that is due is not attempted. -/
theorem batch_stopped : ∃ s : Store,
    (∃ exc w, (processPending {}).follow watch MayRaise { store := s }
        (List.replicate 17 (.ok { now := seconds 200, uuid := "lot-2" })) = some (.error exc, w) ∧
      (∃ e ∈ w.store.settlements.rows, e.fillId = "b1" ∧ e.status = .processing) ∧
        ∃ e ∈ dueAt s {} (startOf w.tried),
          e.fillId = "b2" ∧ ¬ Offered w.tried e.settlementEventId) ∧
      ¬ (processPending {}).Ends watch MayRaise { store := s }
        (fun summary w => Orderly {} s (.ok summary) w)
        (fun exc w => Orderly {} s (.error exc) w) := by
  have hrun : (sequential.run ⟨{}, .done ()⟩ crashedAfterCash).any (fun w =>
      ((processPending {}).follow watch MayRaise { store := changeCash w.store }
        (List.replicate 17 (.ok { now := seconds 200, uuid := "lot-2" }))).any fun end_ =>
          end_.1.toOption.isNone &&
          decide ((∃ e ∈ end_.2.store.settlements.rows, e.fillId = "b1" ∧ e.status = .processing) ∧
            ∃ e ∈ dueAt (changeCash w.store) {} (startOf end_.2.tried),
              e.fillId = "b2" ∧ ¬ Offered end_.2.tried e.settlementEventId)) = true := by
    decide +kernel
  obtain ⟨w, -, hends⟩ := (Option.any_eq_true _ _).1 hrun
  obtain ⟨⟨x, w'⟩, hfollow, hend⟩ := (Option.any_eq_true _ _).1 hends
  obtain ⟨hnone, hleft⟩ := Bool.and_eq_true_iff.1 hend
  cases x with
  | ok summary => cases hnone
  | error exc =>
      refine ⟨changeCash w.store, ⟨exc, w', hfollow, of_decide_eq_true hleft⟩, fun horderly => ?_⟩
      rcases Prog.Ends.of_follow horderly hfollow with ⟨_, hx, -⟩ | ⟨_, -, hraised⟩
      · cases hx
      · obtain ⟨summary, hsummary⟩ := hraised.returned
        cases hsummary

end Batch

end Settlement

end TradePulse
