/-
**A rule for passes of the processor.**

What a property of the processor needs is knowledge at a few points of a pass: while the stages of
a claimed event run, between a stage and its checkpoint, and when an attempt has failed.  Given
that knowledge, a pass is judged from its stages and its checkpoints; how it loops over the due
events and handles exceptions is dealt with here once.

Main definitions:

* `PassKnowledge` — the knowledge at the points of a pass;
* `PassKnowledge.Holds` — what has to be shown of the stages and the checkpoints.

Main results:

* `PassKnowledge.Holds.processPending` — then every pass keeps the invariant and the guarantee.
-/

import TradePulse.Settlement.Footprint

set_option autoImplicit false

namespace TradePulse

namespace Settlement

open Process

/-- What is known at the points of an attempt at an event, as it was `claimed` and as it is now
(`state`); `σ` is the store, possibly with more that a proof keeps beside it. -/
structure PassKnowledge (σ : Type) where
  /-- While the stages run. -/
  running : (claimed state : SettlementEvent) → σ → Prop
  /-- Between a stage and its checkpoint. -/
  staged : (claimed state : SettlementEvent) → Stage → Option ℚ → σ → Prop
  /-- When the attempt has failed. -/
  failed : (claimed : SettlementEvent) → σ → Prop

/-- The stages before a stage are flagged done. -/
def DoneBefore (state : SettlementEvent) (st : Stage) : Prop :=
  ∀ st' ∈ settlementStages.takeWhile (· ≠ st), state.flag st' = true

/-- A program judged without knowledge before or after. -/
def Safe {α σ : Type} (Γ : Setting σ Outside Raised Op.Res) (p : Settle α) : Prop :=
  Sat Γ p (fun _ => True) (fun _ _ => True) (fun _ _ => True)

theorem sat_read {Γ : Setting Store Outside Raised Op.Res} (hexec : Γ.exec = exec)
    (hguar : ∀ o s, Γ.guar o s s) {o : Op} (v : Store → o.Res)
    (hv : ∀ i s, exec o i s = .ok (v s, s)) {K : Store → Prop} (hK : Γ.Stable K)
    (hst : ∀ r, Γ.Stable fun s => K s ∧ r = v s) :
    Sat Γ (perform o) K (fun r s => K s ∧ r = v s) (fun _ => K) := by
  refine Sat.perform hst hK (fun _ _ _ hk => hk) fun i s r s' hs hk _ hx => ?_
  rw [hexec, hv] at hx
  cases hx
  exact ⟨hs, hguar o s, hk, rfl⟩

namespace PassKnowledge

/-- What has to be shown of the transactions of a pass. -/
structure Holds {σ : Type} (Γ : Setting σ Outside Raised Op.Res) (N : PassKnowledge σ) :
    Prop where
  quiet : ∀ o : Op, o.WritesIn [.session] → Safe Γ (perform o)
  claim : ∀ id now stale force,
    Sat Γ (perform (.claimIfProcessable id now stale force)) (fun _ => True)
      (fun r s => ∀ c ∈ r, N.running c c s) (fun _ _ => True)
  verify : ∀ c, Sat Γ (verifyIntegrity c false) (N.running c c) (fun _ => N.running c c)
    (fun _ => N.failed c)
  stage : ∀ c state st, state.flag st = false → DoneBefore state st →
    Sat Γ (handlers st state) (N.running c state) (N.staged c state st) (fun _ => N.failed c)
  mark : ∀ c state st r state', state.flag st = false → DoneBefore state st →
    state'.toSettlementEventFields = afterStage state st r →
    Sat Γ (perform (.checkpoint state')) (N.staged c state st r) (fun _ => N.running c state')
      (fun _ => N.failed c)
  done : ∀ c state d, doneEvent state = .ok d →
    Sat Γ (perform (.checkpoint d)) (N.running c state) (fun _ _ => True) (fun _ => N.failed c)
  fail : ∀ c failure d, failure.status = .integrityBlocked ∨ failure.status = .terminalFailed ∨
    failure.status = .retryableFailed → failedEvent c failure = .ok d →
    Sat Γ (perform (.checkpoint d)) (N.failed c) (fun _ _ => True) (fun _ _ => True)
  running_failed : ∀ c state s, N.running c state s → N.failed c s
  staged_failed : ∀ c state st r s, N.staged c state st r s → N.failed c s

variable {σ : Type} {Γ : Setting σ Outside Raised Op.Res} {N : PassKnowledge σ}

/-- While the stages are run one after the other, those that are over are flagged done. -/
def DoneUpTo (state : SettlementEvent) (rest : List Stage) : Prop :=
  ∃ passed, settlementStages = passed ++ rest ∧ ∀ st ∈ passed, state.flag st = true

theorem DoneUpTo.doneBefore {state : SettlementEvent} {st : Stage} {rest : List Stage}
    (h : DoneUpTo state (st :: rest)) : DoneBefore state st := by
  obtain ⟨passed, hstages, hdone⟩ := h
  have hnodup : settlementStages.Nodup := by decide
  rw [hstages, List.nodup_append] at hnodup
  have hne : ∀ st' ∈ passed, decide (st' ≠ st) = true := fun st' hst' =>
    decide_eq_true (hnodup.2.2 st' hst' st List.mem_cons_self)
  intro st' hst'
  rw [hstages, List.takeWhile_append_of_pos hne, List.takeWhile_cons_of_neg (by simp),
    List.append_nil] at hst'
  exact hdone st' hst'

theorem DoneUpTo.next {state state' : SettlementEvent} {st : Stage} {rest : List Stage}
    (h : DoneUpTo state (st :: rest)) (hst : state'.flag st = true)
    (hkeep : ∀ st', state.flag st' = true → state'.flag st' = true) : DoneUpTo state' rest := by
  obtain ⟨passed, hstages, hdone⟩ := h
  refine ⟨passed ++ [st], by simpa using hstages, fun st' hst' => ?_⟩
  rcases List.mem_append.1 hst' with hst' | hst'
  · exact hkeep st' (hdone st' hst')
  · rw [List.mem_singleton.1 hst']
    exact hst

theorem flag_afterStage {state state' : SettlementEvent} {st : Stage} {r : Option ℚ}
    (h : state'.toSettlementEventFields = afterStage state st r) (st' : Stage) :
    state'.flag st' = (decide (st' = st) || state.flag st') := by
  have hprogress : state'.toSettlementProgress = (afterStage state st r).toSettlementProgress :=
    congrArg (·.toSettlementProgress) h
  have hflag : (afterStage state st r).flag st' = (state.toSettlementProgress.mark st).flag st' := by
    cases r with
    | none => rfl
    | some pnl => cases st' <;> rfl
  rw [hprogress, hflag, SettlementProgress.flag_mark]

namespace Holds

theorem runSettlementStages (h : N.Holds Γ) (c : SettlementEvent) :
    Sat Γ (TradePulse.runSettlementStages c handlers fun e => perform (.checkpoint e))
      (N.running c c) (fun state => N.running c state) (fun _ => N.failed c) := by
  refine (Sat.foldEach (L := fun rest state s => DoneUpTo state rest ∧ N.running c state s)
    (fun state st rest => ?_) _ c).mono (fun s _ hk => ⟨⟨[], rfl, by simp⟩, hk⟩)
    (fun _ _ _ hk => hk.2) fun _ _ _ hk => hk
  refine Sat.of_pointwise fun s _ hk => ⟨N.running c state, hk.2, ?_⟩
  obtain ⟨hdone, -⟩ := hk
  unfold runStage
  split
  · rename_i hflag
    exact fun _ _ hk => ⟨hdone.next hflag fun _ hst => hst, hk⟩
  · rename_i hflag
    rw [Bool.not_eq_true] at hflag
    refine Sat.bind_of (h.stage c state st hflag hdone.doneBefore) fun r => ?_
    refine Sat.bind_of (Q := fun state' s => state'.toSettlementEventFields = afterStage state st r ∧
      N.staged c state st r s) ?_ fun state' => ?_
    · refine Sat.ofExcept (fun state' hmake s _ hk => ⟨SettlementEvent.make_eq_ok_iff.1 hmake, hk⟩) ?_
      exact fun _ _ s _ hk => h.staged_failed c state st r s hk
    · refine Sat.of_pointwise fun s _ hk => ⟨N.staged c state st r, hk.2, ?_⟩
      have hnext : DoneUpTo state' rest := by
        refine hdone.next ?_ fun st' hst' => ?_
        · rw [flag_afterStage hk.1, decide_eq_true rfl, Bool.true_or]
        · rw [flag_afterStage hk.1, hst', Bool.or_true]
      exact Sat.bind_of (h.mark c state st r state' hflag hdone.doneBefore hk.1)
        fun _ _ _ hq => ⟨hnext, hq⟩

theorem attempt (h : N.Holds Γ) (c : SettlementEvent) :
    Sat Γ (attempt c) (N.running c c) (fun _ _ => True) (fun _ => N.failed c) := by
  refine Sat.bind_of (h.verify c) fun _ => ?_
  refine Sat.bind_of (h.runSettlementStages c) fun final => ?_
  refine Sat.bind_of (Q := fun d s => doneEvent final = .ok d ∧ N.running c final s) ?_ fun d => ?_
  · refine Sat.ofExcept (fun d hd s _ hk => ⟨hd, hk⟩) ?_
    exact fun _ _ s _ hk => h.running_failed c final s hk
  · exact Sat.of_pointwise fun s _ hk => ⟨N.running c final, hk.2, h.done c final d hk.1⟩

theorem recordFailure (h : N.Holds Γ) (event c : SettlementEvent) (exc : Raised) (now : Instant) :
    Sat Γ (recordFailure event c exc now) (N.failed c) (fun _ _ => True) (fun _ _ => True) := by
  have hstatus := classifySettlementFailure_status event.attemptCount exc now
  refine Sat.bind_of (Q := fun d s =>
    failedEvent c (classifySettlementFailure event.attemptCount exc now) = .ok d ∧
      N.failed c s) ?_ fun d => ?_
  · exact Sat.ofExcept (fun d hd s _ hk => ⟨hd, hk⟩) fun _ _ _ _ _ => trivial
  · refine Sat.of_pointwise fun s _ hk => ⟨N.failed c, hk.2, ?_⟩
    refine Sat.bind_of (h.fail c _ d hstatus hk.1) fun _ => ?_
    split
    · refine Sat.bind_of (h.quiet _ (.of_none rfl)) fun _ => ?_
      refine Sat.bind_of (h.quiet _ (.of_none rfl)) fun _ => ?_
      refine Sat.bind_of (h.quiet _ (.of_mem rfl (by simp))) fun _ => ?_
      exact fun _ _ _ => trivial
    · exact fun _ _ _ => trivial

theorem processEvent (h : N.Holds Γ) (now : Instant) (stale : ℕ) (force : Bool)
    (counts : BatchCounts) (event : SettlementEvent) :
    Safe Γ (processEvent now stale force counts event) := by
  refine Sat.bind_of (h.quiet .leaseLost (.of_none rfl)) fun lost => ?_
  cases lost with
  | true => exact fun _ _ _ => trivial
  | false =>
      refine Sat.bind_of (h.claim event.settlementEventId now stale force) fun r => ?_
      cases r with
      | none => exact fun _ _ _ => trivial
      | some c =>
          refine Sat.tryCatch (F := fun _ => N.failed c)
            (fun exc s _ hk => ⟨N.failed c, hk, ?_⟩) ?_
          · exact Sat.bind_of (h.recordFailure event c exc now) fun _ _ _ _ => trivial
          · refine Sat.of_pointwise fun s _ hk => ⟨N.running c c, hk c rfl, ?_⟩
            exact Sat.bind_of (h.attempt c) fun _ _ _ _ => trivial

/-- **A pass keeps the invariant and the guarantee of its setting.** -/
theorem processPending (h : N.Holds Γ) (args : PassArgs) : Safe Γ (processPending args) := by
  refine Sat.bind_of (h.quiet .clock (.of_none rfl)) fun now => ?_
  refine Sat.bind_of (h.quiet (.listByStatuses _) (.of_none rfl)) fun events => ?_
  refine Sat.bind_of (Sat.foldEach (L := fun _ _ _ => True)
    (fun counts event _ => h.processEvent now _ _ counts event) _ _) fun counts => ?_
  exact Sat.bind_of (h.quiet (.listByStatuses _) (.of_none rfl)) fun _ _ _ _ => trivial

end Holds

end PassKnowledge

end Settlement

end TradePulse
