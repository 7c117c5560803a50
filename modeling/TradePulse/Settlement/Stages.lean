/-
**Settlement lifecycle and the staged runner** (`settlement/stages.py`).

Main definitions:

* `retryDelaySeconds`, `classifySettlementFailure`, `isSettlementProcessable`;
* `runStage`, `runSettlementStages` — every stage in order, each followed by its checkpoint;
* `SettlementProgress.remaining` — the stages from the first incomplete one on.

Main results:

* `classifySettlementFailure_status` — a failure never completes an event;
* `isSettlementProcessable_status` — completed, blocked and terminally failed events are over;
* `runSettlementStages_resumes` — the stages that come first and are done are skipped;
* `le_afterStage` — a stage undoes no progress.
-/

import TradePulse.Models.Settlement
import TradePulse.Process.Program

set_option autoImplicit false

namespace TradePulse

open Process

def maxSettlementAttempts : ℕ := 8
def retryBaseSeconds : ℕ := 15
def retryMaxSeconds : ℕ := 300

def retryDelaySeconds (attempt : ℕ) : ℕ :=
  min retryMaxSeconds (retryBaseSeconds * 2 ^ (attempt - 1))

structure ClassifiedFailure where
  status : SettlementStatus
  attemptCount : ℕ
  error : String
  nextRetryAt : Option Instant

def classifySettlementFailure (attemptCount : ℕ) (error : Raised) (now : Instant) :
    ClassifiedFailure :=
  let attempts := attemptCount + 1
  let status : SettlementStatus :=
    if error.text.startsWith "INTEGRITY_VIOLATION" then .integrityBlocked
    else if maxSettlementAttempts ≤ attempts then .terminalFailed
    else .retryableFailed
  { status := status
    attemptCount := attempts
    error := error.text
    nextRetryAt := if status = .retryableFailed
      then some (now + seconds (retryDelaySeconds attempts)) else none }

/-- The event may be claimed now.  A claim whose lease is stale may be taken over. -/
def isSettlementProcessable (event : SettlementEvent) (now : Instant) (staleLeaseSeconds : ℕ)
    (forceRetry : Bool) : Bool :=
  match event.status with
  | .pending => true
  | .retryableFailed => forceRetry || event.nextRetryAt.all fun t => decide (t ≤ now)
  | .processing => event.processingStartedAt.any fun t => decide (seconds staleLeaseSeconds < now - t)
  | _ => false

theorem classifySettlementFailure_status (attemptCount : ℕ) (error : Raised) (now : Instant) :
    (classifySettlementFailure attemptCount error now).status = .integrityBlocked ∨
      (classifySettlementFailure attemptCount error now).status = .terminalFailed ∨
      (classifySettlementFailure attemptCount error now).status = .retryableFailed := by
  simp only [classifySettlementFailure]
  split
  · exact .inl rfl
  · split
    · exact .inr (.inl rfl)
    · exact .inr (.inr rfl)

theorem isSettlementProcessable_status {event : SettlementEvent} {now : Instant} {stale : ℕ}
    {force : Bool} (h : isSettlementProcessable event now stale force = true) :
    event.status = .pending ∨ event.status = .retryableFailed ∨ event.status = .processing := by
  unfold isSettlementProcessable at h
  split at h <;> simp_all

variable {Op : Type} {Res : Op → Type}

/-- The event after a stage: its flag is set, and a profit that the handler returned is kept. -/
def afterStage (state : SettlementEvent) (stage : Stage) (result : Option ℚ) :
    SettlementEventFields :=
  let progress := state.toSettlementProgress.mark stage
  { state.toSettlementEventFields with
    toSettlementProgress := match result with
      | some pnl => { progress with realizedPnl := some pnl }
      | none => progress }

/-- One stage: skipped if it is flagged done, and otherwise run and checkpointed. -/
def runStage (handlers : Stage → SettlementEvent → Prog Raised Res (Option ℚ))
    (checkpoint : SettlementEvent → Prog Raised Res Unit) (state : SettlementEvent)
    (stage : Stage) : Prog Raised Res SettlementEvent :=
  if state.flag stage then pure state
  else do
    let result ← handlers stage state
    let state ← Prog.ofExcept (SettlementEvent.make (afterStage state stage result))
    checkpoint state
    pure state

/-- Run the stages that are not flagged done, in order, and checkpoint the event after each. -/
def runSettlementStages (event : SettlementEvent)
    (handlers : Stage → SettlementEvent → Prog Raised Res (Option ℚ))
    (checkpoint : SettlementEvent → Prog Raised Res Unit) : Prog Raised Res SettlementEvent :=
  Prog.foldEach settlementStages event (runStage handlers checkpoint)

/-- The stages from the first incomplete one on. -/
def SettlementProgress.remaining (p : SettlementProgress) : List Stage :=
  settlementStages.dropWhile p.flag

theorem foldEach_runStage_dropWhile
    (handlers : Stage → SettlementEvent → Prog Raised Res (Option ℚ))
    (checkpoint : SettlementEvent → Prog Raised Res Unit) (event : SettlementEvent)
    (stages : List Stage) :
    Prog.foldEach stages event (runStage handlers checkpoint)
      = Prog.foldEach (stages.dropWhile event.flag) event (runStage handlers checkpoint) := by
  induction stages with
  | nil => rfl
  | cons st stages ih =>
      by_cases hflag : event.flag st = true
      · rw [List.dropWhile_cons_of_pos hflag, ← ih, Prog.foldEach_cons, runStage, if_pos hflag]
        rfl
      · rw [List.dropWhile_cons_of_neg hflag]

/-- **A retry resumes at the first incomplete stage.** -/
theorem runSettlementStages_resumes
    (handlers : Stage → SettlementEvent → Prog Raised Res (Option ℚ))
    (checkpoint : SettlementEvent → Prog Raised Res Unit) (event : SettlementEvent) :
    runSettlementStages event handlers checkpoint
      = Prog.foldEach event.remaining event (runStage handlers checkpoint) :=
  foldEach_runStage_dropWhile handlers checkpoint event settlementStages

/-- What more progress leaves to do is the end of what less progress leaves to do. -/
theorem SettlementProgress.Le.remaining_suffix {p q : SettlementProgress} (h : p.Le q) :
    q.remaining <:+ p.remaining := by
  unfold SettlementProgress.remaining
  induction settlementStages with
  | nil => exact List.suffix_refl _
  | cons st stages ih =>
      by_cases hp : p.flag st = true
      · rw [List.dropWhile_cons_of_pos hp, List.dropWhile_cons_of_pos (h.1 st hp)]
        exact ih
      · rw [List.dropWhile_cons_of_neg hp]
        exact List.dropWhile_suffix _

theorem le_afterStage {state : SettlementEvent} {stage : Stage} {result : Option ℚ}
    (hflag : state.flag stage = false) (hresult : stage ≠ .projectLot → result = none) :
    state.toSettlementProgress.Le (afterStage state stage result).toSettlementProgress := by
  have hmark : ∀ st, state.flag st = true → (state.toSettlementProgress.mark stage).flag st = true :=
    fun st hst => by
      rw [SettlementProgress.flag_mark, hst, Bool.or_true]
  by_cases hst : stage = .projectLot
  · -- the profit may change, as the first stage was not done
    subst hst
    refine ⟨fun st h => ?_, fun hlot => ?_⟩
    · cases result with
      | none => exact hmark st h
      | some pnl =>
          rw [← hmark st h]
          cases st <;> rfl
    · rw [SettlementProgress.flag, hlot] at hflag
      cases hflag
  · obtain rfl := hresult hst
    exact ⟨hmark, fun _ => SettlementProgress.realizedPnl_mark _ _⟩

end TradePulse
