/-
**The two latches of the session.**

A risk stop and an integrity block are latched: each is left only by its own reset.  The transaction
decides about the session it finds, so this holds whatever commands run side by side, and whatever
they have read before.  An integrity block recorded over a risk stop takes its place, though, and
with it the need to reset the risk stop.

Main definitions:

* `nextTransition?` — the transition that an action is about to commit;
* `SessionSound` — trading is active in an open session only;
* `Unescalated` — no integrity block is recorded over a risk stop.

Main results:

* `integrity_latch_safe` — the block is left only by a reset whose proof holds in its transaction;
* `kill_switch_stays` — without escalation, a risk stop is left only by `reset-risk`;
* `kill_switch_forgotten` — an escalated risk stop is never reset.
-/

import TradePulse.Control.Commands

set_option autoImplicit false

namespace TradePulse

open Storage Process

namespace Transition

def resetsRisk : Transition → Bool
  | resetRisk _ => true
  | _ => false

def blocksIntegrity : Transition → Bool
  | latchFinancialIntegrityBlock _ _ => true
  | _ => false

end Transition

namespace Control

variable {E : Type} {judge : Judge E}

abbrev State (E : Type) := Pool (Database E) Raised Op.Res

abbrev Action (E : Type) := Act Outside Raised Command (Database E)

/-- The transition that an action performs, if it performs one. -/
def nextTransition? (w : State E) : Action E → Option Transition
  | .run j _ =>
      match (w.procs.getD j (.done ())).next? with
      | some (.transition t) => some t
      | _ => none
  | _ => none

/-! ### What a transition can do -/

theorem transitionSession_ok {t : Transition} {id : String} {db db' : Database E}
    {r : Option TradingSession} (h : transitionSession judge t id db = .ok (r, db')) :
    (r = none ∧ db' = db) ∨ ∃ new entry, r = some new ∧
      t.decide id db.loadSession = some (new, entry) ∧ db'.session = some new ∧
      ∃ db'', validateWrite judge db t = .ok db'' := by
  unfold transitionSession at h
  split at h
  · cases h
    exact .inl ⟨rfl, rfl⟩
  · rename_i new entry hdecide
    obtain ⟨db'', hwrite, h⟩ := except_bind_eq_ok.1 h
    obtain ⟨entries, -, h⟩ := except_bind_eq_ok.1 h
    cases h
    exact .inr ⟨new, entry, rfl, hdecide, rfl, db'', hwrite⟩

theorem exec_session {o : Op} {i : Outside} {db db' : Database E} {r : o.Res}
    (h : exec judge o i db = .ok (r, db')) (ho : ∀ t, o ≠ .transition t) :
    db'.session = db.session := by
  cases o with
  | transition t => exact absurd rfl (ho t)
  | observeClockAgainstCalendar isOpen now =>
      cases h
      split <;> rfl
  | _ =>
      cases h
      rfl

/-- **How an action changes the session**: by a transition that decided so, or not at all. -/
theorem session_step {w w' : State E} {a : Action E} (h : (commands judge).step w a = some w') :
    w'.store.session = w.store.session ∨ ∃ t id new entry, nextTransition? w a = some t ∧
      t.decide id w.store.loadSession = some (new, entry) ∧ w'.store.session = some new ∧
      ∃ db, validateWrite judge w.store t = .ok db := by
  cases a with
  | start c =>
      cases h
      exact .inl rfl
  | crash j =>
      cases h
      exact .inl rfl
  | env db =>
      cases h
      exact .inl rfl
  | raise j e =>
      simp only [commands, Pool.machine, Pool.step, Option.bind_eq_some_iff,
        Option.map_eq_some_iff] at h
      obtain ⟨p, -, p', -, rfl⟩ := h
      exact .inl rfl
  | run j i =>
      simp only [commands, Pool.machine, Pool.step, Option.bind_eq_some_iff,
        Option.map_eq_some_iff] at h
      obtain ⟨p, hp, ⟨s', p'⟩, ha, rfl⟩ := h
      cases p with
      | step o next =>
          have hnext : (w.procs.getD j (.done ())).next? = some o := by
            simp [List.getD, hp, Prog.next?]
          simp only [System.advance] at ha
          cases hx : (system judge).exec o i w.store with
          | error e =>
              rw [hx] at ha
              cases ha
              exact .inl rfl
          | ok q =>
              obtain ⟨r, db⟩ := q
              rw [hx] at ha
              cases ha
              by_cases ho : ∃ t, o = .transition t
              · obtain ⟨t, rfl⟩ := ho
                rcases transitionSession_ok hx with ⟨-, rfl⟩ | ⟨new, entry, -, hd, hs, hw⟩
                · exact .inl rfl
                · exact .inr ⟨t, i.uuid, new, entry, by simp only [nextTransition?, hnext], hd, hs, hw⟩
              · exact .inl (exec_session hx fun t ht => ho ⟨t, ht⟩)
      | done _ => cases ha
      | fail _ => cases ha

theorem loadSession_congr {db db' : Database E} (h : db'.session = db.session) :
    db'.loadSession = db.loadSession := by
  unfold Database.loadSession
  rw [h]

theorem loadSession_eq {db : Database E} {session : TradingSession}
    (h : db.session = some session) : db.loadSession = session := by
  unfold Database.loadSession
  rw [h]
  rfl

/-! ### The integrity latch -/

/-- Trading is active only while the session is open, and no latch is set. -/
structure SessionSound (session : TradingSession) : Prop where
  opened : session.tradingActive = true → session.state = .active ∨ session.state = .marketClosed
  unlatched : session.tradingActive = true → session.killSwitchResetRequired = false ∧
    session.financialIntegrityManualReenableRequired = false

theorem decide_sound {t : Transition} {id : String} {session new : TradingSession}
    {entry : AuditEntry} (h : t.decide id session = some (new, entry)) : SessionSound new := by
  cases t with
  | start now =>
      simp only [Transition.decide, Option.ite_none_left_eq_some, Option.some.injEq,
        Prod.mk.injEq] at h
      obtain ⟨-, rfl, -⟩ := h
      exact ⟨fun _ => .inl rfl, fun _ => ⟨rfl, rfl⟩⟩
  | stop now =>
      simp only [Transition.decide, Option.ite_none_left_eq_some, Option.some.injEq,
        Prod.mk.injEq] at h
      obtain ⟨-, -, rfl, -⟩ := h
      exact ⟨nofun, nofun⟩
  | resetRisk now =>
      simp only [Transition.decide, Option.ite_none_left_eq_some, Option.some.injEq,
        Prod.mk.injEq] at h
      obtain ⟨-, rfl, -⟩ := h
      exact ⟨nofun, nofun⟩
  | resetIntegrity now digest receipt evidence =>
      simp only [Transition.decide, Option.ite_none_left_eq_some, Option.some.injEq,
        Prod.mk.injEq] at h
      obtain ⟨-, rfl, -⟩ := h
      exact ⟨nofun, nofun⟩
  | syncMarketSession isOpen now =>
      simp only [Transition.decide, Option.map_eq_some_iff, Prod.mk.injEq] at h
      obtain ⟨target, htarget, rfl, -⟩ := h
      refine ⟨fun _ => ?_, fun _ => ⟨rfl, rfl⟩⟩
      split at htarget
      · cases htarget
        exact .inr rfl
      · split at htarget
        · cases htarget
          exact .inl rfl
        · cases htarget
  | latchRiskStop reason now =>
      simp only [Transition.decide, Option.ite_none_left_eq_some, Option.some.injEq,
        Prod.mk.injEq] at h
      obtain ⟨-, rfl, -⟩ := h
      exact ⟨nofun, nofun⟩
  | latchFinancialIntegrityBlock reason now =>
      simp only [Transition.decide, Option.ite_none_left_eq_some, Option.some.injEq,
        Prod.mk.injEq] at h
      obtain ⟨-, rfl, -⟩ := h
      exact ⟨nofun, nofun⟩

theorem sound_of_reaches {e : E} {w : State E}
    (hr : (commands judge).Reaches (fun _ _ => True) ⟨{ evidence := e }, []⟩ w) :
    SessionSound w.store.loadSession := by
  have disabled : SessionSound ({ evidence := e } : Database E).loadSession :=
    ⟨fun h => absurd h (by simp [Database.loadSession]),
      fun h => absurd h (by simp [Database.loadSession])⟩
  refine hr.invariant (I := fun v => SessionSound v.store.loadSession) disabled
    fun v a v' hv _ hstep => ?_
  rcases session_step hstep with hsame | ⟨t, id, new, entry, -, hd, hs, -⟩
  · rw [loadSession_congr hsame]
    exact hv
  · rw [loadSession_eq hs]
    exact decide_sound hd

/-- A blocked session is left by `reset-integrity` only, and becomes one that is stopped. -/
theorem decide_of_blocked {t : Transition} {id : String} {session new : TradingSession}
    {entry : AuditEntry} (hs : session.state = .financialIntegrityBlocked)
    (h : t.decide id session = some (new, entry)) :
    ∃ now digest receipt evidence, t = .resetIntegrity now digest receipt evidence ∧
      new.state = .manuallyStopped := by
  cases t with
  | resetIntegrity now digest receipt evidence =>
      simp only [Transition.decide, Option.ite_none_left_eq_some, Option.some.injEq,
        Prod.mk.injEq] at h
      obtain ⟨-, rfl, -⟩ := h
      exact ⟨now, digest, receipt, evidence, rfl, rfl⟩
  | _ => simp [Transition.decide, hs, SessionState.startHardBlocked, SessionState.stopPreserved] at h

/-- The proof that the transaction of `reset-integrity` asks for. -/
theorem validateWrite_resetIntegrity {db db' : Database E} {now : Instant} {digest : String}
    {receipt : ValuationRecord} {evidence : ResetEvidence}
    (h : validateWrite judge db (.resetIntegrity now digest receipt evidence) = .ok db') :
    (judge.unlockProof db).issues = [] ∧ (judge.unlockProof db).digest = digest := by
  obtain ⟨_, hproof, -⟩ := except_bind_eq_ok.1 h
  simp only [requireUnlockProof, raiseIf_eq_ok_iff, not_or, not_not] at hproof
  exact hproof

/-- An action that performs a transition commits it. -/
def Commits (judge : Judge E) (w : State E) : Action E → Prop
  | .run j i => ∀ t, nextTransition? w (.run j i) = some t →
      ∃ new db, transitionSession judge t i.uuid w.store = .ok (some new, db)
  | _ => True

/-- A transition that is refused or fails changes nothing. -/
theorem unchanged_of_not_commits {w w' : State E} {a : Action E}
    (h : (commands judge).step w a = some w') (hc : ¬ Commits judge w a) :
    w'.store = w.store := by
  cases a with
  | run j i =>
      simp only [Commits, not_forall] at hc
      obtain ⟨t, ht, hc⟩ := hc
      simp only [commands, Pool.machine, Pool.step, Option.bind_eq_some_iff,
        Option.map_eq_some_iff] at h
      obtain ⟨p, hp, ⟨s', p'⟩, ha, rfl⟩ := h
      cases p with
      | step o next =>
          have hnext : (w.procs.getD j (.done ())).next? = some o := by
            simp [List.getD, hp, Prog.next?]
          have ho : o = .transition t := by
            simp only [nextTransition?, hnext] at ht
            split at ht <;> simp_all
          subst ho
          simp only [System.advance] at ha
          cases hx : (system judge).exec (.transition t) i w.store with
          | error e =>
              rw [hx] at ha
              cases ha
              rfl
          | ok q =>
              obtain ⟨r, db⟩ := q
              rw [hx] at ha
              cases ha
              rcases transitionSession_ok hx with ⟨-, rfl⟩ | ⟨new, entry, rfl, -⟩
              · rfl
              · exact absurd ⟨new, s', hx⟩ hc
      | done _ => cases ha
      | fail _ => cases ha
  | _ => exact absurd trivial hc

/-- **The integrity latch is safe.**  In every state reached and through every step from it: a
blocked session stays as it is, or a `reset-integrity` whose unlock proof holds in that very
transaction stops it; trading is active only in an open session without a latch; and a transition
that is refused or fails changes nothing. -/
theorem integrity_latch_safe {E : Type} {judge : Judge E} {e : E} {w w' : State E} {a : Action E}
    (hr : (commands judge).Reaches (fun _ _ => True) ⟨{ evidence := e }, []⟩ w)
    (hstep : (commands judge).step w a = some w') :
    (w.store.loadSession.state = .financialIntegrityBlocked →
      w'.store.session = w.store.session ∨ ∃ now digest receipt evidence,
        nextTransition? w a = some (.resetIntegrity now digest receipt evidence) ∧
        (judge.unlockProof w.store).issues = [] ∧ (judge.unlockProof w.store).digest = digest ∧
        w'.store.loadSession.state = .manuallyStopped) ∧
      SessionSound w.store.loadSession ∧ (¬ Commits judge w a → w'.store = w.store) := by
  refine ⟨fun hblocked => ?_, sound_of_reaches hr, unchanged_of_not_commits hstep⟩
  rcases session_step hstep with hsame | ⟨t, id, new, entry, ht, hd, hs, db, hwrite⟩
  · exact .inl hsame
  · obtain ⟨now, digest, receipt, evidence, rfl, hnew⟩ := decide_of_blocked hblocked hd
    obtain ⟨hissues, hdigest⟩ := validateWrite_resetIntegrity hwrite
    refine .inr ⟨now, digest, receipt, evidence, ht, hissues, hdigest, ?_⟩
    rw [loadSession_eq hs]
    exact hnew

/-! ### The kill switch -/

/-- The action does not commit a `reset-risk`. -/
def NoResetRisk (w : State E) (a : Action E) : Prop :=
  ∀ t ∈ nextTransition? w a, t.resetsRisk = false

/-- The action does not record an integrity block while the session is stopped for risk. -/
def Unescalated (w : State E) (a : Action E) : Prop :=
  ∀ t ∈ nextTransition? w a, t.blocksIntegrity = true → w.store.loadSession.state ≠ .riskStopped

instance (w : State E) (a : Action E) : Decidable (NoResetRisk w a) :=
  inferInstanceAs (Decidable (∀ t ∈ nextTransition? w a, _))

instance (w : State E) (a : Action E) : Decidable (Unescalated w a) :=
  inferInstanceAs (Decidable (∀ t ∈ nextTransition? w a, _))

/-- A session stopped for risk is left by its reset, or by an integrity block. -/
theorem decide_of_riskStopped {t : Transition} {id : String} {session new : TradingSession}
    {entry : AuditEntry} (hs : session.state = .riskStopped)
    (h : t.decide id session = some (new, entry)) :
    t.resetsRisk = true ∨ t.blocksIntegrity = true := by
  cases t with
  | resetRisk now => exact .inl rfl
  | latchFinancialIntegrityBlock reason now => exact .inr rfl
  | _ => simp [Transition.decide, hs, SessionState.startHardBlocked, SessionState.stopPreserved] at h

theorem not_allowed_of_riskStopped {session : TradingSession} (h : session.state = .riskStopped)
    (side : Side) (assetClass : AssetClass) :
    (executionSessionDecision session side assetClass false).allowed = false := by
  unfold executionSessionDecision
  rw [if_neg (by simp)]
  split
  · rfl
  · rw [if_pos (.inl h)]

/-- **The kill switch is cleared only by `reset-risk`**, in every run in which no integrity block
is recorded over it: until then no order but a protective one is let through. -/
theorem kill_switch_stays {E : Type} {judge : Judge E} {w w' : State E}
    (h : w.store.loadSession.state = .riskStopped)
    (hr : (commands judge).Reaches (fun v a => NoResetRisk v a ∧ Unescalated v a) w w')
    (side : Side) (assetClass : AssetClass) :
    (executionSessionDecision w'.store.loadSession side assetClass false).allowed = false := by
  refine not_allowed_of_riskStopped (hr.invariant
    (I := fun v => v.store.loadSession.state = .riskStopped) h fun v a v' hv hok hstep => ?_) _ _
  rcases session_step hstep with hsame | ⟨t, id, new, entry, ht, hd, -, -⟩
  · rw [loadSession_congr hsame]
    exact hv
  · -- neither of the two transitions that leave the state may happen
    rcases decide_of_riskStopped hv hd with hreset | hblock
    · exact absurd (hok.1 t ht) (by simp [hreset])
    · exact absurd hv (hok.2 t ht hblock)

/-! ### Runs on given data -/

/-- A database without evidence: what is left of the unlock proof are the holds. -/
def noEvidence : Judge Unit where
  unlockProof db :=
    { issues := if db.integrityHolds.rows = [] then [] else ["RESET_ACTIVE_INTEGRITY_HOLD"]
      digest := "no evidence" }
  releasedShortExposureHolds _ := []

/-- Start a command as the `j`-th and let it take `n` steps. -/
def issue (c : Command) (j n : ℕ) : List (Action Unit) :=
  .start c :: List.replicate n (.run j
    { now := j, uuid := "event-" ++ toString j
      snapshot := { matched := true, receipt := { recordId := "receipt", occurredAt := j } } })

/-- Trading is started, and stopped for risk. -/
def riskStop : List (Action Unit) :=
  issue .start 0 4 ++ issue (.latchRiskStop "daily loss") 1 2

/-- An integrity block is recorded, checked, and reset. -/
def blockAndReset : List (Action Unit) :=
  issue (.latchFinancialIntegrityBlock "accounting drift") 2 2 ++ issue (.resetIntegrity false) 3 9

def noCommands : State Unit := ⟨{ evidence := () }, []⟩

/-- A start, a stop and the market clock leave a risk stop in place. -/
theorem kill_switch_stays_once : ∃ w w' : State Unit,
    (commands noEvidence).Reaches (fun _ _ => True) noCommands w ∧
      (commands noEvidence).Reaches (fun v a => NoResetRisk v a ∧ Unescalated v a) w w' ∧
      w'.procs.length = 5 ∧
      (executionSessionDecision w'.store.loadSession .buy .equity false).allowed = false := by
  have hrun : ((commands noEvidence).run noCommands riskStop).any (fun w =>
      decide (w.store.loadSession.state = .riskStopped ∧ ((commands noEvidence).runUnder
        (fun v a => NoResetRisk v a ∧ Unescalated v a) w
        (issue .start 2 1 ++ issue .stop 3 3 ++ issue .syncMarketSession 4 4)).any (fun w' =>
          decide (w'.procs.length = 5)) = true)) = true := by
    decide +kernel
  obtain ⟨w, hreach, hstopped, hnext⟩ := Machine.exists_of_run hrun
  obtain ⟨w', hreach', hlen⟩ := Machine.exists_of_runUnder hnext
  exact ⟨w, w', hreach, hreach', hlen, kill_switch_stays hstopped hreach' .buy .equity⟩

/-- **An escalated risk stop is forgotten.**  The integrity block that takes its place is reset
after its own check, and then trading starts again; no `reset-risk` has taken place. -/
theorem kill_switch_forgotten : ∃ w w' : State Unit,
    (commands noEvidence).Reaches (fun _ _ => True) noCommands w ∧
      w.store.loadSession.state = .riskStopped ∧
      (commands noEvidence).Reaches (fun v a => NoResetRisk v a) w w' ∧
      (executionSessionDecision w'.store.loadSession .buy .equity false).allowed = true := by
  have hrun : ((commands noEvidence).run noCommands riskStop).any (fun w =>
      decide (w.store.loadSession.state = .riskStopped ∧ ((commands noEvidence).runUnder
        (fun v a => NoResetRisk v a) w (blockAndReset ++ issue .start 4 4)).any (fun w' =>
          decide ((executionSessionDecision w'.store.loadSession .buy .equity false).allowed
            = true)) = true)) = true := by
    decide +kernel
  obtain ⟨w, hreach, hstopped, hnext⟩ := Machine.exists_of_run hrun
  obtain ⟨w', hreach', hallowed⟩ := Machine.exists_of_runUnder hnext
  exact ⟨w, w', hreach, hstopped, hreach', hallowed⟩

/-- A block on record is left by the transaction of `reset-integrity`. -/
theorem integrity_latch_safe_once : ∃ (w w' : State Unit) (a : Action Unit),
    w.store.loadSession.state = .financialIntegrityBlocked ∧
      (w'.store.session = w.store.session ∨ ∃ now digest receipt evidence,
        nextTransition? w a = some (.resetIntegrity now digest receipt evidence) ∧
        (noEvidence.unlockProof w.store).issues = [] ∧
        (noEvidence.unlockProof w.store).digest = digest ∧
        w'.store.loadSession.state = .manuallyStopped) := by
  have hrun : ((commands noEvidence).run noCommands (riskStop ++ blockAndReset.dropLast)).any
      (fun w => decide (w.store.loadSession.state = .financialIntegrityBlocked ∧
        ((commands noEvidence).step w (.run 3 { uuid := "event-3" })).isSome)) = true := by
    decide +kernel
  obtain ⟨w, hreach, hblocked, hsome⟩ := Machine.exists_of_run hrun
  obtain ⟨w', hstep⟩ := Option.isSome_iff_exists.1 hsome
  exact ⟨w, w', _, hblocked, (integrity_latch_safe hreach hstep).1 hblocked⟩

end Control

end TradePulse
