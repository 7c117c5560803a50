/-
**When the stop goes to break-even.**

The monitor moves the live stop of a position to its average price once the gain over that price
has reached a trigger, and from then on keeps it there or higher: that the live stop is set stands
for the gain having been earned.  Settlement carries the live stop over as it is and projects the
average price anew, so what was earned was earned over the average price of that time.

Passes of the processor and jobs of the monitor run side by side, as in the module on the effective
stop.  Beside them stand the prices that the monitor has observed of each open position, and the
holding that each job has read.

Main definitions:

* `Earned` — at some observed price the gain over an average price reached the trigger;
* `Vigil`, `vigil` — passes and jobs with what the monitor has observed;
* `KeepsEarned` — the conditions on the writes of settlement and of the monitor.

Main results:

* `Watchful.step` — every step that meets its condition keeps what was earned;
* `ratchet_earned` — **a stop is ratcheted only where break-even was earned over the average price
  of the holding, as long as every write meets its condition**;
* `ratchet_unearned` — an add-on at a higher price moves the stop above the market.
-/

import TradePulse.Monitor.EffectiveStop

set_option autoImplicit false

namespace TradePulse

namespace Monitor

open Process Storage Settlement Record

/-! ### What a pass does to live stops -/

/-- A live stop is set in no holding in which it was not set before, or it is the same. -/
def StopsCarried (s s' : Store) : Prop :=
  ∀ row' ∈ s'.holdings, row'.currentStop = none ∨
    ∃ row ∈ s.holdings, recordId row = recordId row' ∧ row'.currentStop = row.currentStop

theorem StopsCarried.of_eq {s s' : Store} (h : s'.holdings = s.holdings) : StopsCarried s s' := by
  intro row' hrow'
  rw [h] at hrow'
  exact .inr ⟨row', hrow', rfl, rfl⟩

/-- What settlement creates has no live stop. -/
def Unset : Settlement.Op → Prop
  | .createHolding _ holding _ => holding.currentStop = none
  | _ => True

theorem unset_of_writesIn {o : Settlement.Op} {parts : List Part}
    (h : o.WritesIn parts) (hparts : Part.holdings ∉ parts) : Unset o := by
  cases o with
  | createHolding openLots holding guardKey => exact absurd (h .holdings rfl) hparts
  | _ => trivial

theorem uses_unset {α : Type} (parts : List Part) {p : Settle α}
    (hp : p.Uses (Settlement.Op.WritesIn parts)) (hparts : Part.holdings ∉ parts) :
    p.Uses Unset :=
  hp.mono fun _ ho => unset_of_writesIn ho hparts

theorem uses_unset_projectHolding (event : SettlementEvent) :
    (projectHolding event).Uses Unset := by
  refine Prog.Uses.bind (fun lots => ?_)
    (uses_unset [] (uses_unconvertedLots _ _) (by simp))
  refine Prog.Uses.bind (fun existing => ?_) ((Prog.uses_perform _).2 trivial)
  split
  · split
    · exact Prog.Uses.bind (fun _ => Prog.uses_done _) ((Prog.uses_perform _).2 trivial)
    · exact Prog.uses_done _
  · refine Prog.Uses.bind (fun levels => ?_)
      (uses_unset [] (uses_entryProtectiveLevels _) (by simp))
    refine Prog.Uses.ofExcept_bind fun holding hmake => ?_
    have hunset : holding.currentStop = none :=
      congrArg (·.currentStop) (Holding.make_eq_ok_iff.1 hmake)
    split
    · exact Prog.Uses.bind (fun _ => Prog.uses_done _) ((Prog.uses_perform _).2 trivial)
    · exact Prog.Uses.bind (fun _ => Prog.uses_done _) ((Prog.uses_perform _).2 hunset)

theorem stopsCarried {o : Settlement.Op} {i : Settlement.Outside} {s s' : Store} {r : o.Res}
    (ho : Unset o) (h : Settlement.exec o i s = .ok (r, s')) : StopsCarried s s' := by
  intro row' hrow'
  cases holdingsAfter h with
  | same heq => exact StopsCarried.of_eq heq row' hrow'
  | deleted heq =>
      rw [heq] at hrow'
      exact .inr ⟨row', (Table.mem_delete.1 hrow').1, rfl, rfl⟩
  | mutated row h' hget hf heq =>
      rw [heq] at hrow'
      rcases Table.mem_put_imp hrow' with rfl | hold
      · obtain ⟨hmem, hid⟩ := Table.get?_eq_some_iff.1 hget
        have hasset : row'.asset = _ := congrArg (·.asset) hf
        refine .inr ⟨row, hmem, ?_, congrArg (·.currentStop) hf⟩
        rw [hid]
        exact (congrArg holdingRecordId hasset).symm
      · exact .inr ⟨row', hold, rfl, rfl⟩
  | created heq =>
      rw [heq] at hrow'
      rcases Table.mem_createOnce.1 hrow' with hold | ⟨-, rfl⟩
      · exact .inr ⟨row', hold, rfl, rfl⟩
      · exact .inl ho

/-- The setting of a pass: nothing is known of what the others do. -/
def carrying : Setting Store Settlement.Outside Raised Settlement.Op.Res where
  exec := Settlement.exec
  inv _ := True
  rely _ _ := True
  cond _ _ _ := True
  guar _ := StopsCarried

theorem safe_carrying {α : Type} {p : Settle α} (hp : p.Uses Unset) : Safe carrying p :=
  Sat.of_uses (.const True)
    (fun _ _ _ _ _ ho _ _ _ hx => ⟨trivial, stopsCarried ho hx, trivial⟩) hp

theorem holds_carrying : unknowing.Holds carrying where
  quiet _ ho := safe_carrying (uses_unset _ ((Prog.uses_perform _).2 ho) (by decide))
  claim _ _ _ _ :=
    (safe_carrying (uses_unset _ (uses_performWrite rfl) (by decide))).mono (fun _ _ h => h)
      (fun _ _ _ _ _ _ => trivial) fun _ _ _ h => h
  verify c := by
    have huses : (verifyIntegrity c false).Uses (Settlement.Op.WritesIn []) :=
      uses_verifyIntegrity c false
    exact safe_carrying (uses_unset [] huses (by simp))
  stage c state st _ _ := by
    by_cases hst : st = .projectHolding
    · subst hst
      exact Sat.bind_of (safe_carrying (uses_unset_projectHolding state)) fun _ _ _ _ => trivial
    · refine safe_carrying (uses_unset _ (uses_handlers st state) ?_)
      cases st with
      | projectHolding => exact absurd rfl hst
      | _ => decide
  mark _ _ _ _ _ _ _ _ := safe_carrying (uses_unset _ (uses_performWrite rfl) (by decide))
  done _ _ _ _ := safe_carrying (uses_unset _ (uses_performWrite rfl) (by decide))
  fail _ _ _ _ _ := safe_carrying (uses_unset _ (uses_performWrite rfl) (by decide))
  running_failed _ _ _ _ := trivial
  staged_failed _ _ _ _ _ _ := trivial

/-- The same among the transactions of both sides, where only those of settlement are
performed. -/
def passing : Setting Store (Settlement.Outside × Outside) Raised
    (ResPar Settlement.Op.Res Op.Res) where
  exec := execPar Settlement.exec exec
  inv _ := True
  rely _ _ := True
  cond o _ _ := o.isLeft = true
  guar _ := StopsCarried

theorem known_passing (c : PassArgs ⊕ Call) (s : Store) : Known passing s (guarded.call c) := by
  refine ⟨fun _ => True, .const True, trivial, ?_⟩
  cases c with
  | inl args =>
      have hpass : Sat carrying (Settlement.system.call args) (fun _ => True)
          (fun _ _ => True) fun _ _ => True :=
        Sat.bind_of (holds_carrying.processPending args) fun _ _ _ _ => trivial
      exact Sat.lift (f := Sum.inl) (Γ := carrying) rfl rfl (fun _ => Prod.fst)
        (fun _ _ _ => rfl) (fun _ _ _ _ => trivial) (fun _ _ _ h => h) hpass
  | inr c =>
      let Γ : Setting Store Outside Raised Op.Res :=
        { exec := exec, inv := fun _ => True, rely := fun _ _ => True, cond := fun _ _ _ => True,
          guar := fun _ => StopsCarried }
      exact Sat.lift (f := Sum.inr) (Γ := Γ.idle) rfl rfl (fun _ => Prod.snd)
        (fun _ _ _ => rfl) (fun _ _ _ h => Bool.false_ne_true h) (fun _ _ _ h => h)
        (Sat.idle Γ (system.call c))

theorem known_of_any {s s' : Store} {p : Prog Raised (ResPar Settlement.Op.Res Op.Res) Unit}
    (h : Known passing s p) : Known passing s' p :=
  h.rely (Γ := passing) trivial trivial trivial

/-! ### What a ratchet asks for -/

/-- A ratchet that goes on past its first test: the gain has reached the trigger, or a live stop is
set. -/
theorem ratchetStop_unfinished {limits : RiskLimits} {holding : Holding} {lots : List PositionLot}
    {price : ℚ} (hlong : 0 < holding.quantity)
    (h : (ratchetStop limits holding lots price).finished = false) :
    holding.currentStop ≠ none ∨
      limits.breakEvenTriggerPct
        ≤ (price - holding.averagePrice) / holding.averagePrice * 100 := by
  by_contra hn
  rw [not_or, not_not, not_le] at hn
  have hdone : ratchetStop limits holding lots price = Prog.done (some holding) := by
    unfold ratchetStop
    by_cases hstop : holding.stopLoss = none
    · rw [if_pos hstop]
      rfl
    · rw [if_neg hstop, if_pos]
      · rfl
      · simpa [hlong] using hn
  rw [hdone] at h
  cases h

/-- How a transaction of the monitor changes holdings: the live stop and the mark of one of them. -/
theorem monitor_holdings {o : Op} {i : Outside} {s s' : Store} {r : o.Res}
    (h : exec o i s = .ok (r, s')) :
    s'.holdings = s.holdings ∨ ∃ key row row', s.holdings.get? key = some row ∧
      row'.asset = row.asset ∧ row'.quantity = row.quantity ∧
      row'.averagePrice = row.averagePrice ∧ row'.sector = row.sector ∧
      s'.holdings = s.holdings.put row' ∧
      (row'.currentStop = row.currentStop ∨
        (∃ average isLong candidate, o = .ratchet key average isLong candidate) ∨
        o = .mark key ∧ row.scaledOut = false) := by
  cases o with
  | foldLot lotId price =>
      rcases foldLot_ok h with rfl | ⟨_, _, -, -, rfl⟩
      · exact .inl rfl
      · exact .inl rfl
  | fetchAtr asset =>
      cases h
      exact .inl rfl
  | reserveSymbol asset =>
      cases h
      exact .inl rfl
  | executeIntent asset =>
      cases h
      exact .inl rfl
  | ratchet key average isLong candidate =>
      obtain ⟨⟨updated, t⟩, ht, h⟩ := except_bind_eq_ok.1 h
      cases h
      rcases mutateHolding_ok ht with ⟨-, rfl⟩ | ⟨row, row', hget, hf, -, rfl⟩
      · exact .inl rfl
      · unfold ratchetDecision at hf
        simp only [Option.ite_none_left_eq_some, Option.some.injEq] at hf
        exact .inr ⟨key, row, row', hget, (congrArg (·.asset) hf.2).symm,
          (congrArg (·.quantity) hf.2).symm, (congrArg (·.averagePrice) hf.2).symm,
          (congrArg (·.sector) hf.2).symm, rfl,
          .inr (.inl ⟨average, isLong, candidate, rfl⟩)⟩
  | mark key =>
      rcases mutateHolding_ok h with ⟨-, rfl⟩ | ⟨row, row', hget, hf, -, rfl⟩
      · exact .inl rfl
      · unfold markDecision at hf
        simp only [Option.ite_none_left_eq_some, Option.some.injEq] at hf
        exact .inr ⟨key, row, row', hget, (congrArg (·.asset) hf.2).symm,
          (congrArg (·.quantity) hf.2).symm, (congrArg (·.averagePrice) hf.2).symm,
          (congrArg (·.sector) hf.2).symm, rfl,
          .inr (.inr ⟨rfl, by simpa using hf.1⟩)⟩
  | unmark key =>
      rcases mutateHolding_ok h with ⟨-, rfl⟩ | ⟨row, row', hget, hf, -, rfl⟩
      · exact .inl rfl
      · unfold unmarkDecision at hf
        simp only [Option.ite_none_right_eq_some, Option.some.injEq] at hf
        exact .inr ⟨key, row, row', hget, (congrArg (·.asset) hf.2).symm,
          (congrArg (·.quantity) hf.2).symm, (congrArg (·.averagePrice) hf.2).symm,
          (congrArg (·.sector) hf.2).symm, rfl,
          .inl (congrArg (·.currentStop) hf.2).symm⟩

/-! ### What has been observed -/

/-- The gain of a long position over its average price, in per cent. -/
def gainPct (price averagePrice : ℚ) : ℚ := (price - averagePrice) / averagePrice * 100

/-- At some price that was observed of a position, the gain over an average price reached the
trigger. -/
def Earned (trigger : ℚ) (seen : List (String × ℚ)) (key : String) (averagePrice : ℚ) : Prop :=
  ∃ x ∈ seen, x.1 = key ∧ trigger ≤ gainPct x.2 averagePrice

instance (trigger : ℚ) (seen : List (String × ℚ)) (key : String) (averagePrice : ℚ) :
    Decidable (Earned trigger seen key averagePrice) :=
  inferInstanceAs (Decidable (∃ x ∈ seen, x.1 = key ∧ trigger ≤ gainPct x.2 averagePrice))

/-- Passes and monitor jobs. -/
abbrev Desk := Lanes (Option ℕ) Store Raised (ResPar Settlement.Op.Res Op.Res)

abbrev DeskAct :=
  LaneAct (Option ℕ) (Settlement.Outside × Outside) Raised (PassArgs ⊕ Call) External

/-- Passes and monitor jobs, with the prices that were observed of each open position and the
holding that the ratchet in each lane has read. -/
structure Vigil where
  desk : Desk
  seen : List (String × ℚ) := []
  readings : List (ℕ × Holding) := []

/-- What a job starts from: a holding it has read, and its price. -/
def observation : PassArgs ⊕ Call → Option (Holding × ℚ)
  | .inr (.ratchetStop _ holding _ price) => some (holding, price)
  | _ => none

/-- What was observed, after an action.  A position that is closed is forgotten. -/
def Vigil.after (v : Vigil) (a : DeskAct) (w : Desk) : Vigil where
  desk := w
  seen := match a with
    | .start (some _) c =>
        ((observation c).toList.map fun x => (recordId x.1, x.2)) ++ v.seen
    | _ => v.seen.filter fun x => (w.store.holdings.get? x.1).isSome
  readings := match a with
    | .start (some k) c =>
        ((observation c).toList.map fun x => (k, x.1)) ++ v.readings.filter fun x => x.1 ≠ k
    | _ => v.readings

/-- A ratchet starts from the holding as it stands, and all with one trigger. -/
def Reads (trigger : ℚ) (s : Store) : DeskAct → Prop
  | .start _ (.inr (.ratchetStop limits holding _ _)) =>
      limits.breakEvenTriggerPct = trigger ∧
        (s.holdings.get? (recordId holding)).map (·.toHoldingFields)
          = some holding.toHoldingFields
  | _ => True

instance (trigger : ℚ) (s : Store) : ∀ a : DeskAct, Decidable (Reads trigger s a)
  | .start _ (.inr (.ratchetStop _ _ _ _)) => inferInstanceAs (Decidable (_ ∧ _))
  | .start _ (.inr (.foldLotExtrema _ _)) => isTrue trivial
  | .start _ (.inr (.scaleOut _)) => isTrue trivial
  | .start _ (.inl _) => isTrue trivial
  | .run _ _ => isTrue trivial
  | .raise _ _ => isTrue trivial
  | .crash _ => isTrue trivial
  | .env _ => isTrue trivial

def vigil (trigger : ℚ) : Machine Vigil DeskAct where
  step v a :=
    if Reads trigger v.desk.store a then (guardedLanes.step v.desk a).map (v.after a) else none

/-- A job is in the middle of ratcheting the stop of a holding. -/
def Vigil.Ratcheting (v : Vigil) (key : String) : Prop :=
  ∃ x ∈ v.readings, recordId x.2 = key ∧ (v.desk.proc (some x.1)).finished = false

instance (v : Vigil) (key : String) : Decidable (v.Ratcheting key) :=
  inferInstanceAs (Decidable (∃ x ∈ v.readings,
    recordId x.2 = key ∧ (v.desk.proc (some x.1)).finished = false))

/-- A holding with a live stop, or one whose stop is being ratcheted, is projected only at an
average price over which break-even was earned; none is opened while one of its name is being
ratcheted. -/
def ProjectsEarned (trigger : ℚ) (v : Vigil) : Settlement.Op → Store → Prop
  | .mutateHolding _ holding _, s => 0 < holding.quantity →
      ∀ row ∈ s.holdings.get? (recordId holding),
        row.currentStop ≠ none ∨ v.Ratcheting (recordId holding) →
          Earned trigger v.seen (recordId holding) holding.averagePrice
  | .createHolding _ holding _, _ => ¬ v.Ratcheting (recordId holding)
  | _, _ => True

instance (trigger : ℚ) (v : Vigil) (o : Settlement.Op) (s : Store) :
    Decidable (ProjectsEarned trigger v o s) := by
  apply Settlement.Op.casesOn (motive := fun o => Decidable (ProjectsEarned trigger v o s)) o
  case mutateHolding =>
    intro openLots holding guardKey
    exact inferInstanceAs (Decidable (0 < holding.quantity →
      ∀ row ∈ s.holdings.get? (recordId holding),
        row.currentStop ≠ none ∨ v.Ratcheting (recordId holding) →
          Earned trigger v.seen (recordId holding) holding.averagePrice))
  case createHolding =>
    intro openLots holding guardKey
    exact inferInstanceAs (Decidable (¬ v.Ratcheting (recordId holding)))
  all_goals
    intros
    exact isTrue trivial

/-- A position without a live stop is scaled out only once break-even was earned. -/
def MarksEarned (trigger : ℚ) (v : Vigil) : Op → Store → Prop
  | .mark key, s => ∀ row ∈ s.holdings.get? key, 0 < row.quantity → row.scaledOut = false →
      row.currentStop = none → Earned trigger v.seen key row.averagePrice
  | _, _ => True

instance (trigger : ℚ) (v : Vigil) (o : Op) (s : Store) :
    Decidable (MarksEarned trigger v o s) := by
  apply Op.casesOn (motive := fun o => Decidable (MarksEarned trigger v o s)) o
  case mark =>
    intro key
    exact inferInstanceAs (Decidable (∀ row ∈ s.holdings.get? key, 0 < row.quantity →
      row.scaledOut = false → row.currentStop = none →
        Earned trigger v.seen key row.averagePrice))
  all_goals
    intros
    exact isTrue trivial

/-- In one lane passes follow one another, each other lane runs jobs of the monitor. -/
def KeepsEarned (trigger : ℚ) (v : Vigil) :
    Option ℕ → Settlement.Op ⊕ Op → Settlement.Outside × Outside → Store → Prop
  | none, .inl o, _, s => ProjectsEarned trigger v o s
  | some _, .inr o, _, s => MarksEarned trigger v o s
  | _, _, _, _ => False

instance (trigger : ℚ) (v : Vigil) : ∀ j o i s, Decidable (KeepsEarned trigger v j o i s)
  | none, .inl o, _, s => inferInstanceAs (Decidable (ProjectsEarned trigger v o s))
  | some _, .inr o, _, s => inferInstanceAs (Decidable (MarksEarned trigger v o s))
  | none, .inr _, _, _ => isFalse id
  | some _, .inl _, _, _ => isFalse id

/-- The operation that the action performs meets its condition. -/
def Vigil.Keeps (trigger : ℚ) (v : Vigil) (a : DeskAct) : Prop :=
  Lanes.Meets (KeepsEarned trigger v) v.desk a

instance (trigger : ℚ) (v : Vigil) (a : DeskAct) : Decidable (v.Keeps trigger a) :=
  inferInstanceAs (Decidable (Lanes.Meets (KeepsEarned trigger v) v.desk a))

/-! ### What was earned stays earned -/

/-- A property of the operations of the monitor. -/
def OfMonitor (A : Op → Prop) : Settlement.Op ⊕ Op → Prop := Sum.elim (fun _ => True) A

/-- What holds as long as every write meets its condition. -/
structure Watchful (trigger : ℚ) (v : Vigil) : Prop where
  passes : Known passing v.desk.store (v.desk.proc none)
  earned : ∀ row ∈ v.desk.store.holdings, 0 < row.quantity → row.currentStop ≠ none →
    Earned trigger v.seen (recordId row) row.averagePrice
  ratchets : ∀ x ∈ v.readings,
    (v.desk.proc (some x.1)).Uses (OfMonitor (RatchetsOnly x.2))
  others : ∀ k, (∀ x ∈ v.readings, x.1 ≠ k) → (v.desk.proc (some k)).Uses (OfMonitor Ratchetless)
  reading : ∀ x ∈ v.readings, (v.desk.proc (some x.1)).finished = false →
    ∀ row ∈ v.desk.store.holdings, recordId row = recordId x.2 →
      (0 < row.quantity → Earned trigger v.seen (recordId row) row.averagePrice) ∧
      (0 < x.2.quantity → Earned trigger v.seen (recordId row) x.2.averagePrice)

/-- What is asked of a row after an action, in terms of the state before it. -/
structure Upheld (trigger : ℚ) (v : Vigil) (row : Holding) : Prop where
  earned : 0 < row.quantity → row.currentStop ≠ none ∨ v.Ratcheting (recordId row) →
    Earned trigger v.seen (recordId row) row.averagePrice
  stood : v.Ratcheting (recordId row) → ∃ old ∈ v.desk.store.holdings, recordId old = recordId row

theorem watchful_start {trigger : ℚ} {s : Store} (h : ∀ row ∈ s.holdings, row.currentStop = none) :
    Watchful trigger { desk := ⟨s, fun _ => .done ()⟩ } where
  passes := .done passing s
  earned := by
    intro row hrow _ hstop
    exact absurd (h row hrow) hstop
  ratchets := by
    intro x hx
    cases hx
  others _ _ := trivial
  reading := by
    intro x hx
    cases hx

section Step

variable {trigger : ℚ} {v v' : Vigil} {a : DeskAct}

theorem Watchful.row (h : Watchful trigger v) {row : Holding} (hrow : row ∈ v.desk.store.holdings) :
    Upheld trigger v row := by
  refine ⟨?_, fun _ => ⟨row, hrow, rfl⟩⟩
  rintro hlong (hstop | ⟨x, hx, hkey, hbusy⟩)
  · exact h.earned row hrow hlong hstop
  · exact (h.reading x hx hbusy row hrow hkey.symm).1 hlong

/-- The jobs went on, and every holding meets the conditions after the action. -/
theorem Watchful.moved (h : Watchful trigger v)
    (hpasses : Known passing v'.desk.store (v'.desk.proc none))
    (hreadings : v'.readings = v.readings)
    (hseen : ∀ key averagePrice, (∃ row ∈ v'.desk.store.holdings, recordId row = key) →
      Earned trigger v.seen key averagePrice → Earned trigger v'.seen key averagePrice)
    (huses : ∀ k A, (v.desk.proc (some k)).Uses A → (v'.desk.proc (some k)).Uses A)
    (hbusy : ∀ k, (v'.desk.proc (some k)).finished = false →
      (v.desk.proc (some k)).finished = false)
    (hrows : ∀ row ∈ v'.desk.store.holdings, Upheld trigger v row) : Watchful trigger v' where
  passes := hpasses
  earned row hrow hlong hstop :=
    hseen _ _ ⟨row, hrow, rfl⟩ ((hrows row hrow).earned hlong (.inl hstop))
  ratchets := by
    intro x hx
    rw [hreadings] at hx
    exact huses _ _ (h.ratchets x hx)
  others := by
    intro k hk
    rw [hreadings] at hk
    exact huses _ _ (h.others k hk)
  reading := by
    intro x hx hun row hrow hkey
    rw [hreadings] at hx
    have hbefore := hbusy _ hun
    have hratcheting : v.Ratcheting (recordId row) := ⟨x, hx, hkey.symm, hbefore⟩
    refine ⟨fun hlong => ?_, fun hlong => ?_⟩
    · exact hseen _ _ ⟨row, hrow, rfl⟩ ((hrows row hrow).earned hlong (.inr hratcheting))
    · -- the position is still the one that was read
      obtain ⟨old, hold, hid⟩ := (hrows row hrow).stood hratcheting
      have hread := (h.reading x hx hbefore old hold (hid.trans hkey)).2 hlong
      rw [hid] at hread
      exact hseen _ _ ⟨row, hrow, rfl⟩ hread

theorem Earned.after {w : Desk} {key : String} {averagePrice : ℚ}
    (h : Earned trigger v.seen key averagePrice)
    (hrow : ∃ row ∈ w.store.holdings, recordId row = key) :
    Earned trigger (v.after a w).seen key averagePrice := by
  obtain ⟨x, hx, rfl, hgain⟩ := h
  obtain ⟨row, hrow, hkey⟩ := hrow
  have hheld : (w.store.holdings.get? x.1).isSome = true := by
    rw [Table.get?_eq_some_iff.2 ⟨hrow, hkey⟩]
    rfl
  have hkept : x ∈ v.seen.filter fun x => (w.store.holdings.get? x.1).isSome :=
    List.mem_filter.2 ⟨hx, hheld⟩
  refine ⟨x, ?_, rfl, hgain⟩
  cases a with
  | start j c =>
      cases j with
      | none => exact hkept
      | some k => exact List.mem_append_right _ hx
  | run j i => exact hkept
  | raise j e => exact hkept
  | crash j => exact hkept
  | env t => exact hkept

end Step

section Step

variable {trigger : ℚ} {v v' : Vigil} {a : DeskAct}

/-- Where a job is about to ratchet a stop, break-even was earned over the average price of the
holding. -/
theorem Watchful.earned_of_ratchet (h : Watchful trigger v) {k : ℕ} {key : String} {isLong : Bool}
    {average candidate : ℚ}
    {next : Except Raised (Op.Res (.ratchet key average isLong candidate)) →
      Prog Raised (ResPar Settlement.Op.Res Op.Res) Unit}
    (hp : v.desk.proc (some k) = .step (.inr (.ratchet key average isLong candidate)) next)
    {row : Holding} (hrow : row ∈ v.desk.store.holdings) (hid : recordId row = key) (hlong : 0 < row.quantity) :
    Earned trigger v.seen (recordId row) row.averagePrice := by
  by_cases hk : ∃ x ∈ v.readings, x.1 = k
  · obtain ⟨x, hx, rfl⟩ := hk
    have huses := h.ratchets x hx
    rw [hp] at huses
    have hkey : key = recordId x.2 := huses.1.1
    exact (h.reading x hx (by rw [hp]; rfl) row hrow (hid.trans hkey)).1 hlong
  · have huses := h.others k fun x hx heq => hk ⟨x, hx, heq⟩
    rw [hp] at huses
    exact absurd huses.1 id

/-- What a transaction of settlement leaves meets the conditions. -/
theorem Watchful.settled (h : Watchful trigger v) {o : Settlement.Op}
    {i : Settlement.Outside × Outside}
    {s' : Store} {r : o.Res} (hc : ProjectsEarned trigger v o v.desk.store)
    (hx : Settlement.exec o i.1 v.desk.store = .ok (r, s'))
    (hcarried : StopsCarried v.desk.store s') {row : Holding} (hrow : row ∈ s'.holdings) :
    Upheld trigger v row := by
  have hcarried' := hcarried row hrow
  cases holdingsAfter hx with
  | same heq =>
      rw [heq] at hrow
      exact h.row hrow
  | deleted heq =>
      rw [heq] at hrow
      exact h.row (Table.mem_delete.1 hrow).1
  | @mutated openLots holding guardKey old row' hget hf heq =>
      rw [heq] at hrow
      rcases Table.mem_put_imp hrow with rfl | hold
      · obtain ⟨hmem, hid⟩ := Table.get?_eq_some_iff.1 hget
        have hkey : recordId row = recordId holding :=
          congrArg holdingRecordId (congrArg (·.asset) hf)
        have hquantity : row.quantity = holding.quantity := congrArg (·.quantity) hf
        have haverage : row.averagePrice = holding.averagePrice := congrArg (·.averagePrice) hf
        have hstop : row.currentStop = old.currentStop := congrArg (·.currentStop) hf
        constructor
        · rw [hkey, hquantity, haverage, hstop]
          exact fun hlong => hc hlong old hget
        · rw [hkey]
          exact fun _ => ⟨old, hmem, hid⟩
      · exact h.row hold
  | @created openLots holding guardKey heq =>
      rw [heq] at hrow
      rcases Table.mem_createOnce.1 hrow with hold | ⟨hadmits, rfl⟩
      · exact h.row hold
      · refine ⟨fun _ hor => ?_, fun hbusy => absurd hbusy hc⟩
        rcases hor with hstop | hbusy
        · rcases hcarried' with hnone | ⟨old, hold, hid, _⟩
          · exact absurd hnone hstop
          · exact absurd hid (hadmits old hold).1
        · exact absurd hbusy hc

/-- What a transaction of a job leaves meets the conditions. -/
theorem Watchful.monitored (h : Watchful trigger v) {k : ℕ} {o : Op}
    {next : Except Raised o.Res → Prog Raised (ResPar Settlement.Op.Res Op.Res) Unit}
    (hp : v.desk.proc (some k) = .step (.inr o) next) {i : Settlement.Outside × Outside}
    {s' : Store} {r : o.Res} (hc : MarksEarned trigger v o v.desk.store)
    (hx : exec o i.2 v.desk.store = .ok (r, s')) {row : Holding} (hrow : row ∈ s'.holdings) :
    Upheld trigger v row := by
  rcases monitor_holdings hx with heq |
    ⟨key, old, row', hget, hasset, hquantity, haverage, -, heq, hhow⟩
  · rw [heq] at hrow
    exact h.row hrow
  · rw [heq] at hrow
    rcases Table.mem_put_imp hrow with rfl | hold
    · obtain ⟨hmem, hid⟩ := Table.get?_eq_some_iff.1 hget
      have hkey : recordId row = recordId old := congrArg holdingRecordId hasset
      constructor
      · rw [hkey, hquantity, haverage]
        rintro hlong (hstop | hbusy)
        · rcases hhow with hsame | ⟨average, isLong, candidate, rfl⟩ | ⟨rfl, hscaled⟩
          · exact h.earned old hmem hlong (hsame ▸ hstop)
          · exact h.earned_of_ratchet hp hmem hid hlong
          · by_cases hunset : old.currentStop = none
            · rw [hid]
              exact hc old hget hlong hscaled hunset
            · exact h.earned old hmem hlong hunset
        · exact (h.row hmem).earned hlong (.inr hbusy)
      · rw [hkey]
        exact (h.row hmem).stood
    · exact h.row hold

end Step

section Step

variable {trigger : ℚ} {v v' : Vigil} {a : DeskAct}

/-- An action that changes no holding, and no job but to let it go on or end. -/
theorem Watchful.quiet (h : Watchful trigger v) {w : Desk}
    (hpasses : Known passing w.store (w.proc none))
    (hreadings : (v.after a w).readings = v.readings)
    (hholdings : w.store.holdings = v.desk.store.holdings)
    (huses : ∀ k A, (v.desk.proc (some k)).Uses A → (w.proc (some k)).Uses A)
    (hbusy : ∀ k, (w.proc (some k)).finished = false → (v.desk.proc (some k)).finished = false) :
    Watchful trigger (v.after a w) := by
  refine h.moved hpasses hreadings (fun key avg hrow he => he.after hrow) huses hbusy ?_
  intro row hrow
  have hrow' : row ∈ w.store.holdings := hrow
  rw [hholdings] at hrow'
  exact h.row hrow'

/-- A job begins, with the holding it has read if it is a ratchet. -/
theorem Watchful.enters (h : Watchful trigger v) {k : ℕ} (seen : List (String × ℚ))
    (read : List Holding) {p : Prog Raised (ResPar Settlement.Op.Res Op.Res) Unit}
    (hseen : ∀ key avg, Earned trigger v.seen key avg → Earned trigger seen key avg)
    (hratchet : ∀ holding ∈ read, p.Uses (OfMonitor (RatchetsOnly holding)))
    (hother : read = [] → p.Uses (OfMonitor Ratchetless))
    (hread : ∀ holding ∈ read, p.finished = false → ∀ row ∈ v.desk.store.holdings,
      recordId row = recordId holding →
        (0 < row.quantity → Earned trigger seen (recordId row) row.averagePrice) ∧
        (0 < holding.quantity → Earned trigger seen (recordId row) holding.averagePrice)) :
    Watchful trigger
      { desk := { v.desk with proc := Function.update v.desk.proc (some k) p }
        seen := seen
        readings :=
          (read.map fun holding => (k, holding)) ++ v.readings.filter fun x => x.1 ≠ k } := by
  have hself : Function.update v.desk.proc (some k) p (some k) = p := Function.update_self _ _ _
  have hproc : ∀ k', k' ≠ k → Function.update v.desk.proc (some k) p (some k')
      = v.desk.proc (some k') := fun k' hne => Function.update_of_ne (by simpa using hne) _ _
  have hsplit : ∀ x ∈ (read.map fun holding => (k, holding)) ++ v.readings.filter fun x => x.1 ≠ k,
      (∃ holding ∈ read, x = (k, holding)) ∨ x ∈ v.readings ∧ x.1 ≠ k := by
    intro x hx
    rcases List.mem_append.1 hx with hnew | hold
    · obtain ⟨holding, hmem, rfl⟩ := List.mem_map.1 hnew
      exact .inl ⟨holding, hmem, rfl⟩
    · exact .inr (by simpa using hold)
  constructor
  · dsimp only
    rw [Function.update_of_ne (by simp)]
    exact h.passes
  · exact fun row hrow hlong hstop => hseen _ _ (h.earned row hrow hlong hstop)
  · intro x hx
    dsimp only at hx ⊢
    rcases hsplit x hx with ⟨holding, hmem, rfl⟩ | ⟨hold, hne⟩
    · rw [hself]
      exact hratchet holding hmem
    · rw [hproc _ hne]
      exact h.ratchets x hold
  · intro k' hk'
    dsimp only at hk' ⊢
    by_cases hk : k' = k
    · subst hk
      rw [hself]
      refine hother (List.eq_nil_iff_forall_not_mem.2 fun holding hmem => ?_)
      exact hk' (k', holding) (List.mem_append_left _ (List.mem_map.2 ⟨holding, hmem, rfl⟩)) rfl
    · rw [hproc _ hk]
      refine h.others k' fun x hx heq => ?_
      have hne : x.1 ≠ k := fun h' => hk (heq.symm.trans h')
      exact hk' x (List.mem_append_right _ (List.mem_filter.2 ⟨hx, by simpa using hne⟩)) heq
  · intro x hx hun row hrow hkey
    dsimp only at hx hun hrow ⊢
    rcases hsplit x hx with ⟨holding, hmem, rfl⟩ | ⟨hold, hne⟩
    · rw [hself] at hun
      exact hread holding hmem hun row hrow hkey
    · rw [hproc _ hne] at hun
      obtain ⟨h₁, h₂⟩ := h.reading x hold hun row hrow hkey
      exact ⟨fun hlong => hseen _ _ (h₁ hlong), fun hlong => hseen _ _ (h₂ hlong)⟩

theorem finished_bind_lift {p : Watch (Option Holding)}
    (h : ((p.bind fun _ => .done ()).lift Sum.inr :
      Prog Raised (ResPar Settlement.Op.Res Op.Res) Unit).finished = false) :
    p.finished = false := by
  cases p with
  | done a => cases h
  | fail e => cases h
  | step o next => rfl

/-- A ratchet begins: where it goes on, break-even was earned over the average price it has read. -/
theorem Watchful.ratchets_start (h : Watchful trigger v) {k : ℕ} {limits : RiskLimits}
    {holding : Holding} {lots : List PositionLot} {price : ℚ}
    (hreads : Reads trigger v.desk.store
      (.start (some k) (.inr (.ratchetStop limits holding lots price)))) :
    Watchful trigger (v.after (.start (some k) (.inr (.ratchetStop limits holding lots price)))
      { v.desk with
        proc := Function.update v.desk.proc (some k)
          (guarded.call (.inr (.ratchetStop limits holding lots price))) }) := by
  obtain ⟨htrigger, hrow⟩ := hreads
  refine h.enters _ [holding] ?_ ?_ (by simp) ?_
  · rintro key avg ⟨x, hx, hkey, hgain⟩
    exact ⟨x, List.mem_cons_of_mem _ hx, hkey, hgain⟩
  · intro _ hmem
    obtain rfl := List.mem_singleton.1 hmem
    exact Prog.Uses.lift (Prog.Uses.bind (fun _ => Prog.uses_done _)
      (uses_ratchetStop limits _ lots price))
  · intro holding' hmem hun row hmemRow hkey
    obtain rfl : holding = holding' := (List.mem_singleton.1 hmem).symm
    obtain ⟨current, hget, hfields⟩ := Option.map_eq_some_iff.1 hrow
    obtain ⟨hcurrent, hid⟩ := Table.get?_eq_some_iff.1 hget
    obtain rfl : row = current := Table.eq_of_recordId hmemRow hcurrent (hkey.trans hid.symm)
    obtain rfl : row = holding := by
      cases row
      cases holding
      cases hfields
      rfl
    have hearned : 0 < row.quantity → Earned trigger ((recordId row, price) :: v.seen)
        (recordId row) row.averagePrice := by
      intro hlong
      rcases ratchetStop_unfinished hlong (finished_bind_lift hun) with hstop | hgain
      · obtain ⟨x, hx, hkey', hgain⟩ := h.earned row hcurrent hlong hstop
        exact ⟨x, List.mem_cons_of_mem _ hx, hkey', hgain⟩
      · rw [htrigger] at hgain
        exact ⟨_, List.mem_cons_self, rfl, hgain⟩
    exact ⟨hearned, hearned⟩

end Step

section Step

variable {trigger : ℚ} {v v' : Vigil} {a : DeskAct}

/-- A job that has gone on: it uses nothing new, and was not finished before. -/
def GoesOn (p p' : Prog Raised (ResPar Settlement.Op.Res Op.Res) Unit) : Prop :=
  (∀ A, p.Uses A → p'.Uses A) ∧ (p'.finished = false → p.finished = false)

theorem GoesOn.refl (p : Prog Raised (ResPar Settlement.Op.Res Op.Res) Unit) : GoesOn p p :=
  ⟨fun _ h => h, id⟩

theorem goesOn_next (o : Settlement.Op ⊕ Op)
    (next : Except Raised (ResPar Settlement.Op.Res Op.Res o) →
      Prog Raised (ResPar Settlement.Op.Res Op.Res) Unit)
    (r : Except Raised (ResPar Settlement.Op.Res Op.Res o)) :
    GoesOn (.step o next) (next r) :=
  ⟨fun _ h => h.2 r, fun _ => rfl⟩

theorem goesOn_done (p : Prog Raised (ResPar Settlement.Op.Res Op.Res) Unit) :
    GoesOn p (.done ()) :=
  ⟨fun _ _ => trivial, fun h => by cases h⟩

theorem goesOn_update {f : Option ℕ → Prog Raised (ResPar Settlement.Op.Res Op.Res) Unit}
    {j : Option ℕ} {p : Prog Raised (ResPar Settlement.Op.Res Op.Res) Unit} (h : GoesOn (f j) p)
    (k : Option ℕ) : GoesOn (f k) (Function.update f j p k) := by
  by_cases hk : k = j
  · subst hk
    rw [Function.update_self]
    exact h
  · rw [Function.update_of_ne hk]
    exact .refl _

theorem known_update_none {f : Option ℕ → Prog Raised (ResPar Settlement.Op.Res Op.Res) Unit}
    {j : Option ℕ} {p : Prog Raised (ResPar Settlement.Op.Res Op.Res) Unit} {s : Store}
    (h : Known passing s (f none)) (hp : j = none → Known passing s p) :
    Known passing s (Function.update f j p none) := by
  by_cases hj : none = j
  · subst hj
    rw [Function.update_self]
    exact hp rfl
  · rw [Function.update_of_ne hj]
    exact h

/-- A job or a pass that goes on while the holdings stay as they are. -/
theorem Watchful.goesOn (h : Watchful trigger v) {w : Desk} {j : Option ℕ}
    {p : Prog Raised (ResPar Settlement.Op.Res Op.Res) Unit}
    (hreadings : (v.after a w).readings = v.readings)
    (hproc : w.proc = Function.update v.desk.proc j p) (hp : GoesOn (v.desk.proc j) p)
    (hpass : j = none → Known passing v.desk.store p)
    (hholdings : w.store.holdings = v.desk.store.holdings) : Watchful trigger (v.after a w) := by
  refine h.quiet ?_ hreadings hholdings (fun k A hA => ?_) fun k hun => ?_
  · rw [hproc]
    exact known_of_any (known_update_none h.passes hpass)
  · rw [hproc]
    exact (goesOn_update hp (some k)).1 A hA
  · rw [hproc] at hun
    exact (goesOn_update hp (some k)).2 hun

theorem Watchful.runs (h : Watchful trigger v) {j : Option ℕ} {i : Settlement.Outside × Outside}
    {w : Desk} (hkeeps : v.Keeps trigger (.run j i))
    (hw : guardedLanes.step v.desk (.run j i) = some w) :
    Watchful trigger (v.after (.run j i) w) := by
  simp only [guardedLanes, Lanes.machine, Lanes.step, Option.map_eq_some_iff] at hw
  obtain ⟨⟨s', p'⟩, hadvance, rfl⟩ := hw
  have hcond : NextMeets (KeepsEarned trigger v j) i v.desk.store (v.desk.proc j) := hkeeps
  cases hproc : v.desk.proc j with
  | done b => simp [hproc, System.advance] at hadvance
  | fail e => simp [hproc, System.advance] at hadvance
  | step o next =>
      rw [hproc] at hcond
      have hc : KeepsEarned trigger v j o i v.desk.store := hcond
      -- what a pass carries over, and that it is still known
      have hpass : j = none → Known passing s' p' ∧ StopsCarried v.desk.store s' := by
        rintro rfl
        have hleft : NextMeets passing.cond i v.desk.store (v.desk.proc none) := by
          rw [hproc]
          cases o with
          | inl o => exact rfl
          | inr o => exact absurd hc id
        obtain ⟨-, hknown, hmoved⟩ := h.passes.advance (Γ := passing) rfl trivial hleft hadvance
        refine ⟨hknown, ?_⟩
        rcases hmoved with rfl | ⟨_, hcarried⟩
        · exact .of_eq rfl
        · exact hcarried
      rw [hproc, System.advance] at hadvance
      cases hx : guarded.exec o i v.desk.store with
      | error e =>
          rw [hx] at hadvance
          obtain ⟨rfl, rfl⟩ : v.desk.store = s' ∧ next (.error e) = p' := by simpa using hadvance
          exact h.goesOn rfl rfl (hproc ▸ goesOn_next o next _) (fun hj => (hpass hj).1) rfl
      | ok q =>
          rw [hx] at hadvance
          obtain ⟨r, t⟩ := q
          obtain ⟨rfl, rfl⟩ : t = s' ∧ next (.ok r) = p' := by simpa using hadvance
          have hgoes : GoesOn (v.desk.proc j) (next (.ok r)) := hproc ▸ goesOn_next o next _
          refine h.moved ?_ rfl (fun key avg hrow he => he.after hrow)
            (fun k A hA => (goesOn_update hgoes (some k)).1 A hA)
            (fun k hun => (goesOn_update hgoes (some k)).2 hun) fun row hrow => ?_
          · exact known_update_none (known_of_any h.passes) fun hj => (hpass hj).1
          · cases j with
            | none =>
                cases o with
                | inl o => exact h.settled hc hx (hpass rfl).2 hrow
                | inr o => exact absurd hc id
            | some k =>
                cases o with
                | inl o => exact absurd hc id
                | inr o => exact h.monitored hproc hc hx hrow

/-- **Every step that meets its condition keeps what was earned.** -/
theorem Watchful.step (h : Watchful trigger v) (hkeeps : v.Keeps trigger a)
    (hstep : (vigil trigger).step v a = some v') : Watchful trigger v' := by
  simp only [vigil, Option.ite_none_right_eq_some, Option.map_eq_some_iff] at hstep
  obtain ⟨hreads, w, hw, rfl⟩ := hstep
  cases a with
  | start j c =>
      simp only [guardedLanes, Lanes.machine, Lanes.step, Option.ite_none_right_eq_some,
        Option.some.injEq] at hw
      obtain ⟨-, rfl⟩ := hw
      cases j with
      | none =>
          have hproc : ∀ k, Function.update v.desk.proc none (guarded.call c) (some k)
              = v.desk.proc (some k) := fun k => Function.update_of_ne (by simp) _ _
          refine h.quiet ?_ rfl rfl (fun k A hA => ?_) fun k hun => ?_
          · dsimp only
            rw [Function.update_self]
            exact known_passing c _
          · dsimp only
            rw [hproc]
            exact hA
          · dsimp only at hun
            rw [hproc] at hun
            exact hun
      | some k =>
          have hother : observation c = none → (guarded.call c).Uses (OfMonitor Ratchetless) →
              Watchful trigger (v.after (.start (some k) c)
                { v.desk with proc := Function.update v.desk.proc (some k) (guarded.call c) }) := by
            intro hobs huses
            have henter := h.enters (k := k) v.seen [] (p := guarded.call c)
              (fun _ _ he => he) (by simp) (fun _ => huses) (by simp)
            simpa [Vigil.after, hobs] using henter
          cases c with
          | inl args =>
              exact hother rfl (Prog.Uses.lift ((Prog.uses_true _).mono fun _ _ => trivial))
          | inr c =>
              cases c with
              | ratchetStop limits holding lots price => exact h.ratchets_start hreads
              | foldLotExtrema lots price =>
                  exact hother rfl (Prog.Uses.lift (uses_call_ratchetless (by simp)))
              | scaleOut holding =>
                  exact hother rfl (Prog.Uses.lift (uses_call_ratchetless (by simp)))
  | run j i => exact h.runs hkeeps hw
  | raise j e =>
      simp only [guardedLanes, Lanes.machine, Lanes.step, Option.map_eq_some_iff] at hw
      obtain ⟨p, hp, rfl⟩ := hw
      cases hproc : v.desk.proc j with
      | done b => simp [hproc, System.interrupt] at hp
      | fail e' => simp [hproc, System.interrupt] at hp
      | step o next =>
          have hpass : j = none → Known passing v.desk.store p := by
            rintro rfl
            exact h.passes.interrupt hp
          obtain rfl : next (.error e) = p := by simpa [hproc, System.interrupt] using hp
          exact h.goesOn rfl rfl (hproc ▸ goesOn_next o next _) hpass rfl
  | crash j =>
      simp only [guardedLanes, Lanes.machine, Lanes.step, Option.some.injEq] at hw
      subst hw
      exact h.goesOn rfl rfl (goesOn_done _) (fun _ => .done passing _) rfl
  | env t =>
      simp only [guardedLanes, Lanes.machine, Lanes.step, Option.map_eq_some_iff] at hw
      obtain ⟨s', hs', rfl⟩ := hw
      have hholdings : s'.holdings = v.desk.store.holdings := by
        have hext := (Option.filter_eq_some_iff.1 hs').1
        cases t with
        | recordFill fill =>
            cases hext
            rfl
        | recordSettlement event =>
            simp only [external, Option.ite_none_right_eq_some] at hext
            cases hext.2
            rfl
        | elsewhere t =>
            cases hext
            rfl
      exact h.quiet (known_of_any h.passes) rfl hholdings (fun _ _ hA => hA) fun _ hun => hun

end Step

/-! ### Ratchets -/

/-- The record of the holding whose stop the job in a lane is about to ratchet. -/
def Vigil.ratcheted? (v : Vigil) (k : ℕ) : Option String :=
  match (v.desk.proc (some k)).next? with
  | some (.inr (.ratchet key _ _ _)) => some key
  | _ => none

theorem Vigil.ratcheted?_eq {v : Vigil} {k : ℕ} {key : String} (h : v.ratcheted? k = some key) :
    ∃ average isLong candidate next,
      v.desk.proc (some k) = .step (.inr (.ratchet key average isLong candidate)) next := by
  unfold Vigil.ratcheted? at h
  cases hp : v.desk.proc (some k) with
  | done a => simp [hp, Prog.next?] at h
  | fail e => simp [hp, Prog.next?] at h
  | step o next =>
      rw [hp] at h
      rcases o with o | o
      · simp [Prog.next?] at h
      · cases o with
        | ratchet key' average isLong candidate =>
            obtain rfl : key' = key := by simpa [Prog.next?] using h
            exact ⟨average, isLong, candidate, next, rfl⟩
        | _ => simp [Prog.next?] at h

/-- Whenever a ratchet changes the live stop of a long holding, break-even was earned over the
average price of the holding, and over the one that the job has read. -/
def EarnedRaises (trigger : ℚ) (v : Vigil) : Prop :=
  ∀ k i v' row row', v.ratcheted? k = some (recordId row) →
    (vigil trigger).step v (.run (some k) i) = some v' →
    row ∈ v.desk.store.holdings → row' ∈ v'.desk.store.holdings → recordId row' = recordId row →
    0 < row.quantity → row'.currentStop ≠ row.currentStop →
      Earned trigger v.seen (recordId row) row.averagePrice ∧
      ∀ x ∈ v.readings, x.1 = k → 0 < x.2.quantity →
        Earned trigger v.seen (recordId row) x.2.averagePrice

/-- **A stop is ratcheted only where break-even was earned, as long as every write meets its
condition.** -/
theorem ratchet_earned {trigger : ℚ} {s₀ : Store} (h₀ : ∀ row ∈ s₀.holdings, row.currentStop = none)
    {v : Vigil}
    (h : (vigil trigger).Reaches (Vigil.Keeps trigger) { desk := ⟨s₀, fun _ => .done ()⟩ } v) :
    EarnedRaises trigger v := by
  have hwatchful : Watchful trigger v :=
    h.invariant (watchful_start h₀) fun _ _ _ hw hk hs => hw.step hk hs
  intro k i v' row row' hnext _ hrow _ _ hlong _
  obtain ⟨average, isLong, candidate, next, hp⟩ := Vigil.ratcheted?_eq hnext
  refine ⟨hwatchful.earned_of_ratchet hp hrow rfl hlong, ?_⟩
  rintro x hx rfl hread
  have huses := hwatchful.ratchets x hx
  rw [hp] at huses
  exact (hwatchful.reading x hx (by rw [hp]; rfl) row hrow huses.1.1).2 hread

/-- Ten shares are bought at 100 and settled, ten more at 120 are on their way. -/
def twoEntries : List Action :=
  [entries [(execution "b1" .buy 10 100 0, 95), (execution "b2" .buy 10 120 1, 95)]] ++
  arrival (execution "b1" .buy 10 100 0) ++ [.start {}] ++ goOn 0 41 { now := 1, uuid := "lot-1" }

/-- The ten shares at 120 are settled. -/
def addOn : List Action :=
  arrival (execution "b2" .buy 10 120 1) ++ [.start {}] ++ goOn 0 41 { now := 2, uuid := "lot-2" }

/-- Nothing happened yet. -/
def unwatched : Vigil := { desk := ⟨{}, fun _ => .done ()⟩ }

/-- The first ratchet, at a gain of five per cent, is about to set the stop to break-even. -/
theorem ratchet_earned_first : ∃ v, EarnedRaises 4 v ∧
    ∃ row ∈ v.desk.store.holdings.rows, v.ratcheted? 0 = some (recordId row) ∧
      row.averagePrice = 100 ∧ row.currentStop = none ∧
      ((vigil 4).step v (.run (some 0) ({}, {}))).any (fun v' =>
        decide (∃ row' ∈ v'.desk.store.holdings.rows, row'.currentStop = some 100)) = true := by
  have hrun : ((vigil 4).runUnder (Vigil.Keeps 4) unwatched (twoEntries.map inPasses)).any (fun u =>
      ((vigil 4).runUnder (Vigil.Keeps 4) u (ratcheted u.desk 105).dropLast).any fun v =>
        decide (∃ row ∈ v.desk.store.holdings.rows, v.ratcheted? 0 = some (recordId row) ∧
          row.averagePrice = 100 ∧ row.currentStop = none ∧
          ((vigil 4).step v (.run (some 0) ({}, {}))).any (fun v' =>
            decide (∃ row' ∈ v'.desk.store.holdings.rows, row'.currentStop = some 100)) = true))
        = true := by
    decide +kernel
  obtain ⟨u, hreach, hrest⟩ := Machine.exists_of_runUnder (P := fun v => _ = true)
    (by simpa using hrun)
  obtain ⟨v, hreach', hrow⟩ := Machine.exists_of_runUnder hrest
  have hempty : ∀ row ∈ ({} : Store).holdings, row.currentStop = none := by
    intro row hmem
    cases hmem
  exact ⟨v, ratchet_earned hempty (hreach.trans hreach'), hrow⟩
/-- **An add-on at a higher price moves the stop above the market**: the stop of ten shares bought
at 100 is ratcheted at 105, ten more are bought at 120, and at 106 the stop is set to the new
average price of 110, which no observed price has reached. -/
theorem ratchet_unearned : ∃ v v', (vigil 4).Reaches (fun _ _ => True) unwatched v ∧
    (vigil 4).step v (.run (some 0) ({}, {})) = some v' ∧ ¬ EarnedRaises 4 v ∧
    ∃ row' ∈ v'.desk.store.holdings.rows, row'.averagePrice = 110 ∧ row'.currentStop = some 110 ∧
      breached row'.quantity 106 row' = true ∧ ∀ x ∈ v'.seen, x.2 < 110 := by
  have hrun : ((vigil 4).run unwatched (twoEntries.map inPasses)).any (fun t =>
      ((vigil 4).run t (ratcheted t.desk 105)).any fun u =>
        ((vigil 4).run u (addOn.map inPasses)).any fun w =>
          ((vigil 4).run w (ratcheted w.desk 106).dropLast).any fun v =>
            ((vigil 4).step v (.run (some 0) ({}, {}))).any fun v' =>
              decide (∃ row ∈ v.desk.store.holdings.rows, ∃ row' ∈ v'.desk.store.holdings.rows,
                (v.ratcheted? 0 = some (recordId row) ∧ recordId row' = recordId row ∧
                  0 < row.quantity ∧ row.currentStop = some 100 ∧
                  ¬ Earned 4 v.seen (recordId row) row.averagePrice) ∧
                row'.averagePrice = 110 ∧ row'.currentStop = some 110 ∧
                breached row'.quantity 106 row' = true ∧ ∀ x ∈ v'.seen, x.2 < 110)) = true := by
    decide +kernel
  obtain ⟨t, hreach₁, hrest⟩ := Machine.exists_of_run (P := fun t => _ = true)
    (by simpa using hrun)
  obtain ⟨u, hreach₂, hrest⟩ := Machine.exists_of_run (P := fun u => _ = true)
    (by simpa using hrest)
  obtain ⟨w, hreach₃, hrest⟩ := Machine.exists_of_run (P := fun w => _ = true)
    (by simpa using hrest)
  obtain ⟨v, hreach₄, hrest⟩ := Machine.exists_of_run (P := fun v => _ = true)
    (by simpa using hrest)
  obtain ⟨v', hstep, hrows⟩ := (Option.any_eq_true _ _).1 hrest
  obtain ⟨row, hrow, row', hrow', ⟨hnext, hid, hlong, hstop, hunearned⟩, hafter⟩ :=
    of_decide_eq_true hrows
  refine ⟨v, _, ((hreach₁.trans hreach₂).trans hreach₃).trans hreach₄, hstep, fun hraises => ?_,
    row', hrow', hafter⟩
  -- the live stop of 100 has changed, so break-even should have been earned over 110
  have hchanged : row'.currentStop ≠ row.currentStop := by
    rw [hafter.2.1, hstop]
    decide +kernel
  exact hunearned (hraises 0 _ _ row row' hnext hstep hrow hrow' hid hlong hchanged).1

end Monitor

end TradePulse
