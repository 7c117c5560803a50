/-
**Stage progress over attempts that fail and crash.**

An attempt checkpoints the event after each stage, so that the next attempt resumes at the first
stage that is not done.  The record of a failed attempt is written from the event as it was
claimed: where stages were checkpointed since the claim, it takes their flags back.

Main definitions:

* `Unstaged` — the record of a failure finds the progress that the attempt began with;
* `Advances` — no event disappears and no progress is undone.

Main results:

* `progress_never_undone` — in runs where failures are recorded so, no progress is ever undone and
  a retry resumes no earlier than before;
* `progress_undone` — a failure after the first stage takes its flag back.
-/

import TradePulse.Settlement.Runs

set_option autoImplicit false

namespace TradePulse

namespace Settlement

open Process Storage

/-- The record of a failed attempt finds the progress that it writes. -/
def Unstaged : Op → Outside → Store → Prop
  | .checkpoint event, _, s => event.status = .processing ∨ event.status = .completed ∨
      ∀ row ∈ s.settlements, row.settlementEventId = event.settlementEventId →
        row.toSettlementProgress = event.toSettlementProgress
  | _, _, _ => True

instance (o : Op) (i : Outside) (s : Store) : Decidable (Unstaged o i s) := by
  apply Op.casesOn (motive := fun o => Decidable (Unstaged o i s)) o
  case checkpoint =>
    intro event
    exact inferInstanceAs (Decidable (_ ∨ _ ∨ ∀ row ∈ s.settlements, _))
  all_goals
    intros
    exact isTrue trivial

/-- Every event stays, and none of its progress is undone. -/
def Advances (s s' : Store) : Prop :=
  ∀ row ∈ s.settlements, ∃ row' ∈ s'.settlements,
    row'.settlementEventId = row.settlementEventId ∧
      row.toSettlementProgress.Le row'.toSettlementProgress

theorem Advances.refl (s : Store) : Advances s s :=
  fun row hrow => ⟨row, hrow, rfl, .refl _⟩

theorem Advances.trans {s t u : Store} (h : Advances s t) (h' : Advances t u) : Advances s u := by
  intro row hrow
  obtain ⟨row', hrow', hid, hle⟩ := h row hrow
  obtain ⟨row'', hrow'', hid', hle'⟩ := h' row' hrow'
  exact ⟨row'', hrow'', hid'.trans hid, hle.trans hle'⟩

theorem Advances.of_eq {s s' : Store} (h : s'.settlements = s.settlements) : Advances s s' := by
  intro row hrow
  rw [h]
  exact ⟨row, hrow, rfl, .refl _⟩

/-- Writing an event that has come no less far than its row. -/
theorem Advances.put {s : Store} {event : SettlementEvent}
    (h : ∀ row ∈ s.settlements, row.settlementEventId = event.settlementEventId →
      row.toSettlementProgress.Le event.toSettlementProgress) :
    Advances s { s with settlements := s.settlements.put event } := by
  intro row hrow
  by_cases hkeys : SameKeys row event
  · exact ⟨event, Table.mem_put_self hrow hkeys, hkeys.1.symm, h row hrow hkeys.1⟩
  · exact ⟨row, Table.mem_put_of_not_sameKeys hrow hkeys, rfl, .refl _⟩

/-- The setting of attempts: between two transactions of a pass, events are only added. -/
def advancing : Setting Store Outside Raised Op.Res where
  exec := exec
  inv _ := True
  rely s s' := ∀ row ∈ s.settlements, row ∈ s'.settlements
  cond := Unstaged
  guar _ s s' := Advances s s'

/-- The row of the event has the progress of the attempt. -/
def Kept (state : SettlementEvent) (s : Store) : Prop :=
  ∃ row ∈ s.settlements, row.toSettlementFacts = state.toSettlementFacts ∧
    row.toSettlementProgress = state.toSettlementProgress

theorem stable_kept (state : SettlementEvent) : advancing.Stable (Kept state) := by
  rintro s s' - - ⟨row, hrow, hrest⟩ hr
  exact ⟨row, hr row hrow, hrest⟩

theorem Kept.put {state event : SettlementEvent} {s : Store} (h : Kept state s)
    (hfacts : event.toSettlementFacts = state.toSettlementFacts)
    (hle : state.toSettlementProgress.Le event.toSettlementProgress) :
    Advances s { s with settlements := s.settlements.put event } ∧
      Kept event { s with settlements := s.settlements.put event } := by
  obtain ⟨row, hrow, hrf, hprogress⟩ := h
  have hboth : row.toSettlementFacts = event.toSettlementFacts := hrf.trans hfacts.symm
  have hkeys : SameKeys row event :=
    ⟨congrArg (·.settlementEventId) hboth, congrArg (fun f => some f.fillId) hboth⟩
  constructor
  · refine Advances.put fun row' hrow' hid => ?_
    rw [Table.eq_of_recordId hrow' hrow (hid.trans hkeys.1.symm), hprogress]
    exact hle
  · exact ⟨event, Table.mem_put_self hrow hkeys, rfl, rfl⟩

theorem sat_kept {α : Type} {p : Settle α} {parts : List Part} (state : SettlementEvent)
    (hp : p.Uses (Op.WritesIn parts)) (hparts : Part.settlements ∉ parts) :
    Sat advancing p (Kept state) (fun _ => Kept state) (fun _ => Kept state) := by
  refine Sat.of_uses (stable_kept state) (fun o i s r s' ho _ hk _ hx => ?_) hp
  have hsame : s'.settlements = s.settlements :=
    exec_frame hx .settlements fun hw => hparts (ho _ hw)
  refine ⟨trivial, .of_eq hsame, ?_⟩
  unfold Kept
  rw [hsame]
  exact hk

theorem sat_handlers (state : SettlementEvent) (st : Stage) :
    Sat advancing (handlers st state) (Kept state)
      (fun r s => (st ≠ .projectLot → r = none) ∧ Kept state s) (fun _ => Kept state) := by
  have hevents := settlements_notMem_stageWrites st
  have quiet : ∀ {p : Settle Unit}, p.Uses (Op.WritesIn (stageWrites st)) →
      Sat advancing (p.bind fun _ => Prog.done (none : Option ℚ)) (Kept state)
        (fun r s => (st ≠ .projectLot → r = none) ∧ Kept state s) (fun _ => Kept state) :=
    fun hp => Sat.bind_of (sat_kept state hp hevents) fun _ s _ hk => ⟨fun _ => rfl, hk⟩
  cases st with
  | projectLot =>
      exact (sat_kept state (uses_projectLot state) hevents).mono (fun _ _ hk => hk)
        (fun _ _ _ hk => ⟨fun h => absurd rfl h, hk⟩) fun _ _ _ hk => hk
  | projectAttribution => exact quiet (uses_projectAttribution state)
  | projectCash => exact quiet (uses_performWrite rfl)
  | projectHolding => exact quiet (uses_projectHolding state)
  | projectTrade =>
      refine Sat.bind_of (sat_kept state (uses_performWrite rfl) (by decide)) fun _ => quiet ?_
      exact (uses_projectTrade state).mono fun _ => Op.WritesIn.mono (by simp [stageWrites])
  | verifyIntegrity => exact quiet (uses_verifyIntegrity state true)
  | projectLiabilityHold => exact quiet (uses_projectLiabilityHold state)

/-- What is known during an attempt: the row has the progress of the attempt. -/
def keeping : PassKnowledge Store where
  running _ state := Kept state
  staged _ state st r s := (st ≠ .projectLot → r = none) ∧ Kept state s
  failed _ _ := True

theorem holds_keeping : keeping.Holds advancing where
  quiet o ho := by
    refine (Sat.of_uses (.const True) (fun o i s r s' ho _ _ _ hx => ?_)
      ((Prog.uses_perform o).2 ho)).mono (fun _ _ h => h) (fun _ _ _ _ => trivial)
      fun _ _ _ _ => trivial
    have hsame : s'.settlements = s.settlements :=
      exec_frame hx .settlements fun hw => absurd (ho _ hw) (by decide)
    exact ⟨trivial, .of_eq hsame, trivial⟩
  claim id now stale force := by
    refine Sat.perform (fun r => .all fun c => .imp fun _ => stable_kept c) (.const True)
      (fun _ _ _ _ => trivial) fun i s r s' _ _ _ hx => ?_
    rcases claimIfProcessable_ok hx with ⟨rfl, rfl⟩ | ⟨current, c, hget, -, hf, rfl, rfl⟩
    · exact ⟨trivial, .refl _, by simp⟩
    · -- the claim changes the lifecycle of the event only
      obtain ⟨hrow, -⟩ := Table.get?_eq_some_iff.1 hget
      have hfacts : c.toSettlementFacts = current.toSettlementFacts :=
        congrArg (·.toSettlementFacts) hf
      have hprogress : c.toSettlementProgress = current.toSettlementProgress :=
        congrArg (·.toSettlementProgress) hf
      have hkept : Kept current s := ⟨current, hrow, rfl, rfl⟩
      obtain ⟨hadv, hkept'⟩ := hkept.put hfacts (hprogress ▸ .refl _)
      refine ⟨trivial, hadv, ?_⟩
      rintro c' hc'
      cases hc'
      exact hkept'
  verify c := by
    have hreads : (verifyIntegrity c false).Uses (Op.WritesIn []) := uses_verifyIntegrity c false
    exact (sat_kept c hreads (by simp)).mono (fun _ _ hk => hk) (fun _ _ _ hk => hk)
      fun _ _ _ _ => trivial
  stage c state st _ _ := (sat_handlers state st).mono (fun _ _ hk => hk) (fun _ _ _ hr => hr)
    fun _ _ _ _ => trivial
  mark c state st r state' hflag _ hstate' := by
    have hfacts : state'.toSettlementFacts = state.toSettlementFacts :=
      congrArg (·.toSettlementFacts) hstate'
    have hprogress : state'.toSettlementProgress = (afterStage state st r).toSettlementProgress :=
      congrArg (·.toSettlementProgress) hstate'
    refine Sat.perform (fun _ => stable_kept state')
      ((Setting.Stable.const _).and (stable_kept state)) (fun _ _ _ _ => trivial)
      fun i s r' s' _ hk _ hx => ?_
    obtain ⟨hresult, hkept⟩ := hk
    obtain ⟨-, -, rfl⟩ := checkpoint_ok hx
    obtain ⟨hadv, hkept'⟩ := hkept.put hfacts (hprogress ▸ le_afterStage hflag hresult)
    exact ⟨trivial, hadv, hkept'⟩
  done c state d hd := by
    have hf := SettlementEvent.make_eq_ok_iff.1 hd
    have hfacts : d.toSettlementFacts = state.toSettlementFacts :=
      congrArg (·.toSettlementFacts) hf
    have hprogress : d.toSettlementProgress = state.toSettlementProgress :=
      congrArg (·.toSettlementProgress) hf
    refine Sat.perform (fun _ => .const True) (stable_kept state) (fun _ _ _ _ => trivial)
      fun i s r s' _ hk _ hx => ?_
    obtain ⟨-, -, rfl⟩ := checkpoint_ok hx
    exact ⟨trivial, (hk.put hfacts (hprogress ▸ .refl _)).1, trivial⟩
  fail c failure d hfailure hd := by
    have hf := SettlementEvent.make_eq_ok_iff.1 hd
    have hstatus : d.status = failure.status := congrArg (·.status) hf
    refine Sat.perform (fun _ => .const True) (.const True) (fun _ _ _ _ => trivial)
      fun i s r s' _ _ hc hx => ?_
    obtain ⟨-, -, rfl⟩ := checkpoint_ok hx
    refine ⟨trivial, Advances.put fun row hrow hid => ?_, trivial⟩
    rcases hc with hc | hc | hc
    · rw [hstatus] at hc
      rcases hfailure with h | h | h <;> rw [h] at hc <;> cases hc
    · rw [hstatus] at hc
      rcases hfailure with h | h | h <;> rw [h] at hc <;> cases hc
    · rw [hc row hrow hid]
      exact .refl _
  running_failed _ _ _ _ := trivial
  staged_failed _ _ _ _ _ _ := trivial

theorem sound_advancing : Solo.Sound system advancing where
  exec := rfl
  env _ _ _ _ ht := ⟨trivial, mem_settlements_of_external ht⟩
  call args s _ := known_of_safe (holds_keeping.processPending args) s

/-- **Progress is never undone.**  In every run of passes, failing and crashing anywhere, in which
failures are recorded over the progress their attempt began with: every event stays, its flags stay
set, its profit stays as it is, and what a retry has to do is the end of what an earlier one had to
do. -/
theorem progress_never_undone {s₀ : Store} {w w' : Solo Store Raised Op.Res}
    (h : sequential.Reaches (Solo.Meets Unstaged) ⟨s₀, .done ()⟩ w)
    (h' : sequential.Reaches (Solo.Meets Unstaged) w w') :
    ∀ e ∈ w.store.settlements, ∃ e' ∈ w'.store.settlements,
      e'.settlementEventId = e.settlementEventId ∧
        e.toSettlementProgress.Le e'.toSettlementProgress ∧ e'.remaining <:+ e.remaining := by
  have hgood : Solo.Good advancing w := sound_advancing.good (Solo.good_init trivial) h
  have hmoves : Advances w.store w'.store := by
    refine sound_advancing.moves hgood Advances.refl (fun _ _ _ => .trans) ?_ h'
    rintro s s' - - (rfl | ⟨_, hg⟩ | ⟨t, ht⟩)
    · exact .refl _
    · exact hg
    · exact fun row hrow => ⟨row, mem_settlements_of_external ht row hrow, rfl, .refl _⟩
  intro e he
  obtain ⟨e', he', hid, hle⟩ := hmoves e he
  exact ⟨e', he', hid, hle, hle.remaining_suffix⟩

/-- An attempt at a purchase that crashes after its first checkpoint. -/
def crashedAfterLot : List Action :=
  arrival (execution "b1" .buy 4 10 0) ++ [.start {}] ++ goOn 0 14 { now := 1, uuid := "lot-1" } ++
    [.crash 0]

/-- The attempt that takes it over. -/
def takenOver : List Action := [.start {}] ++ goOn 0 12 { now := seconds 200 }

/-- The attempt that takes over finds the lot projected and goes on from there. -/
theorem progress_never_undone_takenOver : ∃ w w' : Solo Store Raised Op.Res,
    (∃ e ∈ w.store.settlements.rows, e.lotProjected = true ∧ e.attributionProjected = false) ∧
      (∃ e ∈ w'.store.settlements.rows, e.attributionProjected = true) ∧
        ∀ e ∈ w.store.settlements, ∃ e' ∈ w'.store.settlements,
          e'.settlementEventId = e.settlementEventId ∧
            e.toSettlementProgress.Le e'.toSettlementProgress ∧ e'.remaining <:+ e.remaining := by
  have hrun : (sequential.runUnder (Solo.Meets Unstaged) ⟨{}, .done ()⟩ crashedAfterLot).any
      (fun w => decide ((∃ e ∈ w.store.settlements.rows,
          e.lotProjected = true ∧ e.attributionProjected = false) ∧
        (sequential.runUnder (Solo.Meets Unstaged) w takenOver).any (fun w' =>
          decide (∃ e ∈ w'.store.settlements.rows, e.attributionProjected = true)) = true))
        = true := by
    decide +kernel
  obtain ⟨w, hreach, hlot, hrest⟩ := Machine.exists_of_runUnder hrun
  obtain ⟨w', hreach', hattribution⟩ := Machine.exists_of_runUnder hrest
  exact ⟨w, w', hlot, hattribution, progress_never_undone hreach hreach'⟩

/-- **A failure takes progress back**: the record of a failed attempt is written from the event as
it was claimed. -/
theorem progress_undone : ∃ w w' : Solo Store Raised Op.Res,
    sequential.Reaches (fun _ _ => True) ⟨{}, .done ()⟩ w ∧
      sequential.Reaches (fun _ _ => True) w w' ∧
        (∃ e ∈ w.store.settlements.rows, e.fillId = "b1" ∧ e.lotProjected = true) ∧
          ∃ e' ∈ w'.store.settlements.rows, e'.fillId = "b1" ∧ e'.lotProjected = false := by
  have hrun : (sequential.run ⟨{}, .done ()⟩ (arrival (execution "b1" .buy 4 10 0) ++ [.start {}] ++
      goOn 0 14 { now := 1, uuid := "lot-1" })).any (fun w =>
        decide ((∃ e ∈ w.store.settlements.rows, e.fillId = "b1" ∧ e.lotProjected = true) ∧
          (sequential.run w ([.raise 0 ⟨.other, "disk I/O error"⟩] ++ goOn 0 1 { now := 2 })).any
            (fun w' => decide (∃ e' ∈ w'.store.settlements.rows,
              e'.fillId = "b1" ∧ e'.lotProjected = false)) = true)) = true := by
    decide +kernel
  obtain ⟨w, hreach, hlot, hrest⟩ := Machine.exists_of_run hrun
  obtain ⟨w', hreach', hundone⟩ := Machine.exists_of_run hrest
  exact ⟨w, w', hreach, hreach', hlot, hundone⟩

end Settlement

end TradePulse
