/-
**Passes whose transactions are labelled with the attempt they belong to.**

What a transaction of a pass means depends on the event it is made for: as the pass listed that
event, and as it claimed it.  Here passes run side by side, each transaction labelled with both, in
a store that anybody else may change in any way between two transactions.

Main definitions:

* `Work`, `Work.learn` — the label;
* `onBehalf`, `labelled` — labelled passes, side by side;
* `AttemptRule` — what has to be shown of the transactions of an attempt.

Main results:

* `AttemptRule.next` — then every transaction of every pass suits its label.
-/

import TradePulse.Process.Labels
import TradePulse.Settlement.Runs

set_option autoImplicit false

namespace TradePulse

namespace Settlement

open Process Storage

/-- What a pass has learned. -/
structure Work where
  listed : Option (List SettlementEvent) := none
  /-- The event it is working on, as it was listed. -/
  event : Option SettlementEvent := none
  /-- The same event, as it was claimed. -/
  claimed : Option SettlementEvent := none

/-- What a pass learns from the answer to a transaction. -/
def Work.learn (g : Work) : (o : Op) → Except Raised o.Res → Work
  | .listByStatuses _, .ok events => { g with listed := some (g.listed.getD events) }
  | .claimIfProcessable id _ _ _, .ok r =>
      { g with
        event := (g.listed.getD []).find? fun e => e.settlementEventId = id
        claimed := r }
  | _, _ => g

/-- The answers that a transaction can give in some store. -/
def Given (o : Op) (r : o.Res) : Prop := ∃ i s s', exec o i s = .ok (r, s')

/-- A transaction and its label. -/
abbrev WorkOp := Work × Op

def onBehalf (args : PassArgs) : Prog Raised (fun o : WorkOp => o.2.Res) Unit :=
  ((processPending args).bind fun _ => .done ()).tag Work.learn {}

/-- Labelled passes; the store may be changed in any way. -/
def labelledSystem : System Store Outside Raised PassArgs (Store → Store)
    (fun o : WorkOp => o.2.Res) where
  exec o := exec o.2
  call := onBehalf
  env change s := some (change s)

/-- Labelled passes, side by side. -/
abbrev LabelledPool := Pool Store Raised fun o : WorkOp => o.2.Res

def labelled : Machine LabelledPool (Act Outside Raised PassArgs (Store → Store)) :=
  Pool.machine labelledSystem

theorem gives_labelledSystem : labelledSystem.Gives fun (o : WorkOp) r => Given o.2 r :=
  fun _ i s _ s' hx => ⟨i, s, s', hx⟩

/-! ### Labels during an attempt -/

/-- No transaction but the claim changes which event a pass works on. -/
def Op.NoClaim : Op → Prop
  | .claimIfProcessable _ _ _ _ => False
  | _ => True

theorem learn_of_noClaim {g : Work} {events : List SettlementEvent} (hlisted : g.listed = some events)
    {o : Op} (ho : o.NoClaim) (r : Except Raised o.Res) : g.learn o r = g := by
  cases o with
  | claimIfProcessable id now stale force => exact absurd ho not_false
  | listByStatuses statuses =>
      cases r with
      | error e => rfl
      | ok rows =>
          cases g
          simp only at hlisted
          simp [Work.learn, hlisted]
  | _ => rfl

theorem uses_noClaim {α : Type} {parts : List Part} {p : Settle α} (hp : p.Uses (Op.WritesIn parts))
    (hparts : Part.settlements ∉ parts) : p.Uses Op.NoClaim := by
  refine hp.mono fun o ho => ?_
  cases o with
  | claimIfProcessable id now stale force => exact absurd (ho .settlements rfl) hparts
  | _ => trivial

theorem find?_listed {events : List SettlementEvent} {e : SettlementEvent} (he : e ∈ events)
    (hids : ∀ a ∈ events, a.settlementEventId = e.settlementEventId → a = e) :
    (events.find? fun a => a.settlementEventId = e.settlementEventId) = some e := by
  cases hfind : events.find? fun a => a.settlementEventId = e.settlementEventId with
  | none => exact absurd (List.find?_eq_none.1 hfind e he) (by simp)
  | some a =>
      have hid : a.settlementEventId = e.settlementEventId := by
        simpa using List.find?_some hfind
      rw [hids a (List.mem_of_find?_eq_some hfind) hid]

/-- The reason that the record of a failure stops trading with. -/
def failureReason (failure : ClassifiedFailure) : String :=
  if failure.status = .integrityBlocked
  then "Settlement integrity blocked: " ++ failure.error
  else "Settlement permanently failed for a real broker fill: " ++ failure.error

/-- What has to be shown of the transactions of an attempt: `A` says which transactions suit a
label, and `P` what is known of the state of a claimed event while its stages run. -/
structure AttemptRule (A : Work → Op → Prop) (P : SettlementEvent → SettlementEvent → Prop) :
    Prop where
  reads : ∀ g o, o.writes = none → A g o
  claims : ∀ g id now stale force, A g (.claimIfProcessable id now stale force)
  claimed : ∀ c, c.status = .processing → P c c
  after : ∀ c state st r state', P c state →
    state'.toSettlementEventFields = afterStage state st r → P c state'
  stage : ∀ g c state st, g.claimed = some c → P c state → (handlers st state).Uses (A g)
  mark : ∀ g c state, g.claimed = some c → P c state → A g (.checkpoint state)
  done : ∀ g c state d, g.claimed = some c → P c state → doneEvent state = .ok d →
    A g (.checkpoint d)
  fail : ∀ g e c exc now d, g.event = some e → g.claimed = some c →
    failedEvent c (classifySettlementFailure e.attemptCount exc now) = .ok d → A g (.checkpoint d)
  latch : ∀ g e c exc now clock, g.event = some e → g.claimed = some c →
    (classifySettlementFailure e.attemptCount exc now).status = .integrityBlocked ∨
      (classifySettlementFailure e.attemptCount exc now).status = .terminalFailed →
    A g (.latchFinancialIntegrityBlock
      (failureReason (classifySettlementFailure e.attemptCount exc now)) clock)

namespace AttemptRule

variable {A : Work → Op → Prop} {P : SettlementEvent → SettlementEvent → Prop} {α : Type}
  {g : Work} {events : List SettlementEvent} {c e : SettlementEvent}

theorem constant (hlisted : g.listed = some events) {p : Settle α} (hclaim : p.Uses Op.NoClaim)
    (hp : p.Uses (A g)) : p.Along Work.learn Given A g (fun g' _ => g' = g) fun g' _ => g' = g := by
  refine Prog.Along.of_uses (I := (· = g)) (fun g' o hg ho => ?_) (fun g' o r hg ho => ?_) rfl
    (hclaim.and hp)
  · exact hg ▸ ho.2
  · subst hg
    exact learn_of_noClaim hlisted ho.1 r

theorem one (hlisted : g.listed = some events) {o : Op} (ho : A g o) (hclaim : o.NoClaim) :
    (perform o).Along Work.learn Given A g (fun g' _ => g' = g) fun g' _ => g' = g :=
  constant hlisted ((Prog.uses_perform o).2 hclaim) ((Prog.uses_perform o).2 ho)

theorem then_ (hlisted : g.listed = some events) {o : Op} (ho : A g o) (hclaim : o.NoClaim)
    {f : o.Res → Settle α} {Q : Work → α → Prop}
    (hf : ∀ r, (f r).Along Work.learn Given A g Q fun g' _ => g' = g) :
    (Prog.bind (perform o) f).Along Work.learn Given A g Q fun g' _ => g' = g :=
  Prog.Along.bind (fun _ r hg => hg ▸ hf r) (one hlisted ho hclaim)

variable (h : AttemptRule A P)
include h

theorem runSettlementStages (hlisted : g.listed = some events) (hclaimed : g.claimed = some c)
    (hc : P c c) :
    (TradePulse.runSettlementStages c handlers fun e => perform (.checkpoint e)).Along
      Work.learn Given A g (fun g' state => g' = g ∧ P c state) fun g' _ => g' = g := by
  refine Prog.Along.foldEach (fun g' state st _ hstate => ?_) ⟨rfl, hc⟩
  obtain ⟨rfl, hstate⟩ := hstate
  unfold runStage
  split
  · exact ⟨rfl, hstate⟩
  · have hstage : (handlers st state).Uses Op.NoClaim :=
      uses_noClaim (uses_handlers st state) (settlements_notMem_stageWrites st)
    refine Prog.Along.bind (fun g₁ result hg => ?_)
      (constant hlisted hstage (h.stage g' c state st hclaimed hstate))
    subst hg
    refine Prog.Along.bind (Q := fun g' state' => g' = g₁ ∧ P c state') ?_
      (Prog.Along.ofExcept (fun state' hmake => ⟨rfl, ?_⟩) fun _ _ => rfl)
    · rintro g₂ state' ⟨rfl, hstate'⟩
      exact then_ hlisted (h.mark g₂ c state' hclaimed hstate') trivial fun _ => ⟨rfl, hstate'⟩
    · exact h.after c state st result state' hstate (SettlementEvent.make_eq_ok_iff.1 hmake)

theorem attempt (hlisted : g.listed = some events) (hclaimed : g.claimed = some c)
    (hc : c.status = .processing) :
    (attempt c).Along Work.learn Given A g (fun g' _ => g' = g) fun g' _ => g' = g := by
  have hverify : (verifyIntegrity c false).Uses (Op.WritesIn []) := uses_verifyIntegrity c false
  have hreads : (verifyIntegrity c false).Uses (A g) := hverify.mono fun o ho => by
    refine h.reads g o (Option.eq_none_iff_forall_not_mem.2 fun p hp => ?_)
    exact List.not_mem_nil (ho p hp)
  refine Prog.Along.bind (fun g₁ _ hg => ?_)
    (constant hlisted (uses_noClaim hverify (by simp)) hreads)
  subst hg
  refine Prog.Along.bind (fun g₂ final hfinal => ?_)
    (h.runSettlementStages hlisted hclaimed (h.claimed c hc))
  obtain ⟨rfl, hfinal⟩ := hfinal
  refine Prog.Along.bind (Q := fun g' d => g' = g₂ ∧ doneEvent final = .ok d) ?_
    (Prog.Along.ofExcept (fun d hd => ⟨rfl, hd⟩) fun _ _ => rfl)
  rintro g₃ d ⟨rfl, hd⟩
  exact one hlisted (h.done g₃ c final d hclaimed hfinal hd) trivial

theorem recordFailure (hlisted : g.listed = some events) (hevent : g.event = some e)
    (hclaimed : g.claimed = some c) (exc : Raised) (now : Instant) :
    (recordFailure e c exc now).Along Work.learn Given A g (fun g' _ => g' = g)
      fun g' _ => g' = g := by
  refine Prog.Along.bind (Q := fun g' d => g' = g ∧
      failedEvent c (classifySettlementFailure e.attemptCount exc now) = .ok d) ?_
    (Prog.Along.ofExcept (fun d hd => ⟨rfl, hd⟩) fun _ _ => rfl)
  rintro g₁ d ⟨rfl, hd⟩
  refine then_ hlisted (h.fail g₁ e c exc now d hevent hclaimed hd) trivial fun _ => ?_
  split
  · rename_i hstatus
    refine then_ hlisted (h.reads g₁ .sendAlert rfl) trivial fun _ => ?_
    refine then_ hlisted (h.reads g₁ .clock rfl) trivial fun clock => ?_
    exact then_ hlisted (h.latch g₁ e c exc now clock hevent hclaimed hstatus) trivial fun _ => rfl
  · rfl

theorem processEvent (hlisted : g.listed = some events) (he : e ∈ events)
    (hids : ∀ a ∈ events, a.settlementEventId = e.settlementEventId → a = e) (now : Instant)
    (stale : ℕ) (force : Bool) (counts : BatchCounts) :
    (processEvent now stale force counts e).Along Work.learn Given A g
      (fun g' _ => g'.listed = some events) fun _ _ => True := by
  have weaken : ∀ {β : Type} {p : Settle β} {g₁ : Work}, g₁.listed = some events →
      p.Along Work.learn Given A g₁ (fun g' _ => g' = g₁) (fun g' _ => g' = g₁) →
      p.Along Work.learn Given A g₁ (fun g' _ => g'.listed = some events) fun _ _ => True :=
    fun hl hp => hp.mono (fun _ _ hg => hg ▸ hl) fun _ _ _ => trivial
  refine Prog.Along.bind (fun g₁ lost hl => ?_)
    (weaken hlisted (one hlisted (h.reads g .leaseLost rfl) trivial))
  cases lost with
  | true => exact hl
  | false =>
      refine Prog.Along.bind (Q := fun g' r => g'.listed = some events ∧ ∀ c, r = some c →
          g'.event = some e ∧ g'.claimed = some c ∧ c.status = .processing) (fun g₂ r hr => ?_) ?_
      · obtain ⟨hl₂, hr⟩ := hr
        cases r with
        | none => exact hl₂
        | some c =>
            obtain ⟨hevent, hclaimed, hc⟩ := hr c rfl
            refine Prog.Along.tryCatch (F := fun g' _ => g' = g₂) (fun g₃ exc hg => ?_) ?_
            · subst hg
              exact Prog.Along.bind (fun _ _ hl => hl)
                (weaken hl₂ (h.recordFailure hl₂ hevent hclaimed exc now))
            · exact Prog.Along.bind (fun _ _ hg => hg ▸ hl₂) (h.attempt hl₂ hclaimed hc)
      · refine Prog.Along.perform (h.claims _ _ _ _ _) (fun r hgiven => ?_) fun _ => trivial
        refine ⟨hl, fun c hc => ?_⟩
        subst hc
        obtain ⟨i, s, s', hx⟩ := hgiven
        rcases claimIfProcessable_ok hx with ⟨hnone, -⟩ | ⟨current, c', -, -, hf, hsome, -⟩
        · cases hnone
        · cases hsome
          refine ⟨?_, rfl, congrArg (·.status) hf⟩
          rw [← find?_listed he hids]
          simp only [Work.learn, hl, Option.getD_some]

/-- **A pass.** -/
theorem processPending (args : PassArgs) :
    (processPending args).Along Work.learn Given A {} (fun _ _ => True) fun _ _ => True := by
  refine Prog.Along.bind (Q := fun g' _ => g' = {}) (fun g₁ now hg => ?_)
    (Prog.Along.perform (h.reads _ .clock rfl) (fun _ _ => rfl) fun _ => trivial)
  subst hg
  refine Prog.Along.bind (Q := fun g' events => g'.listed = some events ∧
      ∀ a ∈ events, ∀ b ∈ events, a.settlementEventId = b.settlementEventId → a = b)
    (fun g₂ events hg => ?_) ?_
  · obtain ⟨hlisted, hids⟩ := hg
    refine Prog.Along.bind (Q := fun g' _ => g'.listed = some events) (fun g₃ counts hl => ?_) ?_
    · refine Prog.Along.bind (Q := fun _ _ => True) (fun g₄ unresolved _ => ?_)
        (Prog.Along.perform (h.reads _ (.listByStatuses _) rfl) (fun _ _ => trivial)
          fun _ => trivial)
      exact (trivial : True)
    · refine Prog.Along.foldEach (fun g₃ counts e he hl => ?_) hlisted
      have hmem : e ∈ events := by
        have hsorted := List.mem_of_mem_take he
        rw [List.mem_insertionSort] at hsorted
        exact List.mem_of_mem_filter hsorted
      exact h.processEvent hl hmem (fun a ha hid => hids a ha e hmem hid) now _ _ counts
  · refine Prog.Along.perform (h.reads _ (.listByStatuses _) rfl) (fun events hgiven => ?_)
      fun _ => trivial
    refine ⟨rfl, fun a ha b hb hid => ?_⟩
    obtain ⟨i, s, s', hx⟩ := hgiven
    cases hx
    exact Table.eq_of_recordId (List.mem_of_mem_filter ha) (List.mem_of_mem_filter hb) hid

/-- **Every transaction of every pass suits its label**, in every interleaving of passes with each
other and with anything that happens to the store. -/
theorem next {s₀ : Store} {w : LabelledPool} (hr : labelled.Reaches (fun _ _ => True) ⟨s₀, []⟩ w)
    {j : ℕ} {o : Op} (hnext : (w.procs[j]?).bind Prog.next? = some (g, o)) : A g o := by
  have hcall : ∀ args, (onBehalf args).UsesOn (fun (o : WorkOp) r => Given o.2 r)
      fun o : WorkOp => A o.1 o.2 := by
    intro args
    have hpass : ((TradePulse.Settlement.processPending args).bind fun _ => Prog.done ()).Along
        Work.learn Given A {} (fun _ _ => True) fun _ _ => True := by
      refine Prog.Along.bind (fun g' _ _ => ?_) (h.processPending args)
      exact (trivial : True)
    exact hpass.usesOn_tag
  exact Pool.next_of_reaches (A := fun o : WorkOp => A o.1 o.2) gives_labelledSystem hcall hr hnext

end AttemptRule

end Settlement

end TradePulse
