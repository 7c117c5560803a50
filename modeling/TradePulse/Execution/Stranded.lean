/-
**The sweep commits on current evidence only** (`reconciliation/coordinator.py`).

What a sweep writes about an intent was decided on what it read before two calls of the broker.  In
the transaction of the write everything it relied on is looked at again: the leases, the whole row,
and the holds.  However the steps of sweeps interleave, with each other and with anything else that
writes to the tables and the locks, an intent and a correction are written together on current
evidence, or neither is.

A sweep takes its candidates one after the other, and what fails for one of them stays with it.

Main definitions:

* `Agent`, `Agent.learn` — what a call has learned: its reservation, the row it read, the broker's
  answer;
* `Allowed`, `DecidedOn` — what a call may do next, and what a commit was decided on;
* `Current`, `Committed` — the evidence that is looked at in the transaction, and what it writes.

Main results:

* `commitStranded_ok` — what the transaction does;
* `recoverStrandedIntents_along` — what a sweep does, and that it comes to every candidate;
* `stranded_committed_on_current_evidence` — **no commit without current evidence, in any run**.
-/

import TradePulse.Execution.Submission
import TradePulse.Process.Agents

set_option autoImplicit false

namespace TradePulse

namespace Submission

open Storage Process Persistence

/-! ### What a call has learned -/

/-- What a call has learned. -/
structure Agent where
  /-- Whether it is a sweep, and not an execution. -/
  sweeping : Bool
  /-- The lease of the reconciliation that a sweep runs under. -/
  lease : Option (String × String) := none
  /-- The asset that an execution is asked for. -/
  assetKey : String := ""
  /-- The asset it has reserved, and with which token. -/
  reservation : Option (String × String) := none
  listed : List IntentRow := []
  candidate : Option String := none
  /-- The row that was read under the reservation, and the broker's answer about it. -/
  row : Option IntentRow := none
  order : Option (Option BrokerOrder) := none
  /-- The row that an execution found or created. -/
  known : Option IntentRow := none
  intent : Option String := none
  /-- The reservation was verified for the last time, and the broker has answered. -/
  cleared : Bool := false
  answered : Bool := false
  /-- The candidates that could not be reserved, and those whose row was read again. -/
  passedOver : List String := []
  reread : List String := []
  lost : Bool := false
  deriving DecidableEq

/-- Nothing is known of the asset, or of the intent, any more. -/
def Agent.reset (g : Agent) (reservation : Option (String × String)) (candidate : Option String) :
    Agent :=
  { g with
    reservation := reservation
    candidate := candidate
    row := none
    order := none
    known := none
    intent := none
    cleared := false
    answered := false }

def Agent.learn (g : Agent) : (o : Op) → Except Raised o.Res → Agent
  | .listStranded, .ok rows => { g with listed := rows }
  | .reserve asset candidate, .ok (some token) =>
      g.reset (some (assetIdentityKey asset, token)) candidate
  | .reserve _ candidate, _ =>
      { g.reset none candidate with passedOver := candidate.toList ++ g.passedOver }
  | .release _ _, _ => { g with reservation := none }
  | .getIntent id, .ok row => { g with row := row, order := none, reread := id :: g.reread }
  | .getIntent id, .error _ => { g with row := none, order := none, reread := id :: g.reread }
  | .getOrderByClientOrderId _, .ok order => { g with order := some order }
  | .findByUnique _, .ok (some row) =>
      { g with known := some row, intent := if row.takenUp then some row.id else none }
  | .createIntent _ _, .ok row => { g with known := some row, intent := some row.id }
  | .renew _ _, .ok renewed => { g with cleared := renewed }
  | .post _, .error _ => { g with answered := true }
  | .reply _, _ => { g with answered := true }
  | .isSet .leaseLost, .ok lost => { g with lost := lost }
  | _, _ => g

/-- What the commit of a sweep was decided on: the row as it was read under the reservation, and the
broker's answer about it. -/
structure DecidedOn (g : Agent) (c : Commit) : Prop where
  reserved : ∃ assetKey token, g.reservation = some (assetKey, token) ∧
    c.leases = (executionLockKey assetKey, token) :: g.lease.toList
  reread : g.row = some c.original
  stranded : c.original.status ∈ strandedStatuses ∧ c.original.due c.now
  answer : ∃ order, g.order = some order ∧ c.updated = resolution c.original order ∧
    ∀ o ∈ order, orderMatchesIntent o c.original

/-- The row is one of the intent that an execution found or created. -/
structure WrittenBy (g : Agent) (row : IntentRow) : Prop where
  execution : g.sweeping = false
  known : ∃ old, g.known = some old ∧ row.id = old.id ∧
    row.intent.idempotencyKey = old.intent.idempotencyKey ∧
    (row.assetKey = g.assetKey ∨ row.assetKey = old.assetKey)

/-- What a call may do next. -/
def Allowed (assetOf : String → String) (g : Agent) : Op → Prop
  | .reserve asset candidate =>
      (g.sweeping = true ∧ ∃ row ∈ g.listed, asset = row.intent.asset ∧ candidate = some row.id) ∨
        (g.sweeping = false ∧ assetIdentityKey asset = g.assetKey ∧ candidate = none)
  | .renew asset token =>
      g.sweeping = false ∧ g.intent.isSome ∧ g.reservation = some (assetIdentityKey asset, token) ∧
        assetIdentityKey asset = g.assetKey
  | .release asset token => g.reservation = some (assetIdentityKey asset, token)
  | .listStranded => g.sweeping = true
  | .findByUnique key => g.sweeping = false ∧ g.cleared = false ∧ assetOf key = g.assetKey
  | .getIntent id => g.sweeping = true ∧ g.candidate = some id ∧ g.reservation.isSome
  | .createIntent draft key =>
      g.sweeping = false ∧ g.cleared = false ∧ draft.assetKey = g.assetKey ∧
        ∀ k ∈ key, assetOf k = g.assetKey
  | .updateIntent row => WrittenBy g row
  | .approveIntent row => WrittenBy g row
  | .commitStranded c => g.sweeping = true ∧ DecidedOn g c
  | .getOrderByClientOrderId id => g.sweeping = true → g.row.map IntentRow.id = some id
  | .post request =>
      g.sweeping = false ∧ g.cleared = true ∧ g.answered = false ∧
        g.intent = some request.clientOrderId
  | .reply _ => g.sweeping = false
  | _ => True

/-- The world may answer anything. -/
abbrev Anything : (o : Op) → o.Res → Prop := fun _ _ => True

/-- Nothing is learned from these operations, and they are always allowed. -/
def Op.Quiet : Op → Prop
  | .stopHeartbeat | .hasInFlightIntent _ | .consult _ | .evaluateRisk | .getAccount
  | .recordDrift _ _ _ | .alertOnce _ | .sendAlert | .isSet .fence => True
  | _ => False

section Along

variable {assetOf : String → String} {g : Agent} {α β : Type}

/-- The judgement on a program with the labels of this module. -/
abbrev Follows (assetOf : String → String) (g : Agent) (p : M α) (Q : Agent → α → Prop)
    (E : Agent → Raised → Prop) : Prop :=
  p.Along Agent.learn Anything (Allowed assetOf) g Q E

/-- A program of quiet operations keeps its label. -/
theorem quiet {p : M α} (hp : p.Uses Op.Quiet) :
    Follows assetOf g p (fun g' _ => g' = g) fun g' _ => g' = g := by
  refine Prog.Along.of_uses (I := (· = g)) (fun g' o _ ho => ?_) (fun g' o r hg ho => ?_) rfl hp
  · cases o with
    | isSet event => trivial
    | _ => trivial
  · subst hg
    cases o with
    | isSet event =>
        cases event with
        | leaseLost => exact absurd ho not_false
        | fence => cases r <;> rfl
    | _ => first | exact absurd ho not_false | rfl

theorem uses_isSet_fence : (isSet .fence).Uses Op.Quiet :=
  .tryCatch (fun _ => Prog.uses_done _) ((Prog.uses_perform _).2 trivial)

theorem uses_unresolved (now : Instant) (row : IntentRow) (reason : String) :
    (unresolved now row reason).Uses Op.Quiet := by
  refine .bind (fun fenced => ?_) uses_isSet_fence
  cases fenced with
  | true => trivial
  | false =>
      simp only [Bool.false_eq_true, if_false]
      split
      · refine .bind (fun first => ?_) ((Prog.uses_perform _).2 trivial)
        cases first with
        | true => exact .bind (fun _ => Prog.uses_done _) ((Prog.uses_perform _).2 trivial)
        | false => trivial
      · exact .bind (fun _ => Prog.uses_done _) ((Prog.uses_perform _).2 trivial)

theorem quietly {o : Op} (ho : o.Quiet) {f : o.Res → M α} {Q : Agent → α → Prop}
    {E : Agent → Raised → Prop} (hf : ∀ r, Follows assetOf g (f r) Q E) (hE : ∀ e, E g e) :
    Follows assetOf g (Prog.bind (perform o) f) Q E :=
  Prog.Along.bind (fun _ r hg => hg ▸ hf r)
    ((quiet ((Prog.uses_perform o).2 ho)).mono (fun _ _ hg => hg) fun _ e hg => hg ▸ hE e)

/-- Whatever the outcome of a program, it is caught. -/
theorem attempt_along {p : M α} {P : Agent → Prop}
    (hp : Follows assetOf g p (fun g' _ => P g') fun g' _ => P g') :
    Follows assetOf g (attempt p) (fun g' _ => P g') fun _ _ => False := by
  refine Prog.Along.tryCatch (F := fun g' _ => P g') (fun g' e h => ?_)
    (Prog.Along.bind (fun g' a h => ?_) hp)
  · exact h
  · exact h

theorem runWithLockRenewal_along {p : M α} {P : Agent → Prop}
    (hp : Follows assetOf g p (fun g' _ => P g') fun g' _ => P g') :
    Follows assetOf g (runWithLockRenewal p) (fun g' _ => P g') fun g' _ => P g' := by
  refine Prog.Along.bind (fun g' r hP => ?_)
    ((attempt_along hp).mono (fun _ _ h => h) fun _ _ h => h.elim)
  exact quietly (o := .stopHeartbeat) trivial
    (fun _ => Prog.Along.ofExcept (fun _ _ => hP) fun _ _ => hP) fun _ => hP

theorem caught_along {p : M Unit} {P : Agent → Prop}
    (hp : Follows assetOf g p (fun g' _ => P g') fun g' _ => P g') :
    Follows assetOf g (p.tryCatch fun _ => .done ()) (fun g' _ => P g') fun _ _ => False := by
  refine Prog.Along.tryCatch (F := fun g' _ => P g') (fun g' e h => ?_) hp
  exact h

/-- The evidence of a failure changes nothing, and cannot fail. -/
theorem recordFailure_along (now : Instant) (row : IntentRow) (e : Raised) :
    Follows assetOf g (recordFailure now row e) (fun g' _ => g' = g) fun _ _ => False :=
  caught_along (quiet ((Prog.uses_perform _).2 trivial))

/-! ### What a sweep does -/

/-- What the rest of a sweep keeps. -/
structure After (g g' : Agent) : Prop where
  sweeping : g'.sweeping = g.sweeping
  lease : g'.lease = g.lease
  listed : g'.listed = g.listed
  lost : g'.lost = g.lost
  passedOver : ∀ id ∈ g.passedOver, id ∈ g'.passedOver
  reread : ∀ id ∈ g.reread, id ∈ g'.reread

theorem After.refl (g : Agent) : After g g :=
  ⟨rfl, rfl, rfl, rfl, fun _ h => h, fun _ h => h⟩

theorem After.trans {g₁ g₂ g₃ : Agent} (h : After g₁ g₂) (h' : After g₂ g₃) : After g₁ g₃ where
  sweeping := h'.sweeping.trans h.sweeping
  lease := h'.lease.trans h.lease
  listed := h'.listed.trans h.listed
  lost := h'.lost.trans h.lost
  passedOver id hid := h'.passedOver id (h.passedOver id hid)
  reread id hid := h'.reread id (h.reread id hid)

/-- What is learned from an order that is looked up. -/
def Agent.told (g : Agent) (order : Option BrokerOrder) : Agent := { g with order := some order }

theorem askBroker_along (now : Instant) {row : IntentRow} (hrow : g.row = some row) :
    Follows assetOf g (askBroker now row)
      (fun g' r => (∀ b, r = .inl b → g' = g) ∧ ∀ order, r = .inr order → g' = g.told order)
      fun g' _ => g' = g := by
  have evidence : ∀ reason : String, Follows assetOf g
      ((unresolved now row reason).bind fun b => .done (.inl b))
      (fun g' (r : Bool ⊕ Option BrokerOrder) =>
        (∀ b, r = .inl b → g' = g) ∧ ∀ order, r = .inr order → g' = g.told order)
      fun g' _ => g' = g := by
    intro reason
    refine Prog.Along.bind (fun g' b hg => ?_) (quiet (uses_unresolved now row reason))
    exact ⟨fun _ _ => hg, fun _ h => absurd h (by simp)⟩
  refine Prog.Along.tryCatch (F := fun g' _ => g' = g) (fun g' e hg => ?_) ?_
  · subst hg
    exact evidence e.text
  · refine quietly (o := .getAccount) trivial (fun accountNumber => ?_) fun _ => rfl
    cases accountProven row accountNumber with
    | false => exact evidence "ACCOUNT_IDENTITY_UNPROVEN"
    | true =>
        refine Prog.Along.bind (Q := fun g' order => g' = g.told order) (fun g' order hg => ?_)
          (Prog.Along.perform (fun _ => ?_) (fun _ _ => rfl) fun _ => rfl)
        · refine ⟨fun _ h => absurd h (by simp), fun _ h => ?_⟩
          cases h
          exact hg
        · rw [hrow]
          rfl

theorem commitResolution_along (now : Instant) {row : IntentRow} {leases : List (String × String)}
    {order : Option BrokerOrder} (hsweeping : g.sweeping = true)
    (hdecided : (∀ o ∈ order, orderMatchesIntent o row) →
      DecidedOn g ⟨row, resolution row order, row.brokerAccountNumber, now, leases⟩) :
    Follows assetOf g (commitResolution now row leases order) (fun g' _ => g' = g)
      fun g' _ => g' = g := by
  unfold commitResolution
  split
  · exact quiet (uses_unresolved _ _ _)
  rename_i hmatch
  have hmatch : ∀ o ∈ order, orderMatchesIntent o row := by
    intro o ho
    by_contra hne
    exact hmatch (Option.any_eq_true _ _ |>.2 ⟨o, ho, by simpa using hne⟩)
  refine Prog.Along.bind (fun g' fenced hg => ?_) (quiet uses_isSet_fence)
  subst hg
  cases fenced with
  | true => rfl
  | false =>
      refine Prog.Along.bind (Q := fun g₁ _ => g₁ = g') (fun g₁ outcome hg => ?_)
        (Prog.Along.perform ⟨hsweeping, hdecided hmatch⟩ (fun _ _ => rfl) fun _ => rfl)
      subst hg
      cases outcome with
      | committed => exact quietly (o := .sendAlert) trivial (fun _ => rfl) fun _ => rfl
      | _ => exact quiet (uses_unresolved _ _ _)

theorem hydrate_eq_ok_iff {row row' : IntentRow} :
    hydrate row = .ok row' ↔ row.readable = true ∧ row' = row := by
  unfold hydrate
  cases row.readable with
  | false => simp
  | true => simp [eq_comm]

/-- What `_resolve_stranded` keeps, for the candidate it works on. -/
structure Resolving (g : Agent) (id : String) (g' : Agent) : Prop where
  after : After g g'
  reservation : g'.reservation = g.reservation
  reread : id ∈ g'.reread

theorem resolveStranded_along (now : Instant) {id assetKey token : String}
    (hsweeping : g.sweeping = true) (hcandidate : g.candidate = some id)
    (hreserved : g.reservation = some (assetKey, token)) :
    Follows assetOf g
      (resolveStranded now id ((executionLockKey assetKey, token) :: g.lease.toList))
      (fun g' _ => Resolving g id g') fun g' _ => Resolving g id g' := by
  have reading : ∀ row : Option IntentRow,
      Resolving g id { g with row := row, order := none, reread := id :: g.reread } := fun row =>
    ⟨⟨rfl, rfl, rfl, rfl, fun _ h => h, fun _ h => List.mem_cons_of_mem _ h⟩, rfl,
      List.mem_cons_self⟩
  refine Prog.Along.bind
    (Q := fun g' row => g' = { g with row := row, order := none, reread := id :: g.reread })
    (fun g₁ row hg => ?_)
    (Prog.Along.perform ⟨hsweeping, hcandidate, by rw [hreserved]; rfl⟩ (fun _ _ => rfl)
      fun _ => reading none)
  cases row with
  | none => exact hg ▸ reading none
  | some row =>
      have hkept : Resolving g id g₁ := hg ▸ reading (some row)
      refine Prog.Along.bind (Q := fun g' row' => g' = g₁ ∧ row' = row) (fun g₂ row' h => ?_)
        (Prog.Along.ofExcept (fun row' h => ⟨rfl, (hydrate_eq_ok_iff.1 h).2⟩) fun _ _ => hkept)
      obtain ⟨rfl, rfl⟩ := h
      split
      · rename_i hdue
        refine Prog.Along.bind (fun g₃ answer hanswer => ?_)
          ((askBroker_along now (by rw [hg])).mono (fun _ _ h => h) fun _ _ h => h ▸ hkept)
        cases answer with
        | inl result =>
            obtain rfl := hanswer.1 result rfl
            exact hkept
        | inr order =>
            obtain rfl := hanswer.2 order rfl
            have htold : Resolving g id (g₂.told order) :=
              ⟨hkept.after.trans ⟨rfl, rfl, rfl, rfl, fun _ h => h, fun _ h => h⟩,
                hkept.reservation, hkept.reread⟩
            refine (commitResolution_along now ?_ fun hmatch => ?_).mono
              (fun _ _ h => h ▸ htold) fun _ _ h => h ▸ htold
            · rw [htold.after.sweeping, hsweeping]
            · subst hg
              exact ⟨⟨assetKey, token, hreserved, rfl⟩, rfl, hdue, order, rfl, rfl, hmatch⟩
      · exact hkept

/-- What is known of a candidate once a sweep is done with it: it could not be reserved, or its row
was read again. -/
def Seen (g : Agent) (row : IntentRow) (now : Instant) : Prop :=
  row.readable = true → row.due now → row.id ∈ g.passedOver ∨ row.id ∈ g.reread

/-- What is known when the reservation of a candidate was tried. -/
structure Tried (g : Agent) (row : IntentRow) (now : Instant) (g' : Agent) (r : Option String) :
    Prop where
  after : After g g'
  reserved : ∀ token, r = some token →
    g'.reservation = some (row.assetKey, token) ∧ g'.candidate = some row.id
  seen : r = none → Seen g' row now

theorem reserveCandidate_along (now : Instant) {row : IntentRow} (hsweeping : g.sweeping = true)
    (hlisted : row ∈ g.listed) :
    Follows assetOf g (reserveCandidate now row) (Tried g row now)
      fun g' _ => Tried g row now g' none := by
  have undue : row.readable = false ∨ row.due now = false → Tried g row now g none := fun h =>
    ⟨.refl g, fun _ h => absurd h (by simp), fun _ hreadable hdue => by
      rcases h with h | h
      · rw [h] at hreadable
        cases hreadable
      · rw [h] at hdue
        cases hdue⟩
  have refused : Tried g row now
      { g.reset none (some row.id) with passedOver := row.id :: g.passedOver } none :=
    ⟨⟨rfl, rfl, rfl, rfl, fun _ h => List.mem_cons_of_mem _ h, fun _ h => h⟩,
      fun _ h => absurd h (by simp), fun _ _ _ => .inl List.mem_cons_self⟩
  refine Prog.Along.bind (Q := fun g' row' => g' = g ∧ row' = row) (fun g₁ row' h => ?_)
    (Prog.Along.ofExcept (fun row' h => ⟨rfl, (hydrate_eq_ok_iff.1 h).2⟩) fun e h => ?_)
  · obtain ⟨rfl, rfl⟩ := h
    split
    · refine Prog.Along.perform (.inl ⟨hsweeping, row', hlisted, rfl, rfl⟩) (fun r _ => ?_)
        fun _ => refused
      cases r with
      | none => exact refused
      | some token =>
          refine ⟨⟨rfl, rfl, rfl, rfl, fun _ h => h, fun _ h => h⟩, fun t h => ?_,
            fun h => absurd h (by simp)⟩
          cases h
          exact ⟨rfl, rfl⟩
    · rename_i hdue
      exact undue (.inr (Bool.eq_false_iff.2 hdue))
  · refine undue (.inl ?_)
    unfold hydrate at h
    split at h
    · cases h
    · rename_i hreadable
      exact Bool.eq_false_iff.2 hreadable

/-- **One candidate**: whatever fails stays with it. -/
theorem sweepCandidate_along (now : Instant) {row : IntentRow} (hsweeping : g.sweeping = true)
    (hlisted : row ∈ g.listed) :
    Follows assetOf g (sweepCandidate now g.lease row) (fun g' _ => After g g' ∧ Seen g' row now)
      fun _ _ => False := by
  refine Prog.Along.bind (Q := Tried g row now) (fun g₁ reserved htried => ?_)
    (Prog.Along.tryCatch (F := fun g' _ => Tried g row now g' none) (fun g₁ e htried => ?_)
      (reserveCandidate_along now hsweeping hlisted))
  · cases reserved with
    | none => exact ⟨htried.after, htried.seen rfl⟩
    | some token =>
        obtain ⟨hreservation, hcandidate⟩ := htried.reserved token rfl
        have hsweeping₁ : g₁.sweeping = true := htried.after.sweeping.trans hsweeping
        rw [← htried.after.lease]
        refine Prog.Along.bind (Q := fun g' _ => Resolving g₁ row.id g') (fun g₂ resolved h => ?_)
          (Prog.Along.tryCatch (F := fun g' _ => Resolving g₁ row.id g') (fun g₂ e h => ?_)
            (runWithLockRenewal_along (resolveStranded_along now hsweeping₁ hcandidate
              hreservation)))
        · have hend : After g { g₂ with reservation := none } ∧
              Seen { g₂ with reservation := none } row now :=
            ⟨(htried.after.trans h.after).trans ⟨rfl, rfl, rfl, rfl, fun _ h => h, fun _ h => h⟩,
              fun _ _ => .inr h.reread⟩
          refine Prog.Along.bind (fun g₃ _ hg => ?_)
            (caught_along (P := fun g' => g' = { g₂ with reservation := none })
              (Prog.Along.perform (h.reservation.trans hreservation) (fun _ _ => rfl)
                fun _ => rfl))
          exact hg ▸ hend
        · refine Prog.Along.bind (fun g₃ _ hg => ?_) (recordFailure_along now row e)
          exact hg ▸ h
  · refine Prog.Along.bind (fun g₂ _ hg => ?_) (recordFailure_along now row e)
    exact hg ▸ htried

/-- **The loop comes to every candidate**, unless the lease of the reconciliation is lost. -/
theorem sweepRows_along (now : Instant) {rows : List IntentRow} (resolved : ℕ)
    (hsweeping : g.sweeping = true) (hlisted : ∀ row ∈ rows, row ∈ g.listed) :
    Follows assetOf g (sweepRows now g.lease rows resolved)
      (fun g' _ => (∃ lost, After { g with lost := lost } g') ∧
        (g'.lost = true ∨ ∀ row ∈ rows, Seen g' row now))
      fun _ _ => False := by
  induction rows generalizing g resolved with
  | nil => exact ⟨⟨g.lost, .refl g⟩, .inr (by simp)⟩
  | cons row rows ih =>
      -- the look at the lease leaves everything else as it was
      refine Prog.Along.bind
        (Q := fun g' lost => ∃ was, g' = { g with lost := was } ∧ (lost = true → was = true))
        (fun g₁ lost hg => ?_)
        (Prog.Along.tryCatch (F := fun g' _ => g' = g) (fun g₁ e hg => ?_)
          (Prog.Along.perform trivial (fun lost _ => ⟨lost, rfl, id⟩) fun _ => rfl))
      swap
      · exact ⟨g.lost, hg, fun h => absurd h (by simp)⟩
      obtain ⟨was, rfl, hwas⟩ := hg
      cases lost with
      | true => exact ⟨⟨was, .refl _⟩, .inl (hwas rfl)⟩
      | false =>
          refine Prog.Along.bind (fun g₂ done h => ?_)
            (sweepCandidate_along (g := { g with lost := was }) now hsweeping
              (hlisted row List.mem_cons_self))
          obtain ⟨hafter, hseen⟩ := h
          have hrest : ∀ r ∈ rows, r ∈ g₂.listed := fun r hr => by
            rw [hafter.listed]
            exact hlisted r (List.mem_cons_of_mem _ hr)
          have hloop := ih (g := g₂) (if done then resolved + 1 else resolved)
            (hafter.sweeping.trans hsweeping) hrest
          have hlease : g₂.lease = g.lease := hafter.lease
          rw [hlease] at hloop
          refine hloop.mono (fun g' _ h => ?_) fun _ _ h => h
          obtain ⟨⟨lost, hlater⟩, hend⟩ := h
          have hthen : After { g with lost := lost } g' :=
            ⟨hlater.sweeping.trans hafter.sweeping, hlater.lease,
              hlater.listed.trans hafter.listed, hlater.lost,
              fun id hid => hlater.passedOver id (hafter.passedOver id hid),
              fun id hid => hlater.reread id (hafter.reread id hid)⟩
          refine ⟨⟨lost, hthen⟩, hend.imp_right fun hall r hr => ?_⟩
          rcases List.mem_cons.1 hr with rfl | hr
          · exact fun hreadable hdue =>
              (hseen hreadable hdue).imp (hlater.passedOver _) (hlater.reread _)
          · exact hall r hr

/-- What a call of the sweep knows at its start. -/
def Agent.sweep (lease : Option (String × String)) : Agent := { sweeping := true, lease := lease }

/-- **A sweep**: it ends early only if its candidates cannot be listed or the lease of the
reconciliation is lost; else it has come to every one of them. -/
theorem recoverStrandedIntents_along (assetOf : String → String) (now : Instant)
    (lease : Option (String × String)) :
    Follows assetOf (Agent.sweep lease) (recoverStrandedIntents now lease)
      (fun g _ => g.lost = true ∨ ∀ row ∈ g.listed, Seen g row now)
      fun g _ => g = Agent.sweep lease := by
  refine Prog.Along.bind (Q := fun g rows => g = { Agent.sweep lease with listed := rows })
    (fun g rows hg => ?_) (Prog.Along.perform rfl (fun _ _ => rfl) fun _ => rfl)
  subst hg
  refine (sweepRows_along (g := { Agent.sweep lease with listed := rows }) now 0 rfl
    fun _ h => h).mono (fun g' _ h => ?_) fun _ _ h => h.elim
  obtain ⟨⟨lost, hafter⟩, hend⟩ := h
  rw [show g'.listed = rows from hafter.listed]
  exact hend

end Along

/-! ### What the transaction does -/

/-- The evidence of a commit, as the transaction of the write sees it: every lease is owned and not
over, the row is the one that was read, and no hold is on the intent or on the order. -/
structure Current (s : World) (c : Commit) : Prop where
  leases : ∀ lease ∈ c.leases, ∃ lock, s.locks lease.1 = some lock ∧ lock.ownerToken = lease.2 ∧
    s.clock < lock.expiresAt
  row : s.tradeIntents.get? c.original.id = some c.original
  free : ∀ hold ∈ s.integrityHolds, hold.tradeIntentId ≠ c.original.id ∧
    ∀ orderId ∈ c.updated.intent.brokerOrderId, hold.brokerOrderId ≠ orderId

/-- The row is written with one correction, and nothing else. -/
def Committed (s : World) (c : Commit) (s' : World) : Prop :=
  ∃ recordId, s.reconciliationRecords.Admits (c.record recordId) ∧
    s' =
      { s with
        tradeIntents := s.tradeIntents.put c.updated
        reconciliationRecords := s.reconciliationRecords.createOnce (c.record recordId) }

theorem leaseHeld_iff {locks : Locks} {clock : Instant} {lease : String × String} :
    leaseHeld locks clock lease = true ↔
      ∃ lock, locks lease.1 = some lock ∧ lock.ownerToken = lease.2 ∧ clock < lock.expiresAt := by
  unfold leaseHeld
  rw [Option.any_eq_true]
  simp

theorem heldBy_eq_false_iff {c : Commit} {hold : IntegrityHold} :
    c.heldBy hold = false ↔ hold.tradeIntentId ≠ c.original.id ∧
      hold.brokerOrderId ≠ c.updated.intent.brokerOrderId.getD "" := by
  simp [Commit.heldBy]

/-- **What `_commit_stranded` does**: it writes on current evidence, or nothing. -/
theorem commitStranded_ok {s s' : World} {c : Commit} {recordId : String} {outcome : CommitOutcome}
    (h : commitStranded s c recordId = .ok (outcome, s')) :
    (outcome = .committed ∧ Current s c ∧ Committed s c s') ∨ (outcome ≠ .committed ∧ s' = s) := by
  unfold commitStranded at h
  split at h
  · cases h
    exact .inr ⟨by decide, rfl⟩
  rename_i hleases
  split at h
  · cases h
    exact .inr ⟨by decide, rfl⟩
  rename_i hrow
  split at h
  · cases h
    exact .inr ⟨by decide, rfl⟩
  rename_i hholds
  obtain ⟨records, hinsert, h⟩ := except_bind_eq_ok.1 h
  cases h
  obtain ⟨hadmits, rfl⟩ := Quarantine.insertRow_eq_ok_iff.1 hinsert
  refine .inl ⟨rfl, ⟨fun lease hlease => ?_, not_not.1 hrow, fun hold hhold => ?_⟩, recordId,
    hadmits, rfl⟩
  · have hall : c.leases.all (leaseHeld s.locks s.clock) = true := by simpa using hleases
    exact leaseHeld_iff.1 (List.all_eq_true.1 hall lease hlease)
  · have hfree : c.heldBy hold = false := by
      by_contra hheld
      exact hholds (List.any_eq_true.2 ⟨hold, hhold, by simpa using hheld⟩)
    obtain ⟨hintent, horder⟩ := heldBy_eq_false_iff.1 hfree
    refine ⟨hintent, fun orderId hid => ?_⟩
    rwa [Option.mem_def.1 hid] at horder

/-- The corrections that are recorded. -/
def corrections (s : World) : List SweepRecord :=
  s.reconciliationRecords.rows.filter fun r => r.outcome = .corrected

theorem exec_sweeping {assetOf : String → String} {g : Agent} {o : Op} {i : Outside} {s s' : World}
    {r : o.Res} (hallowed : Allowed assetOf g o) (hsweeping : g.sweeping = true)
    (h : exec assetOf o i s = .ok (r, s')) :
    (s'.tradeIntents = s.tradeIntents ∧ corrections s' = corrections s) ∨
      ∃ c, o = .commitStranded c ∧ DecidedOn g c ∧ Current s c ∧ Committed s c s' := by
  cases o with
  | commitStranded c =>
      rcases commitStranded_ok h with ⟨-, hcurrent, hcommitted⟩ | ⟨-, rfl⟩
      · exact .inr ⟨c, rfl, hallowed.2, hcurrent, hcommitted⟩
      · exact .inl ⟨rfl, rfl⟩
  | recordDrift subjectId text now =>
      obtain ⟨records, hinsert, h⟩ := except_bind_eq_ok.1 h
      cases h
      obtain ⟨-, rfl⟩ := Quarantine.insertRow_eq_ok_iff.1 hinsert
      refine .inl ⟨rfl, ?_⟩
      exact (Table.ExtendedBy.createOnce (P := fun r => r.outcome = .driftDetected)
        s.reconciliationRecords rfl).filter_eq fun r hr => by simp [hr]
  | reserve asset candidate =>
      simp only [exec] at h
      split at h
      · cases h
      · cases h
        exact .inl ⟨rfl, rfl⟩
  | createIntent draft key => exact absurd (hallowed.1.symm.trans hsweeping) (by decide)
  | updateIntent row => exact absurd (hallowed.execution.symm.trans hsweeping) (by decide)
  | approveIntent row => exact absurd (hallowed.execution.symm.trans hsweeping) (by decide)
  | reply request => exact absurd (hallowed.symm.trans hsweeping) (by decide)
  | _ =>
      cases h
      exact .inl ⟨rfl, rfl⟩

/-! ### Sweeps beside anything else -/

/-- What a sweep is started with. -/
structure SweepArgs where
  now : Instant
  /-- The lease of the reconciliation. -/
  lease : Option (String × String) := none
  deriving DecidableEq

/-- `_recover_stranded_intents`, with what it has learned. -/
def sweepCall (a : SweepArgs) : Prog Raised (fun o : Agent × Op => o.2.Res) Unit :=
  ((recoverStrandedIntents a.now a.lease).bind fun _ => .done ()).tag Agent.learn (.sweep a.lease)

/-- Sweeps, and whatever else writes to the database and goes on at the broker. -/
def sweeps {τ : Type} (assetOf : String → String) (env : τ → World → Option World) :
    System World Outside Raised SweepArgs τ fun o : Agent × Op => o.2.Res where
  exec o := exec assetOf o.2
  call := sweepCall
  env := env

theorem sweepCall_along (assetOf : String → String) (a : SweepArgs) :
    Follows assetOf (Agent.sweep a.lease)
      ((recoverStrandedIntents a.now a.lease).bind fun _ => .done ()) (fun _ _ => True)
      fun _ _ => True := by
  refine Prog.Along.bind (Q := fun _ _ => True) (fun g _ _ => ?_)
    ((recoverStrandedIntents_along assetOf a.now a.lease).mono (fun _ _ _ => trivial)
      fun _ _ _ => trivial)
  trivial

theorem labelledBy_sweeps {τ : Type} (assetOf : String → String) (env : τ → World → Option World) :
    (sweeps assetOf env).LabelledBy Agent.learn Anything (Allowed assetOf)
      fun a => Agent.sweep a.lease where
  gives _ _ _ _ _ _ := trivial
  obeys a := (sweepCall_along assetOf a).obeys_tag
  label _ := Prog.label?_tag _ _

theorem learn_sweeping (g : Agent) (o : Op) (r : Except Raised o.Res) :
    (g.learn o r).sweeping = g.sweeping ∧ (g.learn o r).lease = g.lease := by
  unfold Agent.learn
  split <;> exact ⟨rfl, rfl⟩

/-- **A stranded intent is committed only on current evidence.**  In every run of sweeps beside
anything else that writes to the database and the locks or goes on at the broker:

* whatever a sweep performs next, the intents and the corrections stay as they are, or it is the
  commit of a decision that was made on the row as it was read under the reservation and on the
  broker's answer about it; then in the very transaction every lease is owned and not over, the row
  is the one that was read, and no hold is on the intent or on the order; and the row and one
  correction are all that is written;
* whatever its operations answer and whichever of them fail, a sweep whose candidates could be
  listed ends, and unless the lease of the reconciliation was lost it has come to every one of its
  candidates: the row was read again, or the asset could not be reserved. -/
theorem stranded_committed_on_current_evidence {τ : Type} (assetOf : String → String)
    (env : τ → World → Option World) {s₀ : World}
    {w : Pool World Raised fun o : Agent × Op => o.2.Res}
    (hreach : (Pool.machine (sweeps assetOf env)).Reaches (fun _ _ => True) ⟨s₀, []⟩ w) :
    (∀ j g o i w', (w.procs[j]?).bind Prog.next? = some (g, o) →
      (Pool.machine (sweeps assetOf env)).step w (.run j i) = some w' →
      (w'.store.tradeIntents = w.store.tradeIntents ∧ corrections w'.store = corrections w.store) ∨
        ∃ c, o = .commitStranded c ∧ DecidedOn g c ∧ Current w.store c ∧
          Committed w.store c w'.store) ∧
    ∀ a : SweepArgs, Follows assetOf (Agent.sweep a.lease) (recoverStrandedIntents a.now a.lease)
      (fun g _ => g.lost = true ∨ ∀ row ∈ g.listed, Seen g row a.now)
      fun g _ => g = Agent.sweep a.lease := by
  refine ⟨fun j g o i w' hnext hstep => ?_, fun a =>
    recoverStrandedIntents_along assetOf a.now a.lease⟩
  obtain ⟨hallowed, hsweeping⟩ := Pool.allowed_of_reaches (P := fun g => g.sweeping = true)
    (labelledBy_sweeps assetOf env) (fun _ => rfl)
    (fun g o r _ h => (learn_sweeping g o r).1.trans h) hreach hnext
  simp only [Pool.machine, Pool.step, Option.bind_eq_some_iff, Option.map_eq_some_iff] at hstep
  obtain ⟨p, hp, ⟨s', p'⟩, hadv, rfl⟩ := hstep
  rw [hp] at hnext
  cases p with
  | done u => cases hnext
  | fail e => cases hnext
  | step o' next =>
      cases hnext
      simp only [System.advance] at hadv
      split at hadv
      · rename_i r t hx
        cases hadv
        exact exec_sweeping hallowed hsweeping hx
      · cases hadv
        exact .inl ⟨rfl, rfl⟩

section Runs

/-- An intent that was marked as submitted, and then its process was gone. -/
private def leftBehind : IntentRow where
  intent :=
    { tradeIntentId := "intent"
      idempotencyKey := "key"
      correlationId := "intent"
      asset := { symbol := "ABC", assetClass := .equity, nativeAssetId := "alpaca:ABC" }
      side := .buy
      executionMode := .paper
      strategy := "ai_scan"
      createdAt := 0
      requestedQuantity := some 1
      status := .submitted }
  brokerAccountNumber := some "account"

/-- The table of intents with one row. -/
def onlyIntent (row : IntentRow) : Table IntentRow := ⟨[row], List.pairwise_singleton _ _⟩

private def abandoned : World where
  clock := seconds 200
  tradeIntents := onlyIntent leftBehind
  accountNumber := "account"

/-- A sweep up to its commit. -/
private def upToCommit : List (Act Outside Raised SweepArgs Empty) :=
  [.start { now := seconds 200 }, .run 0 {}, .run 0 {},
    .run 0 { uuid := "token", reading := seconds 200 }, .run 0 {}, .run 0 {}, .run 0 {}, .run 0 {}]

/-- A call is about to commit that an intent is closed. -/
private def closing (w : Pool World Raised fun o : Agent × Op => o.2.Res) : Bool :=
  ((w.procs[0]?).bind Prog.next?).any fun o =>
    match o.2 with
    | .commitStranded c => c.updated.status = .rejected
    | _ => false

/-- The status that is stored for the intent. -/
private def storedStatus (s : World) : Option TradeIntentStatus :=
  (s.tradeIntents.get? "intent").map IntentRow.status

/-- An intent that was left behind is closed. -/
theorem stranded_intent_closed :
    ∃ (w w' : Pool World Raised fun o : Agent × Op => o.2.Res) (c : Commit),
      (Pool.machine (sweeps (fun _ => "") fun (t : Empty) _ => t.elim)).step w
        (.run 0 { uuid := "record" }) = some w' ∧
      c.updated.status = .rejected ∧ Current w.store c ∧ Committed w.store c w'.store := by
  have hrun : ((Pool.machine (sweeps (fun _ => "") fun (t : Empty) _ => t.elim)).run
      ⟨abandoned, []⟩ upToCommit).any (fun w => decide (closing w = true ∧
        storedStatus w.store = some .submitted ∧
        ((Pool.machine (sweeps (fun _ => "") fun (t : Empty) _ => t.elim)).step w
          (.run 0 { uuid := "record" })).any
          (fun w' => decide (storedStatus w'.store = some .rejected)) = true)) = true := by
    decide +kernel
  obtain ⟨w, hreach, hclosing, hbefore, hstep⟩ := Machine.exists_of_run hrun
  obtain ⟨w', hw', hafter⟩ := (Option.any_eq_true _ _).1 hstep
  obtain ⟨⟨g, o⟩, hnext, hcommit⟩ := (Option.any_eq_true _ _).1 hclosing
  rcases (stranded_committed_on_current_evidence (fun _ => "") (fun (t : Empty) _ => t.elim)
      hreach).1 0 g o _ w' hnext hw' with ⟨hsame, -⟩ | ⟨c, rfl, -, hcurrent, hcommitted⟩
  · have hstatus : storedStatus w'.store = storedStatus w.store := by
      unfold storedStatus
      rw [hsame]
    rw [hbefore, of_decide_eq_true hafter] at hstatus
    cases hstatus
  · exact ⟨w, w', c, hw', of_decide_eq_true hcommit, hcurrent, hcommitted⟩

end Runs

end Submission

end TradePulse
