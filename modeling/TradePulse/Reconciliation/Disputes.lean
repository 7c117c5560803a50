/-
**A disputed order stays disputed.**

A hold that waits for a check is deleted once the check succeeds, and backed off when it fails
again.  Both read the hold first and write it in a transaction of their own.  A dispute recorded by
another call in the window between them is deleted, or downgraded to a hold that waits.

Main definitions:

* `disputes`, `lowers` — the transactions that record a dispute, and those that a window precedes;
* `Undisturbed` — no dispute is recorded on an order while another call is in its window.

Main results:

* `dispute_is_sticky` — then a dispute stays;
* `dispute_deleted` — otherwise it may be deleted.
-/

import TradePulse.Process.Windows
import TradePulse.Reconciliation.Holds
import TradePulse.Settlement.Footprint
import Mathlib.Data.Fintype.Defs

set_option autoImplicit false

namespace TradePulse

open Storage Process

namespace Recovery

open Attribution

/-- The order that a transaction records a dispute on. -/
def disputes (s : Store) : Op → Option String
  | .inl (.createHold hold) =>
      if hold.holdType = .fillQuantityDisputed ∧ s.integrityHolds.Admits hold then
        some hold.brokerOrderId
      else none
  | .inr (.createHold hold) =>
      if hold.holdType = .fillQuantityDisputed ∧ s.integrityHolds.Admits hold then
        some hold.brokerOrderId
      else none
  | .inr (.updateHold hold) =>
      if hold.holdType = .fillQuantityDisputed then some hold.brokerOrderId else none
  | _ => none

/-- The order whose hold a transaction deletes or overwrites with one that waits. -/
def lowers : Op → Option String
  | .inr (.deleteHold id) => some id
  | .inr (.updateHold hold) =>
      if hold.holdType = .fillQuantityDisputed then none else some hold.brokerOrderId
  | _ => none

/-- The order is on hold because its total is disputed. -/
def Disputed (id : String) (w : World) : Prop :=
  (w.1.integrityHolds.get? id).map (fun hold => hold.holdType) = some .fillQuantityDisputed

instance (id : String) (w : World) : Decidable (Disputed id w) :=
  inferInstanceAs (Decidable (_ = _))

/-- What a transaction needs to find. -/
def needs (o : Op) (w : World) : Prop := ∀ id, lowers o = some id → ¬ Disputed id w

/-- Transactions that overwrite no hold that waits. -/
def free (o : Op) : Prop := lowers o = none

/-- A hold is deleted or backed off right after it was read, and waited for a check. -/
def prep : (o : Op) → Res o → Op → Prop
  | .inr (.getHold id), r, o' => ∃ hold, r = some hold ∧ hold.holdType = .verificationPending ∧
      (lowers o' = some id ∨ lowers o' = some hold.brokerOrderId)
  | _, _, _ => False

/-! ### The procedures prepare what they delete and back off -/

section Programs

variable {α : Type} (current : TradeIntent) (orderId : String)

/-- The transactions of attribution, by themselves. -/
abbrev freeA (o : Attribution.Op) : Prop := free (.inr o)

abbrev prepA (o : Attribution.Op) (r : o.Res) (o' : Attribution.Op) : Prop :=
  prep (.inr o) r (.inr o')

theorem uses_one {o : Attribution.Op} (ho : freeA o) : (Attribution.perform o).Uses freeA :=
  (Prog.uses_perform o).2 ho

theorem uses_then {o : Attribution.Op} {f : o.Res → Attribute α} (ho : freeA o)
    (hf : ∀ r, (f r).Uses freeA) : ((Attribution.perform o).bind f).Uses freeA :=
  Prog.Uses.bind hf (uses_one ho)

theorem uses_holdUnverified : (holdUnverified current orderId).Uses freeA := by
  refine uses_then rfl fun _ => uses_then rfl fun r => ?_
  cases r with
  | none => exact uses_then rfl fun _ => uses_then rfl fun _ => trivial
  | some hold => trivial

theorem uses_recordDispute : (recordDispute current orderId).Uses freeA := by
  refine uses_then rfl fun events => ?_
  refine Prog.Uses.bind (fun _ => ?_) (Prog.Uses.forEach fun e _ => uses_then rfl fun _ => trivial)
  refine uses_then rfl fun now => uses_then rfl fun created => ?_
  refine Prog.Uses.bind (fun _ => ?_) ?_
  · exact uses_then rfl fun _ => uses_one rfl
  · split
    · trivial
    -- a dispute may overwrite any hold
    · exact uses_one (by simp [freeA, free, lowers])

theorem uses_recordFill (v : ValidatedFill) : (recordFill current orderId v).Uses freeA := by
  refine Prog.Uses.bind (fun fill => ?_) (Prog.uses_ofExcept _)
  have event : (Prog.ofExcept (SettlementEvent.make (eventOf current orderId v)) >>= fun event =>
      Attribution.perform (.createSettlement event) >>= fun _ => pure ()).Uses freeA := by
    refine Prog.Uses.bind (fun event => ?_) (Prog.uses_ofExcept _)
    exact uses_then (o := .createSettlement event) rfl fun _ => Prog.uses_done _
  refine Prog.Uses.bind (fun _ => event) ?_
  split
  · refine uses_then (o := .clock) rfl fun _ => ?_
    exact uses_one rfl
  · exact uses_then (o := .createFill fill) rfl fun _ => Prog.uses_done _

/-- The hold is deleted right after it was found to wait for this check. -/
theorem prepares_verifyOrder (total : ℚ) :
    (verifyOrder current orderId total).Starts freeA ∧
      (verifyOrder current orderId total).Prepares freeA prepA := by
  have handler : ∀ e : Raised, (if e.cls = .alpaca then do
      holdUnverified current orderId
      return false
    else Prog.fail e : Attribute Bool).Uses freeA := fun e => by
    split
    · exact Prog.Uses.bind (fun _ => Prog.uses_done _) (uses_holdUnverified current orderId)
    · exact Prog.uses_fail e
  have order : (Attribution.perform (.getOrder orderId)).Uses freeA := uses_one rfl
  constructor
  · exact fun o ho => by
      cases ho
      rfl
  · refine Prog.Prepares.tryCatch (fun e => ⟨(handler e).starts, (handler e).prepares⟩) ?_
    refine Prog.Prepares.bind (fun order => ?_) order.prepares
    split
    · exact ⟨Prog.starts_done _, trivial⟩
    · refine ⟨fun o ho => ?_, Prog.Prepares.after fun r => ?_⟩
      · cases ho
        rfl
      · have ends : ∀ (o : Attribution.Op) (r : o.Res),
            (∀ o', (Prog.done false : Attribute Bool).next? = some o' → freeA o' ∨ prepA o r o') ∧
              (Prog.done false : Attribute Bool).Prepares freeA prepA :=
          fun o r => ⟨fun o' ho => .inl (Prog.starts_done false o' ho), trivial⟩
        cases r with
        | none => exact ends (.getHold orderId) none
        | some hold =>
            dsimp only
            split
            · rename_i hpending
              refine ⟨fun o' ho => .inr ⟨hold, rfl, hpending, .inl ?_⟩,
                Prog.Prepares.after fun r => ends (.deleteHold orderId) r⟩
              cases ho
              rfl
            · exact ends (.getHold orderId) (some hold)

theorem prepares_attributeFills (verify : Bool) :
    (attributeFills current orderId verify).Starts freeA ∧
      (attributeFills current orderId verify).Prepares freeA prepA := by
  have listed : (Attribution.perform (.getActivities current.createdAt)).Uses freeA := uses_one rfl
  constructor
  · exact fun o ho => by
      cases ho
      rfl
  · refine Prog.Prepares.bind (fun activities => ?_) listed.prepares
    have alerts : ∀ as : List BrokerActivity, (Prog.forEach as fun a =>
        if (validatedFill a current).isNone then Attribution.perform .sendAlert
        else return ()).Uses freeA := fun as => Prog.Uses.forEach fun a _ => by
      split
      · exact uses_one rfl
      · trivial
    have rest : ∀ disputed : Bool, (do
        let _ ← (if disputed then recordDispute current orderId else return () : Attribute Unit)
        Prog.forEach (validatedFills activities orderId current) (recordFill current orderId)
        return validatedFills activities orderId current : Attribute _).Uses freeA := by
      intro disputed
      refine Prog.Uses.bind (fun _ => ?_) ?_
      · exact Prog.Uses.bind (fun _ => Prog.uses_done _)
          (Prog.Uses.forEach fun v _ => uses_recordFill current orderId v)
      · split
        · exact uses_recordDispute current orderId
        · trivial
    have verified : (if verify then verifyOrder current orderId
        (totalQty (validatedFills activities orderId current)) else return false :
          Attribute Bool).Starts freeA ∧ (if verify then verifyOrder current orderId
        (totalQty (validatedFills activities orderId current)) else return false :
          Attribute Bool).Prepares freeA prepA := by
      split
      · exact prepares_verifyOrder current orderId _
      · exact ⟨Prog.starts_done _, trivial⟩
    refine ⟨(alerts _).starts.bind fun _ => verified.1.bind fun d => (rest d).starts,
      Prog.Prepares.bind (fun _ => ⟨verified.1.bind fun d => (rest d).starts, ?_⟩)
        (alerts _).prepares⟩
    exact Prog.Prepares.bind (fun d => ⟨(rest d).starts, (rest d).prepares⟩) verified.2

end Programs

theorem uses_settling (o : Settlement.Op) : (settling o).Uses free := (Prog.uses_perform _).2 rfl

theorem uses_settlement {α : Type} :
    ∀ p : Prog Raised Settlement.Op.Res α, (p.lift Sum.inl : Recover α).Uses free
  | .done _ => trivial
  | .fail _ => trivial
  | .step _ next => ⟨rfl, fun r => uses_settlement (next r)⟩

theorem uses_lookUp (orderId : String) : (lookUp orderId).Uses free := by
  refine Prog.Uses.tryCatch (fun e => ?_) ?_
  · split
    · exact Prog.uses_done _
    · exact Prog.uses_fail _
  · exact Prog.Uses.bind (fun _ => Prog.uses_done _) ((Prog.uses_perform _).2 rfl)

theorem uses_finalize (intent : TradeIntent) (attributed : AttributedFills) (order : BrokerOrder) :
    (finalize intent attributed order).Uses free := by
  have alert : (attributing .sendAlert).Uses free := (Prog.uses_perform _).2 rfl
  unfold finalize
  split
  · exact alert
  · split
    · split
      · split
        · exact alert
        · exact Prog.uses_done _
      · exact Prog.Uses.bind (fun _ => uses_settlement _) (uses_settling _)
    · split
      · exact Prog.Uses.bind (fun _ => Prog.uses_done _) (uses_settling _)
      · exact Prog.uses_done _

theorem prepares_attributeOrderFills (current : TradeIntent) (verify : Bool) :
    (attributeOrderFills current verify).Starts freeA ∧
      (attributeOrderFills current verify).Prepares freeA prepA := by
  unfold attributeOrderFills
  split
  · exact ⟨Prog.starts_fail _, trivial⟩
  · rename_i orderId _
    have h := prepares_attributeFills current orderId verify
    exact ⟨h.1.bind fun _ => Prog.starts_done _,
      Prog.Prepares.bind (fun _ => ⟨Prog.starts_done _, trivial⟩) h.2⟩

theorem uses_afterAttribution (intent : TradeIntent) (orderId : String) (a : AttributedFills) :
    (if intent.status.terminal then return a else do
      match ← lookUp orderId with
      | none => return a
      | some order => do
          finalize intent a order
          return a : Recover AttributedFills).Uses free := by
  split
  · exact Prog.uses_done _
  · refine Prog.Uses.bind (fun found => ?_) (uses_lookUp orderId)
    cases found with
    | none => exact Prog.uses_done _
    | some order =>
        exact Prog.Uses.bind (fun _ => Prog.uses_done _) (uses_finalize intent a order)

theorem prepares_resolve (intent : TradeIntent) :
    (resolveOrderFromBroker intent).Starts free ∧
      (resolveOrderFromBroker intent).Prepares free prep := by
  unfold resolveOrderFromBroker
  split
  · exact ⟨Prog.starts_done _, trivial⟩
  · rename_i orderId _
    have attributed := prepares_attributeOrderFills intent true
    have rest := uses_afterAttribution intent orderId
    have starts : ((attributeOrderFills intent true).lift Sum.inr : Recover _).Starts free :=
      Prog.Starts.lift attributed.1
    exact ⟨starts.bind fun a => (rest a).starts,
      Prog.Prepares.bind (fun a => ⟨(rest a).starts, (rest a).prepares⟩)
        (Prog.Prepares.lift attributed.2)⟩

/-- The hold is backed off right after it was found to wait for a check. -/
theorem prepares_backOff (now : Instant) (n : ℕ) (hold : IntegrityHold) :
    (attributing (.getHold hold.brokerOrderId) >>= fun found => match found with
      | none => return n + 1
      | some still =>
          if still.holdType = .verificationPending then do
            let _ ← attributing (.updateHold (backedOff still now))
            return n + 1
          else return n + 1 : Recover ℕ).Prepares free prep := by
  have ends : ∀ (m : ℕ) (o : Op) (r : Res o),
      (∀ o', (Prog.done m : Recover ℕ).next? = some o' → free o' ∨ prep o r o') ∧
        (Prog.done m : Recover ℕ).Prepares free prep :=
    fun m o r => ⟨fun o' ho => .inl (Prog.starts_done m o' ho), trivial⟩
  refine Prog.Prepares.after fun r => ?_
  cases r with
  | none => exact ends _ _ _
  | some still =>
      dsimp only
      split
      · rename_i hpending
        refine ⟨fun o' ho => .inr ⟨still, rfl, hpending, .inr ?_⟩,
          Prog.Prepares.after fun r => ends _ _ _⟩
        cases ho
        simp [lowers, backedOff, hpending]
      · exact ends _ _ _

theorem prepares_reverifyHold (now : Instant) (n : ℕ) (hold : IntegrityHold) :
    (reverifyHold now n hold).Starts free ∧ (reverifyHold now n hold).Prepares free prep := by
  have done : ∀ m : ℕ, (Prog.done m : Recover ℕ).Starts free ∧
      (Prog.done m : Recover ℕ).Prepares free prep := fun m => ⟨Prog.starts_done m, trivial⟩
  refine ⟨fun o ho => ?_, Prog.Prepares.bind (fun lost => ?_) (uses_settling .leaseLost).prepares⟩
  · cases ho
    rfl
  · split
    · exact done n
    · split
      · exact done n
      · refine ⟨fun o ho => ?_, Prog.Prepares.bind (fun found => ?_) (uses_settling _).prepares⟩
        · cases ho
          rfl
        · cases found with
          | none => exact done n
          | some intent =>
              have h := prepares_resolve intent
              refine ⟨h.1.bind fun _ => fun o ho => ?_,
                Prog.Prepares.bind (fun _ => ⟨fun o ho => ?_, prepares_backOff now n hold⟩) h.2⟩ <;>
              · cases ho
                rfl

theorem prepares_reverifyPendingHolds (now : Instant) :
    (reverifyPendingHolds now).Starts free ∧ (reverifyPendingHolds now).Prepares free prep := by
  have listed : (attributing .pendingHolds).Uses free := (Prog.uses_perform _).2 rfl
  have each := fun holds : List IntegrityHold =>
    Prog.Prepares.foldEach (prepares_reverifyHold now) holds 0
  refine ⟨fun o ho => ?_, Prog.Prepares.bind each listed.prepares⟩
  cases ho
  rfl

theorem prepares_call (c : Call) :
    (system.call c).Starts free ∧ (system.call c).Prepares free prep := by
  cases c with
  | attributeFills current verify =>
      have h := prepares_attributeOrderFills current verify
      exact ⟨Prog.Starts.lift (h.1.bind fun _ => Prog.starts_done _),
        Prog.Prepares.lift (Prog.Prepares.bind (fun _ => ⟨Prog.starts_done _, trivial⟩) h.2)⟩
  | reverify now =>
      have h := prepares_reverifyPendingHolds now
      exact ⟨h.1.bind fun _ => Prog.starts_done _,
        Prog.Prepares.bind (fun _ => ⟨Prog.starts_done _, trivial⟩) h.2⟩
  | settle args =>
      have h := uses_settlement ((Settlement.processPending args).bind fun _ => .done ())
      exact ⟨h.starts, h.prepares⟩

/-! ### What transactions do to holds -/

/-- The holds after a transaction. -/
def holdsAfter (t : Table IntegrityHold) : Op → Table IntegrityHold
  | .inl (.createHold hold) => t.createOnce hold
  | .inr (.createHold hold) => t.createOnce hold
  | .inr (.updateHold hold) => t.put hold
  | .inr (.deleteHold id) => t.delete id
  | _ => t

theorem exec_holds {o : Op} {i : Settlement.Outside × Attribution.Outside} {w w' : World}
    {r : Res o} (h : exec o i w = .ok (r, w')) :
    w'.1.integrityHolds = holdsAfter w.1.integrityHolds o := by
  cases o with
  | inl o =>
      obtain ⟨hx, -⟩ := settlementExec_ok.1 h
      by_cases ho : o.writes = some .integrityHolds
      · cases o with
        | createHold hold =>
            simp only [Settlement.exec, Except.ok.injEq, Prod.mk.injEq] at hx
            rw [← hx.2]
            rfl
        | _ => simp [Settlement.Op.writes] at ho
      · have hframe := Settlement.exec_frame hx .integrityHolds ho
        cases o with
        | createHold hold => exact absurd rfl ho
        | _ => exact hframe
  | inr o =>
      cases o with
      | blockEvent id =>
          obtain ⟨⟨r', s⟩, hb, h⟩ := except_bind_eq_ok.1 h
          cases h
          unfold blockEvent at hb
          split at hb
          · cases hb
            rfl
          · split at hb
            · obtain ⟨_, -, hb⟩ := except_bind_eq_ok.1 hb
              cases hb
              rfl
            · cases hb
              rfl
      | recordGrossFill fill now =>
          obtain ⟨s, hb, h⟩ := except_bind_eq_ok.1 h
          cases h
          obtain ⟨-, -, hb⟩ := except_bind_eq_ok.1 hb
          cases hb
          rfl
      | latchFinancialIntegrityBlock reason now =>
          cases h
          simp only [Store.latchFinancialIntegrityBlock]
          split <;> rfl
      | getOrder id =>
          simp only [exec, execPar, Attribution.exec] at h
          split at h <;> cases h
          rfl
      | _ =>
          cases h
          rfl

/-- A dispute stays through every transaction that neither deletes nor backs off its hold. -/
theorem disputed_exec {o : Op} {i : Settlement.Outside × Attribution.Outside} {w w' : World}
    {r : Res o} {id : String} (h : exec o i w = .ok (r, w')) (hd : Disputed id w)
    (hl : lowers o ≠ some id) : Disputed id w' := by
  unfold Disputed at hd ⊢
  rw [exec_holds h]
  obtain ⟨hold, hget, htype⟩ := Option.map_eq_some_iff.1 hd
  obtain ⟨hmem, hid⟩ := Table.get?_eq_some_iff.1 hget
  have created : ∀ new, ((w.1.integrityHolds.createOnce new).get? id).map (fun h => h.holdType)
      = some .fillQuantityDisputed := fun new => by
    rw [Table.get?_eq_some_iff.2 ⟨Table.mem_createOnce_of_mem hmem, hid⟩, Option.map_some, htype]
  unfold holdsAfter
  split
  · exact created _
  · exact created _
  · rename_i new
    by_cases hne : id = new.brokerOrderId
    · -- a dispute that is overwritten is overwritten with a dispute
      have hnew : new.holdType = .fillQuantityDisputed := by
        by_contra hn
        exact hl (by simp [lowers, hn, hne])
      have hsame : SameKeys hold new := ⟨hid.trans hne, rfl⟩
      have hput := Table.get?_put_self hmem hsame
      rw [hne, show new.brokerOrderId = Record.recordId new from rfl, hput, Option.map_some, hnew]
    · rw [Table.get?_put_of_ne hne, hget, Option.map_some, htype]
  · rename_i id'
    have hne : id ≠ id' := fun he => hl (by simp [lowers, he])
    rw [Table.get?_delete_of_ne hne, hget, Option.map_some, htype]
  · rw [hget, Option.map_some, htype]

/-- A transaction disputes an order only by recording a dispute on it. -/
theorem not_disputed_exec {o : Op} {i : Settlement.Outside × Attribution.Outside} {w w' : World}
    {r : Res o} {id : String} (h : exec o i w = .ok (r, w')) (hd : ¬ Disputed id w)
    (hn : disputes w.1 o ≠ some id) : ¬ Disputed id w' := by
  intro hd'
  unfold Disputed at hd hd'
  rw [exec_holds h] at hd'
  obtain ⟨hold, hget, htype⟩ := Option.map_eq_some_iff.1 hd'
  obtain ⟨hmem, hid⟩ := Table.get?_eq_some_iff.1 hget
  have old : hold ∈ w.1.integrityHolds → False := fun hin =>
    hd (by rw [Table.get?_eq_some_iff.2 ⟨hin, hid⟩, Option.map_some, htype])
  unfold holdsAfter at hmem
  split at hmem
  · rcases Table.mem_createOnce.1 hmem with hin | ⟨hadmits, rfl⟩
    · exact old hin
    · exact hn ((if_pos ⟨htype, hadmits⟩).trans (congrArg some hid))
  · rcases Table.mem_createOnce.1 hmem with hin | ⟨hadmits, rfl⟩
    · exact old hin
    · exact hn ((if_pos ⟨htype, hadmits⟩).trans (congrArg some hid))
  · rcases Table.mem_put_imp hmem with rfl | hin
    · exact hn ((if_pos htype).trans (congrArg some hid))
    · exact old hin
  · exact old (Table.mem_delete.1 hmem).1
  · exact old hmem

/-! ### Runs -/

section Runs

variable {J : Type} [DecidableEq J]

abbrev RecoveryAct (J : Type) :=
  LaneAct J (Settlement.Outside × Attribution.Outside) Raised Call External

/-- No transaction records a dispute on an order while another call is about to delete the order's
hold or to back it off. -/
def Undisturbed (w : Lanes J World Raised Res) : RecoveryAct J → Prop
  | .run k _ => ∀ j, j ≠ k → ∀ id, (w.proc j).next?.bind lowers = some id →
      (w.proc k).next?.bind (disputes w.store.1) ≠ some id
  | _ => True

instance decidableApart (a b : Option String) : Decidable (∀ id, a = some id → b ≠ some id) :=
  match a with
  | none => isTrue nofun
  | some id => decidable_of_iff (b ≠ some id)
      ⟨fun h _ he => Option.some.inj he ▸ h, fun h => h id rfl⟩

instance [Fintype J] (w : Lanes J World Raised Res) :
    ∀ a : RecoveryAct J, Decidable (Undisturbed w a)
  | .run k _ => inferInstanceAs (Decidable (∀ j, j ≠ k → ∀ id, _ = some id → _ ≠ some id))
  | .start _ _ => isTrue trivial
  | .raise _ _ => isTrue trivial
  | .crash _ => isTrue trivial
  | .env _ => isTrue trivial

theorem external_holds {t : External} {w w' : World} (h : external t w = some w') :
    w'.1.integrityHolds = w.1.integrityHolds := by
  cases t with
  | execute activity =>
      cases h
      rfl
  | order order =>
      obtain ⟨orders, -, rfl⟩ := Option.map_eq_some_iff.1 h
      rfl
  | elsewhere t =>
      cases h
      rfl

theorem disputed_congr {id : String} {w w' : World}
    (h : w'.1.integrityHolds = w.1.integrityHolds) : Disputed id w' ↔ Disputed id w := by
  unfold Disputed
  rw [h]

/-- What a lane is about to delete or back off is not a dispute. -/
theorem prepared_of_reaches {w w' : Lanes J World Raised Res}
    (hw : Lanes.Prepared free prep needs w)
    (hr : (Lanes.machine system).Reaches Undisturbed w w') :
    Lanes.Prepared free prep needs w' := by
  refine Lanes.prepared prepares_call ?hprep ?hlane ?henv hw hr
  case hprep =>
    intro o i v v' r o' hx hp
    rcases o with o | o
    · exact hp.elim
    · cases o with
      | getHold id =>
          obtain ⟨hold, rfl, hpending, hl⟩ := hp
          obtain ⟨hget, rfl⟩ : v.1.integrityHolds.get? id = some hold ∧ v = v' := by
            simpa [system, exec, execPar, Attribution.exec] using hx
          intro id' hid'
          have hid : id' = id := by
            rcases hl with hl | hl
            · exact Option.some.inj (hid'.symm.trans hl)
            · exact (Option.some.inj (hid'.symm.trans hl)).trans (Table.get?_eq_some_iff.1 hget).2
          rw [hid, Disputed, hget, Option.map_some, hpending]
          simp
      | _ => exact hp.elim
  case hlane =>
    intro v v' j k i o hok hstep hjk hnext hneeds id hid
    have hdisputes := hok j hjk id (by rw [hnext]; exact hid)
    simp only [Lanes.machine, Lanes.step, Option.map_eq_some_iff] at hstep
    obtain ⟨⟨s', p'⟩, ha, rfl⟩ := hstep
    cases hproc : v.proc k with
    | step o' next =>
        rw [hproc] at ha hdisputes
        simp only [System.advance] at ha
        cases hx : system.exec o' i v.store with
        | ok q =>
            obtain ⟨r, t⟩ := q
            rw [hx] at ha
            cases ha
            exact not_disputed_exec hx (hneeds id hid) hdisputes
        | error e =>
            rw [hx] at ha
            cases ha
            exact hneeds id hid
    | _ =>
        rw [hproc] at ha
        cases ha
  case henv =>
    intro t v v' o ht hneeds id hid
    rw [disputed_congr (external_holds ht)]
    exact hneeds id hid

/-- **A dispute is sticky.**  In every run of attribution, re-verification and settlement in which
no dispute is recorded while another call is in its window, an order that is disputed stays so. -/
theorem dispute_is_sticky {w₀ : World} {w w' : Lanes J World Raised Res}
    (hr : (Lanes.machine system).Reaches Undisturbed ⟨w₀, fun _ => .done ()⟩ w)
    (hr' : (Lanes.machine system).Reaches Undisturbed w w') {id : String}
    (hd : Disputed id w.store) : Disputed id w'.store := by
  have idle : Lanes.Prepared free prep needs (⟨w₀, fun _ => .done ()⟩ : Lanes J World Raised Res) :=
    fun _ => ⟨trivial, fun o ho => .inl (Prog.starts_done () o ho)⟩
  have kept : Lanes.Prepared free prep needs w' ∧ Disputed id w'.store := by
    induction hr' with
    | refl => exact ⟨prepared_of_reaches idle hr, hd⟩
    | @tail v v' a hreach hok hstep ih =>
        refine ⟨prepared_of_reaches ih.1 (.tail .refl hok hstep), ?_⟩
        cases a with
        | run k i =>
            have hfound := (ih.1 k).2
            simp only [Lanes.machine, Lanes.step, Option.map_eq_some_iff] at hstep
            obtain ⟨⟨s', p'⟩, ha, rfl⟩ := hstep
            cases hproc : v.proc k with
            | step o next =>
                rw [hproc] at ha hfound
                simp only [System.advance] at ha
                cases hx : system.exec o i v.store with
                | ok q =>
                    obtain ⟨r, t⟩ := q
                    rw [hx] at ha
                    cases ha
                    refine disputed_exec hx ih.2 fun hl => ?_
                    rcases hfound o rfl with hfree | hneeds
                    · exact absurd (hfree.symm.trans hl) (by simp)
                    · exact hneeds id hl ih.2
                | error e =>
                    rw [hx] at ha
                    cases ha
                    exact ih.2
            | _ =>
                rw [hproc] at ha
                cases ha
        | start j c =>
            simp only [Lanes.machine, Lanes.step] at hstep
            split at hstep
            · cases hstep
              exact ih.2
            · cases hstep
        | raise j e =>
            simp only [Lanes.machine, Lanes.step, Option.map_eq_some_iff] at hstep
            obtain ⟨p, -, rfl⟩ := hstep
            exact ih.2
        | crash j =>
            cases hstep
            exact ih.2
        | env t =>
            simp only [Lanes.machine, Lanes.step, Option.map_eq_some_iff] at hstep
            obtain ⟨s', ht, rfl⟩ := hstep
            exact (disputed_congr (external_holds ht)).2 ih.2
  exact kept.2

end Runs

/-! ### Runs on given data -/

def boughtOrder : TradeIntent where
  tradeIntentId := "intent-1"
  idempotencyKey := "key-1"
  correlationId := "correlation-1"
  asset := { symbol := "AAPL", assetClass := .equity, nativeAssetId := "alpaca:AAPL" }
  side := .buy
  executionMode := .paper
  strategy := "momentum"
  createdAt := 0
  status := .submitted
  brokerOrderId := some "order-1"

/-- An execution of the order. -/
def executed (id : String) (qty : ℚ) : RecoveryAct Bool :=
  .env (.execute
    { activityId := id
      symbol := "AAPL"
      side := some .buy
      qty := some qty
      price := some 10
      transactionTime := some 1
      orderId := "order-1" })

/-- What the broker says is filled of the order. -/
def filledAtBroker (qty : ℚ) : RecoveryAct Bool :=
  .env (.order
    { brokerOrderId := "order-1", status := .partiallyFilled, symbol := "AAPL", side := some .buy
      filledQty := qty })

/-- Attribute the executions of the order, up to the `n`-th transaction. -/
def attributed (j : Bool) (n : ℕ) : List (RecoveryAct Bool) :=
  .start j (.attributeFills boughtOrder true) :: List.replicate n (.run j ({}, {}))

/-- The first attribution cannot look up the order, and leaves a hold that waits for a check. -/
def unverified : List (RecoveryAct Bool) :=
  executed "a1" 6 :: attributed false 8 ++ [filledAtBroker 6]

def noCalls : Lanes Bool World Raised Res := ⟨({}, {}), fun _ => .done ()⟩

/-- The dispute of the next attribution stays when the order is attributed once more. -/
theorem dispute_is_sticky_once : ∃ w w' : Lanes Bool World Raised Res,
    (Lanes.machine system).Reaches Undisturbed noCalls w ∧
      (Lanes.machine system).Reaches Undisturbed w w' ∧ Disputed "order-1" w.store ∧
        Disputed "order-1" w'.store := by
  have hrun : ((Lanes.machine system).runUnder Undisturbed noCalls
      (unverified ++ executed "a2" 4 :: attributed true 13)).any (fun w =>
        decide (Disputed "order-1" w.store ∧ ((Lanes.machine system).runUnder Undisturbed w
          (filledAtBroker 10 :: attributed false 7)).isSome)) = true := by
    decide +kernel
  obtain ⟨w, hreach, hd, hsome⟩ := Machine.exists_of_runUnder hrun
  obtain ⟨w', hrun'⟩ := Option.isSome_iff_exists.1 hsome
  have hreach' := Machine.reaches_of_runUnder hrun'
  exact ⟨w, w', hreach, hreach', hd, dispute_is_sticky hreach hreach' hd⟩

/-- **A dispute may be deleted.**  An attribution has found that the order's hold may be cleared;
before it clears it, another one disputes the order. -/
theorem dispute_deleted : ∃ w w' : Lanes Bool World Raised Res,
    (Lanes.machine system).Reaches (fun _ _ => True) noCalls w ∧
      (Lanes.machine system).Reaches (fun _ _ => True) w w' ∧ Disputed "order-1" w.store ∧
        ¬ Disputed "order-1" w'.store := by
  have hrun : ((Lanes.machine system).run noCalls (unverified ++ attributed false 3 ++
      executed "a2" 4 :: attributed true 13)).any (fun w => decide (Disputed "order-1" w.store ∧
        ((Lanes.machine system).run w [.run false ({}, {})]).any (fun w' =>
          decide (¬ Disputed "order-1" w'.store)) = true)) = true := by
    decide +kernel
  obtain ⟨w, hreach, hd, hnext⟩ := Machine.exists_of_run hrun
  obtain ⟨w', hreach', hd'⟩ := Machine.exists_of_run hnext
  exact ⟨w, w', hreach, hreach', hd, hd'⟩

end Recovery

end TradePulse
