/-
**Holds that wait for a check** (`_reverify_pending_holds`).

An order whose total could not be checked is on hold until a later check succeeds.  Reconciliation
repeats the check for each such hold, less and less often while it keeps failing.

Main definitions:

* `reverifyPendingHolds` — the procedure;
* `Recovery.Call`, `Recovery.system` — attribution, re-verification and settlement over one store
  and one broker, and the world around them.
-/

import TradePulse.Execution.Recovery

set_option autoImplicit false

namespace TradePulse

open Storage Process

namespace Recovery

open Attribution

/-- A check that failed once more is tried again later. -/
def backedOff (hold : IntegrityHold) (now : Instant) : IntegrityHold :=
  { hold with
    attemptCount := hold.attemptCount + 1
    nextRetryAt := some (now + seconds (retryDelaySeconds (hold.attemptCount + 1))) }

/-- Check one order again. -/
def reverifyHold (now : Instant) (reverified : ℕ) (hold : IntegrityHold) : Recover ℕ := do
  if ← settling .leaseLost then return reverified
  else if hold.nextRetryAt.any fun t => decide (now < t) then return reverified
  else
    match ← settling (.getTradeIntent hold.tradeIntentId) with
    | none => return reverified
    | some intent => do
        let _ ← resolveOrderFromBroker intent
        match ← attributing (.getHold hold.brokerOrderId) with
        | none => return reverified + 1
        | some still =>
            if still.holdType = .verificationPending then do
              let _ ← attributing (.updateHold (backedOff still now))
              return reverified + 1
            else return reverified + 1

/-- `_reverify_pending_holds`. -/
def reverifyPendingHolds (now : Instant) : Recover ℕ := do
  let holds ← attributing .pendingHolds
  Prog.foldEach holds 0 (reverifyHold now)

/-! ### Runs -/

/-- The calls. -/
inductive Call
  | attributeFills (current : TradeIntent) (verifyOrderFilledQty : Bool)
  | reverify (now : Instant)
  | settle (args : Settlement.PassArgs)

/-- What the rest of the world does. -/
inductive External
  | execute (activity : BrokerActivity)
  /-- An order is new, or has moved on; what is filled of it never becomes less. -/
  | order (order : BrokerOrder)
  /-- Anything else happens in the store, but to the holds. -/
  | elsewhere (t : Store)

def external : External → World → Option World
  | .execute activity, w =>
      some (w.1, { w.2 with activities := w.2.activities.createOnce activity })
  | .order order, w => (w.2.progress order).map fun b => (w.1, b)
  | .elsewhere t, w => some ({ t with integrityHolds := w.1.integrityHolds }, w.2)

/-- Attribution, re-verification and settlement, and the world around them. -/
def system : System World (Settlement.Outside × Attribution.Outside) Raised Call External Res where
  exec := exec
  call
    | .attributeFills current verify =>
        ((attributeOrderFills current verify).bind fun _ => .done ()).lift Sum.inr
    | .reverify now => (reverifyPendingHolds now).bind fun _ => .done ()
    | .settle args => ((Settlement.processPending args).bind fun _ => .done ()).lift Sum.inl
  env := external

end Recovery

end TradePulse
