/-
**The poll of an order that was just placed** (`_poll_and_settle`).

Until its time is up, the poll asks for the order, attributes what is filled of it, and finalizes
the intent once the order is over and all of it is attributed.  A recovery that comes later, when
the poll has given up, does the same in one pass; the two are written separately.

Main definitions:

* `Polling`, `Tick` — the intent as the poll has it, and how one turn of its loop ends;
* `Polling.settle` — what a turn does once the order and its executions are known;
* `pollAndSettle` — the procedure;
* `LeavesOpen`, `Chooses` — an intent is left open, or given a status.

Main results:

* `settle_agrees` — poll and recovery leave the intent open alike, or give it the same status.
-/

import TradePulse.Execution.Recovery

set_option autoImplicit false

namespace TradePulse

open Storage Process Attribution Recovery

/-- `ExecutionStatus`. -/
inductive ExecutionStatus
  | filled | partiallyFilled | rejected | skipped | pending
  deriving DecidableEq

/-- What the caller of an execution is told. -/
structure ExecutionResult where
  status : ExecutionStatus
  tradeIntentId : Option String
  reasons : List String
  filledQuantity : ℚ
  filledAvgPrice : Option ℚ
  deriving DecidableEq

/-- A poll between two turns of its loop. -/
structure Polling where
  current : TradeIntent
  lastFilledQty : ℚ

/-- How a turn ends: another one, out of the loop, or a result. -/
inductive Tick
  | again (p : Polling)
  | leave (p : Polling)
  | finished (result : ExecutionResult)

namespace Polling

/-- What was attributed replaces what the intent had before, if it is not the same. -/
def withAttributed (p : Polling) (attributed : AttributedFills) : Polling :=
  if attributed.quantity ≠ p.lastFilledQty then
    { current :=
        { p.current with
          filledQuantity := attributed.quantity
          filledAvgPrice := orPrice attributed.avgPrice p.current.filledAvgPrice }
      lastFilledQty := attributed.quantity }
  else p

/-- A result of a poll that could not finalize. -/
def pending (p : Polling) (reasons : List String) (quantity : ℚ) (price : Option ℚ) :
    ExecutionResult where
  status := .pending
  tradeIntentId := some p.current.tradeIntentId
  reasons := reasons
  filledQuantity := quantity
  filledAvgPrice := price

/-- The result of an intent that was finalized. -/
def finalResult (current : TradeIntent) (status : TradeIntentStatus) (attributedQty : ℚ) :
    ExecutionResult where
  status := if status = .filled then .filled else if 0 < attributedQty then .partiallyFilled
    else .rejected
  tradeIntentId := some current.tradeIntentId
  reasons := []
  filledQuantity := attributedQty
  filledAvgPrice := current.filledAvgPrice

/-- The second half of a turn: what the order's status means, given what was attributed. -/
def conclude (p : Polling) (order : BrokerOrder) (attributedQty : ℚ) : Recover Tick :=
  if order.status.terminal then
    if 0 < order.filledQty ∧ attributedQty < order.filledQty then return .again p
    else
      match terminalStatusForOrder order.status attributedQty p.current.requestedQuantity with
      | none =>
          if order.status = .filled then do
            attributing .sendAlert
            return .finished (p.pending ["BROKER_ORDER_INTEGRITY_MISMATCH"] attributedQty
              p.current.filledAvgPrice)
          else return .leave p
      | some status => do
          let _ ← settling (.updateTradeIntent { p.current with status := status } none)
          processPending
          return .finished (finalResult p.current status attributedQty)
  else if order.status = .partiallyFilled ∧ p.current.status ≠ .partiallyFilled then do
    let current := { p.current with status := .partiallyFilled }
    let _ ← settling (.updateTradeIntent current none)
    return .again { p with current := current }
  else return .again p

/-- What a turn does once the order is known, and its executions if any of it is filled. -/
def settle (p : Polling) (order : BrokerOrder) : Option AttributedFills → Recover Tick
  | none => p.conclude order p.lastFilledQty
  | some attributed =>
      if order.filledQty < attributed.quantity then do
        attributing .sendAlert
        return .finished (p.pending ["BROKER_FILL_INTEGRITY_MISMATCH"] attributed.quantity
          attributed.avgPrice)
      else (p.withAttributed attributed).conclude order attributed.quantity

/-- One turn.  Nothing is attributed while the order has nothing filled. -/
def tick (p : Polling) (orderId : String) : Recover Tick := do
  match ← lookUp orderId with
  | none => return .again p
  | some order => do
      let attributed ← (if 0 < order.filledQty then do
          let attributed ← (attributeOrderFills p.current true).lift Sum.inr
          return some attributed
        else return none : Recover (Option AttributedFills))
      p.settle order attributed

/-- The time is up, and the order is not over yet. -/
def timeOut (p : Polling) : Recover ExecutionResult := do
  let current :=
    { p.current with status := if 0 < p.lastFilledQty then .partiallyFilled else .accepted }
  let _ ← settling (.updateTradeIntent current none)
  return p.pending [] p.lastFilledQty p.current.filledAvgPrice

/-- The loop; the time is up after a number of turns. -/
def poll (orderId : String) : ℕ → Polling → Recover ExecutionResult
  | 0, p => p.timeOut
  | turns + 1, p => do
      match ← p.tick orderId with
      | .again p' => poll orderId turns p'
      | .leave p' => p'.timeOut
      | .finished result => return result

end Polling

/-- `_poll_and_settle`. -/
def pollAndSettle (intent : TradeIntent) (turns : ℕ) : Recover ExecutionResult :=
  match intent.brokerOrderId with
  | none => Prog.fail (.valueError "POLL_REQUIRES_BROKER_ORDER_ID")
  | some orderId => Polling.poll orderId turns ⟨intent, intent.filledQuantity⟩

/-! ### Poll and recovery agree -/

/-- Every status that a program gives an intent leaves it open. -/
def LeavesOpen {α : Type} (p : Recover α) : Prop :=
  p.Uses fun o => ∀ written key, o = .inl (.updateTradeIntent written key) →
    written.status.terminal = false

/-- A program begins with giving the intent a status and a filled quantity. -/
def Chooses {α : Type} (p : Recover α) (id : String) (status : TradeIntentStatus) (quantity : ℚ) :
    Prop :=
  ∃ (written : TradeIntent) (next : Bool → Recover α),
    p = (settling (.updateTradeIntent written none)).bind next ∧
      written.tradeIntentId = id ∧ written.status = status ∧ written.filledQuantity = quantity

section Agree

variable {p : Polling} {intent : TradeIntent} {order : BrokerOrder} {attributed : AttributedFills}

theorem leavesOpen_done {α : Type} (a : α) : LeavesOpen (.done a : Recover α) := trivial

theorem leavesOpen_sendAlert : LeavesOpen (attributing .sendAlert) :=
  (Prog.uses_perform _).2 fun _ _ h => by cases h

theorem leavesOpen_update {written : TradeIntent} (h : written.status.terminal = false) :
    LeavesOpen (settling (.updateTradeIntent written none)) := by
  refine (Prog.uses_perform _).2 fun written' key heq => ?_
  obtain ⟨rfl, -⟩ : written = written' ∧ none = key := by simpa using heq
  exact h

theorem LeavesOpen.bind {α β : Type} {p : Recover α} {f : α → Recover β} (hp : LeavesOpen p)
    (hf : ∀ a, LeavesOpen (f a)) : LeavesOpen (p.bind f) :=
  Prog.Uses.bind hf hp

/-- An order that is over but not wholly attributed leaves the intent open. -/
theorem leavesOpen_finalize (hopen : intent.status.terminal = false)
    (hless : attributed.quantity < order.filledQty) :
    LeavesOpen (finalize intent attributed order) := by
  unfold finalize
  rw [if_neg (not_lt.2 hless.le), if_neg fun h => absurd h.2 (not_le.2 hless)]
  split
  · refine (leavesOpen_update ?_).bind fun _ => leavesOpen_done ()
    dsimp only
    split
    · rfl
    · exact hopen
  · exact leavesOpen_done ()

/-- The second half of a turn, when everything is attributed. -/
theorem conclude_of_attributed (hterminal : order.status.terminal = true)
    (hall : attributed.quantity = order.filledQty) :
    p.conclude order attributed.quantity =
      match terminalStatusForOrder order.status attributed.quantity p.current.requestedQuantity with
      | none =>
          if order.status = .filled then do
            attributing .sendAlert
            return .finished (p.pending ["BROKER_ORDER_INTEGRITY_MISMATCH"] attributed.quantity
              p.current.filledAvgPrice)
          else return .leave p
      | some status => do
          let _ ← settling (.updateTradeIntent { p.current with status := status } none)
          processPending
          return .finished (Polling.finalResult p.current status attributed.quantity) := by
  have hlag : ¬(0 < order.filledQty ∧ attributed.quantity < order.filledQty) :=
    fun h => h.2.ne hall
  rw [Polling.conclude, if_pos hterminal, if_neg hlag]

/-- The end of a recovery, when everything is attributed. -/
theorem finalize_of_attributed (hterminal : order.status.terminal = true)
    (hall : attributed.quantity = order.filledQty) :
    finalize intent attributed order =
      match terminalStatusForOrder order.status attributed.quantity intent.requestedQuantity with
      | none => if order.status = .filled then attributing .sendAlert else return ()
      | some status => (do
          let _ ← settling (.updateTradeIntent
            { intent with
              status := status
              filledQuantity := attributed.quantity
              filledAvgPrice := orPrice attributed.avgPrice intent.filledAvgPrice } none)
          processPending) := by
  have hover : ¬ order.filledQty < attributed.quantity := not_lt.2 hall.le
  have hfull : order.status.terminal = true ∧ order.filledQty ≤ attributed.quantity :=
    ⟨hterminal, hall.ge⟩
  rw [finalize, if_neg hover]
  exact if_pos hfull

/-- The second half of a turn, and the end of a recovery. -/
theorem conclude_agrees (hterminal : order.status.terminal = true)
    (hid : p.current.tradeIntentId = intent.tradeIntentId)
    (hrequested : p.current.requestedQuantity = intent.requestedQuantity)
    (hquantity : p.current.filledQuantity = attributed.quantity)
    (hopen : intent.status.terminal = false) (hnonneg : 0 ≤ attributed.quantity)
    (hle : attributed.quantity ≤ order.filledQty) :
    (LeavesOpen (p.conclude order attributed.quantity) ∧
        LeavesOpen (finalize intent attributed order)) ∨
      ∃ status, Chooses (p.conclude order attributed.quantity) intent.tradeIntentId status
          attributed.quantity ∧
        Chooses (finalize intent attributed order) intent.tradeIntentId status
          attributed.quantity := by
  rcases hle.lt_or_eq with hless | heq
  · -- the listing of executions lags behind the order
    refine .inl ⟨?_, leavesOpen_finalize hopen hless⟩
    unfold Polling.conclude
    rw [if_pos hterminal, if_pos ⟨hnonneg.trans_lt hless, hless⟩]
    exact leavesOpen_done _
  · rw [conclude_of_attributed hterminal heq, finalize_of_attributed hterminal heq, hrequested]
    cases terminalStatusForOrder order.status attributed.quantity intent.requestedQuantity with
    | none =>
        refine .inl ⟨?_, ?_⟩
        · dsimp only
          split
          · exact leavesOpen_sendAlert.bind fun _ => leavesOpen_done _
          · exact leavesOpen_done _
        · dsimp only
          split
          · exact leavesOpen_sendAlert
          · exact leavesOpen_done _
    | some status =>
        exact .inr ⟨status, ⟨_, _, rfl, hid, rfl, hquantity⟩, ⟨_, _, rfl, rfl, rfl, rfl⟩⟩

/-- **Poll and recovery agree** on an order that is over: for the same order, and the same quantity
attributed, no more than is filled, either both leave the intent open or both give it the same
status and filled quantity. -/
theorem settle_agrees (hterminal : order.status.terminal = true)
    (hid : p.current.tradeIntentId = intent.tradeIntentId)
    (hrequested : p.current.requestedQuantity = intent.requestedQuantity)
    (hlast : p.current.filledQuantity = p.lastFilledQty)
    (hsame : ¬ 0 < order.filledQty → p.lastFilledQty = attributed.quantity)
    (hopen : intent.status.terminal = false) (hnonneg : 0 ≤ attributed.quantity)
    (hle : attributed.quantity ≤ order.filledQty) :
    (LeavesOpen (p.settle order (if 0 < order.filledQty then some attributed else none)) ∧
        LeavesOpen (finalize intent attributed order)) ∨
      ∃ status, Chooses (p.settle order (if 0 < order.filledQty then some attributed else none))
          intent.tradeIntentId status attributed.quantity ∧
        Chooses (finalize intent attributed order) intent.tradeIntentId status
          attributed.quantity := by
  by_cases hfilled : 0 < order.filledQty
  · rw [if_pos hfilled, Polling.settle, if_neg (not_lt.2 hle)]
    unfold Polling.withAttributed
    split
    · exact conclude_agrees hterminal hid hrequested rfl hopen hnonneg hle
    · rename_i hsame'
      refine conclude_agrees hterminal hid hrequested ?_ hopen hnonneg hle
      rw [hlast, not_not.1 hsame']
  · rw [if_neg hfilled, Polling.settle, hsame hfilled]
    exact conclude_agrees hterminal hid hrequested (hlast.trans (hsame hfilled)) hopen hnonneg hle

end Agree

end TradePulse
