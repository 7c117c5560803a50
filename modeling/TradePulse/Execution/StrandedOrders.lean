/-
**Whether an intent that was closed has a live order** (`execution/gateway.py`,
`reconciliation/coordinator.py`).

The sweep closes an intent when the broker knows no order of it.  That is proof of the past only: an
execution that verified its reservation, and was then delayed until its reservation was over, still
sends its order.  The broker accepts it, and the intent is closed with a live order.

Apart from that, the reservation is enough.  If no execution is between its last look at the
reservation and the broker's answer when the sweep asks the broker, none ever comes there any more:
the token of each is lost, as the sweep has the asset, and tokens are never taken twice.  Nor does an
execution take up an intent that is closed, unless somebody has written over its row.

Main definitions:

* `Call`, `Change`, `desk` — executions and sweeps, what else goes on, and all of them together;
* `swept` — the intents that the sweep has closed;
* `Undisturbed` — nobody is sending when the sweep asks the broker, and no execution takes up an
  intent that was closed;
* `Safe` — the invariant: locks, tokens and what each call knows.

Main results:

* `execute_along` — what an execution does, step by step;
* `Safe.move`, `Safe.commit` — the step lemmas;
* `closed_intents_have_no_order` — **in every undisturbed run, no order of a closed intent is at the
  broker, on its way, or about to be sent**;
* `order_of_closed_intent` — and the run in which there is one.
-/

import TradePulse.Execution.Stranded

set_option autoImplicit false

namespace TradePulse

namespace Submission

open Storage Process Persistence

/-! ### What an execution does -/

/-- An execution that has reserved its asset. -/
structure Reserved (asset : AssetIdentity) (token : String) (g : Agent) : Prop where
  execution : g.sweeping = false
  assetKey : g.assetKey = assetIdentityKey asset
  reservation : g.reservation = some (assetIdentityKey asset, token)

/-- The work of an execution goes on: the reservation and the row are the same. -/
structure SameWork (g g' : Agent) : Prop where
  sweeping : g'.sweeping = g.sweeping
  assetKey : g'.assetKey = g.assetKey
  reservation : g'.reservation = g.reservation
  known : g'.known = g.known

theorem SameWork.refl (g : Agent) : SameWork g g := ⟨rfl, rfl, rfl, rfl⟩

section Executions

variable {assetOf : String → String} {g g' : Agent} {asset : AssetIdentity} {token : String}
  {row row' old : IntentRow}

theorem Reserved.same (h : Reserved asset token g) (hsame : SameWork g g') :
    Reserved asset token g' :=
  ⟨hsame.sweeping.trans h.execution, hsame.assetKey.trans h.assetKey,
    hsame.reservation.trans h.reservation⟩

/-- Rows of one intent. -/
structure SameIntent (row row' : IntentRow) : Prop where
  id : row'.id = row.id
  key : row'.intent.idempotencyKey = row.intent.idempotencyKey
  assetKey : row'.assetKey = row.assetKey

theorem WrittenBy.same (h : WrittenBy g row) (hsame : SameWork g g') (hrow : SameIntent row row') :
    WrittenBy g' row' := by
  obtain ⟨old, hknown, hid, hkey, hasset⟩ := h.known
  refine ⟨hsame.sweeping.trans h.execution, old, hsame.known.trans hknown, hrow.id.trans hid,
    hrow.key.trans hkey, ?_⟩
  rwa [hrow.assetKey, hsame.assetKey]

/-- An execution keeps its reservation, however it ends. -/
abbrev Keeps (assetOf : String → String) (asset : AssetIdentity) (token : String) (g : Agent)
    {α : Type} (p : M α) : Prop :=
  Follows assetOf g p (fun g' _ => Reserved asset token g') fun g' _ => Reserved asset token g'

theorem updateIntent_along (hw : WrittenBy g row) :
    Follows assetOf g (perform (.updateIntent row)) (fun g' _ => g' = g) fun g' _ => g' = g :=
  Prog.Along.perform hw (fun _ _ => rfl) fun _ => rfl

theorem updateIntent_keeps (h : Reserved asset token g) (hw : WrittenBy g row) :
    Keeps assetOf asset token g (perform (.updateIntent row)) :=
  (updateIntent_along hw).mono (fun _ _ hg => hg ▸ h) fun _ _ hg => hg ▸ h

theorem close_along (h : Reserved asset token g) (hw : WrittenBy g row) (reason : String) :
    Keeps assetOf asset token g (close row reason) := by
  refine updateIntent_keeps h ?_
  exact hw.same (.refl g) ⟨rfl, rfl, rfl⟩

theorem unlessRefused_along (h : Reserved asset token g) (hw : WrittenBy g row)
    (question : Question) {next : M Unit} (hnext : Keeps assetOf asset token g next) :
    Keeps assetOf asset token g (unlessRefused question row next) := by
  refine quietly (o := .consult question) trivial (fun refusal => ?_) fun _ => h
  cases refusal with
  | none => exact hnext
  | some reason => exact close_along h hw reason

theorem recoverUnknownSubmission_along (h : Reserved asset token g) (hw : WrittenBy g row)
    (cause : String) : Keeps assetOf asset token g (recoverUnknownSubmission row cause) := by
  refine Prog.Along.bind (Q := fun g' _ => SameWork g g') (fun g₁ order hsame => ?_)
    (Prog.Along.tryCatch (F := fun g' _ => g' = g) (fun g₁ e hg => ?_)
      (Prog.Along.perform ?_ (fun _ _ => ⟨rfl, rfl, rfl, rfl⟩) fun _ => rfl))
  · have h₁ := h.same hsame
    cases order.filter fun order => orderMatchesIntent order row with
    | some order =>
        refine updateIntent_keeps h₁ ?_
        exact hw.same hsame ⟨rfl, rfl, rfl⟩
    | none =>
        refine Prog.Along.bind (Q := fun g' _ => Reserved asset token g') (fun g₂ _ h₂ => ?_)
          (updateIntent_keeps h₁ ?_)
        · exact (quiet (p := perform .sendAlert) ((Prog.uses_perform _).2 trivial)).mono
            (fun _ _ hg => hg ▸ h₂) fun _ _ hg => hg ▸ h₂
        · exact hw.same hsame ⟨rfl, rfl, rfl⟩
  · exact hg ▸ .refl g
  · exact fun hsweeping => absurd (h.execution.symm.trans hsweeping) (by decide)

/-- An execution that may send its order: it has verified its reservation, and has not sent it. -/
structure Ready (g : Agent) (row : IntentRow) : Prop where
  written : WrittenBy g row
  intent : g.intent = some row.id
  answered : g.answered = false

theorem Ready.same (h : Ready g row) (hrow : SameIntent row row') : Ready g row' :=
  ⟨h.written.same (.refl g) hrow, h.intent.trans (congrArg some hrow.id.symm), h.answered⟩

theorem placeOrder_along (h : Ready g row) (hcleared : g.cleared = true) :
    Follows assetOf g (placeOrder row.orderRequest) (fun g' _ => SameWork g g')
      fun _ _ => False := by
  refine Prog.Along.tryCatch (F := fun g' _ => SameWork g g') (fun g₁ e hsame => ?_) ?_
  · exact hsame
  · refine Prog.Along.bind (Q := fun g' _ => g' = g) (fun g₁ _ hg => ?_)
      (Prog.Along.perform ⟨h.written.execution, hcleared, h.answered, h.intent⟩ (fun _ _ => rfl)
        fun _ => ⟨rfl, rfl, rfl, rfl⟩)
    subst hg
    exact Prog.Along.perform h.written.execution (fun _ _ => ⟨rfl, rfl, rfl, rfl⟩)
      fun _ => ⟨rfl, rfl, rfl, rfl⟩

theorem submit_along (hr : Reserved asset token g) (h : Ready g row) (hcleared : g.cleared = true) :
    Keeps assetOf asset token g (submit row) := by
  have hsubmitted : Ready g (row.withStatus .submitted) := h.same ⟨rfl, rfl, rfl⟩
  refine Prog.Along.bind (fun g₁ _ hg => ?_)
    ((updateIntent_along hsubmitted.written).mono (fun _ _ hg => hg) fun _ _ hg => hg ▸ hr)
  subst hg
  refine unlessRefused_along hr hsubmitted.written _ ?_
  refine Prog.Along.bind (fun g₂ reply hsame => ?_)
    ((placeOrder_along hsubmitted hcleared).mono (fun _ _ h => h) fun _ _ h => h.elim)
  have hr₂ := hr.same hsame
  have hw₂ := hsubmitted.written.same hsame ⟨rfl, rfl, rfl⟩
  cases reply with
  | rejected reason => exact close_along hr₂ hw₂ _
  | ambiguous cause => exact recoverUnknownSubmission_along hr₂ hw₂ _
  | placed brokerOrderId =>
      dsimp only
      split
      · exact recoverUnknownSubmission_along hr₂ hw₂ _
      · refine updateIntent_keeps hr₂ ?_
        exact hw₂.same (.refl g₂) ⟨rfl, rfl, rfl⟩

theorem dispatch_along {request : ExecutionRequest} (hr : Reserved request.asset token g)
    (h : Ready g row) : Keeps assetOf request.asset token g (dispatch request token row) := by
  refine unlessRefused_along hr h.written _ <| unlessRefused_along hr h.written _ <|
    unlessRefused_along hr h.written _ ?_
  refine Prog.Along.bind (Q := fun g' renewed => g' = { g with cleared := renewed })
    (fun g₁ renewed hg => ?_)
    (Prog.Along.perform ⟨hr.execution, by rw [h.intent]; rfl, hr.reservation, hr.assetKey.symm⟩
      (fun _ _ => rfl) fun _ => hr)
  have hr₁ : Reserved request.asset token g₁ := hg ▸ hr.same ⟨rfl, rfl, rfl, rfl⟩
  have h₁ : Ready g₁ row :=
    hg ▸ ⟨h.written.same ⟨rfl, rfl, rfl, rfl⟩ ⟨rfl, rfl, rfl⟩, h.intent, h.answered⟩
  cases renewed with
  | true =>
      refine unlessRefused_along hr₁ h₁.written _ <| unlessRefused_along hr₁ h₁.written _ ?_
      exact submit_along hr₁ h₁ (by rw [hg])
  | false => exact quietly (o := .sendAlert) trivial (fun _ => close_along hr₁ h₁.written _) fun _ => hr₁

theorem decideIntent_along {request : ExecutionRequest} (hr : Reserved request.asset token g)
    (h : Ready g row) : Keeps assetOf request.asset token g (decideIntent request token row) := by
  refine quietly (o := .evaluateRisk) trivial (fun answer => ?_) fun _ => hr
  cases answer with
  | refused reason => exact close_along hr h.written _
  | approved quantity account =>
      dsimp only
      refine Prog.Along.bind (Q := fun g' _ => g' = g) (fun g₁ approval hg => ?_)
        (Prog.Along.perform ?_ (fun _ _ => rfl) fun _ => hr)
      · subst hg
        cases approval with
        | refused reason => exact close_along hr h.written _
        | written => exact dispatch_along hr (h.same ⟨rfl, rfl, rfl⟩)
      · exact h.written.same (.refl g) ⟨rfl, rfl, rfl⟩

/-- What an execution knows before it has a row to work on: nothing, or the row it takes up. -/
structure Starting (g : Agent) (existing : Option IntentRow) : Prop where
  cleared : g.cleared = false
  answered : g.answered = false
  known : ∀ row ∈ existing, g.known = some row ∧ g.intent = some row.id

theorem proceed_along {request : ExecutionRequest} {existing : Option IntentRow}
    (hnames : ∀ k ∈ request.idempotencyKey, assetOf k = assetIdentityKey request.asset)
    (hr : Reserved request.asset token g) (h : Starting g existing) :
    Keeps assetOf request.asset token g (proceed request token existing) := by
  refine quietly (o := .consult .admission) trivial (fun refusal => ?_) fun _ => hr
  cases refusal with
  | some reason => exact hr
  | none =>
      refine Prog.Along.bind (Q := fun g' row => SameWork { g with known := g'.known } g' ∧
        Ready g' row) (fun g₁ row h₁ => ?_) ?_
      · refine decideIntent_along ?_ h₁.2
        exact ⟨h₁.1.sweeping.trans hr.execution, h₁.1.assetKey.trans hr.assetKey,
          h₁.1.reservation.trans hr.reservation⟩
      · cases existing with
        | none =>
            refine Prog.Along.perform ⟨hr.execution, h.cleared, hr.assetKey.symm, fun k hk => ?_⟩
              (fun row _ => ?_) fun _ => hr
            · rw [hr.assetKey]
              exact hnames k hk
            · exact ⟨⟨rfl, rfl, rfl, rfl⟩, ⟨hr.execution, row, rfl, rfl, rfl, .inr rfl⟩, rfl,
                h.answered⟩
        | some old =>
            obtain ⟨hknown, hintent⟩ := h.known old rfl
            have hw : WrittenBy g ((request.draft old.intent.createdAt).identifiedAs old) :=
              ⟨hr.execution, old, hknown, rfl, rfl, .inl hr.assetKey.symm⟩
            refine Prog.Along.bind (Q := fun g' _ => g' = g) (fun g₁ _ hg => ?_)
              ((updateIntent_along hw).mono (fun _ _ hg => hg) fun _ _ hg => hg ▸ hr)
            subst hg
            exact ⟨⟨rfl, rfl, rfl, rfl⟩, hw, hintent, h.answered⟩

theorem executeIntent_along {request : ExecutionRequest}
    (hnames : ∀ k ∈ request.idempotencyKey, assetOf k = assetIdentityKey request.asset)
    (hr : Reserved request.asset token g) (hcleared : g.cleared = false)
    (hanswered : g.answered = false) :
    Keeps assetOf request.asset token g (executeIntent request token) := by
  have hstart : Starting g none := ⟨hcleared, hanswered, by simp⟩
  refine Prog.Along.bind
    (Q := fun g' found => (found = none → g' = g) ∧ ∀ row, found = some row →
      g' = { g with known := some row, intent := if row.takenUp then some row.id else none })
    (fun g₁ found h => ?_) ?_
  · cases found with
    | none =>
        obtain rfl := h.1 rfl
        exact proceed_along hnames hr hstart
    | some row =>
        have hg := h.2 row rfl
        have hr₁ : Reserved request.asset token g₁ := by
          rw [hg]
          exact ⟨hr.execution, hr.assetKey, hr.reservation⟩
        refine Prog.Along.bind (Q := fun g' row' => g' = g₁ ∧ row' = row) (fun g₂ row' h₂ => ?_)
          (Prog.Along.ofExcept (fun row' h => ⟨rfl, (hydrate_eq_ok_iff.1 h).2⟩) fun _ _ => hr₁)
        obtain ⟨rfl, rfl⟩ := h₂
        unfold resume
        split
        · rename_i htaken
          refine proceed_along hnames hr₁ ⟨by rw [hg]; exact hcleared, by rw [hg]; exact hanswered,
            fun row hrow => ?_⟩
          cases hrow
          rw [hg]
          exact ⟨rfl, if_pos htaken⟩
        · split
          · refine recoverUnknownSubmission_along hr₁ ?_ _
            refine ⟨hr₁.execution, row', ?_, rfl, rfl, .inr rfl⟩
            rw [hg]
          · exact hr₁
  · unfold findExisting
    cases hkey : request.idempotencyKey with
    | none => exact ⟨fun _ => rfl, fun _ h => absurd h (by simp)⟩
    | some key =>
        refine Prog.Along.perform ⟨hr.execution, hcleared, ?_⟩ (fun found _ => ?_) fun _ => hr
        · rw [hr.assetKey]
          exact hnames key hkey
        · cases found with
          | none => exact ⟨fun _ => rfl, fun _ h => absurd h (by simp)⟩
          | some row =>
              refine ⟨fun h => absurd h (by simp), fun row' h => ?_⟩
              cases h
              rfl

theorem whileReserved_along {request : ExecutionRequest}
    (hnames : ∀ k ∈ request.idempotencyKey, assetOf k = assetIdentityKey request.asset)
    (hr : Reserved request.asset token g) (hcleared : g.cleared = false)
    (hanswered : g.answered = false) :
    Keeps assetOf request.asset token g (whileReserved request token) := by
  refine quietly (o := .hasInFlightIntent request.asset) trivial (fun busy => ?_) fun _ => hr
  cases busy with
  | true => exact hr
  | false => exact runWithLockRenewal_along (executeIntent_along hnames hr hcleared hanswered)

/-- What an execution knows at its start. -/
def Agent.execution (asset : AssetIdentity) : Agent :=
  { sweeping := false, assetKey := assetIdentityKey asset }

/-- **An execution**: whatever it does is allowed. -/
theorem execute_along {request : ExecutionRequest}
    (hnames : ∀ k ∈ request.idempotencyKey, assetOf k = assetIdentityKey request.asset) :
    Follows assetOf (Agent.execution request.asset) (execute request) (fun _ _ => True)
      fun _ _ => True := by
  refine Prog.Along.bind
    (Q := fun g' reserved => ∀ token, reserved = some token →
      Reserved request.asset token g' ∧ g'.cleared = false ∧ g'.answered = false)
    (fun g₁ reserved h => ?_)
    (Prog.Along.perform (.inr ⟨rfl, rfl, rfl⟩) (fun reserved _ => ?_) fun _ => trivial)
  · cases reserved with
    | none => trivial
    | some token =>
        obtain ⟨hr, hcleared, hanswered⟩ := h token rfl
        refine Prog.Along.bind (Q := fun g' _ => Reserved request.asset token g')
          (fun g₂ result hr₂ => ?_)
          ((attempt_along (whileReserved_along hnames hr hcleared hanswered)).mono
            (fun _ _ h => h) fun _ _ h => h.elim)
        exact Prog.Along.bind (Q := fun _ _ => True)
          (fun _ _ _ => Prog.Along.ofExcept (fun _ _ => trivial) fun _ _ => trivial)
          (Prog.Along.perform hr₂.reservation (fun _ _ => trivial) fun _ => trivial)
  · cases reserved with
    | none => exact fun _ h => absurd h (by simp)
    | some token =>
        intro token' h
        cases h
        exact ⟨⟨rfl, rfl, rfl⟩, rfl, rfl⟩

end Executions

/-! ### Executions, sweeps, and what else goes on -/

/-- The identities of a row name its asset. -/
structure Named (assetOf : String → String) (row : IntentRow) : Prop where
  id : assetOf row.id = row.assetKey
  key : assetOf row.intent.idempotencyKey = row.assetKey

instance (assetOf : String → String) (row : IntentRow) : Decidable (Named assetOf row) :=
  decidable_of_iff
    (assetOf row.id = row.assetKey ∧ assetOf row.intent.idempotencyKey = row.assetKey)
    ⟨fun h => ⟨h.1, h.2⟩, fun h => ⟨h.1, h.2⟩⟩

/-- A call: an execution, whose key names its asset, or a sweep. -/
inductive Call (assetOf : String → String)
  | execute (request : ExecutionRequest)
      (names : ∀ k ∈ request.idempotencyKey, assetOf k = assetIdentityKey request.asset)
  | sweep (a : SweepArgs)

/-- What a call knows at its start. -/
def Call.init {assetOf : String → String} : Call assetOf → Agent
  | .execute request _ => .execution request.asset
  | .sweep a => .sweep a.lease

/-- What else goes on. -/
inductive Change
  | tick (t : Instant)
  /-- A lock is renewed, released or taken; the tokens of the reservations are their owners'. -/
  | lock (lockKey : String) (lock : Option Lock)
  /-- Anybody else writes an intent over itself: polling, settlement, an operator. -/
  | writeIntent (row : IntentRow)
  | hold (hold : IntegrityHold)
  | unhold (brokerOrderId : String)
  /-- A request reaches the broker, which accepts one order for each client order id. -/
  | arrive (request : OrderRequest) (brokerOrderId : String)
  | lose (request : OrderRequest)
  | progress (order : BrokerOrder)
  /-- An order that was not sent for any stored intent. -/
  | otherOrder (order : BrokerOrder)
  | account (accountNumber : String)

/-- The order that the broker makes of a request. -/
def OrderRequest.order (request : OrderRequest) (brokerOrderId : String) : BrokerOrder where
  brokerOrderId := brokerOrderId
  status := .new
  symbol := request.symbol
  side := some request.side
  clientOrderId := some request.clientOrderId
  orderType := request.orderType
  timeInForce := request.timeInForce
  qty := request.qty

/-- The lock may be written so: its owner is the one it had, or none of the reservations'. -/
def World.ownerKept (s : World) (lockKey : String) (lock : Lock) : Bool :=
  lock.ownerToken ∉ s.uuids ∨ (s.locks lockKey).any fun old => old.ownerToken = lock.ownerToken

def change (assetOf : String → String) : Change → World → Option World
  | .tick t, s => if s.clock ≤ t then some { s with clock := t } else none
  | .lock lockKey lock, s =>
      if lock.all (s.ownerKept lockKey) then
        some { s with locks := Function.update s.locks lockKey lock }
      else none
  | .writeIntent row, s =>
      if Named assetOf row then some { s with tradeIntents := s.tradeIntents.put row } else none
  | .hold hold, s =>
      some { s with integrityHolds := s.integrityHolds.createOnce hold }
  | .unhold brokerOrderId, s =>
      some { s with integrityHolds := s.integrityHolds.delete brokerOrderId }
  | .arrive request brokerOrderId, s =>
      if request ∈ s.requests then
        some { s with
          requests := s.requests.erase request
          orders := if (s.orderFor request.clientOrderId).isSome then s.orders
            else s.orders.createOnce (request.order brokerOrderId) }
      else none
  | .lose request, s => some { s with requests := s.requests.erase request }
  | .progress order, s =>
      if (s.orders.get? order.brokerOrderId).any fun old => old.clientOrderId = order.clientOrderId
      then some { s with orders := s.orders.put order } else none
  | .otherOrder order, s =>
      if order.clientOrderId.all fun id => (s.tradeIntents.get? id).isNone then
        some { s with orders := s.orders.createOnce order }
      else none
  | .account accountNumber, s => some { s with accountNumber := accountNumber }

/-- A call, with what it has learned. -/
def Call.program {assetOf : String → String} (c : Call assetOf) :
    Prog Raised (fun o : Agent × Op => o.2.Res) Unit :=
  match c with
  | .execute request _ =>
      (Submission.execute request).tag Agent.learn (.execution request.asset)
  | .sweep a => sweepCall a

/-- Executions, sweeps, and what else goes on. -/
def desk (assetOf : String → String) :
    System World Outside Raised (Call assetOf) Change fun o : Agent × Op => o.2.Res where
  exec o := exec assetOf o.2
  call := Call.program
  env := change assetOf

theorem labelledBy_desk (assetOf : String → String) :
    (desk assetOf).LabelledBy Agent.learn Anything (Allowed assetOf) Call.init where
  gives _ _ _ _ _ _ := trivial
  obeys c := by
    cases c with
    | execute request names => exact (execute_along names).obeys_tag
    | sweep a => exact (sweepCall_along assetOf a).obeys_tag
  label c := by
    cases c with
    | execute request names => exact Prog.label?_tag _ _
    | sweep a => exact Prog.label?_tag _ _

/-! ### The condition -/

/-- The record of an intent that the sweep has closed. -/
def SweepRecord.closes (r : SweepRecord) : Bool :=
  match r.actual with
  | .resolved _ .rejected _ _ => r.outcome = .corrected
  | _ => false

/-- The intents that the sweep has closed. -/
def swept (s : World) : List String :=
  (s.reconciliationRecords.rows.filter SweepRecord.closes).map SweepRecord.subjectId

/-- The execution has verified its reservation for the last time, and has no answer of the broker
yet. -/
def Agent.sending (g : Agent) (id : String) : Bool :=
  g.intent = some id ∧ g.cleared = true ∧ g.answered = false

/-- **Nobody disturbs the sweep.**  When the broker tells a sweep that it has no order of an intent,
no execution is about to send one, and no request is on its way; and no execution takes up an intent
that was closed, because somebody has written over its row. -/
def Undisturbed (g : Agent) (o : Op) (_ : Outside) (s : World) (ls : List (Option Agent)) : Prop :=
  match o with
  | .getOrderByClientOrderId id =>
      g.sweeping = true → s.orderFor id = none →
        (∀ r ∈ s.requests, r.clientOrderId ≠ id) ∧ ∀ l ∈ ls, l.all fun g' => !g'.sending id
  | .findByUnique key =>
      (s.tradeIntents.findByUnique key).all fun row => !row.takenUp || !(swept s).contains row.id
  | _ => True

instance (g : Agent) (o : Op) (i : Outside) (s : World) (ls : List (Option Agent)) :
    Decidable (Undisturbed g o i s ls) := by
  unfold Undisturbed
  split <;> infer_instance

/-! ### The invariant -/

/-- No order of the intent is at the broker, on its way, or about to be sent. -/
structure Clean (s : World) (ls : List (Option Agent)) (id : String) : Prop where
  order : ∀ o ∈ s.orders, o.clientOrderId ≠ some id
  request : ∀ r ∈ s.requests, r.clientOrderId ≠ id
  sending : ∀ g, some g ∈ ls → g.sending id = false

/-- What a call knows agrees with the database. -/
structure Fit (assetOf : String → String) (s : World) (g : Agent) : Prop where
  token : ∀ key token, g.reservation = some (key, token) → token ∈ s.uuids
  listed : ∀ row ∈ g.listed, Named assetOf row
  known : ∀ row, g.known = some row → Named assetOf row ∧ row.assetKey = g.assetKey
  intent : ∀ id, g.intent = some id → g.sweeping = false ∧ assetOf id = g.assetKey
  key : g.sweeping = false → ∀ key token, g.reservation = some (key, token) → key = g.assetKey
  candidate : g.sweeping = true → ∀ key token, g.reservation = some (key, token) →
    ∃ id, g.candidate = some id ∧ assetOf id = key
  row : ∀ row, g.row = some row → g.sweeping = true ∧ g.candidate = some row.id ∧
    (s.tradeIntents.get? row.id).isSome

/-- **The invariant.** -/
structure Safe (assetOf : String → String) (s : World) (ls : List (Option Agent)) : Prop where
  named : ∀ row ∈ s.tradeIntents, Named assetOf row
  fit : ∀ g, some g ∈ ls → Fit assetOf s g
  /-- No token is of two calls. -/
  apart : ∀ (i j : ℕ) (g g' : Agent), ls[i]? = some (some g) → ls[j]? = some (some g') →
    ∀ key key' token, g.reservation = some (key, token) → g'.reservation = some (key', token) →
      i = j
  stored : ∀ id ∈ swept s, (s.tradeIntents.get? id).isSome
  closed : ∀ id ∈ swept s, Clean s ls id
  /-- No execution that works on a closed intent owns its asset. -/
  barred : ∀ id ∈ swept s, ∀ g, some g ∈ ls → g.intent = some id →
    ∀ key token, g.reservation = some (key, token) → ¬ s.Owns key token
  /-- A sweep that was told of no order and still owns the asset is right about it. -/
  told : ∀ g, some g ∈ ls → ∀ row key token, g.row = some row → g.order = some none →
    g.reservation = some (key, token) → s.Owns key token → Clean s ls row.id

/-! ### Locks -/

theorem Owns.unique {s : World} {key token token' : String} (h : s.Owns key token)
    (h' : s.Owns key token') : token = token' := by
  obtain ⟨lock, hlock, rfl⟩ := h
  obtain ⟨lock', hlock', rfl⟩ := h'
  rw [hlock] at hlock'
  cases hlock'
  rfl

/-- A lock is written: everybody else owns what he did, and the owner of the lock owns its key. -/
theorem owns_update {s : World} {lockKey : String} {lock : Option Lock} {key token : String}
    (h : ({ s with locks := Function.update s.locks lockKey lock } : World).Owns key token) :
    s.Owns key token ∨ (executionLockKey key = lockKey ∧ ∃ l ∈ lock, l.ownerToken = token) := by
  obtain ⟨l, hl, howner⟩ := h
  by_cases hkey : executionLockKey key = lockKey
  · simp only [hkey, Function.update_self] at hl
    exact .inr ⟨hkey, l, hl, howner⟩
  · simp only [Function.update_of_ne hkey] at hl
    exact .inl ⟨l, hl, howner⟩

/-- Nobody but the caller gets to own anything by a reservation. -/
theorem owns_acquireLock {s : World} {lockKey token command : String} {ttl : ℤ} {now : Instant}
    {key token' : String} (hne : token' ≠ token)
    (h : ({ s with locks := (acquireLock lockKey token command ttl now s.locks).2 } : World).Owns
      key token') : s.Owns key token' := by
  rcases acquireLock_cases lockKey token command ttl now s.locks with ⟨-, hacq⟩ | ⟨-, hacq⟩
  · simp only [hacq] at h
    exact h
  · simp only [hacq] at h
    rcases owns_update h with h | ⟨-, l, hl, howner⟩
    · exact h
    · cases hl
      exact absurd howner.symm hne

theorem owns_renewLock {s : World} {lockKey token : String} {ttl : ℤ} {now : Instant}
    {key token' : String}
    (h : ({ s with locks := (renewLock lockKey token ttl now s.locks).2 } : World).Owns key token') :
    s.Owns key token' := by
  rcases renewLock_cases lockKey token ttl now s.locks with hren | ⟨row, hrow, howner, -, hren⟩
  · simp only [hren] at h
    exact h
  · simp only [hren] at h
    rcases owns_update h with h | ⟨hkey, l, hl, hl'⟩
    · exact h
    · cases hl
      exact ⟨row, hkey ▸ hrow, hl'⟩

theorem owns_of_renewed {s : World} {key token : String} {ttl : ℤ} {now : Instant}
    (h : (renewLock (executionLockKey key) token ttl now s.locks).1 = true) : s.Owns key token := by
  rcases renewLock_cases (executionLockKey key) token ttl now s.locks with
    hren | ⟨row, hrow, howner, -, -⟩
  · rw [hren] at h
    cases h
  · exact ⟨row, hrow, howner⟩

theorem owns_releaseLock {s : World} {lockKey token : String} {key token' : String}
    (h : ({ s with locks := releaseLock lockKey token s.locks } : World).Owns key token') :
    s.Owns key token' := by
  unfold releaseLock at h
  split at h
  · rcases owns_update h with h | ⟨-, l, hl, -⟩
    · exact h
    · cases hl
  · exact h

/-! ### The step lemmas -/

/-- A change of the database and the broker that leaves alone what the invariant relies on. -/
structure Tame (assetOf : String → String) (s : World) (ls : List (Option Agent)) (s' : World) :
    Prop where
  named : ∀ row ∈ s'.tradeIntents, Named assetOf row
  uuids : ∀ token ∈ s.uuids, token ∈ s'.uuids
  owns : ∀ key, ∀ token ∈ s.uuids, s'.Owns key token → s.Owns key token
  swept : swept s' = swept s
  stored : ∀ id, (s.tradeIntents.get? id).isSome → (s'.tradeIntents.get? id).isSome
  clean : ∀ id, (s.tradeIntents.get? id).isSome → Clean s ls id →
    (∀ o ∈ s'.orders, o.clientOrderId ≠ some id) ∧ ∀ r ∈ s'.requests, r.clientOrderId ≠ id

/-- What a call may learn in a step: a reservation is the one it had, or fresh; an intent it starts
to work on is not closed; and it gets to send an order only while it owns the asset. -/
structure Learns (assetOf : String → String) (s : World) (ls : List (Option Agent)) (s' : World)
    (g g' : Agent) : Prop where
  fit : Fit assetOf s' g'
  sweeping : g'.sweeping = g.sweeping
  token : ∀ key token, g'.reservation = some (key, token) → g.reservation = some (key, token) ∨
    (token ∉ s.uuids ∧ g'.intent = none)
  intent : ∀ id, g'.intent = some id → g.intent = some id ∨ id ∉ swept s
  sending : ∀ id, g'.sending id = true → g.sending id = true ∨
    (g.intent = some id ∧ ∃ key token, g.reservation = some (key, token) ∧ s.Owns key token)
  told : ∀ row key token, g'.row = some row → g'.order = some none →
    g'.reservation = some (key, token) →
      (g.row = some row ∧ g.order = some none ∧ g.reservation = some (key, token)) ∨
        ((s.tradeIntents.get? row.id).isSome ∧ Clean s ls row.id)

section Steps

variable {assetOf : String → String} {s s' : World} {ls : List (Option Agent)} {g g' : Agent}
  {j : ℕ}

theorem Tame.refl (h : Safe assetOf s ls) : Tame assetOf s ls s :=
  ⟨h.named, fun _ h => h, fun _ _ _ h => h, rfl, fun _ h => h, fun _ _ h => ⟨h.order, h.request⟩⟩

theorem Fit.mono (h : Fit assetOf s g) (ht : Tame assetOf s ls s') : Fit assetOf s' g :=
  { h with
    token := fun key token hr => ht.uuids token (h.token key token hr)
    row := fun row hrow =>
      ⟨(h.row row hrow).1, (h.row row hrow).2.1, ht.stored _ (h.row row hrow).2.2⟩ }

theorem Learns.refl (h : Fit assetOf s' g) : Learns assetOf s ls s' g g :=
  ⟨h, rfl, fun _ _ h => .inl h, fun _ h => .inl h, fun _ h => .inl h,
    fun _ _ _ hrow horder hr => .inl ⟨hrow, horder, hr⟩⟩

theorem Learns.mono (h : Learns assetOf s ls s g g') (ht : Tame assetOf s ls s') :
    Learns assetOf s ls s' g g' :=
  { h with fit := h.fit.mono ht }

/-- An intent stays clean, unless the call that learns gets to send its order. -/
theorem Clean.move {id : String} (h : Clean s ls id) (hstored : (s.tradeIntents.get? id).isSome)
    (ht : Tame assetOf s ls s') (hg : some g ∈ ls) (hl : Learns assetOf s ls s' g g')
    (hbarred : g.intent = some id →
      ∀ key token, g.reservation = some (key, token) → ¬ s.Owns key token) :
    Clean s' (ls.set j (some g')) id := by
  obtain ⟨horder, hrequest⟩ := ht.clean id hstored h
  refine ⟨horder, hrequest, fun a ha => ?_⟩
  rcases List.mem_or_eq_of_mem_set ha with ha | ha
  · exact h.sending a ha
  · cases ha
    by_contra hsending
    rcases hl.sending id (by simpa using hsending) with hold | ⟨hintent, key, token, hr, howns⟩
    · rw [h.sending g hg] at hold
      cases hold
    · exact hbarred hintent key token hr howns

theorem Clean.env {id : String} (h : Clean s ls id) (hstored : (s.tradeIntents.get? id).isSome)
    (ht : Tame assetOf s ls s') : Clean s' ls id := by
  obtain ⟨horder, hrequest⟩ := ht.clean id hstored h
  exact ⟨horder, hrequest, h.sending⟩

theorem Safe.sole (h : Safe assetOf s ls) {a : Agent} (ha : some a ∈ ls) (hg : some g ∈ ls)
    {row : IntentRow} (hrow : a.row = some row) {key token : String}
    (hr : a.reservation = some (key, token)) (howns : s.Owns key token)
    (hintent : g.intent = some row.id) :
    ∀ key' token', g.reservation = some (key', token') → ¬ s.Owns key' token' := by
  intro key' token' hr' howns'
  obtain ⟨hexecution, hasset⟩ := (h.fit g hg).intent _ hintent
  have hkey' : key' = g.assetKey := (h.fit g hg).key hexecution _ _ hr'
  obtain ⟨hsweeping, hcandidate, -⟩ := (h.fit a ha).row row hrow
  obtain ⟨id, hid, hkey⟩ := (h.fit a ha).candidate hsweeping _ _ hr
  rw [hcandidate] at hid
  cases hid
  -- both have reserved the asset of the intent, so they are one call
  have hsame : key' = key := by rw [hkey', ← hasset, hkey]
  subst hsame
  obtain rfl := Owns.unique howns howns'
  obtain ⟨i, hi⟩ := List.getElem?_of_mem ha
  obtain ⟨k, hk⟩ := List.getElem?_of_mem hg
  obtain rfl := h.apart i k a g hi hk _ _ _ hr hr'
  rw [hi] at hk
  cases hk
  exact absurd (hsweeping.symm.trans hexecution) (by decide)

/-- **The step of a call**, where no intent is closed. -/
theorem Safe.move (h : Safe assetOf s ls) (hj : ls[j]? = some (some g))
    (ht : Tame assetOf s ls s') (hl : Learns assetOf s ls s' g g') :
    Safe assetOf s' (ls.set j (some g')) := by
  have hg : some g ∈ ls := List.mem_of_getElem? hj
  have member : ∀ {a : Agent}, some a ∈ ls.set j (some g') → some a ∈ ls ∨ a = g' := by
    intro a ha
    rcases List.mem_or_eq_of_mem_set ha with ha | ha
    · exact .inl ha
    · cases ha
      exact .inr rfl
  have stored : ∀ id ∈ swept s', (s.tradeIntents.get? id).isSome := fun id hid =>
    h.stored id (ht.swept ▸ hid)
  refine ⟨ht.named, fun a ha => ?_, ?_, fun id hid => ht.stored id (stored id hid),
    fun id hid => ?_, fun id hid a ha hintent key token hr => ?_,
    fun a ha row key token hrow horder hr howns => ?_⟩
  · rcases member ha with ha | rfl
    · exact (h.fit a ha).mono ht
    · exact hl.fit
  · -- tokens: the one of the call that learns is its old one, or fresh
    have fresh : ∀ (i : ℕ) (a : Agent), i ≠ j → ls[i]? = some (some a) → ∀ key key' token,
        a.reservation = some (key, token) → g'.reservation = some (key', token) → False := by
      intro i a hij ha key key' token hr hr'
      rcases hl.token key' token hr' with hold | ⟨hnew, -⟩
      · exact hij (h.apart i j a g ha hj key key' token hr hold)
      · exact hnew ((h.fit a (List.mem_of_getElem? ha)).token key token hr)
    intro i k a b ha hb key key' token hra hrb
    by_cases hij : i = j
    · by_cases hkj : k = j
      · rw [hij, hkj]
      · subst hij
        rw [List.getElem?_set_self (List.getElem?_eq_some_iff.1 hj).1] at ha
        cases ha
        rw [List.getElem?_set_ne (Ne.symm hkj)] at hb
        exact (fresh k b hkj hb _ _ _ hrb hra).elim
    · rw [List.getElem?_set_ne (Ne.symm hij)] at ha
      by_cases hkj : k = j
      · subst hkj
        rw [List.getElem?_set_self (List.getElem?_eq_some_iff.1 hj).1] at hb
        cases hb
        exact (fresh i a hij ha _ _ _ hra hrb).elim
      · rw [List.getElem?_set_ne (Ne.symm hkj)] at hb
        exact h.apart i k a b ha hb key key' token hra hrb
  · have hid' : id ∈ swept s := ht.swept ▸ hid
    exact (h.closed id hid').move (stored id hid) ht hg hl (h.barred id hid' g hg)
  · have hid' : id ∈ swept s := ht.swept ▸ hid
    intro howns
    rcases member ha with ha | rfl
    · exact h.barred id hid' a ha hintent key token hr
        (ht.owns key token ((h.fit a ha).token key token hr) howns)
    · rcases hl.intent id hintent with hold | hnot
      · rcases hl.token key token hr with hr' | ⟨-, hnone⟩
        · exact h.barred id hid' g hg hold key token hr'
            (ht.owns key token ((h.fit g hg).token key token hr') howns)
        · rw [hnone] at hintent
          cases hintent
      · exact hnot hid'
  · rcases member ha with ha | rfl
    · have howns' : s.Owns key token :=
        ht.owns key token ((h.fit a ha).token key token hr) howns
      refine (h.told a ha row key token hrow horder hr howns').move
        ((h.fit a ha).row row hrow).2.2 ht hg hl fun hintent => ?_
      exact h.sole ha hg hrow hr howns' hintent
    · -- the call that learns is a sweep, and works on no intent
      have hsweeping : g.sweeping = true := hl.sweeping ▸ (hl.fit.row row hrow).1
      have hno : g.intent ≠ some row.id := fun hintent =>
        absurd (((h.fit g hg).intent _ hintent).1.symm.trans hsweeping) (by decide)
      rcases hl.told row key token hrow horder hr with ⟨hrow', horder', hr'⟩ | ⟨hstored, hclean⟩
      · have howns' : s.Owns key token :=
          ht.owns key token ((h.fit g hg).token key token hr') howns
        exact (h.told g hg row key token hrow' horder' hr' howns').move
          ((h.fit g hg).row row hrow').2.2 ht hg hl fun hintent => absurd hintent hno
      · exact hclean.move hstored ht hg hl fun hintent => absurd hintent hno

/-- **The step of the world outside.** -/
theorem Safe.elsewhere (h : Safe assetOf s ls) (ht : Tame assetOf s ls s') : Safe assetOf s' ls := by
  have stored : ∀ id ∈ swept s', (s.tradeIntents.get? id).isSome := fun id hid =>
    h.stored id (ht.swept ▸ hid)
  refine ⟨ht.named, fun a ha => (h.fit a ha).mono ht, h.apart,
    fun id hid => ht.stored id (stored id hid),
    fun id hid => (h.closed id (ht.swept ▸ hid)).env (stored id hid) ht,
    fun id hid a ha hintent key token hr howns => ?_,
    fun a ha row key token hrow horder hr howns => ?_⟩
  · exact h.barred id (ht.swept ▸ hid) a ha hintent key token hr
      (ht.owns key token ((h.fit a ha).token key token hr) howns)
  · exact (h.told a ha row key token hrow horder hr
      (ht.owns key token ((h.fit a ha).token key token hr) howns)).env
        ((h.fit a ha).row row hrow).2.2 ht

theorem Safe.ended (h : Safe assetOf s ls) (j : ℕ) : Safe assetOf s (ls.set j none) := by
  have member : ∀ {a : Agent}, some a ∈ ls.set j none → some a ∈ ls := by
    intro a ha
    rcases List.mem_or_eq_of_mem_set ha with ha | ha
    · exact ha
    · cases ha
  have clean : ∀ {id : String}, Clean s ls id → Clean s (ls.set j none) id := fun hc =>
    ⟨hc.order, hc.request, fun a ha => hc.sending a (member ha)⟩
  have at_ : ∀ {i : ℕ} {a : Agent}, (ls.set j none)[i]? = some (some a) → ls[i]? = some (some a) := by
    intro i a ha
    by_cases hij : i = j
    · subst hij
      by_cases hlt : i < ls.length
      · rw [List.getElem?_set_self hlt] at ha
        cases ha
      · rw [List.getElem?_eq_none (by simpa using hlt)] at ha
        cases ha
    · rwa [List.getElem?_set_ne (Ne.symm hij)] at ha
  exact ⟨h.named, fun a ha => h.fit a (member ha),
    fun i k a b ha hb => h.apart i k a b (at_ ha) (at_ hb), h.stored,
    fun id hid => clean (h.closed id hid),
    fun id hid a ha => h.barred id hid a (member ha),
    fun a ha row key token hrow horder hr howns =>
      clean (h.told a (member ha) row key token hrow horder hr howns)⟩

theorem Safe.start (h : Safe assetOf s ls) (c : Call assetOf) :
    Safe assetOf s (ls ++ [some c.init]) := by
  have blank : c.init.reservation = none ∧ c.init.intent = none ∧ c.init.row = none ∧
      c.init.known = none ∧ c.init.listed = [] := by
    cases c <;> exact ⟨rfl, rfl, rfl, rfl, rfl⟩
  obtain ⟨hreservation, hintent, hrow, hknown, hlisted⟩ := blank
  have member : ∀ {a : Agent}, some a ∈ ls ++ [some c.init] → some a ∈ ls ∨ a = c.init := by
    intro a ha
    rcases List.mem_append.1 ha with ha | ha
    · exact .inl ha
    · cases List.mem_singleton.1 ha
      exact .inr rfl
  have at_ : ∀ {i : ℕ} {a : Agent} {key token : String}, (ls ++ [some c.init])[i]? = some (some a) →
      a.reservation = some (key, token) → ls[i]? = some (some a) := by
    intro i a key token ha hr
    by_cases hlt : i < ls.length
    · rwa [List.getElem?_append_left hlt] at ha
    · rcases member (List.mem_of_getElem? ha) with hmem | rfl
      · rw [List.getElem?_append_right (by omega)] at ha
        have hinit : [some c.init][i - ls.length]? = some (some a) := ha
        cases List.mem_singleton.1 (List.mem_of_getElem? hinit)
        rw [hreservation] at hr
        cases hr
      · rw [hreservation] at hr
        cases hr
  have clean : ∀ {id : String}, Clean s ls id → Clean s (ls ++ [some c.init]) id := by
    refine fun hc => ⟨hc.order, hc.request, fun a ha => ?_⟩
    rcases member ha with ha | rfl
    · exact hc.sending a ha
    · simp [Agent.sending, hintent]
  refine ⟨h.named, fun a ha => ?_, fun i k a b ha hb key key' token hra hrb =>
      h.apart i k a b (at_ ha hra) (at_ hb hrb) key key' token hra hrb, h.stored,
    fun id hid => clean (h.closed id hid), fun id hid a ha hin => ?_,
    fun a ha row key token hr' horder hr howns => ?_⟩
  · rcases member ha with ha | rfl
    · exact h.fit a ha
    · constructor <;> simp [hreservation, hintent, hrow, hknown, hlisted]
  · rcases member ha with ha | rfl
    · exact h.barred id hid a ha hin
    · rw [hintent] at hin
      cases hin
  · rcases member ha with ha | rfl
    · exact clean (h.told a ha row key token hr' horder hr howns)
    · rw [hrow] at hr'
      cases hr'

/-! ### What goes on elsewhere -/

theorem orderFor_eq_none_iff {id : String} :
    s.orderFor id = none ↔ ∀ o ∈ s.orders, o.clientOrderId ≠ some id := by
  simp [World.orderFor, List.find?_eq_none, Table.mem_def]

theorem tame_change (h : Safe assetOf s ls) {c : Change} (hc : change assetOf c s = some s') :
    Tame assetOf s ls s' := by
  have same := Tame.refl h
  cases c with
  | tick t =>
      simp only [change, Option.ite_none_right_eq_some, Option.some.injEq] at hc
      obtain ⟨-, rfl⟩ := hc
      exact ⟨same.named, same.uuids, same.owns, rfl, same.stored, same.clean⟩
  | lock lockKey lock =>
      simp only [change, Option.ite_none_right_eq_some, Option.some.injEq] at hc
      obtain ⟨hkept, rfl⟩ := hc
      refine ⟨same.named, same.uuids, fun key token htoken howns => ?_, rfl, same.stored, same.clean⟩
      rcases owns_update howns with hold | ⟨rfl, l, hl, rfl⟩
      · exact hold
      · cases hl
        rcases of_decide_eq_true (show s.ownerKept _ l = true from hkept) with hnew | hany
        · exact absurd htoken hnew
        · obtain ⟨old, hold, howner⟩ := (Option.any_eq_true _ _).1 hany
          exact ⟨old, hold, of_decide_eq_true howner⟩
  | writeIntent row =>
      simp only [change, Option.ite_none_right_eq_some, Option.some.injEq] at hc
      obtain ⟨hnamed, rfl⟩ := hc
      refine ⟨fun r hr => ?_, same.uuids, same.owns, rfl, fun _ => Table.isSome_get?_put, same.clean⟩
      rcases Table.mem_put_imp hr with rfl | hr
      · exact hnamed
      · exact h.named r hr
  | hold hold =>
      cases hc
      exact ⟨same.named, same.uuids, same.owns, rfl, same.stored, same.clean⟩
  | unhold brokerOrderId =>
      cases hc
      exact ⟨same.named, same.uuids, same.owns, rfl, same.stored, same.clean⟩
  | arrive request brokerOrderId =>
      simp only [change, Option.ite_none_right_eq_some, Option.some.injEq] at hc
      obtain ⟨hmem, rfl⟩ := hc
      refine ⟨same.named, same.uuids, same.owns, rfl, same.stored, fun id _ hclean =>
        ⟨fun o ho => ?_, fun r hr => hclean.request r (List.mem_of_mem_erase hr)⟩⟩
      dsimp only at ho
      split at ho
      · exact hclean.order o ho
      · rcases Table.mem_createOnce.1 ho with ho | ⟨-, rfl⟩
        · exact hclean.order o ho
        · exact fun hid => hclean.request request hmem (Option.some.inj hid)
  | lose request =>
      cases hc
      exact ⟨same.named, same.uuids, same.owns, rfl, same.stored, fun id _ hclean =>
        ⟨hclean.order, fun r hr => hclean.request r (List.mem_of_mem_erase hr)⟩⟩
  | progress order =>
      simp only [change, Option.ite_none_right_eq_some, Option.some.injEq] at hc
      obtain ⟨hany, rfl⟩ := hc
      obtain ⟨old, hold, hsame⟩ := (Option.any_eq_true _ _).1 hany
      refine ⟨same.named, same.uuids, same.owns, rfl, same.stored, fun id _ hclean =>
        ⟨fun o ho => ?_, hclean.request⟩⟩
      rcases Table.mem_put_imp ho with rfl | ho
      · rw [← of_decide_eq_true hsame]
        exact hclean.order old (Table.get?_eq_some_iff.1 hold).1
      · exact hclean.order o ho
  | otherOrder order =>
      simp only [change, Option.ite_none_right_eq_some, Option.some.injEq] at hc
      obtain ⟨hnone, rfl⟩ := hc
      refine ⟨same.named, same.uuids, same.owns, rfl, same.stored, fun id hstored hclean =>
        ⟨fun o ho => ?_, hclean.request⟩⟩
      rcases Table.mem_createOnce.1 ho with ho | ⟨-, rfl⟩
      · exact hclean.order o ho
      · intro hid
        rw [hid] at hnone
        have hnone : (s.tradeIntents.get? id).isNone = true := hnone
        rw [Option.isNone_iff_eq_none.1 hnone] at hstored
        cases hstored
  | account accountNumber =>
      cases hc
      exact ⟨same.named, same.uuids, same.owns, rfl, same.stored, same.clean⟩

/-! ### What a call does -/

theorem Fit.named (h : Fit assetOf s g) {row : IntentRow} (hw : WrittenBy g row) :
    Named assetOf row := by
  obtain ⟨old, hknown, hid, hkey, hasset⟩ := hw.known
  obtain ⟨hnamed, hold⟩ := h.known old hknown
  have hsame : row.assetKey = old.assetKey := by
    rcases hasset with hasset | hasset
    · rw [hasset, hold]
    · exact hasset
  exact ⟨by rw [hid, hsame, hnamed.id], by rw [hkey, hsame, hnamed.key]⟩

theorem tame_put (h : Safe assetOf s ls) {row : IntentRow} (hrow : Named assetOf row) :
    Tame assetOf s ls { s with tradeIntents := s.tradeIntents.put row } := by
  refine ⟨fun r hr => ?_, fun _ h => h, fun _ _ _ h => h, rfl, fun _ => Table.isSome_get?_put,
    fun _ _ hc => ⟨hc.order, hc.request⟩⟩
  rcases Table.mem_put_imp hr with rfl | hr
  · exact hrow
  · exact h.named r hr

theorem Safe.recorded (h : Safe assetOf s ls) {records : Table SweepRecord}
    (hnew : ∀ id ∈ swept { s with reconciliationRecords := records }, id ∈ swept s ∨
      ((s.tradeIntents.get? id).isSome ∧ Clean s ls id ∧ ∀ a, some a ∈ ls → a.intent = some id →
        ∀ key token, a.reservation = some (key, token) → ¬ s.Owns key token)) :
    Safe assetOf { s with reconciliationRecords := records } ls := by
  have clean : ∀ {id : String}, Clean s ls id →
      Clean { s with reconciliationRecords := records } ls id := fun hc =>
    ⟨hc.order, hc.request, hc.sending⟩
  refine ⟨h.named, fun a ha => ?_, h.apart, fun id hid => ?_, fun id hid => ?_,
    fun id hid a ha hintent key token hr => ?_,
    fun a ha row key token hrow horder hr howns => clean (h.told a ha row key token hrow horder hr howns)⟩
  · have hfit := h.fit a ha
    exact ⟨hfit.token, hfit.listed, hfit.known, hfit.intent, hfit.key, hfit.candidate, hfit.row⟩
  · exact (hnew id hid).elim (h.stored id) fun hn => hn.1
  · exact (hnew id hid).elim (fun hold => clean (h.closed id hold)) fun hn => clean hn.2.1
  · exact (hnew id hid).elim (fun hold => h.barred id hold a ha hintent key token hr)
      fun hn => hn.2.2 a ha hintent key token hr

theorem Safe.same (h : Safe assetOf s ls) (hj : ls[j]? = some (some g))
    (ht : Tame assetOf s ls s') : Safe assetOf s' (ls.set j (some g)) :=
  h.move hj ht (.refl ((h.fit g (List.mem_of_getElem? hj)).mono ht))

theorem Learns.unreserved (h : Fit assetOf s g) (hsweeping : g'.sweeping = g.sweeping)
    (hr : g'.reservation = none) (hlisted : ∀ row ∈ g'.listed, Named assetOf row)
    (hknown : g'.known = g.known ∨ g'.known = none) (hasset : g'.assetKey = g.assetKey)
    (hintent : g'.intent = g.intent ∨ g'.intent = none)
    (hsending : ∀ id, g'.sending id = true → g.sending id = true)
    (hrow : g'.row = none ∨ (g'.row = g.row ∧ g'.candidate = g.candidate)) :
    Learns assetOf s ls s g g' := by
  have none_ : ∀ {key token : String}, g'.reservation = some (key, token) → False := by
    intro key token h'
    rw [hr] at h'
    cases h'
  refine ⟨⟨fun _ _ h' => (none_ h').elim, hlisted, fun row h' => ?_, fun id h' => ?_,
    fun _ _ _ h' => (none_ h').elim, fun _ _ _ h' => (none_ h').elim, fun row h' => ?_⟩, hsweeping,
    fun _ _ h' => (none_ h').elim, fun id h' => ?_, fun id h' => .inl (hsending id h'),
    fun _ _ _ _ _ h' => (none_ h').elim⟩
  · rcases hknown with hk | hk
    · rw [hasset]
      exact h.known row (hk ▸ h')
    · rw [hk] at h'
      cases h'
  · rcases hintent with hi | hi
    · rw [hsweeping, hasset]
      exact h.intent id (hi ▸ h')
    · rw [hi] at h'
      cases h'
  · rcases hrow with hn | ⟨hsame, hcandidate⟩
    · rw [hn] at h'
      cases h'
    · rw [hsweeping, hcandidate]
      exact h.row row (hsame ▸ h')
  · rcases hintent with hi | hi
    · exact .inl (hi ▸ h')
    · rw [hi] at h'
      cases h'

theorem learns_reset (h : Fit assetOf s g) (candidate : Option String) (passedOver : List String) :
    Learns assetOf s ls s g { g.reset none candidate with passedOver := passedOver } :=
  .unreserved h rfl rfl h.listed (.inr rfl) rfl (.inr rfl)
    (fun id h' => by simp [Agent.sending, Agent.reset] at h') (.inl rfl)

theorem learns_released (h : Fit assetOf s g) :
    Learns assetOf s ls s g { g with reservation := none } :=
  .unreserved h rfl rfl h.listed (.inl rfl) rfl (.inl rfl) (fun _ h' => h') (.inr ⟨rfl, rfl⟩)

theorem Learns.kept (h : Fit assetOf s g) (hsweeping : g'.sweeping = g.sweeping)
    (hr : g'.reservation = g.reservation) (hlisted : ∀ row ∈ g'.listed, Named assetOf row)
    (hknown : g'.known = g.known) (hasset : g'.assetKey = g.assetKey)
    (hcandidate : g'.candidate = g.candidate) (hintent : g'.intent = g.intent)
    (hsending : ∀ id, g'.sending id = true → g.sending id = true ∨
      (g.intent = some id ∧ ∃ key token, g.reservation = some (key, token) ∧ s.Owns key token))
    (hrow : ∀ row, g'.row = some row → g.sweeping = true ∧ g.candidate = some row.id ∧
      (s.tradeIntents.get? row.id).isSome)
    (htold : ∀ row, g'.row = some row → g'.order = some none →
      (g.row = some row ∧ g.order = some none) ∨
        ((s.tradeIntents.get? row.id).isSome ∧ Clean s ls row.id)) :
    Learns assetOf s ls s g g' := by
  refine ⟨⟨fun key token h' => h.token key token (hr ▸ h'), hlisted, fun row h' => ?_, fun id h' => ?_,
    fun he key token h' => ?_, fun hs key token h' => ?_, fun row h' => ?_⟩, hsweeping,
    fun key token h' => .inl (hr ▸ h'), fun id h' => .inl (hintent ▸ h'), hsending,
    fun row key token h' ho h'' => (htold row h' ho).imp_left fun hold => ⟨hold.1, hold.2, hr ▸ h''⟩⟩
  · rw [hasset]
    exact h.known row (hknown ▸ h')
  · rw [hsweeping, hasset]
    exact h.intent id (hintent ▸ h')
  · rw [hasset]
    exact h.key (hsweeping ▸ he) key token (hr ▸ h')
  · rw [hcandidate]
    exact h.candidate (hsweeping ▸ hs) key token (hr ▸ h')
  · rw [hsweeping, hcandidate]
    exact hrow row h'

theorem learns_answered (h : Fit assetOf s g) :
    Learns assetOf s ls s g { g with answered := true } :=
  .kept h rfl rfl h.listed rfl rfl rfl rfl (fun id h' => by simp [Agent.sending] at h') h.row
    fun _ h' ho => .inl ⟨h', ho⟩

/-- A row is read under the reservation of a sweep. -/
theorem learns_reread (h : Fit assetOf s g) {id : String} {row : Option IntentRow}
    (hsweeping : g.sweeping = true) (hcandidate : g.candidate = some id)
    (hrow : ∀ r ∈ row, s.tradeIntents.get? id = some r) :
    Learns assetOf s ls s g { g with row := row, order := none, reread := id :: g.reread } := by
  refine .kept h rfl rfl h.listed rfl rfl rfl rfl (fun _ h' => .inl h') (fun r hr => ?_)
    fun _ _ ho => absurd ho (by simp)
  have hget := hrow r hr
  have hid : r.id = id := (Table.get?_eq_some_iff.1 hget).2
  exact ⟨hsweeping, hid ▸ hcandidate, by rw [hid, hget]; rfl⟩

/-- **An operation that raised.** -/
theorem Safe.refused {o : Op} (h : Safe assetOf s ls) (hj : ls[j]? = some (some g))
    (hallowed : Allowed assetOf g o) (e : Raised) :
    Safe assetOf s (ls.set j (some (g.learn o (.error e)))) := by
  have hfit := h.fit g (List.mem_of_getElem? hj)
  have same := Tame.refl h
  cases o with
  | reserve asset candidate => exact h.move hj same (learns_reset hfit _ _)
  | release asset token => exact h.move hj same (learns_released hfit)
  | getIntent id =>
      exact h.move hj same (learns_reread hfit hallowed.1 hallowed.2.1 fun _ h => absurd h (by simp))
  | post request => exact h.move hj same (learns_answered hfit)
  | reply request => exact h.move hj same (learns_answered hfit)
  | isSet event => cases event <;> exact h.same hj same
  | _ => exact h.same hj same

theorem Safe.reserve (h : Safe assetOf s ls) (hj : ls[j]? = some (some g)) {asset : AssetIdentity}
    {candidate : Option String} (hallowed : Allowed assetOf g (.reserve asset candidate))
    {i : Outside} {r : Option String}
    (hx : exec assetOf (.reserve asset candidate) i s = .ok (r, s')) :
    Safe assetOf s' (ls.set j (some (g.learn (.reserve asset candidate) (.ok r)))) := by
  have hfit := h.fit g (List.mem_of_getElem? hj)
  have same := Tame.refl h
  simp only [exec] at hx
  split at hx
  · cases hx
  rename_i hfresh
  cases hx
  have ht : Tame assetOf s ls
      { s with
        locks := (acquireLock (executionLockKey (assetIdentityKey asset)) i.uuid "execute_intent"
          symbolLockTtlSeconds (s.reading i) s.locks).2
        uuids := i.uuid :: s.uuids } := by
    refine ⟨same.named, fun _ ht => List.mem_cons_of_mem _ ht, fun key token htoken howns => ?_, rfl,
      same.stored, same.clean⟩
    exact owns_acquireLock (fun hsame : token = i.uuid => hfresh (hsame ▸ htoken)) howns
  split
  · -- granted: the token is fresh, and nothing is known of the asset yet
    refine h.move hj ht ⟨⟨fun key token hr => ?_, hfit.listed, by simp [Agent.learn, Agent.reset],
      by simp [Agent.learn, Agent.reset], fun he key token hr => ?_, fun hs key token hr => ?_,
      by simp [Agent.learn, Agent.reset]⟩, rfl, fun key token hr => ?_,
      by simp [Agent.learn, Agent.reset], by simp [Agent.learn, Agent.reset, Agent.sending],
      by simp [Agent.learn, Agent.reset]⟩
    · cases hr
      exact List.mem_cons_self
    · cases hr
      rcases hallowed with ⟨hs, -⟩ | ⟨-, hkey, -⟩
      · exact absurd (hs.symm.trans he) (by decide)
      · exact hkey
    · cases hr
      rcases hallowed with ⟨-, row, hrow, rfl, hcandidate⟩ | ⟨he, -⟩
      · exact ⟨row.id, hcandidate, (hfit.listed row hrow).id⟩
      · exact absurd (hs.symm.trans he) (by decide)
    · cases hr
      exact .inr ⟨hfresh, rfl⟩
  · exact h.move hj ht ((learns_reset hfit candidate _).mono ht)

theorem Safe.renew (h : Safe assetOf s ls) (hj : ls[j]? = some (some g)) {asset : AssetIdentity}
    {token : String} (hallowed : Allowed assetOf g (.renew asset token)) {i : Outside} {r : Bool}
    (hx : exec assetOf (.renew asset token) i s = .ok (r, s')) :
    Safe assetOf s' (ls.set j (some (g.learn (.renew asset token) (.ok r)))) := by
  have hfit := h.fit g (List.mem_of_getElem? hj)
  have same := Tame.refl h
  cases hx
  have ht : Tame assetOf s ls
      { s with locks := (renewLock (executionLockKey (assetIdentityKey asset)) token
          symbolLockTtlSeconds (s.reading i) s.locks).2 } :=
    ⟨same.named, same.uuids, fun _ _ _ howns => owns_renewLock howns, rfl, same.stored, same.clean⟩
  refine h.move hj ht (Learns.mono (.kept hfit rfl rfl hfit.listed rfl rfl rfl rfl (fun id h' => ?_)
    hfit.row fun _ h' ho => .inl ⟨h', ho⟩) ht)
  obtain ⟨hintent, hrenewed, -⟩ := of_decide_eq_true h'
  exact .inr ⟨hintent, _, _, hallowed.2.2.1, owns_of_renewed hrenewed⟩

theorem Safe.release (h : Safe assetOf s ls) (hj : ls[j]? = some (some g)) (asset : AssetIdentity)
    (token : String) :
    Safe assetOf
      { s with
        locks := releaseLock (executionLockKey (assetIdentityKey asset)) token s.locks }
      (ls.set j (some { g with reservation := none })) := by
  have same := Tame.refl h
  have ht : Tame assetOf s ls
      { s with
        locks := releaseLock (executionLockKey (assetIdentityKey asset)) token s.locks } :=
    ⟨same.named, same.uuids, fun _ _ _ howns => owns_releaseLock howns, rfl, same.stored, same.clean⟩
  exact h.move hj ht ((learns_released (h.fit g (List.mem_of_getElem? hj))).mono ht)

theorem Safe.find (h : Safe assetOf s ls) (hj : ls[j]? = some (some g)) {key : String}
    (hallowed : Allowed assetOf g (.findByUnique key)) {i : Outside}
    (hundisturbed : Undisturbed g (.findByUnique key) i s ls) :
    Safe assetOf s (ls.set j (some (g.learn (.findByUnique key)
      (.ok (s.tradeIntents.findByUnique key))))) := by
  have hfit := h.fit g (List.mem_of_getElem? hj)
  have same := Tame.refl h
  obtain ⟨hexecution, hcleared, hkey⟩ := hallowed
  cases hfind : s.tradeIntents.findByUnique key with
  | none => exact h.same hj same
  | some row =>
      obtain ⟨hrow, hunique⟩ := Table.findByUnique_eq_some_iff.1 hfind
      have hnamed := h.named row hrow
      have hasset : row.assetKey = g.assetKey := by
        rw [← hnamed.key, show row.intent.idempotencyKey = key from Option.some.inj hunique, hkey]
      have hnot : row.takenUp = true → row.id ∉ swept s := by
        intro htaken hclosed
        have hcond : ((s.tradeIntents.findByUnique key).all fun row =>
            !row.takenUp || !(swept s).contains row.id) = true := hundisturbed
        rw [hfind] at hcond
        simp [htaken, hclosed] at hcond
      have intent : ∀ id, (if row.takenUp then some row.id else none) = some id →
          row.takenUp = true ∧ row.id = id := by
        intro id h'
        split at h'
        · exact ⟨by assumption, Option.some.inj h'⟩
        · cases h'
      refine h.move hj same ⟨⟨hfit.token, hfit.listed, fun r hr => ?_, fun id h' => ?_, hfit.key,
        hfit.candidate, hfit.row⟩, rfl, fun _ _ hr => .inl hr, fun id h' => ?_, fun id h' => ?_,
        fun _ _ _ hrow horder hr => .inl ⟨hrow, horder, hr⟩⟩
      · cases hr
        exact ⟨hnamed, hasset⟩
      · obtain ⟨-, rfl⟩ := intent id h'
        exact ⟨hexecution, hnamed.id.trans hasset⟩
      · obtain ⟨htaken, rfl⟩ := intent id h'
        exact .inr (hnot htaken)
      · simp [Agent.sending, Agent.learn, hcleared] at h'

theorem Safe.create (h : Safe assetOf s ls) (hj : ls[j]? = some (some g)) {draft : IntentRow}
    {key : Option String} (hallowed : Allowed assetOf g (.createIntent draft key)) {i : Outside}
    {r : IntentRow} (hx : exec assetOf (.createIntent draft key) i s = .ok (r, s')) :
    Safe assetOf s' (ls.set j (some (g.learn (.createIntent draft key) (.ok r)))) := by
  have hfit := h.fit g (List.mem_of_getElem? hj)
  have same := Tame.refl h
  obtain ⟨hexecution, hcleared, hasset, hkeys⟩ := hallowed
  simp only [exec] at hx
  split at hx
  swap
  · cases hx
  rename_i hfresh
  cases hx
  obtain ⟨hnone, hid, hkey⟩ := hfresh
  have hsame : (draft.create i.uuid (key.getD i.key)).assetKey = g.assetKey := hasset
  have hnamed : Named assetOf (draft.create i.uuid (key.getD i.key)) := by
    refine ⟨hid, ?_⟩
    show assetOf (key.getD i.key) = _
    cases key with
    | none => simpa using hkey
    | some k => exact (hkeys k rfl).trans hsame.symm
  have ht : Tame assetOf s ls
      { s with tradeIntents := s.tradeIntents.createOnce (draft.create i.uuid (key.getD i.key)) } := by
    refine ⟨fun row hrow => ?_, same.uuids, same.owns, rfl, fun _ => Table.isSome_get?_createOnce,
      same.clean⟩
    rcases Table.mem_createOnce.1 hrow with hrow | ⟨-, rfl⟩
    · exact h.named row hrow
    · exact hnamed
  have hmono := hfit.mono ht
  refine h.move hj ht ⟨⟨hmono.token, hfit.listed, fun row hrow => ?_, fun id h' => ?_, hfit.key,
    hfit.candidate, hmono.row⟩, rfl, fun _ _ hr => .inl hr, fun id h' => ?_, fun id h' => ?_,
    fun _ _ _ hrow horder hr => .inl ⟨hrow, horder, hr⟩⟩
  · cases hrow
    exact ⟨hnamed, hsame⟩
  · cases h'
    exact ⟨hexecution, hnamed.id.trans hsame⟩
  · cases h'
    refine .inr fun hclosed => ?_
    have hstored := h.stored _ hclosed
    rw [show (draft.create i.uuid (key.getD i.key)).id = i.uuid from rfl,
      Option.isNone_iff_eq_none.1 hnone] at hstored
    cases hstored
  · simp [Agent.sending, Agent.learn, hcleared] at h'

theorem Safe.lookup (h : Safe assetOf s ls) (hj : ls[j]? = some (some g)) {id : String}
    (hallowed : Allowed assetOf g (.getOrderByClientOrderId id)) {i : Outside}
    (hundisturbed : Undisturbed g (.getOrderByClientOrderId id) i s ls) :
    Safe assetOf s (ls.set j (some (g.told (s.orderFor id)))) := by
  have hfit := h.fit g (List.mem_of_getElem? hj)
  refine h.move hj (.refl h) (.kept hfit rfl rfl hfit.listed rfl rfl rfl rfl (fun _ h' => .inl h')
    hfit.row fun row hrow horder => .inr ?_)
  obtain ⟨hsweeping, -, hstored⟩ := hfit.row row hrow
  have hid : g.row.map IntentRow.id = some id := hallowed hsweeping
  rw [show g.row = some row from hrow] at hid
  cases hid
  have hnone : s.orderFor row.id = none := Option.some.inj horder
  obtain ⟨hrequests, hsending⟩ := hundisturbed hsweeping hnone
  refine ⟨hstored, orderFor_eq_none_iff.1 hnone, hrequests, fun a ha => ?_⟩
  simpa using hsending (some a) ha

theorem Safe.post (h : Safe assetOf s ls) (hj : ls[j]? = some (some g)) {request : OrderRequest}
    (hallowed : Allowed assetOf g (.post request)) :
    Safe assetOf { s with requests := request :: s.requests } (ls.set j (some g)) := by
  obtain ⟨-, hcleared, hanswered, hintent⟩ := hallowed
  have same := Tame.refl h
  refine h.same hj ⟨same.named, same.uuids, same.owns, rfl, same.stored, fun id _ hclean =>
    ⟨hclean.order, fun r hr => ?_⟩⟩
  rcases List.mem_cons.1 hr with rfl | hr
  · intro hid
    have hsending : g.sending id = true := by
      simp [Agent.sending, hcleared, hanswered, hintent, hid]
    rw [hclean.sending g (List.mem_of_getElem? hj)] at hsending
    cases hsending
  · exact hclean.request r hr

theorem swept_createOnce (s : World) (record : SweepRecord) :
    swept { s with reconciliationRecords := s.reconciliationRecords.createOnce record } = swept s ∨
      (record.closes = true ∧ swept
        { s with reconciliationRecords := s.reconciliationRecords.createOnce record } =
          swept s ++ [record.subjectId]) := by
  unfold swept
  by_cases hadmits : s.reconciliationRecords.Admits record
  · simp only [Table.rows_createOnce hadmits, List.filter_append, List.map_append]
    cases hcloses : record.closes with
    | true => exact .inr ⟨rfl, by simp [hcloses]⟩
    | false => exact .inl (by simp [hcloses])
  · simp only [Table.createOnce_of_not_admits hadmits, true_or]

/-- **The commit of a sweep**: an intent is closed only while the sweep owns its asset. -/
theorem Safe.commit (h : Safe assetOf s ls) (hg : some g ∈ ls) {c : Commit} (hdecided : DecidedOn g c)
    (hcurrent : Current s c) (hcommitted : Committed s c s') : Safe assetOf s' ls := by
  obtain ⟨recordId, -, rfl⟩ := hcommitted
  obtain ⟨assetKey, token, hr, hleases⟩ := hdecided.reserved
  obtain ⟨order, horder, hupdated, -⟩ := hdecided.answer
  have hread := hdecided.reread
  have hnamed : Named assetOf c.updated := by
    have horiginal := h.named c.original (Table.get?_eq_some_iff.1 hcurrent.row).1
    rw [hupdated]
    cases order <;> exact ⟨horiginal.id, horiginal.key⟩
  have howns : s.Owns assetKey token := by
    obtain ⟨lock, hlock, howner, -⟩ := hcurrent.leases (executionLockKey assetKey, token) (by
      rw [hleases]
      exact List.mem_cons_self)
    exact ⟨lock, hlock, howner⟩
  have hput := h.elsewhere (tame_put h hnamed)
  refine hput.recorded fun id hid => ?_
  rcases swept_createOnce { s with tradeIntents := s.tradeIntents.put c.updated }
    (c.record recordId) with hsame | ⟨hcloses, hmore⟩
  · exact .inl (hsame ▸ hid)
  · rw [hmore] at hid
    rcases List.mem_append.1 hid with hid | hid
    · exact .inl hid
    · -- the intent is closed: the broker had no order of it
      obtain rfl : id = c.original.id := List.mem_singleton.1 hid
      have hnone : order = none := by
        cases order with
        | none => rfl
        | some o =>
            rw [SweepRecord.closes, Commit.record, hupdated] at hcloses
            cases hcloses
      subst hnone
      refine .inr ⟨Table.isSome_get?_put (by rw [hcurrent.row]; rfl),
        hput.told g hg c.original assetKey token hread horder hr howns, fun a ha hintent => ?_⟩
      exact hput.sole hg ha hread hr howns hintent

/-- **An operation that was answered.** -/
theorem Safe.answered {o : Op} (h : Safe assetOf s ls) (hj : ls[j]? = some (some g))
    (hallowed : Allowed assetOf g o) {i : Outside} (hundisturbed : Undisturbed g o i s ls)
    {r : o.Res} (hx : exec assetOf o i s = .ok (r, s')) :
    Safe assetOf s' (ls.set j (some (g.learn o (.ok r)))) := by
  have hg : some g ∈ ls := List.mem_of_getElem? hj
  have hfit := h.fit g hg
  have same := Tame.refl h
  cases o with
  | reserve asset candidate => exact h.reserve hj hallowed hx
  | renew asset token => exact h.renew hj hallowed hx
  | release asset token =>
      cases hx
      exact h.release hj asset token
  | listStranded =>
      cases hx
      exact h.move hj same (.kept hfit rfl rfl
        (fun row hrow => h.named row (List.mem_of_mem_filter hrow)) rfl rfl rfl rfl
        (fun _ h' => .inl h') hfit.row fun _ h' ho => .inl ⟨h', ho⟩)
  | findByUnique key =>
      cases hx
      exact h.find hj hallowed hundisturbed
  | getIntent id =>
      cases hx
      exact h.move hj same (learns_reread hfit hallowed.1 hallowed.2.1 fun _ hr => hr)
  | createIntent draft key => exact h.create hj hallowed hx
  | updateIntent row =>
      cases hx
      exact h.same hj (tame_put h (hfit.named hallowed))
  | approveIntent row =>
      simp only [exec] at hx
      cases happroval : i.approval with
      | written =>
          rw [happroval] at hx
          cases hx
          exact h.same hj (tame_put h (hfit.named hallowed))
      | refused reason =>
          rw [happroval] at hx
          cases hx
          exact h.same hj same
  | commitStranded c =>
      have hset : ls.set j (some g) = ls := by
        obtain ⟨hlt, hsame⟩ := List.getElem?_eq_some_iff.1 hj
        rw [← hsame, List.set_getElem_self]
      show Safe assetOf s' (ls.set j (some g))
      rw [hset]
      rcases commitStranded_ok hx with ⟨-, hcurrent, hcommitted⟩ | ⟨-, rfl⟩
      · exact h.commit hg hallowed.2 hcurrent hcommitted
      · exact h
  | getOrderByClientOrderId id =>
      cases hx
      exact h.lookup hj hallowed hundisturbed
  | post request =>
      cases hx
      exact h.post hj hallowed
  | reply request =>
      simp only [exec] at hx
      split at hx
      · cases hx
        exact h.move hj same (learns_answered hfit)
      · cases hx
  | recordDrift subjectId text now =>
      obtain ⟨records, hinsert, hx⟩ := except_bind_eq_ok.1 hx
      cases hx
      obtain ⟨-, rfl⟩ := Quarantine.insertRow_eq_ok_iff.1 hinsert
      refine h.same hj ⟨same.named, same.uuids, same.owns, ?_, same.stored, same.clean⟩
      rcases swept_createOnce s ⟨i.uuid, subjectId, .driftDetected, .error text, now⟩ with heq | ⟨hcloses, -⟩
      · exact heq
      · cases hcloses
  | alertOnce event =>
      cases hx
      exact h.same hj ⟨same.named, same.uuids, same.owns, rfl, same.stored, same.clean⟩
  | isSet event =>
      cases hx
      cases event with
      | leaseLost =>
          exact h.move hj same (.kept hfit rfl rfl hfit.listed rfl rfl rfl rfl
            (fun _ h' => .inl h') hfit.row fun _ h' ho => .inl ⟨h', ho⟩)
      | fence => exact h.same hj same
  | _ =>
      cases hx
      exact h.same hj same

end Steps

/-! ### Runs -/

theorem keeps_desk (assetOf : String → String) :
    Pool.Keeps (desk assetOf) Agent.learn (Allowed assetOf) Call.init Undisturbed
      (Safe assetOf) where
  start _ _ c h := h.start c
  answered _ _ _ _ _ _ _ _ h hj hallowed hc hx := h.answered hj hallowed hc hx
  refused _ _ _ _ _ e h hj hallowed := h.refused hj hallowed e
  ended _ _ j h := h.ended j
  env _ _ _ _ h hc := h.elsewhere (tame_change h hc)

/-- **No order of a closed intent, where nobody disturbs the sweep.**  In every run of executions and
sweeps, each delayed as long as it may be, with locks that end and are taken by others: if nobody is
sending when the broker tells a sweep that it has no order of an intent, and no execution takes up an
intent that was closed, then no order of an intent that the sweep has closed is at the broker, or on
its way there, and no execution is free to send one. -/
theorem closed_intents_have_no_order (assetOf : String → String) {s₀ : World}
    {w : Pool World Raised fun o : Agent × Op => o.2.Res}
    (hnamed : ∀ row ∈ s₀.tradeIntents, Named assetOf row) (hnone : swept s₀ = [])
    (hreach : (Pool.machine (desk assetOf)).Reaches (Pool.Minds Undisturbed) ⟨s₀, []⟩ w) :
    ∀ id ∈ swept w.store, (∀ o ∈ w.store.orders, o.clientOrderId ≠ some id) ∧
      (∀ r ∈ w.store.requests, r.clientOrderId ≠ id) ∧
      ∀ g, some g ∈ w.labels → g.sending id = false := by
  have h₀ : Safe assetOf s₀ [] := by
    refine ⟨hnamed, by simp, by simp, ?_, ?_, ?_, by simp⟩ <;>
      exact fun id hid => absurd (hnone ▸ hid) (by simp)
  have hsafe := ((keeps_desk assetOf).holds (labelledBy_desk assetOf) h₀ hreach).1
  exact fun id hid => ⟨(hsafe.closed id hid).order, (hsafe.closed id hid).request,
    (hsafe.closed id hid).sending⟩

section Runs

private def buy : ExecutionRequest where
  asset := { symbol := "ABC", assetClass := .equity, nativeAssetId := "alpaca:ABC" }
  side := .buy
  requestedQuantity := 1
  strategy := "ai_scan"
  idempotencyKey := some "key"
  now := 0

/-- All intents are of one asset. -/
private def oneAsset : String → String := fun _ => assetIdentityKey buy.asset

/-- An execution, from its start until it may post its order. -/
private def untilPost : List (Act Outside Raised (Call oneAsset) Change) :=
  [.start (.execute buy fun _ _ => rfl), .run 0 { uuid := "first" }, .run 0 {}, .run 0 {}, .run 0 {},
    .run 0 { uuid := "intent" }, .run 0 { risk := .approved 1 (some "account") }, .run 0 {},
    .run 0 {}, .run 0 {}, .run 0 {}, .run 0 {}, .run 0 {}, .run 0 {}, .run 0 {}, .run 0 {}]

/-- A sweep that closes the intent. -/
private def sweeping : List (Act Outside Raised (Call oneAsset) Change) :=
  [.env (.tick (seconds 200)), .start (.sweep { now := seconds 200 }), .run 1 {}, .run 1 {},
    .run 1 { uuid := "second", reading := seconds 200 }, .run 1 {}, .run 1 {}, .run 1 {}, .run 1 {},
    .run 1 { uuid := "record" }]

private def opened : World := { clock := 0, accountNumber := "account" }

/-- An execution that is gone when it could have sent its order: its intent is closed. -/
theorem closed_intent_of_crash :
    ∃ w : Pool World Raised fun o : Agent × Op => o.2.Res,
      swept w.store = ["intent"] ∧ (∀ o ∈ w.store.orders, o.clientOrderId ≠ some "intent") ∧
        ∀ r ∈ w.store.requests, r.clientOrderId ≠ "intent" := by
  have hrun : ((Pool.machine (desk oneAsset)).runUnder (Pool.Minds Undisturbed) ⟨opened, []⟩
      (untilPost ++ .crash 0 :: sweeping)).any
        (fun w => decide (swept w.store = ["intent"])) = true := by
    decide +kernel
  obtain ⟨w, hreach, hswept⟩ := Machine.exists_of_runUnder hrun
  have hclosed := closed_intents_have_no_order oneAsset (fun _ h => absurd h List.not_mem_nil) rfl
    hreach "intent" (by rw [hswept]; exact List.mem_cons_self)
  exact ⟨w, hswept, hclosed.1, hclosed.2.1⟩

/-- **An order of a closed intent.**  An execution has stored that its order is about to be sent, and
is delayed until its reservation is over.  A sweep takes the asset, is told that the broker has no
order, and closes the intent.  The execution goes on and posts the order, and the broker accepts
it. -/
theorem order_of_closed_intent :
    ∃ w w' : Pool World Raised fun o : Agent × Op => o.2.Res,
      (Pool.machine (desk oneAsset)).Reaches (fun _ _ => True) ⟨opened, []⟩ w ∧
      (∃ request, (Pool.machine (desk oneAsset)).step w (.env (.arrive request "order")) = some w') ∧
      "intent" ∈ swept w.store ∧ w.store.orderFor "intent" = none ∧
        (w'.store.orderFor "intent").isSome := by
  have hrun : ((Pool.machine (desk oneAsset)).run ⟨opened, []⟩
      (untilPost ++ sweeping ++ [.run 0 {}])).any (fun w => decide ("intent" ∈ swept w.store ∧
        (w.store.orderFor "intent").isNone = true ∧
        w.store.requests.any (fun request =>
          ((Pool.machine (desk oneAsset)).step w (.env (.arrive request "order"))).any fun w' =>
            (w'.store.orderFor "intent").isSome) = true)) = true := by
    decide +kernel
  obtain ⟨w, hreach, hswept, hnone, harrive⟩ := Machine.exists_of_run hrun
  obtain ⟨request, -, harrive⟩ := List.any_eq_true.1 harrive
  obtain ⟨w', hw', hsome⟩ := (Option.any_eq_true _ _).1 harrive
  exact ⟨w, w', hreach, ⟨request, hw'⟩, hswept, Option.isNone_iff_eq_none.1 hnone, hsome⟩

end Runs

end Submission

end TradePulse
