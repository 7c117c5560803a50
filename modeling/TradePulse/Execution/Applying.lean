/-
**What attribution puts on record.**

Polls and recoveries list the executions of an order, check their total against the order and record
each of them, side by side and with crashes in between; passes of the processor run beside them.

Between two operations of a call the broker's list grows, what is on record stays on record, and an
order that is on hold stays so unless everything the broker lists of it is filled.  A call that has
checked a total therefore knows, from then on, that it is filled or that the order is on hold.

Main definitions:

* `AppliedOnce.Snapshot`, `AppliedOnce.system` — the calls, which report what they return;
* `Traced`, `Within` — what is on record was listed, and its total is filled;
* `applying` — the setting in which the calls are judged;
* `Cleared` — a hold is cleared while the executions and the order agree.

Main results:

* `settlement_keeps`, `quiet_keeps` — what records no execution keeps the invariant;
* `Sound.createFill`, `Sound.createSettlement` — neither does recording one break it.
-/

import TradePulse.Execution.Admitted
import TradePulse.Execution.Recovery
import TradePulse.Settlement.Footprint

set_option autoImplicit false

namespace TradePulse

open Storage Process Attribution

namespace AppliedOnce

/-! ### Calls and their reports -/

/-- What a call returned, and how much the broker had listed when it began. -/
structure Report where
  orderId : String
  seen : ℕ
  attributed : AttributedFills

/-- The store, the broker, and the reports of the calls that are over. -/
structure Books where
  world : World
  reports : List Report := []

/-- What a caller notes. -/
inductive Note
  | begin
  | report (r : Report)

@[reducible] def Note.Res : Note → Type
  | .begin => ℕ
  | .report _ => Unit

abbrev Op := Recovery.Op ⊕ Note

abbrev Res : Op → Type := ResPar Recovery.Res Note.Res

def noteExec : (o : Note) → Unit → Books → Except Raised (o.Res × Books)
  | .begin, _, s => .ok (s.world.2.activities.rows.length, s)
  | .report r, _, s => .ok ((), { s with reports := r :: s.reports })

def recoveryExec (o : Recovery.Op) (i : Settlement.Outside × Attribution.Outside) (s : Books) :
    Except Raised (Recovery.Res o × Books) :=
  (Recovery.exec o i s.world).map fun r => (r.1, { s with world := r.2 })

def exec : (o : Op) → (Settlement.Outside × Attribution.Outside) × Unit → Books →
    Except Raised (Res o × Books) :=
  execPar recoveryExec noteExec

variable (order : String → TradeIntent)

/-- An intent as it was read at some time: what the order was placed with is as it was. -/
structure Snapshot where
  current : TradeIntent
  orderId : String
  placed : current.brokerOrderId = some orderId
  tradeIntentId : current.tradeIntentId = (order orderId).tradeIntentId
  asset : current.asset = (order orderId).asset
  side : current.side = (order orderId).side
  executionMode : current.executionMode = (order orderId).executionMode
  createdAt : current.createdAt = (order orderId).createdAt

/-- The calls: the poll of an order, its recovery, and a pass of the processor. -/
inductive Call
  | poll (snapshot : Snapshot order)
  | recover (snapshot : Snapshot order)
  | settle (args : Settlement.PassArgs)

abbrev noting (o : Note) : Prog Raised Res o.Res := (Prog.perform (.inr o) : Prog _ Res _)

/-- A call, and a report of what it returned. -/
def reporting (orderId : String) (p : Recovery.Recover AttributedFills) :
    Prog Raised Res Unit := do
  let seen ← noting .begin
  let attributed ← p.lift Sum.inl
  noting (.report { orderId := orderId, seen := seen, attributed := attributed })

/-- What the rest of the world does. -/
inductive External
  | execute (activity : BrokerActivity)
  | order (order : BrokerOrder)
  /-- Anything else happens in the store: fills and events stay as they are, and so does an order
  that is on hold. -/
  | elsewhere (t : Store)

/-- An order that is on hold stays on hold, perhaps for another reason. -/
def KeepsHolds (s t : Store) : Prop :=
  ∀ hold ∈ s.integrityHolds.rows, (t.integrityHolds.get? hold.brokerOrderId).isSome

instance (s t : Store) : Decidable (KeepsHolds s t) :=
  inferInstanceAs (Decidable (∀ hold ∈ s.integrityHolds.rows, _))

def external : External → Books → Option Books
  | .execute activity, s =>
      let b := s.world.2
      some { s with world :=
        (s.world.1, { b with activities := b.activities.createOnce activity }) }
  | .order order, s =>
      (s.world.2.progress order).map fun b => { s with world := (s.world.1, b) }
  | .elsewhere t, s =>
      if KeepsHolds s.world.1 t then
        some { s with world :=
          ({ t with fills := s.world.1.fills, settlements := s.world.1.settlements }, s.world.2) }
      else none

/-- Polls, recoveries and passes of the processor, and the world around them. -/
def system : System Books ((Settlement.Outside × Attribution.Outside) × Unit) Raised (Call order)
    External Res where
  exec := exec
  call
    | .poll c => reporting c.orderId ((attributeOrderFills c.current true).lift Sum.inr)
    | .recover c => reporting c.orderId (Recovery.resolveOrderFromBroker c.current)
    | .settle args =>
        (((Settlement.processPending args).bind fun _ => .done ()).lift Sum.inl :
          Recovery.Recover Unit).lift Sum.inl
  env := external

def calls : Machine (Pool Books Raised Res)
    (Act ((Settlement.Outside × Attribution.Outside) × Unit) Raised (Call order) External) :=
  Pool.machine (system order)

/-! ### What is on record of the executions -/

variable {order}

/-- The broker's list of executions. -/
abbrev Books.listed (s : Books) : List BrokerActivity := s.world.2.activities.rows

/-- The order is on hold. -/
def Held (id : String) (s : Books) : Prop := (s.world.1.integrityHolds.get? id).isSome = true

instance (id : String) (s : Books) : Decidable (Held id s) := inferInstanceAs (Decidable (_ = _))

/-- There is an event for an execution. -/
def HasEvent (t : Table SettlementEvent) (v : ValidatedFill) : Prop :=
  ∃ e ∈ t, e.settlementEventId = v.id ∧ e.fillId = v.id

/-- The fill and the event of an execution are on record. -/
def Recorded (order : String → TradeIntent) (id : String) (s : Books) (v : ValidatedFill) : Prop :=
  (∃ f ∈ s.world.1.fills, f.toFillFields = fillOf (order id) id v) ∧
    HasEvent s.world.1.settlements v

/-- Everything that a list admits of an order was attributed and is on record; the list holds what
was listed when the call began. -/
def Attributed (order : String → TradeIntent) (r : Report) (s : Books) : Prop :=
  ∃ l, l <+: s.listed ∧ r.seen ≤ l.length ∧
    r.attributed = .ofFills (admitted (order r.orderId) r.orderId l) ∧
      ∀ v ∈ admitted (order r.orderId) r.orderId l, Recorded order r.orderId s v

/-- Every fill and every event is of an admitted execution, and everything that a call reported is
on record. -/
structure Traced (order : String → TradeIntent) (s : Books) : Prop where
  fills : ∀ f ∈ s.world.1.fills, ∃ v ∈ admitted (order f.orderId) f.orderId s.listed,
    f.toFillFields = fillOf (order f.orderId) f.orderId v
  events : ∀ e ∈ s.world.1.settlements, ∃ id, ∃ v ∈ admitted (order id) id s.listed,
    e.settlementEventId = v.id ∧ e.fillId = v.id
  reports : ∀ r ∈ s.reports, Attributed order r s

/-- The total of the executions that a list admits of an order is filled. -/
def Filled (order : String → TradeIntent) (id : String) (l : List BrokerActivity) (s : Books) :
    Prop :=
  totalQty (admitted (order id) id l) ≤ s.world.2.filled id

instance (order : String → TradeIntent) (id : String) (l : List BrokerActivity) (s : Books) :
    Decidable (Filled order id l s) := inferInstanceAs (Decidable (_ ≤ _))

/-- The fills of an order are among the executions that some list admits, and their total is
filled. -/
def Within (order : String → TradeIntent) (id : String) (s : Books) : Prop :=
  ∃ l, l <+: s.listed ∧ Filled order id l s ∧ ∀ f ∈ s.world.1.fills, f.orderId = id →
    ∃ v ∈ admitted (order id) id l, f.fillId = v.id

/-- What happens to the books between two operations of a call: the lists grow, and an order that is
on hold stays so, unless everything the broker lists of it is filled. -/
structure Later (order : String → TradeIntent) (s s' : Books) : Prop where
  listed : s.listed <+: s'.listed
  filled : ∀ id, s.world.2.filled id ≤ s'.world.2.filled id
  fills : ∀ f ∈ s.world.1.fills, f ∈ s'.world.1.fills
  events : ∀ v, HasEvent s.world.1.settlements v → HasEvent s'.world.1.settlements v

/-- An order that is on hold stays so, unless everything the broker lists of it is filled. -/
def HoldsKept (order : String → TradeIntent) (s s' : Books) : Prop :=
  ∀ id, Held id s → Held id s' ∨ Filled order id s'.listed s'

theorem Later.refl (s : Books) : Later order s s where
  listed := List.prefix_refl _
  filled _ := le_refl _
  fills _ h := h
  events _ h := h

theorem Recorded.later {s s' : Books} {id : String} {v : ValidatedFill}
    (h : Recorded order id s v) (hl : Later order s s') : Recorded order id s' v := by
  obtain ⟨⟨f, hf, hfields⟩, hevent⟩ := h
  exact ⟨⟨f, hl.fills f hf, hfields⟩, hl.events v hevent⟩

theorem Attributed.later {s s' : Books} {r : Report} (h : Attributed order r s)
    (hl : Later order s s') : Attributed order r s' := by
  obtain ⟨l, hlisted, hseen, hattributed, hall⟩ := h
  exact ⟨l, hlisted.trans hl.listed, hseen, hattributed, fun v hv => (hall v hv).later hl⟩

theorem Filled.later {s s' : Books} {id : String} {l : List BrokerActivity}
    (h : Filled order id l s) (hl : Later order s s') : Filled order id l s' :=
  le_trans h (hl.filled id)

/-! ### The setting of the calls -/

section

variable (P : Prop)

/-- The invariant of the books; where `P` holds, it is about totals as well. -/
structure Sound (order : String → TradeIntent) (s : Books) : Prop where
  traced : Traced order s
  within : P → ∀ id, ¬ Held id s → Within order id s

/-- What may happen between two operations. -/
def Ahead (order : String → TradeIntent) (s s' : Books) : Prop :=
  Later order s s' ∧ (P → HoldsKept order s s')

/-- A hold is cleared while the executions and the order agree. -/
def Cleared (order : String → TradeIntent) : (o : Op) →
    (Settlement.Outside × Attribution.Outside) × Unit → Books → Prop
  | .inl (.inr (.deleteHold id)), _, s => Filled order id s.listed s
  | _, _, _ => True

instance (order : String → TradeIntent) (o : Op)
    (i : (Settlement.Outside × Attribution.Outside) × Unit) (s : Books) :
    Decidable (Cleared order o i s) := by
  rcases o with (o | o) | o
  · exact isTrue trivial
  · cases o with
    | deleteHold id => exact inferInstanceAs (Decidable (Filled order id s.listed s))
    | _ => exact isTrue trivial
  · exact isTrue trivial

/-- The setting in which the calls are judged. -/
def applying (order : String → TradeIntent) :
    Setting Books ((Settlement.Outside × Attribution.Outside) × Unit) Raised Res where
  exec := exec
  inv := Sound P order
  rely := Ahead P order
  cond o i s := P → Cleared order o i s
  guar _ := Ahead P order

variable {P}

/-- The keys of the events stay as they are. -/
def KeysKept (t t' : Table SettlementEvent) : Prop :=
  (∀ e ∈ t, ∃ e' ∈ t', SameKeys e e') ∧ ∀ e' ∈ t', ∃ e ∈ t, SameKeys e e'

theorem KeysKept.refl (t : Table SettlementEvent) : KeysKept t t :=
  ⟨fun e he => ⟨e, he, rfl, rfl⟩, fun e he => ⟨e, he, rfl, rfl⟩⟩

theorem KeysKept.put (t : Table SettlementEvent) (e : SettlementEvent) : KeysKept t (t.put e) :=
  ⟨fun _ he => Table.exists_mem_put he, fun _ he => Table.exists_of_mem_put he⟩

theorem KeysKept.hasEvent {t t' : Table SettlementEvent} (h : KeysKept t t') {v : ValidatedFill}
    (hv : HasEvent t v) : HasEvent t' v := by
  obtain ⟨e, he, hid, hfill⟩ := hv
  obtain ⟨e', he', hkeys⟩ := h.1 e he
  exact ⟨e', he', hkeys.1.symm.trans hid, (Option.some.inj hkeys.2).symm.trans hfill⟩

theorem Traced.later {s s' : Books} (h : Traced order s) (hl : Later order s s')
    (hfills : s'.world.1.fills = s.world.1.fills)
    (hkeys : KeysKept s.world.1.settlements s'.world.1.settlements)
    (hreports : s'.reports = s.reports) : Traced order s' where
  fills f hf := by
    rw [hfills] at hf
    obtain ⟨v, hv, hfields⟩ := h.fills f hf
    exact ⟨v, (admitted_mono hl.listed).subset hv, hfields⟩
  events e he := by
    obtain ⟨e₀, he₀, hkeysE⟩ := hkeys.2 e he
    obtain ⟨id, v, hv, hid, hfill⟩ := h.events e₀ he₀
    exact ⟨id, v, (admitted_mono hl.listed).subset hv, hkeysE.1.symm.trans hid,
      (Option.some.inj hkeysE.2).symm.trans hfill⟩
  reports r hr := by
    rw [hreports] at hr
    exact (h.reports r hr).later hl

theorem Traced.within {s : Books} {id : String} (h : Traced order s)
    (hfilled : Filled order id s.listed s) : Within order id s := by
  refine ⟨s.listed, List.prefix_refl _, hfilled, fun f hf hid => ?_⟩
  obtain ⟨v, hv, hfields⟩ := h.fills f hf
  exact ⟨v, hid ▸ hv, congrArg (·.fillId) hfields⟩

/-- **What neither adds a fill nor takes a hold away early keeps the invariant.** -/
theorem Sound.later {s s' : Books} (h : Sound P order s) (hl : Later order s s')
    (hholds : P → HoldsKept order s s') (hfills : s'.world.1.fills = s.world.1.fills)
    (hkeys : KeysKept s.world.1.settlements s'.world.1.settlements)
    (hreports : s'.reports = s.reports) : Sound P order s' := by
  have htraced := h.traced.later hl hfills hkeys hreports
  refine ⟨htraced, fun hP id hfree => ?_⟩
  by_cases hheld : Held id s
  · exact htraced.within ((hholds hP id hheld).resolve_left hfree)
  · obtain ⟨l, hlisted, hfilled, hall⟩ := h.within hP id hheld
    refine ⟨l, hlisted.trans hl.listed, hfilled.later hl, ?_⟩
    rw [hfills]
    exact hall

theorem Sound.store {s : Books} {t : Store} (h : Sound P order s)
    (hfills : t.fills = s.world.1.fills)
    (hkeys : KeysKept s.world.1.settlements t.settlements)
    (hholds : P → ∀ id, Held id s → (t.integrityHolds.get? id).isSome = true ∨
      Filled order id s.listed s) :
    Sound P order { s with world := (t, s.world.2) } ∧
      Ahead P order s { s with world := (t, s.world.2) } := by
  have hl : Later order s { s with world := (t, s.world.2) } :=
    { listed := List.prefix_refl _
      filled := fun _ => le_refl _
      fills := fun f hf => hfills ▸ hf
      events := fun v hv => hkeys.hasEvent hv }
  exact ⟨h.later hl hholds hfills hkeys rfl, hl, hholds⟩

/-! ### The operations -/

/-- Settlement adds no fill, keeps the keys of events and takes no hold away. -/
theorem settlement_keeps {o : Settlement.Op} {i : Settlement.Outside} {s t : Store} {r : o.Res}
    (hx : Settlement.exec o i s = .ok (r, t)) :
    t.fills = s.fills ∧ KeysKept s.settlements t.settlements ∧
      ∀ id, (s.integrityHolds.get? id).isSome = true →
        (t.integrityHolds.get? id).isSome = true := by
  have hfills : o.writes ≠ some .fills := by cases o <;> simp [Settlement.Op.writes]
  refine ⟨Settlement.exec_frame hx .fills hfills, ?_, fun id hid => ?_⟩
  · by_cases hw : o.writes = some .settlements
    · cases o with
      | claimIfProcessable id now stale force =>
          rcases Settlement.claimIfProcessable_ok hx with ⟨-, rfl⟩ | ⟨_, _, -, -, -, -, rfl⟩
          · exact .refl _
          · exact .put _ _
      | checkpoint event =>
          obtain ⟨-, -, rfl⟩ := Settlement.checkpoint_ok hx
          exact .put _ _
      | _ => cases hw
    · rw [show t.settlements = s.settlements from Settlement.exec_frame hx .settlements hw]
      exact .refl _
  · by_cases hw : o.writes = some .integrityHolds
    · cases o with
      | createHold hold =>
          cases hx
          exact Table.isSome_get?_createOnce hid
      | _ => cases hw
    · rw [show t.integrityHolds = s.integrityHolds from Settlement.exec_frame hx .integrityHolds hw]
      exact hid

/-- The operations of attribution that record no execution. -/
def Quiet : Attribution.Op → Prop
  | .createFill _ => False
  | .recordGrossFill _ _ => False
  | .createSettlement _ => False
  | _ => True

theorem blockEvent_keeps {s t : Store} {id : String} {r : Option SettlementEvent}
    (h : blockEvent s id = .ok (r, t)) : t.fills = s.fills ∧
      t.integrityHolds = s.integrityHolds ∧ KeysKept s.settlements t.settlements := by
  unfold blockEvent at h
  split at h
  · cases h
    exact ⟨rfl, rfl, .refl _⟩
  · split at h
    · obtain ⟨blocked, -, h⟩ := except_bind_eq_ok.1 h
      cases h
      exact ⟨rfl, rfl, .put _ _⟩
    · cases h
      exact ⟨rfl, rfl, .refl _⟩

theorem quiet_keeps {o : Attribution.Op} {i : Attribution.Outside} {s : Books} {w' : World}
    {r : o.Res} (ho : Quiet o) (h : Sound P order s)
    (hc : P → ∀ id, o = .deleteHold id → Filled order id s.listed s)
    (hx : Attribution.exec o i s.world = .ok (r, w')) :
    Sound P order { s with world := w' } ∧ Ahead P order s { s with world := w' } := by
  have same : Sound P order s ∧ Ahead P order s s :=
    ⟨h, .refl s, fun _ _ hheld => .inl hheld⟩
  cases o with
  | createFill fill => exact absurd ho not_false
  | recordGrossFill fill now => exact absurd ho not_false
  | createSettlement event => exact absurd ho not_false
  | getOrder id =>
      simp only [Attribution.exec] at hx
      split at hx
      · cases hx
      · cases hx
        exact same
  | blockEvent id =>
      obtain ⟨⟨r', t⟩, hblock, hx⟩ := except_bind_eq_ok.1 hx
      cases hx
      obtain ⟨hfills, hholds, hkeys⟩ := blockEvent_keeps hblock
      exact h.store hfills hkeys fun _ id hid => .inl (hholds ▸ hid)
  | createHold hold =>
      cases hx
      exact h.store rfl (.refl _) fun _ id hid => .inl (Table.isSome_get?_createOnce hid)
  | updateHold hold =>
      cases hx
      exact h.store rfl (.refl _) fun _ id hid => .inl (Table.isSome_get?_put hid)
  | deleteHold id =>
      cases hx
      refine h.store rfl (.refl _) fun hP id' hid => ?_
      by_cases heq : id' = id
      · subst heq
        exact .inr (hc hP id' rfl)
      · refine .inl ?_
        rw [Table.get?_delete_of_ne heq]
        exact hid
  | latchFinancialIntegrityBlock reason now =>
      cases hx
      refine h.store ?_ ?_ fun _ id hid => .inl ?_
      all_goals
        unfold Store.latchFinancialIntegrityBlock
        split
      · rfl
      · rfl
      · exact .refl _
      · exact .refl _
      · exact hid
      · exact hid
  | clock => cases hx; exact same
  | getActivities since => cases hx; exact same
  | sendAlert => cases hx; exact same
  | getHold id => cases hx; exact same
  | pendingHolds => cases hx; exact same
  | settlementsByTradeIntent id => cases hx; exact same

/-! ### Recording an execution -/

/-- What a call knows of the executions it listed of an order: they are listed still, and their
total is filled, or the order is on hold. -/
def Sure (P : Prop) (order : String → TradeIntent) (id : String) (l : List BrokerActivity)
    (s : Books) : Prop :=
  l <+: s.listed ∧ (P → Held id s ∨ ∃ l', l <+: l' ∧ l' <+: s.listed ∧ Filled order id l' s)

theorem stable_sure (id : String) (l : List BrokerActivity) :
    (applying P order).Stable (Sure P order id l) := by
  rintro s s' - - ⟨hlisted, hsure⟩ ⟨hl, hkept⟩
  refine ⟨hlisted.trans hl.listed, fun hP => ?_⟩
  rcases hsure hP with hheld | ⟨l', hle, hlisted', hfilled⟩
  · exact (hkept hP id hheld).imp_right fun hfilled =>
      ⟨s'.listed, hlisted.trans hl.listed, List.prefix_refl _, hfilled⟩
  · exact .inr ⟨l', hle, hlisted'.trans hl.listed, hfilled.later hl⟩

/-- Of two parts of the list, whose executions are both filled, the longer holds those of both. -/
theorem Within.add {s : Books} {id : String} {l : List BrokerActivity} (h : Within order id s)
    (hlisted : l <+: s.listed) (hfilled : Filled order id l s) :
    ∃ l', l <+: l' ∧ l' <+: s.listed ∧ Filled order id l' s ∧ ∀ f ∈ s.world.1.fills,
      f.orderId = id → ∃ v ∈ admitted (order id) id l', f.fillId = v.id := by
  obtain ⟨l', hlisted', hfilled', hall⟩ := h
  rcases List.prefix_or_prefix_of_prefix hlisted hlisted' with hle | hle
  · exact ⟨l', hle, hlisted', hfilled', hall⟩
  · refine ⟨l, List.prefix_refl _, hlisted, hfilled, fun f hf hid => ?_⟩
    obtain ⟨v, hv, hkey⟩ := hall f hf hid
    exact ⟨v, (admitted_mono hle).subset hv, hkey⟩

/-- **The fill of an execution.** -/
theorem Sound.createFill {s : Books} {id : String} {l : List BrokerActivity} {v : ValidatedFill}
    {fill : Fill} (h : Sound P order s) (hsure : Sure P order id l s)
    (hv : v ∈ admitted (order id) id l) (hfill : fill.toFillFields = fillOf (order id) id v) :
    let t : Store := { s.world.1 with fills := s.world.1.fills.createOnce fill }
    let s' : Books := { s with world := (t, s.world.2) }
    Sound P order s' ∧ Ahead P order s s' ∧
      ∃ f ∈ t.fills, f.toFillFields = fillOf (order id) id v := by
  intro t s'
  obtain ⟨hlisted, hsure⟩ := hsure
  have hvs : v ∈ admitted (order id) id s.listed := (admitted_mono hlisted).subset hv
  have hl : Later order s s' :=
    { listed := List.prefix_refl _
      filled := fun _ => le_refl _
      fills := fun f hf => Table.mem_createOnce_of_mem hf
      events := fun _ hv => hv }
  have hnew : ∀ f ∈ t.fills, f ∈ s.world.1.fills ∨ f = fill := fun f hf =>
    (Table.mem_createOnce.1 hf).imp_right fun hf => hf.2
  have horder : fill.orderId = id := congrArg (·.orderId) hfill
  have hid : fill.fillId = v.id := congrArg (·.fillId) hfill
  refine ⟨⟨⟨fun f hf => ?_, h.traced.events, fun r hr => ?_⟩, fun hP id' hfree => ?_⟩,
    ⟨hl, fun _ _ hheld => .inl hheld⟩, ?_⟩
  · rcases hnew f hf with hf | rfl
    · exact h.traced.fills f hf
    · rw [horder]
      exact ⟨v, hvs, hfill⟩
  · exact (h.traced.reports r hr).later hl
  · by_cases heq : id' = id
    · subst heq
      obtain ⟨l', hle, hlisted', hfilled⟩ := (hsure hP).resolve_left hfree
      obtain ⟨l'', hle', hlisted'', hfilled', hall⟩ :=
        (h.within hP id' hfree).add hlisted' hfilled
      refine ⟨l'', hlisted'', hfilled', fun f hf hfid => ?_⟩
      rcases hnew f hf with hf | rfl
      · exact hall f hf hfid
      · exact ⟨v, (admitted_mono (hle.trans hle')).subset hv, hid⟩
    · obtain ⟨l', hlisted', hfilled, hall⟩ := h.within hP id' hfree
      refine ⟨l', hlisted', hfilled, fun f hf hfid => ?_⟩
      rcases hnew f hf with hf | rfl
      · exact hall f hf hfid
      · exact absurd (horder.symm.trans hfid) (Ne.symm heq)
  · by_cases hadmits : s.world.1.fills.Admits fill
    · exact ⟨fill, Table.mem_createOnce.2 (.inr ⟨hadmits, rfl⟩), hfill⟩
    · -- a fill with one of its keys is of the same execution
      simp only [Table.Admits, Apart, not_forall, not_and_or, not_or, not_not] at hadmits
      obtain ⟨f, hf, hkey⟩ := hadmits
      obtain ⟨v', hv', hfields⟩ := h.traced.fills f hf
      have hfid : f.fillId = v'.id := congrArg (·.fillId) hfields
      have hfunique : f.brokerFillId = some v'.id := congrArg (·.brokerFillId) hfields
      have hunique : fill.brokerFillId = some v.id := congrArg (·.brokerFillId) hfill
      have hsame : v'.id = v.id := by
        rcases hkey with hkey | ⟨-, hkey⟩
        · exact hfid.symm.trans (hkey.trans hid)
        · exact Option.some.inj (hfunique.symm.trans (hkey.trans hunique))
      obtain ⟨hactivity, horder'⟩ := eq_of_id_eq hv' hvs hsame
      rw [horder'] at hv' hfields
      rw [eq_of_activity_eq hv' hvs hactivity] at hfields
      exact ⟨f, Table.mem_createOnce_of_mem hf, hfields⟩

/-- **The event of an execution.** -/
theorem Sound.createSettlement {s : Books} {id : String} {l : List BrokerActivity}
    {v : ValidatedFill} {event : SettlementEvent} (h : Sound P order s) (hlisted : l <+: s.listed)
    (hv : v ∈ admitted (order id) id l)
    (hid : event.settlementEventId = v.id) (hfill : event.fillId = v.id) :
    let t : Store := { s.world.1 with settlements := s.world.1.settlements.createOnce event }
    let s' : Books := { s with world := (t, s.world.2) }
    Sound P order s' ∧ Ahead P order s s' ∧ HasEvent t.settlements v := by
  intro t s'
  have hvs : v ∈ admitted (order id) id s.listed := (admitted_mono hlisted).subset hv
  have hl : Later order s s' :=
    { listed := List.prefix_refl _
      filled := fun _ => le_refl _
      fills := fun _ hf => hf
      events := fun _ ⟨e, he, hkeys⟩ => ⟨e, Table.mem_createOnce_of_mem he, hkeys⟩ }
  refine ⟨⟨⟨h.traced.fills, fun e he => ?_, fun r hr => ?_⟩, h.within⟩,
    ⟨hl, fun _ _ hheld => .inl hheld⟩, ?_⟩
  · rcases Table.mem_createOnce.1 he with he | ⟨-, rfl⟩
    · exact h.traced.events e he
    · exact ⟨id, v, hvs, hid, hfill⟩
  · exact (h.traced.reports r hr).later hl
  · by_cases hadmits : s.world.1.settlements.Admits event
    · exact ⟨event, Table.mem_createOnce.2 (.inr ⟨hadmits, rfl⟩), hid, hfill⟩
    · -- an event with one of its keys is of the same execution
      simp only [Table.Admits, Apart, not_forall, not_and_or, not_or, not_not] at hadmits
      obtain ⟨e, he, hkey⟩ := hadmits
      obtain ⟨id', v', -, heid, hefill⟩ := h.traced.events e he
      have hsame : v'.id = v.id := by
        rcases hkey with hkey | ⟨-, hkey⟩
        · exact heid.symm.trans (hkey.trans hid)
        · exact hefill.symm.trans ((Option.some.inj hkey).trans hfill)
      exact ⟨e, Table.mem_createOnce_of_mem he, heid.trans hsame, hefill.trans hsame⟩

end

end AppliedOnce

end TradePulse
