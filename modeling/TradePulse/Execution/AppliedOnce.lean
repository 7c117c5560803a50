/-
**Every execution is applied once.**

Whatever an order's completed calls have listed has exactly one fill and one settlement event,
nothing else has, and what a call returns is the total of what it listed.

The quantity attributed to an order stays within what the broker says is filled of it while the
order is not on hold.  An order whose check failed for want of an answer is on hold, and may be
beyond it; nor does clearing a hold look at executions that came after the check.

Main definitions:

* `Applied` — exactly once, and nothing else.

Main results:

* `sat_attributeFills` — list, check, record;
* `applied_once` — every state reached is `Applied`, and attributes no more than is filled to an
  order that is not on hold;
* `attributed_beyond_filled` — an order on hold that waits for a check may be beyond it.
-/

import TradePulse.Execution.Applying

set_option autoImplicit false

namespace TradePulse

open Storage Process Attribution

namespace AppliedOnce

variable {order : String → TradeIntent}

section

variable {P : Prop}

/-! ### The procedure -/

/-- The setting as attribution sees it. -/
abbrev attributing (P : Prop) (order : String → TradeIntent) :
    Setting Books ((Settlement.Outside × Attribution.Outside) × Unit) Raised Attribution.Op.Res :=
  ((applying P order).comap Sum.inl).comap (Sum.inr : Attribution.Op → Recovery.Op)

theorem attributing_ok {o : Attribution.Op}
    {i : (Settlement.Outside × Attribution.Outside) × Unit} {s s' : Books} {r : o.Res}
    (h : (attributing P order).exec o i s = .ok (r, s')) :
    ∃ w', Attribution.exec o i.1.2 s.world = .ok (r, w') ∧ s' = { s with world := w' } := by
  change (Attribution.exec o i.1.2 s.world).map _ = _ at h
  cases hx : Attribution.exec o i.1.2 s.world with
  | error e =>
      rw [hx] at h
      cases h
  | ok p =>
      rw [hx] at h
      cases h
      exact ⟨p.2, rfl, rfl⟩

theorem sat_quiet (o : Attribution.Op) (ho : Quiet o) {K : Books → Prop}
    {Q : o.Res → Books → Prop} (hK : (attributing P order).Stable K)
    (hQ : ∀ r, (attributing P order).Stable (Q r))
    (hafter : ∀ i s w' r, K s → Attribution.exec o i s.world = .ok (r, w') →
      Q r { s with world := w' }) :
    Sat (attributing P order) (Attribution.perform o) K Q fun _ => K := by
  refine Sat.perform hQ hK (fun _ _ _ hk => hk) fun i s r s' hs hk hc hx => ?_
  obtain ⟨w', hexec, rfl⟩ := attributing_ok hx
  have hkeeps := quiet_keeps ho hs (fun hP id hid => by subst hid; exact hc hP) hexec
  exact ⟨hkeeps.1, hkeeps.2, hafter i.1.2 s w' r hk hexec⟩

theorem sat_keep {α : Type} {p : Attribute α} (hp : p.Uses Quiet) {K : Books → Prop}
    (hK : (attributing P order).Stable K) :
    Sat (attributing P order) p K (fun _ => K) fun _ => K := by
  refine Sat.of_uses hK (fun o i s r s' ho hs hk hc hx => ?_) hp
  obtain ⟨w', hexec, rfl⟩ := attributing_ok hx
  have hkeeps := quiet_keeps ho hs (fun hP id hid => by subst hid; exact hc hP) hexec
  exact ⟨hkeeps.1, hkeeps.2, hK s _ hs hkeeps.1 hk hkeeps.2⟩

theorem uses_quiet (o : Attribution.Op) (ho : Quiet o) : (Attribution.perform o).Uses Quiet :=
  (Prog.uses_perform o).2 ho

theorem sat_keepOne (o : Attribution.Op) (ho : Quiet o) {K : Books → Prop}
    (hK : (attributing P order).Stable K) :
    Sat (attributing P order) (Attribution.perform o) K (fun _ => K) fun _ => K :=
  sat_keep (uses_quiet o ho) hK

theorem stable_listed (l : List BrokerActivity) :
    (attributing P order).Stable fun s => l <+: s.listed :=
  fun _ _ _ _ h hr => h.trans hr.1.listed

theorem sure_of_held {s : Books} {id : String} {l : List BrokerActivity} (hlisted : l <+: s.listed)
    (hheld : Held id s) : Sure P order id l s := ⟨hlisted, fun _ => .inl hheld⟩

theorem sat_holdUnverified (current : TradeIntent) (id : String) (l : List BrokerActivity) :
    Sat (attributing P order) (holdUnverified current id) (fun s => l <+: s.listed)
      (fun _ => Sure P order id l) fun _ s => l <+: s.listed := by
  refine Sat.bind_of (sat_keepOne .sendAlert trivial (stable_listed l)) fun _ => ?_
  refine Sat.bind_of (Q := fun r s => l <+: s.listed ∧ (r.isSome = true → Sure P order id l s))
    (sat_quiet (.getHold id) trivial (stable_listed l) (fun r => ?_) ?_) fun r => ?_
  · exact (stable_listed l).and (.imp fun _ => stable_sure id l)
  · intro i s w' r hk hx
    cases hx
    exact ⟨hk, fun hheld => sure_of_held hk hheld⟩
  · cases r with
    | some hold => exact fun s _ hk => hk.2 rfl
    | none =>
        refine Sat.of_pointwise fun s _ hk => ⟨fun s => l <+: s.listed, hk.1, ?_⟩
        refine Sat.bind_of (sat_keepOne .clock trivial (stable_listed l)) fun now => ?_
        refine Sat.bind_of (Q := fun _ => Sure P order id l)
          (sat_quiet (.createHold _) trivial (stable_listed l) (fun _ => stable_sure id l) ?_)
          fun _ _ _ hk => hk
        intro i s w' r hk hx
        cases hx
        exact sure_of_held hk (Table.isSome_get?_createOnce_self fun _ => rfl)

theorem sat_verifyOrder (current : TradeIntent) (id : String) (l : List BrokerActivity) :
    Sat (attributing P order) (verifyOrder current id (totalQty (admitted (order id) id l)))
      (fun s => l <+: s.listed)
      (fun disputed s => l <+: s.listed ∧ (disputed = false → Sure P order id l s))
      fun _ _ => True := by
  refine Sat.tryCatch (F := fun _ s => l <+: s.listed)
    (fun e s _ hk => ⟨fun s => l <+: s.listed, hk, ?_⟩) ?_
  · split
    · refine (Sat.bind_of (sat_holdUnverified current id l) fun _ => ?_).mono (fun _ _ h => h)
        (fun _ _ _ h => h) fun _ _ _ _ => trivial
      exact fun s _ hk => ⟨hk.1, fun _ => hk⟩
    · exact fun _ _ _ => trivial
  · refine Sat.bind_of (Q := fun r s => l <+: s.listed ∧ r.filledQty ≤ s.world.2.filled id)
      (sat_quiet (.getOrder id) trivial (stable_listed l) (fun r => ?_) ?_) fun r => ?_
    · exact (stable_listed l).and fun _ _ _ _ h hr => h.trans (hr.1.filled id)
    · intro i s w' r hk hx
      simp only [Attribution.exec] at hx
      split at hx
      · cases hx
      · rename_i found hfound
        cases hx
        refine ⟨hk, ?_⟩
        simp only [Broker.filled, hfound]
        exact le_refl _
    · split
      · exact fun s _ hk => ⟨hk.1, fun h => absurd h (by simp)⟩
      · rename_i hle
        refine Sat.of_pointwise fun s _ hk => ⟨Sure P order id l, ?_, ?_⟩
        · exact ⟨hk.1, fun _ => .inr ⟨l, List.prefix_refl _, hk.1, (not_lt.1 hle).trans hk.2⟩⟩
        · refine (Sat.bind_of (sat_keepOne (.getHold id) trivial (stable_sure id l)) fun hold =>
            ?_).mono (Q := fun _ => Sure P order id l) (fun _ _ h => h)
            (fun _ _ _ h => ⟨h.1, fun _ => h⟩) fun _ _ _ h => h.1
          cases hold with
          | none => exact fun _ _ hk => hk
          | some hold =>
              dsimp only
              split
              · exact Sat.bind_of (sat_keepOne (.deleteHold id) trivial (stable_sure id l))
                  fun _ _ _ hk => hk
              · exact fun _ _ hk => hk

theorem sat_recordDispute (current : TradeIntent) (id : String) (l : List BrokerActivity) :
    Sat (attributing P order) (recordDispute current id) (fun s => l <+: s.listed)
      (fun _ => Sure P order id l) fun _ s => l <+: s.listed := by
  have weaken : ∀ {α : Type} {p : Attribute α}, p.Uses Quiet →
      Sat (attributing P order) p (Sure P order id l) (fun _ => Sure P order id l)
        fun _ s => l <+: s.listed := fun hp =>
    (sat_keep hp (stable_sure id l)).mono (fun _ _ h => h) (fun _ _ _ h => h) fun _ _ _ h => h.1
  refine Sat.bind_of (sat_keepOne (.settlementsByTradeIntent _) trivial (stable_listed l))
    fun events => ?_
  refine Sat.bind_of (sat_keep (Prog.Uses.forEach fun e _ => ?_) (stable_listed l)) fun _ => ?_
  · exact Prog.Uses.bind (fun _ => Prog.uses_done _) (uses_quiet (.blockEvent _) trivial)
  · refine Sat.bind_of (sat_keepOne .clock trivial (stable_listed l)) fun now => ?_
    refine Sat.bind_of (Q := fun _ => Sure P order id l)
      (sat_quiet (.createHold _) trivial (stable_listed l) (fun _ => stable_sure id l) ?_)
      fun created => ?_
    · intro i s w' r hk hx
      cases hx
      exact sure_of_held hk (Table.isSome_get?_createOnce_self fun _ => rfl)
    · refine weaken (Prog.Uses.bind (fun _ => ?_) ?_)
      · exact Prog.Uses.bind (fun now => uses_quiet (.latchFinancialIntegrityBlock _ now) trivial)
          (uses_quiet .clock trivial)
      · split
        · exact Prog.uses_done _
        · exact uses_quiet (.updateHold _) trivial

theorem sat_recordFill {current : TradeIntent} {id : String} {l : List BrokerActivity}
    {v : ValidatedFill} (hv : v ∈ admitted (order id) id l)
    (hfields : fillOf current id v = fillOf (order id) id v) :
    Sat (attributing P order) (recordFill current id v) (Sure P order id l)
      (fun _ s => Sure P order id l s ∧ Recorded order id s v) fun _ _ => True := by
  let HasFill (s : Books) : Prop :=
    ∃ f ∈ s.world.1.fills, f.toFillFields = fillOf (order id) id v
  have hasFill : (attributing P order).Stable HasFill :=
    fun _ _ _ _ ⟨f, hf, h⟩ hr => ⟨f, hr.1.fills f hf, h⟩
  refine Sat.bind_of (Q := fun fill s => fill.toFillFields = fillOf (order id) id v ∧
    Sure P order id l s) (Sat.ofExcept (fun fill hfill s _ hk => ?_) fun _ _ _ _ _ => trivial)
    fun fill => ?_
  · exact ⟨(Fill.make_eq_ok_iff.1 hfill).trans hfields, hk⟩
  refine Sat.of_pointwise fun s _ hk => ⟨Sure P order id l, hk.2, ?_⟩
  obtain ⟨hfill, -⟩ := hk
  refine Sat.bind_of (Q := fun _ s => Sure P order id l s ∧ HasFill s) ?_ fun _ => ?_
  · split
    · refine Sat.bind_of ((sat_keepOne .clock trivial (stable_sure id l)).mono (fun _ _ h => h)
        (fun _ _ _ h => h) fun _ _ _ _ => trivial) fun now => ?_
      refine Sat.perform (fun _ => (stable_sure id l).and hasFill) (stable_sure id l)
        (fun _ _ _ _ => trivial) fun i s r s' hs hk _ hx => ?_
      obtain ⟨w', hexec, rfl⟩ := attributing_ok hx
      obtain ⟨t, ht, hexec⟩ := except_bind_eq_ok.1 hexec
      obtain ⟨_, -, ht⟩ := except_bind_eq_ok.1 ht
      cases ht
      cases hexec
      have hstep := hs.createFill hk hv hfill
      exact ⟨hstep.1, hstep.2.1, stable_sure id l s _ hs hstep.1 hk hstep.2.1, hstep.2.2⟩
    · refine Sat.bind_of (Q := fun _ s => Sure P order id l s ∧ HasFill s) ?_ fun _ _ _ hk => hk
      refine Sat.perform (fun _ => (stable_sure id l).and hasFill) (stable_sure id l)
        (fun _ _ _ _ => trivial) fun i s r s' hs hk _ hx => ?_
      obtain ⟨w', hexec, rfl⟩ := attributing_ok hx
      cases hexec
      have hstep := hs.createFill hk hv hfill
      exact ⟨hstep.1, hstep.2.1, stable_sure id l s _ hs hstep.1 hk hstep.2.1, hstep.2.2⟩
  · refine Sat.bind_of (Q := fun event s => (event.settlementEventId = v.id ∧ event.fillId = v.id) ∧
      Sure P order id l s ∧ HasFill s) (Sat.ofExcept (fun event hevent s _ hk => ?_)
      fun _ _ _ _ _ => trivial) fun event => ?_
    · have hf := SettlementEvent.make_eq_ok_iff.1 hevent
      exact ⟨⟨congrArg (·.settlementEventId) hf, congrArg (·.fillId) hf⟩, hk⟩
    · refine Sat.of_pointwise fun s _ hk => ⟨fun s => Sure P order id l s ∧ HasFill s, hk.2, ?_⟩
      obtain ⟨⟨hid, hfillId⟩, -⟩ := hk
      refine Sat.bind_of (Q := fun _ s => Sure P order id l s ∧ Recorded order id s v) ?_
        fun _ _ _ hk => hk
      refine Sat.perform (fun _ => (stable_sure id l).and fun _ _ _ _ h hr => h.later hr.1)
        ((stable_sure id l).and hasFill) (fun _ _ _ _ => trivial) fun i s r s' hs hk _ hx => ?_
      obtain ⟨w', hexec, rfl⟩ := attributing_ok hx
      cases hexec
      have hstep := hs.createSettlement hk.1.1 hv hid hfillId
      exact ⟨hstep.1, hstep.2.1, stable_sure id l s _ hs hstep.1 hk.1 hstep.2.1, hk.2, hstep.2.2⟩

/-- What a call that listed some executions of an order has put on record. -/
def Listed (order : String → TradeIntent) (id : String) (n : ℕ) (fills : List ValidatedFill)
    (s : Books) : Prop :=
  ∃ l, l <+: s.listed ∧ n ≤ l.length ∧ fills.Perm (admitted (order id) id l) ∧
    ∀ v ∈ admitted (order id) id l, Recorded order id s v

theorem stable_seen (n : ℕ) : (attributing P order).Stable fun s => n ≤ s.listed.length :=
  fun _ _ _ _ h hr => h.trans hr.1.listed.length_le

theorem sat_recordFills {current : TradeIntent} {id : String} {l : List BrokerActivity}
    (hfields : ∀ v, fillOf current id v = fillOf (order id) id v) (fills : List ValidatedFill)
    (hfills : ∀ v ∈ fills, v ∈ admitted (order id) id l) :
    Sat (attributing P order) (Prog.forEach fills (recordFill current id)) (Sure P order id l)
      (fun _ s => ∀ v ∈ fills, Recorded order id s v) fun _ _ => True := by
  induction fills with
  | nil => exact fun _ _ _ _ hv => absurd hv List.not_mem_nil
  | cons v rest ih =>
      have hrest := ih fun v' hv' => hfills v' (List.mem_cons_of_mem v hv')
      have hrecorded : (attributing P order).Stable fun s => Recorded order id s v :=
        fun _ _ _ _ h hr => h.later hr.1
      refine Sat.bind_of (sat_recordFill (hfills v List.mem_cons_self) (hfields v)) fun _ => ?_
      refine (hrest.frame hrecorded fun _ _ _ _ _ hg => hg).mono (fun _ _ h => h)
        (fun _ s _ hk v' hv' => ?_) fun _ _ _ _ => trivial
      rcases List.mem_cons.1 hv' with rfl | hv'
      · exact hk.2
      · exact hk.1 v' hv'

/-- **List, check, record.** -/
theorem sat_attributeFills (c : Snapshot order) (n : ℕ) :
    Sat (attributing P order) (attributeFills c.current c.orderId true)
      (fun s => n ≤ s.listed.length) (fun fills => Listed order c.orderId n fills)
      fun _ _ => True := by
  let id := c.orderId
  have hfields : ∀ v, fillOf c.current id v = fillOf (order id) id v := fun v => by
    simp only [fillOf, c.tradeIntentId, c.asset, c.side, c.executionMode, id]
  refine Sat.bind_of (Q := fun r s => ∃ l, l <+: s.listed ∧ n ≤ l.length ∧
    (validatedFills r id c.current).Perm (admitted (order id) id l)) ?_ fun activities => ?_
  · refine (sat_quiet (.getActivities _) trivial (stable_seen n) (fun r => ?_) ?_).mono
      (fun _ _ h => h) (fun _ _ _ h => h) fun _ _ _ _ => trivial
    · exact .exists_ fun l => (stable_listed l).and (.const _)
    · intro i s w' r hk hx
      cases hx
      exact ⟨s.listed, List.prefix_refl _, hk,
        validatedFills_perm c.asset c.side c.createdAt s.world.2 i.activities⟩
  · refine Sat.of_pointwise fun s _ hk => ?_
    obtain ⟨l, hlisted, hn, hperm⟩ := hk
    refine ⟨fun s => l <+: s.listed, hlisted, ?_⟩
    have hmem : ∀ v ∈ validatedFills activities id c.current, v ∈ admitted (order id) id l :=
      fun v hv => hperm.mem_iff.1 hv
    refine Sat.bind_of ((sat_keep (Prog.Uses.forEach fun a _ => ?_) (stable_listed l)).mono
      (fun _ _ h => h) (fun _ _ _ h => h) fun _ _ _ _ => trivial) fun _ => ?_
    · split
      · exact uses_quiet .sendAlert trivial
      · exact Prog.uses_done _
    dsimp only
    rw [if_pos rfl, totalQty_perm hperm]
    refine Sat.bind_of (sat_verifyOrder c.current id l) fun disputed => ?_
    refine Sat.bind_of (Q := fun _ => Sure P order id l) ?_ fun _ => ?_
    · cases disputed with
      | true =>
          exact (sat_recordDispute c.current id l).mono (fun _ _ h => h.1) (fun _ _ _ h => h)
            fun _ _ _ _ => trivial
      | false => exact fun _ _ hk => hk.2 rfl
    · have listed : (attributing P order).Stable fun s => l <+: s.listed := stable_listed l
      have hboth := (sat_recordFills hfields (validatedFills activities id c.current) hmem).frame
        listed fun _ _ _ _ _ hg => hg
      refine Sat.bind_of (hboth.mono (fun s _ hk => ⟨hk, hk.1⟩) (fun _ _ _ h => h)
        fun _ _ _ _ => trivial) fun _ s _ hk => ?_
      exact ⟨l, hk.2, hn, hperm, fun v hv => hk.1 v (hperm.mem_iff.2 hv)⟩

/-- **What a call attributes to an order is on record.** -/
theorem sat_attributeOrderFills (c : Snapshot order) (n : ℕ) :
    Sat (attributing P order) (attributeOrderFills c.current true) (fun s => n ≤ s.listed.length)
      (fun a => Attributed order ⟨c.orderId, n, a⟩) fun _ _ => True := by
  unfold attributeOrderFills
  rw [c.placed]
  refine Sat.bind_of (sat_attributeFills c n) fun fills s _ hk => ?_
  obtain ⟨l, hlisted, hn, hperm, hall⟩ := hk
  exact ⟨l, hlisted, hn, AttributedFills.ofFills_perm hperm, hall⟩

/-! ### The calls -/

/-- The setting as recovery sees it. -/
abbrev recovering (P : Prop) (order : String → TradeIntent) :
    Setting Books ((Settlement.Outside × Attribution.Outside) × Unit) Raised Recovery.Res :=
  (applying P order).comap Sum.inl

theorem stable_attributed (r : Report) : (applying P order).Stable (Attributed order r) :=
  fun _ _ _ _ h hr => h.later hr.1

/-- One transaction of settlement keeps what is known. -/
theorem settlement_sound {o : Settlement.Op}
    {i : (Settlement.Outside × Attribution.Outside) × Unit} {s s' : Books} {r : o.Res}
    (h : Sound P order s)
    (hx : (applying P order).exec (.inl (.inl o)) i s = .ok (r, s')) :
    Sound P order s' ∧ Ahead P order s s' := by
  change ((Settlement.exec o i.1.1 s.world.1).map _).map _ = _ at hx
  cases hset : Settlement.exec o i.1.1 s.world.1 with
  | error e =>
      rw [hset] at hx
      cases hx
  | ok p =>
      rw [hset] at hx
      cases hx
      obtain ⟨hfills, hkeys, hholds⟩ := settlement_keeps hset
      exact h.store hfills hkeys fun _ id hid => .inl (hholds id hid)

theorem sat_settling {α : Type} (p : Settlement.Settle α) {K : Books → Prop}
    (hK : (applying P order).Stable K) :
    Sat (recovering P order) (p.lift Sum.inl : Recovery.Recover α) K (fun _ => K) fun _ => K := by
  refine Sat.lift_comap (Γ := recovering P order) ?_
  have hop : ∀ (o : Settlement.Op) i s (r : o.Res) s', True → Sound P order s → K s →
      ((recovering P order).comap Sum.inl).cond o i s →
      ((recovering P order).comap Sum.inl).exec o i s = .ok (r, s') →
        Sound P order s' ∧ Ahead P order s s' ∧ K s' := fun o i s r s' _ hs hk _ hx => by
    obtain ⟨hs', hahead⟩ := settlement_sound hs hx
    exact ⟨hs', hahead, hK s s' hs hs' hk hahead⟩
  have stable : ((recovering P order).comap (Sum.inl : Settlement.Op → Recovery.Op)).Stable K := hK
  exact Sat.of_uses stable hop (Prog.uses_true p)

theorem sat_settlingOne (o : Settlement.Op) {K : Books → Prop}
    (hK : (applying P order).Stable K) :
    Sat (recovering P order) (Recovery.settling o) K (fun _ => K) fun _ => K :=
  sat_settling (Prog.perform o) hK

theorem sat_attributingOne (o : Attribution.Op) (ho : Quiet o) {K : Books → Prop}
    (hK : (applying P order).Stable K) :
    Sat (recovering P order) (Recovery.attributing o) K (fun _ => K) fun _ => K :=
  Sat.lift_comap (Γ := recovering P order) (sat_keepOne o ho hK)

theorem sat_lookUp (id : String) {K : Books → Prop} (hK : (applying P order).Stable K) :
    Sat (recovering P order) (Recovery.lookUp id) K (fun _ => K) fun _ => K := by
  refine Sat.tryCatch (F := fun _ => K) (fun e s _ hk => ⟨K, hk, ?_⟩) ?_
  · split
    · exact fun _ _ hk => hk
    · exact fun _ _ hk => hk
  · exact Sat.bind_of (sat_attributingOne (.getOrder id) trivial hK) fun _ _ _ hk => hk

theorem sat_finalize (intent : TradeIntent) (attributed : AttributedFills) (found : BrokerOrder)
    {K : Books → Prop} (hK : (applying P order).Stable K) :
    Sat (recovering P order) (Recovery.finalize intent attributed found) K (fun _ => K)
      fun _ => K := by
  have alert := sat_attributingOne .sendAlert trivial hK
  unfold Recovery.finalize
  split
  · exact alert
  split
  · split
    · split
      · exact alert
      · exact fun _ _ hk => hk
    · refine Sat.bind_of (sat_settlingOne (.updateTradeIntent _ none) hK) fun _ => ?_
      exact sat_settling ((Settlement.processPending {}).bind fun _ => .done ()) hK
  · split
    · exact Sat.bind_of (sat_settlingOne (.updateTradeIntent _ none) hK) fun _ _ _ hk => hk
    · exact fun _ _ hk => hk

/-- **What a recovery attributes to its order is on record.** -/
theorem sat_resolveOrderFromBroker (c : Snapshot order) (n : ℕ) :
    Sat (recovering P order) (Recovery.resolveOrderFromBroker c.current)
      (fun s => n ≤ s.listed.length) (fun a => Attributed order ⟨c.orderId, n, a⟩)
      fun _ _ => True := by
  unfold Recovery.resolveOrderFromBroker
  rw [c.placed]
  refine Sat.bind_of (Sat.lift_comap (Γ := recovering P order) (sat_attributeOrderFills c n))
    fun a => ?_
  have keep : (applying P order).Stable (Attributed order ⟨c.orderId, n, a⟩) :=
    stable_attributed _
  split
  · exact fun _ _ hk => hk
  · refine Sat.bind_of ((sat_lookUp c.orderId keep).mono (fun _ _ h => h) (fun _ _ _ h => h)
      fun _ _ _ _ => trivial) fun found => ?_
    cases found with
    | none => exact fun _ _ hk => hk
    | some found =>
        exact Sat.bind_of ((sat_finalize c.current a found keep).mono (fun _ _ h => h)
          (fun _ _ _ h => h) fun _ _ _ _ => trivial) fun _ _ _ hk => hk

/-- **A call and its report.** -/
theorem known_reporting (id : String) {p : Recovery.Recover AttributedFills}
    (hp : ∀ n, Sat (recovering P order) p (fun s => n ≤ s.listed.length)
      (fun a => Attributed order ⟨id, n, a⟩) fun _ _ => True) (s : Books) :
    Known (applying P order) s (reporting id p) := by
  refine ⟨fun _ => True, .const True, trivial, ?_⟩
  have grown : ∀ n, (applying P order).Stable fun s => n ≤ s.listed.length :=
    fun _ _ _ _ _ h hr => h.trans hr.1.listed.length_le
  refine Sat.bind_of (Q := fun n s => n ≤ s.listed.length) ?_ fun n => ?_
  · refine Sat.perform grown (.const True) (fun _ _ _ _ => trivial) fun i s r s' hs _ _ hx => ?_
    cases hx
    exact ⟨hs, ⟨.refl s, fun _ _ hheld => .inl hheld⟩, le_refl _⟩
  · refine Sat.bind_of (Sat.lift_comap (hp n)) fun a => ?_
    refine Sat.perform (fun _ => .const True) (stable_attributed _) (fun _ _ _ _ => trivial)
      fun i s r s' hs hk _ hx => ?_
    cases hx
    have hl : Later order s { s with reports := ⟨id, n, a⟩ :: s.reports } :=
      { listed := List.prefix_refl _
        filled := fun _ => le_refl _
        fills := fun _ hf => hf
        events := fun _ hv => hv }
    refine ⟨⟨⟨hs.traced.fills, hs.traced.events, fun r hr => ?_⟩, hs.within⟩,
      ⟨hl, fun _ _ hheld => .inl hheld⟩, trivial⟩
    rcases List.mem_cons.1 hr with rfl | hr
    · exact hk.later hl
    · exact (hs.traced.reports r hr).later hl

/-! ### The world outside -/

theorem external_keeps {t : External} {s s' : Books} (h : Sound P order s)
    (hx : external t s = some s') : Sound P order s' ∧ Ahead P order s s' := by
  cases t with
  | execute activity =>
      cases hx
      obtain ⟨added, hrows, -⟩ := Table.ExtendedBy.createOnce (P := fun _ => True) (r := activity)
        s.world.2.activities trivial
      have hl : Later order s { s with world := (s.world.1, { s.world.2 with
          activities := s.world.2.activities.createOnce activity }) } :=
        { listed := ⟨added, hrows.symm⟩
          filled := fun _ => le_refl _
          fills := fun _ hf => hf
          events := fun _ hv => hv }
      exact ⟨h.later hl (fun _ _ hheld => .inl hheld) rfl (.refl _) rfl, hl,
        fun _ _ hheld => .inl hheld⟩
  | order found =>
      obtain ⟨b, hb, rfl⟩ := Option.map_eq_some_iff.1 hx
      have hl : Later order s { s with world := (s.world.1, b) } :=
        { listed := by
            unfold Broker.progress at hb
            split at hb
            · cases hb
              exact List.prefix_refl _
            · cases hb
          filled := Broker.filled_progress hb
          fills := fun _ hf => hf
          events := fun _ hv => hv }
      exact ⟨h.later hl (fun _ _ hheld => .inl hheld) rfl (.refl _) rfl, hl,
        fun _ _ hheld => .inl hheld⟩
  | elsewhere t =>
      simp only [external] at hx
      split at hx
      · rename_i hkeeps
        cases hx
        refine h.store rfl (.refl _) fun _ id hid => .inl ?_
        obtain ⟨hold, hhold⟩ := Option.isSome_iff_exists.1 hid
        obtain ⟨hmem, hkey⟩ := Table.get?_eq_some_iff.1 hhold
        exact hkey ▸ hkeeps hold hmem
      · cases hx

theorem sound (P : Prop) (order : String → TradeIntent) :
    Pool.Sound (system order) (applying P order) where
  exec := rfl
  guar _ _ _ _ _ hg := hg
  env _ _ _ hs ht := external_keeps hs ht
  call c s _ := by
    cases c with
    | poll c =>
        exact known_reporting c.orderId (fun n => Sat.lift_comap (Γ := recovering P order)
          (sat_attributeOrderFills c n)) s
    | recover c => exact known_reporting c.orderId (sat_resolveOrderFromBroker c) s
    | settle args =>
        refine ⟨fun _ => True, .const True, trivial, ?_⟩
        refine (Sat.lift_comap (sat_settling _ (.const True))).mono (fun _ _ h => h)
          (fun _ _ _ h => h) fun _ _ _ h => h

end

/-! ### Every execution is applied once -/

/-- An execution has exactly one fill and exactly one event. -/
def Once (order : String → TradeIntent) (id : String) (s : Books) (v : ValidatedFill) : Prop :=
  (∃ f ∈ s.world.1.fills, f.toFillFields = fillOf (order id) id v ∧
    ∀ f' ∈ s.world.1.fills, f'.brokerFillId = some v.id → f' = f) ∧
  ∃ e ∈ s.world.1.settlements, (e.settlementEventId = v.id ∧ e.fillId = v.id) ∧
    ∀ e' ∈ s.world.1.settlements, e'.fillId = v.id → e' = e

/-- The quantity of the fills of an order. -/
def onRecord (s : Books) (id : String) : ℚ :=
  ((s.world.1.fills.rows.filter fun f => f.orderId = id).map fun f => f.quantity).sum

/-- **Exactly once, and nothing else.** -/
structure Applied (order : String → TradeIntent) (s : Books) : Prop where
  /-- Every fill is of an admitted execution of its order. -/
  fills : ∀ f ∈ s.world.1.fills, ∃ v ∈ admitted (order f.orderId) f.orderId s.listed,
    f.toFillFields = fillOf (order f.orderId) f.orderId v
  /-- Every event is of an admitted execution. -/
  events : ∀ e ∈ s.world.1.settlements, ∃ id, ∃ v ∈ admitted (order id) id s.listed,
    e.settlementEventId = v.id ∧ e.fillId = v.id
  /-- A call returns the total of the executions it listed, which hold all those listed when it
  began; each of them has one fill and one event. -/
  calls : ∀ r ∈ s.reports, ∃ l, l <+: s.listed ∧ r.seen ≤ l.length ∧
    r.attributed = .ofFills (admitted (order r.orderId) r.orderId l) ∧
      ∀ v ∈ admitted (order r.orderId) r.orderId l, Once order r.orderId s v
  /-- Where nothing was listed since a call began, what it returned is all there is, and it is all
  on record. -/
  quiescent : ∀ r ∈ s.reports, r.seen = s.listed.length →
    r.attributed.quantity = totalQty (admitted (order r.orderId) r.orderId s.listed) ∧
      onRecord s r.orderId = r.attributed.quantity

theorem Traced.once {s : Books} {id : String} {v : ValidatedFill} (h : Recorded order id s v) :
    Once order id s v := by
  obtain ⟨⟨f, hf, hfields⟩, e, he, hid, hfill⟩ := h
  have hunique : f.brokerFillId = some v.id := congrArg (·.brokerFillId) hfields
  refine ⟨⟨f, hf, hfields, fun f' hf' hkey => ?_⟩, e, he, ⟨hid, hfill⟩, fun e' he' hkey => ?_⟩
  · exact Table.eq_of_uniqueValue hf' hf hkey hunique
  · exact Table.eq_of_uniqueValue he' he (congrArg some hkey) (congrArg some hfill)

theorem Traced.pair {s : Books} (h : Traced order s) {f : Fill} (hf : f ∈ s.world.1.fills) :
    ∃ v ∈ admitted (order f.orderId) f.orderId s.listed, f.fillId = v.id ∧ f.quantity = v.qty := by
  obtain ⟨v, hv, hfields⟩ := h.fills f hf
  exact ⟨v, hv, congrArg (·.fillId) hfields, congrArg (·.quantity) hfields⟩

theorem nodup_fillIds (s : Books) (id : String) :
    ((s.world.1.fills.rows.filter fun f => f.orderId = id).map fun f => f.fillId).Nodup :=
  (List.pairwise_map.2 (s.world.1.fills.keyed.imp fun h => h.1)).sublist
    (List.filter_sublist.map fun f : Fill => f.fillId)

/-- **All executions of an order are on record**: the fills are them, and no others. -/
theorem Traced.onRecord_eq {s : Books} {id : String} (h : Traced order s)
    (hall : ∀ v ∈ admitted (order id) id s.listed, Recorded order id s v) :
    onRecord s id = totalQty (admitted (order id) id s.listed) := by
  let fills := s.world.1.fills.rows.filter fun f => f.orderId = id
  let vs := admitted (order id) id s.listed
  have hperm : (fills.map fun f => (f.fillId, f.quantity)).Perm (vs.map fun v => (v.id, v.qty)) := by
    refine (List.perm_ext_iff_of_nodup ?_ ?_).2 fun p => ?_
    · refine List.Nodup.of_map Prod.fst ?_
      rw [List.map_map]
      exact nodup_fillIds s id
    · refine List.Nodup.of_map Prod.fst ?_
      rw [List.map_map]
      exact nodup_admitted (nodup_activityId s.world.2.activities)
    · simp only [List.mem_map]
      constructor
      · rintro ⟨f, hf, rfl⟩
        obtain ⟨hmem, hid⟩ := List.mem_filter.1 hf
        obtain rfl : f.orderId = id := by simpa using hid
        obtain ⟨v, hv, hkey, hqty⟩ := h.pair (Table.mem_def.2 hmem)
        exact ⟨v, hv, by rw [hkey, hqty]⟩
      · rintro ⟨v, hv, rfl⟩
        obtain ⟨⟨f, hf, hfields⟩, -⟩ := hall v hv
        have hid : f.orderId = id := congrArg (·.orderId) hfields
        have hkey : f.fillId = v.id := congrArg (·.fillId) hfields
        have hqty : f.quantity = v.qty := congrArg (·.quantity) hfields
        exact ⟨f, List.mem_filter.2 ⟨hf, by simpa using hid⟩, by rw [hkey, hqty]⟩
  have hsum := (hperm.map Prod.snd).sum_eq
  simpa [onRecord, totalQty, List.map_map, Function.comp_def] using hsum

theorem Traced.applied {s : Books} (h : Traced order s) : Applied order s where
  fills := h.fills
  events := h.events
  calls r hr := by
    obtain ⟨l, hlisted, hseen, hattributed, hall⟩ := h.reports r hr
    exact ⟨l, hlisted, hseen, hattributed, fun v hv => Traced.once (hall v hv)⟩
  quiescent r hr hlast := by
    obtain ⟨l, hlisted, hseen, hattributed, hall⟩ := h.reports r hr
    obtain rfl : l = s.listed := hlisted.eq_of_length (le_antisymm hlisted.length_le (hlast ▸ hseen))
    have hquantity : r.attributed.quantity = totalQty (admitted (order r.orderId) r.orderId
        s.listed) := by
      rw [hattributed]
      rfl
    exact ⟨hquantity, (h.onRecord_eq hall).trans hquantity.symm⟩

theorem Traced.onRecord_le {s : Books} {id : String} (h : Traced order s)
    (hwithin : Within order id s) : onRecord s id ≤ s.world.2.filled id := by
  obtain ⟨l, hlisted, hfilled, hall⟩ := hwithin
  refine (sum_le_totalQty (nodup_fillIds s id) (fun f hf => ?_) fun v hv =>
    (qty_pos_of_mem_admitted hv).le).trans hfilled
  obtain ⟨hmem, hid⟩ := List.mem_filter.1 hf
  obtain rfl : f.orderId = id := by simpa using hid
  obtain ⟨v, hv, hkey⟩ := hall f (Table.mem_def.2 hmem) rfl
  obtain ⟨v', hv', hkey', hqty⟩ := h.pair (Table.mem_def.2 hmem)
  have hvs := (admitted_mono hlisted).subset hv
  obtain rfl := eq_of_activity_eq hv' hvs (eq_of_id_eq hv' hvs (hkey'.symm.trans hkey)).1
  exact ⟨v', hv, hkey, hqty⟩

/-- Nothing is on record, and nothing has been reported. -/
structure Opening (s : Books) : Prop where
  fills : s.world.1.fills.rows = []
  settlements : s.world.1.settlements.rows = []
  reports : s.reports = []
  filled : ∀ found ∈ s.world.2.orders.rows, 0 ≤ found.filledQty

theorem Opening.sound {s : Books} (h : Opening s) (P : Prop) : Sound P order s where
  traced :=
    { fills := fun f hf => by simp [Table.mem_def, h.fills] at hf
      events := fun e he => by simp [Table.mem_def, h.settlements] at he
      reports := fun r hr => by simp [h.reports] at hr }
  within _ id _ := by
    refine ⟨[], List.nil_prefix, ?_, fun f hf => by simp [Table.mem_def, h.fills] at hf⟩
    show 0 ≤ s.world.2.filled id
    unfold Broker.filled
    cases hfound : s.world.2.orders.get? id with
    | none => exact le_refl _
    | some found => exact h.filled found (Table.get?_eq_some_iff.1 hfound).1

/-- **Every execution is applied exactly once**, by polls and recoveries side by side, with crashes
and failures at any point; and in a run in which holds are cleared while executions and order agree,
an order that is not on hold has no more on record than is filled. -/
theorem applied_once {s : Books} {w : Pool Books Raised Res} (h₀ : Opening s)
    (h : (calls order).Reaches (fun _ _ => True) ⟨s, []⟩ w) :
    Applied order w.store ∧
      ((calls order).Reaches (Pool.Meets (Cleared order)) ⟨s, []⟩ w →
        ∀ id, ¬ Held id w.store → onRecord w.store id ≤ w.store.world.2.filled id) := by
  constructor
  · have hgood := (sound False order).good (Pool.good_init (h₀.sound False)) (h.mono fun _ _ _ =>
      Pool.meets_of_forall fun _ _ _ hP => absurd hP not_false)
    exact hgood.1.traced.applied
  · intro hcleared id hfree
    have hgood := (sound True order).good (Pool.good_init (h₀.sound True)) (hcleared.mono fun _ _ =>
      Pool.Meets.mono fun _ _ _ hc _ => hc)
    exact hgood.1.traced.onRecord_le (hgood.1.within trivial id hfree)

/-! ### An order on hold, and one whose hold was cleared too late -/

/-- The intent of every order. -/
def boughtShares : TradeIntent :=
  { tradeIntentId := "i1", idempotencyKey := "k1", correlationId := "c",
    asset := { symbol := "AAPL", assetClass := .equity, nativeAssetId := "alpaca:AAPL" },
    side := .buy, executionMode := .paper, strategy := "momentum", createdAt := 0,
    requestedQuantity := some 10, status := .submitted, brokerOrderId := some "o1" }

def boughtSnapshot : Snapshot fun _ => boughtShares :=
  { current := boughtShares, orderId := "o1", placed := rfl, tradeIntentId := rfl, asset := rfl,
    side := rfl, executionMode := rfl, createdAt := rfl }

/-- An execution of the order. -/
def execution (id : String) (qty : ℚ) : BrokerActivity :=
  { activityId := id, symbol := "AAPL", side := some .buy, qty := some qty, price := some 100,
    transactionTime := some 1, orderId := "o1" }

/-- The order, six shares of which are filled. -/
def sixFilled : BrokerOrder :=
  { brokerOrderId := "o1", status := .partiallyFilled, symbol := "AAPL", side := some .buy,
    filledQty := 6, qty := some 10 }

def atRest : Books := { world := ({}, {}) }

theorem opening_atRest : Opening atRest where
  fills := rfl
  settlements := rfl
  reports := rfl
  filled _ h := absurd h List.not_mem_nil

abbrev Action := Act ((Settlement.Outside × Attribution.Outside) × Unit) Raised
  (Call fun _ => boughtShares) External

/-- The next transactions of a call; the executions are listed in the order given. -/
def proceed (j n : ℕ) (activities : List BrokerActivity) : List Action :=
  List.replicate n (.run j (({}, { activities := activities }), ()))

/-- The broker cannot be reached. -/
def unreachable : Raised := ⟨.alpaca, "request failed"⟩

/-- A poll that finds ten shares executed, and cannot read the order. -/
def unverifiedPoll : List Action :=
  [.env (.order sixFilled), .env (.execute (execution "f1" 10)), .start (.poll boughtSnapshot)] ++
    proceed 0 2 [execution "f1" 10] ++ [.raise 0 unreachable] ++ proceed 0 7 []

/-- A hold is found consistent by one call, and cleared after another has recorded more. -/
def lateClearing : List Action :=
  List.flatten
    [ [.env (.execute (execution "f1" 6)), .start (.poll boughtSnapshot)],
      proceed 0 10 [execution "f1" 6],
      [.env (.order sixFilled), .start (.poll boughtSnapshot)],
      proceed 1 4 [execution "f1" 6],
      [.env (.execute (execution "f2" 4)), .start (.poll boughtSnapshot)],
      proceed 2 2 [execution "f1" 6, execution "f2" 4], [.raise 2 unreachable],
      proceed 2 7 [], proceed 1 4 [] ]

/-- Every call is over, and more is on record of the order than is filled. -/
def Beyond (w : Pool Books Raised Res) : Prop :=
  (∀ p ∈ w.procs, p.finished = true) ∧ w.store.world.2.filled "o1" < onRecord w.store "o1"

instance (w : Pool Books Raised Res) : Decidable (Beyond w) :=
  inferInstanceAs (Decidable (_ ∧ _))

/-- No hold of the order says that its quantity is disputed. -/
def Undisputed (w : Pool Books Raised Res) : Prop :=
  ∀ hold ∈ w.store.world.1.integrityHolds.rows, hold.holdType = .verificationPending

instance (w : Pool Books Raised Res) : Decidable (Undisputed w) :=
  inferInstanceAs (Decidable (∀ hold ∈ w.store.world.1.integrityHolds.rows, _))

/-- **An order can have more on record than is filled**, while no hold says so: where the check of
its total failed it is on hold for that, and where a hold was cleared too late it is not on hold. -/
theorem attributed_beyond_filled :
    Opening atRest ∧
      (∃ w, (calls fun _ => boughtShares).Reaches (fun _ _ => True) ⟨atRest, []⟩ w ∧
        Beyond w ∧ Undisputed w) ∧
      ∃ w, (calls fun _ => boughtShares).Reaches (fun _ _ => True) ⟨atRest, []⟩ w ∧
        Beyond w ∧ w.store.world.1.integrityHolds.rows = [] := by
  refine ⟨opening_atRest, ?_, ?_⟩
  · have hrun : ((calls fun _ => boughtShares).run ⟨atRest, []⟩ unverifiedPoll).any
        (fun w => decide (Beyond w ∧ Undisputed w)) = true := by decide +kernel
    exact Machine.exists_of_run hrun
  · have hrun : ((calls fun _ => boughtShares).run ⟨atRest, []⟩ lateClearing).any
        (fun w => decide (Beyond w ∧ w.store.world.1.integrityHolds.rows = [])) = true := by
      decide +kernel
    exact Machine.exists_of_run hrun

/-- A poll that finds six shares executed and filled. -/
def verifiedPoll : List Action :=
  [.env (.order sixFilled), .env (.execute (execution "f1" 6)), .start (.poll boughtSnapshot)] ++
    proceed 0 7 [execution "f1" 6]

/-- The poll records them. -/
theorem applied_once_verified : ∃ w,
    (calls fun _ => boughtShares).Reaches (Pool.Meets (Cleared fun _ => boughtShares))
      ⟨atRest, []⟩ w ∧ (onRecord w.store "o1" = 6 ∧ ¬ Held "o1" w.store) ∧
    Applied (fun _ => boughtShares) w.store ∧
      onRecord w.store "o1" ≤ w.store.world.2.filled "o1" := by
  have hrun : ((calls fun _ => boughtShares).runUnder (Pool.Meets (Cleared fun _ => boughtShares))
      ⟨atRest, []⟩ verifiedPoll).any
      (fun w => decide (onRecord w.store "o1" = 6 ∧ ¬ Held "o1" w.store)) = true := by
    decide +kernel
  obtain ⟨w, hreach, hrecord, hfree⟩ := Machine.exists_of_runUnder hrun
  have happlied := applied_once opening_atRest (hreach.mono fun _ _ _ => trivial)
  exact ⟨w, hreach, ⟨hrecord, hfree⟩, happlied.1, happlied.2 hreach "o1" hfree⟩

end AppliedOnce

end TradePulse
