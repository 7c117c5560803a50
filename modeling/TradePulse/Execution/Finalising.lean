/-
**An order is finalised on full evidence.**

Polls, recoveries and passes of the processor run side by side.  The broker may answer anything at
any time: an order may be in any status, and its executions may be listed late, or in part, or not
at all.  Whatever is asked and answered, an intent only becomes terminal when its order was seen to
be over and the quantity attributed to it is no less than what was filled; it only becomes filled
when that quantity is no less than what was requested.

Main definitions:

* `Finalising.Books` — the store, the broker, and everything that the broker has answered so far;
* `Finalising.system` — the calls, and the world around them;
* `Evidence` — what has to be known before an intent is given a terminal status.

Main results:

* `Sound.update` — an intent may be written when there is evidence for its status;
* `sat_poll`, `sat_resolveOrderFromBroker` — poll and recovery write only then;
* `finalised_on_full_evidence` — every state reached, and the agreement of poll and recovery.
-/

import TradePulse.Execution.Admitted
import TradePulse.Execution.Polling
import TradePulse.Settlement.PassRule

set_option autoImplicit false

namespace TradePulse

open Storage Process Attribution

namespace Finalising

/-! ### The calls -/

/-- The store and the broker, and what has been answered and taken up so far. -/
structure Books where
  world : World
  lists : List (List BrokerActivity) := []
  orders : List BrokerOrder := []
  /-- The intents that polls and recoveries began with. -/
  taken : List TradeIntent := []
  /-- The terminal statuses that intents had at the start or were given elsewhere. -/
  known : List (String × TradeIntentStatus) := []

/-- The operations of poll and recovery; and taking up an intent, at the beginning of either. -/
abbrev Op := Recovery.Op ⊕ TradeIntent

abbrev Res : Op → Type := ResPar Recovery.Res fun _ : TradeIntent => Unit

/-- What the broker answers is kept. -/
def record : (o : Recovery.Op) → Recovery.Res o → Books → Books
  | .inr (.getActivities _), activities, s => { s with lists := activities :: s.lists }
  | .inr (.getOrder _), order, s => { s with orders := order :: s.orders }
  | _, _, s => s

def recoveryExec (o : Recovery.Op) (i : Settlement.Outside × Attribution.Outside) (s : Books) :
    Except Raised (Recovery.Res o × Books) :=
  (Recovery.exec o i s.world).map fun r => (r.1, record o r.1 { s with world := r.2 })

def takeExec (intent : TradeIntent) (_ : Unit) (s : Books) : Except Raised (Unit × Books) :=
  .ok ((), { s with taken := intent :: s.taken })

def exec : (o : Op) → (Settlement.Outside × Attribution.Outside) × Unit → Books →
    Except Raised (Res o × Books) :=
  execPar recoveryExec takeExec

/-- An intent as it was read at some time; a filled quantity is never negative. -/
structure Snapshot where
  current : TradeIntent
  filled_nonneg : 0 ≤ current.filledQuantity

/-- The calls: the poll of an order, its recovery, and a pass of the processor. -/
inductive Call
  | poll (snapshot : Snapshot) (turns : ℕ)
  | recover (snapshot : Snapshot)
  | settle (args : Settlement.PassArgs)

/-- Take up an intent, and proceed. -/
def taking {α : Type} (intent : TradeIntent) (p : Recovery.Recover α) : Prog Raised Res Unit := do
  (Prog.perform (.inr intent : Op) : Prog Raised Res Unit)
  let _ ← p.lift Sum.inl
  return ()

/-- Two rows say the same of an order. -/
def SameOrder (i j : TradeIntent) : Prop :=
  i.tradeIntentId = j.tradeIntentId ∧ i.brokerOrderId = j.brokerOrderId ∧ i.asset = j.asset ∧
    i.side = j.side ∧ i.requestedQuantity = j.requestedQuantity ∧ i.status = j.status

instance (i j : TradeIntent) : Decidable (SameOrder i j) := inferInstanceAs (Decidable (_ ∧ _))

/-- The store already says so. -/
def Kept (s : Store) (i : TradeIntent) : Prop := ∃ j ∈ s.tradeIntents.rows, SameOrder j i

instance (s : Store) (i : TradeIntent) : Decidable (Kept s i) :=
  inferInstanceAs (Decidable (∃ j ∈ s.tradeIntents.rows, _))

/-- The terminal statuses of a store that are not those of another. -/
def given (s t : Store) : List (String × TradeIntentStatus) :=
  (t.tradeIntents.rows.filter fun i => i.status.terminal && decide (¬ Kept s i)).map fun i =>
    (i.tradeIntentId, i.status)

/-- What the rest of the world does. -/
inductive External
  /-- Orders and executions at the broker become any others. -/
  | broker (b : Broker)
  /-- Anything else happens in the store; but nobody else makes an intent filled. -/
  | elsewhere (t : Store)

def external : External → Books → Option Books
  | .broker b, s => some { s with world := (s.world.1, b) }
  | .elsewhere t, s =>
      if ∀ i ∈ t.tradeIntents.rows, i.status = .filled → Kept s.world.1 i then
        some { s with
          world := (t, s.world.2)
          known := given s.world.1 t ++ s.known }
      else none

/-- Polls, recoveries and passes of the processor, and the world around them. -/
def system : System Books ((Settlement.Outside × Attribution.Outside) × Unit) Raised Call External
    Res where
  exec := exec
  call
    | .poll c turns => taking c.current (pollAndSettle c.current turns)
    | .recover c => taking c.current (Recovery.resolveOrderFromBroker c.current)
    | .settle args =>
        (((Settlement.processPending args).bind fun _ => .done ()).lift Sum.inl :
          Recovery.Recover Unit).lift Sum.inl
  env := external

def calls : Machine (Pool Books Raised Res)
    (Act ((Settlement.Outside × Attribution.Outside) × Unit) Raised Call External) :=
  Pool.machine system

/-- Nothing has been asked yet. -/
def start (w : World) : Books where
  world := w
  known := (w.1.tradeIntents.rows.filter fun i => i.status.terminal).map fun i =>
    (i.tradeIntentId, i.status)

/-! ### Evidence -/

/-- The executions of the order of an intent, in a list of the broker's, have this total. -/
def Listed (s : Books) (i : TradeIntent) (quantity : ℚ) : Prop :=
  ∃ activities ∈ s.lists, ∃ orderId ∈ i.brokerOrderId,
    quantity = totalQty (validatedFills activities orderId i)

/-- A quantity that was attributed to an intent: its executions have this total in a list of the
broker's, or it is what a poll began with. -/
def Attributed (s : Books) (i : TradeIntent) (quantity : ℚ) : Prop :=
  Listed s i quantity ∨
    ∃ taken ∈ s.taken, taken.tradeIntentId = i.tradeIntentId ∧ quantity = taken.filledQuantity

/-- The evidence for a terminal status: the order of the intent was seen to be over, and no less was
attributed than is filled of it, and than was requested of an intent that is filled. -/
structure Evidence (s : Books) (i : TradeIntent) (quantity : ℚ) (order : BrokerOrder) : Prop where
  attributed : Attributed s i quantity
  /-- Only where nothing is filled of the order is no list needed. -/
  listed : 0 < order.filledQty → Listed s i quantity
  reported : order ∈ s.orders
  own : i.brokerOrderId = some order.brokerOrderId
  terminal : order.status.terminal = true
  covered : order.filledQty ≤ quantity
  requested : i.status = .filled → ∃ requested ∈ i.requestedQuantity, requested ≤ quantity

/-- There is evidence for the status of an intent, or it is not the work of a poll or recovery. -/
def Standing (s : Books) (i : TradeIntent) : Prop :=
  i.status.terminal = true →
    (∃ quantity order, Evidence s i quantity order) ∨ (i.tradeIntentId, i.status) ∈ s.known

/-- Nothing that was answered is forgotten. -/
structure Later (s s' : Books) : Prop where
  lists : s.lists ⊆ s'.lists
  orders : s.orders ⊆ s'.orders
  taken : s.taken ⊆ s'.taken
  known : s.known ⊆ s'.known

theorem Later.of_eq {s s' : Books} (hlists : s'.lists = s.lists) (horders : s'.orders = s.orders)
    (htaken : s'.taken = s.taken) (hknown : s'.known = s.known) : Later s s' where
  lists := hlists ▸ List.Subset.refl _
  orders := horders ▸ List.Subset.refl _
  taken := htaken ▸ List.Subset.refl _
  known := hknown ▸ List.Subset.refl _

theorem Later.refl (s : Books) : Later s s := .of_eq rfl rfl rfl rfl

section Later

variable {s s' : Books} {i j : TradeIntent} {quantity : ℚ} {order : BrokerOrder}

theorem Listed.later (h : Listed s i quantity) (hl : Later s s') : Listed s' i quantity := by
  obtain ⟨activities, hmem, htotal⟩ := h
  exact ⟨activities, hl.lists hmem, htotal⟩

theorem Attributed.later (h : Attributed s i quantity) (hl : Later s s') :
    Attributed s' i quantity := by
  rcases h with hlisted | ⟨taken, hmem, htaken⟩
  · exact .inl (hlisted.later hl)
  · exact .inr ⟨taken, hl.taken hmem, htaken⟩

theorem Evidence.later (h : Evidence s i quantity order) (hl : Later s s') :
    Evidence s' i quantity order :=
  { h with
    attributed := h.attributed.later hl
    listed := fun hfilled => (h.listed hfilled).later hl
    reported := hl.orders h.reported }

theorem Standing.later (h : Standing s i) (hl : Later s s') : Standing s' i := by
  intro hterminal
  rcases h hterminal with ⟨quantity, order, hevidence⟩ | hknown
  · exact .inl ⟨quantity, order, hevidence.later hl⟩
  · exact .inr (hl.known hknown)

theorem Listed.congr (h : Listed s i quantity) (hplaced : i.brokerOrderId = j.brokerOrderId)
    (hasset : i.asset = j.asset) (hside : i.side = j.side) : Listed s j quantity := by
  have hfills : ∀ activities orderId,
      validatedFills activities orderId i = validatedFills activities orderId j := by
    intro activities orderId
    simp only [validatedFills, validatedFill_congr hasset hside]
  obtain ⟨activities, hmem, orderId, horder, htotal⟩ := h
  exact ⟨activities, hmem, orderId, hplaced ▸ horder, hfills activities orderId ▸ htotal⟩

theorem Attributed.congr (h : Attributed s i quantity) (hid : i.tradeIntentId = j.tradeIntentId)
    (hplaced : i.brokerOrderId = j.brokerOrderId) (hasset : i.asset = j.asset)
    (hside : i.side = j.side) : Attributed s j quantity := by
  rcases h with hlisted | ⟨taken, hmem, htaken, hq⟩
  · exact .inl (hlisted.congr hplaced hasset hside)
  · exact .inr ⟨taken, hmem, htaken.trans hid, hq⟩

theorem Standing.congr (h : Standing s i) (hsame : SameOrder i j) : Standing s j := by
  obtain ⟨hid, hplaced, hasset, hside, hrequested, hstatus⟩ := hsame
  intro hterminal
  rcases h (hstatus ▸ hterminal) with ⟨quantity, order, hevidence⟩ | hknown
  · refine .inl ⟨quantity, order, ?_⟩
    exact
      { hevidence with
        attributed := hevidence.attributed.congr hid hplaced hasset hside
        listed := fun hfilled => (hevidence.listed hfilled).congr hplaced hasset hside
        own := hplaced ▸ hevidence.own
        requested := fun hfilled => hrequested ▸ hevidence.requested (hstatus.trans hfilled) }
  · exact .inr (hid ▸ hstatus ▸ hknown)

theorem standing_of_open (h : i.status.terminal = false) : Standing s i := by
  intro hterminal
  rw [h] at hterminal
  cases hterminal

end Later

/-! ### The setting -/

section

variable {known₀ : List (String × TradeIntentStatus)}

/-- The invariant: there is evidence for every status, and only those intents were filled elsewhere
that were so at the start. -/
structure Sound (known₀ : List (String × TradeIntentStatus)) (s : Books) : Prop where
  standing : ∀ i ∈ s.world.1.tradeIntents, Standing s i
  filled : ∀ id, (id, TradeIntentStatus.filled) ∈ s.known → (id, .filled) ∈ known₀

/-- The setting in which the calls are judged. -/
def finalising (known₀ : List (String × TradeIntentStatus)) :
    Setting Books ((Settlement.Outside × Attribution.Outside) × Unit) Raised Res where
  exec := exec
  inv := Sound known₀
  rely := Later
  cond _ _ _ := True
  guar _ := Later

/-- The setting as poll and recovery see it. -/
abbrev recovering (known₀ : List (String × TradeIntentStatus)) :
    Setting Books ((Settlement.Outside × Attribution.Outside) × Unit) Raised Recovery.Res :=
  (finalising known₀).comap Sum.inl

variable {s s' : Books}

theorem Sound.later (h : Sound known₀ s) (hl : Later s s')
    (hintents : s'.world.1.tradeIntents = s.world.1.tradeIntents) (hknown : s'.known = s.known) :
    Sound known₀ s' where
  standing i hi := (h.standing i (hintents ▸ hi)).later hl
  filled id hid := h.filled id (hknown ▸ hid)

/-- **An intent may be written when there is evidence for its status.** -/
theorem Sound.update (h : Sound known₀ s) {written : TradeIntent} (hwritten : Standing s written)
    (hl : Later s s') (hintents : s'.world.1.tradeIntents = s.world.1.tradeIntents.put written)
    (hknown : s'.known = s.known) : Sound known₀ s' where
  standing i hi := by
    rw [hintents] at hi
    rcases Table.mem_put_imp hi with rfl | hi
    · exact hwritten.later hl
    · exact (h.standing i hi).later hl
  filled id hid := h.filled id (hknown ▸ hid)

/-! ### Operations -/

theorem recovery_ok {o : Recovery.Op} {i : (Settlement.Outside × Attribution.Outside) × Unit}
    {r : Recovery.Res o} (h : (recovering known₀).exec o i s = .ok (r, s')) :
    ∃ w', Recovery.exec o i.1 s.world = .ok (r, w') ∧ s' = record o r { s with world := w' } := by
  change (Recovery.exec o i.1 s.world).map _ = _ at h
  cases hx : Recovery.exec o i.1 s.world with
  | error e =>
      rw [hx] at h
      cases h
  | ok p =>
      rw [hx] at h
      cases h
      exact ⟨p.2, rfl, rfl⟩

theorem record_world (o : Recovery.Op) (r : Recovery.Res o) (s : Books) :
    (record o r s).world = s.world := by
  rcases o with o | o
  · rfl
  · cases o <;> rfl

theorem record_known (o : Recovery.Op) (r : Recovery.Res o) (s : Books) :
    (record o r s).known = s.known := by
  rcases o with o | o
  · rfl
  · cases o <;> rfl

theorem record_later (o : Recovery.Op) (r : Recovery.Res o) (s : Books) (w : World) :
    Later s (record o r { s with world := w }) := by
  rcases o with o | o
  · exact .of_eq rfl rfl rfl rfl
  · cases o with
    | getActivities since => exact { Later.refl s with lists := List.subset_cons_self r s.lists }
    | getOrder id => exact { Later.refl s with orders := List.subset_cons_self r s.orders }
    | _ => exact .of_eq rfl rfl rfl rfl

theorem attribution_intents {o : Attribution.Op} {i : Attribution.Outside} {w w' : World}
    {r : o.Res} (h : Attribution.exec o i w = .ok (r, w')) :
    w'.1.tradeIntents = w.1.tradeIntents := by
  cases o with
  | getOrder id =>
      simp only [Attribution.exec] at h
      split at h
      · cases h
      · cases h
        rfl
  | blockEvent id =>
      obtain ⟨⟨blocked, t⟩, hblock, h⟩ := except_bind_eq_ok.1 h
      cases h
      unfold Attribution.blockEvent at hblock
      split at hblock
      · cases hblock
        rfl
      · split at hblock
        · obtain ⟨_, -, hblock⟩ := except_bind_eq_ok.1 hblock
          cases hblock
          rfl
        · cases hblock
          rfl
  | recordGrossFill fill now =>
      obtain ⟨t, ht, h⟩ := except_bind_eq_ok.1 h
      cases h
      obtain ⟨_, -, ht⟩ := except_bind_eq_ok.1 ht
      cases ht
      rfl
  | latchFinancialIntegrityBlock reason now =>
      cases h
      unfold Store.latchFinancialIntegrityBlock
      dsimp only
      split <;> rfl
  | _ =>
      cases h
      rfl

/-- The setting as attribution sees it. -/
abbrev attributing (known₀ : List (String × TradeIntentStatus)) :
    Setting Books ((Settlement.Outside × Attribution.Outside) × Unit) Raised Attribution.Op.Res :=
  (recovering known₀).comap (Sum.inr : Attribution.Op → Recovery.Op)

theorem attribution_keeps {o : Attribution.Op}
    {i : (Settlement.Outside × Attribution.Outside) × Unit} {r : o.Res} (hs : Sound known₀ s)
    (h : (attributing known₀).exec o i s = .ok (r, s')) :
    ∃ w', Attribution.exec o i.1.2 s.world = .ok (r, w') ∧
      s' = record (.inr o) r { s with world := w' } ∧ Sound known₀ s' ∧ Later s s' := by
  have hrecovery : (recovering known₀).exec (.inr o) i s = .ok (r, s') := h
  obtain ⟨w', hexec, rfl⟩ := recovery_ok hrecovery
  have hl := record_later (.inr o) r s w'
  refine ⟨w', hexec, rfl, hs.later hl ?_ (record_known (.inr o) r _), hl⟩
  rw [record_world]
  exact attribution_intents hexec

theorem sat_keep {α : Type} (p : Attribute α) {K : Books → Prop}
    (hK : (finalising known₀).Stable K) :
    Sat (attributing known₀) p K (fun _ => K) fun _ => K := by
  have stable : (attributing known₀).Stable K := hK
  refine Sat.of_stable (A := fun _ : Attribution.Op => True) stable (fun _ _ _ _ _ hg => hg)
    (fun o i s r s' _ hs _ hx => ?_) (Prog.uses_true p)
  obtain ⟨-, -, -, hs', hl⟩ := attribution_keeps hs hx
  exact ⟨hs', hl⟩

theorem sat_answer (o : Attribution.Op) {Q : o.Res → Books → Prop}
    (hQ : ∀ r, (finalising known₀).Stable (Q r))
    (hafter : ∀ i (s : Books) w' r, Attribution.exec o i s.world = .ok (r, w') →
      Q r (record (.inr o) r { s with world := w' })) :
    Sat (attributing known₀) (Attribution.perform o) (fun _ => True) Q fun _ _ => True := by
  refine Sat.perform hQ (.const True) (fun _ _ _ _ => trivial) fun i s r s' hs _ _ hx => ?_
  obtain ⟨w', hexec, rfl, hs', hl⟩ := attribution_keeps hs hx
  exact ⟨hs', hl, hafter i.1.2 s w' r hexec⟩

end

/-! ### The processor -/

section

variable {known₀ : List (String × TradeIntentStatus)}

/-- The setting as the processor sees it. -/
def settling (known₀ : List (String × TradeIntentStatus)) :
    Setting Books Settlement.Outside Raised Settlement.Op.Res where
  exec o i s := (Settlement.exec o i s.world.1).map fun r =>
    (r.1, { s with world := (r.2, s.world.2) })
  inv := Sound known₀
  rely := Later
  cond _ _ _ := True
  guar _ := Later

theorem sat_settling {α : Type} {p : Settlement.Settle α} {K : Books → Prop}
    {Q : α → Books → Prop} {E : Raised → Books → Prop} (h : Sat (settling known₀) p K Q E) :
    Sat (recovering known₀) (p.lift Sum.inl : Recovery.Recover α) K Q E := by
  have hsame : ∀ o (i : (Settlement.Outside × Attribution.Outside) × Unit) s,
      (recovering known₀).exec (.inl o) i s = (settling known₀).exec o i.1.1 s := by
    intro o i s
    change ((Settlement.exec o i.1.1 s.world.1).map _).map _ = (Settlement.exec o i.1.1 _).map _
    cases Settlement.exec o i.1.1 s.world.1 with
    | error e => rfl
    | ok p => rfl
  exact h.lift rfl rfl _ hsame (fun _ _ _ _ => trivial) fun _ _ _ hg => hg

theorem sat_elsewhere {α : Type} {p : Settlement.Settle α} (parts : List Part)
    {K : Books → Prop} (hK : (settling known₀).Stable K)
    (hp : p.Uses (Settlement.Op.WritesIn parts))
    (hparts : .tradeIntents ∉ parts) : Sat (settling known₀) p K (fun _ => K) fun _ => K := by
  refine Sat.of_uses hK (fun o i s r s' ho hs hk _ hx => ?_) hp
  change (Settlement.exec o i s.world.1).map _ = _ at hx
  cases hexec : Settlement.exec o i s.world.1 with
  | error e =>
      rw [hexec] at hx
      cases hx
  | ok q =>
      rw [hexec] at hx
      cases hx
      have hintents := Settlement.exec_frame hexec .tradeIntents fun hw => hparts (ho _ hw)
      have hl : Later s { s with world := (q.2, s.world.2) } := .of_eq rfl rfl rfl rfl
      have hs' := hs.later hl hintents rfl
      exact ⟨hs', hl, hK s _ hs hs' hk hl⟩

theorem safe_elsewhere {α : Type} {p : Settlement.Settle α} (parts : List Part)
    (hp : p.Uses (Settlement.Op.WritesIn parts)) (hparts : .tradeIntents ∉ parts) :
    Settlement.Safe (settling known₀) p :=
  sat_elsewhere parts (.const True) hp hparts

theorem stable_standing (i : TradeIntent) : (settling known₀).Stable fun s => Standing s i :=
  fun _ _ _ _ h hl => h.later hl

/-- **An intent is written.** -/
theorem sat_update {written : TradeIntent} {key : Option String} {K : Books → Prop}
    (hK : (settling known₀).Stable K) (hwritten : ∀ s, K s → Standing s written) :
    Sat (settling known₀) (Settlement.perform (.updateTradeIntent written key)) K (fun _ => K)
      fun _ => K := by
  refine Sat.perform (fun _ => hK) hK (fun _ _ _ hk => hk) fun i s r s' hs hk _ hx => ?_
  change (Settlement.exec (.updateTradeIntent written key) i s.world.1).map _ = _ at hx
  cases hexec : Settlement.exec (.updateTradeIntent written key) i s.world.1 with
  | error e =>
      rw [hexec] at hx
      cases hx
  | ok q =>
      rw [hexec] at hx
      cases hx
      obtain ⟨_, -, hput⟩ := except_bind_eq_ok.1 hexec
      have hl : Later s { s with world := (q.2, s.world.2) } := .of_eq rfl rfl rfl rfl
      have hs' : Sound known₀ { s with world := (q.2, s.world.2) } := by
        refine hs.update (hwritten s hk) hl ?_ rfl
        exact congrArg (fun p => p.2.tradeIntents) (Except.ok.inj hput).symm
      exact ⟨hs', hl, hK s _ hs hs' hk hl⟩

theorem safe_projectTrade (event : SettlementEvent) :
    Settlement.Safe (settling known₀) (Settlement.projectTrade event) := by
  refine Sat.bind_of (Q := fun r s => ∀ i ∈ r, Standing s i) ?_ fun r => ?_
  · refine Sat.perform (fun r => .all fun i => .imp fun _ => stable_standing i) (.const True)
      (fun _ _ _ _ => trivial) fun i s r s' hs _ _ hx => ?_
    cases hx
    refine ⟨hs, .refl s, fun intent hintent => ?_⟩
    exact hs.standing intent (Table.get?_eq_some_iff.1 hintent).1
  · cases r with
    | none => exact fun _ _ _ => trivial
    | some intent =>
        refine Sat.of_pointwise fun s _ hk => ⟨fun s => Standing s intent, hk intent rfl, ?_⟩
        have hK : (settling known₀).Stable fun s => Standing s intent := stable_standing intent
        have read : ∀ o : Settlement.Op, o.writes = none →
            Sat (settling known₀) (Settlement.perform o) (fun s => Standing s intent)
              (fun _ s => Standing s intent) fun _ _ => True := fun o ho =>
          (sat_elsewhere [] hK ((Prog.uses_perform o).2 (.of_none ho)) (by simp)).mono
            (fun _ _ hk => hk) (fun _ _ _ hk => hk) fun _ _ _ _ => trivial
        refine Sat.bind_of (read (.fillsByTradeIntent _) rfl) fun fills => ?_
        refine Sat.bind_of (read (.settlementsByTradeIntent _) rfl) fun events => ?_
        refine Sat.bind_of ((sat_update hK fun s hk => ?_).mono (fun _ _ hk => hk)
          (fun _ _ _ hk => hk) fun _ _ _ _ => trivial) fun _ _ _ _ => trivial
        exact hk.congr ⟨rfl, rfl, rfl, rfl, rfl, rfl⟩

/-- Nothing has to be known at any point of a pass. -/
def nothingKnown : Settlement.PassKnowledge Books where
  running _ _ _ := True
  staged _ _ _ _ _ := True
  failed _ _ := True

theorem holds_nothingKnown : nothingKnown.Holds (settling known₀) where
  quiet o ho := safe_elsewhere [.session] ((Prog.uses_perform o).2 ho) (by simp)
  claim id now stale force :=
    (safe_elsewhere [.settlements] ((Prog.uses_perform _).2 (.of_mem rfl (by simp)))
      (by simp)).mono (fun _ _ hk => hk) (fun _ _ _ _ _ _ => trivial) fun _ _ _ _ => trivial
  verify c := safe_elsewhere [] (Settlement.uses_verifyIntegrity c false) (by simp)
  stage c state st _ _ := by
    cases st with
    | projectTrade =>
        refine Sat.bind_of (Q := fun _ _ => True) ?_ fun _ => ?_
        · exact safe_elsewhere [.accounting] (Settlement.uses_performWrite rfl) (by simp)
        · exact Sat.bind_of (Q := fun _ _ => True) (safe_projectTrade state) fun _ _ _ _ => trivial
    | projectLot => exact safe_elsewhere _ (Settlement.uses_handlers .projectLot state) (by decide)
    | projectAttribution =>
        exact safe_elsewhere _ (Settlement.uses_handlers .projectAttribution state) (by decide)
    | projectCash =>
        exact safe_elsewhere _ (Settlement.uses_handlers .projectCash state) (by decide)
    | projectHolding =>
        exact safe_elsewhere _ (Settlement.uses_handlers .projectHolding state) (by decide)
    | verifyIntegrity =>
        exact safe_elsewhere _ (Settlement.uses_handlers .verifyIntegrity state) (by decide)
    | projectLiabilityHold =>
        exact safe_elsewhere _ (Settlement.uses_handlers .projectLiabilityHold state) (by decide)
  mark _ _ _ _ _ _ _ _ := safe_elsewhere [.settlements] (Settlement.uses_performWrite rfl)
    (by simp)
  done _ _ _ _ := safe_elsewhere [.settlements] (Settlement.uses_performWrite rfl) (by simp)
  fail _ _ _ _ _ := safe_elsewhere [.settlements] (Settlement.uses_performWrite rfl) (by simp)
  running_failed _ _ _ h := h
  staged_failed _ _ _ _ _ h := h

theorem sat_processPending (args : Settlement.PassArgs) :
    Sat (recovering known₀) ((((Settlement.processPending args).bind fun _ => .done ()).lift
      Sum.inl : Recovery.Recover Unit)) (fun _ => True) (fun _ _ => True) fun _ _ => True :=
  sat_settling (Sat.bind_of (holds_nothingKnown.processPending args) fun _ _ _ _ => trivial)

end

/-! ### Attribution -/

section

variable {known₀ : List (String × TradeIntentStatus)}

theorem stable_listed (i : TradeIntent) (quantity : ℚ) :
    (finalising known₀).Stable fun s => Listed s i quantity :=
  fun _ _ _ _ h hl => h.later hl

theorem totalQty_nonneg (activities : List BrokerActivity) (orderId : String)
    (current : TradeIntent) : 0 ≤ totalQty (validatedFills activities orderId current) := by
  refine List.sum_nonneg fun q hq => ?_
  obtain ⟨v, hv, rfl⟩ := List.mem_map.1 hq
  obtain ⟨a, -, hvalid⟩ := List.mem_filterMap.1 ((List.mem_insertionSort _).1 hv)
  exact (validatedFill_qty_pos hvalid).le

/-- **What attribution returns is the total of a list that the broker gave.** -/
theorem sat_attributeOrderFills (current : TradeIntent) :
    Sat (attributing known₀) (attributeOrderFills current true) (fun _ => True)
      (fun a s => Listed s current a.quantity ∧ 0 ≤ a.quantity) fun _ _ => True := by
  unfold attributeOrderFills
  cases hplaced : current.brokerOrderId with
  | none => exact fun _ _ _ => trivial
  | some orderId =>
      refine Sat.bind_of (Q := fun fills s => Listed s current (totalQty fills) ∧
        0 ≤ totalQty fills) ?_ fun fills _ _ hk => hk
      refine Sat.bind_of (Q := fun activities s => activities ∈ s.lists) ?_ fun activities => ?_
      · refine sat_answer (.getActivities _) (fun _ _ _ _ _ h hl => hl.lists h)
          fun _ _ _ _ _ => List.mem_cons_self
      · have hK : (finalising known₀).Stable fun s => activities ∈ s.lists :=
          fun _ _ _ _ h hl => hl.lists h
        have keep : ∀ {β : Type} (p : Attribute β), Sat (attributing known₀) p
            (fun s => activities ∈ s.lists) (fun _ s => activities ∈ s.lists) fun _ _ => True :=
          fun p => (sat_keep p hK).mono (fun _ _ hk => hk) (fun _ _ _ hk => hk)
            fun _ _ _ _ => trivial
        refine Sat.bind_of (keep _) fun _ => ?_
        refine Sat.bind_of (keep (verifyOrder current orderId _)) fun disputed => ?_
        refine Sat.bind_of (keep (if disputed then recordDispute current orderId else return ()))
          fun _ => ?_
        refine Sat.bind_of (keep _) fun _ s _ hk => ?_
        exact ⟨⟨activities, hk, orderId, hplaced, rfl⟩, totalQty_nonneg _ _ _⟩

/-- An order that the broker gave for its identity. -/
def Reported (orderId : String) (order : BrokerOrder) (s : Books) : Prop :=
  order ∈ s.orders ∧ order.brokerOrderId = orderId

theorem stable_reported (orderId : String) (order : BrokerOrder) :
    (finalising known₀).Stable (Reported orderId order) :=
  fun _ _ _ _ h hl => ⟨hl.orders h.1, h.2⟩

theorem sat_lookUp (orderId : String) :
    Sat (recovering known₀) (Recovery.lookUp orderId) (fun _ => True)
      (fun found s => ∀ order ∈ found, Reported orderId order s) fun _ _ => True := by
  refine Sat.tryCatch (F := fun _ _ => True) (fun e s _ _ => ⟨fun _ => True, trivial, ?_⟩) ?_
  · split
    · exact fun _ _ _ _ h => nomatch h
    · exact fun _ _ _ => trivial
  · refine Sat.bind_of (Q := Reported orderId) ?_ fun order s _ hk => ?_
    · refine Sat.lift_comap (Γ := recovering known₀) (sat_answer (.getOrder orderId)
        (stable_reported orderId) fun i s w' order hexec => ⟨List.mem_cons_self, ?_⟩)
      simp only [Attribution.exec] at hexec
      split at hexec
      · cases hexec
      · rename_i found hget
        cases hexec
        exact (Table.get?_eq_some_iff.1 hget).2
    · intro order' horder
      cases horder
      exact hk

theorem sat_lookUp_knowing (orderId : String) {K : Books → Prop} {L : Books → Prop}
    (hK : (finalising known₀).Stable K) (hL : ∀ s, L s → K s) :
    Sat (recovering known₀) (Recovery.lookUp orderId) L
      (fun found s => (∀ order ∈ found, Reported orderId order s) ∧ K s) fun _ _ => True := by
  have stable : (recovering known₀).Stable K := hK
  exact (Sat.frame stable (fun _ _ _ _ _ hg => hg) (sat_lookUp orderId)).mono
    (fun s _ hk => ⟨trivial, hL s hk⟩) (fun _ _ _ hk => hk) fun _ _ _ _ => trivial

theorem sat_sendAlert {K : Books → Prop} (hK : (finalising known₀).Stable K) :
    Sat (recovering known₀) (Recovery.attributing .sendAlert) K (fun _ => K) fun _ _ => True :=
  (Sat.lift_comap (Γ := recovering known₀) (sat_keep (Attribution.perform .sendAlert) hK)).mono
    (fun _ _ hk => hk) (fun _ _ _ hk => hk) fun _ _ _ _ => trivial

theorem sat_write {written : TradeIntent} {K : Books → Prop} (hK : (finalising known₀).Stable K)
    (hwritten : ∀ s, K s → Standing s written) :
    Sat (recovering known₀) (Recovery.settling (.updateTradeIntent written none)) K (fun _ => K)
      fun _ _ => True :=
  (sat_settling (sat_update hK hwritten)).mono
    (fun _ _ hk => hk) (fun _ _ _ hk => hk) fun _ _ _ _ => trivial

/-! ### The decision -/

/-- An intent is only filled when no less is attributed than was requested. -/
theorem requested_of_filled {status : OrderStatus} {quantity : ℚ} {requested : Option ℚ}
    (h : terminalStatusForOrder status quantity requested = some .filled) :
    ∃ q ∈ requested, q ≤ quantity := by
  unfold terminalStatusForOrder at h
  split at h
  · rename_i hany
    cases requested with
    | none => cases hany
    | some q =>
        simp only [Option.any_some, Bool.and_eq_true, decide_eq_true_eq] at hany
        exact ⟨q, rfl, hany.2⟩
  · cases status with
    | doneForDay =>
        simp only [OrderStatus.failure?] at h
        split at h
        · split at h <;> cases h
        · cases h
    | _ => simp [OrderStatus.failure?] at h

/-- **The evidence**: an order that is over, all of which is attributed. -/
theorem standing_of_terminal {s : Books} {written : TradeIntent} {quantity : ℚ}
    {order : BrokerOrder} {orderId : String} (hattributed : Attributed s written quantity)
    (hlisted : 0 < order.filledQty → Listed s written quantity)
    (hplaced : written.brokerOrderId = some orderId) (hreported : Reported orderId order s)
    (hterminal : order.status.terminal = true) (hcovered : order.filledQty ≤ quantity)
    (hstatus : terminalStatusForOrder order.status quantity written.requestedQuantity =
      some written.status) : Standing s written := fun _ =>
  .inl ⟨quantity, order,
    { attributed := hattributed
      listed := hlisted
      reported := hreported.1
      own := hplaced.trans (congrArg some hreported.2.symm)
      terminal := hterminal
      covered := hcovered
      requested := fun hfilled => requested_of_filled (hstatus.trans (congrArg some hfilled)) }⟩

theorem sat_finalize (intent : TradeIntent) (attributed : AttributedFills) (order : BrokerOrder)
    {orderId : String} (hplaced : intent.brokerOrderId = some orderId)
    (hopen : intent.status.terminal = false) :
    Sat (recovering known₀) (Recovery.finalize intent attributed order)
      (fun s => Listed s intent attributed.quantity ∧ Reported orderId order s)
      (fun _ _ => True) fun _ _ => True := by
  have hK : (finalising known₀).Stable fun s =>
      Listed s intent attributed.quantity ∧ Reported orderId order s :=
    (stable_listed intent attributed.quantity).and (stable_reported orderId order)
  have alert := (sat_sendAlert hK).mono (fun _ _ hk => hk) (fun _ _ _ _ => trivial)
    fun _ _ _ _ => trivial
  unfold Recovery.finalize
  split
  · exact alert
  split
  · rename_i hover
    split
    · split
      · exact alert
      · exact fun _ _ _ => trivial
    · rename_i status hstatus
      refine Sat.bind_of (sat_write hK fun s hk => ?_) fun _ => ?_
      · have hlisted := hk.1.congr (j := { intent with
            status := status
            filledQuantity := attributed.quantity
            filledAvgPrice := orPrice attributed.avgPrice intent.filledAvgPrice }) rfl rfl rfl
        exact standing_of_terminal (.inl hlisted) (fun _ => hlisted) hplaced hk.2 hover.1 hover.2
          hstatus
      · exact (sat_processPending {}).mono (fun _ _ _ => trivial) (fun _ _ _ h => h)
          fun _ _ _ h => h
  · split
    · refine Sat.bind_of (sat_write hK fun s _ => standing_of_open ?_) fun _ _ _ _ => trivial
      dsimp only
      split
      · rfl
      · exact hopen
    · exact fun _ _ _ => trivial

/-- **A recovery finalises on evidence only.** -/
theorem sat_resolveOrderFromBroker (intent : TradeIntent) :
    Sat (recovering known₀) (Recovery.resolveOrderFromBroker intent) (fun _ => True)
      (fun _ _ => True) fun _ _ => True := by
  unfold Recovery.resolveOrderFromBroker
  cases hplaced : intent.brokerOrderId with
  | none => exact fun _ _ _ => trivial
  | some orderId =>
      refine Sat.bind_of (Sat.lift_comap (Γ := recovering known₀) (sat_attributeOrderFills intent))
        fun attributed => ?_
      split
      · exact fun _ _ _ => trivial
      · rename_i hopen
        rw [Bool.not_eq_true] at hopen
        refine Sat.bind_of (sat_lookUp_knowing orderId (stable_listed intent _)
          fun _ hk => hk.1) fun found => ?_
        cases found with
        | none => exact fun _ _ _ => trivial
        | some order =>
            refine Sat.bind_of ((sat_finalize intent attributed order hplaced hopen).mono
              (fun _ _ hk => ⟨hk.2, hk.1 order rfl⟩) (fun _ _ _ h => h) fun _ _ _ h => h)
              fun _ _ _ _ => trivial

end

/-! ### The poll -/

section

variable {known₀ : List (String × TradeIntentStatus)}

/-- What a poll knows between two turns: what it has of its intent was attributed. -/
structure Polled (orderId : String) (p : Polling) (s : Books) : Prop where
  placed : p.current.brokerOrderId = some orderId
  attributed : Attributed s p.current p.lastFilledQty
  nonneg : 0 ≤ p.lastFilledQty
  same : p.current.filledQuantity = p.lastFilledQty

theorem stable_polled (orderId : String) (p : Polling) :
    (finalising known₀).Stable (Polled orderId p) :=
  fun _ _ _ _ h hl => { h with attributed := h.attributed.later hl }

/-- After a turn that is not the last, the next one may rely on the same. -/
def Onward (orderId : String) (t : Tick) (s : Books) : Prop :=
  ∀ p, t = .again p → Polled orderId p s

theorem onward_over (orderId : String) (result : ExecutionResult) (s : Books) :
    Onward orderId (.finished result) s := fun _ h => nomatch h

theorem onward_leave (orderId : String) (p : Polling) (s : Books) :
    Onward orderId (.leave p) s := fun _ h => nomatch h

theorem onward_again {orderId : String} {p : Polling} {s : Books} (h : Polled orderId p s) :
    Onward orderId (.again p) s := fun _ heq => by
  cases heq
  exact h

/-- What a poll knows once it has attributed what is filled of the order. -/
structure Ready (orderId : String) (p : Polling) (order : BrokerOrder) (s : Books) : Prop where
  polled : Polled orderId p s
  reported : Reported orderId order s
  listed : 0 < order.filledQty → Listed s p.current p.lastFilledQty

theorem stable_ready (orderId : String) (p : Polling) (order : BrokerOrder) :
    (finalising known₀).Stable (Ready orderId p order) := fun s s' hs hs' h hl =>
  { polled := stable_polled orderId p s s' hs hs' h.polled hl
    reported := stable_reported orderId order s s' hs hs' h.reported hl
    listed := fun hfilled => (h.listed hfilled).later hl }

theorem sat_conclude (orderId : String) (p : Polling) (order : BrokerOrder) :
    Sat (recovering known₀) (p.conclude order p.lastFilledQty) (Ready orderId p order)
      (Onward orderId) fun _ _ => True := by
  have hK : (finalising known₀).Stable (Ready orderId p order) := stable_ready orderId p order
  unfold Polling.conclude
  split
  · rename_i hterminal
    split
    · exact fun s _ hk => onward_again hk.polled
    · rename_i hall
      split
      · split
        · exact Sat.bind_of (sat_sendAlert hK) fun _ s _ _ => onward_over orderId _ s
        · exact fun s _ _ => onward_leave orderId p s
      · rename_i status hstatus
        refine Sat.bind_of (sat_write hK fun s hk => ?_) fun _ => ?_
        · refine standing_of_terminal (hk.polled.attributed.congr rfl rfl rfl rfl)
            (fun hfilled => (hk.listed hfilled).congr rfl rfl rfl) hk.polled.placed hk.reported
            hterminal ?_ hstatus
          -- an order of which nothing is filled has nothing left to attribute
          by_contra hless
          exact hall ⟨hk.polled.nonneg.trans_lt (not_le.1 hless), not_le.1 hless⟩
        · refine Sat.bind_of (Q := fun _ _ => True) ?_ fun _ s _ _ => onward_over orderId _ s
          exact (sat_processPending {}).mono (fun _ _ _ => trivial) (fun _ _ _ h => h)
            fun _ _ _ h => h
  · split
    · refine Sat.bind_of (sat_write hK fun s _ => standing_of_open rfl) fun _ s _ hk => ?_
      refine onward_again { hk.polled with attributed := ?_ }
      exact hk.polled.attributed.congr rfl rfl rfl rfl
    · exact fun s _ hk => onward_again hk.polled

theorem polled_withAttributed {orderId : String} {p : Polling} {s : Books}
    {attributed : AttributedFills} (h : Polled orderId p s)
    (hlisted : Listed s p.current attributed.quantity) (hnonneg : 0 ≤ attributed.quantity) :
    Polled orderId (p.withAttributed attributed) s ∧
      (p.withAttributed attributed).lastFilledQty = attributed.quantity ∧
        Listed s (p.withAttributed attributed).current attributed.quantity := by
  unfold Polling.withAttributed
  split
  · have hlisted' := hlisted.congr (j := { p.current with
      filledQuantity := attributed.quantity
      filledAvgPrice := orPrice attributed.avgPrice p.current.filledAvgPrice }) rfl rfl rfl
    exact ⟨⟨h.placed, .inl hlisted', hnonneg, rfl⟩, rfl, hlisted'⟩
  · rename_i hsame
    exact ⟨h, (not_not.1 hsame).symm, hlisted⟩

/-- What a poll knows of the executions that it asked for. -/
structure Found (orderId : String) (p : Polling) (order : BrokerOrder)
    (found : Option AttributedFills) (s : Books) : Prop where
  polled : Polled orderId p s
  reported : Reported orderId order s
  listed : ∀ attributed ∈ found,
    Listed s p.current attributed.quantity ∧ 0 ≤ attributed.quantity
  unfilled : found = none → ¬ 0 < order.filledQty

theorem sat_settle (orderId : String) (p : Polling) (order : BrokerOrder)
    (found : Option AttributedFills) :
    Sat (recovering known₀) (p.settle order found) (Found orderId p order found) (Onward orderId)
      fun _ _ => True := by
  cases found with
  | none =>
      refine (sat_conclude orderId p order).mono (fun _ _ hk => ?_) (fun _ _ _ h => h)
        fun _ _ _ h => h
      exact ⟨hk.polled, hk.reported, fun hfilled => absurd hfilled (hk.unfilled rfl)⟩
  | some attributed =>
      have hK : (finalising known₀).Stable (Polled orderId p) := stable_polled orderId p
      unfold Polling.settle
      dsimp only
      split
      · refine Sat.bind_of ((sat_sendAlert hK).mono (fun _ _ hk => hk.polled) (fun _ _ _ h => h)
          fun _ _ _ h => h) fun _ s _ _ => onward_over orderId _ s
      · refine Sat.of_pointwise fun s _ hk => ?_
        obtain ⟨hlisted, hnonneg⟩ := hk.listed attributed rfl
        obtain ⟨hnext, hlast, hnow⟩ := polled_withAttributed hk.polled hlisted hnonneg
        refine ⟨Ready orderId (p.withAttributed attributed) order,
          ⟨hnext, hk.reported, fun _ => hlast.symm ▸ hnow⟩, ?_⟩
        rw [← hlast]
        exact sat_conclude orderId (p.withAttributed attributed) order

/-- **A turn of the poll finalises on evidence only.** -/
theorem sat_tick (orderId : String) (p : Polling) :
    Sat (recovering known₀) (p.tick orderId) (Polled orderId p) (Onward orderId)
      fun _ _ => True := by
  refine Sat.bind_of (sat_lookUp_knowing orderId (stable_polled orderId p) fun _ hk => hk)
    fun found => ?_
  cases found with
  | none => exact fun s _ hk => onward_again hk.2
  | some order =>
      have hK : (finalising known₀).Stable fun s => Polled orderId p s ∧ Reported orderId order s :=
        (stable_polled orderId p).and (stable_reported orderId order)
      refine Sat.bind_of (Q := Found orderId p order) ?_ fun found =>
        sat_settle orderId p order found
      split
      · have stable : (recovering known₀).Stable fun s =>
            Polled orderId p s ∧ Reported orderId order s := hK
        have hattribute := Sat.lift_comap (Γ := recovering known₀)
          (sat_attributeOrderFills p.current)
        refine Sat.bind_of ((Sat.frame stable (fun _ _ _ _ _ hg => hg) hattribute).mono
          (fun _ _ hk => ⟨trivial, hk.2, hk.1 order rfl⟩) (fun _ _ _ hk => hk)
          fun _ _ _ _ => trivial) fun attributed s _ hk => ?_
        refine ⟨hk.2.1, hk.2.2, fun other hother => ?_, fun h => nomatch h⟩
        cases hother
        exact hk.1
      · rename_i hunfilled
        exact fun s _ hk => ⟨hk.2, hk.1 order rfl, (fun _ h => nomatch h), fun _ => hunfilled⟩

theorem sat_timeOut (p : Polling) :
    Sat (recovering known₀) p.timeOut (fun _ => True) (fun _ _ => True) fun _ _ => True := by
  refine Sat.bind_of (sat_write (.const True) fun s _ => standing_of_open ?_) fun _ _ _ _ => trivial
  dsimp only
  split <;> rfl

/-- **The poll**, turn by turn. -/
theorem sat_poll (orderId : String) (turns : ℕ) (p : Polling) :
    Sat (recovering known₀) (Polling.poll orderId turns p) (Polled orderId p) (fun _ _ => True)
      fun _ _ => True := by
  have timeOut : ∀ (p : Polling) (K : Books → Prop),
      Sat (recovering known₀) p.timeOut K (fun _ _ => True) fun _ _ => True := fun p _ =>
    (sat_timeOut p).mono (fun _ _ _ => trivial) (fun _ _ _ h => h) fun _ _ _ h => h
  induction turns generalizing p with
  | zero => exact timeOut p _
  | succ turns ih =>
      refine Sat.bind_of (sat_tick orderId p) fun t => ?_
      cases t with
      | again p' =>
          exact (ih p').mono (fun _ _ hk => hk p' rfl) (fun _ _ _ h => h) fun _ _ _ h => h
      | leave p' => exact timeOut p' _
      | finished result => exact fun _ _ _ => trivial

theorem sat_pollAndSettle (c : Snapshot) (turns : ℕ) :
    Sat (recovering known₀) (pollAndSettle c.current turns) (fun s => c.current ∈ s.taken)
      (fun _ _ => True) fun _ _ => True := by
  unfold pollAndSettle
  cases hplaced : c.current.brokerOrderId with
  | none => exact fun _ _ _ => trivial
  | some orderId =>
      refine (sat_poll orderId turns ⟨c.current, c.current.filledQuantity⟩).mono
        (fun s _ hk => ?_) (fun _ _ _ h => h) fun _ _ _ h => h
      exact ⟨hplaced, .inr ⟨c.current, hk, rfl, rfl⟩, c.filled_nonneg, rfl⟩

/-! ### Every state reached -/

theorem known_taking {α : Type} (intent : TradeIntent) {p : Recovery.Recover α}
    (hp : Sat (recovering known₀) p (fun s => intent ∈ s.taken) (fun _ _ => True) fun _ _ => True)
    (s : Books) : Known (finalising known₀) s (taking intent p) := by
  refine ⟨fun _ => True, .const True, trivial, ?_⟩
  refine Sat.bind_of (Q := fun _ s => intent ∈ s.taken) ?_ fun _ => ?_
  · refine Sat.perform (fun _ _ _ _ _ h hl => hl.taken h) (.const True) (fun _ _ _ _ => trivial)
      fun i s r s' hs _ _ hx => ?_
    cases hx
    have hl : Later s { s with taken := intent :: s.taken } :=
      { Later.refl s with taken := List.subset_cons_self intent s.taken }
    exact ⟨hs.later hl rfl rfl, hl, List.mem_cons_self⟩
  · exact Sat.bind_of (Sat.lift_comap (Γ := finalising known₀) hp) fun _ _ _ _ => trivial

theorem external_keeps {t : External} {s s' : Books} (h : Sound known₀ s)
    (hx : external t s = some s') : Sound known₀ s' ∧ Later s s' := by
  cases t with
  | broker b =>
      cases hx
      have hl : Later s { s with world := (s.world.1, b) } := .of_eq rfl rfl rfl rfl
      exact ⟨h.later hl rfl rfl, hl⟩
  | elsewhere t =>
      simp only [external] at hx
      split at hx
      · rename_i hfilled
        cases hx
        have hl : Later s { s with
            world := (t, s.world.2)
            known := given s.world.1 t ++ s.known } :=
          { Later.refl s with known := List.subset_append_right _ _ }
        refine ⟨⟨fun i hi hterminal => ?_, fun id hid => ?_⟩, hl⟩
        · by_cases hkept : Kept s.world.1 i
          · obtain ⟨j, hj, hsame⟩ := hkept
            exact (((h.standing j hj).congr hsame).later hl) hterminal
          · refine .inr (List.mem_append_left _ (List.mem_map.2 ⟨i, ?_, rfl⟩))
            exact List.mem_filter.2 ⟨hi, by simp [hterminal, hkept]⟩
        · rcases List.mem_append.1 hid with hid | hid
          · obtain ⟨i, hi, heq⟩ := List.mem_map.1 hid
            obtain ⟨hmem, hgiven⟩ := List.mem_filter.1 hi
            have hkept := hfilled i hmem (congrArg Prod.snd heq)
            simp [hkept] at hgiven
          · exact h.filled id hid
      · cases hx

theorem sound (known₀ : List (String × TradeIntentStatus)) :
    Pool.Sound system (finalising known₀) where
  exec := rfl
  guar _ _ _ _ _ hg := hg
  env _ _ _ hs ht := external_keeps hs ht
  call c s _ := by
    cases c with
    | poll c turns => exact known_taking c.current (sat_pollAndSettle c turns) s
    | recover c =>
        exact known_taking c.current ((sat_resolveOrderFromBroker c.current).mono
          (fun _ _ _ => trivial) (fun _ _ _ h => h) fun _ _ _ h => h) s
    | settle args =>
        exact ⟨fun _ => True, .const True, trivial,
          Sat.lift_comap (Γ := finalising known₀) (sat_processPending args)⟩

theorem sound_start (w : World) : Sound (start w).known (start w) where
  standing i hi hterminal :=
    .inr (List.mem_map.2 ⟨i, List.mem_filter.2 ⟨hi, hterminal⟩, rfl⟩)
  filled _ h := h

end

/-- **An order is finalised on full evidence, whichever path sees it.**  In every state that polls,
recoveries and passes of the processor reach side by side, whatever the broker answers, there is
evidence for each terminal status, or it is not their work; and poll and recovery decide alike on an
order that is over. -/
theorem finalised_on_full_evidence {w₀ : World} {w : Pool Books Raised Res}
    (h : calls.Reaches (fun _ _ => True) ⟨start w₀, []⟩ w) :
    (∀ i ∈ w.store.world.1.tradeIntents, i.status.terminal = true →
      (∃ quantity order, Evidence w.store i quantity order) ∨
        ((i.tradeIntentId, i.status) ∈ w.store.known ∧
          (i.status = .filled → (i.tradeIntentId, .filled) ∈ (start w₀).known))) ∧
    ∀ (p : Polling) (intent : TradeIntent) (order : BrokerOrder) (attributed : AttributedFills),
      order.status.terminal = true → p.current.tradeIntentId = intent.tradeIntentId →
      p.current.requestedQuantity = intent.requestedQuantity →
      p.current.filledQuantity = p.lastFilledQty →
      (¬ 0 < order.filledQty → p.lastFilledQty = attributed.quantity) →
      intent.status.terminal = false → 0 ≤ attributed.quantity →
      attributed.quantity ≤ order.filledQty →
      (LeavesOpen (p.settle order (if 0 < order.filledQty then some attributed else none)) ∧
          LeavesOpen (Recovery.finalize intent attributed order)) ∨
        ∃ status, Chooses (p.settle order (if 0 < order.filledQty then some attributed else none))
            intent.tradeIntentId status attributed.quantity ∧
          Chooses (Recovery.finalize intent attributed order) intent.tradeIntentId status
            attributed.quantity := by
  have hgood := (sound (start w₀).known).good (Pool.good_init (sound_start w₀))
    (h.mono fun _ _ _ => Pool.meets_of_forall fun _ _ _ => trivial)
  refine ⟨fun i hi hterminal => ?_, fun p intent order attributed hover hid hrequested hlast hsame
    hopen hnonneg hle => settle_agrees hover hid hrequested hlast hsame hopen hnonneg hle⟩
  rcases hgood.1.standing i hi hterminal with hevidence | hknown
  · exact .inl hevidence
  · refine .inr ⟨hknown, fun hfilled => hgood.1.filled _ ?_⟩
    rw [← hfilled]
    exact hknown

/-! ### Ten shares -/

/-- A purchase of ten shares, whose order was accepted. -/
def placed : TradeIntent :=
  { tradeIntentId := "i1", idempotencyKey := "k1", correlationId := "c",
    asset := { symbol := "AAPL", assetClass := .equity, nativeAssetId := "alpaca:AAPL" },
    side := .buy, executionMode := .paper, strategy := "momentum", createdAt := 0,
    requestedQuantity := some 10, status := .accepted, brokerOrderId := some "o1" }

/-- Its order, when it is filled. -/
def filledOrder : BrokerOrder :=
  { brokerOrderId := "o1", status := .filled, symbol := "AAPL", side := some .buy, filledQty := 10,
    qty := some 10 }

def tenExecuted : BrokerActivity :=
  { activityId := "f1", symbol := "AAPL", side := some .buy, qty := some 10, price := some 100,
    transactionTime := some 1, orderId := "o1" }

def filledAtBroker : World :=
  ({ tradeIntents := (default : Table TradeIntent).createOnce placed },
    { activities := (default : Table BrokerActivity).createOnce tenExecuted
      orders := (default : Table BrokerOrder).createOnce filledOrder })

/-- A poll of one turn, up to its writing the intent. -/
def onePoll : List (Act ((Settlement.Outside × Attribution.Outside) × Unit) Raised Call External) :=
  .start (.poll ⟨placed, by decide⟩ 1) ::
    List.replicate 8 (.run 0 (({}, { activities := [tenExecuted] }), ()))

/-- The poll makes the intent filled, on the evidence of its order and its execution; and a recovery
would have done the same. -/
theorem finalised_on_full_evidence_ten :
    (∃ w, calls.Reaches (fun _ _ => True) ⟨start filledAtBroker, []⟩ w ∧
      ∃ i ∈ w.store.world.1.tradeIntents, i.status = .filled ∧
        ∃ quantity order, Evidence w.store i quantity order) ∧
    ((LeavesOpen (Polling.settle ⟨placed, 0⟩ filledOrder
          (if 0 < filledOrder.filledQty then some ⟨10, some 100⟩ else none)) ∧
        LeavesOpen (Recovery.finalize placed ⟨10, some 100⟩ filledOrder)) ∨
      ∃ status, Chooses (Polling.settle ⟨placed, 0⟩ filledOrder
          (if 0 < filledOrder.filledQty then some ⟨10, some 100⟩ else none)) "i1" status 10 ∧
        Chooses (Recovery.finalize placed ⟨10, some 100⟩ filledOrder) "i1" status 10) := by
  have hrun : (calls.run ⟨start filledAtBroker, []⟩ onePoll).any (fun w => decide
      (∃ i ∈ w.store.world.1.tradeIntents.rows, i.status = .filled)) = true := by decide +kernel
  obtain ⟨w, hreach, i, hi, hfilled⟩ := Machine.exists_of_run hrun
  have hresult := finalised_on_full_evidence hreach
  refine ⟨⟨w, hreach, i, hi, hfilled, ?_⟩, ?_⟩
  · rcases hresult.1 i hi (by rw [hfilled]; rfl) with hevidence | ⟨-, hknown⟩
    · exact hevidence
    · have hnone : (start filledAtBroker).known = [] := by decide
      rw [hnone] at hknown
      exact absurd (hknown hfilled) List.not_mem_nil
  · exact hresult.2 ⟨placed, 0⟩ placed filledOrder ⟨10, some 100⟩ rfl rfl rfl rfl
      (fun h => absurd (by norm_num [filledOrder]) h) rfl (by norm_num) le_rfl

end Finalising

end TradePulse
