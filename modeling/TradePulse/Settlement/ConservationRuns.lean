/-
**No fill is spent twice by passes that follow one another.**

A pass may fail or crash after any transaction, and the next one plans the fill again against the
lots as they then are.  What the earlier attempt closed and opened is credited; what it recorded
as a liability is not.  So a fill is spent beyond its quantity exactly when lots are closed for it
although it already owes a liability, and in runs without such a closure it never is.

Main definitions:

* `Unowed` — a closure finds no liability of its fill;
* `conservation` — the setting in which passes are judged.

Main results:

* `spent_beyond_fill` — an oversold fill whose attempt failed is spent again when it is retried;
* `conservation_of_fills` — without closures for fills that owe a liability, no fill is ever spent
  beyond its quantity, and a completed one is spent exactly.
-/

import TradePulse.Settlement.Conservation
import TradePulse.Settlement.LotRule
import TradePulse.Settlement.Runs

set_option autoImplicit false

namespace TradePulse

namespace Settlement

open Process Storage

/-- A closure of a lot for a fill finds no liability of that fill. -/
def Unowed : Op → Outside → Store → Prop
  | .closeLot _ event, _, s => ∀ b ∈ s.shortExposureLiabilities, b.fillId ≠ event.fillId
  | _, _, _ => True

instance (o : Op) (i : Outside) (s : Store) : Decidable (Unowed o i s) := by
  apply Op.casesOn (motive := fun o => Decidable (Unowed o i s)) o
  case closeLot =>
    intro closure event
    exact inferInstanceAs (Decidable (∀ b ∈ s.shortExposureLiabilities, b.fillId ≠ event.fillId))
  all_goals
    intros
    exact isTrue trivial

/-- The setting of passes that follow one another: between two transactions of a pass, the rest of
the program may add settlement events and leaves the ledger of lots alone. -/
def conservation : Setting Store Outside Raised Op.Res where
  exec := exec
  inv := Conserved
  rely s s' := s'.positionLots = s.positionLots ∧
    s'.shortExposureLiabilities = s.shortExposureLiabilities ∧
    s'.convertedLots = s.convertedLots ∧ ∀ e ∈ s.settlements, e ∈ s'.settlements
  cond := Unowed
  guar _ _ _ := True

/-! ### What a pass knows -/

/-- If the fill owes nothing and opened nothing, `r` more of it may be spent. -/
def Room (event : SettlementEvent) (r : ℚ) (s : Store) : Prop :=
  (∀ b ∈ s.shortExposureLiabilities, b.fillId ≠ event.fillId) →
    (∀ l ∈ s.positionLots, l.originatingFillId ≠ event.fillId) →
      spentOn s event.fillId + r ≤ event.quantity

/-- The lot is of the event's instrument and was not converted. -/
def Sees (event : SettlementEvent) (lotId : String) (s : Store) : Prop :=
  ∀ l ∈ s.positionLots, l.lotId = lotId →
    assetIdentityKey l.asset = assetIdentityKey event.asset ∧ lotId ∉ s.convertedLots

theorem stable_underway (event : SettlementEvent) : conservation.Stable (Underway event) := by
  rintro s s' - - ⟨row, hrow, hrest⟩ ⟨-, -, -, hmore⟩
  exact ⟨row, hmore row hrow, hrest⟩

theorem stable_room (event : SettlementEvent) (r : ℚ) : conservation.Stable (Room event r) := by
  rintro s s' - - hroom ⟨hlots, hliab, -, -⟩
  unfold Room spentOn
  rw [hlots, hliab]
  exact hroom

theorem stable_sees (event : SettlementEvent) (lotId : String) :
    conservation.Stable (Sees event lotId) := by
  rintro s s' - - hsees ⟨hlots, -, hconv, -⟩
  unfold Sees
  rw [hlots, hconv]
  exact hsees

theorem stable_lotsByAsset (asset : AssetIdentity) (lots : List PositionLot) :
    conservation.Stable fun s => lots = s.lotsByAsset asset := by
  rintro s s' - - rfl ⟨hlots, -⟩
  unfold Store.lotsByAsset
  rw [hlots]

theorem stable_convertedLots (ids : List String) :
    conservation.Stable fun s => ids = s.convertedLots := by
  rintro s s' - - rfl ⟨-, -, hconv, -⟩
  exact hconv.symm

theorem Underway.side_eq {event row : SettlementEvent} {s : Store} (h : Conserved s)
    (hrow : row ∈ s.settlements) (hfacts : row.toSettlementFacts = event.toSettlementFacts)
    (hne : row.status ≠ .completed) :
    (event.side = .sell → ∀ l ∈ s.positionLots, l.originatingFillId ≠ event.fillId) ∧
      (event.side = .buy → ∀ b ∈ s.shortExposureLiabilities, b.fillId ≠ event.fillId) := by
  have hfill : row.fillId = event.fillId := congrArg (·.fillId) hfacts
  have hside : row.side = event.side := congrArg (·.side) hfacts
  constructor
  · intro hsell l hl ho
    have hbuy := h.bought row hrow hne l hl (ho.trans hfill.symm)
    rw [hside, hsell] at hbuy
    cases hbuy
  · intro hbuy b hb ho
    have hsell := h.oversold row hrow hne b hb (ho.trans hfill.symm)
    rw [hside, hbuy] at hsell
    cases hsell

theorem Underway.sold {event : SettlementEvent} {s : Store} (hu : Underway event s)
    (h : Conserved s) (hsell : event.side = .sell) :
    ∀ l ∈ s.positionLots, l.originatingFillId ≠ event.fillId := by
  obtain ⟨row, hrow, hfacts, hne⟩ := hu
  exact (Underway.side_eq h hrow hfacts hne).1 hsell

theorem Underway.bought {event : SettlementEvent} {s : Store} (hu : Underway event s)
    (h : Conserved s) (hbuy : event.side = .buy) :
    ∀ b ∈ s.shortExposureLiabilities, b.fillId ≠ event.fillId := by
  obtain ⟨row, hrow, hfacts, hne⟩ := hu
  exact (Underway.side_eq h hrow hfacts hne).2 hbuy

/-- **A plan fits the fill**: planned against the lots as they are, it spends what is left. -/
theorem room_of_plan {s : Store} (h : Conserved s) {event : SettlementEvent}
    (hu : Underway event s) {plan : SignedLotPlan}
    (hplan : planSignedLotFill (visibleLots s event.asset) event = .ok plan) :
    Room event ((plan.closures.map fun c => c.quantity).sum + plan.openingQuantity) s := by
  intro hliab horig
  obtain ⟨row, hrow, hfacts, hne⟩ := hu
  have hfill : row.fillId = event.fillId := congrArg (·.fillId) hfacts
  have hasset : row.asset = event.asset := congrArg (·.asset) hfacts
  have howed : s.shortExposureLiabilities.sum (owedOn event.fillId) = 0 :=
    Table.sum_eq_zero fun b hb => if_neg (hliab b hb)
  have hclosed : s.positionLots.sum (fun l => l.allocatedTo event.fillId)
      = alreadyClosed (visibleLots s event.asset) event.fillId := by
    -- lots that the plan does not look at hold nothing of the fill
    have hvisible : visibleLots s event.asset = s.positionLots.rows.filter fun l =>
        !s.convertedLots.contains l.lotId
          && decide (assetIdentityKey l.asset = assetIdentityKey event.asset) := by
      rw [visibleLots, Store.lotsByAsset, List.filter_filter]
    rw [hvisible, alreadyClosed, Table.sum, ← sum_filter_add s.positionLots.rows (fun l =>
      !s.convertedLots.contains l.lotId
        && decide (assetIdentityKey l.asset = assetIdentityKey event.asset))]
    have hzero : ((s.positionLots.rows.filter fun l => !(!s.convertedLots.contains l.lotId
        && decide (assetIdentityKey l.asset = assetIdentityKey event.asset))).map
          fun l => l.allocatedTo event.fillId).sum = 0 := by
      refine List.sum_eq_zero fun q hq => ?_
      obtain ⟨l, hl, rfl⟩ := List.mem_map.1 hq
      obtain ⟨hmem, hhidden⟩ := List.mem_filter.1 hl
      have hnot : event.fillId ∉ l.closures := fun hin => by
        obtain ⟨hkey, hconv⟩ := h.visible row hrow hne l hmem (hfill ▸ hin)
        rw [hasset] at hkey
        simp [hkey, hconv] at hhidden
      rw [PositionLot.allocatedTo, if_neg (horig l hmem), AList.lookup_eq_none.2 hnot]
      exact zero_add _
    rw [hzero, add_zero]
    refine congrArg List.sum (List.map_congr_left fun l hl => ?_)
    rw [PositionLot.allocatedTo, if_neg (horig l (List.mem_filter.1 hl).1), zero_add]
  have hopened : 0 ≤ alreadyOpened (visibleLots s event.asset) event.fillId
      (openingDirection event.side) := by
    refine List.sum_nonneg fun q hq => ?_
    obtain ⟨l, -, rfl⟩ := List.mem_map.1 hq
    exact l.opened_pos.le
  have htotal := planSignedLotFill_total hplan
  rw [spentOn, howed, hclosed]
  linarith

/-! ### The first stage -/

theorem sat_unconvertedLots (event : SettlementEvent) (reader : Stage) (asset : AssetIdentity) :
    Sat conservation (unconvertedLots reader asset) (Underway event)
      (fun lots s => Underway event s ∧ lots = visibleLots s asset) (fun _ => Underway event) := by
  refine Sat.bind_of (sat_read rfl (fun _ _ => trivial) (o := .lotsByAsset reader asset)
    (fun s => s.lotsByAsset asset) (fun _ _ => rfl) (stable_underway event)
    fun lots => (stable_underway event).and (stable_lotsByAsset asset lots)) fun lots => ?_
  have hstable := (stable_underway event).and (stable_lotsByAsset asset lots)
  refine Sat.bind_of (Sat.mono (fun _ _ hk => hk) (fun _ _ _ hk => hk) (fun _ _ _ hk => hk.1)
    (sat_read rfl (fun _ _ => trivial) (o := .convertedLots) (fun s => s.convertedLots)
      (fun _ _ => rfl) hstable fun ids => hstable.and (stable_convertedLots ids))) fun ids => ?_
  rintro s - ⟨⟨hu, rfl⟩, rfl⟩
  exact ⟨hu, rfl⟩

/-- What is known while the closures of a plan are applied: those still to come and what the plan
opens fit the fill. -/
def Closing (event : SettlementEvent) (opening : ℚ) (closures : List LotClosure) (s : Store) :
    Prop :=
  Underway event s ∧ Room event ((closures.map fun c => c.quantity).sum + opening) s ∧
    ∀ c ∈ closures, Sees event c.lot.lotId s ∧ 0 < c.quantity ∧ event.side = .sell

theorem stable_closing (event : SettlementEvent) (opening : ℚ) (closures : List LotClosure) :
    conservation.Stable (Closing event opening closures) := by
  refine (stable_underway event).and ((stable_room event _).and ?_)
  rintro s s' hs hs' hk hr c hc
  exact ⟨stable_sees event c.lot.lotId s s' hs hs' (hk c hc).1 hr, (hk c hc).2⟩

theorem Room.anti {event : SettlementEvent} {r r' : ℚ} {s : Store} (h : Room event r s)
    (hle : r' ≤ r) : Room event r' s := fun hliab horig =>
  (add_le_add_right hle _).trans (h hliab horig)

theorem closing_step {s s' : Store} {event : SettlementEvent} {opening : ℚ} {c : LotClosure}
    {cs : List LotClosure} {r : Option PositionLot} (h : Conserved s) (hopening : 0 ≤ opening)
    (hk : Closing event opening (c :: cs) s)
    (howe : ∀ b ∈ s.shortExposureLiabilities, b.fillId ≠ event.fillId)
    (hx : closeLot s c event = .ok (r, s')) : Conserved s' ∧ Closing event opening cs s' := by
  obtain ⟨hu, hroom, hsees⟩ := hk
  obtain ⟨hsee, hpos, hsell⟩ := hsees c List.mem_cons_self
  rw [List.map_cons, List.sum_cons] at hroom
  rcases closeLot_ok hx with ⟨-, -, rfl⟩ | ⟨current, lot, hget, hlot, -, rfl⟩
  · refine ⟨h, hu, hroom.anti (by linarith), fun c' hc' => hsees c' (List.mem_cons_of_mem c hc')⟩
  · obtain ⟨hcur, hid⟩ := Table.get?_eq_some_iff.1 hget
    obtain ⟨hkey, hconv⟩ := hsee current hcur hid
    have hunconverted : current.lotId ∉ s.convertedLots := by
      rw [show current.lotId = c.lot.lotId from hid]
      exact hconv
    have horig := hu.sold h hsell
    have hfit := hroom howe horig
    obtain ⟨hlotid, -, hasset, -, -⟩ := closedLot_ok hlot
    have hrest : 0 ≤ (cs.map fun c => c.quantity).sum := List.sum_nonneg fun q hq => by
      obtain ⟨c', hc', rfl⟩ := List.mem_map.1 hq
      exact (hsees c' (List.mem_cons_of_mem c hc')).2.1.le
    have hold : 0 ≤ (current.closures.lookup event.fillId).getD 0 := by
      cases hlook : current.closures.lookup event.fillId with
      | none => exact le_rfl
      | some q => exact h.nonneg current hcur _ q hlook
    refine ⟨h.closeLot hu hcur hlot hkey hunconverted hpos.le (by linarith), ?_, ?_, ?_⟩
    · exact hu.congr rfl
    · intro _ _
      rw [spentOn_closeLot hcur hlot, if_pos rfl]
      linarith
    · intro c' hc'
      obtain ⟨hsee', hrest'⟩ := hsees c' (List.mem_cons_of_mem c hc')
      refine ⟨fun l hl hl' => ?_, hrest'⟩
      rcases Table.mem_put_imp hl with rfl | hl
      · rw [hasset]
        exact hsee' current hcur (hlotid ▸ hl')
      · exact hsee' l hl hl'

/-- A transaction that leaves the ledger of lots alone keeps the invariant and what is known of
an event that is being settled. -/
theorem conserved_frame {o : Op} {i : Outside} {s s' : Store} {r : o.Res} {parts : List Part}
    (h : Conserved s) (hx : exec o i s = .ok (r, s')) (ho : o.WritesIn parts)
    (hparts : ∀ p ∈ [Part.settlements, .positionLots, .liabilities, .convertedLots, .fills],
      p ∉ parts) :
    Conserved s' ∧ ∀ event, Underway event s → Underway event s' := by
  have hsame := sameLedger_of_frame hx ho (hparts _ (by simp)) (hparts _ (by simp))
    (hparts _ (by simp)) (hparts _ (by simp)) (hparts _ (by simp))
  exact ⟨h.congr hsame, fun event hu => hu.congr hsame.settlements⟩

theorem sat_elsewhere {α : Type} {p : Settle α} {parts : List Part} (event : SettlementEvent)
    (hp : p.Uses (Op.WritesIn parts))
    (hparts : ∀ p ∈ [Part.settlements, .positionLots, .liabilities, .convertedLots, .fills],
      p ∉ parts) :
    Sat conservation p (Underway event) (fun _ => Underway event) (fun _ => Underway event) := by
  refine Sat.of_uses (stable_underway event) (fun o i s r s' ho hs hk _ hx => ?_) hp
  obtain ⟨hs', hk'⟩ := conserved_frame hs hx ho hparts
  exact ⟨hs', trivial, hk' event hk⟩

theorem openingDirection_short {side : Side} :
    openingDirection side = .short ↔ side = .sell := by
  cases side <;> simp [openingDirection]

theorem oversellLiability_ok {event : SettlementEvent} {quantity : ℚ} {b : ShortExposureLiability}
    (h : oversellLiability event quantity = .ok b) :
    b.fillId = event.fillId ∧ b.quantity = quantity := by
  obtain ⟨-, -, h⟩ := except_bind_eq_ok.1 h
  obtain ⟨multiplier, -, h⟩ := except_bind_eq_ok.1 h
  have hf := ShortExposureLiability.make_eq_ok_iff.1 h
  exact ⟨congrArg (·.fillId) hf, congrArg (·.quantity) hf⟩

/-- What is known during the first stage. -/
def fitting (event : SettlementEvent) : LotKnowledge Store where
  start := Underway event
  seen lots s := Underway event s ∧ lots = visibleLots s event.asset
  closing _ plan closures := Closing event plan.openingQuantity closures
  ended := Underway event

/-- **The first stage** spends no more of a fill than is left of it. -/
theorem holds_fitting (event : SettlementEvent) : (fitting event).Holds conservation event where
  read := sat_unconvertedLots event .projectLot event.asset
  planned lots plan s hs hseen hplan := by
    obtain ⟨hu, rfl⟩ := hseen
    obtain ⟨hplan, hlong⟩ := hplan
    refine ⟨hu, room_of_plan hs hu hplan, fun c hc => ?_⟩
    obtain ⟨hmem, hside, hpos, -, -⟩ := planSignedLotFill_closure hplan hc
    obtain ⟨hlots, hconv⟩ := List.mem_filter.1 hmem
    obtain ⟨hin, hkey⟩ := Store.mem_lotsByAsset.1 hlots
    refine ⟨fun l hl hid => ?_, hpos, ?_⟩
    · rw [Table.eq_of_recordId hl hin hid]
      exact ⟨hkey, by simpa using hconv⟩
    · cases hs' : event.side with
      | sell => rfl
      | buy =>
          rw [hs', hlong c hc] at hside
          cases hside
  close lots plan c cs hplan := by
    refine Sat.perform (fun _ => stable_closing event _ cs) (stable_closing event _ (c :: cs))
      (fun _ _ _ hk => hk.1) fun i s r s' hs hk howe hx => ?_
    obtain ⟨hs', hk'⟩ :=
      closing_step hs (planSignedLotFill_opening_nonneg hplan.1) hk howe hx
    exact ⟨hs', trivial, hk'⟩
  owe lots plan b hplan hshort hb := by
    -- an oversell: the fill is a sale, so it opened no lot
    refine Sat.perform (fun _ => stable_underway event) (stable_closing event _ [])
      (fun _ _ _ hk => hk.1) fun i s r s' hs hk _ hx => ?_
    obtain ⟨hu, hroom, -⟩ := hk
    obtain ⟨hfill, hqty⟩ := oversellLiability_ok hb
    have hsell : event.side = .sell := by
      rw [(planSignedLotFill_ok hplan.1).choose_spec.2.2.1] at hshort
      exact openingDirection_short.1 hshort
    cases hx
    refine ⟨hs.createLiability hu hfill hsell fun hliab => ?_, trivial, hu.congr rfl⟩
    rw [hqty]
    exact hroom.anti (by simp) hliab (hu.sold hs hsell)
  mixed lots plan _ := (sat_elsewhere event (uses_mixedLotOrigin event) (by decide)).mono
    (fun _ _ hk => hk.1) (fun _ _ _ hk => hk) fun _ _ _ hk => hk
  name lots plan := by
    refine Sat.perform (fun _ => stable_closing event _ []) (stable_closing event _ [])
      (fun _ _ _ hk => hk.1) fun i s r s' hs hk _ hx => ?_
    cases hx
    exact ⟨hs, trivial, hk⟩
  «open» lots plan lotId l hplan hlong hl := by
    -- a purchase owes nothing
    refine Sat.perform (fun _ => stable_underway event) (stable_closing event _ [])
      (fun _ _ _ hk => hk.1) fun i s r s' hs hk _ hx => ?_
    obtain ⟨hu, hroom, -⟩ := hk
    obtain ⟨-, horig, -, -, hopen, -, -, hclos, -, -⟩ := openedLot_ok hl
    have hbuy : event.side = .buy := by
      rw [(planSignedLotFill_ok hplan.1).choose_spec.2.2.1, ne_eq, openingDirection_short] at hlong
      cases hside : event.side with
      | buy => rfl
      | sell => exact absurd hside hlong
    obtain ⟨-, -, hx⟩ := except_bind_eq_ok.1 hx
    cases hx
    refine ⟨hs.createLot hu horig hclos hbuy fun hnone => ?_, trivial, hu.congr rfl⟩
    rw [hopen]
    exact hroom.anti (by simp) (hu.bought hs hbuy) hnone
  seen_ended _ _ hk := hk.1
  closing_ended _ _ _ _ hk := hk.1

/-! ### A whole pass -/

theorem Underway.of_facts {event event' : SettlementEvent} {s : Store}
    (hfacts : event.toSettlementFacts = event'.toSettlementFacts) (h : Underway event s) :
    Underway event' s := by
  obtain ⟨row, hrow, hrf, hne⟩ := h
  exact ⟨row, hrow, hrf.trans hfacts, hne⟩

theorem conserved_checkpoint {s s' : Store} {c event : SettlementEvent} {r : Unit}
    (h : Conserved s) (hu : Underway c s)
    (hfacts : event.toSettlementFacts = c.toSettlementFacts)
    (hx : checkpoint s event = .ok (r, s')) :
    Conserved s' ∧ (event.status ≠ .completed → Underway c s') := by
  obtain ⟨hflags, hproject, rfl⟩ := checkpoint_ok hx
  refine ⟨?_, hu.putEvent hfacts⟩
  have hexact : event.status = .completed → spentOn s event.fillId = event.quantity := fun hc => by
    have htrade : event.tradeProjected = true := by
      have hall := List.all_eq_true.1 (hflags hc) .projectTrade (mem_settlementStages _)
      exact hall
    rw [htrade] at hproject
    exact spentOn_of_project h (hu.of_facts hfacts.symm) hproject
  obtain ⟨row, hrow, hrf, hne⟩ := hu
  exact h.putEvent hrow hne (hfacts.trans hrf.symm) hexact

/-- What is known during an attempt: the event is in the store and is not completed. -/
def underway : PassKnowledge Store where
  running c state s := (state.toSettlementFacts = c.toSettlementFacts ∧
    state.status = .processing) ∧ Underway c s
  staged c state _ _ s := (state.toSettlementFacts = c.toSettlementFacts ∧
    state.status = .processing) ∧ Underway c s
  failed c := Underway c

theorem stable_known (P : Prop) (c : SettlementEvent) :
    conservation.Stable fun s => P ∧ Underway c s :=
  (Setting.Stable.const P).and (stable_underway c)

theorem Sat.with_fact {α : Type} {p : Settle α} {P : Prop} {c : SettlementEvent}
    (hp : P → Sat conservation p (Underway c) (fun _ => Underway c) (fun _ => Underway c)) :
    Sat conservation p (fun s => P ∧ Underway c s) (fun _ s => P ∧ Underway c s)
      (fun _ => Underway c) := by
  refine Process.Sat.of_pointwise fun s _ hk => ⟨Underway c, hk.2, ?_⟩
  exact (hp hk.1).mono (fun _ _ h => h) (fun _ _ _ h => ⟨hk.1, h⟩) fun _ _ _ h => h

theorem holds_underway : underway.Holds conservation where
  quiet o ho := by
    refine (Sat.of_uses (.const True) (fun o i s r s' ho hs _ _ hx => ?_)
      ((Prog.uses_perform o).2 ho)).mono (fun _ _ h => h) (fun _ _ _ _ => trivial)
      fun _ _ _ _ => trivial
    exact ⟨(conserved_frame hs hx ho (by decide)).1, trivial, trivial⟩
  claim id now stale force := by
    refine Sat.perform (fun r => .all fun c => .imp fun _ => stable_known _ c) (.const True)
      (fun _ _ _ _ => trivial) fun i s r s' hs _ _ hx => ?_
    rcases claimIfProcessable_ok hx with ⟨rfl, rfl⟩ | ⟨current, c, hget, hdue, hf, rfl, rfl⟩
    · exact ⟨hs, trivial, by simp⟩
    · obtain ⟨hrow, -⟩ := Table.get?_eq_some_iff.1 hget
      have hfacts : c.toSettlementFacts = current.toSettlementFacts :=
        congrArg (·.toSettlementFacts) hf
      have hstatus : c.status = .processing := congrArg (·.status) hf
      have hne : current.status ≠ .completed := by
        rcases isSettlementProcessable_status hdue with hst | hst | hst <;> rw [hst] <;> decide
      have hncompleted : c.status ≠ .completed := by
        rw [hstatus]
        decide
      refine ⟨hs.putEvent hrow hne hfacts fun hc => absurd hc hncompleted, trivial, ?_⟩
      rintro c' hc'
      cases hc'
      refine ⟨⟨rfl, hstatus⟩, ?_⟩
      exact Underway.putEvent ⟨current, hrow, hfacts.symm, hne⟩ rfl hncompleted
  verify c := Sat.with_fact fun _ => sat_elsewhere c
    (uses_verifyIntegrity c false : (verifyIntegrity c false).Uses (Op.WritesIn []))
    (by simp)
  stage c state st _ _ := by
    refine Sat.with_fact fun hk => ?_
    by_cases hst : st = .projectLot
    · subst hst
      refine (holds_fitting state).projectLot.mono (fun s _ hu => hu.of_facts hk.1.symm)
        (fun _ s _ hu => hu.of_facts hk.1) fun _ s _ hu => hu.of_facts hk.1
    · exact sat_elsewhere c (uses_handlers st state) (notMem_stageWrites hst)
  mark c state st r state' _ _ hstate' := by
    have hfacts : state'.toSettlementFacts = state.toSettlementFacts :=
      congrArg (·.toSettlementFacts) hstate'
    have hstatus : state'.status = state.status := congrArg (·.status) hstate'
    refine Sat.perform (fun _ => stable_known _ c) (stable_known _ c) (fun _ _ _ hk => hk.2)
      fun i s r' s' hs hk _ hx => ?_
    obtain ⟨⟨hsf, hss⟩, hu⟩ := hk
    obtain ⟨hs', hu'⟩ := conserved_checkpoint hs hu (hfacts.trans hsf) hx
    refine ⟨hs', trivial, ⟨hfacts.trans hsf, hstatus.trans hss⟩, hu' ?_⟩
    rw [hstatus, hss]
    decide
  done c state d hd := by
    have hf := SettlementEvent.make_eq_ok_iff.1 hd
    have hfacts : d.toSettlementFacts = state.toSettlementFacts :=
      congrArg (·.toSettlementFacts) hf
    refine Sat.perform (fun _ => .const True) (stable_known _ c) (fun _ _ _ hk => hk.2)
      fun i s r' s' hs hk _ hx => ?_
    exact ⟨(conserved_checkpoint hs hk.2 (hfacts.trans hk.1.1) hx).1, trivial, trivial⟩
  fail c failure d _ hd := by
    have hf := SettlementEvent.make_eq_ok_iff.1 hd
    have hfacts : d.toSettlementFacts = c.toSettlementFacts := congrArg (·.toSettlementFacts) hf
    refine Sat.perform (fun _ => .const True) (stable_underway c) (fun _ _ _ _ => trivial)
      fun i s r' s' hs hk _ hx => ?_
    exact ⟨(conserved_checkpoint hs hk hfacts hx).1, trivial, trivial⟩
  running_failed _ _ _ hk := hk.2
  staged_failed _ _ _ _ _ hk := hk.2

/-! ### What the rest of the program does -/

theorem conserved_external {t : External} {s s' : Store} (h : Conserved s)
    (ht : external t s = some s') : Conserved s' := by
  cases t with
  | recordFill fill =>
      cases ht
      refine { h with recorded := fun e he => ?_ }
      obtain ⟨f, hf, hrest⟩ := h.recorded e he
      exact ⟨f, Table.mem_createOnce_of_mem hf, hrest⟩
  | elsewhere t =>
      cases ht
      exact h.congr ⟨rfl, rfl, rfl, rfl, rfl⟩
  | recordSettlement event =>
      simp only [external] at ht
      split at ht
      · rename_i hguard
        cases ht
        obtain ⟨⟨f, hf, hof⟩, hadopted⟩ := hguard
        have hpending : event.status ≠ .completed := by
          rw [hof.2.2.2.2.2.2.2.2.2.2.2.1]
          decide
        by_cases hadmits : s.settlements.Admits event
        · -- no event of this fill was there, so nothing in the ledger of lots mentions the fill
          have hfresh : ∀ e ∈ s.settlements, e.fillId ≠ event.fillId := fun e he hid => by
            rcases (hadmits e he).2 with hn | hn
            · cases hn
            · exact hn (congrArg some hid)
          have hclosures : ∀ l ∈ s.positionLots, event.fillId ∉ l.closures := fun l hl hin => by
            obtain ⟨e, he, hid⟩ := h.closer l hl _ hin
            exact hfresh e he hid
          have hopener : ∀ l ∈ s.positionLots, l.originatingFillId ≠ event.fillId :=
            fun l hl ho => by
              rcases h.opener l hl with hp | ⟨e, he, hid⟩
              · rw [ho, hadopted] at hp
                cases hp
              · exact hfresh e he (hid.trans ho)
          have howner : ∀ b ∈ s.shortExposureLiabilities, b.fillId ≠ event.fillId :=
            fun b hb ho => by
              obtain ⟨e, he, hid⟩ := h.owner b hb
              exact hfresh e he (hid.trans ho)
          have hzero : spentOn s event.fillId = 0 := by
            rw [spentOn, Table.sum_eq_zero, Table.sum_eq_zero, add_zero]
            · exact fun b hb => if_neg (howner b hb)
            · intro l hl
              rw [PositionLot.allocatedTo, if_neg (hopener l hl),
                AList.lookup_eq_none.2 (hclosures l hl)]
              exact zero_add _
          have hmem : ∀ {e}, e ∈ s.settlements.createOnce event → e ∈ s.settlements ∨ e = event :=
            fun he => (Table.mem_createOnce.1 he).imp_right (·.2)
          have hex : ∀ {g : String}, (∃ e ∈ s.settlements, e.fillId = g) →
              ∃ e ∈ s.settlements.createOnce event, e.fillId = g := by
            rintro g ⟨e, he, hid⟩
            exact ⟨e, Table.mem_createOnce_of_mem he, hid⟩
          constructor
          · intro e he
            rcases hmem he with he | rfl
            · exact h.recorded e he
            · exact ⟨f, hf, hof.1.symm, hof.2.2.2.2.2.1.symm⟩
          · intro e he
            rcases hmem he with he | rfl
            · exact h.spent e he
            · exact hzero.trans_le e.quantity_pos.le
          · intro e he hc
            rcases hmem he with he | rfl
            · exact h.settled e he hc
            · exact absurd hc hpending
          · intro e he hc l hl hin
            rcases hmem he with he | rfl
            · exact h.visible e he hc l hl hin
            · exact absurd hin (hclosures l hl)
          · intro e he hc b hb hid
            rcases hmem he with he | rfl
            · exact h.oversold e he hc b hb hid
            · exact absurd hid (howner b hb)
          · intro e he hc l hl hid
            rcases hmem he with he | rfl
            · exact h.bought e he hc l hl hid
            · exact absurd hid (hopener l hl)
          · exact fun l hl g hg => hex (h.closer l hl g hg)
          · exact fun l hl => (h.opener l hl).imp_right hex
          · exact fun b hb => hex (h.owner b hb)
          · exact h.nonneg
        · rw [Table.createOnce_of_not_admits hadmits]
          exact h
      · cases ht

theorem rely_external {t : External} {s s' : Store} (ht : external t s = some s') :
    conservation.rely s s' := by
  refine ⟨?_, ?_, ?_, mem_settlements_of_external ht⟩ <;>
    · cases t with
      | recordSettlement event =>
          simp only [external, Option.ite_none_right_eq_some] at ht
          cases ht.2
          rfl
      | _ =>
          cases ht
          rfl

theorem sound_conservation : Solo.Sound system conservation where
  exec := rfl
  env _ _ _ hs ht := ⟨conserved_external hs ht, rely_external ht⟩
  call args s _ := known_of_safe (holds_underway.processPending args) s

/-! ### The result -/

theorem Conserved.unrecorded {s : Store} (h : Conserved s) {f : Fill}
    (hadopted : f.fillId.startsWith adoptionFillPrefix = false)
    (hnone : ∀ e ∈ s.settlements, e.fillId ≠ f.fillId) : spentOn s f.fillId = 0 := by
  rw [spentOn, Table.sum_eq_zero, Table.sum_eq_zero, add_zero]
  · refine fun b hb => if_neg fun hid => ?_
    obtain ⟨e, he, hid'⟩ := h.owner b hb
    exact hnone e he (hid'.trans hid)
  · intro l hl
    have hopener : l.originatingFillId ≠ f.fillId := fun ho => by
      rcases h.opener l hl with hp | ⟨e, he, hid⟩
      · rw [ho, hadopted] at hp
        cases hp
      · exact hnone e he (hid.trans ho)
    have hcloser : f.fillId ∉ l.closures := fun hin => by
      obtain ⟨e, he, hid⟩ := h.closer l hl _ hin
      exact hnone e he hid
    rw [PositionLot.allocatedTo, if_neg hopener, AList.lookup_eq_none.2 hcloser]
    exact zero_add _

/-- **Conservation per fill.**  In every state that passes reach one after the other, failing and
crashing anywhere, without closing lots for a fill that already owes a liability: no fill is spent
beyond its quantity, and a fill whose event is completed is spent exactly. -/
theorem conservation_of_fills {s₀ : Store} {w : Solo Store Raised Op.Res} (h₀ : Conserved s₀)
    (h : sequential.Reaches (Solo.Meets Unowed) ⟨s₀, .done ()⟩ w) :
    ∀ f ∈ w.store.fills, f.fillId.startsWith adoptionFillPrefix = false →
      spentOn w.store f.fillId ≤ f.quantity ∧
        ∀ e ∈ w.store.settlements, e.fillId = f.fillId → e.status = .completed →
          spentOn w.store f.fillId = f.quantity := by
  intro f hf hadopted
  have hc : Conserved w.store := (sound_conservation.good (Solo.good_init h₀) h).1
  have hqty : ∀ e ∈ w.store.settlements, e.fillId = f.fillId → e.quantity = f.quantity :=
    fun e he hid => by
      obtain ⟨f', hf', hid', hq⟩ := hc.recorded e he
      rw [← hq, Table.eq_of_recordId hf' hf (hid'.trans hid)]
  constructor
  · by_cases hex : ∃ e ∈ w.store.settlements, e.fillId = f.fillId
    · obtain ⟨e, he, hid⟩ := hex
      rw [← hid, ← hqty e he hid]
      exact hc.spent e he
    · rw [hc.unrecorded hadopted fun e he hid => hex ⟨e, he, hid⟩]
      exact f.quantity_pos.le
  · intro e he hid hcomplete
    rw [← hid, ← hqty e he hid]
    exact hc.settled e he hcomplete

/-- Four shares are bought.  The attempt at the sale of three fails after its closure was applied,
and is repeated. -/
def soldOnce : List Action :=
  List.flatten
    [ [ordered [execution "b1" .buy 4 10 0, execution "sale" .sell 3 12 1]],
      arrival (execution "b1" .buy 4 10 0), [.start {}], goOn 0 41 { now := 1, uuid := "lot-1" },
      arrival (execution "sale" .sell 3 12 1), [.start {}], goOn 0 12 { now := 2 },
      [.raise 0 ⟨.other, "disk I/O error"⟩], goOn 0 2 { now := 2 },
      [.start {}], goOn 0 42 { now := seconds 30 } ]

/-- The sale that was repeated is spent exactly. -/
theorem conservation_of_fills_soldOnce : ∃ w : Solo Store Raised Op.Res,
    (∃ e ∈ w.store.settlements.rows, e.fillId = "sale" ∧ e.status = .completed) ∧
      ∀ f ∈ w.store.fills, f.fillId.startsWith adoptionFillPrefix = false →
        spentOn w.store f.fillId ≤ f.quantity ∧
          ∀ e ∈ w.store.settlements, e.fillId = f.fillId → e.status = .completed →
            spentOn w.store f.fillId = f.quantity := by
  have hrun : (sequential.runUnder (Solo.Meets Unowed) ⟨{}, .done ()⟩ soldOnce).any (fun w =>
      decide (∃ e ∈ w.store.settlements.rows, e.fillId = "sale" ∧ e.status = .completed)) = true := by
    decide +kernel
  obtain ⟨w, hreach, hdone⟩ := Machine.exists_of_runUnder hrun
  exact ⟨w, hdone, conservation_of_fills conserved_empty hreach⟩

/-- Seven shares are bought and ten are sold.  The sale closes both lots and owes three; then its
attempt fails.  Five more shares are bought, and the retry closes three of these as well. -/
def soldTwice : List Action :=
  List.flatten
    [ arrival (execution "b1" .buy 4 10 0), [.start {}], goOn 0 13 { now := 1, uuid := "lot-1" },
      [.crash 0],
      arrival (execution "b2" .buy 3 10 1), [.start {}], goOn 0 13 { now := 2, uuid := "lot-2" },
      [.crash 0],
      arrival (execution "sale" .sell 10 12 2), [.start {}], goOn 0 14 { now := 3 },
      [.raise 0 ⟨.other, "disk I/O error"⟩], goOn 0 2 { now := 3 },
      arrival (execution "b3" .buy 5 11 3), [.start {}], goOn 0 13 { now := 4, uuid := "lot-3" },
      [.crash 0, .start {}], goOn 0 12 { now := seconds 30 } ]

/-- **A fill can be spent twice**: the liability an attempt recorded is not credited when the fill
is planned again. -/
theorem spent_beyond_fill : ∃ w, sequential.Reaches (fun _ _ => True) ⟨{}, .done ()⟩ w ∧
    ∃ f ∈ w.store.fills.rows, f.fillId.startsWith adoptionFillPrefix = false ∧
      f.quantity < spentOn w.store f.fillId := by
  have hrun : (sequential.run ⟨{}, .done ()⟩ soldTwice).any (fun w =>
      decide (∃ f ∈ w.store.fills.rows, f.fillId.startsWith adoptionFillPrefix = false ∧
        f.quantity < spentOn w.store f.fillId)) = true := by
    decide +kernel
  exact Machine.exists_of_run hrun

end Settlement

end TradePulse
