/-
**Two passes that settle fills of one instrument converge.**

Each lane settles events of its own.  The lanes meet in the lots of an instrument, which both
change, and in its holding, which both write from lots they read before.  Where no lot changes
between the read and the write, and no fill is compared while another one still owes its holding,
the holding ends up as the lots add up and no comparison fails.  Otherwise the comparison of one
event may see the state in between of the other one, and the event is blocked for good.

Main definitions:

* `Own`, `Timely` — the lanes settle events of their own; holdings are written and compared in time;
* `converging` — the settings of the lanes.

Main results:

* `settlement_converges` — in such runs, holdings agree with lots when everybody is done;
* `blocked_in_between` — a pass blocks its event because of what the other one has still to do.
-/

import TradePulse.Settlement.Convergence
import TradePulse.Settlement.Progress

set_option autoImplicit false

namespace TradePulse

namespace Settlement

open Process Storage

variable {J : Type}

/-- A lane claims only events of its own. -/
def Own (lane : String → J) (j : J) : Op → Outside → Store → Prop
  | .claimIfProcessable id now stale force, _, s => ∀ row ∈ s.settlements.rows,
      row.settlementEventId = id → isSettlementProcessable row now stale force = true → lane id = j
  | _, _, _ => True

instance [DecidableEq J] (lane : String → J) (j : J) (o : Op) (i : Outside) (s : Store) :
    Decidable (Own lane j o i s) := by
  apply Op.casesOn (motive := fun o => Decidable (Own lane j o i s)) o
  case claimIfProcessable =>
    intro id now stale force
    exact inferInstanceAs (Decidable (∀ row ∈ s.settlements.rows, _ → _ → lane id = j))
  all_goals
    intros
    exact isTrue trivial

/-- The open lots of an instrument are those that were read, its holding is there if it was, and no
fill that changed lots is still to project its holding where the two are compared. -/
def InTime : Op → Store → Prop
  | .getHolding (.projects openLots) asset, s => openLots.isEmpty = true →
      s.holdings.get? (assetIdentityKey asset) = none → openLotsAt s (assetIdentityKey asset) = []
  | .getHolding (.compares openLots true) asset, s =>
      openLotsAt s (assetIdentityKey asset) = openLots ∧
        ∀ e ∈ s.settlements.rows, assetIdentityKey e.asset = assetIdentityKey asset →
          WroteLots s e.fillId → e.holdingProjected = true
  | .deleteHolding asset _, s => openLotsAt s (assetIdentityKey asset) = []
  | .mutateHolding openLots holding _, s =>
      (s.holdings.get? (assetIdentityKey holding.asset)).isSome = true ∧
        openLotsAt s (assetIdentityKey holding.asset) = openLots
  | .createHolding openLots holding _, s =>
      s.holdings.get? (assetIdentityKey holding.asset) = none ∧
        openLotsAt s (assetIdentityKey holding.asset) = openLots
  | _, _ => True

instance (o : Op) (s : Store) : Decidable (InTime o s) := by
  apply Op.casesOn (motive := fun o => Decidable (InTime o s)) o
  case getHolding =>
    intro reader asset
    apply HoldingReader.casesOn (motive := fun r => Decidable (InTime (.getHolding r asset) s)) reader
    case projects =>
      intro openLots
      exact inferInstanceAs (Decidable (_ → _ → openLotsAt s _ = []))
    case compares =>
      intro openLots checkLots
      apply Bool.casesOn
        (motive := fun b => Decidable (InTime (.getHolding (.compares openLots b) asset) s)) checkLots
      case false => exact isTrue trivial
      case true => exact inferInstanceAs (Decidable (_ ∧ ∀ e ∈ s.settlements.rows, _))
  case deleteHolding =>
    intro asset guardKey
    exact inferInstanceAs (Decidable (openLotsAt s _ = []))
  case mutateHolding =>
    intro openLots holding guardKey
    exact inferInstanceAs (Decidable (_ ∧ openLotsAt s _ = openLots))
  case createHolding =>
    intro openLots holding guardKey
    exact inferInstanceAs (Decidable (_ ∧ openLotsAt s _ = openLots))
  all_goals
    intros
    exact isTrue trivial

/-- The lanes settle events of their own, and holdings are written and compared in time. -/
def Timely (lane : String → J) (j : J) (o : Op) (i : Outside) (s : Store) : Prop :=
  Own lane j o i s ∧ InTime o s

instance [DecidableEq J] (lane : String → J) (j : J) (o : Op) (i : Outside) (s : Store) :
    Decidable (Timely lane j o i s) :=
  inferInstanceAs (Decidable (_ ∧ _))

/-- Some events stay as they are, with no holding owed by them that was not owed before; lots keep
their instrument. -/
def Untouched (mine : String → Prop) (w w' : Store × Ledger) : Prop :=
  (∀ e ∈ w.1.settlements, mine e.settlementEventId → e ∈ w'.1.settlements ∧
      ∀ key, w'.2 key = some e.fillId → w.2 key = some e.fillId) ∧
    ∀ l ∈ w.1.positionLots, ∃ l' ∈ w'.1.positionLots, l'.lotId = l.lotId ∧ l'.asset = l.asset

/-- The settings of the lanes. -/
def converging (lane : String → J) : LaneSetting J (Store × Ledger) Outside Raised Op.Res where
  exec := (system.track note).exec
  inv w := Tracked w.1 w.2
  rely j := Untouched fun id => lane id = j
  cond j o i w := Timely lane j o i w.1
  guar i := Untouched fun id => lane id ≠ i

/-! ### What the transactions keep -/

theorem Untouched.of_eq {mine : String → Prop} {s s' : Store} {g g' : Ledger}
    (hsettlements : s'.settlements = s.settlements) (hlots : s'.positionLots = s.positionLots)
    (hsome : ∀ key f, g' key = some f → g key = some f) : Untouched mine (s, g) (s', g') := by
  constructor
  · intro e he _
    exact ⟨hsettlements ▸ he, fun key => hsome key e.fillId⟩
  · intro l hl
    exact ⟨l, hlots ▸ hl, rfl, rfl⟩

theorem Untouched.putEvent {mine : String → Prop} {s : Store} {g : Ledger}
    {event : SettlementEvent} (h : ¬ mine event.settlementEventId) :
    Untouched mine (s, g) ({ s with settlements := s.settlements.put event }, g) := by
  constructor
  · intro e he hmine
    refine ⟨Table.mem_put_of_ne he fun hid => h ?_, fun _ hg => hg⟩
    have hid : e.settlementEventId = event.settlementEventId := hid
    exact hid ▸ hmine
  · intro l hl
    exact ⟨l, hl, rfl, rfl⟩

/-- A fill that changes lots touches no other event. -/
theorem Untouched.changeLots {mine : String → Prop} {s s' : Store} {g : Ledger} {key : String}
    {row : SettlementEvent} (hrow : row ∈ s.settlements) (hmine : ¬ mine row.settlementEventId)
    (hsettlements : s'.settlements = s.settlements)
    (hlots : ∀ l ∈ s.positionLots, ∃ l' ∈ s'.positionLots,
      l'.lotId = l.lotId ∧ l'.asset = l.asset) :
    Untouched mine (s, g) (s', Function.update g key (some row.fillId)) := by
  refine ⟨fun e he he' => ⟨hsettlements ▸ he, fun key' hg => ?_⟩, hlots⟩
  by_cases hkey : key' = key
  · subst hkey
    simp only [Function.update_self, Option.some.injEq] at hg
    have hsame : row = e := Table.eq_of_uniqueValue hrow he (congrArg some hg) rfl
    exact absurd (hsame ▸ he') hmine
  · simpa only [Function.update_of_ne hkey] using hg

theorem Untouched.refl (mine : String → Prop) (w : Store × Ledger) : Untouched mine w w :=
  ⟨fun _ he _ => ⟨he, fun _ h => h⟩, fun l hl => ⟨l, hl, rfl, rfl⟩⟩

theorem update_none_some {g : Ledger} {key key' f : String}
    (h : Function.update g key none key' = some f) : g key' = some f := by
  by_cases hkey : key' = key
  · subst hkey
    simp at h
  · rwa [Function.update_of_ne hkey] at h

/-- Parts of the store that matter here. -/
abbrev tracked : List Part := [.settlements, .positionLots, .holdings]

/-- **A transaction that writes none of these parts.** -/
theorem quiet_step {o : Op} {i : Outside} {s : Store} {g : Ledger}
    {w' : Store × Ledger} {r : o.Res} (h : Tracked s g)
    (hx : (system.track note).exec o i (s, g) = .ok (r, w')) (htime : InTime o s)
    (ho : ∀ p ∈ tracked, o.writes ≠ some p) :
    Tracked w'.1 w'.2 ∧ ∀ mine, Untouched mine (s, g) w' := by
  obtain ⟨hx, hg⟩ := System.track_exec_ok.1 hx
  obtain ⟨s', g'⟩ := w'
  have hframe : ∀ p ∈ tracked, Store.SameAt p s s' := fun p hp => exec_frame hx p (ho p hp)
  have hsettlements : s'.settlements = s.settlements := hframe .settlements (by simp)
  have hlots : s'.positionLots = s.positionLots := hframe .positionLots (by simp)
  have hholdings : s'.holdings = s.holdings := hframe .holdings (by simp)
  have hconv : s'.convertedLots = s.convertedLots :=
    exec_frame hx .convertedLots (by cases o <;> simp [Op.writes])
  -- a look that finds nothing to do settles what was owed
  have hnote : (∀ key f, g' key = some f → g key = some f) ∧
      ∀ key, g' key = none → g key = none ∨ HoldingAgrees s key := by
    have keep : g' = g → (∀ key f, g' key = some f → g key = some f) ∧
        ∀ key, g' key = none → g key = none ∨ HoldingAgrees s key := by
      rintro rfl
      exact ⟨fun _ _ h => h, fun _ h => .inl h⟩
    cases o with
    | closeLot closure event => exact absurd rfl (ho .positionLots (by simp))
    | createLot lot guardKey => exact absurd rfl (ho .positionLots (by simp))
    | deleteHolding asset guardKey => exact absurd rfl (ho .holdings (by simp))
    | mutateHolding openLots holding guardKey => exact absurd rfl (ho .holdings (by simp))
    | createHolding openLots holding guardKey => exact absurd rfl (ho .holdings (by simp))
    | getHolding reader asset =>
        cases reader with
        | compares openLots checkLots => exact keep hg
        | projects openLots =>
            simp only [note] at hg
            split at hg
            · rename_i hnone
              obtain ⟨hempty, hget⟩ := hnone
              subst hg
              refine ⟨fun key f => update_none_some, fun key hkey => ?_⟩
              by_cases hk : key = assetIdentityKey asset
              · right
                unfold HoldingAgrees
                rw [hk, hget]
                exact htime hempty hget
              · rw [Function.update_of_ne hk] at hkey
                exact .inl hkey
            · exact keep hg
    | _ => exact keep hg
  exact ⟨h.frame hsettlements hlots hconv hholdings hnote.1 hnote.2,
    fun _ => .of_eq hsettlements hlots hnote.1⟩

/-- A holding is written that shows the open lots. -/
theorem Tracked.showHolding {s : Store} {g : Ledger} (h : Tracked s g) {t : Table Holding}
    {holding written : Holding} (hquantity : written.quantity = holding.quantity)
    (haverage : written.averagePrice = holding.averagePrice)
    (hshows : Shows holding.toHoldingFields (openLotsAt s (assetIdentityKey holding.asset)))
    (hself : t.get? (assetIdentityKey holding.asset) = some written)
    (hothers : ∀ key, key ≠ assetIdentityKey holding.asset → t.get? key = s.holdings.get? key) :
    Tracked { s with holdings := t }
      (Function.update g (assetIdentityKey holding.asset) none) := by
  refine h.writeHolding rfl rfl rfl hothers ?_
  unfold HoldingAgrees
  rw [hself]
  obtain ⟨hne, hq, ha⟩ := hshows
  exact ⟨hne, hquantity.trans hq, haverage.trans ha⟩

/-- The instrument whose holding a transaction writes. -/
def Op.holdingKey : Op → Option String
  | .deleteHolding asset _ => some (assetIdentityKey asset)
  | .mutateHolding _ holding _ => some (assetIdentityKey holding.asset)
  | .createHolding _ holding _ => some (assetIdentityKey holding.asset)
  | _ => none

/-- A projected holding shows the lots that were read for it. -/
def Op.Projected : Op → Prop
  | .mutateHolding openLots holding _ => Shows holding.toHoldingFields openLots
  | .createHolding openLots holding _ => Shows holding.toHoldingFields openLots
  | _ => True

/-- **A holding is written in time**: nothing is owed for its instrument any more. -/
theorem holding_step {o : Op} {i : Outside} {s : Store} {g : Ledger}
    {w' : Store × Ledger} {r : o.Res} {key : String} (h : Tracked s g)
    (hx : (system.track note).exec o i (s, g) = .ok (r, w')) (htime : InTime o s)
    (ho : o.holdingKey = some key) (hprojected : o.Projected) :
    Tracked w'.1 w'.2 ∧ (∀ mine, Untouched mine (s, g) w') ∧ w'.2 key = none := by
  obtain ⟨hx, hg⟩ := System.track_exec_ok.1 hx
  obtain ⟨s', g'⟩ := w'
  have hsettlements : s'.settlements = s.settlements := exec_frame hx .settlements (by
    cases o <;> simp_all [Op.writes, Op.holdingKey])
  have hlots : s'.positionLots = s.positionLots := exec_frame hx .positionLots (by
    cases o <;> simp_all [Op.writes, Op.holdingKey])
  have hnote : g' = Function.update g key none := by
    cases o <;> simp_all [note, Op.holdingKey]
  subst hnote
  refine ⟨?_, fun _ => .of_eq hsettlements hlots fun _ _ => update_none_some,
    Function.update_self ..⟩
  -- whatever is written shows the lots that were read, and they are still those
  cases o with
  | deleteHolding asset guardKey =>
      cases ho
      obtain ⟨-, -, hx⟩ := except_bind_eq_ok.1 hx
      cases hx
      refine h.writeHolding rfl rfl rfl (fun _ hne => Table.get?_delete_of_ne hne) ?_
      have hnone : (s.holdings.delete (assetIdentityKey asset)).get? (assetIdentityKey asset)
          = none := Table.get?_delete_self
      unfold HoldingAgrees
      simp only [holdingRecordId, hnone]
      exact htime
  | mutateHolding openLots holding guardKey =>
      cases ho
      obtain ⟨hsome, hread⟩ := htime
      rcases mutateHolding_ok hx with ⟨hnone, -, -⟩ | ⟨current, written, hget, hwritten, -, rfl⟩
      · rw [holdingRecordId] at hnone
        rw [hnone] at hsome
        cases hsome
      · have hasset : written.asset = holding.asset := congrArg (·.asset) hwritten
        obtain ⟨hcur, hid⟩ := Table.get?_eq_some_iff.1 hget
        have hkeys : SameKeys current written := ⟨by
          rw [hid]
          exact congrArg holdingRecordId hasset.symm, rfl⟩
        have hrecord : Record.recordId written = assetIdentityKey holding.asset :=
          congrArg holdingRecordId hasset
        refine h.showHolding (congrArg (·.quantity) hwritten) (congrArg (·.averagePrice) hwritten)
          (hread ▸ hprojected) ?_ fun key hne => Table.get?_put_of_ne (hrecord ▸ hne)
        rw [← hrecord]
        exact Table.get?_put_self hcur hkeys
  | createHolding openLots holding guardKey =>
      cases ho
      obtain ⟨hnone, hread⟩ := htime
      obtain ⟨-, -, hx⟩ := except_bind_eq_ok.1 hx
      cases hx
      have hadmits : s.holdings.Admits holding := fun a ha =>
        ⟨Table.get?_eq_none_iff.1 hnone a ha, .inl rfl⟩
      exact h.showHolding rfl rfl (hread ▸ hprojected) (Table.get?_createOnce_self hadmits)
        fun key hne => Table.get?_createOnce_of_ne hne
  | _ => cases ho

/-! ### Knowledge -/

variable {lane : String → J} {j : J}

/-- What an attempt keeps in mind: the event is the lane's own, and what its flags were. -/
structure Attempt (lane : String → J) (j : J) (c state : SettlementEvent) : Prop where
  own : lane c.settlementEventId = j
  facts : state.toSettlementFacts = c.toSettlementFacts
  projected : c.holdingProjected = true → state.holdingProjected = true
  ordered : c.holdingProjected = true → c.lotProjected = true

/-- While the stages run. -/
def Attempting (lane : String → J) (j : J) (c state : SettlementEvent) (w : Store × Ledger) : Prop :=
  Attempt lane j c state ∧ Kept state w.1

theorem Attempt.lane_row {c state row : SettlementEvent} (h : Attempt lane j c state)
    (hfacts : row.toSettlementFacts = state.toSettlementFacts) :
    lane row.settlementEventId = j := by
  have hid : row.settlementEventId = c.settlementEventId :=
    congrArg (·.settlementEventId) (hfacts.trans h.facts)
  rw [hid]
  exact h.own

theorem stable_attempting (c state : SettlementEvent) :
    ((converging lane).at j).Stable (Attempting lane j c state) := by
  rintro w w' - - ⟨hattempt, row, hrow, hfacts, hprogress⟩ hr
  exact ⟨hattempt, row, (hr.1 row hrow (hattempt.lane_row hfacts)).1, hfacts, hprogress⟩

/-- The event owes no holding. -/
def Paid (event : SettlementEvent) (w : Store × Ledger) : Prop :=
  w.2 (assetIdentityKey event.asset) ≠ some event.fillId

theorem stable_paid (c state : SettlementEvent) :
    ((converging lane).at j).Stable fun w => Attempting lane j c state w ∧ Paid state w := by
  rintro w w' hs hs' ⟨hk, hpaid⟩ hr
  refine ⟨stable_attempting c state w w' hs hs' hk hr, fun hg => hpaid ?_⟩
  obtain ⟨hattempt, row, hrow, hfacts, -⟩ := hk
  have hfill : row.fillId = state.fillId := congrArg (·.fillId) hfacts
  have hkept := (hr.1 row hrow (hattempt.lane_row hfacts)).2 _ (hg.trans (congrArg some hfill.symm))
  rw [hkept, hfill]

theorem sat_quiet {α : Type} {p : Settle α} {parts : List Part} {K : Store × Ledger → Prop}
    (hK : ((converging lane).at j).Stable K) (hp : p.Uses (Op.WritesIn parts))
    (hparts : ∀ part ∈ tracked, part ∉ parts) :
    Sat ((converging lane).at j) p K (fun _ => K) (fun _ => K) := by
  refine Sat.of_uses hK (fun o i w r w' ho hs hk hc hx => ?_) hp
  obtain ⟨s, g⟩ := w
  obtain ⟨hs', hsame⟩ := quiet_step hs hx hc.2 fun part hpart hw =>
    hparts part hpart (ho part hw)
  exact ⟨hs', hsame fun id => lane id ≠ j, hK _ w' hs hs' hk (hsame fun id => lane id = j)⟩

/-- **The holding stage**: when it is over, the event owes no holding. -/
theorem sat_projectHolding (c state : SettlementEvent) :
    Sat ((converging lane).at j) (projectHolding state) (Attempting lane j c state)
      (fun _ w => Attempting lane j c state w ∧ Paid state w)
      (fun _ => Attempting lane j c state) := by
  have hK : ((converging lane).at j).Stable (Attempting lane j c state) := stable_attempting c state
  have hP : ((converging lane).at j).Stable fun w =>
      Attempting lane j c state w ∧ Paid state w := stable_paid c state
  -- writing the holding of the instrument pays
  have write : ∀ o : Op, o.holdingKey = some (assetIdentityKey state.asset) → o.Projected →
      Sat ((converging lane).at j) (do let _ ← perform o; return ()) (Attempting lane j c state)
        (fun _ w => Attempting lane j c state w ∧ Paid state w)
        (fun _ => Attempting lane j c state) := fun o ho hprojected => by
    refine Sat.bind_of (Sat.perform (fun _ => hP) hK (fun _ _ _ hk => hk)
      fun i w r w' hs hk hc hx => ?_) fun _ _ _ hk => hk
    obtain ⟨s, g⟩ := w
    obtain ⟨hs', hsame, hnone⟩ := holding_step hs hx hc.2 ho hprojected
    refine ⟨hs', hsame fun id => lane id ≠ j, hK _ w' hs hs' hk (hsame fun id => lane id = j), ?_⟩
    unfold Paid
    rw [hnone]
    exact nofun
  have hreads : (unconvertedLots .projectHolding state.asset).Uses (Op.WritesIn []) :=
    uses_unconvertedLots _ _
  refine Sat.bind_of (sat_quiet hK hreads (by simp)) fun lots => ?_
  -- with nothing open and no holding there is nothing to write, and nothing to pay
  refine Sat.bind_of (Q := fun existing w => Attempting lane j c state w ∧
    ((lots.filter fun l => l.isOpen) = [] → existing = none → Paid state w))
    (Sat.perform (fun existing => ?_) hK (fun _ _ _ hk => hk) fun i w r w' hs hk hc hx => ?_)
    fun existing => ?_
  · rintro w w' hs hs' ⟨hk, himp⟩ hr
    exact ⟨hK w w' hs hs' hk hr, fun hnil hnone =>
      (hP w w' hs hs' ⟨hk, himp hnil hnone⟩ hr).2⟩
  · obtain ⟨s, g⟩ := w
    have hx : (system.track note).exec _ i (s, g) = .ok (r, w') := hx
    obtain ⟨hs', hsame⟩ := quiet_step hs hx hc.2 (by simp [Op.writes])
    refine ⟨hs', hsame fun id => lane id ≠ j, hK _ w' hs hs' hk (hsame fun id => lane id = j),
      fun hnil hnone => ?_⟩
    obtain ⟨hget, hg⟩ := System.track_exec_ok.1 hx
    obtain ⟨rfl, -⟩ : s.holdings.get? (holdingRecordId state.asset) = r ∧ s = w'.1 := by
      simpa [system, exec] using hget
    have hnone : s.holdings.get? (assetIdentityKey state.asset) = none := hnone
    simp only [note, hnil, hnone, List.isEmpty_nil, and_self, if_true] at hg
    unfold Paid
    rw [hg, Function.update_self]
    exact nofun
  · cases hold : oldestLot (lots.filter fun l => l.isOpen) with
    | none =>
        have hnil : (lots.filter fun l => l.isOpen) = [] := by
          cases hlots : lots.filter fun l => l.isOpen with
          | nil => rfl
          | cons l ls =>
              rw [hlots] at hold
              cases hold
        dsimp only
        split
        · rename_i hex
          exact (write (.deleteHolding _ _) rfl trivial).mono (fun _ _ hk => hk.1) (fun _ _ _ hk => hk)
            fun _ _ _ hk => hk
        · rename_i hex
          exact fun w _ hk => ⟨hk.1, hk.2 hnil (by simpa using hex)⟩
    | some oldest =>
        dsimp only
        have hlevels : (entryProtectiveLevels oldest).Uses (Op.WritesIn []) :=
          uses_entryProtectiveLevels oldest
        refine Sat.bind_of ((sat_quiet hK hlevels (by simp)).mono (fun _ _ hk => hk.1) (fun _ _ _ hk => hk) fun _ _ _ hk => hk)
          fun levels => ?_
        have hne : (lots.filter fun l => l.isOpen) ≠ [] := by
          intro hnil
          rw [hnil] at hold
          cases hold
        refine Sat.bind_of (Q := fun holding w => (holding.asset = state.asset ∧
          Shows holding.toHoldingFields (lots.filter fun l => l.isOpen)) ∧
            Attempting lane j c state w) (Sat.ofExcept (fun holding hmake w _ hk => ⟨?_, hk⟩)
              fun _ _ _ _ hk => hk) fun holding => ?_
        · have hmade := Holding.make_eq_ok_iff.1 hmake
          exact ⟨congrArg (·.asset) hmade, hne, congrArg (·.quantity) hmade,
            congrArg (·.averagePrice) hmade⟩
        · refine Sat.of_pointwise fun w _ hk => ⟨Attempting lane j c state, hk.2, ?_⟩
          obtain ⟨⟨hasset, hshows⟩, -⟩ := hk
          split
          · exact write (.mutateHolding _ holding _) (by rw [Op.holdingKey, hasset]) hshows
          · exact write (.createHolding _ holding _) (by rw [Op.holdingKey, hasset]) hshows

/-! ### The first stage -/

/-- The lot is in the store, among those of the instrument. -/
def HeldFor (asset : AssetIdentity) (l : PositionLot) (w : Store × Ledger) : Prop :=
  ∃ l' ∈ w.1.positionLots, l'.lotId = l.lotId ∧
    assetIdentityKey l'.asset = assetIdentityKey asset

theorem HeldFor.of_untouched {mine : String → Prop} {asset : AssetIdentity} {l : PositionLot}
    {w w' : Store × Ledger} (h : HeldFor asset l w) (hr : Untouched mine w w') :
    HeldFor asset l w' := by
  obtain ⟨l', hl', hid, hkey⟩ := h
  obtain ⟨l'', hl'', hid', hasset⟩ := hr.2 l' hl'
  exact ⟨l'', hl'', hid'.trans hid, hasset ▸ hkey⟩

/-- What is known during the first stage. -/
def knownHeld (lane : String → J) (j : J) (c state : SettlementEvent) :
    LotKnowledge (Store × Ledger) where
  start := Attempting lane j c state
  seen lots w := Attempting lane j c state w ∧ ∀ l ∈ lots, HeldFor state.asset l w
  closing _ _ closures w := Attempting lane j c state w ∧ ∀ d ∈ closures, HeldFor state.asset d.lot w
  ended := Attempting lane j c state

theorem stable_held_lot (state : SettlementEvent) (l : PositionLot) :
    ((converging lane).at j).Stable (HeldFor state.asset l) := by
  intro w w' _ _ h hr
  have hr : Untouched (fun id => lane id = j) w w' := hr
  exact h.of_untouched hr

theorem stable_heldFor (c state : SettlementEvent) (lots : List PositionLot) :
    ((converging lane).at j).Stable fun w =>
      Attempting lane j c state w ∧ ∀ l ∈ lots, HeldFor state.asset l w :=
  (stable_attempting c state).and (.all fun l => .imp fun _ => stable_held_lot state l)

theorem stable_closingHeld (c state : SettlementEvent) (closures : List LotClosure) :
    ((converging lane).at j).Stable fun w =>
      Attempting lane j c state w ∧ ∀ d ∈ closures, HeldFor state.asset d.lot w :=
  (stable_attempting c state).and (.all fun d => .imp fun _ => stable_held_lot state d.lot)

/-- The row of the event under way, when its lots are still to project. -/
theorem Attempting.row {c state : SettlementEvent} {s : Store} {g : Ledger}
    (h : Attempting lane j c state (s, g)) (hs : Tracked s g) (hflag : state.lotProjected = false) :
    ∃ row ∈ s.settlements, row.toSettlementFacts = state.toSettlementFacts ∧
      lane row.settlementEventId = j ∧ row.holdingProjected = false := by
  obtain ⟨hattempt, row, hrow, hfacts, hprogress⟩ := h
  refine ⟨row, hrow, hfacts, hattempt.lane_row hfacts, hs.unprojected hrow ?_⟩
  rw [hprogress]
  exact hflag

theorem Attempting.of_eq {c state : SettlementEvent} {w w' : Store × Ledger}
    (h : Attempting lane j c state w) (heq : w'.1.settlements = w.1.settlements) :
    Attempting lane j c state w' := by
  obtain ⟨hattempt, row, hrow, hrest⟩ := h
  exact ⟨hattempt, row, heq ▸ hrow, hrest⟩

theorem holds_knownHeld (c state : SettlementEvent) (hflag : state.lotProjected = false) :
    (knownHeld lane j c state).Holds ((converging lane).at j) state where
  read := by
    refine Sat.bind_of (Q := fun lots w => Attempting lane j c state w ∧
      ∀ l ∈ lots, HeldFor state.asset l w) (Sat.perform (fun lots => stable_heldFor c state lots)
        (stable_attempting c state) (fun _ _ _ hk => hk) fun i w r w' hs hk hc hx => ?_) fun lots => ?_
    · obtain ⟨s, g⟩ := w
      have hx : (system.track note).exec _ i (s, g) = .ok (r, w') := hx
      obtain ⟨hs', hsame⟩ := quiet_step hs hx hc.2 (by simp [Op.writes])
      refine ⟨hs', hsame fun id => lane id ≠ j,
        stable_attempting c state _ w' hs hs' hk (hsame fun id => lane id = j), fun l hl => ?_⟩
      obtain ⟨hget, -⟩ := System.track_exec_ok.1 hx
      obtain ⟨rfl, -⟩ : s.lotsByAsset state.asset = r ∧ s = w'.1 := by
        simpa [system, exec] using hget
      obtain ⟨hlot, hkey⟩ := Store.mem_lotsByAsset.1 hl
      have hheld : HeldFor state.asset l (s, g) := ⟨l, hlot, rfl, hkey⟩
      exact hheld.of_untouched (hsame fun _ => True)
    · have hreads : (perform .convertedLots).Uses (Op.WritesIn []) :=
        (Prog.uses_perform _).2 (.of_none rfl)
      refine Sat.bind_of ((sat_quiet (stable_heldFor c state lots) hreads (by simp)).mono
        (fun _ _ hk => hk) (fun _ _ _ hk => hk) fun _ _ _ hk => hk.1) fun ids => ?_
      exact fun w _ hk => ⟨hk.1, fun l hl => hk.2 l (List.mem_filter.1 hl).1⟩
  planned lots plan w _ hseen hplan := by
    refine ⟨hseen.1, fun d hd => ?_⟩
    obtain ⟨hmem, -⟩ := planSignedLotFill_closure hplan.1 hd
    exact hseen.2 d.lot hmem
  close lots plan d ds hplan := by
    refine Sat.perform (fun _ => stable_closingHeld c state ds) (stable_closingHeld c state (d :: ds))
      (fun _ _ _ hk => hk.1) fun i w r w' hs hk _ hx => ?_
    obtain ⟨s, g⟩ := w
    obtain ⟨s', g'⟩ := w'
    obtain ⟨hattempting, hheld⟩ := hk
    obtain ⟨hx, hg⟩ := System.track_exec_ok.1 hx
    rcases closeLot_ok hx with ⟨hget, -, rfl⟩ | ⟨current, lot, hget, hlot, -, rfl⟩
    · simp only [note, hget, Option.isSome_none, Bool.false_eq_true, if_false] at hg
      subst hg
      exact ⟨hs, Untouched.refl (fun id => lane id ≠ j) _, hattempting,
        fun d' hd' => hheld d' (List.mem_cons_of_mem d hd')⟩
    · simp only [note, hget, Option.isSome_some, if_true] at hg
      subst hg
      obtain ⟨hcur, hid⟩ := Table.get?_eq_some_iff.1 hget
      obtain ⟨row, hrow, hfacts, hown, hopen⟩ := hattempting.row hs hflag
      have hkey : assetIdentityKey current.asset = assetIdentityKey state.asset := by
        obtain ⟨l', hl', hlid, hkey⟩ := hheld d List.mem_cons_self
        rw [← Table.eq_of_recordId hl' hcur (hlid.trans hid.symm)]
        exact hkey
      have hfill : row.fillId = state.fillId := congrArg (·.fillId) hfacts
      -- the lot changes, and the event of this lane owes the holding from now on
      have hmove : ∀ mine : String → Prop, ¬ mine row.settlementEventId →
          Untouched mine (s, g) ({ s with positionLots := s.positionLots.put lot },
            Function.update g (assetIdentityKey state.asset) (some state.fillId)) := by
        rw [← hfill]
        intro mine hmine
        refine Untouched.changeLots hrow hmine rfl fun l hl => ?_
        have hf := PositionLot.make_eq_ok_iff.1 hlot
        have horig : lot.originatingFillId = current.originatingFillId :=
          congrArg (·.originatingFillId) hf
        have hlid : lot.lotId = current.lotId := congrArg (·.lotId) hf
        by_cases hsame : SameKeys l lot
        · have hl' : l = current := Table.eq_of_recordId hl hcur (hsame.1.trans hlid)
          subst hl'
          exact ⟨lot, Table.mem_put_self hl ⟨hlid.symm, congrArg some horig.symm⟩, hlid,
            congrArg (·.asset) hf⟩
        · exact ⟨l, Table.mem_put_of_not_sameKeys hl hsame, rfl, rfl⟩
      refine ⟨hs.closeLot hcur hkey hlot hrow hfacts hopen,
        hmove (fun id => lane id ≠ j) (by simpa using hown), hattempting.of_eq rfl, fun d' hd' => ?_⟩
      exact (hheld d' (List.mem_cons_of_mem d hd')).of_untouched
        (hmove (fun _ => False) (by simp))
  owe lots plan b _ _ _ :=
    (sat_quiet (stable_attempting c state) (uses_performWrite rfl) (by simp)).mono
      (fun _ _ hk => hk.1) (fun _ _ _ hk => hk) fun _ _ _ hk => hk
  mixed lots plan _ :=
    (sat_quiet (stable_attempting c state) (uses_mixedLotOrigin state) (by simp)).mono
      (fun _ _ hk => hk.1) (fun _ _ _ hk => hk) fun _ _ _ hk => hk
  name lots plan := by
    have hreads : (perform .uuid4).Uses (Op.WritesIn []) :=
      (Prog.uses_perform _).2 (.of_none rfl)
    exact (sat_quiet (stable_closingHeld c state []) hreads (by simp)).mono
      (fun _ _ hk => hk) (fun _ _ _ hk => hk) fun _ _ _ hk => hk.1
  «open» lots plan lotId l _ _ hl := by
    refine Sat.perform (fun _ => stable_attempting c state) (stable_closingHeld c state [])
      (fun _ _ _ hk => hk.1) fun i w r w' hs hk _ hx => ?_
    obtain ⟨s, g⟩ := w
    obtain ⟨s', g'⟩ := w'
    obtain ⟨hattempting, -⟩ := hk
    obtain ⟨-, hfill, hasset, -⟩ := openedLot_ok hl
    obtain ⟨hx, hg⟩ := System.track_exec_ok.1 hx
    obtain ⟨-, -, hx⟩ := except_bind_eq_ok.1 hx
    cases hx
    by_cases hadmits : s.positionLots.Admits l
    · simp only [note, hadmits, if_true] at hg
      subst hg
      obtain ⟨row, hrow, hfacts, hown, hopen⟩ := hattempting.row hs hflag
      have hrowFill : row.fillId = l.originatingFillId :=
        (congrArg (·.fillId) hfacts).trans hfill.symm
      have hmove : Untouched (fun id => lane id ≠ j) (s, g)
          ({ s with positionLots := s.positionLots.createOnce l },
            Function.update g (assetIdentityKey l.asset) (some l.originatingFillId)) := by
        rw [← hrowFill]
        exact Untouched.changeLots hrow (by simpa using hown) rfl fun l' hl' =>
          ⟨l', Table.mem_createOnce_of_mem hl', rfl, rfl⟩
      exact ⟨hs.createLot hadmits hasset hfill hrow hfacts hopen, hmove, hattempting.of_eq rfl⟩
    · simp only [note, hadmits, if_false] at hg
      subst hg
      rw [Table.createOnce_of_not_admits hadmits]
      exact ⟨hs, Untouched.refl (fun id => lane id ≠ j) _, hattempting⟩
  seen_ended _ _ hk := hk.1
  closing_ended _ _ _ _ hk := hk.1

/-! ### Passes -/

/-- When an attempt has failed, its event has come no less far than it was claimed. -/
def Failed (lane : String → J) (j : J) (c : SettlementEvent) (w : Store × Ledger) : Prop :=
  (lane c.settlementEventId = j ∧ (c.holdingProjected = true → c.lotProjected = true)) ∧
    ∃ row ∈ w.1.settlements, row.toSettlementFacts = c.toSettlementFacts ∧
      (c.holdingProjected = true → row.holdingProjected = true)

theorem Attempting.failed {c state : SettlementEvent} {w : Store × Ledger}
    (h : Attempting lane j c state w) : Failed lane j c w := by
  obtain ⟨hattempt, row, hrow, hfacts, hprogress⟩ := h
  refine ⟨⟨hattempt.own, hattempt.ordered⟩, row, hrow, hfacts.trans hattempt.facts, fun hc => ?_⟩
  rw [hprogress]
  exact hattempt.projected hc

theorem stable_failed (c : SettlementEvent) :
    ((converging lane).at j).Stable (Failed lane j c) := by
  rintro w w' - - ⟨⟨hown, hordered⟩, row, hrow, hfacts, hrest⟩ hr
  have hid : row.settlementEventId = c.settlementEventId := congrArg (·.settlementEventId) hfacts
  exact ⟨⟨hown, hordered⟩, row, (hr.1 row hrow (hid ▸ hown)).1, hfacts, hrest⟩

/-- What is known during an attempt. -/
def knownAttempt (lane : String → J) (j : J) : PassKnowledge (Store × Ledger) where
  running := Attempting lane j
  staged c state st _ w := Attempting lane j c state w ∧ (st = .projectHolding → Paid state w)
  failed := Failed lane j

/-- Nothing is owed by an event whose holding is projected. -/
theorem Tracked.paid {s : Store} {g : Ledger} (h : Tracked s g) {row : SettlementEvent}
    (hrow : row ∈ s.settlements) (hdone : row.holdingProjected = true) (key : String) :
    g key ≠ some row.fillId := by
  intro hg
  have hopen := (h.owed_of_mem hrow hg).2
  rw [hdone] at hopen
  cases hopen

/-- **Writing an event**: the invariant, what others rely on, and the row that is kept. -/
theorem write_event {s : Store} {g : Ledger} (h : Tracked s g) {row event : SettlementEvent}
    (hrow : row ∈ s.settlements) (hfacts : event.toSettlementFacts = row.toSettlementFacts)
    (hown : lane row.settlementEventId = j)
    (hordered : event.holdingProjected = true → event.lotProjected = true)
    (hcompleted : event.status = .completed → event.holdingProjected = true)
    (hpaid : event.holdingProjected = true → ∀ key, g key ≠ some event.fillId) :
    Tracked { s with settlements := s.settlements.put event } g ∧
      Untouched (fun id => lane id ≠ j) (s, g)
        ({ s with settlements := s.settlements.put event }, g) ∧
      Kept event { s with settlements := s.settlements.put event } := by
  have hid : event.settlementEventId = row.settlementEventId :=
    congrArg (·.settlementEventId) hfacts
  refine ⟨h.putEvent hrow hfacts hordered hcompleted hpaid, .putEvent ?_, event, ?_, rfl, rfl⟩
  · rw [hid]
    simpa using hown
  · exact Table.mem_put_self hrow
      ⟨hid.symm, congrArg (fun f => some f.fillId) hfacts.symm⟩

/-- Everything that is done includes the holding. -/
theorem holdingProjected_of_allFlags {event : SettlementEvent} (h : allFlags event = true) :
    event.holdingProjected = true := by
  simp only [allFlags, settlementStages, List.all_cons, Bool.and_eq_true] at h
  exact h.2.2.2.1

/-- A checkpoint writes its event and nothing else; an event that is completed is done. -/
theorem sat_checkpoint {d : SettlementEvent} {K Q E : Store × Ledger → Prop}
    (hQ : ((converging lane).at j).Stable Q) (hK : ((converging lane).at j).Stable K)
    (hE : ∀ w, K w → E w)
    (hwrite : ∀ s g, Tracked s g → K (s, g) → (d.status = .completed → allFlags d = true) →
      Tracked { s with settlements := s.settlements.put d } g ∧
        Untouched (fun id => lane id ≠ j) (s, g)
          ({ s with settlements := s.settlements.put d }, g) ∧
        Q ({ s with settlements := s.settlements.put d }, g)) :
    Sat ((converging lane).at j) (perform (.checkpoint d)) K (fun _ => Q) (fun _ => E) := by
  refine Sat.perform (fun _ => hQ) hK (fun _ _ _ hk => hE _ hk) fun i w r w' hs hk _ hx => ?_
  obtain ⟨s, g⟩ := w
  obtain ⟨s', g'⟩ := w'
  obtain ⟨hx, hg⟩ := System.track_exec_ok.1 hx
  obtain rfl : g' = g := hg
  obtain ⟨hall, -, rfl⟩ := checkpoint_ok hx
  exact hwrite s g' hs hk hall

theorem holds_knownAttempt : (knownAttempt lane j).Holds ((converging lane).at j) where
  quiet o ho := (sat_quiet (.const True) ((Prog.uses_perform o).2 ho) (by simp)).mono
    (fun _ _ h => h) (fun _ _ _ _ => trivial) fun _ _ _ _ => trivial
  claim id now stale force := by
    refine Sat.perform (fun r => .all fun c => .imp fun _ => stable_attempting c c) (.const True)
      (fun _ _ _ _ => trivial) fun i w r w' hs _ hc hx => ?_
    obtain ⟨s, g⟩ := w
    obtain ⟨s', g'⟩ := w'
    obtain ⟨hx, hg⟩ := System.track_exec_ok.1 hx
    obtain rfl : g' = g := hg
    rcases claimIfProcessable_ok hx with ⟨rfl, rfl⟩ | ⟨current, c, hget, hdue, hf, rfl, rfl⟩
    · exact ⟨hs, Untouched.refl (fun id => lane id ≠ j) _, by simp⟩
    · obtain ⟨hrow, hid⟩ := Table.get?_eq_some_iff.1 hget
      have hid : current.settlementEventId = id := hid
      have hfacts : c.toSettlementFacts = current.toSettlementFacts :=
        congrArg (·.toSettlementFacts) hf
      have hprogress : c.toSettlementProgress = current.toSettlementProgress :=
        congrArg (·.toSettlementProgress) hf
      have hholding : c.holdingProjected = current.holdingProjected :=
        congrArg (·.holdingProjected) hprogress
      have hlot : c.lotProjected = current.lotProjected := congrArg (·.lotProjected) hprogress
      have hstatus : c.status = .processing := congrArg (·.status) hf
      have hown : lane current.settlementEventId = j := by
        rw [hid]
        exact hc.1 current hrow hid hdue
      have hordered : c.holdingProjected = true → c.lotProjected = true := by
        rw [hholding, hlot]
        exact hs.ordered current hrow
      obtain ⟨hs', hmove, hkept⟩ := write_event hs hrow hfacts hown hordered
        (fun hdone => by rw [hstatus] at hdone; cases hdone)
        (fun hdone key => by
          rw [show c.fillId = current.fillId from congrArg (·.fillId) hfacts]
          exact hs.paid hrow (hholding ▸ hdone) key)
      refine ⟨hs', hmove, ?_⟩
      rintro c' hc'
      cases hc'
      refine ⟨⟨?_, rfl, fun h => h, hordered⟩, hkept⟩
      rw [show c.settlementEventId = current.settlementEventId from
        congrArg (·.settlementEventId) hfacts]
      exact hown
  verify c := by
    have hreads : (verifyIntegrity c false).Uses (Op.WritesIn []) := uses_verifyIntegrity c false
    exact (sat_quiet (stable_attempting c c) hreads (by simp)).mono (fun _ _ hk => hk)
      (fun _ _ _ hk => hk) fun _ _ _ hk => hk.failed
  stage c state st hflag _ := by
    have quiet : st ≠ .projectHolding → (∀ part ∈ tracked, part ∉ stageWrites st) →
        Sat ((converging lane).at j) (handlers st state) (Attempting lane j c state)
          (fun _ w => Attempting lane j c state w ∧ (st = .projectHolding → Paid state w))
          (fun _ => Failed lane j c) := fun hst hparts =>
      (sat_quiet (stable_attempting c state) (uses_handlers st state) hparts).mono
        (fun _ _ hk => hk) (fun _ _ _ hk => ⟨hk, fun h => absurd h hst⟩) fun _ _ _ hk => hk.failed
    cases st with
    | projectLot =>
        exact (holds_knownHeld c state hflag).projectLot.mono (fun _ _ hk => hk)
          (fun _ _ _ hk => ⟨hk, nofun⟩) fun _ _ _ hk => Attempting.failed hk
    | projectHolding =>
        refine Sat.bind_of ((sat_projectHolding c state).mono (fun _ _ hk => hk)
          (fun _ _ _ hk => hk) fun _ _ _ hk => hk.failed) fun _ => ?_
        exact fun w _ hk => ⟨hk.1, fun _ => hk.2⟩
    | projectAttribution => exact quiet (by decide) (by decide)
    | projectCash => exact quiet (by decide) (by decide)
    | projectTrade => exact quiet (by decide) (by decide)
    | verifyIntegrity => exact quiet (by decide) (by decide)
    | projectLiabilityHold => exact quiet (by decide) (by decide)
  mark c state st r state' hflag hbefore hstate' := by
    have hfacts : state'.toSettlementFacts = state.toSettlementFacts :=
      congrArg (·.toSettlementFacts) hstate'
    have hflags : ∀ st', state'.flag st' = (decide (st' = st) || state.flag st') :=
      PassKnowledge.flag_afterStage hstate'
    have hholding : state'.holdingProjected
        = (decide (Stage.projectHolding = st) || state.holdingProjected) := hflags .projectHolding
    have hlot : state'.lotProjected = (decide (Stage.projectLot = st) || state.lotProjected) :=
      hflags .projectLot
    refine sat_checkpoint (stable_attempting c state')
      (K := fun w => Attempting lane j c state w ∧ (st = .projectHolding → Paid state w)) ?_
      (fun _ hk => hk.1.failed) fun s g hs hk hall => ?_
    · rintro w w' hs hs' ⟨hk, hpaid⟩ hr
      exact ⟨stable_attempting c state w w' hs hs' hk hr, fun hst =>
        (stable_paid c state w w' hs hs' ⟨hk, hpaid hst⟩ hr).2⟩
    obtain ⟨⟨hattempt, row, hrow, hrf, hprogress⟩, hpaid⟩ := hk
    have hrowHolding : row.holdingProjected = state.holdingProjected :=
      congrArg (·.holdingProjected) hprogress
    have hrowLot : row.lotProjected = state.lotProjected := congrArg (·.lotProjected) hprogress
    have hboth : state'.toSettlementFacts = row.toSettlementFacts := hfacts.trans hrf.symm
    have hordered : state'.holdingProjected = true → state'.lotProjected = true := by
      intro hdone
      rw [hlot]
      by_cases hst : st = .projectHolding
      · -- the holding stage comes after the first one
        have hfirst : state.lotProjected = true := by
          subst hst
          exact hbefore .projectLot (by decide)
        rw [hfirst, Bool.or_true]
      · rw [hholding, decide_eq_false (Ne.symm hst), Bool.false_or, ← hrowHolding] at hdone
        rw [← hrowLot, hs.ordered row hrow hdone, Bool.or_true]
    have hnone : state'.holdingProjected = true → ∀ key, g key ≠ some state'.fillId := by
      intro hdone key
      rw [show state'.fillId = row.fillId from congrArg (·.fillId) hboth]
      by_cases hst : st = .projectHolding
      · intro hg
        have hkey := (hs.owed_of_mem hrow hg).1
        refine hpaid hst ?_
        rw [← show row.asset = state.asset from congrArg (·.asset) hrf, hkey]
        exact hg.trans (congrArg (fun f => some f.fillId) hrf)
      · rw [hholding, decide_eq_false (Ne.symm hst), Bool.false_or, ← hrowHolding] at hdone
        exact hs.paid hrow hdone key
    obtain ⟨hs', hmove, hkept⟩ := write_event hs hrow hboth (hattempt.lane_row hrf) hordered
      (fun hc => holdingProjected_of_allFlags (hall hc)) hnone
    refine ⟨hs', hmove, ⟨hattempt.own, hfacts.trans hattempt.facts, fun hc => ?_,
      hattempt.ordered⟩, hkept⟩
    rw [hholding, hattempt.projected hc, Bool.or_true]
  done c state d hd := by
    have hf := SettlementEvent.make_eq_ok_iff.1 hd
    have hfacts : d.toSettlementFacts = state.toSettlementFacts := congrArg (·.toSettlementFacts) hf
    have hprogress : d.toSettlementProgress = state.toSettlementProgress :=
      congrArg (·.toSettlementProgress) hf
    refine sat_checkpoint (.const True) (stable_attempting c state) (fun _ hk => hk.failed)
      fun s g hs hk hall => ?_
    obtain ⟨hattempt, row, hrow, hrf, hrp⟩ := hk
    have hboth : d.toSettlementFacts = row.toSettlementFacts := hfacts.trans hrf.symm
    have hsame : d.toSettlementProgress = row.toSettlementProgress := hprogress.trans hrp.symm
    have hholding : d.holdingProjected = row.holdingProjected :=
      congrArg (·.holdingProjected) hsame
    have hlot : d.lotProjected = row.lotProjected := congrArg (·.lotProjected) hsame
    obtain ⟨hs', hmove, -⟩ := write_event hs hrow hboth (hattempt.lane_row hrf)
      (by rw [hholding, hlot]; exact hs.ordered row hrow)
      (fun hc => holdingProjected_of_allFlags (hall hc)) fun hdone key => by
        rw [show d.fillId = row.fillId from congrArg (·.fillId) hboth]
        exact hs.paid hrow (hholding ▸ hdone) key
    exact ⟨hs', hmove, trivial⟩
  fail c failure d hfailure hd := by
    have hf := SettlementEvent.make_eq_ok_iff.1 hd
    have hfacts : d.toSettlementFacts = c.toSettlementFacts := congrArg (·.toSettlementFacts) hf
    have hstatus : d.status = failure.status := congrArg (·.status) hf
    have hholding : d.holdingProjected = c.holdingProjected := congrArg (·.holdingProjected) hf
    have hlot : d.lotProjected = c.lotProjected := congrArg (·.lotProjected) hf
    refine sat_checkpoint (.const True) (stable_failed c) (fun _ _ => trivial)
      fun s g hs hk _ => ?_
    obtain ⟨⟨hown, hordered⟩, row, hrow, hrf, hrest⟩ := hk
    have hboth : d.toSettlementFacts = row.toSettlementFacts := hfacts.trans hrf.symm
    have hid : row.settlementEventId = c.settlementEventId := congrArg (·.settlementEventId) hrf
    obtain ⟨hs', hmove, -⟩ := write_event hs hrow hboth (hid ▸ hown)
      (by rw [hholding, hlot]; exact hordered)
      (fun hc => by
        rw [hstatus] at hc
        rcases hfailure with h | h | h <;> rw [h] at hc <;> cases hc)
      fun hdone key => by
        rw [show d.fillId = row.fillId from congrArg (·.fillId) hboth]
        exact hs.paid hrow (hrest (hholding ▸ hdone)) key
    exact ⟨hs', hmove, trivial⟩
  running_failed _ _ _ hk := hk.failed
  staged_failed _ _ _ _ _ hk := hk.1.failed

/-! ### Runs -/

/-- The rest of the program changes neither lots nor holdings, and only adds events. -/
theorem tracked_external {t : External} {s s' : Store} {g : Ledger} (h : Tracked s g)
    (ht : external t s = some s') :
    Tracked s' g ∧ ∀ mine, Untouched mine (s, g) (s', g) := by
  have keep : s'.positionLots = s.positionLots → s'.convertedLots = s.convertedLots →
      s'.holdings = s.holdings → (∀ e ∈ s'.settlements, e ∈ s.settlements ∨
        (e.status = .pending ∧ e.toSettlementProgress = {})) →
      Tracked s' g ∧ ∀ mine, Untouched mine (s, g) (s', g) := by
    intro hlots hconv hholdings hevents
    refine ⟨⟨fun key hg => ?_, fun key f hg => ?_, fun e he hdone => ?_, fun e he hdone => ?_⟩,
      fun mine => ⟨fun e he _ => ⟨mem_settlements_of_external ht e he, fun _ h => h⟩, ?_⟩⟩
    · refine (h.agrees key hg).congr (by rw [hholdings]) ?_
      unfold openLotsAt
      rw [hlots, hconv]
    · obtain ⟨hwrote, e, he, hrest⟩ := h.owed key f hg
      refine ⟨?_, e, mem_settlements_of_external ht e he, hrest⟩
      unfold WroteLots at hwrote ⊢
      rw [hlots]
      exact hwrote
    · rcases hevents e he with he | ⟨-, hprogress⟩
      · exact h.ordered e he hdone
      · rw [hprogress] at hdone
        cases hdone
    · rcases hevents e he with he | ⟨hstatus, -⟩
      · exact h.completed e he hdone
      · rw [hstatus] at hdone
        cases hdone
    · intro l hl
      exact ⟨l, hlots ▸ hl, rfl, rfl⟩
  cases t with
  | recordFill fill =>
      cases ht
      exact keep rfl rfl rfl fun e he => .inl he
  | elsewhere t =>
      cases ht
      exact keep rfl rfl rfl fun e he => .inl he
  | recordSettlement event =>
      simp only [external, Option.ite_none_right_eq_some] at ht
      obtain ⟨⟨⟨f, -, hevent⟩, -⟩, hs'⟩ := ht
      cases hs'
      refine keep rfl rfl rfl fun e he => ?_
      rcases Table.mem_createOnce.1 he with he | ⟨-, rfl⟩
      · exact .inl he
      · exact .inr ⟨hevent.2.2.2.2.2.2.2.2.2.2.2.1, hevent.2.2.2.2.2.2.2.2.2.2.2.2⟩

theorem sound_converging [DecidableEq J] (lane : String → J) :
    Lanes.Sound (system.track note) (converging lane) where
  exec := rfl
  guar i j hne w w' _ _ hg := by
    refine ⟨fun e he hown => hg.1 e he ?_, hg.2⟩
    have hown : lane e.settlementEventId = j := hown
    intro hother
    exact hne (hother.symm.trans hown)
  env t w w' hs ht := by
    simp only [System.track, Option.map_eq_some_iff] at ht
    obtain ⟨s', ht, rfl⟩ := ht
    obtain ⟨hs', hsame⟩ := tracked_external hs ht
    exact ⟨hs', fun j => hsame fun id => lane id = j⟩
  call j args w _ := known_of_safe (holds_knownAttempt.processPending args) w

def passes (J : Type) [DecidableEq J] :
    Machine (Lanes J Store Raised Op.Res) (LaneAct J Outside Raised PassArgs External) :=
  Lanes.machine system

/-- The second lane settles the event of the second purchase. -/
def ofSecond (id : String) : Bool := id == "settlement-b2"

/-- The actions of a lane. -/
def goOnIn (j : Bool) (n : ℕ) (i : Outside) :
    List (LaneAct Bool Outside Raised PassArgs External) :=
  List.replicate n (.run j i)

/-- What arrives, for lanes. -/
def arrivalIn (actions : List Action) : List (LaneAct Bool Outside Raised PassArgs External) :=
  actions.filterMap fun a => match a with
    | .env t => some (.env t)
    | _ => none

/-- Both lanes have claimed their event, and the second one is about to project its lot. -/
def bothClaimed : List (LaneAct Bool Outside Raised PassArgs External) :=
  List.flatten
    [ arrivalIn (ordered [execution "b1" .buy 4 10 0, execution "b2" .buy 2 13 0] ::
        arrival (execution "b1" .buy 4 10 0)),
      [.start false {}], goOnIn false 4 { now := 1 },
      arrivalIn (arrival (execution "b2" .buy 2 13 0)),
      [.start true {}], goOnIn true 10 { now := 2 } ]

end Settlement

end TradePulse
