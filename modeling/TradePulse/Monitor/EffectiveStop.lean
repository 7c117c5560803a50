/-
**The effective stop of a holding.**

A holding carries two protective stops: the one that the entry behind its oldest lot chose, which
settlement sources anew with every execution, and the live one, which only the monitor raises and
which settlement carries over as it is.  Where the live stop is set it is the one that counts, on
the ground that it is at least as tight as the other.  That is so as long as every write finds it
so: settlement does not ask whether the entry that governs from now on chose a higher stop, and the
monitor starts from the average price, which may lie below the governing stop.

Main definitions:

* `entryStop`, `governingStop` — the stop of the entry behind a lot, and behind the oldest one;
* `SameEntries` — two stores with the same lots, up to price extremes, and the same entry stops;
* `NotLoosened`, `Unraised` — the conditions on the writes of settlement and of the monitor;
* `guarded` — settlement passes one after the other, beside any number of monitor jobs.

Main results:

* `sat_projectHolding` — settlement writes the stop of the governing entry;
* `stop_never_loosens` — **as long as every write meets its condition, the live stop is not below
  the governing one**;
* `stop_loosened` — a sale of the first entry loosens the stop.
-/

import TradePulse.Monitor.Coordinator
import TradePulse.Process.Lanes
import TradePulse.Process.Parallel
import TradePulse.Settlement.BareLots
import TradePulse.Settlement.Resuming
import TradePulse.Settlement.Runs

set_option autoImplicit false

namespace TradePulse

namespace Monitor

open Process Storage Settlement Record

/-! ### The governing stop -/

/-- The stop that the entry behind a lot chose. -/
def entryStop (s : Store) (lot : PositionLot) : Option ℚ :=
  if lot.origin = .adopted then (adoptionForLot s lot).toOption.map fun a => a.stopLoss
  else (s.fills.get? lot.originatingFillId).bind fun fill =>
    (s.tradeIntents.get? fill.tradeIntentId).bind fun intent => intent.stopLoss

/-- The stop of the entry behind the oldest open lot of an instrument. -/
def governingStop (s : Store) (asset : AssetIdentity) : Option ℚ :=
  (oldestLot ((visibleLots s asset).filter fun l => l.isOpen)).bind (entryStop s)

/-- The entries that are on record keep their stops. -/
def StopsKept (s s' : Store) : Prop :=
  (∀ t ∈ s.tradeIntents.rows,
      (s'.tradeIntents.get? t.tradeIntentId).map (·.stopLoss) = some t.stopLoss) ∧
    ∀ a ∈ s.positionAdoptions.rows,
      (s'.positionAdoptions.get? a.adoptionId).map (·.stopLoss) = some a.stopLoss

instance (s s' : Store) : Decidable (StopsKept s s') := inferInstanceAs (Decidable (_ ∧ _))

/-- The same lots, up to price extremes, and the same entry stops. -/
structure SameEntries (s s' : Store) : Prop where
  lots : s'.positionLots.rows.map PositionLot.bare = s.positionLots.rows.map PositionLot.bare
  converted : s'.convertedLots = s.convertedLots
  fills : ∀ f ∈ s.fills, f ∈ s'.fills
  stops : StopsKept s s'

theorem StopsKept.of_eq {s s' : Store} (hintents : s'.tradeIntents = s.tradeIntents)
    (hadoptions : s'.positionAdoptions = s.positionAdoptions) : StopsKept s s' := by
  constructor
  · intro t ht
    have hget : s.tradeIntents.get? t.tradeIntentId = some t :=
      Table.get?_eq_some_iff.2 ⟨ht, rfl⟩
    rw [hintents, hget]
    rfl
  · intro a ha
    have hget : s.positionAdoptions.get? a.adoptionId = some a :=
      Table.get?_eq_some_iff.2 ⟨ha, rfl⟩
    rw [hadoptions, hget]
    rfl

theorem SameEntries.of_eq {s s' : Store} (hlots : s'.positionLots = s.positionLots)
    (hconverted : s'.convertedLots = s.convertedLots) (hfills : s'.fills = s.fills)
    (hintents : s'.tradeIntents = s.tradeIntents)
    (hadoptions : s'.positionAdoptions = s.positionAdoptions) : SameEntries s s' where
  lots := by rw [hlots]
  converted := hconverted
  fills := by
    intro f hf
    rw [hfills]
    exact hf
  stops := .of_eq hintents hadoptions

section Governing

variable {s s' : Store} {asset : AssetIdentity} {stop : ℚ}

theorem lotsByAsset_bare (s : Store) (asset : AssetIdentity) :
    (s.lotsByAsset asset).map PositionLot.bare
      = (s.positionLots.rows.map PositionLot.bare).filter fun l =>
          decide (assetIdentityKey l.asset = assetIdentityKey asset) := by
  unfold Store.lotsByAsset
  rw [List.filter_map]
  rfl

theorem SameEntries.lotsByAsset (h : SameEntries s s') (asset : AssetIdentity) :
    (s'.lotsByAsset asset).map PositionLot.bare = (s.lotsByAsset asset).map PositionLot.bare := by
  rw [lotsByAsset_bare, lotsByAsset_bare, h.lots]

theorem filter_bare (converted : List String) (lots : List PositionLot) :
    (lots.filter fun l => !converted.contains l.lotId).map PositionLot.bare
      = (lots.map PositionLot.bare).filter fun l => !converted.contains l.lotId := by
  rw [List.filter_map]
  rfl

theorem SameEntries.visibleLots (h : SameEntries s s') (asset : AssetIdentity) :
    (visibleLots s' asset).map PositionLot.bare = (visibleLots s asset).map PositionLot.bare := by
  unfold Settlement.visibleLots
  rw [filter_bare, filter_bare, h.lotsByAsset, h.converted]

/-- The oldest lot is the same whatever prices were seen. -/
theorem oldestLot_bare (lots : List PositionLot) :
    oldestLot (lots.map PositionLot.bare) = (oldestLot lots).map PositionLot.bare := by
  cases lots with
  | nil => rfl
  | cons l ls =>
      simp only [List.map_cons, oldestLot, Option.map_some, Option.some.injEq]
      induction ls generalizing l with
      | nil => rfl
      | cons x xs ih =>
          simp only [List.map_cons, List.foldl_cons, PositionLot.bare_openedAt]
          rw [← ih]
          by_cases hx : x.openedAt < l.openedAt <;> simp [hx]

/-- The entry behind a lot does not depend on the prices that were seen, and keeps its stop. -/
theorem SameEntries.entryStop (h : SameEntries s s') {l l' : PositionLot}
    (hbare : l'.bare = l.bare) (hstop : entryStop s l = some stop) :
    entryStop s' l' = some stop := by
  have horigin := PositionLot.eq_of_bare PositionLot.origin (fun _ => rfl) hbare
  have horig := PositionLot.eq_of_bare (fun x => x.originatingFillId) (fun _ => rfl) hbare
  have hadoption := PositionLot.eq_of_bare PositionLot.adoptionId (fun _ => rfl) hbare
  unfold Monitor.entryStop at hstop ⊢
  rw [horigin, horig]
  -- an adopted lot has the stop of its adoption, another that of its intent
  split at hstop
  · rename_i hadopted
    rw [if_pos hadopted]
    unfold adoptionForLot at hstop ⊢
    rw [hadoption]
    cases hid : l.adoptionId with
    | none =>
        rw [hid] at hstop
        cases hstop
    | some id =>
        rw [hid] at hstop
        cases hget : s.positionAdoptions.get? id with
        | none =>
            simp only [hget] at hstop
            cases hstop
        | some a =>
            simp only [hget] at hstop
            obtain ⟨hmem, hkey⟩ := Table.get?_eq_some_iff.1 hget
            obtain ⟨a', ha', hsame⟩ := Option.map_eq_some_iff.1 (h.stops.2 a hmem)
            have hid' : a.adoptionId = id := hkey
            rw [hid'] at ha'
            simp only [ha']
            have hvalue : a.stopLoss = stop := Option.some.inj hstop
            exact congrArg some (hsame.trans hvalue)
  · rename_i hfilled
    rw [if_neg hfilled]
    obtain ⟨fill, hfill, hintent⟩ := Option.bind_eq_some_iff.1 hstop
    obtain ⟨intent, hget, hvalue⟩ := Option.bind_eq_some_iff.1 hintent
    obtain ⟨hmem, hkey⟩ := Table.get?_eq_some_iff.1 hfill
    obtain ⟨hmemIntent, hkeyIntent⟩ := Table.get?_eq_some_iff.1 hget
    have hid : intent.tradeIntentId = fill.tradeIntentId := hkeyIntent
    obtain ⟨intent', hintent', hsame⟩ :=
      Option.map_eq_some_iff.1 (h.stops.1 intent hmemIntent)
    rw [hid] at hintent'
    rw [Table.get?_eq_some_iff.2 ⟨h.fills fill hmem, hkey⟩, Option.bind_some, hintent',
      Option.bind_some, hsame, hvalue]

/-- The stop of the governing entry, from lots that agree with those on record up to prices. -/
theorem governingStop_of_bare {lots : List PositionLot} {oldest : PositionLot}
    (hlots : (Settlement.visibleLots s asset).map PositionLot.bare = lots.map PositionLot.bare)
    (holdest : oldestLot (lots.filter fun l => l.isOpen) = some oldest)
    (hstop : Monitor.entryStop s oldest = some stop) : governingStop s asset = some stop := by
  have hopen : ∀ xs : List PositionLot, (xs.filter fun l => l.isOpen).map PositionLot.bare
      = (xs.map PositionLot.bare).filter fun l => l.isOpen := by
    intro xs
    rw [List.filter_map]
    rfl
  have hbare : (oldestLot ((Settlement.visibleLots s asset).filter fun l => l.isOpen)).map
      PositionLot.bare = some oldest.bare := by
    rw [← oldestLot_bare, hopen, hlots, ← hopen, oldestLot_bare, holdest]
    rfl
  obtain ⟨l, hl, hsame⟩ := Option.map_eq_some_iff.1 hbare
  unfold governingStop
  rw [hl, Option.bind_some]
  exact SameEntries.entryStop (.of_eq rfl rfl rfl rfl rfl) hsame hstop

theorem SameEntries.governingStop (h : SameEntries s s')
    (hstop : governingStop s asset = some stop) : governingStop s' asset = some stop := by
  obtain ⟨l, hl, hentry⟩ := Option.bind_eq_some_iff.1 hstop
  exact governingStop_of_bare (h.visibleLots asset) hl (h.entryStop rfl hentry)

end Governing

/-! ### The effective stop -/

/-- The stop that counts: the live one where it is set. -/
def effectiveStop (holding : Holding) : Option ℚ :=
  match holding.currentStop with
  | some live => some live
  | none => holding.stopLoss

/-- `_breached`: the broker's price of a position has passed a protective level of its holding. -/
def breached (qty currentPrice : ℚ) (holding : Holding) : Bool :=
  let stop := effectiveStop holding
  let target := holding.targetPrice
  if 0 < qty then
    (stop.any fun level => decide (currentPrice ≤ level))
      || target.any fun level => decide (level ≤ currentPrice)
  else
    (stop.any fun level => decide (level ≤ currentPrice))
      || target.any fun level => decide (currentPrice ≤ level)

/-- With a live stop that is at least as tight, every price at which the governing stop would have
sold a long position sells it. -/
theorem breached_of_le {holding : Holding} {stop live qty price : ℚ} (hqty : 0 < qty)
    (hlive : holding.currentStop = some live) (hle : stop ≤ live) (hprice : price ≤ stop) :
    breached qty price holding = true := by
  have heffective : effectiveStop holding = some live := by
    unfold effectiveStop
    rw [hlive]
  unfold breached
  dsimp only
  rw [if_pos hqty, heffective, Option.any_some, decide_eq_true (hprice.trans hle), Bool.true_or]

/-! ### The writes and their conditions -/

/-- Where both stops of a long holding are set, the live one is not the lower one. -/
def Tight (s : Store) : Prop :=
  ∀ h ∈ s.holdings, 0 < h.quantity → ∀ stop ∈ h.stopLoss, ∀ live ∈ h.currentStop, stop ≤ live

/-- Settlement projects a holding anew: the entry that governs now did not choose a higher stop than
the live one that is carried over. -/
def NotLoosened : Settlement.Op → Settlement.Outside → Store → Prop
  | .mutateHolding _ holding _, _, s =>
      ∀ row ∈ s.holdings.get? (holdingRecordId holding.asset),
        ∀ stop ∈ governingStop s holding.asset, ∀ live ∈ row.currentStop, stop ≤ live
  | _, _, _ => True

instance (o : Settlement.Op) (i : Settlement.Outside) (s : Store) :
    Decidable (NotLoosened o i s) := by
  apply Settlement.Op.casesOn (motive := fun o => Decidable (NotLoosened o i s)) o
  case mutateHolding =>
    intro openLots holding guardKey
    exact inferInstanceAs (Decidable (∀ row ∈ s.holdings.get? (holdingRecordId holding.asset),
      ∀ stop ∈ governingStop s holding.asset, ∀ live ∈ row.currentStop, stop ≤ live))
  all_goals
    intros
    exact isTrue trivial

/-- The monitor sets a long holding's first live stop while its stop is not above the average price:
the one in the holding that a ratchet was handed, which was long then, and the one in the row that
is marked. -/
def Unraised : Op → Outside → Store → Prop
  | .ratchet recordId averagePrice isLong _, _, s =>
      ∀ row ∈ s.holdings.get? recordId, 0 < row.quantity → ∀ stop ∈ row.stopLoss,
        isLong = true ∧ (row.currentStop = none → stop ≤ averagePrice)
  | .mark recordId, _, s =>
      ∀ row ∈ s.holdings.get? recordId, 0 < row.quantity → row.scaledOut = false →
        row.currentStop = none → ∀ stop ∈ row.stopLoss, stop ≤ row.averagePrice
  | _, _, _ => True

instance (o : Op) (i : Outside) (s : Store) : Decidable (Unraised o i s) := by
  apply Op.casesOn (motive := fun o => Decidable (Unraised o i s)) o
  case ratchet =>
    intro recordId averagePrice isLong candidate
    exact inferInstanceAs (Decidable (∀ row ∈ s.holdings.get? recordId, 0 < row.quantity →
      ∀ stop ∈ row.stopLoss, isLong = true ∧ (row.currentStop = none → stop ≤ averagePrice)))
  case mark =>
    intro recordId
    exact inferInstanceAs (Decidable (∀ row ∈ s.holdings.get? recordId, 0 < row.quantity →
      row.scaledOut = false → row.currentStop = none → ∀ stop ∈ row.stopLoss,
        stop ≤ row.averagePrice))
  all_goals
    intros
    exact isTrue trivial

theorem Tight.put {s : Store} (h : Tight s) {row : Holding}
    (hrow : 0 < row.quantity → ∀ stop ∈ row.stopLoss, ∀ live ∈ row.currentStop, stop ≤ live) :
    Tight { s with holdings := s.holdings.put row } := by
  intro x hx
  rcases Table.mem_put_imp hx with rfl | hx
  · exact hrow
  · exact h x hx

/-! ### Settlement -/

/-- The setting of a pass: monitor jobs and the rest of the program keep the entries. -/
def projecting : Setting Store Settlement.Outside Raised Settlement.Op.Res where
  exec := Settlement.exec
  inv := Tight
  rely := SameEntries
  cond := NotLoosened
  guar _ _ _ := True

section Pass

variable {α : Type} {event : SettlementEvent}

theorem sat_elsewhere {p : Settle α} {parts : List Part}
    (hp : p.Uses (Settlement.Op.WritesIn parts)) (hparts : Part.holdings ∉ parts) :
    Safe projecting p := by
  induction p with
  | done a => exact fun _ _ _ => trivial
  | fail e => exact fun _ _ _ => trivial
  | step o next ih =>
      refine ⟨fun i s hs _ _ => ⟨fun r s' hx => ?_, fun e _ => ?_⟩, fun e => ih _ (hp.2 _)⟩
      · have hholdings : s'.holdings = s.holdings :=
          exec_frame hx .holdings fun hw => hparts (hp.1 _ hw)
        have hs' : Tight s' := by
          intro h hh
          rw [hholdings] at hh
          exact hs h hh
        exact ⟨hs', trivial, fun _ => True, .const True, trivial, ih _ (hp.2 _)⟩
      · exact ⟨fun _ => True, .const True, trivial, ih _ (hp.2 _)⟩

theorem sat_look {o : Settlement.Op} {K : Store → Prop} {Q : o.Res → Store → Prop}
    (hK : projecting.Stable K) (hQ : ∀ r, projecting.Stable (Q r))
    (h : ∀ i s r s', K s → Settlement.exec o i s = .ok (r, s') → s' = s ∧ Q r s) :
    Sat projecting (Settlement.perform o) K Q fun _ _ => True := by
  refine Sat.perform hQ hK (fun _ _ _ _ => trivial) fun i s r s' hs hk _ hx => ?_
  obtain ⟨rfl, hq⟩ := h i s r s' hk hx
  exact ⟨hs, trivial, hq⟩

/-- The lots that a stage has read are, up to prices, those that are there. -/
def Seen (event : SettlementEvent) (lots : List PositionLot) (s : Store) : Prop :=
  (visibleLots s event.asset).map PositionLot.bare = lots.map PositionLot.bare

theorem stable_ownLots (lots : List PositionLot) : projecting.Stable fun s =>
    (s.lotsByAsset event.asset).map PositionLot.bare = lots.map PositionLot.bare := by
  intro s s' _ _ hk hr
  exact (hr.lotsByAsset event.asset).trans hk

theorem stable_seenLots (lots : List PositionLot) : projecting.Stable (Seen event lots) := by
  intro s s' _ _ hk hr
  exact (hr.visibleLots event.asset).trans hk

theorem sat_unconvertedLots (reader : Stage) :
    Sat projecting (unconvertedLots reader event.asset) (fun _ => True) (Seen event)
      fun _ _ => True := by
  -- the lots are read first, and the converted ones do not change before they are read
  refine Sat.bind_of (Q := fun lots s =>
    (s.lotsByAsset event.asset).map PositionLot.bare = lots.map PositionLot.bare) ?_
    fun lots => ?_
  · refine sat_look (.const True) (fun lots => stable_ownLots lots) fun i s r s' _ hx => ?_
    cases hx
    exact ⟨rfl, rfl⟩
  · refine Sat.bind_of (Q := fun converted s =>
      Seen event (lots.filter fun l => !converted.contains l.lotId) s) ?_ fun converted => ?_
    · refine sat_look (stable_ownLots lots) (fun converted => stable_seenLots _)
        fun i s r s' hk hx => ?_
      cases hx
      refine ⟨rfl, ?_⟩
      show (visibleLots s event.asset).map _ = _
      unfold visibleLots
      rw [filter_bare, hk, ← filter_bare]
    · exact fun _ _ hk => hk

theorem sat_entryProtectiveLevels (lot : PositionLot) :
    Sat projecting (entryProtectiveLevels lot) (fun _ => True)
      (fun levels s => ∀ stop ∈ levels.1, entryStop s lot = some stop) fun _ _ => True := by
  unfold entryProtectiveLevels
  split
  · rename_i hadopted
    refine Sat.bind_of (Q := fun adoption s => entryStop s lot = some adoption.stopLoss) ?_
      fun adoption => ?_
    · refine sat_look (.const True) (fun adoption s s' _ _ hk hr => hr.entryStop rfl hk)
        fun i s r s' _ hx => ?_
      obtain ⟨adoption, hadoption, hx⟩ := except_bind_eq_ok.1 hx
      cases hx
      refine ⟨rfl, ?_⟩
      unfold entryStop
      rw [if_pos hadopted, hadoption]
      rfl
    · intro s _ hk stop hstop
      cases hstop
      exact hk
  · rename_i hfilled
    have hentry : ∀ s : Store, entryStop s lot
        = (s.fills.get? lot.originatingFillId).bind fun fill =>
            (s.tradeIntents.get? fill.tradeIntentId).bind fun intent => intent.stopLoss := by
      intro s
      unfold entryStop
      rw [if_neg hfilled]
    refine Sat.bind_of (Q := fun r s => ∀ intent ∈ r, ∀ stop ∈ intent.stopLoss,
      entryStop s lot = some stop) ?_ fun r => ?_
    · -- the fill that opened the lot stays, and the stop of its intent with it
      refine Sat.bind_of (Q := fun r s => ∀ fill ∈ r, s.fills.get? lot.originatingFillId = some fill)
        ?_ fun r => ?_
      · refine sat_look (.const True) (fun r s s' _ _ hk hr fill hfill => ?_) fun i s r s' _ hx => ?_
        · obtain ⟨hmem, hkey⟩ := Table.get?_eq_some_iff.1 (hk fill hfill)
          exact Table.get?_eq_some_iff.2 ⟨hr.fills fill hmem, hkey⟩
        · cases hx
          exact ⟨rfl, fun fill hfill => hfill⟩
      · cases r with
        | none => exact fun _ _ _ intent hintent => nomatch hintent
        | some fill =>
            refine sat_look ?_ (fun r s s' _ _ hk hr intent hintent stop hstop => ?_)
              fun i s r s' hk hx => ?_
            · intro s s' _ _ hk hr f hf
              obtain ⟨hmem, hkey⟩ := Table.get?_eq_some_iff.1 (hk f hf)
              exact Table.get?_eq_some_iff.2 ⟨hr.fills f hmem, hkey⟩
            · exact hr.entryStop rfl (hk intent hintent stop hstop)
            · cases hx
              refine ⟨rfl, fun intent hintent stop hstop => ?_⟩
              rw [hentry, hk fill rfl, Option.bind_some, show s.tradeIntents.get?
                fill.tradeIntentId = some intent from hintent]
              exact hstop
    · cases r with
      | none => exact fun _ _ _ stop hstop => nomatch hstop
      | some intent => exact fun _ _ hk => hk intent rfl

theorem sat_mutateHolding (openLots : List PositionLot) (holding : Holding)
    (guardKey : Option String) :
    Sat projecting (Settlement.perform (.mutateHolding openLots holding guardKey))
      (fun s => ∀ stop ∈ holding.stopLoss, governingStop s holding.asset = some stop)
      (fun _ _ => True) fun _ _ => True := by
  refine Sat.perform (fun _ => .const True) (fun s s' _ _ hk hr stop hstop => ?_)
    (fun _ _ _ _ => trivial) fun i s r s' hs hk hc hx => ?_
  · exact hr.governingStop (hk stop hstop)
  · rcases Settlement.mutateHolding_ok hx with ⟨-, -, rfl⟩ | ⟨current, h', hget, hf, -, rfl⟩
    · exact ⟨hs, trivial, trivial⟩
    · refine ⟨hs.put fun _ stop hstop live hlive => ?_, trivial, trivial⟩
      have hstop' : stop ∈ holding.stopLoss := congrArg (·.stopLoss) hf ▸ hstop
      have hlive' : live ∈ current.currentStop := congrArg (·.currentStop) hf ▸ hlive
      exact hc current hget stop (hk stop hstop') live hlive'

theorem sat_createHolding {openLots : List PositionLot} {holding : Holding}
    {guardKey : Option String}
    (hunset : holding.currentStop = none) :
    Safe projecting (Settlement.perform (.createHolding openLots holding guardKey)) := by
  refine Sat.perform (fun _ => .const True) (.const True) (fun _ _ _ _ => trivial) ?_
  intro i s r s' hs _ _ hx
  obtain ⟨-, -, hx⟩ := except_bind_eq_ok.1 hx
  cases hx
  refine ⟨fun h hh => ?_, trivial, trivial⟩
  rcases Table.mem_createOnce.1 hh with hh | ⟨-, rfl⟩
  · exact hs h hh
  · intro _ stop _ live hlive
    rw [hunset] at hlive
    cases hlive

/-- **The projection of a holding**: it writes the stop of the governing entry, and the condition
keeps the live stop at or above it. -/
theorem sat_projectHolding (event : SettlementEvent) :
    Safe projecting (projectHolding event) := by
  refine Sat.bind_of (sat_unconvertedLots .projectHolding) fun lots => ?_
  refine Sat.bind_of (Q := fun _ => Seen event lots) ?_ fun existing => ?_
  · refine sat_look (stable_seenLots lots) (fun _ => stable_seenLots lots) fun i s r s' hk hx => ?_
    cases hx
    exact ⟨rfl, hk⟩
  -- without an open lot the holding goes; otherwise it is written with the levels of the oldest
  · split
    · split
      · refine Sat.bind_of (Q := fun _ _ => True) ?_ fun _ _ _ _ => trivial
        refine Sat.perform (fun _ => .const True) (stable_seenLots lots) (fun _ _ _ _ => trivial) ?_
        intro i s r s' hs _ _ hx
        obtain ⟨-, -, hx⟩ := except_bind_eq_ok.1 hx
        cases hx
        exact ⟨fun h hh => hs h (Table.mem_delete.1 hh).1, trivial, trivial⟩
      · exact fun _ _ _ => trivial
    · rename_i oldest holdest
      refine Sat.bind_of (Q := fun levels s => ∀ stop ∈ levels.1,
        governingStop s event.asset = some stop) ?_ fun levels => ?_
      · have huses : (entryProtectiveLevels oldest).Uses (Settlement.Op.WritesIn []) :=
          uses_entryProtectiveLevels oldest
        have hlevels := Sat.frame_uses (F := Seen event lots) (stable_seenLots lots)
          (fun o i s r s' ho hk hx => ?_) huses (sat_entryProtectiveLevels oldest)
        · refine hlevels.mono (fun s _ hk => ⟨trivial, hk⟩) (fun levels s _ hk stop hstop => ?_)
            fun _ _ _ _ => trivial
          exact governingStop_of_bare hk.2 holdest (hk.1 stop hstop)
        · have hlots : s'.positionLots = s.positionLots :=
            exec_frame hx .positionLots fun hw => nomatch ho _ hw
          have hconverted : s'.convertedLots = s.convertedLots :=
            exec_frame hx .convertedLots fun hw => nomatch ho _ hw
          unfold Seen visibleLots Store.lotsByAsset
          rw [hlots, hconverted]
          exact hk
      · refine Sat.bind_of (Q := fun holding s => holding.currentStop = none ∧
          ∀ stop ∈ holding.stopLoss, governingStop s holding.asset = some stop) ?_ fun holding => ?_
        · refine Sat.ofExcept (fun holding hmake s _ hk => ?_) fun _ _ _ _ _ => trivial
          have hf := Holding.make_eq_ok_iff.1 hmake
          refine ⟨congrArg (·.currentStop) hf, fun stop hstop => ?_⟩
          have hasset : holding.asset = event.asset := congrArg (·.asset) hf
          have hlevel : holding.stopLoss = levels.1 := congrArg (·.stopLoss) hf
          rw [hlevel] at hstop
          exact hasset ▸ hk stop hstop
        · split
          · refine Sat.bind_of (Q := fun _ _ => True) ?_ fun _ _ _ _ => trivial
            exact (sat_mutateHolding _ holding _).mono (fun s _ hk => hk.2) (fun _ _ _ h => h)
              fun _ _ _ h => h
          · refine Sat.bind_of (Q := fun _ _ => True) ?_ fun _ _ _ _ => trivial
            exact Sat.of_pointwise fun s _ hk => ⟨_, trivial, sat_createHolding hk.1⟩

/-- No knowledge is needed between the stages. -/
def unknowing : PassKnowledge Store where
  running _ _ _ := True
  staged _ _ _ _ _ := True
  failed _ _ := True

/-- **Every transaction of a pass keeps the live stops tight.** -/
theorem holds_projecting : unknowing.Holds projecting where
  quiet o ho := sat_elsewhere ((Prog.uses_perform o).2 ho) (by decide)
  claim id now stale force :=
    (sat_elsewhere (uses_performWrite rfl) (by decide)).mono (fun _ _ h => h)
      (fun _ _ _ _ _ _ => trivial) fun _ _ _ h => h
  verify c := by
    have huses : (verifyIntegrity c false).Uses (Settlement.Op.WritesIn []) :=
      uses_verifyIntegrity c false
    exact sat_elsewhere huses (by simp)
  stage c state st _ _ := by
    by_cases hst : st = .projectHolding
    · subst hst
      exact Sat.bind_of (sat_projectHolding state) fun _ _ _ _ => trivial
    · refine sat_elsewhere (uses_handlers st state) ?_
      cases st with
      | projectHolding => exact absurd rfl hst
      | _ => decide
  mark _ _ _ _ _ _ _ _ := sat_elsewhere (uses_performWrite rfl) (by decide)
  done _ _ _ _ := sat_elsewhere (uses_performWrite rfl) (by decide)
  fail _ _ _ _ _ := sat_elsewhere (uses_performWrite rfl) (by decide)
  running_failed _ _ _ _ := trivial
  staged_failed _ _ _ _ _ _ := trivial

end Pass

/-! ### The monitor -/

/-- The setting of a monitor job: it needs no knowledge, and leaves the entries alone. -/
def raising : Setting Store Outside Raised Op.Res where
  exec := exec
  inv := Tight
  rely _ _ := True
  cond := Unraised
  guar _ := SameEntries

/-- A decision about a holding that keeps the live stop tight. -/
theorem tight_mutateHolding {s s' : Store} {recordId : String}
    {decide : Holding → Option HoldingFields} {r : Option Holding} (h : Tight s)
    (hdecide : ∀ row ∈ s.holdings.get? recordId, ∀ f ∈ decide row,
      0 < f.quantity → ∀ stop ∈ f.stopLoss, ∀ live ∈ f.currentStop, stop ≤ live)
    (hx : mutateHolding s recordId decide = .ok (r, s')) : Tight s' ∧ SameEntries s s' := by
  rcases mutateHolding_ok hx with ⟨-, rfl⟩ | ⟨current, h', hget, hf, -, rfl⟩
  · exact ⟨h, .of_eq rfl rfl rfl rfl rfl⟩
  · exact ⟨h.put (hdecide current hget _ hf), .of_eq rfl rfl rfl rfl rfl⟩

theorem bare_foldLot {s s' : Store} {lotId : String} {price : ℚ} {r : Option PositionLot}
    (hx : foldLot s lotId price = .ok (r, s')) : SameEntries s s' := by
  rcases foldLot_ok hx with rfl | ⟨current, lot, hget, ⟨mfe, mae, hf⟩, rfl⟩
  · exact .of_eq rfl rfl rfl rfl rfl
  · refine { lots := ?_, converted := rfl, fills := fun _ hf => hf, stops := .of_eq rfl rfl }
    have hid : lot.lotId = current.lotId := congrArg (·.lotId) hf
    refine Table.map_put (Table.get?_eq_some_iff.1 hget).1 hid.symm ?_
    exact PositionLot.bare_of_fields hf

/-- A ratchet of a long holding asks for its average price at least. -/
def FromAverage : Op → Prop
  | .ratchet _ averagePrice isLong candidate => isLong = true → averagePrice ≤ candidate
  | _ => True

theorem uses_call_average (c : Call) : (system.call c).Uses FromAverage := by
  cases c with
  | ratchetStop limits holding lots price =>
      refine Prog.Uses.bind (fun _ => Prog.uses_done _)
        ((uses_ratchetStop limits holding lots price).mono fun o ho => ?_)
      cases o with
      | ratchet => exact ho.2
      | _ => trivial
  | _ =>
      refine (uses_call_ratchetless (by simp)).mono fun o ho => ?_
      cases o with
      | ratchet => exact absurd ho id
      | _ => trivial

/-- **Every transaction of the monitor keeps the live stops tight**, and the entries as they
are. -/
theorem tight_exec {o : Op} {i : Outside} {s s' : Store} {r : o.Res} (h : Tight s)
    (hfrom : FromAverage o) (hc : Unraised o i s) (hx : exec o i s = .ok (r, s')) : Tight s' ∧ SameEntries s s' := by
  cases o with
  | foldLot lotId price =>
      refine ⟨?_, bare_foldLot hx⟩
      rcases foldLot_ok hx with rfl | ⟨_, lot, -, -, rfl⟩
      · exact h
      · exact h
  | fetchAtr asset =>
      cases hx
      exact ⟨h, .of_eq rfl rfl rfl rfl rfl⟩
  | ratchet recordId averagePrice isLong candidate =>
      obtain ⟨⟨updated, t⟩, ht, hx⟩ := except_bind_eq_ok.1 hx
      cases hx
      refine tight_mutateHolding h (fun row hrow f hf => ?_) ht
      have hrow' := (Table.get?_eq_some_iff.1 hrow).1
      unfold ratchetDecision at hf
      cases hcur : row.currentStop with
      | none =>
          simp only [hcur, reduceCtorEq, if_false, Option.mem_def, Option.some.injEq] at hf
          subst hf
          intro hlong stop hstop live hlive
          cases hlive
          obtain ⟨hside, hfloor⟩ := hc row hrow hlong stop hstop
          exact (hfloor hcur).trans (hfrom hside)
      | some set =>
          simp only [hcur, Option.mem_def, Option.ite_none_left_eq_some] at hf
          obtain ⟨-, hf⟩ := hf
          cases hf
          intro hlong stop hstop live hlive
          cases hlive
          -- the higher of the stop that was set and the candidate
          rw [(hc row hrow hlong stop hstop).1]
          exact le_max_of_le_left (h row hrow' hlong stop hstop set hcur)
  | reserveSymbol asset =>
      cases hx
      exact ⟨h, .of_eq rfl rfl rfl rfl rfl⟩
  | mark recordId =>
      refine tight_mutateHolding h (fun row hrow f hf => ?_) hx
      have hrow' := (Table.get?_eq_some_iff.1 hrow).1
      unfold markDecision at hf
      split at hf
      · cases hf
      · rename_i hscaled
        cases hf
        intro hlong stop hstop live hlive
        cases hlive
        cases hcur : row.currentStop with
        | none => exact hc row hrow hlong (by simpa using hscaled) hcur stop hstop
        | some set => exact le_max_of_le_left (h row hrow' hlong stop hstop set hcur)
  | unmark recordId =>
      refine tight_mutateHolding h (fun row hrow f hf => ?_) hx
      unfold unmarkDecision at hf
      split at hf
      · cases hf
        exact h row (Table.get?_eq_some_iff.1 hrow).1
      · cases hf
  | executeIntent asset =>
      cases hx
      exact ⟨h, .of_eq rfl rfl rfl rfl rfl⟩

/-! ### Side by side -/

/-- Passes of the processor and jobs of the monitor, over one store.  The rest of the program
changes no stop that an entry chose. -/
def guarded : System Store (Settlement.Outside × Outside) Raised (PassArgs ⊕ Call) External
    (ResPar Settlement.Op.Res Op.Res) where
  exec := execPar Settlement.exec exec
  call := (Settlement.system.par system).call
  env t s := (external t s).filter fun s' => decide (StopsKept s s')

/-- In one lane passes follow one another; each other lane runs jobs of the monitor. -/
def Guarded : Option ℕ → Settlement.Op ⊕ Op → Settlement.Outside × Outside → Store → Prop
  | none, .inl o, i, s => NotLoosened o i.1 s
  | some _, .inr o, i, s => Unraised o i.2 s
  | _, _, _, _ => False

instance : ∀ j o i s, Decidable (Guarded j o i s)
  | none, .inl o, i, s => inferInstanceAs (Decidable (NotLoosened o i.1 s))
  | some _, .inr o, i, s => inferInstanceAs (Decidable (Unraised o i.2 s))
  | none, .inr _, _, _ => isFalse id
  | some _, .inl _, _, _ => isFalse id

/-- The settings of the lanes. -/
def protecting : LaneSetting (Option ℕ) Store (Settlement.Outside × Outside) Raised
    (ResPar Settlement.Op.Res Op.Res) where
  exec := execPar Settlement.exec exec
  inv := Tight
  rely
    | none => SameEntries
    | some _ => fun _ _ => True
  cond := Guarded
  guar
    | none => fun _ _ => True
    | some _ => SameEntries

/-- Passes beside monitor jobs. -/
def guardedLanes : Machine (Lanes (Option ℕ) Store Raised (ResPar Settlement.Op.Res Op.Res))
    (LaneAct (Option ℕ) (Settlement.Outside × Outside) Raised (PassArgs ⊕ Call) External) :=
  Lanes.machine guarded

theorem sat_pass (j : Option ℕ) (args : PassArgs) :
    Sat (protecting.at j)
      ((Settlement.system.call args).lift Sum.inl : Prog Raised (ResPar Settlement.Op.Res Op.Res) Unit)
      (fun _ => True) (fun _ _ => True) fun _ _ => True := by
  cases j with
  | none =>
      have hpass : Sat projecting (Settlement.system.call args) (fun _ => True)
          (fun _ _ => True) fun _ _ => True :=
        Sat.bind_of (holds_projecting.processPending args) fun _ _ _ _ => trivial
      exact Sat.lift (f := Sum.inl) (Γ := projecting) rfl rfl (fun _ => Prod.fst)
        (fun _ _ _ => rfl) (fun _ _ _ h => h) (fun _ _ _ h => h) hpass
  | some k =>
      let Γ : Setting Store Settlement.Outside Raised Settlement.Op.Res :=
        { projecting with
          rely := fun _ _ => True
          guar := fun _ => SameEntries }
      exact Sat.lift (f := Sum.inl) (Γ := Γ.idle) rfl rfl (fun _ => Prod.fst)
        (fun _ _ _ => rfl) (fun _ _ _ h => h) (fun _ _ _ h => h)
        (Sat.idle Γ (Settlement.system.call args))

/-- A job of the monitor, in a lane of its own; in the lane of passes none of its transactions is
performed. -/
theorem sat_job (j : Option ℕ) (c : Call) :
    Sat (protecting.at j)
      ((system.call c).lift Sum.inr : Prog Raised (ResPar Settlement.Op.Res Op.Res) Unit)
      (fun _ => True) (fun _ _ => True) fun _ _ => True := by
  cases j with
  | none =>
      let Γ : Setting Store Outside Raised Op.Res := { raising with rely := SameEntries }
      exact Sat.lift (f := Sum.inr) (Γ := Γ.idle) rfl rfl (fun _ => Prod.snd) (fun _ _ _ => rfl)
        (fun _ _ _ h => h) (fun _ _ _ _ => trivial) (Sat.idle Γ (system.call c))
  | some k =>
      have hjob : Sat raising (system.call c) (fun _ => True) (fun _ _ => True)
          fun _ _ => True := by
        refine (Sat.of_uses (K := fun _ => True) (.const True) (fun o i s r s' ho hs _ hc hx => ?_)
          (uses_call_average c)).mono (fun _ _ h => h) (fun _ _ _ _ => trivial) fun _ _ _ _ => trivial
        obtain ⟨htight, hsame⟩ := tight_exec hs ho hc hx
        exact ⟨htight, hsame, trivial⟩
      exact Sat.lift (f := Sum.inr) (Γ := raising) rfl rfl (fun _ => Prod.snd) (fun _ _ _ => rfl)
        (fun _ _ _ h => h) (fun _ _ _ h => h) hjob

theorem sound_protecting : Lanes.Sound guarded protecting where
  exec := rfl
  guar i j hij s s' _ _ hg := by
    cases j with
    | some k => trivial
    | none =>
        cases i with
        | some k => exact hg
        | none => exact absurd rfl hij
  env t s s' hs ht := by
    obtain ⟨ht, hstops⟩ := Option.filter_eq_some_iff.1 ht
    have hkept : StopsKept s s' := of_decide_eq_true hstops
    have hframe : s'.holdings = s.holdings ∧ s'.positionLots = s.positionLots ∧
        s'.convertedLots = s.convertedLots ∧ ∀ f ∈ s.fills, f ∈ s'.fills := by
      cases t with
      | recordFill fill =>
          cases ht
          exact ⟨rfl, rfl, rfl, fun f hf => Table.mem_createOnce_of_mem hf⟩
      | recordSettlement event =>
          simp only [external, Option.ite_none_right_eq_some] at ht
          cases ht.2
          exact ⟨rfl, rfl, rfl, fun f hf => hf⟩
      | elsewhere t =>
          cases ht
          exact ⟨rfl, rfl, rfl, fun f hf => hf⟩
    obtain ⟨hholdings, hlots, hconverted, hfills⟩ := hframe
    refine ⟨fun h hh => hs h (hholdings ▸ hh), fun j => ?_⟩
    cases j with
    | some k => trivial
    | none => exact { lots := by rw [hlots], converted := hconverted, fills := hfills, stops := hkept }
  call j c s _ := by
    refine ⟨fun _ => True, .const True, trivial, ?_⟩
    cases c with
    | inl args => exact sat_pass j args
    | inr c => exact sat_job j c

/-- **The effective stop never loosens.**  In every state that passes and monitor jobs reach, as
long as no holding is projected under a live stop below the one that the governing entry chose, and
no first live stop is set while the stop is above the average price: where both stops of a long
holding are set, the live one is not the lower one, and every price at which the governing stop would have sold the position sells it. -/
theorem stop_never_loosens {s₀ : Store}
    {w : Lanes (Option ℕ) Store Raised (ResPar Settlement.Op.Res Op.Res)} (h₀ : Tight s₀)
    (h : guardedLanes.Reaches (Lanes.Meets Guarded) ⟨s₀, fun _ => .done ()⟩ w) :
    ∀ row ∈ w.store.holdings, 0 < row.quantity → ∀ stop ∈ row.stopLoss,
      ∀ live ∈ row.currentStop, stop ≤ live ∧
        ∀ qty price, 0 < qty → price ≤ stop → breached qty price row = true := by
  have hgood : Tight w.store :=
    (sound_protecting.good (Lanes.good_init (Γ := protecting) h₀) h).1
  intro row hrow hlong stop hstop live hlive
  have hle : stop ≤ live := hgood row hrow hlong stop hstop live hlive
  exact ⟨hle, fun qty price hqty hprice => breached_of_le hqty hlive hle hprice⟩

theorem tight_empty : Tight {} := by
  intro row hrow
  cases hrow

/-- The intents that some executions belong to are on record, each with the stop it chose. -/
def entries (fills : List (Except Raised Fill × ℚ)) : Action :=
  .env (.elsewhere
    { tradeIntents := fills.foldl (fun t fill => match fill.1 with
        | .ok f => t.createOnce { intentOf f with stopLoss := some fill.2 }
        | .error _ => t) default })

/-- An action of a pass, in the lane of passes. -/
def inPasses : Action →
    LaneAct (Option ℕ) (Settlement.Outside × Outside) Raised (PassArgs ⊕ Call) External
  | .start args => .start none (.inl args)
  | .run _ i => .run none (i, {})
  | .raise _ e => .raise none e
  | .crash _ => .crash none
  | .env t => .env t

/-- A job of the monitor ratchets the stops of all holdings at a price. -/
def ratcheted (w : Lanes (Option ℕ) Store Raised (ResPar Settlement.Op.Res Op.Res)) (price : ℚ) :
    List (LaneAct (Option ℕ) (Settlement.Outside × Outside) Raised (PassArgs ⊕ Call) External) :=
  w.store.holdings.rows.flatMap fun row =>
    [.start (some 0) (.inr (.ratchetStop {} row w.store.positionLots.rows price)),
      .run (some 0) ({}, {}), .run (some 0) ({}, {})]

/-- Ten shares are bought at 100, with a stop at 95, and settled. -/
def firstEntry : List Action :=
  [entries [(execution "b1" .buy 10 100 0, 95), (execution "b2" .buy 10 150 1, 140),
    (execution "s1" .sell 10 150 2, 95)]] ++
  arrival (execution "b1" .buy 10 100 0) ++ [.start {}] ++ goOn 0 41 { now := 1, uuid := "lot-1" }

/-- Ten more are bought at 150, with a stop at 140, and the first ten are sold. -/
def firstSold : List Action :=
  List.flatten
    [ arrival (execution "b2" .buy 10 150 1), [.start {}], goOn 0 41 { now := 2, uuid := "lot-2" },
      arrival (execution "s1" .sell 10 150 2), [.start {}], goOn 0 43 { now := 3 } ]

/-- The stop of the first ten is ratcheted to break-even, above the one of their entry. -/
theorem stop_never_loosens_ratcheted :
    ∃ w : Lanes (Option ℕ) Store Raised (ResPar Settlement.Op.Res Op.Res),
      (∃ row ∈ w.store.holdings.rows, 0 < row.quantity ∧ row.stopLoss = some 95 ∧
        row.currentStop = some 100) ∧
      ∀ row ∈ w.store.holdings, 0 < row.quantity → ∀ stop ∈ row.stopLoss,
        ∀ live ∈ row.currentStop, stop ≤ live ∧
          ∀ qty price, 0 < qty → price ≤ stop → breached qty price row = true := by
  have hrun : (guardedLanes.runUnder (Lanes.Meets Guarded) ⟨{}, fun _ => .done ()⟩
      (firstEntry.map inPasses)).any (fun v =>
        (guardedLanes.runUnder (Lanes.Meets Guarded) v (ratcheted v 110)).any fun w =>
          decide (∃ row ∈ w.store.holdings.rows, 0 < row.quantity ∧ row.stopLoss = some 95 ∧
            row.currentStop = some 100)) = true := by
    decide +kernel
  obtain ⟨v, hreach, hrest⟩ := Machine.exists_of_runUnder (P := fun v => _ = true)
    (by simpa using hrun)
  obtain ⟨w, hreach', hrow⟩ := Machine.exists_of_runUnder hrest
  exact ⟨w, hrow, stop_never_loosens tight_empty (hreach.trans hreach')⟩

/-- **A sale of the first entry loosens the stop**: ten shares with a stop at 140 are left under a
live stop at 100, and a price of 120 does not sell them. -/
theorem stop_loosened : ∃ w, guardedLanes.Reaches (fun _ _ => True) ⟨{}, fun _ => .done ()⟩ w ∧
    ∃ row ∈ w.store.holdings.rows, 0 < row.quantity ∧ row.stopLoss = some 140 ∧
      row.currentStop = some 100 ∧ governingStop w.store row.asset = some 140 ∧
        breached row.quantity 120 row = false := by
  have hrun : (guardedLanes.run ⟨{}, fun _ => .done ()⟩ (firstEntry.map inPasses)).any (fun v =>
      (guardedLanes.run v (ratcheted v 110)).any fun u =>
        (guardedLanes.run u (firstSold.map inPasses)).any fun w =>
          decide (∃ row ∈ w.store.holdings.rows, 0 < row.quantity ∧ row.stopLoss = some 140 ∧
            row.currentStop = some 100 ∧ governingStop w.store row.asset = some 140 ∧
              breached row.quantity 120 row = false)) = true := by
    decide +kernel
  obtain ⟨v, hreach, hrest⟩ := Machine.exists_of_run (P := fun v => _ = true)
    (by simpa using hrun)
  obtain ⟨u, hreach', hrest⟩ := Machine.exists_of_run (P := fun u => _ = true)
    (by simpa using hrest)
  obtain ⟨w, hreach'', hrow⟩ := Machine.exists_of_run hrest
  exact ⟨w, (hreach.trans hreach').trans hreach'', hrow⟩

end Monitor

end TradePulse
