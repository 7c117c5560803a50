/-
**What a lot says about itself, under passes that run side by side.**

A lot records the quantity it was opened with, what remains of it, the quantity that each fill
closed of it, and the profit of these closures.  The four agree: what remains and what was closed
make up what was opened, and the profit is that of the recorded closures.  A closure is planned
against an earlier read of the lot and applied to the lot as it is now.  It keeps the agreement
unless the lot already records a closure of the same fill, which it then overwrites.

Main definitions:

* `closingPnl` — the profit of one recorded closure;
* `Represented` — every long lot that a fill opened says the same in all four ways;
* `Fresh` — a closure finds no closure of its fill in its lot.

Main results:

* `Represented.closeLot` — a fresh closure keeps the agreement;
* `sound_representing` — so do passes side by side whose closures are fresh.
-/

import TradePulse.Settlement.LotRule
import TradePulse.Settlement.Runs
import Mathlib.Tactic.Ring

set_option autoImplicit false

namespace TradePulse

namespace Settlement

open Process Storage

/-- The multiplier of an instrument; one where it has none. -/
def multiplierOf (asset : AssetIdentity) : ℚ := asset.contractMultiplier.getD 1

theorem multiplierOf_eq {asset : AssetIdentity} {m : ℚ} (h : contractMultiplierOf asset = .ok m) :
    m = multiplierOf asset := by
  unfold contractMultiplierOf at h
  unfold multiplierOf
  split at h
  · rename_i m' hm
    cases h
    rw [hm]
    rfl
  · rename_i hm
    split at h
    · cases h
    · cases h
      rw [hm]
      rfl

/-- The profit of a closure that a lot records: by how much the closing price of the fill is above
what the lot was acquired for. -/
def closingPnl (s : Store) (l : PositionLot) (fillId : String) (quantity : ℚ) : ℚ :=
  match s.settlements.findByUnique fillId with
  | some e => (e.price - l.acquisitionPrice) * quantity * multiplierOf e.asset
  | none => 0

theorem closingPnl_of_mem {s : Store} {e : SettlementEvent} (he : e ∈ s.settlements)
    (l : PositionLot) (quantity : ℚ) :
    closingPnl s l e.fillId quantity
      = (e.price - l.acquisitionPrice) * quantity * multiplierOf e.asset := by
  have hfind : s.settlements.findByUnique e.fillId = some e :=
    Table.findByUnique_eq_some_iff.2 ⟨he, rfl⟩
  rw [closingPnl, hfind]

/-- A long lot that a fill opened and no asset fee was taken from. -/
def PlainLong (l : PositionLot) : Prop :=
  l.positionSide = .long ∧ l.origin = .fill ∧ l.assetFeeQuantities = ∅

/-- **The representation of lots.** -/
structure Represented (s : Store) : Prop where
  quantity : ∀ l ∈ s.positionLots, PlainLong l →
    l.remainingQuantity + l.closures.total = l.openedQuantity
  pnl : ∀ l ∈ s.positionLots, PlainLong l →
    l.realizedPnl = (l.closures.entries.map fun c => closingPnl s l c.1 c.2).sum
  closer : ∀ l ∈ s.positionLots, ∀ c ∈ l.closures.entries, ∃ e ∈ s.settlements, e.fillId = c.1

theorem represented_empty : Represented {} := by
  constructor <;> intro l hl <;> simp [Table.mem_def, default] at hl

/-- Events keep their facts, and lots their side and their price. -/
def Keeps (s s' : Store) : Prop :=
  (∀ e ∈ s.settlements, ∃ e' ∈ s'.settlements, e'.toSettlementFacts = e.toSettlementFacts) ∧
    ∀ l ∈ s.positionLots, ∃ l' ∈ s'.positionLots, l'.lotId = l.lotId ∧
      l'.positionSide = l.positionSide ∧ l'.acquisitionPrice = l.acquisitionPrice

theorem Keeps.refl (s : Store) : Keeps s s :=
  ⟨fun e he => ⟨e, he, rfl⟩, fun l hl => ⟨l, hl, rfl, rfl, rfl⟩⟩

theorem Keeps.of_eq {s s' : Store} (hs : s'.settlements = s.settlements)
    (hl : s'.positionLots = s.positionLots) : Keeps s s' := by
  unfold Keeps
  rw [hs, hl]
  exact Keeps.refl s

theorem Keeps.closingPnl_eq {s s' : Store} (h : Keeps s s') {l : PositionLot} {fillId : String}
    (hex : ∃ e ∈ s.settlements, e.fillId = fillId) (quantity : ℚ) :
    closingPnl s' l fillId quantity = closingPnl s l fillId quantity := by
  obtain ⟨e, he, rfl⟩ := hex
  obtain ⟨e', he', hfacts⟩ := h.1 e he
  have hfill : e'.fillId = e.fillId := congrArg (·.fillId) hfacts
  have hprice : e'.price = e.price := congrArg (·.price) hfacts
  have hasset : e'.asset = e.asset := congrArg (·.asset) hfacts
  rw [closingPnl_of_mem he, ← hfill, closingPnl_of_mem he', hprice, hasset]

theorem Represented.of_keeps {s s' : Store} (h : Represented s) (hk : Keeps s s')
    (hlots : ∀ l ∈ s'.positionLots, l ∈ s.positionLots) : Represented s' where
  quantity l hl := h.quantity l (hlots l hl)
  pnl l hl hplain := by
    rw [h.pnl l (hlots l hl) hplain]
    refine congrArg List.sum (List.map_congr_left fun c hc => ?_)
    exact (hk.closingPnl_eq (h.closer l (hlots l hl) c hc) c.2).symm
  closer l hl c hc := by
    obtain ⟨e, he, hfill⟩ := h.closer l (hlots l hl) c hc
    obtain ⟨e', he', hfacts⟩ := hk.1 e he
    exact ⟨e', he', (congrArg (·.fillId) hfacts).trans hfill⟩

theorem keeps_putEvent {s : Store} {event row : SettlementEvent} (hrow : row ∈ s.settlements)
    (hfacts : event.toSettlementFacts = row.toSettlementFacts) :
    Keeps s { s with settlements := s.settlements.put event } := by
  have hkeys : SameKeys row event :=
    ⟨congrArg (·.settlementEventId) hfacts.symm, congrArg (fun f => some f.fillId) hfacts.symm⟩
  refine ⟨fun e he => ?_, fun l hl => ⟨l, hl, rfl, rfl, rfl⟩⟩
  by_cases hsame : SameKeys e event
  · rw [Table.eq_of_recordId he hrow (hsame.1.trans hkeys.1.symm)]
    exact ⟨event, Table.mem_put_self hrow hkeys, hfacts⟩
  · exact ⟨e, Table.mem_put_of_not_sameKeys he hsame, rfl⟩

theorem keeps_putLot {s : Store} {lot current : PositionLot} (hcur : current ∈ s.positionLots)
    (hid : lot.lotId = current.lotId) (hfill : lot.originatingFillId = current.originatingFillId)
    (hside : lot.positionSide = current.positionSide)
    (hprice : lot.acquisitionPrice = current.acquisitionPrice) :
    Keeps s { s with positionLots := s.positionLots.put lot } := by
  have hkeys : SameKeys current lot := ⟨hid.symm, congrArg some hfill.symm⟩
  refine ⟨fun e he => ⟨e, he, rfl⟩, fun l hl => ?_⟩
  by_cases hsame : SameKeys l lot
  · rw [Table.eq_of_recordId hl hcur (hsame.1.trans hkeys.1.symm)]
    exact ⟨lot, Table.mem_put_self hcur hkeys, hid, hside, hprice⟩
  · exact ⟨l, Table.mem_put_of_not_sameKeys hl hsame, rfl, rfl, rfl⟩

/-! ### Closures -/

/-- A closure finds no closure of its fill in its lot. -/
def Fresh : Op → Outside → Store → Prop
  | .closeLot closure event, _, s => ∀ l ∈ s.positionLots, l.lotId = closure.lot.lotId →
      event.fillId ∉ l.closures
  | _, _, _ => True

instance (o : Op) (i : Outside) (s : Store) : Decidable (Fresh o i s) := by
  apply Op.casesOn (motive := fun o => Decidable (Fresh o i s)) o
  case closeLot =>
    intro closure event
    exact inferInstanceAs (Decidable (∀ l ∈ s.positionLots, _ → event.fillId ∉ l.closures))
  all_goals
    intros
    exact isTrue trivial

/-- The closure was planned against the lot: at its price, as a long lot. -/
def PlannedFor (event : SettlementEvent) (c : LotClosure) (s : Store) : Prop :=
  c.pnl = (event.price - c.lot.acquisitionPrice) * c.quantity * multiplierOf event.asset ∧
    c.lot.positionSide = .long ∧
      ∃ l ∈ s.positionLots, l.lotId = c.lot.lotId ∧ l.positionSide = c.lot.positionSide ∧
        l.acquisitionPrice = c.lot.acquisitionPrice

/-- **A fresh closure keeps the representation.** -/
theorem Represented.closeLot {s : Store} (h : Represented s) {event row : SettlementEvent}
    (hrow : row ∈ s.settlements) (hfacts : row.toSettlementFacts = event.toSettlementFacts)
    {c : LotClosure} {current lot : PositionLot} (hplan : PlannedFor event c s)
    (hcur : current ∈ s.positionLots) (hcid : current.lotId = c.lot.lotId)
    (hfresh : event.fillId ∉ current.closures) (hlot : closedLot current c event = .ok lot) :
    Represented { s with positionLots := s.positionLots.put lot } ∧
      Keeps s { s with positionLots := s.positionLots.put lot } := by
  have hf := PositionLot.make_eq_ok_iff.1 hlot
  have hid : lot.lotId = current.lotId := congrArg (·.lotId) hf
  have horig : lot.originatingFillId = current.originatingFillId :=
    congrArg (·.originatingFillId) hf
  have hside : lot.positionSide = current.positionSide := congrArg (·.positionSide) hf
  have hprice : lot.acquisitionPrice = current.acquisitionPrice :=
    congrArg (·.acquisitionPrice) hf
  have hopened : lot.openedQuantity = current.openedQuantity := congrArg (·.openedQuantity) hf
  have hremaining : lot.remainingQuantity = current.remainingQuantity - c.quantity :=
    congrArg (·.remainingQuantity) hf
  have hrealized : lot.realizedPnl = current.realizedPnl + c.pnl := congrArg (·.realizedPnl) hf
  have hfees : lot.assetFeeQuantities = current.assetFeeQuantities :=
    congrArg (·.assetFeeQuantities) hf
  have hentries : lot.closures.entries = ⟨event.fillId, c.quantity⟩ :: current.closures.entries := by
    have hclosures : lot.closures = current.closures.insert event.fillId c.quantity :=
      congrArg (·.closures) hf
    rw [hclosures, AList.entries_insert_of_notMem hfresh]
  have hplain : PlainLong lot → PlainLong current := by
    rintro ⟨hl, ho, ha⟩
    refine ⟨hside ▸ hl, ?_, hfees ▸ ha⟩
    unfold PositionLot.origin at ho ⊢
    rw [← hid]
    exact ho
  have hkeeps := keeps_putLot hcur hid horig hside hprice
  have hfill : row.fillId = event.fillId := congrArg (·.fillId) hfacts
  refine ⟨⟨fun l hl hp => ?_, fun l hl hp => ?_, fun l hl d hd => ?_⟩, hkeeps⟩
  · rcases Table.mem_put_imp hl with rfl | hl
    · have hsum := h.quantity current hcur (hplain hp)
      rw [hremaining, hopened, ← hsum, Dict.total, Dict.total, hentries, List.map_cons,
        List.sum_cons]
      ring
    · exact h.quantity l hl hp
  · rcases Table.mem_put_imp hl with rfl | hl
    · -- the new closure brings the profit it was planned with
      have hnew : closingPnl s l event.fillId c.quantity = c.pnl := by
        obtain ⟨hpnl, -, l', hl', hlid, -, hlprice⟩ := hplan
        have hsame : l' = current := Table.eq_of_recordId hl' hcur (hlid.trans hcid.symm)
        have hep : row.price = event.price := congrArg (·.price) hfacts
        have hea : row.asset = event.asset := congrArg (·.asset) hfacts
        rw [hpnl, ← hlprice, hsame, ← hprice, ← hep, ← hea, ← hfill, closingPnl_of_mem hrow]
      have hold : (current.closures.entries.map fun d => closingPnl s l d.1 d.2)
          = current.closures.entries.map fun d => closingPnl s current d.1 d.2 := by
        refine List.map_congr_left fun d _ => ?_
        unfold closingPnl
        rw [hprice]
      have hsum := h.pnl current hcur (hplain hp)
      have hgoal : l.realizedPnl
          = (l.closures.entries.map fun d => closingPnl s l d.1 d.2).sum := by
        rw [hrealized, hsum, hentries, List.map_cons, List.sum_cons, hnew, hold]
        ring
      exact hgoal
    · exact h.pnl l hl hp
  · rcases Table.mem_put_imp hl with rfl | hl
    · rw [hentries] at hd
      rcases List.mem_cons.1 hd with rfl | hd
      · exact ⟨row, hrow, hfill⟩
      · exact h.closer current hcur d hd
    · exact h.closer l hl d hd

theorem Represented.createLot {s : Store} (h : Represented s) {lot : PositionLot}
    (hclosures : lot.closures = ∅) (hopened : lot.remainingQuantity = lot.openedQuantity)
    (hpnl : lot.realizedPnl = 0) :
    Represented { s with positionLots := s.positionLots.createOnce lot } ∧
      Keeps s { s with positionLots := s.positionLots.createOnce lot } := by
  have hkeeps : Keeps s { s with positionLots := s.positionLots.createOnce lot } :=
    ⟨fun e he => ⟨e, he, rfl⟩,
      fun l hl => ⟨l, Table.mem_createOnce_of_mem hl, rfl, rfl, rfl⟩⟩
  have hentries : lot.closures.entries = [] := by
    rw [hclosures]
    rfl
  refine ⟨⟨fun l hl hp => ?_, fun l hl hp => ?_, fun l hl d hd => ?_⟩, hkeeps⟩
  · rcases Table.mem_createOnce.1 hl with hl | ⟨-, rfl⟩
    · exact h.quantity l hl hp
    · rw [Dict.total, hentries, hopened]
      exact add_zero _
  · rcases Table.mem_createOnce.1 hl with hl | ⟨-, rfl⟩
    · exact h.pnl l hl hp
    · rw [hentries, hpnl]
      rfl
  · rcases Table.mem_createOnce.1 hl with hl | ⟨-, rfl⟩
    · exact h.closer l hl d hd
    · rw [hentries] at hd
      cases hd

/-! ### Passes -/

/-- The setting of passes side by side. -/
def representing : Setting Store Outside Raised Op.Res where
  exec := exec
  inv := Represented
  rely := Keeps
  cond := Fresh
  guar _ := Keeps

/-- The event is in the store, with the facts it has here. -/
def Recorded (event : SettlementEvent) (s : Store) : Prop :=
  ∃ row ∈ s.settlements, row.toSettlementFacts = event.toSettlementFacts

theorem stable_recorded (event : SettlementEvent) : representing.Stable (Recorded event) := by
  rintro s s' - - ⟨row, hrow, hfacts⟩ hr
  obtain ⟨row', hrow', hfacts'⟩ := hr.1 row hrow
  exact ⟨row', hrow', hfacts'.trans hfacts⟩

/-- The lot is in the store, with the side and the price it has here. -/
def Held (l : PositionLot) (s : Store) : Prop :=
  ∃ l' ∈ s.positionLots, l'.lotId = l.lotId ∧ l'.positionSide = l.positionSide ∧
    l'.acquisitionPrice = l.acquisitionPrice

theorem stable_held (l : PositionLot) : representing.Stable (Held l) := by
  rintro s s' - - ⟨l', hl', hid, hside, hprice⟩ hr
  obtain ⟨l'', hl'', hid', hside', hprice'⟩ := hr.2 l' hl'
  exact ⟨l'', hl'', hid'.trans hid, hside'.trans hside, hprice'.trans hprice⟩

/-- A transaction that writes neither events nor lots. -/
theorem represented_frame {o : Op} {i : Outside} {s s' : Store} {r : o.Res} {parts : List Part}
    (h : Represented s) (hx : exec o i s = .ok (r, s')) (ho : o.WritesIn parts)
    (hevents : Part.settlements ∉ parts) (hlots : Part.positionLots ∉ parts) :
    Represented s' ∧ Keeps s s' := by
  have hse : s'.settlements = s.settlements :=
    exec_frame hx .settlements fun hw => hevents (ho _ hw)
  have hsl : s'.positionLots = s.positionLots :=
    exec_frame hx .positionLots fun hw => hlots (ho _ hw)
  have hkeeps : Keeps s s' := .of_eq hse hsl
  exact ⟨h.of_keeps hkeeps fun l hl => hsl ▸ hl, hkeeps⟩

theorem sat_stable {α : Type} {p : Settle α} {parts : List Part} {K : Store → Prop}
    (hK : representing.Stable K) (hp : p.Uses (Op.WritesIn parts))
    (hevents : Part.settlements ∉ parts) (hlots : Part.positionLots ∉ parts) :
    Sat representing p K (fun _ => K) (fun _ => K) :=
  Sat.of_stable hK (fun _ _ _ _ _ hg => hg)
    (fun _ _ _ _ _ ho hs _ hx => represented_frame hs hx ho hevents hlots) hp

/-- What is known during the first stage: the event, and the lots its closures are planned for. -/
def knownLots (event : SettlementEvent) : LotKnowledge Store where
  start := Recorded event
  seen lots s := Recorded event s ∧ ∀ l ∈ lots, Held l s
  closing _ _ closures s := Recorded event s ∧ ∀ c ∈ closures, PlannedFor event c s
  ended := Recorded event

theorem stable_seen (event : SettlementEvent) (lots : List PositionLot) :
    representing.Stable fun s => Recorded event s ∧ ∀ l ∈ lots, Held l s :=
  (stable_recorded event).and (.all fun l => .imp fun _ => stable_held l)

theorem stable_planned (event : SettlementEvent) (closures : List LotClosure) :
    representing.Stable fun s => Recorded event s ∧ ∀ c ∈ closures, PlannedFor event c s :=
  (stable_recorded event).and (.all fun c => .imp fun _ =>
    (Setting.Stable.const _).and ((Setting.Stable.const _).and (stable_held c.lot)))

theorem holds_knownLots (event : SettlementEvent) :
    (knownLots event).Holds representing event where
  read := by
    refine Sat.bind_of (Q := fun lots s => Recorded event s ∧ ∀ l ∈ lots, Held l s)
      (Sat.perform (fun lots => stable_seen event lots) (stable_recorded event)
        (fun _ _ _ hk => hk) fun i s r s' hs hk _ hx => ?_) fun lots => ?_
    · cases hx
      exact ⟨hs, .refl s, hk, fun l hl => ⟨l, (Store.mem_lotsByAsset.1 hl).1, rfl, rfl, rfl⟩⟩
    · have hreads : (perform .convertedLots).Uses (Op.WritesIn []) :=
        (Prog.uses_perform _).2 (.of_none rfl)
      refine Sat.bind_of ((sat_stable (stable_seen event lots) hreads (by simp) (by simp)).mono
        (fun _ _ hk => hk) (fun _ _ _ hk => hk) fun _ _ _ hk => hk.1) fun ids => ?_
      exact fun s _ hk => ⟨hk.1, fun l hl => hk.2 l (List.mem_filter.1 hl).1⟩
  planned lots plan s _ hseen hplan := by
    refine ⟨hseen.1, fun c hc => ?_⟩
    obtain ⟨hmem, -, -, -, m, hm, hpnl⟩ := planSignedLotFill_closure hplan.1 hc
    have hlong := hplan.2 c hc
    refine ⟨?_, hlong, hseen.2 c.lot hmem⟩
    rw [hpnl, closurePnl, hlong, multiplierOf_eq hm]
  close lots plan c cs hplan := by
    refine Sat.perform (fun _ => stable_planned event cs) (stable_planned event (c :: cs))
      (fun _ _ _ hk => hk.1) fun i s r s' hs hk hfresh hx => ?_
    obtain ⟨hrec, hplanned⟩ := hk
    rcases closeLot_ok hx with ⟨-, -, rfl⟩ | ⟨current, lot, hget, hlot, -, rfl⟩
    · exact ⟨hs, .refl _, hrec, fun d hd => hplanned d (List.mem_cons_of_mem c hd)⟩
    · obtain ⟨hcur, hid⟩ := Table.get?_eq_some_iff.1 hget
      obtain ⟨row, hrow, hfacts⟩ := hrec
      obtain ⟨hs', hkeeps⟩ := hs.closeLot hrow hfacts (hplanned c List.mem_cons_self) hcur hid
        (hfresh current hcur hid) hlot
      refine ⟨hs', hkeeps, ?_⟩
      exact stable_planned event cs s _ hs hs'
        ⟨⟨row, hrow, hfacts⟩, fun d hd => hplanned d (List.mem_cons_of_mem c hd)⟩ hkeeps
  owe lots plan b _ _ _ :=
    (sat_stable (stable_recorded event) (uses_performWrite rfl) (by decide) (by decide)).mono
      (fun _ _ hk => hk.1) (fun _ _ _ hk => hk) fun _ _ _ hk => hk
  mixed lots plan _ :=
    (sat_stable (stable_recorded event) (uses_mixedLotOrigin event) (by decide) (by decide)).mono
      (fun _ _ hk => hk.1) (fun _ _ _ hk => hk) fun _ _ _ hk => hk
  name lots plan := by
    have hreads : (perform .uuid4).Uses (Op.WritesIn []) :=
      (Prog.uses_perform _).2 (.of_none rfl)
    exact (sat_stable (stable_planned event []) hreads (by simp) (by simp)).mono
      (fun _ _ hk => hk) (fun _ _ _ hk => hk) fun _ _ _ hk => hk.1
  «open» lots plan lotId l _ _ hl := by
    refine Sat.perform (fun _ => stable_recorded event) (stable_planned event [])
      (fun _ _ _ hk => hk.1) fun i s r s' hs hk _ hx => ?_
    obtain ⟨-, -, -, -, hopen, hrem, -, hclos, hpnl, -⟩ := openedLot_ok hl
    obtain ⟨-, -, hx⟩ := except_bind_eq_ok.1 hx
    cases hx
    obtain ⟨hs', hkeeps⟩ := hs.createLot hclos (hrem.trans hopen.symm) hpnl
    exact ⟨hs', hkeeps, stable_recorded event s _ hs hs' hk.1 hkeeps⟩
  seen_ended _ _ hk := hk.1
  closing_ended _ _ _ _ hk := hk.1

/-- What is known during an attempt: the event is in the store. -/
def known : PassKnowledge Store where
  running c state s := state.toSettlementFacts = c.toSettlementFacts ∧ Recorded c s
  staged c state _ _ s := state.toSettlementFacts = c.toSettlementFacts ∧ Recorded c s
  failed c := Recorded c

/-- Writing an event that is in the store, with its facts. -/
theorem represented_checkpoint {s s' : Store} {c event : SettlementEvent} {r : Unit}
    (h : Represented s) (hrec : Recorded c s)
    (hfacts : event.toSettlementFacts = c.toSettlementFacts)
    (hx : checkpoint s event = .ok (r, s')) : Represented s' ∧ Keeps s s' := by
  obtain ⟨-, -, rfl⟩ := checkpoint_ok hx
  obtain ⟨row, hrow, hrf⟩ := hrec
  have hkeeps := keeps_putEvent hrow (hfacts.trans hrf.symm)
  exact ⟨h.of_keeps hkeeps fun _ hl => hl, hkeeps⟩

theorem stable_running (P : Prop) (c : SettlementEvent) :
    representing.Stable fun s => P ∧ Recorded c s :=
  (Setting.Stable.const P).and (stable_recorded c)

theorem holds_known : known.Holds representing where
  quiet o ho := by
    refine (sat_stable (.const True) ((Prog.uses_perform o).2 ho) (by decide) (by decide)).mono
      (fun _ _ h => h) (fun _ _ _ _ => trivial) fun _ _ _ _ => trivial
  claim id now stale force := by
    refine Sat.perform (fun r => .all fun c => .imp fun _ => stable_running _ c) (.const True)
      (fun _ _ _ _ => trivial) fun i s r s' hs _ _ hx => ?_
    rcases claimIfProcessable_ok hx with ⟨rfl, rfl⟩ | ⟨current, c, hget, -, hf, rfl, rfl⟩
    · exact ⟨hs, .refl _, by simp⟩
    · obtain ⟨hrow, -⟩ := Table.get?_eq_some_iff.1 hget
      have hfacts : c.toSettlementFacts = current.toSettlementFacts :=
        congrArg (·.toSettlementFacts) hf
      have hkeeps := keeps_putEvent hrow hfacts
      refine ⟨hs.of_keeps hkeeps fun _ hl => hl, hkeeps, ?_⟩
      rintro c' hc'
      cases hc'
      obtain ⟨row', hrow', hrf'⟩ := hkeeps.1 current hrow
      exact ⟨rfl, row', hrow', hrf'.trans hfacts.symm⟩
  verify c := by
    have hreads : (verifyIntegrity c false).Uses (Op.WritesIn []) := uses_verifyIntegrity c false
    exact (sat_stable (stable_running _ c) hreads (by simp) (by simp)).mono
      (fun _ _ hk => hk) (fun _ _ _ hk => hk) fun _ _ _ hk => hk.2
  stage c state st _ _ := by
    by_cases hst : st = .projectLot
    · subst hst
      refine Sat.of_pointwise fun s _ hk => ⟨Recorded state, ?_, ?_⟩
      · obtain ⟨row, hrow, hfacts⟩ := hk.2
        exact ⟨row, hrow, hfacts.trans hk.1.symm⟩
      · have hback : ∀ s, Recorded state s → Recorded c s := by
          rintro s ⟨row, hrow, hfacts⟩
          exact ⟨row, hrow, hfacts.trans hk.1⟩
        exact (holds_knownLots state).projectLot.mono (fun _ _ hk => hk)
          (fun _ s _ hr => ⟨hk.1, hback s hr⟩) fun _ s _ hr => hback s hr
    · exact (sat_stable (stable_running _ c) (uses_handlers st state)
        (settlements_notMem_stageWrites st) (notMem_stageWrites hst _ (by simp))).mono (fun _ _ hk => hk) (fun _ _ _ hk => hk) fun _ _ _ hk => hk.2
  mark c state st r state' _ _ hstate' := by
    have hfacts : state'.toSettlementFacts = state.toSettlementFacts :=
      congrArg (·.toSettlementFacts) hstate'
    refine Sat.perform (fun _ => stable_running _ c) (stable_running _ c)
      (fun _ _ _ hk => hk.2) fun i s r' s' hs hk _ hx => ?_
    obtain ⟨hs', hkeeps⟩ := represented_checkpoint hs hk.2 (hfacts.trans hk.1) hx
    exact ⟨hs', hkeeps, hfacts.trans hk.1, stable_recorded c s s' hs hs' hk.2 hkeeps⟩
  done c state d hd := by
    have hf := SettlementEvent.make_eq_ok_iff.1 hd
    have hfacts : d.toSettlementFacts = state.toSettlementFacts :=
      congrArg (·.toSettlementFacts) hf
    refine Sat.perform (fun _ => .const True) (stable_running _ c) (fun _ _ _ hk => hk.2)
      fun i s r s' hs hk _ hx => ?_
    obtain ⟨hs', hkeeps⟩ := represented_checkpoint hs hk.2 (hfacts.trans hk.1) hx
    exact ⟨hs', hkeeps, trivial⟩
  fail c failure d _ hd := by
    have hf := SettlementEvent.make_eq_ok_iff.1 hd
    have hfacts : d.toSettlementFacts = c.toSettlementFacts := congrArg (·.toSettlementFacts) hf
    refine Sat.perform (fun _ => .const True) (stable_recorded c) (fun _ _ _ _ => trivial)
      fun i s r s' hs hk _ hx => ?_
    obtain ⟨hs', hkeeps⟩ := represented_checkpoint hs hk hfacts hx
    exact ⟨hs', hkeeps, trivial⟩
  running_failed _ _ _ hk := hk.2
  staged_failed _ _ _ _ _ hk := hk.2

theorem keeps_external {t : External} {s s' : Store} (ht : external t s = some s') :
    Keeps s s' ∧ s'.positionLots = s.positionLots := by
  have hlots : s'.positionLots = s.positionLots := by
    cases t with
    | recordSettlement event =>
        simp only [external, Option.ite_none_right_eq_some] at ht
        cases ht.2
        rfl
    | _ =>
        cases ht
        rfl
  refine ⟨⟨fun e he => ⟨e, mem_settlements_of_external ht e he, rfl⟩, fun l hl => ?_⟩, hlots⟩
  rw [hlots]
  exact ⟨l, hl, rfl, rfl, rfl⟩

/-- **Passes side by side** whose closures are fresh keep the representation of lots. -/
theorem sound_representing : Pool.Sound system representing where
  exec := rfl
  guar _ _ _ _ _ hg := hg
  env t s s' hs ht := by
    obtain ⟨hkeeps, hlots⟩ := keeps_external ht
    exact ⟨hs.of_keeps hkeeps fun l hl => hlots ▸ hl, hkeeps⟩
  call args s _ := known_of_safe (holds_known.processPending args) s

end Settlement

end TradePulse
