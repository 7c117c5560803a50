/-
**Two writers of a lot lose nothing.**

Settlement closes lots and the monitor folds prices into their extremes.  Each decided on an earlier
snapshot of the lot, and writes in one transaction that reads the lot again.  Whatever the
transactions are and however they interleave, a lot is what was committed: its closures are the
closures that were, what remains is what they left, and its extremes are those of all prices that it
was opened, closed and seen at.

Main definitions:

* `LotWrite`, `lotWriters` — the transactions, and what they committed;
* `Recorded` — a lot is what was committed.

Main results:

* `Recorded.other`, `Recorded.extremes` — what a commit of another lot, or at a price, leaves true;
* `exists_step_of_settlementExec`, `exists_step_of_exec` — the transactions of the settlement
  processor and of the monitor are such writes;
* `lots_lose_nothing` — every lot is what was committed, in every state reached, and a fold changes
  nothing but the extremes of its lot.
-/

import Mathlib.Order.Bounds.Basic
import Mathlib.Tactic.Ring
import TradePulse.Monitor.Coordinator
import TradePulse.Settlement.Conservation
import TradePulse.Settlement.Runs

set_option autoImplicit false

namespace TradePulse

namespace Monitor

open Process Storage Settlement

/-! ### Commits -/

/-- What was committed of a lot. -/
inductive LotCommit
  | opened (lotId : String) (price : ℚ)
  | closed (lotId fillId : String) (quantity price : ℚ)
  | folded (lotId : String) (price : ℚ)
  deriving DecidableEq

namespace LotCommit

def lotId : LotCommit → String
  | opened lotId _ => lotId
  | closed lotId _ _ _ => lotId
  | folded lotId _ => lotId

def price : LotCommit → ℚ
  | opened _ price => price
  | closed _ _ _ price => price
  | folded _ price => price

/-- What was closed of a lot. -/
def quantityOf (id : String) : LotCommit → ℚ
  | closed lotId _ quantity _ => if lotId = id then quantity else 0
  | _ => 0

end LotCommit

/-- The prices at which a lot was opened, closed and seen. -/
def pricesOf (id : String) (log : List LotCommit) : Set ℚ :=
  {p | ∃ c ∈ log, c.lotId = id ∧ c.price = p}

/-- What was closed of a lot, in all. -/
def closedQuantity (id : String) (log : List LotCommit) : ℚ :=
  (log.map fun c => c.quantityOf id).sum

/-- A lot as it is when it is opened. -/
def JustOpened (lot : PositionLot) : Prop :=
  lot.positionSide = .long ∧ lot.remainingQuantity = lot.openedQuantity ∧
    lot.closures.entries = [] ∧ lot.mfePrice.isSome ∧ lot.maePrice = lot.mfePrice

instance (lot : PositionLot) : Decidable (JustOpened lot) :=
  inferInstanceAs (Decidable (_ ∧ _ ∧ _ ∧ _ ∧ _))

/-! ### The writers -/

/-- The store, and what was committed, the latest first. -/
structure LotRun where
  store : Store
  log : List LotCommit := []

/-- A transaction, whatever it was decided on. -/
inductive LotWrite
  /-- `position_lots.create_once` with a lot that was just opened. -/
  | opening (lot : PositionLot) (guardKey : Option String)
  /-- `position_lots.mutate` with a closure. -/
  | closing (closure : LotClosure) (event : SettlementEvent)
  /-- `position_lots.mutate` with a price. -/
  | folding (lotId : String) (price : ℚ)
  /-- A transaction that does not write lots. -/
  | elsewhere (s : Store)

def LotRun.step (w : LotRun) : LotWrite → Option LotRun
  | .opening lot guardKey =>
      if JustOpened lot then
        match checkIntegrityHold w.store guardKey with
        | .error _ => some w
        | .ok _ =>
            if w.store.positionLots.Admits lot then
              some
                { store := { w.store with positionLots := w.store.positionLots.createOnce lot }
                  log := .opened lot.lotId (lot.mfePrice.getD 0) :: w.log }
            else some w
      else none
  | .closing closure event =>
      match closeLot w.store closure event with
      | .ok (some _, s) =>
          some
            { store := s
              log := .closed closure.lot.lotId event.fillId closure.quantity event.price :: w.log }
      | .ok (none, s) => some { w with store := s }
      | .error _ => some w
  | .folding lotId price =>
      match foldLot w.store lotId price with
      | .ok (_, s) =>
          if (w.store.positionLots.get? lotId).any (·.isOpen) then
            some { store := s, log := .folded lotId price :: w.log }
          else some { w with store := s }
      | .error _ => some w
  | .elsewhere s => some { w with store := { s with positionLots := w.store.positionLots } }

def lotWriters : Machine LotRun LotWrite := ⟨LotRun.step⟩

/-- The events that close a lot are distinct: a closure finds none of its fill in its lot. -/
def DistinctEvents (w : LotRun) : LotWrite → Prop
  | .closing closure event => ∀ l ∈ w.store.positionLots, l.lotId = closure.lot.lotId →
      event.fillId ∉ l.closures
  | _ => True

instance (w : LotRun) : (a : LotWrite) → Decidable (DistinctEvents w a)
  | .closing closure event => inferInstanceAs (Decidable (∀ l ∈ w.store.positionLots,
      l.lotId = closure.lot.lotId → event.fillId ∉ l.closures))
  | .opening _ _ | .folding _ _ | .elsewhere _ => inferInstanceAs (Decidable True)

/-! ### A lot and what was committed of it -/

/-- A lot is what was committed of it. -/
structure Recorded (log : List LotCommit) (l : PositionLot) : Prop where
  long : l.positionSide = .long
  closures : ∀ fillId quantity, l.closures.lookup fillId = some quantity ↔
    ∃ price, LotCommit.closed l.lotId fillId quantity price ∈ log
  remaining : l.remainingQuantity = l.openedQuantity - closedQuantity l.lotId log
  extremes : ∃ mfe mae, l.mfePrice = some mfe ∧ l.maePrice = some mae ∧
    IsGreatest (pricesOf l.lotId log) mfe ∧ IsLeast (pricesOf l.lotId log) mae

section Prices

variable {id : String} {log : List LotCommit} {c : LotCommit}

theorem pricesOf_cons_of_eq (h : c.lotId = id) :
    pricesOf id (c :: log) = insert c.price (pricesOf id log) := by
  ext p
  simp only [pricesOf, List.mem_cons, Set.mem_ofPred_eq, Set.mem_insert_iff]
  constructor
  · rintro ⟨d, rfl | hd, hid, rfl⟩
    · exact .inl rfl
    · exact .inr ⟨d, hd, hid, rfl⟩
  · rintro (rfl | ⟨d, hd, hid, rfl⟩)
    · exact ⟨c, .inl rfl, h, rfl⟩
    · exact ⟨d, .inr hd, hid, rfl⟩

theorem pricesOf_cons_of_ne (h : c.lotId ≠ id) : pricesOf id (c :: log) = pricesOf id log := by
  ext p
  simp only [pricesOf, List.mem_cons, Set.mem_ofPred_eq]
  constructor
  · rintro ⟨d, rfl | hd, hid, hp⟩
    · exact absurd hid h
    · exact ⟨d, hd, hid, hp⟩
  · rintro ⟨d, hd, hid, hp⟩
    exact ⟨d, .inr hd, hid, hp⟩

theorem closedQuantity_cons_of_ne (h : c.lotId ≠ id) :
    closedQuantity id (c :: log) = closedQuantity id log := by
  have hzero : c.quantityOf id = 0 := by
    cases c with
    | closed lotId _ _ _ => exact if_neg h
    | _ => rfl
  simp [closedQuantity, hzero]

end Prices

section Recorded

variable {log : List LotCommit} {l l' : PositionLot} {c : LotCommit}

theorem Recorded.other (h : Recorded log l) (hne : c.lotId ≠ l.lotId) : Recorded (c :: log) l where
  long := h.long
  closures fillId quantity := by
    rw [h.closures]
    refine exists_congr fun price => ?_
    rw [List.mem_cons]
    constructor
    · exact .inr
    · rintro (rfl | hmem)
      · exact absurd rfl hne
      · exact hmem
  remaining := by
    rw [closedQuantity_cons_of_ne hne]
    exact h.remaining
  extremes := by
    rw [pricesOf_cons_of_ne hne]
    exact h.extremes

/-- The extremes of a long lot at one more price are those of one more commit. -/
theorem Recorded.fold (h : Recorded log l) (hid : c.lotId = l.lotId) :
    ∃ mfe mae, foldPriceExtremum l.positionSide l.mfePrice l.maePrice c.price = (mfe, mae) ∧
      IsGreatest (pricesOf l.lotId (c :: log)) mfe ∧ IsLeast (pricesOf l.lotId (c :: log)) mae := by
  obtain ⟨mfe, mae, hmfe, hmae, hgreatest, hleast⟩ := h.extremes
  refine ⟨max mfe c.price, min mae c.price, ?_, ?_, ?_⟩
  · rw [h.long, hmfe, hmae]
    rfl
  · rw [pricesOf_cons_of_eq hid, max_comm]
    exact hgreatest.insert c.price
  · rw [pricesOf_cons_of_eq hid, min_comm]
    exact hleast.insert c.price

theorem Recorded.closed (h : Recorded log l) {closure : LotClosure} {event : SettlementEvent}
    (hid : closure.lot.lotId = l.lotId) (hfresh : event.fillId ∉ l.closures)
    (hlot : closedLot l closure event = .ok l') :
    Recorded (.closed closure.lot.lotId event.fillId closure.quantity event.price :: log) l' := by
  have hf := PositionLot.make_eq_ok_iff.1 hlot
  have hid' : l'.lotId = l.lotId := congrArg (·.lotId) hf
  obtain ⟨mfe, mae, hextremes, hgreatest, hleast⟩ := h.fold
    (c := .closed closure.lot.lotId event.fillId closure.quantity event.price) hid
  have hextremes : foldPriceExtremum l.positionSide l.mfePrice l.maePrice event.price =
    (mfe, mae) := hextremes
  refine ⟨(congrArg (·.positionSide) hf).trans h.long, fun fillId quantity => ?_, ?_, mfe, mae, ?_,
    ?_, hid' ▸ hgreatest, hid' ▸ hleast⟩
  · have hclosures : l'.closures = l.closures.insert event.fillId closure.quantity :=
      congrArg (·.closures) hf
    rw [hclosures, hid']
    by_cases hfill : fillId = event.fillId
    · subst hfill
      rw [AList.lookup_insert]
      constructor
      · intro hq
        cases hq
        exact ⟨event.price, by simp [hid]⟩
      · rintro ⟨price, hmem⟩
        rcases List.mem_cons.1 hmem with heq | hold
        · exact congrArg some (LotCommit.closed.inj heq).2.2.1.symm
        · have hlookup := (h.closures _ _).2 ⟨price, hold⟩
          exact absurd (AList.lookup_isSome.1 (by rw [hlookup]; rfl)) hfresh
    · rw [AList.lookup_insert_ne hfill, h.closures]
      refine exists_congr fun price => ?_
      simp [hfill]
  · have hremaining : l'.remainingQuantity = l.remainingQuantity - closure.quantity :=
      congrArg (·.remainingQuantity) hf
    have hopened : l'.openedQuantity = l.openedQuantity := congrArg (·.openedQuantity) hf
    rw [hremaining, hopened, hid', h.remaining]
    simp only [closedQuantity, List.map_cons, LotCommit.quantityOf, if_pos hid, List.sum_cons]
    ring
  · have hmfe := congrArg (·.mfePrice) hf
    simp only [hextremes] at hmfe
    exact hmfe
  · have hmae := congrArg (·.maePrice) hf
    simp only [hextremes] at hmae
    exact hmae

theorem Recorded.folded (h : Recorded log l) {price : ℚ}
    (hf : l'.toPositionLotFields =
      { l.toPositionLotFields with
        mfePrice := some (foldPriceExtremum l.positionSide l.mfePrice l.maePrice price).1
        maePrice := some (foldPriceExtremum l.positionSide l.mfePrice l.maePrice price).2 }) :
    Recorded (.folded l.lotId price :: log) l' := by
  have hid : l'.lotId = l.lotId := congrArg (·.lotId) hf
  obtain ⟨mfe, mae, hextremes, hgreatest, hleast⟩ := h.fold (c := .folded l.lotId price) rfl
  have hextremes : foldPriceExtremum l.positionSide l.mfePrice l.maePrice price = (mfe, mae) :=
    hextremes
  rw [hextremes] at hf
  refine ⟨(congrArg (·.positionSide) hf).trans h.long, fun fillId quantity => ?_, ?_, mfe, mae,
    congrArg (·.mfePrice) hf, congrArg (·.maePrice) hf, hid ▸ hgreatest, hid ▸ hleast⟩
  · have hclosures : l'.closures = l.closures := congrArg (·.closures) hf
    rw [hclosures, hid, h.closures]
    simp
  · have hremaining : l'.remainingQuantity = l.remainingQuantity :=
      congrArg (·.remainingQuantity) hf
    have hopened : l'.openedQuantity = l.openedQuantity := congrArg (·.openedQuantity) hf
    rw [hremaining, hopened, hid, h.remaining]
    simp [closedQuantity, LotCommit.quantityOf]

/-- A lot that was just opened, of which nothing was committed before. -/
theorem recorded_of_justOpened (hl : JustOpened l) (hnew : ∀ c ∈ log, c.lotId ≠ l.lotId) :
    Recorded (.opened l.lotId (l.mfePrice.getD 0) :: log) l := by
  obtain ⟨hlong, hremaining, hclosures, hmfe, hmae⟩ := hl
  obtain ⟨price, hprice⟩ := Option.isSome_iff_exists.1 hmfe
  have hprices : pricesOf l.lotId (.opened l.lotId price :: log) = {price} := by
    rw [pricesOf_cons_of_eq (show (LotCommit.opened l.lotId price).lotId = l.lotId from rfl)]
    ext p
    simp only [Set.mem_insert_iff, Set.mem_singleton_iff, LotCommit.price]
    constructor
    · rintro (hp | ⟨c, hc, hid, -⟩)
      · exact hp
      · exact absurd hid (hnew c hc)
    · exact .inl
  rw [hprice, Option.getD_some]
  refine ⟨hlong, fun fillId quantity => ?_, ?_, price, price, hprice, hmae.trans hprice, ?_, ?_⟩
  · have hempty : l.closures = ∅ := AList.ext hclosures
    rw [hempty, AList.lookup_empty]
    constructor
    · intro hq
      cases hq
    · rintro ⟨p, hmem⟩
      rcases List.mem_cons.1 hmem with heq | hold
      · cases heq
      · exact absurd rfl (hnew _ hold)
  · have hzero : closedQuantity l.lotId (.opened l.lotId price :: log) = 0 := by
      refine List.sum_eq_zero fun q hq => ?_
      obtain ⟨c, hc, rfl⟩ := List.mem_map.1 hq
      rcases List.mem_cons.1 hc with rfl | hold
      · rfl
      · cases c with
        | closed lotId fillId quantity price => exact if_neg (hnew _ hold)
        | _ => rfl
    rw [hzero, hremaining, sub_zero]
  · rw [hprices]
    exact isGreatest_singleton
  · rw [hprices]
    exact isLeast_singleton

end Recorded

/-! ### The writers side by side -/

/-- The invariant: every lot is what was committed of it, and what was committed is of a lot. -/
structure Lossless (w : LotRun) : Prop where
  recorded : ∀ l ∈ w.store.positionLots, Recorded w.log l
  known : ∀ c ∈ w.log, ∃ l ∈ w.store.positionLots, l.lotId = c.lotId

/-- A commit that replaces the row of one lot. -/
theorem Lossless.put {w : LotRun} (h : Lossless w) {current lot : PositionLot} {c : LotCommit}
    {s : Store} (hcur : current ∈ w.store.positionLots) (hid : lot.lotId = current.lotId)
    (horigin : lot.originatingFillId = current.originatingFillId) (hc : c.lotId = lot.lotId)
    (hlot : Recorded (c :: w.log) lot) (hlots : s.positionLots = w.store.positionLots.put lot) :
    Lossless { store := s, log := c :: w.log } := by
  have hkeys : SameKeys current lot := ⟨hid.symm, congrArg some horigin.symm⟩
  refine ⟨fun l hl => ?_, fun d hd => ?_⟩
  · rw [hlots] at hl
    rcases (Table.mem_put hcur hkeys).1 hl with rfl | ⟨hold, hne⟩
    · exact hlot
    · refine (h.recorded l hold).other fun heq => hne ?_
      exact Table.eq_of_recordId hold hcur (heq.symm.trans (hc.trans hid))
  · rw [hlots]
    rcases List.mem_cons.1 hd with rfl | hd
    · exact ⟨lot, Table.mem_put_self hcur hkeys, hc.symm⟩
    · obtain ⟨l, hl, hlid⟩ := h.known d hd
      obtain ⟨l', hl', hsame⟩ := Table.exists_mem_put (r := lot) hl
      exact ⟨l', hl', hsame.1.symm.trans hlid⟩

/-- A commit that leaves the rows as they are. -/
theorem Lossless.same {w : LotRun} (h : Lossless w) {s : Store}
    (hlots : s.positionLots = w.store.positionLots) : Lossless { w with store := s } := by
  refine ⟨fun l hl => ?_, fun c hc => ?_⟩
  · rw [hlots] at hl
    exact h.recorded l hl
  · rw [hlots]
    exact h.known c hc

theorem Lossless.opening {w : LotRun} (h : Lossless w) {lot : PositionLot}
    (hlot : JustOpened lot) (hadmits : w.store.positionLots.Admits lot) :
    Lossless
      { store := { w.store with positionLots := w.store.positionLots.createOnce lot }
        log := .opened lot.lotId (lot.mfePrice.getD 0) :: w.log } := by
  have hne : ∀ l ∈ w.store.positionLots, l.lotId ≠ lot.lotId := fun l hl => (hadmits l hl).1
  have hnew : ∀ c ∈ w.log, c.lotId ≠ lot.lotId := by
    intro c hc
    obtain ⟨l, hl, hid⟩ := h.known c hc
    rw [← hid]
    exact hne l hl
  refine ⟨fun l hl => ?_, fun c hc => ?_⟩
  · rcases Table.mem_createOnce.1 hl with hold | ⟨-, rfl⟩
    · exact (h.recorded l hold).other (Ne.symm (hne l hold))
    · exact recorded_of_justOpened hlot hnew
  · rcases List.mem_cons.1 hc with rfl | hc
    · exact ⟨lot, Table.mem_createOnce.2 (.inr ⟨hadmits, rfl⟩), rfl⟩
    · obtain ⟨l, hl, hid⟩ := h.known c hc
      exact ⟨l, Table.mem_createOnce_of_mem hl, hid⟩

/-- What a fold does to an open lot: it is folded, and where that changes nothing the row stays. -/
theorem foldLot_open {s s' : Store} {lotId : String} {price : ℚ} {r : Option PositionLot}
    {current : PositionLot} (hget : s.positionLots.get? lotId = some current)
    (hopen : current.isOpen = true) (h : foldLot s lotId price = .ok (r, s')) :
    ∃ lot : PositionLot, lot.toPositionLotFields =
      { current.toPositionLotFields with
        mfePrice :=
          some (foldPriceExtremum current.positionSide current.mfePrice current.maePrice price).1
        maePrice :=
          some (foldPriceExtremum current.positionSide current.mfePrice current.maePrice price).2 } ∧
      s'.positionLots = s.positionLots.put lot := by
  unfold foldLot at h
  simp only [hget, hopen, if_true] at h
  split at h
  · rename_i hsame
    cases h
    refine ⟨current, by rw [hsame.1, hsame.2], ?_⟩
    exact (Table.put_of_mem (Table.get?_eq_some_iff.1 hget).1).symm
  · obtain ⟨lot, hmake, h⟩ := except_bind_eq_ok.1 h
    cases h
    exact ⟨lot, PositionLot.make_eq_ok_iff.1 hmake, rfl⟩

/-- A fold of a lot that is closed, or not there, changes nothing. -/
theorem foldLot_closed {s s' : Store} {lotId : String} {price : ℚ} {r : Option PositionLot}
    (hclosed : (s.positionLots.get? lotId).any (·.isOpen) = false)
    (h : foldLot s lotId price = .ok (r, s')) : s' = s := by
  unfold foldLot at h
  cases hget : s.positionLots.get? lotId with
  | none =>
      rw [hget] at h
      cases h
      rfl
  | some current =>
      have hopen : current.isOpen = false := by simpa [hget] using hclosed
      simp only [hget, hopen] at h
      cases h
      rfl

/-- **The step lemma.** -/
theorem Lossless.step {w w' : LotRun} {a : LotWrite} (h : Lossless w) (ha : DistinctEvents w a)
    (hstep : w.step a = some w') : Lossless w' := by
  cases a with
  | opening lot guardKey =>
      simp only [LotRun.step, Option.ite_none_right_eq_some] at hstep
      obtain ⟨hlot, hstep⟩ := hstep
      split at hstep
      · cases hstep
        exact h
      · split at hstep
        · rename_i hadmits
          cases hstep
          exact h.opening hlot hadmits
        · cases hstep
          exact h
  | closing closure event =>
      simp only [LotRun.step] at hstep
      split at hstep
      · rename_i lot s hx
        cases hstep
        rcases closeLot_ok hx with ⟨-, hnone, -⟩ | ⟨current, lot', hget, hlot, -, rfl⟩
        · cases hnone
        obtain ⟨hcur, hid⟩ := Table.get?_eq_some_iff.1 hget
        have hid : closure.lot.lotId = current.lotId := hid.symm
        obtain ⟨hid', horigin, -⟩ := closedLot_ok hlot
        refine h.put hcur hid' horigin (hid.trans hid'.symm) ?_ rfl
        exact (h.recorded current hcur).closed hid (ha current hcur hid.symm) hlot
      · rename_i s hx
        cases hstep
        rcases closeLot_ok hx with ⟨-, -, rfl⟩ | ⟨_, _, -, -, hsome, -⟩
        · exact h
        · cases hsome
      · cases hstep
        exact h
  | folding lotId price =>
      simp only [LotRun.step] at hstep
      split at hstep
      · rename_i r s hx
        split at hstep
        · rename_i hopen
          cases hstep
          obtain ⟨current, hget, hisOpen⟩ := (Option.any_eq_true _ _).1 hopen
          obtain ⟨hcur, rfl⟩ := Table.get?_eq_some_iff.1 hget
          obtain ⟨lot, hlot, hlots⟩ := foldLot_open hget hisOpen hx
          have hid : lot.lotId = current.lotId := congrArg (·.lotId) hlot
          refine h.put hcur hid (congrArg (·.originatingFillId) hlot) hid.symm ?_ hlots
          exact (h.recorded current hcur).folded hlot
        · rename_i hclosed
          cases hstep
          obtain rfl := foldLot_closed (by simpa using hclosed) hx
          exact h
      · cases hstep
        exact h
  | elsewhere s =>
      cases hstep
      exact h.same rfl

/-- A fold changes nothing but the extremes of lots. -/
theorem fold_changes_extremes {w w' : LotRun} {lotId : String} {price : ℚ}
    (hstep : w.step (.folding lotId price) = some w') :
    w'.store = { w.store with positionLots := w'.store.positionLots } ∧
      ∀ l' ∈ w'.store.positionLots, l' ∈ w.store.positionLots ∨
        ∃ l ∈ w.store.positionLots, l.lotId = lotId ∧ l'.toPositionLotFields =
          { l.toPositionLotFields with mfePrice := l'.mfePrice, maePrice := l'.maePrice } := by
  have hsame : w.store = { w.store with positionLots := w.store.positionLots } ∧
      ∀ l' ∈ w.store.positionLots, l' ∈ w.store.positionLots ∨
        ∃ l ∈ w.store.positionLots, l.lotId = lotId ∧ l'.toPositionLotFields =
          { l.toPositionLotFields with mfePrice := l'.mfePrice, maePrice := l'.maePrice } :=
    ⟨rfl, fun _ => .inl⟩
  simp only [LotRun.step] at hstep
  split at hstep
  · rename_i r s hx
    have hstore : w'.store = s := by
      split at hstep <;> cases hstep <;> rfl
    rw [hstore]
    rcases foldLot_ok hx with rfl | ⟨current, lot, hget, ⟨mfe, mae, hf⟩, rfl⟩
    · exact hsame
    · obtain ⟨hcur, hid⟩ := Table.get?_eq_some_iff.1 hget
      refine ⟨rfl, fun l' hl' => ?_⟩
      rcases Table.mem_put_imp hl' with rfl | hold
      · have hmfe : l'.mfePrice = mfe := congrArg (·.mfePrice) hf
        have hmae : l'.maePrice = mae := congrArg (·.maePrice) hf
        exact .inr ⟨current, hcur, hid, by rw [hmfe, hmae]; exact hf⟩
      · exact .inl hold
  · cases hstep
    exact hsame

/-! ### The transactions of the processor and of the monitor -/

/-- The lots that `_project_lot` opens were just opened. -/
theorem justOpened_openedLot {event : SettlementEvent} {lotId : String} {quantity : ℚ}
    {lot : PositionLot} (h : openedLot event lotId .long quantity = .ok lot) : JustOpened lot := by
  have hf := PositionLot.make_eq_ok_iff.1 h
  obtain ⟨-, -, -, hside, hopened, hremaining, -, hclosures, -⟩ := openedLot_ok h
  have hmfe : lot.mfePrice = some event.price := congrArg (·.mfePrice) hf
  have hmae : lot.maePrice = some event.price := congrArg (·.maePrice) hf
  refine ⟨hside, hremaining.trans hopened.symm, ?_, ?_, hmae.trans hmfe.symm⟩
  · rw [hclosures]
    rfl
  · rw [hmfe]
    rfl

theorem step_elsewhere {s s' : Store} (h : s'.positionLots = s.positionLots)
    (log : List LotCommit) : LotRun.step ⟨s, log⟩ (.elsewhere s') = some ⟨s', log⟩ := by
  simp only [LotRun.step]
  rw [← h]

/-- **Every transaction of the processor is a write of the lots**, where the lots it opens were just
opened. -/
theorem exists_step_of_settlementExec {o : Settlement.Op} {i : Settlement.Outside} {s s' : Store}
    {r : o.Res} (hx : Settlement.exec o i s = .ok (r, s'))
    (hopened : ∀ lot guardKey, o = .createLot lot guardKey → JustOpened lot)
    (log : List LotCommit) : ∃ a log', LotRun.step ⟨s, log⟩ a = some ⟨s', log'⟩ := by
  by_cases hlots : o.writes = some .positionLots
  · cases o with
    | closeLot closure event =>
        change closeLot s closure event = .ok (r, s') at hx
        cases r with
        | none =>
            refine ⟨.closing closure event, log, ?_⟩
            simp only [LotRun.step, hx]
        | some lot =>
            refine ⟨.closing closure event, .closed closure.lot.lotId event.fillId closure.quantity
              event.price :: log, ?_⟩
            simp only [LotRun.step, hx]
    | createLot lot guardKey =>
        obtain ⟨u, hguard, hx⟩ := except_bind_eq_ok.1 hx
        cases hx
        by_cases hadmits : s.positionLots.Admits lot
        · refine ⟨.opening lot guardKey, .opened lot.lotId (lot.mfePrice.getD 0) :: log, ?_⟩
          simp only [LotRun.step, if_pos (hopened lot guardKey rfl), hguard, if_pos hadmits]
        · refine ⟨.opening lot guardKey, log, ?_⟩
          simp only [LotRun.step, if_pos (hopened lot guardKey rfl), hguard, if_neg hadmits,
            Table.createOnce_of_not_admits hadmits]
    | _ => cases hlots
  · exact ⟨.elsewhere s', log, step_elsewhere (exec_frame hx .positionLots hlots) log⟩

/-- **Every transaction of the monitor is a write of the lots.** -/
theorem exists_step_of_exec {o : Op} {i : Outside} {s s' : Store} {r : o.Res}
    (hx : exec o i s = .ok (r, s')) (log : List LotCommit) :
    ∃ a log', LotRun.step ⟨s, log⟩ a = some ⟨s', log'⟩ := by
  by_cases ho : ∃ lotId price, o = .foldLot lotId price
  · obtain ⟨lotId, price, rfl⟩ := ho
    change foldLot s lotId price = .ok (r, s') at hx
    by_cases hopen : (s.positionLots.get? lotId).any (·.isOpen) = true
    · refine ⟨.folding lotId price, .folded lotId price :: log, ?_⟩
      simp only [LotRun.step, hx, if_pos hopen]
    · refine ⟨.folding lotId price, log, ?_⟩
      simp only [LotRun.step, hx]
      exact if_neg hopen
  · obtain ⟨holdings, rfl⟩ := exec_of_ne_foldLot (fun lotId price heq => ho ⟨lotId, price, heq⟩) hx
    exact ⟨.elsewhere { s with holdings := holdings }, log, step_elsewhere rfl log⟩

/-! ### Nothing is lost -/

/-- **Two writers of a lot lose nothing.**  In every state that any openings, closures by distinct
events and folds reach, in any order: a lot has exactly the closures that were committed, with their
quantities, what remains is what they left, and its extremes are the greatest and the least of the
prices that it was opened and closed at, and that were folded while it was not closed.  A fold
changes nothing but the extremes of its lot. -/
theorem lots_lose_nothing {s : Store} {w : LotRun} (hempty : s.positionLots.rows = [])
    (hreach : lotWriters.Reaches DistinctEvents { store := s } w) :
    (∀ l ∈ w.store.positionLots,
      (∀ fillId quantity, l.closures.lookup fillId = some quantity ↔
        ∃ price, LotCommit.closed l.lotId fillId quantity price ∈ w.log) ∧
      l.remainingQuantity = l.openedQuantity - closedQuantity l.lotId w.log ∧
      ∃ mfe mae, l.mfePrice = some mfe ∧ l.maePrice = some mae ∧
        IsGreatest (pricesOf l.lotId w.log) mfe ∧ IsLeast (pricesOf l.lotId w.log) mae) ∧
    ∀ lotId price w', lotWriters.step w (.folding lotId price) = some w' →
      w'.store = { w.store with positionLots := w'.store.positionLots } ∧
        ∀ l' ∈ w'.store.positionLots, l' ∈ w.store.positionLots ∨
          ∃ l ∈ w.store.positionLots, l.lotId = lotId ∧ l'.toPositionLotFields =
            { l.toPositionLotFields with mfePrice := l'.mfePrice, maePrice := l'.maePrice } := by
  have hw : Lossless w := by
    refine hreach.invariant ⟨fun l hl => ?_, fun c hc => by cases hc⟩
      fun _ _ _ h hok hstep => h.step hok hstep
    rw [Table.mem_def, hempty] at hl
    cases hl
  refine ⟨fun l hl => ?_, fun lotId price w' hstep => fold_changes_extremes hstep⟩
  have hl := hw.recorded l hl
  exact ⟨hl.closures, hl.remaining, hl.extremes⟩

section Runs

/-- Ten shares are bought at ten. -/
private def tenShares : Except Raised PositionLot :=
  PositionLot.make
    { lotId := "lot-1"
      originatingFillId := "b1"
      asset := { symbol := "AAPL", assetClass := .equity, nativeAssetId := "alpaca:AAPL" }
      positionSide := .long
      openedQuantity := 10
      remainingQuantity := 10
      acquisitionPrice := 10
      openedAt := 0
      mfePrice := some 10
      maePrice := some 10 }

/-- Prices are folded before and after three of them are sold at twelve. -/
private def foldedAround : List LotWrite :=
  match tenShares, Settlement.execution "sale" .sell 3 12 1 >>= Settlement.recordedEvent with
  | .ok lot, .ok event =>
      [.opening lot none, .folding "lot-1" 15, .closing ⟨lot, 3, 6⟩ event, .folding "lot-1" 8]
  | _, _ => []

/-- The lot has the sale, and was seen between eight and fifteen. -/
theorem lots_lose_nothing_foldedAround :
    ∃ w : LotRun, w.store.positionLots.rows.map (fun l =>
        (l.remainingQuantity, l.mfePrice, l.maePrice)) = [(7, some 15, some 8)] ∧
      ∀ l ∈ w.store.positionLots,
        l.remainingQuantity = l.openedQuantity - closedQuantity l.lotId w.log := by
  have hrun : (lotWriters.runUnder DistinctEvents { store := {} } foldedAround).any (fun w =>
      decide (w.store.positionLots.rows.map (fun l =>
        (l.remainingQuantity, l.mfePrice, l.maePrice)) = [(7, some 15, some 8)])) = true := by
    decide +kernel
  obtain ⟨w, hreach, hlot⟩ := Machine.exists_of_runUnder hrun
  exact ⟨w, hlot, fun l hl => ((lots_lose_nothing rfl hreach).1 l hl).2.1⟩

end Runs

end Monitor

end TradePulse
