/-
**What adoption writes** (`adoption/__init__.py`).

However many passes go on side by side, a source is adopted once: one row, one lot and one holding,
which agree, and which are written together.  A position has one open episode at most, and all the
sightings of an episode are of one quantity.

That a position was seen twice with the quantity that is adopted is another matter.  A pass learns it
in one transaction and writes the adoption in a later one, which does not look at the episode again:
if another pass has closed the episode in between, because the quantity changed or the position is
gone, the adoption is of what is no longer there.

Main definitions:

* `Kept`, `Follows` — episodes that are kept, or closed;
* `Watched` — what the sightings say of the episodes;
* `StillObserving` — the episode of an adoption is open when it is written;
* `ExactlyOnce`, `Together` — the promises of adoption.

Main results:

* `observe_ok`, `writeAdoption_ok` — what the transactions do;
* `adopts_exactly_once` — **passes keep the promises where each writes while its episode is open**;
* `adopted_unseen` — without that, a pass adopts what another has seen change.
-/

import TradePulse.Adoption.Pass

set_option autoImplicit false

namespace TradePulse

namespace Adopting

open Storage Process

/-! ### Episodes -/

/-- An episode is kept; it may have been closed. -/
structure Kept (e e' : Episode) : Prop where
  episodeId : e'.episodeId = e.episodeId
  accountRef : e'.accountRef = e.accountRef
  assetKey : e'.assetKey = e.assetKey
  firstQty : e'.firstQty = e.firstQty
  lastQty : e'.lastQty = e.lastQty
  status : e'.status = .observing → e.status = .observing

namespace Kept

theorem refl (e : Episode) : Kept e e := ⟨rfl, rfl, rfl, rfl, rfl, id⟩

theorem trans {e₁ e₂ e₃ : Episode} (h : Kept e₁ e₂) (h' : Kept e₂ e₃) : Kept e₁ e₃ where
  episodeId := h'.episodeId.trans h.episodeId
  accountRef := h'.accountRef.trans h.accountRef
  assetKey := h'.assetKey.trans h.assetKey
  firstQty := h'.firstQty.trans h.firstQty
  lastQty := h'.lastQty.trans h.lastQty
  status hs := h.status (h'.status hs)

end Kept

/-- The episodes are kept, and no others are there. -/
structure Follows (t t' : Table Episode) : Prop where
  back : ∀ e' ∈ t', ∃ e ∈ t, Kept e e'
  forth : ∀ e ∈ t, ∃ e' ∈ t', Kept e e'

namespace Follows

theorem refl (t : Table Episode) : Follows t t :=
  ⟨fun e he => ⟨e, he, .refl e⟩, fun e he => ⟨e, he, .refl e⟩⟩

theorem trans {t₁ t₂ t₃ : Table Episode} (h : Follows t₁ t₂) (h' : Follows t₂ t₃) :
    Follows t₁ t₃ where
  back e₃ he₃ := by
    obtain ⟨e₂, he₂, hk⟩ := h'.back e₃ he₃
    obtain ⟨e₁, he₁, hk'⟩ := h.back e₂ he₂
    exact ⟨e₁, he₁, hk'.trans hk⟩
  forth e₁ he₁ := by
    obtain ⟨e₂, he₂, hk⟩ := h.forth e₁ he₁
    obtain ⟨e₃, he₃, hk'⟩ := h'.forth e₂ he₂
    exact ⟨e₃, he₃, hk.trans hk'⟩

theorem put {t : Table Episode} {e r : Episode} (he : e ∈ t) (hk : Kept e r) :
    Follows t (t.put r) := by
  have hsame : SameKeys e r := ⟨hk.episodeId.symm, rfl⟩
  constructor
  · intro a ha
    rcases (Table.mem_put he hsame).1 ha with rfl | ⟨ha, -⟩
    · exact ⟨e, he, hk⟩
    · exact ⟨a, ha, .refl a⟩
  · intro a ha
    by_cases hae : a = e
    · subst hae
      exact ⟨r, (Table.mem_put he hsame).2 (.inl rfl), hk⟩
    · exact ⟨a, (Table.mem_put he hsame).2 (.inr ⟨ha, hae⟩), .refl a⟩

end Follows

theorem closeEpisode_ok {t t' : Table Episode} {episodeId : String} {status : EpisodeStatus}
    {now : Instant} (hclosed : status ≠ .observing)
    (h : closeEpisode t episodeId status now = .ok t') : Follows t t' := by
  unfold closeEpisode at h
  cases hget : t.get? episodeId with
  | none =>
      rw [hget] at h
      cases h
  | some e =>
      rw [hget] at h
      cases h
      obtain ⟨he, -⟩ := Table.get?_eq_some_iff.1 hget
      exact .put he ⟨rfl, rfl, rfl, rfl, rfl, fun hs => absurd hs hclosed⟩

theorem closeAll_ok {held : List (String × ℚ)} {now : Instant} {episodes : List Episode}
    {t t' : Table Episode} (h : closeAll held now episodes t = .ok t') : Follows t t' := by
  induction episodes generalizing t with
  | nil =>
      cases h
      exact .refl _
  | cons e rest ih =>
      unfold closeAll at h
      by_cases hgone : heldQty held e.assetKey ≤ 0
      · rw [if_pos hgone] at h
        obtain ⟨t₁, hclose, hrest⟩ := except_bind_eq_ok.1 h
        exact (closeEpisode_ok (by decide) hclose).trans (ih hrest)
      · rw [if_neg hgone] at h
        exact ih h

/-- What is seen of a position in an episode. -/
def Episode.sighting (e : Episode) : Sighting := ⟨e.accountRef, e.assetKey, e.episodeId, e.firstQty⟩

theorem Kept.sighting {e e' : Episode} (h : Kept e e') : e'.sighting = e.sighting := by
  unfold Episode.sighting
  rw [h.episodeId, h.accountRef, h.assetKey, h.firstQty]

/-- What the sightings say of the episodes: a position has one open episode at most, all sightings of
an episode are of one quantity, and the latest ones of a position are of its open episode. -/
structure Watched (t : Table Episode) (sightings : List Sighting) : Prop where
  one : ∀ e ∈ t, ∀ e' ∈ t, e.status = .observing → e'.status = .observing →
    e'.accountRef = e.accountRef → e'.assetKey = e.assetKey → e' = e
  steady : ∀ e ∈ t, e.lastQty = e.firstQty
  seen : ∀ x ∈ sightings, ∃ e ∈ t, e.sighting = x
  latest : ∀ e ∈ t, e.status = .observing → ∃ n rest, 1 ≤ n ∧
    sightingsOf sightings e.accountRef e.assetKey = List.replicate n e.sighting ++ rest ∧
    ∀ x ∈ rest, x.episodeId ≠ e.episodeId

namespace Watched

variable {t t' : Table Episode} {sightings : List Sighting}

theorem follows (h : Watched t sightings) (hf : Follows t t') : Watched t' sightings where
  one e₁' he₁ e₂' he₂ hs₁ hs₂ ha hk := by
    obtain ⟨e₁, hm₁, hk₁⟩ := hf.back e₁' he₁
    obtain ⟨e₂, hm₂, hk₂⟩ := hf.back e₂' he₂
    have heq : e₂ = e₁ := h.one e₁ hm₁ e₂ hm₂ (hk₁.status hs₁) (hk₂.status hs₂)
      (by rw [← hk₁.accountRef, ← hk₂.accountRef, ha]) (by rw [← hk₁.assetKey, ← hk₂.assetKey, hk])
    refine Table.eq_of_recordId he₂ he₁ ?_
    show e₂'.episodeId = e₁'.episodeId
    rw [hk₁.episodeId, hk₂.episodeId, heq]
  steady e' he' := by
    obtain ⟨e, he, hk⟩ := hf.back e' he'
    rw [hk.lastQty, hk.firstQty, h.steady e he]
  seen x hx := by
    obtain ⟨e, he, rfl⟩ := h.seen x hx
    obtain ⟨e', he', hk⟩ := hf.forth e he
    exact ⟨e', he', hk.sighting⟩
  latest e' he' hs := by
    obtain ⟨e, he, hk⟩ := hf.back e' he'
    obtain ⟨n, rest, hn, hlist, hrest⟩ := h.latest e he (hk.status hs)
    rw [hk.accountRef, hk.assetKey, hk.sighting, hk.episodeId]
    exact ⟨n, rest, hn, hlist, hrest⟩

/-- The position of an open episode is seen again, with the same quantity. -/
theorem again (h : Watched t sightings) {e : Episode} (he : e ∈ t) (hs : e.status = .observing) :
    Watched t (e.sighting :: sightings) where
  one := h.one
  steady := h.steady
  seen x hx := by
    rcases List.mem_cons.1 hx with rfl | hx
    · exact ⟨e, he, rfl⟩
    · exact h.seen x hx
  latest e' he' hs' := by
    obtain ⟨n, rest, hn, hlist, hrest⟩ := h.latest e' he' hs'
    by_cases hsame : e.accountRef = e'.accountRef ∧ e.assetKey = e'.assetKey
    · -- there is no other open episode of the position
      obtain rfl : e = e' := h.one e' he' e he hs' hs hsame.1 hsame.2
      refine ⟨n + 1, rest, by omega, ?_, hrest⟩
      have hcons : sightingsOf (e.sighting :: sightings) e.accountRef e.assetKey =
          e.sighting :: sightingsOf sightings e.accountRef e.assetKey := by
        simp [sightingsOf, Episode.sighting]
      rw [hcons, hlist, List.replicate_succ, List.cons_append]
    · refine ⟨n, rest, hn, ?_, hrest⟩
      have hcons : sightingsOf (e.sighting :: sightings) e'.accountRef e'.assetKey =
          sightingsOf sightings e'.accountRef e'.assetKey := by
        unfold sightingsOf
        exact List.filter_cons_of_neg fun h => hsame (of_decide_eq_true h)
      rw [hcons, hlist]

/-- A position that has no open episode is seen for the first time. -/
theorem opened (h : Watched t sightings) {e : Episode} (hadmits : t.Admits e)
    (hnone : ∀ a ∈ t, ¬ (a.status = .observing ∧ a.accountRef = e.accountRef ∧
      a.assetKey = e.assetKey)) (hlast : e.lastQty = e.firstQty) :
    Watched (t.createOnce e) (e.sighting :: sightings) where
  one e₁ he₁ e₂ he₂ hs₁ hs₂ ha hk := by
    rcases Table.mem_createOnce.1 he₁ with hm₁ | ⟨-, rfl⟩ <;>
      rcases Table.mem_createOnce.1 he₂ with hm₂ | ⟨-, rfl⟩
    · exact h.one e₁ hm₁ e₂ hm₂ hs₁ hs₂ ha hk
    · exact absurd ⟨hs₁, ha.symm, hk.symm⟩ (hnone e₁ hm₁)
    · exact absurd ⟨hs₂, ha, hk⟩ (hnone e₂ hm₂)
    · rfl
  steady a ha := by
    rcases Table.mem_createOnce.1 ha with hm | ⟨-, rfl⟩
    · exact h.steady a hm
    · exact hlast
  seen x hx := by
    rcases List.mem_cons.1 hx with rfl | hx
    · exact ⟨e, Table.mem_createOnce.2 (.inr ⟨hadmits, rfl⟩), rfl⟩
    · obtain ⟨a, ha, hsight⟩ := h.seen x hx
      exact ⟨a, Table.mem_createOnce_of_mem ha, hsight⟩
  latest a ha hs := by
    rcases Table.mem_createOnce.1 ha with hm | ⟨-, rfl⟩
    · obtain ⟨n, rest, hn, hlist, hrest⟩ := h.latest a hm hs
      refine ⟨n, rest, hn, ?_, hrest⟩
      rw [← hlist]
      unfold sightingsOf
      refine List.filter_cons_of_neg fun hsame => hnone a hm ?_
      obtain ⟨haccount, hkey⟩ := of_decide_eq_true hsame
      exact ⟨hs, haccount.symm, hkey.symm⟩
    · refine ⟨1, sightingsOf sightings a.accountRef a.assetKey, le_refl 1, ?_, fun x hx => ?_⟩
      · simp [sightingsOf, Episode.sighting]
      · -- what was seen before is of other episodes
        obtain ⟨b, hb, rfl⟩ := h.seen x (List.mem_of_mem_filter hx)
        exact (hadmits b hb).1

theorem take_two (h : Watched t sightings) {e : Episode} (he : e ∈ t) (hs : e.status = .observing)
    (htwice : 2 ≤ sightings.count e.sighting) :
    (sightingsOf sightings e.accountRef e.assetKey).take 2 = [e.sighting, e.sighting] := by
  obtain ⟨n, rest, -, hlist, hrest⟩ := h.latest e he hs
  have hcount : sightings.count e.sighting = n := by
    have hfilter : (sightingsOf sightings e.accountRef e.assetKey).count e.sighting =
        sightings.count e.sighting :=
      List.count_filter (by simp [Episode.sighting])
    have hnone : rest.count e.sighting = 0 :=
      List.count_eq_zero.2 fun hmem => hrest _ hmem rfl
    rw [← hfilter, hlist, List.count_append, List.count_replicate_self, hnone, Nat.add_zero]
  obtain ⟨m, rfl⟩ : ∃ m, n = m + 2 := ⟨n - 2, by omega⟩
  rw [hlist]
  simp [List.replicate_succ]

end Watched

/-! ### What the transactions do -/

theorem openEpisode_ok {s s' : AdoptionBooks} {accountRef key : String} {qty : ℚ} {now : Instant}
    {r : Option String} (h : openEpisode s accountRef key qty now = .ok (r, s')) :
    r = none ∧ ∃ e : Episode, e.lastQty = e.firstQty ∧ s.unmanagedObservations.Admits e ∧
      (∀ a ∈ s.unmanagedObservations, ¬ (a.status = .observing ∧ a.accountRef = e.accountRef ∧
        a.assetKey = e.assetKey)) ∧
      s' = { s with
        unmanagedObservations := s.unmanagedObservations.createOnce e
        sightings := e.sighting :: s.sightings } := by
  unfold openEpisode at h
  obtain ⟨t, hinsert, h⟩ := except_bind_eq_ok.1 h
  cases h
  obtain ⟨⟨⟩, hnone, hinsert⟩ := except_bind_eq_ok.1 hinsert
  obtain ⟨hadmits, rfl⟩ := Quarantine.insertRow_eq_ok_iff.1 hinsert
  refine ⟨rfl, _, rfl, hadmits, fun a ha hopen => ?_, rfl⟩
  exact raiseIf_eq_ok_iff.1 hnone (List.any_eq_true.2 ⟨a, ha, by simpa using hopen⟩)

/-- What `observe` does: nothing, another sighting in the open episode, or the first sighting in a
new one. -/
theorem observe_ok {s s' : AdoptionBooks} {accountRef key : String} {qty : ℚ} {now : Instant}
    {r : Option String} (h : observe s accountRef key qty now = .ok (r, s')) :
    (r = none ∧ s' = s) ∨
      (∃ e ∈ s.unmanagedObservations, e.status = .observing ∧
        e.sighting = ⟨accountRef, key, e.episodeId, qty⟩ ∧ r = some e.episodeId ∧
        s' = { s with
          unmanagedObservations := s.unmanagedObservations.put { e with lastSeenAt := now }
          sightings := e.sighting :: s.sightings }) ∨
      (r = none ∧ ∃ t e, Follows s.unmanagedObservations t ∧ e.lastQty = e.firstQty ∧
        t.Admits e ∧
        (∀ a ∈ t, ¬ (a.status = .observing ∧ a.accountRef = e.accountRef ∧
          a.assetKey = e.assetKey)) ∧
        s' = { s with
          unmanagedObservations := t.createOnce e
          sightings := e.sighting :: s.sightings }) := by
  unfold observe at h
  by_cases hmanaged : s.managed key
  · rw [if_pos hmanaged] at h
    cases h
    exact .inl ⟨rfl, rfl⟩
  rw [if_neg hmanaged] at h
  cases hopen : s.observing accountRef key with
  | none =>
      simp only [hopen] at h
      obtain ⟨rfl, e, hlast, hadmits, hnone, rfl⟩ := openEpisode_ok h
      exact .inr (.inr ⟨rfl, _, e, .refl _, hlast, hadmits, hnone, rfl⟩)
  | some e =>
      simp only [hopen] at h
      have he : e ∈ s.unmanagedObservations := List.mem_of_find?_eq_some hopen
      have hprop := List.find?_some hopen
      obtain ⟨rfl, rfl, hs⟩ := of_decide_eq_true hprop
      by_cases hqty : e.firstQty = qty ∧ e.lastQty = qty
      · rw [if_pos hqty] at h
        obtain ⟨rfl, -⟩ := hqty
        cases h
        exact .inr (.inl ⟨e, he, hs, rfl, rfl, rfl⟩)
      · rw [if_neg hqty] at h
        obtain ⟨t, hclose, h⟩ := except_bind_eq_ok.1 h
        obtain ⟨rfl, e', hlast, hadmits, hnone, rfl⟩ := openEpisode_ok h
        exact .inr (.inr ⟨rfl, t, e', closeEpisode_ok (by decide) hclose, hlast, hadmits, hnone,
          rfl⟩)

/-- The row, the lot and the holding of an adoption agree. -/
structure Written.Agree (x : Written) : Prop where
  lotId : x.lot.lotId = adoptedLotPrefix ++ x.row.adoptionId
  quantity : x.lot.openedQuantity = x.row.adoptedQuantity ∧
    x.lot.remainingQuantity = x.row.adoptedQuantity ∧
    x.holding.quantity = x.row.adoptedQuantity
  price : x.lot.acquisitionPrice = x.row.brokerAvgEntryPrice ∧
    x.holding.averagePrice = x.row.brokerAvgEntryPrice
  stop : x.holding.stopLoss = some x.row.stopLoss
  time : x.lot.openedAt = x.row.adoptedAt

theorem agree_of_make {row : AdoptionRow} {lot : PositionLot} {holding : Holding}
    {recent : List Sighting} (hlot : adoptedLot row = .ok lot)
    (hholding : adoptedHolding row = .ok holding) : Written.Agree ⟨row, lot, holding, recent⟩ := by
  have hlot := PositionLot.make_eq_ok_iff.1 hlot
  have hholding := Holding.make_eq_ok_iff.1 hholding
  exact
    { lotId := congrArg PositionLotFields.lotId hlot
      quantity := ⟨congrArg PositionLotFields.openedQuantity hlot,
        congrArg PositionLotFields.remainingQuantity hlot, congrArg HoldingFields.quantity hholding⟩
      price := ⟨congrArg PositionLotFields.acquisitionPrice hlot,
        congrArg HoldingFields.averagePrice hholding⟩
      stop := congrArg HoldingFields.stopLoss hholding
      time := congrArg PositionLotFields.openedAt hlot }

/-- What `writeAdoption` does: nothing, or the row, the lot and the holding of a new source. -/
theorem writeAdoption_ok {s s' : AdoptionBooks} {row : AdoptionRow} {episode : Option String}
    {r : Bool} (h : writeAdoption s row episode = .ok (r, s')) :
    s' = s ∨ ∃ x : Written, x.row = row ∧ x.Agree ∧
      x.recent = (sightingsOf s.sightings row.accountRef row.assetKey).take 2 ∧
      (∀ a ∈ s.adoptionRows, ¬ SameSource a row) ∧
      s.adoptionRows.Admits row ∧ s.positionLots.Admits x.lot ∧ s.holdings.Admits x.holding ∧
      Follows s.unmanagedObservations s'.unmanagedObservations ∧
      s'.adoptionRows = s.adoptionRows.createOnce row ∧
      s'.positionLots = s.positionLots.createOnce x.lot ∧
      s'.holdings = s.holdings.createOnce x.holding ∧
      s'.sightings = s.sightings ∧ s'.written = s.written ++ [x] := by
  unfold writeAdoption at h
  by_cases htaken : s.managed row.assetKey ∨
      (s.adoptionRows.rows.any fun a => SameSource a row) = true
  · rw [if_pos htaken] at h
    cases h
    exact .inl rfl
  rw [if_neg htaken] at h
  obtain ⟨rows, hrows, h⟩ := except_bind_eq_ok.1 h
  obtain ⟨lot, hlot, h⟩ := except_bind_eq_ok.1 h
  obtain ⟨lots, hlots, h⟩ := except_bind_eq_ok.1 h
  obtain ⟨holding, hholding, h⟩ := except_bind_eq_ok.1 h
  obtain ⟨holdings, hholdings, h⟩ := except_bind_eq_ok.1 h
  obtain ⟨episodes, hepisodes, h⟩ := except_bind_eq_ok.1 h
  cases h
  obtain ⟨⟨⟩, -, hrows⟩ := except_bind_eq_ok.1 hrows
  obtain ⟨hadmits, rfl⟩ := Quarantine.insertRow_eq_ok_iff.1 hrows
  obtain ⟨hadmitsLot, rfl⟩ := Quarantine.insertRow_eq_ok_iff.1 hlots
  obtain ⟨hadmitsHolding, rfl⟩ := Quarantine.insertRow_eq_ok_iff.1 hholdings
  have hagree : Written.Agree ⟨row, lot, holding,
      (sightingsOf s.sightings row.accountRef row.assetKey).take 2⟩ := agree_of_make hlot hholding
  refine .inr ⟨⟨row, lot, holding, _⟩, rfl, hagree, rfl, fun a ha hsame => ?_, hadmits,
    hadmitsLot, hadmitsHolding, ?_, rfl, rfl, rfl, rfl, rfl⟩
  · exact htaken (.inr (List.any_eq_true.2 ⟨a, ha, by simpa using hsame⟩))
  · cases episode with
    | none =>
        cases hepisodes
        exact .refl _
    | some e => exact closeEpisode_ok (by decide) hepisodes

/-! ### The invariant -/

/-- A position that was not listed was seen twice with the quantity, in the episode that it was
adopted from. -/
def Written.Stable (x : Written) : Prop :=
  x.row.classification = .unexpectedExternal →
    x.recent = List.replicate 2
      ⟨x.row.accountRef, x.row.assetKey, x.row.sourceId, x.row.adoptedQuantity⟩

instance (x : Written) : Decidable x.Stable := inferInstanceAs (Decidable (_ → _))

/-- The identities of the adopted lots. -/
def adoptedLotIds (s : AdoptionBooks) : List String :=
  (s.positionLots.rows.map (·.lotId)).filter (·.startsWith adoptedLotPrefix)

/-- What holds of the tables at any time. -/
structure Sound (s : AdoptionBooks) : Prop where
  watched : Watched s.unmanagedObservations s.sightings
  rows : s.adoptionRows.rows = s.written.map (·.row)
  sources : s.adoptionRows.rows.Pairwise fun a b => ¬ SameSource a b
  lots : ∀ x ∈ s.written, ∃ lot ∈ s.positionLots,
    lot.lotId = adoptedLotPrefix ++ x.row.adoptionId ∧ SameOpening x.lot lot
  adopted : adoptedLotIds s = s.written.map fun x => adoptedLotPrefix ++ x.row.adoptionId
  agree : ∀ x ∈ s.written, x.Agree
  stable : ∀ x ∈ s.written, x.Stable

/-- The row, the lot and the holding of an adoption are written together, or none of them is. -/
def Together (s s' : AdoptionBooks) : Prop :=
  (s'.adoptionRows = s.adoptionRows ∧ adoptedLotIds s' = adoptedLotIds s) ∨
    ∃ x : Written, x.Agree ∧ s'.adoptionRows.rows = s.adoptionRows.rows ++ [x.row] ∧
      s'.positionLots.rows = s.positionLots.rows ++ [x.lot] ∧
      s'.holdings.rows = s.holdings.rows ++ [x.holding]

/-- The episode that a position is adopted from is open when the adoption is written. -/
def StillObserving : AdoptionOp → StopAnswer → AdoptionBooks → Prop
  | .writeAdoption _ (some episode), _, s =>
      ∃ e ∈ s.unmanagedObservations.rows, e.episodeId = episode ∧ e.status = .observing
  | _, _, _ => True

instance : ∀ o i s, Decidable (StillObserving o i s)
  | .writeAdoption _ (some _), _, _ => inferInstanceAs (Decidable (∃ e ∈ _, _))
  | .writeAdoption _ none, _, _ => isTrue trivial
  | .loadBoundOpeningCheckpoint, _, _ => isTrue trivial
  | .closeVanished _ _ _, _, _ => isTrue trivial
  | .eligible _ _, _, _ => isTrue trivial
  | .observe _ _ _ _, _, _ => isTrue trivial
  | .entryStopLoss _, _, _ => isTrue trivial
  | .alertOnce _, _, _ => isTrue trivial

/-- What a pass knows of an adoption that it writes: it has seen the position twice in the
episode. -/
def Justified (s : AdoptionBooks) (row : AdoptionRow) (episode : Option String) : Prop :=
  row.classification = .unexpectedExternal → episode = some row.sourceId ∧
    2 ≤ s.sightings.count ⟨row.accountRef, row.assetKey, row.sourceId, row.adoptedQuantity⟩

namespace Sound

variable {s s' : AdoptionBooks}

theorem of_episodes (h : Sound s) (hwatched : Watched s'.unmanagedObservations s'.sightings)
    (hrows : s'.adoptionRows = s.adoptionRows) (hlots : s'.positionLots = s.positionLots)
    (hwritten : s'.written = s.written) : Sound s' where
  watched := hwatched
  rows := by rw [hrows, hwritten, h.rows]
  sources := by rw [hrows]; exact h.sources
  lots := by rw [hwritten, hlots]; exact h.lots
  adopted := by
    unfold adoptedLotIds
    rw [hwritten, hlots]
    exact h.adopted
  agree := by rw [hwritten]; exact h.agree
  stable := by rw [hwritten]; exact h.stable

theorem observe {accountRef key : String} {qty : ℚ} {now : Instant} {r : Option String}
    (h : Sound s) (hobserve : observe s accountRef key qty now = .ok (r, s')) :
    Sound s' ∧ s.sightings <:+ s'.sightings ∧ (s'.adoptionRows = s.adoptionRows ∧
      s'.positionLots = s.positionLots) ∧
      ∀ episode, r = some episode →
        2 ≤ s'.sightings.count ⟨accountRef, key, episode, qty⟩ := by
  rcases observe_ok hobserve with
    ⟨rfl, rfl⟩ | ⟨e, he, hs, hsight, rfl, rfl⟩ | ⟨rfl, t, e, hf, hlast, hadmits, hnone, rfl⟩
  · exact ⟨h, List.suffix_refl _, ⟨rfl, rfl⟩, fun _ he => (by cases he)⟩
  · have hput : Follows s.unmanagedObservations
        (s.unmanagedObservations.put { e with lastSeenAt := now }) :=
      .put he ⟨rfl, rfl, rfl, rfl, rfl, id⟩
    refine ⟨h.of_episodes ((h.watched.again he hs).follows hput) rfl rfl rfl,
      List.suffix_cons _ _, ⟨rfl, rfl⟩, fun episode hepisode => ?_⟩
    cases hepisode
    -- an open episode has been seen before
    obtain ⟨n, rest, hn, hlist, -⟩ := h.watched.latest e he hs
    have hmem : e.sighting ∈ s.sightings := by
      refine List.mem_of_mem_filter (p := fun x => x.accountRef = e.accountRef ∧
        x.assetKey = e.assetKey) ?_
      change e.sighting ∈ sightingsOf s.sightings e.accountRef e.assetKey
      rw [hlist]
      exact List.mem_append_left _ (List.mem_replicate.2 ⟨by omega, rfl⟩)
    rw [← hsight]
    show 2 ≤ (e.sighting :: s.sightings).count e.sighting
    rw [List.count_cons_self]
    have := List.one_le_count_iff.2 hmem
    omega
  · exact ⟨h.of_episodes ((h.watched.follows hf).opened hadmits hnone hlast) rfl rfl rfl,
      List.suffix_cons _ _, ⟨rfl, rfl⟩, fun _ he => (by cases he)⟩

theorem closeVanished {accountRef : String} {held : List (String × ℚ)} {now : Instant}
    (h : Sound s) (hclose : closeVanished s accountRef held now = .ok s') :
    Sound s' ∧ s'.sightings = s.sightings ∧ s'.adoptionRows = s.adoptionRows ∧
      s'.positionLots = s.positionLots := by
  obtain ⟨t, ht, hclose⟩ := except_bind_eq_ok.1 hclose
  cases hclose
  exact ⟨h.of_episodes (h.watched.follows (closeAll_ok ht)) rfl rfl rfl, rfl, rfl, rfl⟩

/-- An adoption is written while its episode is open. -/
theorem writeAdoption {row : AdoptionRow} {episode : Option String} {r : Bool} {i : StopAnswer}
    (h : Sound s) (hjust : Justified s row episode)
    (hopen : StillObserving (.writeAdoption row episode) i s)
    (hwrite : writeAdoption s row episode = .ok (r, s')) :
    Sound s' ∧ s'.sightings = s.sightings ∧ Together s s' := by
  rcases writeAdoption_ok hwrite with rfl | ⟨x, rfl, hagree, hrecent, hsource, hadmits, hadmitsLot,
    hadmitsHolding, hf, hrows, hlots, hholdings, hsightings, hwritten⟩
  · exact ⟨h, rfl, .inl ⟨rfl, rfl⟩⟩
  have hrowsEq : s'.adoptionRows.rows = s.adoptionRows.rows ++ [x.row] := by
    rw [hrows, Table.rows_createOnce hadmits]
  have hlotsEq : s'.positionLots.rows = s.positionLots.rows ++ [x.lot] := by
    rw [hlots, Table.rows_createOnce hadmitsLot]
  refine ⟨⟨?_, ?_, ?_, ?_, ?_, ?_, ?_⟩, hsightings, .inr ⟨x, hagree, hrowsEq, hlotsEq, ?_⟩⟩
  · rw [hsightings]
    exact h.watched.follows hf
  · rw [hrowsEq, hwritten, h.rows, List.map_append]
    rfl
  · rw [hrowsEq]
    refine List.pairwise_append.2 ⟨h.sources, List.pairwise_singleton _ _, fun a ha b hb => ?_⟩
    rw [List.mem_singleton.1 hb]
    exact hsource a ha
  · intro y hy
    rw [hwritten] at hy
    rcases List.mem_append.1 hy with hy | hy
    · obtain ⟨lot, hlot, hid⟩ := h.lots y hy
      exact ⟨lot, by rw [hlots]; exact Table.mem_createOnce_of_mem hlot, hid⟩
    · rw [List.mem_singleton.1 hy]
      exact ⟨x.lot, by rw [hlots]; exact Table.mem_createOnce.2 (.inr ⟨hadmitsLot, rfl⟩),
        hagree.lotId, rfl, rfl, rfl, rfl⟩
  · have hstarts : (adoptedLotPrefix ++ x.row.adoptionId).startsWith adoptedLotPrefix = true :=
      String.startsWith_string_iff.2 (by rw [String.toList_append]; exact List.prefix_append _ _)
    unfold adoptedLotIds
    rw [hlotsEq, hwritten, List.map_append, List.filter_append, List.map_append]
    have hadopted := h.adopted
    unfold adoptedLotIds at hadopted
    rw [hadopted]
    simp [hagree.lotId, hstarts]
  · intro y hy
    rw [hwritten] at hy
    rcases List.mem_append.1 hy with hy | hy
    · exact h.agree y hy
    · rw [List.mem_singleton.1 hy]
      exact hagree
  · intro y hy
    rw [hwritten] at hy
    rcases List.mem_append.1 hy with hy | hy
    · exact h.stable y hy
    · rw [List.mem_singleton.1 hy]
      intro hclass
      obtain ⟨rfl, htwice⟩ := hjust hclass
      obtain ⟨e, he, hid, hs⟩ := hopen
      -- the sightings were of this very episode
      have hseen := List.count_pos_iff.1 (Nat.lt_of_lt_of_le Nat.zero_lt_two htwice)
      obtain ⟨e', he', hsight⟩ := h.watched.seen _ hseen
      obtain rfl : e' = e := by
        refine Table.eq_of_recordId he' he ?_
        show e'.episodeId = e.episodeId
        rw [hid]
        exact congrArg Sighting.episodeId hsight
      have htake := h.watched.take_two he hs (by rw [hsight]; exact htwice)
      have haccount : e'.accountRef = x.row.accountRef := congrArg Sighting.accountRef hsight
      have hkey : e'.assetKey = x.row.assetKey := congrArg Sighting.assetKey hsight
      rw [hrecent, ← haccount, ← hkey, htake, hsight, haccount, hkey]
      rfl
  · rw [hholdings, Table.rows_createOnce hadmitsHolding]

end Sound

theorem map_lotId_put (t : Table PositionLot) (lot : PositionLot) :
    (t.put lot).rows.map (·.lotId) = t.rows.map (·.lotId) := by
  show (t.rows.map fun a => if SameKeys a lot then lot else a).map (·.lotId) = _
  rw [List.map_map]
  refine List.map_congr_left fun a _ => ?_
  show (if SameKeys a lot then lot else a).lotId = a.lotId
  by_cases h : SameKeys a lot
  · rw [if_pos h]
    exact h.1.symm
  · rw [if_neg h]

theorem Sound.elsewhere {s s' : AdoptionBooks} {t : Elsewhere} (h : Sound s)
    (henv : elsewhere s t = some s') :
    Sound s' ∧ s'.sightings = s.sightings ∧ Together s s' := by
  cases t with
  | saveHolding holding =>
      cases henv
      exact ⟨h.of_episodes h.watched rfl rfl rfl, rfl, .inl ⟨rfl, rfl⟩⟩
  | deleteHolding key =>
      cases henv
      exact ⟨h.of_episodes h.watched rfl rfl rfl, rfl, .inl ⟨rfl, rfl⟩⟩
  | convertLot lotId =>
      cases henv
      exact ⟨h.of_episodes h.watched rfl rfl rfl, rfl, .inl ⟨rfl, rfl⟩⟩
  | quarantine openRecords =>
      cases henv
      exact ⟨h.of_episodes h.watched rfl rfl rfl, rfl, .inl ⟨rfl, rfl⟩⟩
  | bind checkpoint =>
      cases henv
      exact ⟨h.of_episodes h.watched rfl rfl rfl, rfl, .inl ⟨rfl, rfl⟩⟩
  | saveLot lot =>
      simp only [Adopting.elsewhere] at henv
      cases hget : s.positionLots.get? lot.lotId with
      | none =>
          rw [hget] at henv
          cases henv
      | some old =>
          simp only [hget] at henv
          by_cases hsame : SameOpening old lot
          · rw [if_pos hsame] at henv
            cases henv
            obtain ⟨hold, hid⟩ := Table.get?_eq_some_iff.1 hget
            have hkeys : SameKeys old lot := ⟨hid, congrArg some hsame.1⟩
            have hids : adoptedLotIds { s with positionLots := s.positionLots.put lot } =
                adoptedLotIds s := by
              unfold adoptedLotIds
              rw [map_lotId_put]
            refine ⟨⟨h.watched, h.rows, h.sources, fun x hx => ?_, hids.trans h.adopted, h.agree,
              h.stable⟩, rfl, .inl ⟨rfl, hids⟩⟩
            obtain ⟨l, hl, hlid, hopening⟩ := h.lots x hx
            by_cases heq : l = old
            · subst heq
              exact ⟨lot, (Table.mem_put hold hkeys).2 (.inl rfl), by rw [← hlid]; exact hid.symm,
                hopening.1.trans hsame.1, hopening.2.1.trans hsame.2.1,
                hopening.2.2.1.trans hsame.2.2.1, hopening.2.2.2.trans hsame.2.2.2⟩
            · exact ⟨l, (Table.mem_put hold hkeys).2 (.inr ⟨hl, heq⟩), hlid, hopening⟩
          · rw [if_neg hsame] at henv
            cases henv
  | createLot lot =>
      simp only [Adopting.elsewhere] at henv
      by_cases horigin : lot.origin = .fill
      · rw [if_pos horigin] at henv
        cases henv
        have hstarts : lot.lotId.startsWith adoptedLotPrefix = false := by
          unfold PositionLot.origin at horigin
          by_contra hc
          rw [Bool.not_eq_false] at hc
          rw [if_pos hc] at horigin
          cases horigin
        have hids : adoptedLotIds { s with positionLots := s.positionLots.createOnce lot } =
            adoptedLotIds s := by
          unfold adoptedLotIds
          by_cases hadmits : s.positionLots.Admits lot
          · show ((s.positionLots.createOnce lot).rows.map _).filter _ = _
            rw [Table.rows_createOnce hadmits]
            simp [hstarts]
          · show ((s.positionLots.createOnce lot).rows.map _).filter _ = _
            rw [Table.createOnce_of_not_admits hadmits]
        refine ⟨⟨h.watched, h.rows, h.sources, fun x hx => ?_, hids.trans h.adopted, h.agree,
          h.stable⟩, rfl, .inl ⟨rfl, hids⟩⟩
        obtain ⟨l, hl, hrest⟩ := h.lots x hx
        exact ⟨l, Table.mem_createOnce_of_mem hl, hrest⟩
      · rw [if_neg horigin] at henv
        cases henv

/-! ### The pass -/

/-- Passes are judged by the invariant; a position that was seen stays seen. -/
def adopting : Setting AdoptionBooks StopAnswer Raised AdoptionOp.Res where
  exec := exec
  inv := Sound
  rely s s' := s.sightings <:+ s'.sightings
  cond := StillObserving
  guar _ s s' := s.sightings <:+ s'.sightings ∧ Together s s'

theorem stable_justified (row : AdoptionRow) (episode : Option String) :
    adopting.Stable fun s => Justified s row episode := by
  intro s s' _ _ hjust hrely hclass
  obtain ⟨hepisode, htwice⟩ := hjust hclass
  exact ⟨hepisode, htwice.trans (hrely.sublist.count_le _)⟩

theorem sat_perform {o : AdoptionOp} (hother : ∀ row episode, o ≠ .writeAdoption row episode)
    {K : AdoptionBooks → Prop} (hK : adopting.Stable K) :
    Sat adopting (perform o) K (fun _ => K) fun _ _ => True := by
  refine Sat.perform (fun _ => hK) hK (fun _ _ _ _ => trivial) fun i s r s' hs hk hc hx => ?_
  have hsound : Sound s' ∧ s.sightings <:+ s'.sightings ∧ Together s s' := by
    cases o with
    | loadBoundOpeningCheckpoint =>
        cases hx
        exact ⟨hs, List.suffix_refl _, .inl ⟨rfl, rfl⟩⟩
    | closeVanished accountRef held now =>
        obtain ⟨t, hclose, hx⟩ := except_bind_eq_ok.1 hx
        cases hx
        obtain ⟨hs', hsightings, hrows, hlots⟩ := hs.closeVanished hclose
        refine ⟨hs', by rw [hsightings], .inl ⟨hrows, ?_⟩⟩
        unfold adoptedLotIds
        rw [hlots]
    | eligible p key =>
        cases hx
        exact ⟨hs, List.suffix_refl _, .inl ⟨rfl, rfl⟩⟩
    | observe accountRef key qty now =>
        obtain ⟨hs', hsuffix, ⟨hrows, hlots⟩, -⟩ := hs.observe hx
        refine ⟨hs', hsuffix, .inl ⟨hrows, ?_⟩⟩
        unfold adoptedLotIds
        rw [hlots]
    | entryStopLoss p =>
        cases hx
        exact ⟨hs, List.suffix_refl _, .inl ⟨rfl, rfl⟩⟩
    | alertOnce event =>
        cases hx
        exact ⟨hs.of_episodes hs.watched rfl rfl rfl, List.suffix_refl _, .inl ⟨rfl, rfl⟩⟩
    | writeAdoption row episode => exact absurd rfl (hother row episode)
  exact ⟨hsound.1, hsound.2, hK s s' hs hsound.1 hk hsound.2.1⟩

/-- A position that `observe` returns an episode for was seen twice in it. -/
theorem sat_observe (accountRef key : String) (qty : ℚ) (now : Instant) :
    Sat adopting (perform (.observe accountRef key qty now)) (fun _ => True)
      (fun r s => ∀ episode, r = some episode →
        2 ≤ s.sightings.count ⟨accountRef, key, episode, qty⟩) fun _ _ => True := by
  refine Sat.perform (fun r => ?_) (.const True) (fun _ _ _ _ => trivial)
    fun i s r s' hs _ _ hx => ?_
  · intro s s' _ _ htwice hrely episode hepisode
    exact (htwice episode hepisode).trans (hrely.sublist.count_le _)
  · obtain ⟨hs', hsuffix, ⟨hrows, hlots⟩, htwice⟩ := hs.observe hx
    refine ⟨hs', ⟨hsuffix, .inl ⟨hrows, ?_⟩⟩, htwice⟩
    unfold adoptedLotIds
    rw [hlots]

theorem sat_writeAdoption (row : AdoptionRow) (episode : Option String) :
    Sat adopting (perform (.writeAdoption row episode)) (fun s => Justified s row episode)
      (fun _ _ => True) fun _ _ => True := by
  refine Sat.perform (fun _ => .const True) (stable_justified row episode)
    (fun _ _ _ _ => trivial) fun i s r s' hs hjust hc hx => ?_
  obtain ⟨hs', hsightings, htogether⟩ := hs.writeAdoption hjust hc hx
  exact ⟨hs', ⟨by rw [hsightings], htogether⟩, trivial⟩

theorem sat_refuseStop (key : String) (now : Instant) :
    Sat adopting (refuseStop key now) (fun _ => True) (fun _ _ => True) fun _ _ => True :=
  sat_perform (by simp) (.const True)

/-- An adoption from a source: from an opening, or from an episode that the position was seen twice
in. -/
theorem sat_adoptFrom {digest : String → String} {accountRef key : String} {p : Position}
    {classification : Classification} {sourceId : String} {episode : Option String}
    {now : Instant} :
    Sat adopting (adoptFrom digest accountRef key p classification sourceId episode now)
      (fun s => classification = .unexpectedExternal → episode = some sourceId ∧
        2 ≤ s.sightings.count ⟨accountRef, key, sourceId, p.qty⟩)
      (fun _ _ => True) fun _ _ => True := by
  have hweak : ∀ {prog : Adopt Unit} {K : AdoptionBooks → Prop},
      Sat adopting prog (fun _ => True) (fun _ _ => True) (fun _ _ => True) →
        Sat adopting prog K (fun _ _ => True) fun _ _ => True :=
    fun h => h.mono (fun _ _ _ => trivial) (fun _ _ _ _ => trivial) fun _ _ _ _ => trivial
  unfold adoptFrom
  by_cases hprice : p.avgEntryPrice ≤ 0 ∨ p.currentPrice ≤ 0
  · rw [if_pos hprice]
    exact hweak (sat_refuseStop key now)
  rw [if_neg hprice]
  refine Sat.bind_of (sat_perform (by simp) fun s s' _ _ hk hrely hclass =>
    ⟨(hk hclass).1, (hk hclass).2.trans (hrely.sublist.count_le _)⟩) fun answer => ?_
  cases answer with
  | error reason => exact hweak (sat_refuseStop key now)
  | ok found =>
      refine Sat.bind_of (Q := fun _ _ => True) ?_ fun written => ?_
      · exact (sat_writeAdoption _ _).mono (fun s _ hk => hk) (fun _ _ _ _ => trivial)
          fun _ _ _ _ => trivial
      · cases written with
        | true => exact sat_perform (by simp) (.const True)
        | false => exact fun _ _ _ => trivial

theorem sat_adoptPosition {digest : String → String} {accountRef : String}
    {checkpoint : Option OpeningCheckpoint} {now : Instant} (p : Position) :
    Sat adopting (adoptPosition digest accountRef checkpoint now p) (fun _ => True)
      (fun _ _ => True) fun _ _ => True := by
  unfold adoptPosition
  cases positionKey p with
  | error e => exact fun _ _ _ => trivial
  | ok key =>
      refine Sat.bind_of (sat_perform (by simp) (.const True)) fun reason => ?_
      cases reason with
      | some reason => exact fun _ _ _ => trivial
      | none =>
          cases classify checkpoint key p.qty with
          | some checkpointId =>
              exact sat_adoptFrom.mono (fun _ _ _ hc => by cases hc) (fun _ _ _ _ => trivial)
                fun _ _ _ _ => trivial
          | none =>
              refine Sat.bind_of (sat_observe accountRef key p.qty now) fun seen => ?_
              cases seen with
              | none => exact fun _ _ _ => trivial
              | some episode =>
                  exact sat_adoptFrom.mono (fun _ _ htwice _ => ⟨rfl, htwice episode rfl⟩)
                    (fun _ _ _ _ => trivial) fun _ _ _ _ => trivial

theorem sound_adopting (digest : String → String) : Pool.Sound (system digest) adopting where
  exec := rfl
  guar _ _ _ _ _ hg := hg.1
  env t s s' hs ht := by
    obtain ⟨hs', hsightings, -⟩ := hs.elsewhere ht
    exact ⟨hs', by show s.sightings <:+ s'.sightings; rw [hsightings]⟩
  call a s _ := by
    refine ⟨fun _ => True, .const True, trivial, ?_⟩
    refine Sat.bind_of (sat_perform (by simp) (.const True)) fun checkpoint => ?_
    refine Sat.bind_of (Q := fun _ _ => True) (Sat.ofExcept (fun _ _ _ _ _ => trivial)
      fun _ _ _ _ _ => trivial) fun held => ?_
    refine Sat.bind_of (sat_perform (by simp) (.const True)) fun _ => ?_
    exact Sat.forEach (L := fun _ _ => True) (fun p _ => sat_adoptPosition p) a.positions

/-! ### Exactly once -/

/-- Where nothing was adopted and nothing is watched. -/
structure Fresh (s : AdoptionBooks) : Prop where
  episodes : s.unmanagedObservations.rows = []
  adoptions : s.adoptionRows.rows = []
  lots : adoptedLotIds s = []
  sightings : s.sightings = []
  written : s.written = []

theorem Fresh.sound {s : AdoptionBooks} (h : Fresh s) : Sound s where
  watched := by
    have hnone : ∀ e ∈ s.unmanagedObservations, False := by
      intro e he
      rw [Table.mem_def, h.episodes] at he
      cases he
    refine ⟨fun e he => (hnone e he).elim, fun e he => (hnone e he).elim, fun x hx => ?_,
      fun e he => (hnone e he).elim⟩
    rw [h.sightings] at hx
    cases hx
  rows := by rw [h.adoptions, h.written]; rfl
  sources := by rw [h.adoptions]; exact .nil
  lots := by rw [h.written]; exact fun x hx => absurd hx List.not_mem_nil
  adopted := by rw [h.lots, h.written]; rfl
  agree := by rw [h.written]; exact fun x hx => absurd hx List.not_mem_nil
  stable := by rw [h.written]; exact fun x hx => absurd hx List.not_mem_nil

/-- What follows the prefix of an adopted lot. -/
theorem eq_append_of_adoptionId {lot : PositionLot} {adoptionId : String}
    (h : lot.adoptionId = some adoptionId) : lot.lotId = adoptedLotPrefix ++ adoptionId := by
  unfold PositionLot.adoptionId PositionLot.origin at h
  by_cases hstarts : lot.lotId.startsWith adoptedLotPrefix = true
  · simp only [hstarts, if_true, Option.some.injEq] at h
    obtain ⟨rest, hrest⟩ := String.startsWith_string_iff.1 hstarts
    rw [← h]
    unfold afterPrefix
    refine String.ext ?_
    rw [String.toList_append, String.toList_ofList, ← hrest, List.drop_left' String.length_toList]
  · simp [hstarts] at h

/-- **What adoption promises.** -/
structure ExactlyOnce (s : AdoptionBooks) : Prop where
  /-- Each source is adopted once at most. -/
  sources : s.adoptionRows.rows.Pairwise fun a b => ¬ SameSource a b
  /-- An adoption is a row, a lot and a holding, -/
  rows : s.adoptionRows.rows = s.written.map (·.row)
  /-- which agree, -/
  agree : ∀ x ∈ s.written, x.Agree
  /-- and the lot, as it was opened, is the only one of the adoption; -/
  lots : ∀ x ∈ s.written, ∃ lot ∈ s.positionLots, SameOpening x.lot lot ∧
    ∀ l ∈ s.positionLots, l.adoptionId = some x.row.adoptionId → l = lot
  /-- no other lot is adopted. -/
  adopted : adoptedLotIds s = s.written.map (·.lot.lotId)
  /-- A position that was not listed was seen twice with the quantity. -/
  stable : ∀ x ∈ s.written, x.Stable
  /-- A position has one open episode at most. -/
  observing : ∀ e ∈ s.unmanagedObservations, ∀ e' ∈ s.unmanagedObservations,
    e.status = .observing → e'.status = .observing →
    e'.accountRef = e.accountRef → e'.assetKey = e.assetKey → e' = e

theorem Sound.exactlyOnce {s : AdoptionBooks} (h : Sound s) : ExactlyOnce s where
  sources := h.sources
  rows := h.rows
  agree := h.agree
  lots x hx := by
    obtain ⟨lot, hlot, hid, hopening⟩ := h.lots x hx
    refine ⟨lot, hlot, hopening, fun l hl hadopted => ?_⟩
    exact Table.eq_of_recordId hl hlot ((eq_append_of_adoptionId hadopted).trans hid.symm)
  adopted := by
    rw [h.adopted]
    exact List.map_congr_left fun x hx => (h.agree x hx).lotId.symm
  stable := h.stable
  observing := h.watched.one

section Runs

/-- Some shares that nothing here manages. -/
private def shares (qty : ℚ) : Position :=
  { symbol := "AAPL", assetClass := .equity, qty := qty, avgEntryPrice := 100,
    currentPrice := 110 }

/-- A pass that sees some shares. -/
private def seesShares (qty : ℚ) (now : Instant) : PassArgs :=
  { accountRef := "acct", positions := [shares qty], now := now }

/-- A transaction of a pass; the stop is at 95. -/
private def goes (pass : ℕ) : Act StopAnswer Raised PassArgs Elsewhere :=
  .run pass (.ok (95, "pct_fallback"))

/-- The shares are seen by one pass, and adopted by the next one. -/
private def adoptedShares : List (Act StopAnswer Raised PassArgs Elsewhere) :=
  [.start (seesShares 10 1), goes 0, goes 0, goes 0, goes 0,
    .start (seesShares 10 2), goes 1, goes 1, goes 1, goes 1, goes 1, goes 1, goes 1]

/-- The shares were seen by one pass.  A second one sees them again and fetches candles; a third
one sees that there are twelve of them; then the second one writes. -/
private def adoptedTen : List (Act StopAnswer Raised PassArgs Elsewhere) :=
  [.start (seesShares 10 1), goes 0, goes 0, goes 0, goes 0,
    .start (seesShares 10 2), goes 1, goes 1, goes 1, goes 1, goes 1,
    .start (seesShares 12 3), goes 2, goes 2, goes 2, goes 2, goes 1]

end Runs

end Adopting

end TradePulse
